import TrueSealSync.Lib.Run
import TrueSealSync.Lib.Simulation
import TrueSealSync.Lib.Progress
import TrueSealSync.Lib.Binary64
import TrueSealSync.Lib.Oneshot
import TrueSealSync.Lib.Throwing
import TrueSealSync.Lib.Json
import TrueSealSync.Lib.Fallible
import TrueSealSync.Lib.Files
import TrueSealSync.Lib.NodePackage
import TrueSealSync.Lib.NumberText
import TrueSealSync.Lib.Hex
import TrueSealSync.Lib.Utf16
import TrueSealSync.Native.PendingAcks
import TrueSealSync.Native.Invariant
import TrueSealSync.Native.Origin
import TrueSealSync.Native.Acknowledgement
import TrueSealSync.Native.Close
import TrueSealSync.Native.Routing
import TrueSealSync.Native.InFlight
import TrueSealSync.Native.AckNumber
import TrueSealSync.Native.Ledger
import TrueSealSync.Native.MapOrder
import TrueSealSync.Native.Progress
import TrueSealSync.Sdk.Realm
import TrueSealSync.Sdk.Dispatcher
import TrueSealSync.Sdk.Settlement
import TrueSealSync.Sdk.FanOut
import TrueSealSync.Sdk.Subscriptions
import TrueSealSync.Sdk.Callbacks
import TrueSealSync.Sdk.Errors
import TrueSealSync.Sdk.CoreSession
import TrueSealSync.Sdk.TrueSeal
import TrueSealSync.Sdk.Wire
import TrueSealSync.Sdk.RelayAddress
import TrueSealSync.System.Delivery
import TrueSealSync.System.Bridge
import TrueSealSync.System.EventLoop
import TrueSealSync.System.Progress
import TrueSealSync.System.Streams
import TrueSealSync.Release.Parity
import TrueSealSync.Release.SelfTest
import TrueSealSync.Release.Install
import TrueSealSync.Release.Loader
import TrueSealSync.Release.Promote
import TrueSealSync.Release.Candidate
import TrueSealSync.Release.Stamp
