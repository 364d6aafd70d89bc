/-
  File:      TrueSealSync/Sdk/CoreSession.lean
  Subject:   THE NATIVE SESSION as the TypeScript layer sees it: each method asks the core and throws
             its error through `typed_err`.

  * `CoreCall`, `Core` -- the fallible methods of the core, and what it answers them: anything,
    depending on what reached it before;
  * `Instance` -- one `TrueSeal` object with its session, its two fan-outs and the user's state;
  * `Program` -- everything around the object: the core, the listeners, the rest of the realm;
  * `ask`, and the methods of `CoreSession` that are written with it.

  The part `close()` and `onMessage` have in the acknowledgement of messages is the subject of the
  Native modules.
-/
import TrueSealSync.Native.PendingAcks
import TrueSealSync.Sdk.Errors
import TrueSealSync.Sdk.FanOut

namespace TrueSealSync.Sdk

open TrueSealSync.Lib
open TrueSealSync.Native (Member)

/-! ## 1. The core -/

/-- The connection state of the core. -/
inductive ConnectionState where
  | connecting
  | connected
  | disconnected
  | relayVersionUnsupported (min max : UInt32)
  deriving DecidableEq

/-- The fallible methods of the core's object. -/
inductive CoreCall where
  | status
  | me
  | members
  | connection
  | onMessage
  | send (body : List UInt8)
  | startPairing
  | accept (requestId : String)
  | cancelPairing
  | join (token : String)
  | cancelJoin
  | remove (memberId : String)
  | leave
  | destroyGroup
  deriving DecidableEq

/-- What each of them answers. -/
def CoreCall.Answer : CoreCall → Type
  | .status => GroupStatus
  | .me => Member
  | .members => List Member
  | .connection => ConnectionState
  | .send _ | .startPairing => String
  | .onMessage | .accept _ | .cancelPairing | .join _ | .cancelJoin | .remove _ | .leave
  | .destroyGroup => Unit

/-- What reaches the core. -/
inductive CoreEvent where
  | called (call : CoreCall)
  | closed
  deriving DecidableEq

/-- What the core answers a call after the events `history`. -/
abbrev Core : Type := (history : List CoreEvent) → (call : CoreCall) → Except CoreError call.Answer

/-- Once `close()` has returned, every fallible method answers `Closed`. -/
def Core.ClosedForGood (core : Core) : Prop :=
  ∀ history call, .closed ∈ history → core history call = .error .closed

/-! ## 2. The object and what is around it -/

/-- One `TrueSeal` object: its fan-outs, and of its session what reached the core and the handler
    whose registration is held; `υ` is the state of the user. -/
structure Instance (ι κ υ : Type) where
  history : List CoreEvent := []
  handlerSub : Option Fn := none
  events : FanOut ι PUnit := { user := ⟨⟩ }
  issues : FanOut κ PUnit := { user := ⟨⟩ }
  user : υ

/-- The process user code and the object share. -/
abbrev Process (ι κ υ : Type) : Type := Host (Instance ι κ υ)

/-- The process as a fan-out sees it: its listeners may change all of it. -/
def FanOut.within {ι υ υ' : Type} (f : FanOut ι υ) (user : υ') : FanOut ι υ' where
  listeners := f.listeners
  buffer := f.buffer
  subscriptions := f.subscriptions
  ticks := f.ticks
  user := user
  calls := f.calls
  raised := f.raised

/-- What reached the core in `w` has reached it in `w'`. -/
def Extends {ι κ υ : Type} (w w' : Process ι κ υ) : Prop := w.rest.history <+: w'.rest.history

/-- Everything around the object. What user code does is arbitrary, except that it reaches the core
    through calls only, and a call once made stays made. -/
structure Program (ι κ υ : Type) where
  core : Core
  /-- the core's text of an error -/
  toString : CoreError → String
  realm : Realm (Process ι κ υ)
  conversionError : JsVal
  eventListeners : Listeners ι (Process ι κ υ)
  issueListeners : Listeners κ (Process ι κ υ)
  realm_extends : realm.Preserves Extends
  events_extend : ∀ l item w, Extends w.user (eventListeners l item w).user
  issues_extend : ∀ l item w, Extends w.user (issueListeners l item w).user

section Methods

variable {ι κ υ : Type}

/-- The process after `e` reached the core. -/
def reached (w : Process ι κ υ) (e : CoreEvent) : Process ι κ υ :=
  { w with rest := { w.rest with history := w.rest.history ++ [e] } }

variable (program : Program ι κ υ)

/-- `self.inner.<call>(..).map_err(|e| typed_err(&env, e))?`. -/
def ask (call : CoreCall) : Js (Process ι κ υ) call.Answer := do
  let w ← get
  set (reached w (.called call))
  match program.core w.rest.history call with
  | .ok answer => pure answer
  | .error e => typedErr program.toString e

/-! ## 3. The methods -/

namespace CoreSession

/-- The canonical code of the status. -/
def status : Js (Process ι κ υ) String := do
  return groupStatusCode (← ask program .status)

def me : Js (Process ι κ υ) Member := ask program .me

def members : Js (Process ι κ υ) (List Member) := ask program .members

/-- The connection state for the `connection` getter: a plain state string, plus `min` and `max`
    when the state is `relayVersionUnsupported`. -/
structure ConnectionInfo where
  state : String
  min : JsVal := .undefined
  max : JsVal := .undefined

def connection : Js (Process ι κ υ) ConnectionInfo := do
  match ← ask program .connection with
  | .relayVersionUnsupported min max =>
      return ⟨"relayVersionUnsupported", createUint32 min, createUint32 max⟩
  | .connecting => return { state := "connecting" }
  | .connected => return { state := "connected" }
  | .disconnected => return { state := "disconnected" }

/-- Register the message handler; its registration is kept. -/
def onMessage (handler : Fn) : Js (Process ι κ υ) PUnit := do
  let () ← ask program .onMessage
  modify fun w => { w with rest := { w.rest with handlerSub := some handler } }

/-- Drop the registration of the message handler. -/
def cancelMessageHandler : Js (Process ι κ υ) PUnit :=
  modify fun w => { w with rest := { w.rest with handlerSub := none } }

def send (body : List UInt8) : Js (Process ι κ υ) String := ask program (.send body)

def startPairing : Js (Process ι κ υ) String := ask program .startPairing

def accept (requestId : String) : Js (Process ι κ υ) Unit := ask program (.accept requestId)

def cancelPairing : Js (Process ι κ υ) Unit := ask program .cancelPairing

def join (token : String) : Js (Process ι κ υ) Unit := ask program (.join token)

def cancelJoin : Js (Process ι κ υ) Unit := ask program .cancelJoin

def remove (memberId : String) : Js (Process ι κ υ) Unit := ask program (.remove memberId)

def leave : Js (Process ι κ υ) Unit := ask program .leave

def destroyGroup : Js (Process ι κ υ) Unit := ask program .destroyGroup

/-- `self.inner.close()`; it cannot fail. -/
def close : Js (Process ι κ υ) PUnit := modify fun w => reached w .closed

end CoreSession

end Methods

end TrueSealSync.Sdk
