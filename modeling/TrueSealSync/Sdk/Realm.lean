/-
  File:      TrueSealSync/Sdk/Realm.lean
  Subject:   JavaScript values and what user code can do to a computation that touches them.

  * `JsVal` -- a value; objects, functions and symbols by their identity;
  * `Js ω` -- a computation in the world `ω` that answers or throws a value;
  * `Realm ω` -- the operations of src/index.ts through which user code runs: `instanceof`,
    property reads (getters, proxies), `String(..)` and the call of a `then`. Each is an arbitrary
    computation: it may answer anything, throw anything and change the world.
-/
import TrueSealSync.Lib.Binary64
import TrueSealSync.Lib.Throwing

namespace TrueSealSync.Sdk

open TrueSealSync.Lib

/-- A JavaScript value. -/
inductive JsVal where
  | undefined
  | null
  | boolean (b : Bool)
  | number (x : Binary64)
  | bigint (n : Int)
  | string (s : String)
  | symbol (ref : Nat)
  | object (ref : Nat)
  | function (ref : Nat)
  deriving DecidableEq

/-- The answers of `typeof`. -/
inductive TypeOf where
  | undefined | object | boolean | number | bigint | string | symbol | function
  deriving DecidableEq

/-- `typeof v`; `null` is an `object` to it. -/
def typeOf : JsVal → TypeOf
  | .undefined => .undefined
  | .null => .object
  | .boolean _ => .boolean
  | .number _ => .number
  | .bigint _ => .bigint
  | .string _ => .string
  | .symbol _ => .symbol
  | .object _ => .object
  | .function _ => .function

/-- A JavaScript computation in the world `ω`. -/
abbrev Js (ω α : Type) : Type := Throwing ω JsVal α

/-- The operations through which user code runs. -/
structure Realm (ω : Type) where
  /-- `v instanceof Error` -/
  instanceofError : JsVal → Js ω Bool
  /-- `v[key]` -/
  get : JsVal → String → Js ω JsVal
  /-- `String(v)` -/
  toString : JsVal → Js ω String
  /-- `then.call(value, onFulfilled, onRejected)` -/
  callThen : JsVal → JsVal → Js ω Unit → (JsVal → Js ω Unit) → Js ω Unit

/-- The user code behind property reads, `instanceof` and `String(..)` takes each world to one that
    is related to it. -/
structure Realm.Preserves {ω : Type} (realm : Realm ω) (R : ω → ω → Prop) : Prop where
  instanceofError : ∀ v, Throwing.Preserves R (realm.instanceofError v)
  get : ∀ v key, Throwing.Preserves R (realm.get v key)
  toString : ∀ v, Throwing.Preserves R (realm.toString v)

end TrueSealSync.Sdk
