/-
  File:      TrueSealSync/Sdk/Errors.lean
  Subject:   TYPED ERRORS: how a core error reaches the caller as a TrueSealError.

  * `ErrorObject`, `Heap` -- the error objects made so far, each with its own properties;
  * `typedErr` -- `typed_err` of src/session.rs: an Error with a `code` and the extras of its variant;
  * `rethrowTyped` -- what src/index.ts makes of anything thrown: an Error with a canonical code
    becomes a TrueSealError;
  * `preserves_rethrowTyped` -- rethrowing runs no code but the realm's;
  * `Survives` -- what the caller is to get for a core error;
  * `typed_errors_survive` -- it gets that for every core error, different ones stay different, and
    everything else is thrown on as it is.
-/
import Mathlib.Logic.Function.Basic
import TrueSealSync.Sdk.Realm

namespace TrueSealSync.Sdk

open TrueSealSync.Lib

/-! ## 1. Error objects -/

/-- The prototype an error object has. -/
inductive Prototype where
  | error
  | trueSealError
  deriving DecidableEq

/-- An error object: its prototype and its own properties, data properties all of them. -/
structure ErrorObject where
  proto : Prototype
  own : String → Option JsVal

namespace ErrorObject

/-- Define or overwrite an own property. -/
def setNamedProperty (o : ErrorObject) (key : String) (v : JsVal) : ErrorObject :=
  { o with own := Function.update o.own key (some v) }

/-- `o[key]`. Of the keys that are read here the prototypes have `message` only. -/
def get (o : ErrorObject) (key : String) : JsVal :=
  (o.own key).getD (if key = "message" then .string "" else .undefined)

theorem own_set (o : ErrorObject) (key key' : String) (v : JsVal) :
    (o.setNamedProperty key v).own key' = if key' = key then some v else o.own key' := by
  unfold setNamedProperty Function.update
  simp

end ErrorObject

/-- The error objects by reference; `next` is beyond every object there is. -/
structure Heap where
  errors : Nat → Option ErrorObject
  next : Nat
  fresh : ∀ r, next ≤ r → errors r = none

namespace Heap

def empty : Heap := ⟨fun _ => none, 0, fun _ _ => rfl⟩

/-- The heap with one more object. -/
def push (h : Heap) (o : ErrorObject) : Heap where
  errors := Function.update h.errors h.next (some o)
  next := h.next + 1
  fresh r hr := by
    have hne : r ≠ h.next := by omega
    rw [Function.update_of_ne hne]
    exact h.fresh r (by omega)

@[simp] theorem errors_push_self (h : Heap) (o : ErrorObject) :
    (h.push o).errors h.next = some o := Function.update_self ..

/-- The heap with a property of the object under `r` set, where there is one. -/
def setProperty (h : Heap) (r : Nat) (key : String) (v : JsVal) : Heap where
  errors := Function.update h.errors r ((h.errors r).map (·.setNamedProperty key v))
  next := h.next
  fresh r' hr := by
    by_cases hne : r' = r
    · rw [hne, Function.update_self, h.fresh r (hne ▸ hr)]
      rfl
    · rw [Function.update_of_ne hne]
      exact h.fresh r' hr

end Heap

/-- What JavaScript code works on: the error objects, and everything else there is. -/
structure Host (υ : Type) where
  heap : Heap
  rest : υ

section Objects

variable {α υ : Type}

/-- The host with one more error object. -/
def Host.push (w : Host υ) (o : ErrorObject) : Host υ := { w with heap := w.heap.push o }

/-- `throw` of a new object. -/
def throwNew (o : ErrorObject) : Js (Host υ) α := do
  let w ← get
  set (w.push o)
  throw (.object w.heap.next)

@[simp] theorem throwNew_exec (o : ErrorObject) (w : Host υ) :
    (throwNew o : Js (Host υ) α).exec w = (.error (.object w.heap.next), w.push o) := rfl

variable (realm : Realm (Host υ))

/-- `v instanceof Error`: true of the error objects, up to the realm for other values. -/
def instanceofError (v : JsVal) : Js (Host υ) Bool := do
  let w ← get
  match v with
  | .object r =>
      match w.heap.errors r with
      | some _ => pure true
      | none => realm.instanceofError v
  | _ => realm.instanceofError v

/-- `v[key]`: a read of an error object runs no code of the user's. -/
def readProperty (v : JsVal) (key : String) : Js (Host υ) JsVal := do
  let w ← get
  match v with
  | .object r =>
      match w.heap.errors r with
      | some o => pure (o.get key)
      | none => realm.get v key
  | _ => realm.get v key

variable {realm} {w : Host υ} {r : Nat} {o : ErrorObject}

theorem instanceofError_exec (h : w.heap.errors r = some o) :
    (instanceofError realm (.object r)).exec w = (.ok true, w) := by
  unfold instanceofError
  rw [Throwing.exec_bind, Throwing.exec_get]
  simp only [h, Throwing.exec_pure]

theorem readProperty_exec (h : w.heap.errors r = some o) (key : String) :
    (readProperty realm (.object r) key).exec w = (.ok (o.get key), w) := by
  unfold readProperty
  rw [Throwing.exec_bind, Throwing.exec_get]
  simp only [h, Throwing.exec_pure]

end Objects

/-! ## 2. The native side -/

/-- The group status. -/
inductive GroupStatus where
  | notJoined | pendingJoin | member | leaving | destroying
  deriving DecidableEq

/-- Canonical GroupStatus codes. -/
def groupStatusCode : GroupStatus → String
  | .notJoined => "notJoined"
  | .pendingJoin => "pendingJoin"
  | .member => "member"
  | .leaving => "leaving"
  | .destroying => "destroying"

theorem groupStatusCode_injective : Function.Injective groupStatusCode := by
  intro a b h
  cases a <;> cases b <;> first | rfl | exact absurd h (by decide)

/-- The errors of the core. -/
inductive CoreError where
  | invalidRelayAddress (msg : String)
  | invalidNamespace (msg : String)
  | storage (msg : String)
  | closed
  | notMember (status : GroupStatus)
  | alreadyInGroup
  | invalidPairingToken
  | pairingClosed
  | groupFull (max : UInt32)
  | memberNotFound
  | payloadTooLarge (max : UInt32)
  | messageHandlerAlreadySet
  | storeTooNew (found supported : UInt32)
  | manifestVersionExhausted
  deriving DecidableEq

/-- The canonical code of each variant. -/
def CoreError.code : CoreError → String
  | .invalidRelayAddress _ => "invalidRelayAddress"
  | .invalidNamespace _ => "invalidNamespace"
  | .storage _ => "storage"
  | .closed => "closed"
  | .notMember _ => "notMember"
  | .alreadyInGroup => "alreadyInGroup"
  | .invalidPairingToken => "invalidPairingToken"
  | .pairingClosed => "pairingClosed"
  | .groupFull _ => "groupFull"
  | .memberNotFound => "memberNotFound"
  | .payloadTooLarge _ => "payloadTooLarge"
  | .messageHandlerAlreadySet => "messageHandlerAlreadySet"
  | .storeTooNew _ _ => "storeTooNew"
  | .manifestVersionExhausted => "manifestVersionExhausted"

/-- `napi_create_error`: an Error with a message and no other property that is read here. -/
def createError (text : String) : ErrorObject :=
  ⟨.error, fun key => if key = "message" then some (.string text) else none⟩

/-- `napi_create_uint32`. -/
def createUint32 (n : UInt32) : JsVal := .number (Binary64.ofU64 n.toNat)

section Native

variable (toString : CoreError → String)

/-- The object `typed_err` builds, where creating it and setting its properties succeeds; `toString`
    is the text of an error. -/
def typedErrObject (e : CoreError) : ErrorObject :=
  let obj := (createError (toString e)).setNamedProperty "code" (.string e.code)
  match e with
  | .notMember status => obj.setNamedProperty "status" (.string (groupStatusCode status))
  | .groupFull max | .payloadTooLarge max => obj.setNamedProperty "max" (createUint32 max)
  | .storeTooNew found supported =>
      (obj.setNamedProperty "found" (createUint32 found)).setNamedProperty "supported"
        (createUint32 supported)
  | _ => obj

/-- `typed_err`: the object is thrown. -/
def typedErr {α υ : Type} (e : CoreError) : Js (Host υ) α := throwNew (typedErrObject toString e)

end Native

/-! ## 3. The TypeScript side -/

/-- The canonical codes as a runtime list. -/
def truesealErrorCodes : List String :=
  ["invalidRelayAddress", "invalidNamespace", "storage", "closed", "notMember", "alreadyInGroup",
    "invalidPairingToken", "pairingClosed", "groupFull", "memberNotFound", "payloadTooLarge",
    "messageHandlerAlreadySet", "storeTooNew", "manifestVersionExhausted"]

/-- `typeof code === 'string' && _codeSet.has(code)`. -/
def isCanonical : JsVal → Bool
  | .string code => code ∈ truesealErrorCodes
  | _ => false

/-- The `extras` argument of the TrueSealError constructor. -/
structure Extras where
  status : JsVal
  max : JsVal
  found : JsVal
  supported : JsVal

/-- `if (v !== undefined) this[key] = v`. -/
def ErrorObject.setDefined (o : ErrorObject) (key : String) (v : JsVal) : ErrorObject :=
  if v = .undefined then o else o.setNamedProperty key v

/-- What `super(message)` makes: no own `message` where there is none. -/
def superError : Option String → ErrorObject
  | some message => createError message
  | none => ⟨.error, fun _ => none⟩

/-- The object the TrueSealError constructor builds. -/
def trueSealError (code : JsVal) (message : Option String) (extras : Extras) : ErrorObject :=
  let this := superError message
  let this := this.setNamedProperty "name" (.string "TrueSealError")
  let this := this.setNamedProperty "code" code
  let this := this.setDefined "status" extras.status
  let this := this.setDefined "max" extras.max
  let this := this.setDefined "found" extras.found
  let this := this.setDefined "supported" extras.supported
  { this with proto := .trueSealError }

section Rethrow

variable {α υ : Type} (realm : Realm (Host υ)) (conversionError : JsVal)

/-- The conversion `super(message)` makes; a symbol has none, and `conversionError` is thrown. -/
def messageText : JsVal → Js (Host υ) (Option String)
  | .undefined => pure none
  | .string s => pure (some s)
  | .symbol _ => throw conversionError
  | v => do return some (← realm.toString v)

/-- `typeof e[key] === type ? e[key] : undefined`: the property is read twice. -/
def carried (e : JsVal) (key : String) (type : TypeOf) : Js (Host υ) JsVal := do
  if typeOf (← readProperty realm e key) = type then
    readProperty realm e key
  else
    pure .undefined

/-- Rethrow a native error as a TrueSealError when it carries a canonical code; propagate anything
    else unchanged. -/
def rethrowTyped (err : JsVal) : Js (Host υ) α := do
  if ← instanceofError realm err then
    let code ← readProperty realm err "code"
    if isCanonical code then
      let message ← readProperty realm err "message"
      let status ← carried realm err "status" .string
      let max ← carried realm err "max" .number
      let found ← carried realm err "found" .number
      let supported ← carried realm err "supported" .number
      let text ← messageText realm conversionError message
      throwNew (trueSealError code text ⟨status, max, found, supported⟩)
  throw err

end Rethrow

/-! ## 4. What rethrowing leaves alone -/

section Preserved

variable {α υ : Type} {R : Host υ → Host υ → Prop} (hrefl : ∀ w, R w w)
  (htrans : ∀ u v w, R u v → R v w → R u w) (hpush : ∀ w o, R w (w.push o))
  {realm : Realm (Host υ)} (hrealm : realm.Preserves R)

include hrefl hrealm

theorem preserves_instanceofError (v : JsVal) :
    Throwing.Preserves R (instanceofError realm v) := by
  intro w
  unfold instanceofError
  rw [Throwing.exec_bind, Throwing.exec_get]
  cases v with
  | object r =>
      cases h : w.heap.errors r with
      | some o => simpa only [h, Throwing.exec_pure] using hrefl w
      | none => simpa only [h] using hrealm.instanceofError (.object r) w
  | _ => exact hrealm.instanceofError _ w

theorem preserves_readProperty (v : JsVal) (key : String) :
    Throwing.Preserves R (readProperty realm v key) := by
  intro w
  unfold readProperty
  rw [Throwing.exec_bind, Throwing.exec_get]
  cases v with
  | object r =>
      cases h : w.heap.errors r with
      | some o => simpa only [h, Throwing.exec_pure] using hrefl w
      | none => simpa only [h] using hrealm.get (.object r) key w
  | _ => exact hrealm.get _ key w

include htrans

theorem preserves_carried (e : JsVal) (key : String) (type : TypeOf) :
    Throwing.Preserves R (carried realm e key type) := by
  refine Throwing.preserves_bind htrans (preserves_readProperty hrefl hrealm e key) fun v => ?_
  by_cases h : typeOf v = type
  · rw [if_pos h]
    exact preserves_readProperty hrefl hrealm e key
  · rw [if_neg h]
    exact Throwing.preserves_pure hrefl _

theorem preserves_messageText (conversionError : JsVal) (v : JsVal) :
    Throwing.Preserves R (messageText realm conversionError v) := by
  have hconv : Throwing.Preserves R
      (do return some (← realm.toString v) : Js (Host υ) (Option String)) :=
    Throwing.preserves_bind htrans (hrealm.toString v) fun _ => Throwing.preserves_pure hrefl _
  cases v with
  | undefined => exact Throwing.preserves_pure hrefl _
  | string s => exact Throwing.preserves_pure hrefl _
  | symbol r => exact Throwing.preserves_throw hrefl _
  | _ => exact hconv

include hpush

/-- **`rethrowTyped` preserves what the realm and the making of an error object preserve.** -/
theorem preserves_rethrowTyped (conversionError : JsVal) (err : JsVal) :
    Throwing.Preserves R (rethrowTyped realm conversionError err : Js (Host υ) α) := by
  have hread := preserves_readProperty hrefl hrealm err
  have hcarried := preserves_carried hrefl htrans hrealm err
  refine Throwing.preserves_bind htrans (preserves_instanceofError hrefl hrealm err) fun isError => ?_
  cases isError with
  | false => exact Throwing.preserves_throw hrefl _
  | true =>
      refine Throwing.preserves_bind htrans (hread "code") fun code => ?_
      cases hc : isCanonical code with
      | false => exact Throwing.preserves_throw hrefl _
      | true =>
          refine Throwing.preserves_bind htrans (hread "message") fun message => ?_
          refine Throwing.preserves_bind htrans (hcarried _ _) fun status => ?_
          refine Throwing.preserves_bind htrans (hcarried _ _) fun max => ?_
          refine Throwing.preserves_bind htrans (hcarried _ _) fun found => ?_
          refine Throwing.preserves_bind htrans (hcarried _ _) fun supported => ?_
          refine Throwing.preserves_bind htrans
            (preserves_messageText hrefl htrans hrealm conversionError message) fun text => ?_
          refine Throwing.preserves_bind htrans (fun w => hpush w _) fun _ => ?_
          exact Throwing.preserves_throw hrefl _

end Preserved
/-! ## 5. What survives -/

/-- What each core error carries besides its text. -/
def CoreError.status : CoreError → Option GroupStatus
  | .notMember status => some status
  | _ => none

def CoreError.max : CoreError → Option UInt32
  | .groupFull max | .payloadTooLarge max => some max
  | _ => none

def CoreError.found : CoreError → Option UInt32
  | .storeTooNew found _ => some found
  | _ => none

def CoreError.supported : CoreError → Option UInt32
  | .storeTooNew _ supported => some supported
  | _ => none

/-- The error without its text. -/
def CoreError.withoutText : CoreError → CoreError
  | .invalidRelayAddress _ => .invalidRelayAddress ""
  | .invalidNamespace _ => .invalidNamespace ""
  | .storage _ => .storage ""
  | e => e

/-- The extras `rethrowTyped` reads off an object that carries the error. -/
def CoreError.extras (e : CoreError) : Extras where
  status := (e.status.map fun status => .string (groupStatusCode status)).getD .undefined
  max := (e.max.map createUint32).getD .undefined
  found := (e.found.map createUint32).getD .undefined
  supported := (e.supported.map createUint32).getD .undefined

/-- **The own properties of `o` say what `e` says**: the code, the text, and the extras of its
    variant and no other. -/
structure Carries (toString : CoreError → String) (e : CoreError) (o : ErrorObject) : Prop where
  code : o.own "code" = some (.string e.code)
  message : o.own "message" = some (.string (toString e))
  status : o.own "status" = e.status.map fun status => .string (groupStatusCode status)
  max : o.own "max" = e.max.map createUint32
  found : o.own "found" = e.found.map createUint32
  supported : o.own "supported" = e.supported.map createUint32

/-- What the caller is to get for `e`. -/
structure Survives (toString : CoreError → String) (e : CoreError) (o : ErrorObject) : Prop
    extends Carries toString e o where
  proto : o.proto = .trueSealError

section Survival

variable {toString : CoreError → String} {e : CoreError} {o : ErrorObject}

theorem code_canonical (e : CoreError) : isCanonical (.string e.code) = true := by
  cases e <;> simp [CoreError.code, isCanonical, truesealErrorCodes]

theorem typedErrObject_carries (toString : CoreError → String) (e : CoreError) :
    Carries toString e (typedErrObject toString e) := by
  constructor <;> cases e <;>
    simp [typedErrObject, createError, ErrorObject.own_set, CoreError.status, CoreError.max,
      CoreError.found, CoreError.supported]

/-- `undefined` stands for an absent extra. -/
theorem own_setDefined {extra : Option JsVal} (h : extra ≠ some .undefined) (o : ErrorObject)
    (key key' : String) : (o.setDefined key (extra.getD .undefined)).own key' =
      if key' = key then extra.or (o.own key') else o.own key' := by
  unfold ErrorObject.setDefined
  cases extra with
  | none => simp
  | some v =>
      have hv : v ≠ .undefined := fun he => h (congrArg some he)
      simp [hv, ErrorObject.own_set]

theorem status_defined (status : Option GroupStatus) :
    (status.map fun status => JsVal.string (groupStatusCode status)) ≠ some .undefined := by
  cases status <;> simp

theorem uint32_defined (n : Option UInt32) : n.map createUint32 ≠ some .undefined := by
  cases n <;> simp [createUint32]

/-- What `carried` answers for an own property of the type it asks for, and for an absent one. -/
theorem carried_exec {υ : Type} {realm : Realm (Host υ)} {w : Host υ} {r : Nat} {key : String}
    {type : TypeOf} {extra : Option JsVal} (hr : w.heap.errors r = some o)
    (hk : o.own key = extra) (hm : key ≠ "message") (ht : ∀ v, extra = some v → typeOf v = type) :
    (carried realm (.object r) key type).exec w = (.ok (extra.getD .undefined), w) := by
  have hget : o.get key = extra.getD .undefined := by
    unfold ErrorObject.get
    rw [hk, if_neg hm]
  unfold carried
  rw [Throwing.exec_bind, readProperty_exec hr, hget]
  cases extra with
  | none =>
      simp only [Option.getD_none]
      split
      · rw [readProperty_exec hr, hget, Option.getD_none]
      · rfl
  | some v =>
      simp only [Option.getD_some, ht v rfl, if_true]
      rw [readProperty_exec hr, hget, Option.getD_some]

/-- **The TrueSealError made of what `e` carries carries it too.** -/
theorem trueSealError_survives (toString : CoreError → String) (e : CoreError) :
    Survives toString e (trueSealError (.string e.code) (some (toString e)) e.extras) := by
  refine ⟨⟨?_, ?_, ?_, ?_, ?_, ?_⟩, rfl⟩ <;>
    simp [trueSealError, CoreError.extras, own_setDefined (status_defined e.status),
      own_setDefined (uint32_defined _), ErrorObject.own_set, superError, createError]

/-- `rethrowTyped` of an error object that carries `e`. -/
theorem rethrowTyped_exec {α υ : Type} {realm : Realm (Host υ)} {conversionError : JsVal}
    {w : Host υ} {r : Nat} (hr : w.heap.errors r = some o) (ho : Carries toString e o) :
    (rethrowTyped realm conversionError (.object r) : Js (Host υ) α).exec w =
      (.error (.object w.heap.next),
        w.push (trueSealError (.string e.code) (some (toString e)) e.extras)) := by
  have hcode : o.get "code" = .string e.code := by
    unfold ErrorObject.get
    rw [ho.code]
    rfl
  have hmessage : o.get "message" = .string (toString e) := by
    unfold ErrorObject.get
    rw [ho.message]
    rfl
  have hnumber : ∀ (x : Option UInt32) v, x.map createUint32 = some v → typeOf v = .number := by
    intro x v hx
    obtain ⟨n, -, rfl⟩ := Option.map_eq_some_iff.mp hx
    rfl
  have hstring : ∀ (x : Option GroupStatus) v,
      (x.map fun status => JsVal.string (groupStatusCode status)) = some v → typeOf v = .string := by
    intro x v hx
    obtain ⟨n, -, rfl⟩ := Option.map_eq_some_iff.mp hx
    rfl
  unfold rethrowTyped
  simp only [Throwing.exec_bind, instanceofError_exec hr, if_true, readProperty_exec hr, hcode,
    code_canonical, hmessage, carried_exec hr ho.status (by decide) (hstring e.status),
    carried_exec hr ho.max (by decide) (hnumber e.max),
    carried_exec hr ho.found (by decide) (hnumber e.found),
    carried_exec hr ho.supported (by decide) (hnumber e.supported), messageText,
    Throwing.exec_pure, throwNew_exec, CoreError.extras]

/-- **What `rethrowTyped` makes of what `typed_err` throws.** -/
theorem caught_exec {α υ : Type} (toString : CoreError → String) (realm : Realm (Host υ))
    (conversionError : JsVal) (e : CoreError) (w : Host υ) :
    (tryCatch (typedErr toString e) (rethrowTyped realm conversionError) : Js (Host υ) α).exec w =
      (.error (.object (w.heap.next + 1)), (w.push (typedErrObject toString e)).push
        (trueSealError (.string e.code) (some (toString e)) e.extras)) := by
  have hobj : (w.push (typedErrObject toString e)).heap.errors w.heap.next =
      some (typedErrObject toString e) := Heap.errors_push_self ..
  unfold typedErr
  rw [Throwing.exec_tryCatch, throwNew_exec]
  exact rethrowTyped_exec hobj (typedErrObject_carries toString e)

end Survival

/-! ## 6. Nothing is mixed up -/

theorem createUint32_value (n : UInt32) :
    ∃ x, createUint32 n = .number x ∧ x.value = some (n.toNat : ℚ) :=
  ⟨_, rfl, Binary64.value_ofU64 (by have := n.toNat_lt; omega)⟩

theorem createUint32_injective : Function.Injective createUint32 := by
  intro m n h
  have hm := m.toNat_lt
  have hn := n.toNat_lt
  exact UInt32.toNat_inj.mp
    (Binary64.ofU64_injective (by omega) (by omega) (JsVal.number.inj h))

/-- The error a code and the extras stand for. -/
def CoreError.ofParts (code : String) (status : Option GroupStatus)
    (max found supported : Option UInt32) : Option CoreError :=
  match code with
  | "invalidRelayAddress" => some (.invalidRelayAddress "")
  | "invalidNamespace" => some (.invalidNamespace "")
  | "storage" => some (.storage "")
  | "closed" => some .closed
  | "notMember" => status.map .notMember
  | "alreadyInGroup" => some .alreadyInGroup
  | "invalidPairingToken" => some .invalidPairingToken
  | "pairingClosed" => some .pairingClosed
  | "groupFull" => max.map .groupFull
  | "memberNotFound" => some .memberNotFound
  | "payloadTooLarge" => max.map .payloadTooLarge
  | "messageHandlerAlreadySet" => some .messageHandlerAlreadySet
  | "storeTooNew" => found.bind fun found => supported.map (.storeTooNew found)
  | "manifestVersionExhausted" => some .manifestVersionExhausted
  | _ => none

theorem ofParts_parts (e : CoreError) :
    CoreError.ofParts e.code e.status e.max e.found e.supported = some e.withoutText := by
  cases e <;> rfl

/-- Each canonical code is the code of a variant, and the other way round. -/
theorem mem_truesealErrorCodes (code : String) :
    code ∈ truesealErrorCodes ↔ ∃ e : CoreError, e.code = code := by
  constructor
  · intro h
    have hparts : ∀ c ∈ truesealErrorCodes, (CoreError.ofParts c (some .member) (some 0) (some 0)
        (some 0)).map CoreError.code = some c := by decide +kernel
    obtain ⟨e, -, he⟩ := Option.map_eq_some_iff.mp (hparts code h)
    exact ⟨e, he⟩
  · intro ⟨e, he⟩
    subst he
    exact of_decide_eq_true (code_canonical e)

/-- **Objects that agree on the code and the extras carry the same error**, up to its text. -/
theorem carries_injective {toString : CoreError → String} {e₁ e₂ : CoreError}
    {o₁ o₂ : ErrorObject} (h₁ : Carries toString e₁ o₁) (h₂ : Carries toString e₂ o₂)
    (hsame : ∀ key ∈ ["code", "status", "max", "found", "supported"], o₁.own key = o₂.own key) :
    e₁.withoutText = e₂.withoutText := by
  have hcode := hsame "code" (by simp)
  have hstatus := hsame "status" (by simp)
  have hmax := hsame "max" (by simp)
  have hfound := hsame "found" (by simp)
  have hsupported := hsame "supported" (by simp)
  rw [h₁.code, h₂.code, Option.some.injEq, JsVal.string.injEq] at hcode
  rw [h₁.status, h₂.status] at hstatus
  rw [h₁.max, h₂.max] at hmax
  rw [h₁.found, h₂.found] at hfound
  rw [h₁.supported, h₂.supported] at hsupported
  have hstring : Function.Injective fun status => JsVal.string (groupStatusCode status) :=
    fun a b h => groupStatusCode_injective (JsVal.string.inj h)
  have hparts := ofParts_parts e₁
  rw [hcode, Option.map_injective hstring hstatus,
    Option.map_injective createUint32_injective hmax,
    Option.map_injective createUint32_injective hfound,
    Option.map_injective createUint32_injective hsupported, ofParts_parts e₂] at hparts
  exact (Option.some.inj hparts).symm

/-- Objects that agree on the message carry errors with the same text. -/
theorem carries_message {toString : CoreError → String} {e₁ e₂ : CoreError} {o₁ o₂ : ErrorObject}
    (h₁ : Carries toString e₁ o₁) (h₂ : Carries toString e₂ o₂)
    (hsame : o₁.own "message" = o₂.own "message") : toString e₁ = toString e₂ := by
  rw [h₁.message, h₂.message] at hsame
  exact JsVal.string.inj (Option.some.inj hsame)

/-- **Typed errors survive both layers unchanged.** For every core error the caller gets a new
    TrueSealError with its code, its text and the extras of its variant; a number of the core is
    the same number there; errors that differ otherwise than in their text give objects that differ
    in the code or an extra, and errors with different texts differ in the message. Whatever is no
    Error, and an Error whose `code` is not canonical, is thrown on. -/
theorem typed_errors_survive {α υ : Type} (toString : CoreError → String)
    (realm : Realm (Host υ)) (conversionError : JsVal) :
    (∀ (e : CoreError) (w : Host υ), ∃ r w' o,
      (tryCatch (typedErr toString e) (rethrowTyped realm conversionError) : Js (Host υ) α).exec w =
          (.error (.object r), w') ∧ w.heap.errors r = none ∧ w'.heap.errors r = some o ∧
        w'.rest = w.rest ∧ Survives toString e o) ∧
    (∀ code, code ∈ truesealErrorCodes ↔ ∃ e : CoreError, e.code = code) ∧
    (∀ n : UInt32, ∃ x, createUint32 n = .number x ∧ x.value = some (n.toNat : ℚ)) ∧
    (∀ e₁ e₂ o₁ o₂, Survives toString e₁ o₁ → Survives toString e₂ o₂ →
      ((∀ key ∈ ["code", "status", "max", "found", "supported"], o₁.own key = o₂.own key) →
        e₁.withoutText = e₂.withoutText) ∧
      (o₁.own "message" = o₂.own "message" → toString e₁ = toString e₂)) ∧
    (∀ err w w', (instanceofError realm err).exec w = (.ok false, w') →
      (rethrowTyped realm conversionError err : Js (Host υ) α).exec w = (.error err, w')) ∧
    ∀ err w w' w'' code, (instanceofError realm err).exec w = (.ok true, w') →
      (readProperty realm err "code").exec w' = (.ok code, w'') →
      (∀ c ∈ truesealErrorCodes, code ≠ .string c) →
      (rethrowTyped realm conversionError err : Js (Host υ) α).exec w = (.error err, w'') := by
  refine ⟨?_, mem_truesealErrorCodes, createUint32_value, fun e₁ e₂ o₁ o₂ h₁ h₂ =>
    ⟨carries_injective h₁.toCarries h₂.toCarries, carries_message h₁.toCarries h₂.toCarries⟩, ?_, ?_⟩
  · intro e w
    exact ⟨_, _, _, caught_exec toString realm conversionError e w,
      w.heap.fresh _ (Nat.le_succ _), Heap.errors_push_self .., rfl, trueSealError_survives toString e⟩
  · intro err w w' hno
    unfold rethrowTyped
    simp only [Throwing.exec_bind, hno, Bool.false_eq_true, if_false, Throwing.exec_throw]
  · intro err w w' w'' code hyes hcode hforeign
    have hcanonical : isCanonical code = false := by
      cases code with
      | string c =>
          exact decide_eq_false fun hc => hforeign c hc rfl
      | _ => rfl
    unfold rethrowTyped
    simp only [Throwing.exec_bind, hyes, if_true, hcode, hcanonical, Bool.false_eq_true, if_false,
      Throwing.exec_throw]

end TrueSealSync.Sdk
