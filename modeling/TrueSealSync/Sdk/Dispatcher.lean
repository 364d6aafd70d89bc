/-
  File:      TrueSealSync/Sdk/Dispatcher.lean
  Subject:   THE MESSAGE DISPATCHER: the callback `TrueSeal.onMessage` hands to the native side, and
             what a failed handler makes of its delivery.

  * `describeThrown`, `complete`, `onFulfilled`, `onRejected`, `messageDispatcher` -- the functions of
    src/index.ts, for any realm, handler and `completeMessage`;
  * `messageDispatcher_exec`, `dispatcher_returns` -- the handler comes first, and nobody lets an
    exception out;
  * `completeMessage` -- the native method behind `complete`, with the conversion napi makes of its
    `Option<String>` argument, on the pending-ack machine;
  * `failed_handler_completed_with_error` -- a failed handler completes its delivery with an error
    exactly when what it threw is no Error whose `message` is read as something else than a string,
    and describing it does not settle the delivery otherwise. Such a message is not stringified:
    `undefined` and `null` complete the delivery as HANDLED, any other value makes `completeMessage`
    throw into the catch of `complete`.
-/
import TrueSealSync.Native.Origin
import TrueSealSync.Native.Routing
import TrueSealSync.Sdk.Realm

namespace TrueSealSync.Sdk

open TrueSealSync.Lib
open TrueSealSync.Native (AckResult MessageDelivery State TrueSealMessage)

/-! ## 1. The source's functions -/

section Source

variable {ω : Type} (realm : Realm ω)

/-- Stringify a thrown value without ever throwing. -/
def describeThrown (err : JsVal) : Js ω JsVal :=
  tryCatch
    (do
      if ← realm.instanceofError err then
        realm.get err "message"
      else
        return .string (← realm.toString err))
    fun _ => pure (.string "<unprintable error>")

variable (completeMessage : Binary64 → JsVal → Js ω Unit)

/-- `complete`: the session may be closing, so what `completeMessage` throws is dropped. -/
def complete (ackId : Binary64) (error : JsVal) : Js ω Unit :=
  tryCatch (completeMessage ackId error) fun _ => pure ()

/-- The first callback a thenable gets. -/
def onFulfilled (ackId : Binary64) : Js ω Unit := complete completeMessage ackId .null

/-- The second one. -/
def onRejected (ackId : Binary64) (err : JsVal) : Js ω Unit := do
  complete completeMessage ackId (← describeThrown realm err)

/-- The probe of the returned value for a `then`. -/
def readThen (value : JsVal) : Js ω JsVal :=
  if (typeOf value = .object ∧ value ≠ .null) ∨ typeOf value = .function then
    realm.get value "then"
  else
    pure .undefined

/-- What the dispatcher does with a handler that returned `value`. -/
def settle (ackId : Binary64) (value : JsVal) : Js ω Unit :=
  tryCatch
    (do
      let then_ ← readThen realm value
      if typeOf then_ = .function then
        realm.callThen then_ value (onFulfilled completeMessage ackId)
          (onRejected realm completeMessage ackId)
      else
        complete completeMessage ackId .null)
    (onRejected realm completeMessage ackId)

/-- `{ id, from: { id: fromId, name: fromName }, body }`. -/
def handlerArgument (delivery : MessageDelivery) : TrueSealMessage :=
  ⟨delivery.id, ⟨delivery.fromId, delivery.fromName⟩, delivery.body⟩

/-- The callback handed to the native `onMessage`: run the handler, then settle. -/
def messageDispatcher (handler : TrueSealMessage → Js ω JsVal) (delivery : MessageDelivery) :
    Js ω Unit := do
  let result : Except JsVal JsVal ← tryCatch (do return .ok (← handler (handlerArgument delivery)))
    fun err => return .error err
  match result with
  | .error err => complete completeMessage delivery.ackId (← describeThrown realm err)
  | .ok value => settle realm completeMessage delivery.ackId value

end Source

/-! ## 2. Nothing is thrown -/

section Returns

variable {ω : Type} (realm : Realm ω) (completeMessage : Binary64 → JsVal → Js ω Unit)

/-- **The dispatcher starts the handler first**, and once: what comes after it are the settlement of
    what the handler answered, and the completion for what it threw. -/
theorem messageDispatcher_exec (handler : TrueSealMessage → Js ω JsVal)
    (delivery : MessageDelivery) (w : ω) :
    (messageDispatcher realm completeMessage handler delivery).exec w =
      match (handler (handlerArgument delivery)).exec w with
      | (.ok value, w') => (settle realm completeMessage delivery.ackId value).exec w'
      | (.error err, w') => (onRejected realm completeMessage delivery.ackId err).exec w' := by
  unfold messageDispatcher
  rw [Throwing.exec_bind, Throwing.exec_tryCatch, Throwing.exec_bind]
  generalize (handler (handlerArgument delivery)).exec w = out
  obtain ⟨err | value, w'⟩ := out <;> rfl

theorem describeThrown_returns (err : JsVal) : Throwing.Returns (describeThrown realm err) :=
  Throwing.returns_tryCatch _ fun _ => Throwing.returns_pure _

theorem complete_returns (ackId : Binary64) (error : JsVal) :
    Throwing.Returns (complete completeMessage ackId error) :=
  Throwing.returns_tryCatch _ fun _ => Throwing.returns_pure _

theorem onRejected_returns (ackId : Binary64) (err : JsVal) :
    Throwing.Returns (onRejected realm completeMessage ackId err) :=
  Throwing.returns_bind (describeThrown_returns realm err) fun error =>
    complete_returns completeMessage ackId error

/-- **The dispatcher returns**, whatever the handler, its thenable and `completeMessage` do. -/
theorem dispatcher_returns (handler : TrueSealMessage → Js ω JsVal) (delivery : MessageDelivery) :
    Throwing.Returns (messageDispatcher realm completeMessage handler delivery) := by
  refine Throwing.returns_bind (Throwing.returns_tryCatch _ fun _ => Throwing.returns_pure _)
    fun result => ?_
  cases result with
  | error err => exact onRejected_returns realm completeMessage delivery.ackId err
  | ok value => exact Throwing.returns_tryCatch _ (onRejected_returns realm completeMessage _)

end Returns

/-! ## 3. The native method behind `complete` -/

/-- What the JavaScript thread works on: the native session, and everything user code has. -/
structure World (υ : Type) where
  native : State
  user : υ

/-- The `Option<String>` napi makes of an argument; the value it throws where it makes none. -/
def napiOptionString (conversionError : JsVal) : JsVal → Except JsVal (Option String)
  | .undefined | .null => .ok none
  | .string msg => .ok (some msg)
  | _ => .error conversionError

/-- Both steps of one `complete_message` call. -/
def completed (s : State) (ackId : Binary64) (error : Option String) : State :=
  match s.pending.senders.lookup ackId.toU64 with
  | some i =>
      { s with
        pending := { s.pending with senders := s.pending.senders.erase ackId.toU64 }
        cells := Oneshot.send s.cells i (Native.outcome error) }
  | none => s

/-- The native `completeMessage(ackId, error?)`. -/
def completeMessage {υ : Type} (conversionError : JsVal) (ackId : Binary64) (error : JsVal) :
    Js (World υ) Unit :=
  match napiOptionString conversionError error with
  | .ok error => modify fun w => { w with native := completed w.native ackId error }
  | .error err => throw err

theorem completed_cells {s : State} {i : Nat} {ackId : Binary64} (error : Option String)
    (hl : s.pending.senders.lookup ackId.toU64 = some i) :
    (completed s ackId error).cells i = .sent (Native.outcome error) := by
  unfold completed
  rw [hl]
  exact Oneshot.send_self ..

/-- The effect is that of the two steps, taken by a call that has not started. -/
theorem completed_exec {s : State} {c i : Nat} {ackId : Binary64} {error : Option String}
    (hc : s.complete c = .idle) (hl : s.pending.senders.lookup ackId.toU64 = some i) :
    Native.machine.exec s [.completeRemove c ackId error, .completeSend c] =
      some ((completed s ackId error).setComplete c .done) := by
  have htake := (Native.Step.take c ackId error i hc hl).taken
  have hsend := (Native.Step.sendOutcome (s := s.take c ackId error i) c ackId error i
    (by simp)).taken
  have heq : (s.take c ackId error i).sendOutcome c error i =
      (completed s ackId error).setComplete c .done := by
    simp [completed, hl, State.take, State.sendOutcome, State.setComplete]
  simp [htake, hsend, heq]

/-! ## 4. What a failed handler completes -/

section Failed

variable {υ : Type} (realm : Realm (World υ)) (conversionError : JsVal)

/-- `err` is an Error to the realm, and its `message` is read as something else than a string. -/
def MessageNotString (err : JsVal) (w : World υ) : Prop :=
  ∃ w' w'' message, (realm.instanceofError err).exec w = (.ok true, w') ∧
    (realm.get err "message").exec w' = (.ok message, w'') ∧ typeOf message ≠ .string

/-- The oneshot of invocation `i` holds an error, which `on_message` returns as
    `HandlerError::Failed`. -/
def CompletedWithError (w : World υ) (i : Nat) : Prop :=
  ∃ msg, w.native.cells i = .sent (.error msg)

/-- The world after `err` was described: the user code this runs can call anything, the callbacks of
    the thenable and `close()` included. -/
def described (err : JsVal) (w : World υ) : World υ := ((describeThrown realm err).exec w).2

/-- Describing `err` does not settle the delivery: the sender of invocation `i` is still in the map,
    under the id `n`. -/
def LeftOpen (err : JsVal) (w : World υ) (n i : Nat) : Prop :=
  (described realm err w).native.pending.senders.lookup n = some i

/-- **When a failure reaches the core**: describing `err` leaves the delivery open and gives a
    string, or the user code it runs completes the delivery with an error itself. -/
def FailureReaches (err : JsVal) (w : World υ) (n i : Nat) : Prop :=
  (LeftOpen realm err w n i ∧ ¬ MessageNotString realm err w) ∨
    CompletedWithError (described realm err w) i

variable {realm} {conversionError} {err d : JsVal} {w : World υ} {tr tr' : List Native.Action}
  {i n : Nat}

/-- The description of a thrown value is a string, except for such an Error. -/
theorem describeThrown_not_string {w₁ : World υ}
    (hd : (describeThrown realm err).exec w = (.ok d, w₁)) :
    typeOf d ≠ .string ↔ MessageNotString realm err w := by
  unfold describeThrown at hd
  rw [Throwing.exec_tryCatch, Throwing.exec_bind] at hd
  unfold MessageNotString
  rcases hinst : (realm.instanceofError err).exec w with ⟨e | isError, w'⟩
  · simp only [hinst, Throwing.exec_pure, Prod.mk.injEq, Except.ok.injEq] at hd
    simp [← hd.1, typeOf]
  · cases isError with
    | false =>
        simp only [hinst, Bool.false_eq_true, if_false, Throwing.exec_bind] at hd
        rcases hstr : (realm.toString err).exec w' with ⟨e | text, w''⟩
        · simp only [hstr, Throwing.exec_pure, Prod.mk.injEq, Except.ok.injEq] at hd
          simp [← hd.1, typeOf]
        · simp only [hstr, Throwing.exec_pure, Prod.mk.injEq, Except.ok.injEq] at hd
          simp [← hd.1, typeOf]
    | true =>
        simp only [hinst, if_true] at hd
        rcases hmsg : (realm.get err "message").exec w' with ⟨e | message, w''⟩
        · simp only [hmsg, Throwing.exec_pure, Prod.mk.injEq, Except.ok.injEq] at hd
          simp [← hd.1, typeOf, hmsg]
        · simp only [hmsg, Prod.mk.injEq, Except.ok.injEq] at hd
          simp [← hd.1, hmsg]

/-- A completion of a slot still in the map: an error exactly where its argument is a string. -/
theorem complete_slot (hn : n < 2 ^ 53) (hl : w.native.pending.senders.lookup n = some i)
    (hempty : w.native.cells i = .empty) :
    CompletedWithError ((complete (completeMessage conversionError) (Binary64.ofU64 n) d).exec w).2 i
      ↔ typeOf d = .string := by
  have hx : (Binary64.ofU64 n).toU64 = n := Binary64.toU64_ofU64 hn
  have hcell : ∀ error, (completed w.native (Binary64.ofU64 n) error).cells i =
      .sent (Native.outcome error) := fun error => completed_cells error (by rw [hx]; exact hl)
  unfold CompletedWithError complete completeMessage
  rw [Throwing.exec_tryCatch]
  cases d with
  | undefined => simp [napiOptionString, hcell, Native.outcome, typeOf]
  | null => simp [napiOptionString, hcell, Native.outcome, typeOf]
  | string msg => simp [napiOptionString, hcell, Native.outcome, typeOf]
  | boolean | number | bigint | symbol | object | function =>
      simp [napiOptionString, hempty, typeOf]

/-- A completion of a slot that is gone changes nothing. -/
theorem complete_gone (hn : n < 2 ^ 53) (hl : w.native.pending.senders.lookup n = none) :
    ((complete (completeMessage conversionError) (Binary64.ofU64 n) d).exec w).2.native =
      w.native := by
  have hx : (Binary64.ofU64 n).toU64 = n := Binary64.toU64_ofU64 hn
  have hsame : ∀ error, completed w.native (Binary64.ofU64 n) error = w.native := fun error => by
    unfold completed
    rw [hx, hl]
  unfold complete completeMessage
  rw [Throwing.exec_tryCatch]
  cases napiOptionString conversionError d with
  | error err => rfl
  | ok error => exact hsame error

/-- What `onRejected` comes to, by what describing the value has left of the slot. -/
theorem onRejected_completes (hrun : Native.machine.Run (tr ++ tr') (described realm err w).native)
    (hd : Native.deliveries (tr ++ tr') < 2 ^ 53)
    (hdrawn : ((described realm err w).native.onMessage i).drawn = some n) :
    CompletedWithError ((onRejected realm (completeMessage conversionError) (Binary64.ofU64 n)
      err).exec w).2 i ↔ FailureReaches realm err w n i := by
  have hI := Native.inv_run hrun (by unfold u64Size; omega)
  have hn : n < 2 ^ 53 := Nat.lt_trans (hI.issued i n hdrawn) hd
  obtain ⟨d, w₁, hdesc⟩ := describeThrown_returns realm err w
  have hw₁ : described realm err w = w₁ := congrArg Prod.snd hdesc
  unfold FailureReaches LeftOpen onRejected
  rw [hw₁] at hI hdrawn ⊢
  rw [Throwing.exec_bind, hdesc, ← describeThrown_not_string hdesc, not_not]
  show CompletedWithError ((complete (completeMessage conversionError) (Binary64.ofU64 n) d).exec
    w₁).2 i ↔ (w₁.native.pending.senders.lookup n = some i ∧ _) ∨ CompletedWithError w₁ i
  cases hl : w₁.native.pending.senders.lookup n with
  | none =>
      unfold CompletedWithError
      rw [complete_gone hn hl]
      simp
  | some j =>
      obtain ⟨hslot, hempty⟩ := hI.mapped n j hl
      obtain rfl := hI.unique j i n (Native.drawn_of_slot hslot) hdrawn
      rw [complete_slot hn hl hempty]
      simp [CompletedWithError, hempty]

/-- **A failed handler completes its delivery with an error exactly when describing what it threw
    leaves the delivery open and gives a string, or user code completes it with an error meanwhile.**
    The value `err` is signalled in the world `w`, through the callback a thenable rejects with or by
    a handler that throws, and the session is open there: the sender of the invocation is in the map.
    What user code does to the session while `err` is described are the steps `tr'`. -/
theorem failed_handler_completed_with_error (hrun : Native.machine.Run tr w.native)
    (hopen : w.native.pending.senders.lookup n = some i)
    (huser : Native.machine.exec w.native tr' = some (described realm err w).native)
    (hd : Native.deliveries (tr ++ tr') < 2 ^ 53) :
    (CompletedWithError ((onRejected realm (completeMessage conversionError) (Binary64.ofU64 n)
        err).exec w).2 i ↔ FailureReaches realm err w n i) ∧
      ∀ handler delivery w₀, delivery.ackId = Binary64.ofU64 n →
        (handler (handlerArgument delivery)).exec w₀ = (.error err, w) →
        (CompletedWithError ((messageDispatcher realm (completeMessage conversionError) handler
          delivery).exec w₀).2 i ↔ FailureReaches realm err w n i) := by
  have hrun' := hrun.trans huser
  have hd' : Native.deliveries tr < 2 ^ 53 := by
    have hsum : Native.deliveries (tr ++ tr') = Native.deliveries tr + Native.deliveries tr' :=
      List.countP_append
    omega
  have hI := Native.inv_run hrun (by unfold u64Size; omega)
  have hdrawn := Native.drawn_stable huser (Native.drawn_of_slot (hI.mapped n i hopen).1)
  have hreject : CompletedWithError ((onRejected realm (completeMessage conversionError)
      (Binary64.ofU64 n) err).exec w).2 i ↔ FailureReaches realm err w n i :=
    onRejected_completes hrun' hd hdrawn
  refine ⟨hreject, fun handler delivery w₀ hack hthrow => ?_⟩
  rw [messageDispatcher_exec, hthrow, hack]
  exact hreject

end Failed

/-- A realm where `v instanceof Error` answers `isError`, every property read answers `property`,
    and `String(v)` answers `"boom"`. -/
def constantRealm (isError : Bool) (property : JsVal) : Realm (World Unit) where
  instanceofError _ := pure isError
  get _ _ := pure property
  toString _ := pure "boom"
  callThen _ _ _ _ := pure ()

/-- One delivery handed to the dispatcher. -/
def deliveredRun : List Native.Action :=
  [.fetchAdd 0 Native.sampleMessage, .insert 0, .call 0 .ok]

theorem exists_delivered : ∃ s, Native.machine.Run deliveredRun s ∧
    s.pending.senders.lookup 0 = some 0 := by
  obtain ⟨s, hs, hp⟩ := Native.machine.exists_run deliveredRun
    (fun s => s.pending.senders.lookup 0 = some 0) (by decide)
  exact ⟨s, hs, of_decide_eq_true hp⟩

/-- A handler that throws the string `"no"`. -/
theorem failed_handler_completed_with_error_string : ∃ w : World Unit,
    (CompletedWithError ((onRejected (constantRealm false .undefined) (completeMessage .null)
        (Binary64.ofU64 0) (.string "no")).exec w).2 0 ↔
      FailureReaches (constantRealm false .undefined) (.string "no") w 0 0) ∧
    FailureReaches (constantRealm false .undefined) (.string "no") w 0 0 := by
  obtain ⟨s, hs, hl⟩ := exists_delivered
  have hstring : ¬ MessageNotString (constantRealm false .undefined) (.string "no")
      (⟨s, ()⟩ : World Unit) := by
    rintro ⟨w', w'', message, hinst, -⟩
    cases hinst
  have huser : Native.machine.exec s [] = some (described (constantRealm false .undefined)
      (.string "no") (⟨s, ()⟩ : World Unit)).native := rfl
  exact ⟨⟨s, ()⟩, (failed_handler_completed_with_error hs hl huser (by decide)).1,
    Or.inl ⟨hl, hstring⟩⟩

/-- **An Error whose `message` is `undefined` acknowledges the delivery**: the handler threw it, and
    the oneshot gets `Ok(())`. -/
theorem undefined_message_acknowledges :
    ¬ ∀ (realm : Realm (World Unit)) (conversionError err : JsVal) (w : World Unit)
      (tr tr' : List Native.Action) (i n : Nat), Native.machine.Run tr w.native →
      w.native.pending.senders.lookup n = some i →
      Native.machine.exec w.native tr' = some (described realm err w).native →
      Native.deliveries (tr ++ tr') < 2 ^ 53 →
      CompletedWithError ((onRejected realm (completeMessage conversionError) (Binary64.ofU64 n)
        err).exec w).2 i := by
  intro hall
  obtain ⟨s, hs, hl⟩ := exists_delivered
  obtain ⟨msg, hmsg⟩ := hall (constantRealm true .undefined) .null (.object 0) ⟨s, ()⟩ _ [] 0 0 hs
    hl rfl (by decide)
  have hx : (Binary64.ofU64 0).toU64 = 0 := Binary64.toU64_ofU64 (by decide)
  have hok : ((onRejected (constantRealm true .undefined) (completeMessage .null) (Binary64.ofU64 0)
      (.object 0)).exec ⟨s, ()⟩).2.native = completed s (Binary64.ofU64 0) none := rfl
  rw [hok, completed_cells none (by rw [hx]; exact hl)] at hmsg
  cases hmsg

end TrueSealSync.Sdk
