/-
  File:      TrueSealSync/Sdk/Settlement.lean
  Subject:   SETTLING ONE DELIVERY: when the dispatcher sends which completion, whatever the handler,
             its thenable and the callbacks do, and in whatever order.

  The dispatcher and the callbacks of Sdk/Dispatcher are run with parameters that write a log: what
  the handler returned, the reads of properties, the calls of the callbacks, the completions sent and
  the sender each of them took.

  * `Note`, `notedRealm`, `notedHandler`, `notedComplete` -- the log of one delivery;
  * `Outside` -- what user code and the other threads can do to the world while they run: anything to
    the user's state, steps of the native session, and calls of the two callbacks, once they were
    handed out, nested as deep as they like;
  * `outside_settling` -- the invariant of the log and of the session, kept by all of that;
  * `settled_once` -- a success is sent only after the handler returned and its thenable, if it is
    one, called its fulfil callback, as long as no Error described for the delivery has a `message`
    that reads as `null` or `undefined`; `then` is read at most once; the first completion that takes
    the sender decides for good.
-/
import TrueSealSync.Sdk.Dispatcher

namespace TrueSealSync.Sdk

open TrueSealSync.Lib
open TrueSealSync.Native (MessageDelivery TrueSealMessage State)

/-! ## 1. The log of one delivery -/

/-- What the log of a delivery keeps. -/
inductive Note where
  /-- the handler returned -/
  | returned (value : JsVal)
  /-- the dispatcher reads a property -/
  | reading (key : String)
  /-- the read answered, it did not throw -/
  | answered (key : String) (answer : JsVal)
  /-- `then` is called: user code has the callbacks -/
  | handed
  /-- the fulfil callback is called -/
  | fulfilled
  /-- the reject callback is called -/
  | rejected (err : JsVal)
  /-- `completeMessage(ackId, error)` is called; the invocation whose sender it took -/
  | sent (error : JsVal) (taken : Option Nat)
  deriving DecidableEq

/-- The user's state, with the log of the delivery and the number of deliveries there were. -/
structure Noted (υ : Type) where
  log : List Note := []
  deliveries : Nat
  rest : υ

section Logging

variable {υ : Type}

def World.noted (w : World (Noted υ)) (n : Note) : World (Noted υ) :=
  { w with user := { w.user with log := w.user.log ++ [n] } }

def note (n : Note) : Js (World (Noted υ)) Unit := modify fun w => w.noted n

@[simp] theorem note_exec (n : Note) (w : World (Noted υ)) :
    (note n).exec w = (.ok (), w.noted n) := rfl

/-- The handler, with what it returns noted. -/
def notedHandler (handler : TrueSealMessage → Js (World (Noted υ)) JsVal) (m : TrueSealMessage) :
    Js (World (Noted υ)) JsVal := do
  let value ← handler m
  note (.returned value)
  return value

/-- The realm, with the reads of the dispatcher and the calls of its callbacks noted. -/
def notedRealm (realm : Realm (World (Noted υ))) : Realm (World (Noted υ)) where
  instanceofError := realm.instanceofError
  get v key := do
    note (.reading key)
    let answer ← realm.get v key
    note (.answered key answer)
    return answer
  toString := realm.toString
  callThen then_ value onFulfilled onRejected := do
    note .handed
    realm.callThen then_ value
      (do note .fulfilled; onFulfilled)
      fun err => do note (.rejected err); onRejected err

section Exec

variable (realm : Realm (World (Noted υ)))

theorem notedRealm_get_exec (v : JsVal) (key : String) (w : World (Noted υ)) :
    ((notedRealm realm).get v key).exec w =
      match (realm.get v key).exec (w.noted (.reading key)) with
      | (.ok answer, w') => (.ok answer, w'.noted (.answered key answer))
      | (.error e, w') => (.error e, w') := by
  show Throwing.exec (note (.reading key) >>= fun _ => realm.get v key >>= _) w = _
  rw [Throwing.exec_bind, note_exec]
  simp only [Throwing.exec_bind]
  rcases (realm.get v key).exec (w.noted (.reading key)) with ⟨e | answer, w'⟩ <;> rfl

theorem notedRealm_callThen_exec (then_ value : JsVal) (f : Js (World (Noted υ)) Unit)
    (g : JsVal → Js (World (Noted υ)) Unit) (w : World (Noted υ)) :
    ((notedRealm realm).callThen then_ value f g).exec w =
      (realm.callThen then_ value (do note .fulfilled; f)
        fun err => do note (.rejected err); g err).exec (w.noted .handed) := rfl

end Exec

variable (conversionError : JsVal) (ackId : Binary64)

/-- The invocation whose sender `completeMessage(ackId, error)` takes. -/
def taken (s : State) (error : JsVal) : Option Nat :=
  match napiOptionString conversionError error with
  | .ok _ => s.pending.senders.lookup ackId.toU64
  | .error _ => none

/-- `completeMessage`, noted with the sender it took. -/
def notedComplete (ackId : Binary64) (error : JsVal) : Js (World (Noted υ)) Unit := do
  let w ← get
  note (.sent error (taken conversionError ackId w.native error))
  completeMessage conversionError ackId error

/-- The world after `complete(error)`. -/
def completion (error : JsVal) (w : World (Noted υ)) : World (Noted υ) :=
  { w.noted (.sent error (taken conversionError ackId w.native error)) with
    native := match napiOptionString conversionError error with
      | .ok error => completed w.native ackId error
      | .error _ => w.native }

theorem complete_noted (error : JsVal) (w : World (Noted υ)) :
    (complete (notedComplete conversionError) ackId error).exec w =
      (.ok (), completion conversionError ackId error w) := by
  unfold complete notedComplete completion completeMessage
  rw [Throwing.exec_tryCatch, Throwing.exec_bind, Throwing.exec_get]
  simp only [Throwing.exec_bind, note_exec]
  cases napiOptionString conversionError error with
  | ok e => rfl
  | error e => rfl

/-- **A completion that takes no sender changes nothing**, the log of it apart. -/
theorem completion_of_not_taken {error : JsVal} {w : World (Noted υ)}
    (h : taken conversionError ackId w.native error = none) :
    completion conversionError ackId error w = w.noted (.sent error none) := by
  have hkeep : (match napiOptionString conversionError error with
      | .ok error => completed w.native ackId error
      | .error _ => w.native) = w.native := by
    unfold taken at h
    cases hn : napiOptionString conversionError error with
    | error e => rfl
    | ok e =>
        rw [hn] at h
        have hl : w.native.pending.senders.lookup ackId.toU64 = none := h
        show completed w.native ackId e = w.native
        unfold completed
        rw [hl]
  unfold completion
  rw [hkeep, h]
  rfl

end Logging

/-! ## 2. A sender that is spent -/

section Spent

variable {d : Nat} {s s' : State} {i n : Nat} {r : Native.AckResult} {x : Binary64}

/-- The id `n` of invocation `i` is out of the map for good, and its oneshot holds `r`. -/
structure Spent (s : State) (i n : Nat) (r : Native.AckResult) : Prop where
  gone : s.gone i n
  filled : s.cells i = .sent r

theorem spent_step (hI : Native.Inv d s) (h : Spent s i n r) {a : Native.Action}
    (hs : Native.Step s a s') : Spent s' i n r :=
  ⟨Native.gone_step hI h.gone hs, Native.filled_step hI h.gone.rank h.filled hs⟩

theorem completed_of_lookup (e : Option String) (hl : s.pending.senders.lookup x.toU64 = some i) :
    completed s x e =
      { s with
        pending := { s.pending with senders := s.pending.senders.erase x.toU64 }
        cells := Oneshot.send s.cells i (Native.outcome e) } := by
  unfold completed
  rw [hl]

theorem completed_of_miss (e : Option String) (hl : s.pending.senders.lookup x.toU64 = none) :
    completed s x e = s := by
  unfold completed
  rw [hl]

/-- **A completion keeps the invariant of the session.** -/
theorem inv_completed (hI : Native.Inv d s) (x : Binary64) (e : Option String) :
    Native.Inv d (completed s x e) := by
  rcases hl : s.pending.senders.lookup x.toU64 with _ | i
  · exact (completed_of_miss e hl).symm ▸ hI
  obtain ⟨hslot, hempty⟩ := hI.mapped _ _ hl
  have hlookup : ∀ k, (s.pending.senders.erase x.toU64).lookup k =
      if k = x.toU64 then none else s.pending.senders.lookup k :=
    fun k => Native.lookup_erase_apply k _ _
  rw [completed_of_lookup e hl]
  refine ⟨hI.counter, hI.issued, hI.unique, ?_, ?_, hI.heldOnce, ?_, ?_, hI.closing, ?_⟩
  · intro n j hj
    rw [hlookup] at hj
    obtain ⟨hn, hj⟩ := Option.ite_none_left_eq_some.mp hj
    obtain ⟨hslot', hempty'⟩ := hI.mapped n j hj
    have hji : j ≠ i := fun he => hn (by rw [he, hslot] at hslot'; exact (Option.some.inj hslot').symm)
    exact ⟨hslot', by rw [← hempty']; exact Oneshot.send_ne _ _ hji⟩
  · intro c x' e' j hc
    obtain ⟨hdrawn, hearly, hcell, hnone⟩ := hI.held c x' e' j hc
    have hji : j ≠ i := by
      rintro rfl
      -- the sender of `i` is in the map, that of `j` in the hands of a call
      rw [Native.drawn_of_slot hslot] at hdrawn
      rw [← Option.some.inj hdrawn, hl] at hnone
      cases hnone
    refine ⟨hdrawn, hearly, by rw [← hcell]; exact Oneshot.send_ne _ _ hji, ?_⟩
    rw [hlookup, hnone, ite_self]
  · intro j hj
    have hji : j ≠ i := by
      rintro rfl
      rw [Native.early_of_slot hslot] at hj
      cases hj
    exact (Oneshot.send_ne _ _ hji).trans (hI.early j hj)
  · intro j n hj
    by_cases hji : j = i
    · exact Or.inr (Or.inr ⟨_, by rw [hji]; exact Oneshot.send_self ..⟩)
    · rcases hI.placed j n hj with hmap | hheld | ⟨r, hr⟩
      · refine Or.inl ?_
        have hn : n ≠ x.toU64 := fun he => hji (by rw [he, hl] at hmap; exact (Option.some.inj hmap).symm)
        rw [hlookup, if_neg hn]
        exact hmap
      · exact Or.inr (Or.inl hheld)
      · exact Or.inr (Or.inr ⟨r, (Oneshot.send_ne _ _ hji).trans hr⟩)
  · intro hc
    have hnone := (hI.closed hc).2
    rw [hnone] at hl
    cases hl

/-- A completion that takes the sender of `i` spends it. -/
theorem spent_completed (hI : Native.Inv d s) (e : Option String)
    (hl : s.pending.senders.lookup x.toU64 = some i) :
    Spent (completed s x e) i x.toU64 (Native.outcome e) := by
  have hslot := (hI.mapped _ _ hl).1
  rw [completed_of_lookup e hl]
  exact ⟨⟨AList.lookup_erase .., Native.drawn_of_slot hslot, Native.rank_of_slot hslot⟩,
    Oneshot.send_self ..⟩

/-- Other completions leave it spent. -/
theorem Spent.completed (h : Spent s i n r) (hI : Native.Inv d s) (x : Binary64)
    (e : Option String) : Spent (completed s x e) i n r := by
  rcases hl : s.pending.senders.lookup x.toU64 with _ | j
  · exact (completed_of_miss e hl).symm ▸ h
  rw [completed_of_lookup e hl]
  refine ⟨⟨?_, h.gone.drawn, h.gone.rank⟩, ?_⟩
  · show (s.pending.senders.erase x.toU64).lookup n = none
    rw [Native.lookup_erase_apply, h.gone.lookup, ite_self]
  · have hij : i ≠ j := by
      rintro rfl
      have hfilled := h.filled
      rw [(hI.mapped _ _ hl).2] at hfilled
      cases hfilled
    exact (Oneshot.send_ne _ _ hij).trans h.filled

end Spent

/-! ## 3. What runs while the delivery is open -/

section Running

variable {υ : Type} (conversionError : JsVal) (ackId : Binary64)

/-- **What user code and the other threads can do**: change the user's state and let the session take
    steps, and, once the callbacks are handed out, call them. A call of the reject callback describes
    its argument first, and that runs user code again: `describeThrown` answers a text, or the
    `message` it reads, or its fallback where that read throws. -/
inductive Outside : World (Noted υ) → World (Noted υ) → Prop where
  | refl (w : World (Noted υ)) : Outside w w
  | trans {u v w : World (Noted υ)} (h : Outside u v) (h' : Outside v w) : Outside u w
  | other (w : World (Noted υ)) (rest : υ) {tr : List Native.Action} {native : State}
      (h : Native.machine.exec w.native tr = some native) :
      Outside w ⟨native, { w.user with
        deliveries := w.user.deliveries + Native.deliveries tr, rest := rest }⟩
  | fulfilled {w : World (Noted υ)} (hh : .handed ∈ w.user.log) :
      Outside w (completion conversionError ackId .null (w.noted .fulfilled))
  | rejectedText {w w₁ : World (Noted υ)} (err : JsVal) (text : String)
      (hh : .handed ∈ w.user.log) (h : Outside (w.noted (.rejected err)) w₁) :
      Outside w (completion conversionError ackId (.string text) w₁)
  | rejectedMessage {w w₁ w₂ : World (Noted υ)} (err message : JsVal)
      (hh : .handed ∈ w.user.log) (h₁ : Outside (w.noted (.rejected err)) w₁)
      (h₂ : Outside (w₁.noted (.reading "message")) w₂) :
      Outside w (completion conversionError ackId message
        (w₂.noted (.answered "message" message)))
  | rejectedUnreadable {w w₁ w₂ : World (Noted υ)} (err : JsVal)
      (hh : .handed ∈ w.user.log) (h₁ : Outside (w.noted (.rejected err)) w₁)
      (h₂ : Outside (w₁.noted (.reading "message")) w₂) :
      Outside w (completion conversionError ackId (.string "<unprintable error>") w₂)

/-- User code does no more than that; the callbacks it is given are called as it likes. -/
structure UserCode (realm : Realm (World (Noted υ)))
    (handler : TrueSealMessage → Js (World (Noted υ)) JsVal) : Prop where
  reads : realm.Preserves (Outside conversionError ackId)
  handler : ∀ m, Throwing.Preserves (Outside conversionError ackId) (handler m)
  callThen : ∀ then_ value (f : Js (World (Noted υ)) Unit) (g : JsVal → Js (World (Noted υ)) Unit),
    (∀ w : World (Noted υ), .handed ∈ w.user.log → Outside conversionError ackId w (f.exec w).2) →
    (∀ err, ∀ w : World (Noted υ), .handed ∈ w.user.log →
      Outside conversionError ackId w ((g err).exec w).2) →
    ∀ w : World (Noted υ), .handed ∈ w.user.log →
      Outside conversionError ackId w ((realm.callThen then_ value f g).exec w).2

/-- A completion without error, to `complete_message`. -/
def Success (error : JsVal) : Prop := error = .undefined ∨ error = .null

/-- The dispatcher reads `then` of objects and functions. -/
def Probed (value : JsVal) : Prop :=
  (typeOf value = .object ∧ value ≠ .null) ∨ typeOf value = .function

instance (value : JsVal) : Decidable (Probed value) := inferInstanceAs (Decidable (_ ∨ _))

/-- **A success is due**: the handler returned, and its `then` is no function or the fulfil callback
    was called. -/
def Due (log : List Note) : Prop :=
  ∃ value, .returned value ∈ log ∧ (¬ Probed value ∨
    (∃ answer, .answered "then" answer ∈ log ∧ typeOf answer ≠ .function) ∨ .fulfilled ∈ log)

/-- Whoever completes without error has a reason: a success is due, or an Error was described whose
    `message` read as just that value. -/
def Reasoned (log : List Note) : Prop :=
  ∀ pre error took post, log = pre ++ .sent error took :: post → Success error →
    .answered "message" error ∈ pre ∨ Due pre

/-- The completion took a sender. -/
def Note.took : Note → Bool
  | .sent _ (some _) => true
  | _ => false

theorem took_iff {n : Note} : n.took = true ↔ ∃ error i, n = .sent error (some i) := by
  constructor
  · intro h
    cases n with
    | sent error took =>
        cases took with
        | some i => exact ⟨error, i, rfl⟩
        | none => cases h
    | _ => cases h
  · rintro ⟨error, i, rfl⟩
    rfl

/-- The senders taken so far: one at most, and it is spent. -/
structure SpentBy (w : World (Noted υ)) : Prop where
  inv : Native.Inv w.user.deliveries w.native
  once : w.user.log.countP Note.took ≤ 1
  spent : ∀ error i, .sent error (some i) ∈ w.user.log →
    ∃ e, napiOptionString conversionError error = .ok e ∧
      Spent w.native i ackId.toU64 (Native.outcome e)

/-- **The invariant** of a delivery that is being settled. -/
structure Settling (w : World (Noted υ)) : Prop where
  reasoned : Reasoned w.user.log
  returned : .handed ∈ w.user.log → ∃ value, .returned value ∈ w.user.log
  spentBy : w.user.deliveries ≤ u64Size → SpentBy conversionError ackId w

variable {conversionError : JsVal} {ackId : Binary64} {w w' : World (Noted υ)}

theorem reasoned_concat {log : List Note} {n : Note} (h : Reasoned log)
    (hn : ∀ error took, n = .sent error took → Success error →
      .answered "message" error ∈ log ∨ Due log) : Reasoned (log ++ [n]) := by
  intro pre error took post he hs
  rcases List.eq_nil_or_concat post with rfl | ⟨post, m, rfl⟩
  · obtain ⟨rfl, hlast⟩ := List.append_inj' he rfl
    exact hn error took (List.cons.inj hlast).1 hs
  · have he' : log ++ [n] = (pre ++ .sent error took :: post) ++ [m] := by rw [he]; simp
    exact h pre error took post (List.append_inj' he' rfl).1 hs

/-- The note is no completion. -/
def Note.plain : Note → Bool
  | .sent _ _ => false
  | _ => true

/-- Notes that are no completions; the callbacks are handed out after the handler returned. -/
theorem settling_noted (h : Settling conversionError ackId w) {n : Note} (hn : n.plain = true)
    (hh : n ≠ .handed ∨ ∃ value, .returned value ∈ w.user.log) :
    Settling conversionError ackId (w.noted n) := by
  have hsent : ∀ error took, n ≠ .sent error took := by
    rintro error took rfl
    cases hn
  refine ⟨reasoned_concat h.reasoned fun error took he => absurd he (hsent error took), ?_, ?_⟩
  · intro hm
    have hret : ∃ value, .returned value ∈ w.user.log := by
      rcases List.mem_append.mp hm with hm | hm
      · exact h.returned hm
      · exact hh.resolve_left fun hne => hne (List.mem_singleton.mp hm).symm
    obtain ⟨value, hv⟩ := hret
    exact ⟨value, List.mem_append_left _ hv⟩
  · intro hd
    obtain ⟨hinv, honce, hspent⟩ := h.spentBy hd
    have htook : n.took = false := by
      cases n with
      | sent error took => exact absurd rfl (hsent error took)
      | _ => rfl
    refine ⟨hinv, ?_, fun error i hm => ?_⟩
    · show (w.user.log ++ [n]).countP Note.took ≤ 1
      rw [List.countP_append, List.countP_singleton, htook]
      exact honce
    · rcases List.mem_append.mp hm with hm | hm
      · exact hspent error i hm
      · exact absurd (List.mem_singleton.mp hm).symm (hsent error (some i))

/-- **A completion keeps the invariant**, where it is an error or has a reason. -/
theorem settling_completion (h : Settling conversionError ackId w) {error : JsVal}
    (hr : Success error → .answered "message" error ∈ w.user.log ∨ Due w.user.log) :
    Settling conversionError ackId (completion conversionError ackId error w) := by
  refine ⟨reasoned_concat h.reasoned fun error' took he => ?_, ?_, ?_⟩
  · cases he
    exact hr
  · intro hm
    rcases List.mem_append.mp hm with hm | hm
    · obtain ⟨value, hv⟩ := h.returned hm
      exact ⟨value, List.mem_append_left _ hv⟩
    · cases List.mem_singleton.mp hm
  · intro hd
    obtain ⟨hinv, honce, hspent⟩ := h.spentBy hd
    rcases htaken : taken conversionError ackId w.native error with _ | i
    · -- nothing but the log changes
      rw [completion_of_not_taken conversionError ackId htaken]
      refine ⟨hinv, ?_, fun error' i hm => ?_⟩
      · show (w.user.log ++ [Note.sent error none]).countP Note.took ≤ 1
        rw [List.countP_append]
        exact honce
      · rcases List.mem_append.mp hm with hm | hm
        · exact hspent error' i hm
        · cases List.mem_singleton.mp hm
    · cases hn : napiOptionString conversionError error with
      | error e =>
          unfold taken at htaken
          rw [hn] at htaken
          cases htaken
      | ok e =>
          have hl : w.native.pending.senders.lookup ackId.toU64 = some i := by
            unfold taken at htaken
            rw [hn] at htaken
            exact htaken
          have hnone : w.user.log.countP Note.took = 0 := by
            refine List.countP_eq_zero.mpr fun n hm htook => ?_
            obtain ⟨error', j, rfl⟩ := took_iff.mp htook
            obtain ⟨e', -, hsp⟩ := hspent error' j hm
            have hgone := hsp.gone.lookup
            rw [hl] at hgone
            cases hgone
          have hcompletion : completion conversionError ackId error w =
              { w.noted (.sent error (some i)) with native := completed w.native ackId e } := by
            unfold completion
            rw [hn, htaken]
          rw [hcompletion]
          refine ⟨inv_completed hinv ackId e, ?_, fun error' j hm => ?_⟩
          · show (w.user.log ++ [Note.sent error (some i)]).countP Note.took ≤ 1
            rw [List.countP_append, hnone]
            exact Nat.le_refl 1
          · rcases List.mem_append.mp hm with hm | hm
            · obtain ⟨e', he', hsp⟩ := hspent error' j hm
              exact ⟨e', he', hsp.completed hinv ackId e⟩
            · cases List.mem_singleton.mp hm
              exact ⟨e, hn, spent_completed hinv e hl⟩

/-! ## 4. Everything that runs keeps the invariant -/

/-- The log only grows; while nothing is handed out, user code writes nothing in it, and the
    dispatcher alone reads `then`. -/
structure Grows (w w' : World (Noted υ)) : Prop where
  log : w.user.log <+: w'.user.log
  deliveries : w.user.deliveries ≤ w'.user.deliveries
  reads : w'.user.log.count (.reading "then") = w.user.log.count (.reading "then")
  kept : .handed ∉ w.user.log → w'.user.log = w.user.log

theorem Grows.trans {u v w : World (Noted υ)} (h : Grows u v) (h' : Grows v w) : Grows u w where
  log := h.log.trans h'.log
  deliveries := Nat.le_trans h.deliveries h'.deliveries
  reads := h'.reads.trans h.reads
  kept hu := by
    have hv := h.kept hu
    exact (h'.kept (hv ▸ hu)).trans hv

/-- One more note, where the callbacks are handed out. -/
theorem grows_noted (hh : .handed ∈ w.user.log) {n : Note} (hn : n ≠ .reading "then") :
    Grows w (w.noted n) where
  log := List.prefix_append _ _
  deliveries := Nat.le_refl _
  reads := by
    show (w.user.log ++ [n]).count _ = _
    rw [List.count_append, List.count_singleton, if_neg (by simpa using hn), Nat.add_zero]
  kept hno := absurd hh hno

theorem grows_completion (hh : .handed ∈ w.user.log) (error : JsVal) :
    Grows w (completion conversionError ackId error w) :=
  have h := grows_noted hh (n := .sent error (taken conversionError ackId w.native error)) nofun
  ⟨h.log, h.deliveries, h.reads, h.kept⟩

theorem Grows.handed (h : Grows w w') (hh : .handed ∈ w.user.log) : .handed ∈ w'.user.log :=
  h.log.subset hh

theorem Outside.grows (h : Outside conversionError ackId w w') : Grows w w' := by
  induction h with
  | refl w => exact ⟨List.prefix_refl _, Nat.le_refl _, rfl, fun _ => rfl⟩
  | trans _ _ ih ih' => exact ih.trans ih'
  | other w rest h => exact ⟨List.prefix_refl _, Nat.le_add_right _ _, rfl, fun _ => rfl⟩
  | fulfilled hh =>
      have h₁ := grows_noted hh (n := .fulfilled) nofun
      exact h₁.trans (grows_completion (h₁.handed hh) _)
  | rejectedText err text hh h ih =>
      have h₁ := (grows_noted hh (n := .rejected err) nofun).trans ih
      exact h₁.trans (grows_completion (h₁.handed hh) _)
  | rejectedMessage err message hh h₁ h₂ ih₁ ih₂ =>
      have g₁ := (grows_noted hh (n := .rejected err) nofun).trans ih₁
      have g₂ := (g₁.trans (grows_noted (g₁.handed hh) (by simp))).trans ih₂
      have g₃ := g₂.trans (grows_noted (g₂.handed hh) (n := .answered "message" message) nofun)
      exact g₃.trans (grows_completion (g₃.handed hh) _)
  | rejectedUnreadable err hh h₁ h₂ ih₁ ih₂ =>
      have g₁ := (grows_noted hh (n := .rejected err) nofun).trans ih₁
      have g₂ := (g₁.trans (grows_noted (g₁.handed hh) (by simp))).trans ih₂
      exact g₂.trans (grows_completion (g₂.handed hh) _)

theorem not_success_string (text : String) : ¬ Success (.string text) := by
  rintro (h | h) <;> cases h

/-- **User code and the other threads keep the invariant.** -/
theorem outside_settling (h : Outside conversionError ackId w w')
    (hw : Settling conversionError ackId w) : Settling conversionError ackId w' := by
  induction h with
  | refl w => exact hw
  | trans _ _ ih ih' => exact ih' (ih hw)
  | other w rest hexec =>
      refine ⟨hw.reasoned, hw.returned, fun hd => ?_⟩
      obtain ⟨hinv, honce, hspent⟩ := hw.spentBy (Nat.le_trans (Nat.le_add_right _ _) hd)
      refine ⟨?_, honce, fun error i hm => ?_⟩
      · exact (Native.stable_exec (P := fun _ => True) (fun _ _ _ _ _ _ _ => trivial) hinv hexec hd
          trivial).1
      · obtain ⟨e, he, hsp⟩ := hspent error i hm
        exact ⟨e, he, (Native.stable_exec (fun _ _ _ _ hI hs hst => spent_step hI hs hst) hinv hexec
          hd hsp).2⟩
  | fulfilled hh =>
      refine settling_completion (settling_noted hw (n := .fulfilled) rfl (.inl nofun)) fun _ => Or.inr ?_
      obtain ⟨value, hv⟩ := hw.returned hh
      exact ⟨value, List.mem_append_left _ hv, Or.inr (Or.inr (by simp [World.noted]))⟩
  | rejectedText err text hh h ih =>
      exact settling_completion (ih (settling_noted hw (n := .rejected err) rfl (.inl nofun)))
        fun hs => absurd hs (not_success_string text)
  | rejectedMessage err message hh h₁ h₂ ih₁ ih₂ =>
      have hmid := ih₁ (settling_noted hw (n := .rejected err) rfl (.inl nofun))
      have hlast := ih₂ (settling_noted hmid (n := .reading "message") rfl (.inl nofun))
      exact settling_completion (settling_noted hlast (n := .answered "message" message) rfl (.inl nofun))
        fun _ => Or.inl (by simp [World.noted])
  | rejectedUnreadable err hh h₁ h₂ ih₁ ih₂ =>
      have hmid := ih₁ (settling_noted hw (n := .rejected err) rfl (.inl nofun))
      exact settling_completion (ih₂ (settling_noted hmid (n := .reading "message") rfl (.inl nofun)))
        fun hs => absurd hs (not_success_string _)

/-! ## 5. The dispatcher keeps it -/

/-- What becomes of a description and the completion with it. -/
inductive Described (conversionError : JsVal) (ackId : Binary64) (w : World (Noted υ)) :
    World (Noted υ) → Prop where
  | text {w₁ : World (Noted υ)} (text : String) (h : Outside conversionError ackId w w₁) :
      Described conversionError ackId w (completion conversionError ackId (.string text) w₁)
  | message {w₁ w₂ : World (Noted υ)} (message : JsVal) (h₁ : Outside conversionError ackId w w₁)
      (h₂ : Outside conversionError ackId (w₁.noted (.reading "message")) w₂) :
      Described conversionError ackId w
        (completion conversionError ackId message (w₂.noted (.answered "message" message)))
  | unreadable {w₁ w₂ : World (Noted υ)} (h₁ : Outside conversionError ackId w w₁)
      (h₂ : Outside conversionError ackId (w₁.noted (.reading "message")) w₂) :
      Described conversionError ackId w
        (completion conversionError ackId (.string "<unprintable error>") w₂)

variable {realm : Realm (World (Noted υ))}

/-- `complete(describeThrown(err))`, case by case. -/
theorem onRejected_described (hreads : realm.Preserves (Outside conversionError ackId)) (err : JsVal)
    (w : World (Noted υ)) : ∃ w', Described conversionError ackId w w' ∧
      (onRejected (notedRealm realm) (notedComplete conversionError) ackId err).exec w =
        (.ok (), w') := by
  have hcompleted : ∀ {d w₁}, (describeThrown (notedRealm realm) err).exec w = (.ok d, w₁) →
      (onRejected (notedRealm realm) (notedComplete conversionError) ackId err).exec w =
        (.ok (), completion conversionError ackId d w₁) := by
    intro d w₁ hd
    unfold onRejected
    rw [Throwing.exec_bind, hd]
    exact complete_noted conversionError ackId d w₁
  have hinst' := hreads.instanceofError err w
  rcases hinst : (realm.instanceofError err).exec w with ⟨e | isError, w₁⟩
  · rw [hinst] at hinst'
    refine ⟨_, .text "<unprintable error>" hinst', hcompleted ?_⟩
    unfold describeThrown
    rw [Throwing.exec_tryCatch, Throwing.exec_bind]
    simp only [notedRealm, hinst, Throwing.exec_pure]
  rw [hinst] at hinst'
  cases isError with
  | false =>
      have htext' := hreads.toString err w₁
      rcases htext : (realm.toString err).exec w₁ with ⟨e | text, w₂⟩
      · rw [htext] at htext'
        refine ⟨_, .text "<unprintable error>" (hinst'.trans htext'), hcompleted ?_⟩
        unfold describeThrown
        rw [Throwing.exec_tryCatch, Throwing.exec_bind]
        simp only [notedRealm, hinst, Bool.false_eq_true, if_false, Throwing.exec_bind, htext,
          Throwing.exec_pure]
      · rw [htext] at htext'
        refine ⟨_, .text text (hinst'.trans htext'), hcompleted ?_⟩
        unfold describeThrown
        rw [Throwing.exec_tryCatch, Throwing.exec_bind]
        simp only [notedRealm, hinst, Bool.false_eq_true, if_false, Throwing.exec_bind, htext,
          Throwing.exec_pure]
  | true =>
      have hget' := hreads.get err "message" (w₁.noted (.reading "message"))
      rcases hget : (realm.get err "message").exec (w₁.noted (.reading "message")) with
        ⟨e | message, w₂⟩
      · rw [hget] at hget'
        refine ⟨_, .unreadable hinst' hget', hcompleted ?_⟩
        unfold describeThrown
        rw [Throwing.exec_tryCatch, Throwing.exec_bind]
        simp only [notedRealm, hinst, if_true, Throwing.exec_bind, note_exec, hget, Throwing.exec_pure]
      · rw [hget] at hget'
        refine ⟨_, .message message hinst' hget', hcompleted ?_⟩
        unfold describeThrown
        rw [Throwing.exec_tryCatch, Throwing.exec_bind]
        simp only [notedRealm, hinst, if_true, Throwing.exec_bind, note_exec, hget, Throwing.exec_pure]

/-- How often the dispatcher has read `then`. -/
def thenReads (w : World (Noted υ)) : Nat := w.user.log.count (.reading "then")

theorem thenReads_noted (w : World (Noted υ)) {n : Note} (hn : n ≠ .reading "then") :
    thenReads (w.noted n) = thenReads w := by
  show (w.user.log ++ [n]).count _ = _
  rw [List.count_append, List.count_singleton, if_neg (by simpa using hn)]
  rfl

theorem thenReads_completion (error : JsVal) (w : World (Noted υ)) :
    thenReads (completion conversionError ackId error w) = thenReads w :=
  thenReads_noted w nofun

theorem Described.settling (h : Described conversionError ackId w w')
    (hw : Settling conversionError ackId w) :
    Settling conversionError ackId w' ∧ thenReads w' = thenReads w := by
  cases h with
  | text text h =>
      exact ⟨settling_completion (outside_settling h hw) fun hs => absurd hs (not_success_string _),
        (thenReads_completion _ _).trans h.grows.reads⟩
  | @message w₁ w₂ message h₁ h₂ =>
      have hmid := settling_noted (outside_settling h₁ hw) (n := .reading "message") rfl (.inl nofun)
      have hlast := settling_noted (outside_settling h₂ hmid) (n := .answered "message" message) rfl
        (.inl nofun)
      refine ⟨settling_completion hlast fun _ => Or.inl (by simp [World.noted]), ?_⟩
      calc thenReads (completion conversionError ackId message (w₂.noted (.answered "message" message)))
          = thenReads w₂ := (thenReads_completion _ _).trans (thenReads_noted _ nofun)
        _ = thenReads (w₁.noted (.reading "message")) := h₂.grows.reads
        _ = thenReads w₁ := thenReads_noted _ (by simp)
        _ = thenReads w := h₁.grows.reads
  | @unreadable w₁ w₂ h₁ h₂ =>
      have hmid := settling_noted (outside_settling h₁ hw) (n := .reading "message") rfl (.inl nofun)
      refine ⟨settling_completion (outside_settling h₂ hmid) fun hs =>
        absurd hs (not_success_string _), ?_⟩
      calc thenReads (completion conversionError ackId (.string "<unprintable error>") w₂)
          = thenReads w₂ := thenReads_completion _ _
        _ = thenReads (w₁.noted (.reading "message")) := h₂.grows.reads
        _ = thenReads w₁ := thenReads_noted _ (by simp)
        _ = thenReads w := h₁.grows.reads

variable {handler : TrueSealMessage → Js (World (Noted υ)) JsVal} {value : JsVal}

/-- The callbacks a thenable gets do what `Outside` allows. -/
theorem callbacks_outside (hreads : realm.Preserves (Outside conversionError ackId)) :
    (∀ w : World (Noted υ), .handed ∈ w.user.log → Outside conversionError ackId w
      ((do note .fulfilled
           onFulfilled (notedComplete conversionError) ackId : Js (World (Noted υ)) Unit).exec w).2) ∧
    ∀ err, ∀ w : World (Noted υ), .handed ∈ w.user.log → Outside conversionError ackId w
      ((do note (.rejected err)
           onRejected (notedRealm realm) (notedComplete conversionError) ackId err :
             Js (World (Noted υ)) Unit).exec w).2 := by
  constructor
  · intro w hh
    rw [Throwing.exec_bind, note_exec]
    simp only [onFulfilled, complete_noted]
    exact .fulfilled hh
  · intro err w hh
    rw [Throwing.exec_bind, note_exec]
    obtain ⟨w', hdescribed, hexec⟩ := onRejected_described hreads err (w.noted (.rejected err))
    simp only [hexec]
    cases hdescribed with
    | text text h => exact .rejectedText err text hh h
    | message message h₁ h₂ => exact .rejectedMessage err message hh h₁ h₂
    | unreadable h₁ h₂ => exact .rejectedUnreadable err hh h₁ h₂

/-- The body of the `try` in `settle`. -/
def probe {ω : Type} (realm : Realm ω) (completeMessage : Binary64 → JsVal → Js ω Unit)
    (ackId : Binary64) (value : JsVal) : Js ω Unit := do
  let then_ ← readThen realm value
  if typeOf then_ = .function then
    realm.callThen then_ value (onFulfilled completeMessage ackId)
      (onRejected realm completeMessage ackId)
  else
    complete completeMessage ackId .null

theorem readThen_eq {ω : Type} (realm : Realm ω) (value : JsVal) :
    readThen realm value = if Probed value then realm.get value "then" else pure .undefined := rfl

/-- What the call of a `then` does to a delivery that is being settled. -/
theorem callThen_settling (hu : UserCode conversionError ackId realm handler) {answer : JsVal}
    (hw : Settling conversionError ackId w) (hret : ∃ value, .returned value ∈ w.user.log)
    {r : Except JsVal Unit} (hexec : ((notedRealm realm).callThen answer value
      (onFulfilled (notedComplete conversionError) ackId)
      (onRejected (notedRealm realm) (notedComplete conversionError) ackId)).exec w = (r, w')) :
    Settling conversionError ackId w' ∧ thenReads w' = thenReads w := by
  obtain ⟨hfulfil, hreject⟩ := callbacks_outside (υ := υ) hu.reads
  have hcall := hu.callThen answer value _ _ hfulfil hreject (w.noted .handed)
    (by simp [World.noted])
  rw [notedRealm_callThen_exec] at hexec
  rw [hexec] at hcall
  exact ⟨outside_settling hcall (settling_noted hw rfl (.inr hret)),
    hcall.grows.reads.trans (thenReads_noted w nofun)⟩

theorem thenReads_reading (w : World (Noted υ)) :
    thenReads (w.noted (.reading "then")) = thenReads w + 1 := by
  show (w.user.log ++ [Note.reading "then"]).count _ = _
  rw [List.count_append]
  rfl

/-- **The probe keeps the invariant**, and reads `then` at most once. -/
theorem probe_settling (hu : UserCode conversionError ackId realm handler)
    (hw : Settling conversionError ackId w) (hret : .returned value ∈ w.user.log)
    (hnone : thenReads w = 0) {r : Except JsVal Unit}
    (hexec : (probe (notedRealm realm) (notedComplete conversionError) ackId value).exec w =
      (r, w')) : Settling conversionError ackId w' ∧ thenReads w' ≤ 1 := by
  unfold probe at hexec
  rw [readThen_eq, Throwing.exec_bind] at hexec
  by_cases hp : Probed value
  · rw [if_pos hp, notedRealm_get_exec] at hexec
    have hread : Settling conversionError ackId (w.noted (.reading "then")) :=
      settling_noted hw rfl (.inl nofun)
    have hget' := hu.reads.get value "then" (w.noted (.reading "then"))
    rcases hget : (realm.get value "then").exec (w.noted (.reading "then")) with ⟨e | answer, w₁⟩
    · -- the getter throws
      rw [hget] at hget' hexec
      obtain ⟨-, rfl⟩ := Prod.mk.inj hexec
      refine ⟨outside_settling hget' hread, Nat.le_of_eq ?_⟩
      exact hget'.grows.reads.trans ((thenReads_reading w).trans (by rw [hnone]))
    · rw [hget] at hget' hexec
      change Outside conversionError ackId _ w₁ at hget'
      have hanswered : Settling conversionError ackId (w₁.noted (.answered "then" answer)) :=
        settling_noted (outside_settling hget' hread) rfl (.inl nofun)
      have hreturned : .returned value ∈ (w₁.noted (.answered "then" answer)).user.log :=
        List.mem_append_left _ (hget'.grows.log.subset (List.mem_append_left _ hret))
      have hone : thenReads (w₁.noted (.answered "then" answer)) = 1 := by
        rw [thenReads_noted w₁ (n := .answered "then" answer) nofun]
        exact hget'.grows.reads.trans ((thenReads_reading w).trans (by rw [hnone]))
      by_cases hf : typeOf answer = .function
      · simp only [if_pos hf] at hexec
        obtain ⟨hsettling, hreads⟩ := callThen_settling hu hanswered ⟨value, hreturned⟩ hexec
        exact ⟨hsettling, Nat.le_of_eq (hreads.trans hone)⟩
      · simp only [if_neg hf, complete_noted] at hexec
        obtain ⟨-, rfl⟩ := Prod.mk.inj hexec
        refine ⟨settling_completion hanswered fun _ => Or.inr ⟨value, hreturned,
          Or.inr (Or.inl ⟨answer, by simp [World.noted], hf⟩)⟩, ?_⟩
        rw [thenReads_completion, hone]
  · rw [if_neg hp] at hexec
    simp only [Throwing.exec_pure, typeOf, reduceCtorEq, if_false, complete_noted] at hexec
    obtain ⟨-, rfl⟩ := Prod.mk.inj hexec
    refine ⟨settling_completion hw fun _ => Or.inr ⟨value, hret, Or.inl hp⟩, ?_⟩
    rw [thenReads_completion, hnone]
    exact Nat.zero_le 1

theorem notedHandler_exec (m : TrueSealMessage) (w : World (Noted υ)) :
    (notedHandler handler m).exec w = match (handler m).exec w with
      | (.ok value, w') => (.ok value, w'.noted (.returned value))
      | (.error e, w') => (.error e, w') := by
  unfold notedHandler
  rw [Throwing.exec_bind]
  rcases (handler m).exec w with ⟨e | value, w'⟩ <;> rfl

/-- **The dispatcher keeps the invariant**, from a world in which the delivery has no log yet. -/
theorem dispatcher_settling (delivery : MessageDelivery)
    (hu : UserCode conversionError delivery.ackId realm handler) (hlog : w.user.log = [])
    (hw : Settling conversionError delivery.ackId w) {r : Except JsVal Unit}
    (hexec : (messageDispatcher (notedRealm realm) (notedComplete conversionError)
      (notedHandler handler) delivery).exec w = (r, w')) :
    Settling conversionError delivery.ackId w' ∧ thenReads w' ≤ 1 := by
  have hrun := hu.handler (handlerArgument delivery) w
  rw [messageDispatcher_exec, notedHandler_exec] at hexec
  rcases hhandler : (handler (handlerArgument delivery)).exec w with ⟨e | value, w₁⟩
  · rw [hhandler] at hrun hexec
    change Outside conversionError delivery.ackId w w₁ at hrun
    have hnone : thenReads w₁ = 0 := hrun.grows.reads.trans (by rw [hlog]; rfl)
    obtain ⟨w₂, hdescribed, hrejected⟩ := onRejected_described hu.reads e w₁
    obtain ⟨-, rfl⟩ := Prod.mk.inj (hrejected.symm.trans hexec)
    obtain ⟨hsettling, hreads⟩ := hdescribed.settling (outside_settling hrun hw)
    exact ⟨hsettling, by omega⟩
  · rw [hhandler] at hrun hexec
    change Outside conversionError delivery.ackId w w₁ at hrun
    have hreturned : Settling conversionError delivery.ackId (w₁.noted (.returned value)) :=
      settling_noted (outside_settling hrun hw) rfl (.inl nofun)
    have hnone : thenReads (w₁.noted (.returned value)) = 0 := by
      rw [thenReads_noted w₁ (n := .returned value) nofun]
      exact hrun.grows.reads.trans (by rw [hlog]; rfl)
    have hsettle : settle (notedRealm realm) (notedComplete conversionError) delivery.ackId value =
        tryCatch (probe (notedRealm realm) (notedComplete conversionError) delivery.ackId value)
          (onRejected (notedRealm realm) (notedComplete conversionError) delivery.ackId) := rfl
    simp only [hsettle, Throwing.exec_tryCatch] at hexec
    rcases hprobe : (probe (notedRealm realm) (notedComplete conversionError) delivery.ackId
      value).exec (w₁.noted (.returned value)) with ⟨e | u, w₂⟩
    · obtain ⟨hprobed, hreads⟩ := probe_settling hu hreturned (by simp [World.noted]) hnone hprobe
      obtain ⟨w₃, hdescribed, hrejected⟩ := onRejected_described hu.reads e w₂
      rw [hprobe] at hexec
      obtain ⟨-, rfl⟩ := Prod.mk.inj (hrejected.symm.trans hexec)
      obtain ⟨hsettling, hsame⟩ := hdescribed.settling hprobed
      exact ⟨hsettling, by omega⟩
    · rw [hprobe] at hexec
      obtain ⟨-, rfl⟩ := Prod.mk.inj hexec
      exact probe_settling hu hreturned (by simp [World.noted]) hnone hprobe

/-! ## 6. The result -/

/-- **The delivery is settled at most once, and not early.** -/
structure SettledOnce (conversionError : JsVal) (ackId : Binary64) (w : World (Noted υ)) :
    Prop where
  /-- a success is sent when it is due, unless an Error was described whose `message` read as it -/
  due : ∀ error, Success error → .answered "message" error ∉ w.user.log →
    ∀ pre took post, w.user.log = pre ++ .sent error took :: post → Due pre
  /-- `then` is read at most once -/
  reads : w.user.log.count (.reading "then") ≤ 1
  /-- the first completion that takes the sender is the only one, and what it carried stays in the
      oneshot, as long as no ack id was issued twice -/
  first : w.user.deliveries ≤ u64Size → ∀ pre error i post,
    w.user.log = pre ++ .sent error (some i) :: post →
    (∀ error' j, .sent error' (some j) ∉ pre ++ post) ∧
      ∃ e, napiOptionString conversionError error = .ok e ∧
        w.native.cells i = .sent (Native.outcome e)

/-- **No early and no second settlement**, for any handler, any thenable and any calls of its
    callbacks, while the dispatcher runs or at any later time: `w₀` is the world in which the
    dispatcher is started on the delivery, and `w` any world after it returned. A completion that
    takes no sender has no effect. -/
theorem settled_once {w₀ : World (Noted υ)} {delivery : MessageDelivery}
    (hu : UserCode conversionError delivery.ackId realm handler) {tr : List Native.Action}
    (hrun : Native.machine.Run tr w₀.native) (hd : w₀.user.deliveries = Native.deliveries tr)
    (hlog : w₀.user.log = [])
    (h : Outside conversionError delivery.ackId ((messageDispatcher (notedRealm realm)
      (notedComplete conversionError) (notedHandler handler) delivery).exec w₀).2 w) :
    SettledOnce conversionError delivery.ackId w ∧
      ∀ error (w' : World (Noted υ)), taken conversionError delivery.ackId w'.native error = none →
        ((complete (notedComplete conversionError) delivery.ackId error).exec w').2 =
          w'.noted (.sent error none) := by
  have hstart : Settling conversionError delivery.ackId w₀ := by
    refine ⟨?_, ?_, fun hle => ⟨?_, ?_, ?_⟩⟩
    · intro pre error took post he
      rw [hlog] at he
      simp at he
    · intro hh
      rw [hlog] at hh
      cases hh
    · rw [hd] at hle ⊢
      exact Native.inv_run hrun hle
    · rw [hlog]
      exact Nat.zero_le 1
    · intro error i hm
      rw [hlog] at hm
      cases hm
  obtain ⟨hdone, hreads⟩ := dispatcher_settling delivery hu hlog hstart rfl
  have hw := outside_settling h hdone
  refine ⟨⟨?_, ?_, ?_⟩, fun error w' hnone => ?_⟩
  · intro error hs hno pre took post he
    refine (hw.reasoned pre error took post he hs).resolve_left fun hm => hno ?_
    rw [he]
    exact List.mem_append_left _ hm
  · exact Nat.le_trans (Nat.le_of_eq h.grows.reads) hreads
  · intro hle pre error i post he
    obtain ⟨-, honce, hspent⟩ := hw.spentBy hle
    refine ⟨fun error' j hm => ?_, ?_⟩
    · have hcount : w.user.log.countP Note.took = (pre ++ post).countP Note.took + 1 := by
        rw [he, List.countP_append, List.countP_cons, List.countP_append]
        simp [Note.took]
        omega
      have hpos : 0 < (pre ++ post).countP Note.took := List.countP_pos_iff.mpr ⟨_, hm, rfl⟩
      omega
    · obtain ⟨e, hn, hsp⟩ := hspent error i (by rw [he]; simp)
      exact ⟨e, hn, hsp.filled⟩
  · rw [complete_noted]
    exact completion_of_not_taken conversionError delivery.ackId hnone

end Running

/-! ## 7. A chatty thenable, and an Error without a `message` -/

/-- Every object has a function as its `then`, which fulfils, rejects and then throws. -/
def chattyRealm : Realm (World (Noted Unit)) where
  instanceofError _ := pure false
  get _ _ := pure (.function 1)
  toString _ := pure "late"
  callThen _ _ onFulfilled onRejected := do
    onFulfilled
    onRejected (.object 0)
    throw (.string "late")

theorem chattyRealm_userCode (conversionError : JsVal) (ackId : Binary64) :
    UserCode conversionError ackId chattyRealm (fun _ => pure (.object 0)) where
  reads := ⟨fun _ w => .refl w, fun _ _ w => .refl w, fun _ w => .refl w⟩
  handler _ w := .refl w
  callThen then_ value f g hf hg w hh := by
    have hcall : (chattyRealm.callThen then_ value f g).exec w =
        (f >>= fun _ => g (.object 0) >>= fun _ => throw (.string "late")).exec w := rfl
    have h₁ := hf w hh
    rw [hcall, Throwing.exec_bind]
    rcases hf' : f.exec w with ⟨e | u, w₁⟩
    · rw [hf'] at h₁
      exact h₁
    rw [hf'] at h₁
    have h₂ := hg (.object 0) w₁ (h₁.grows.handed hh)
    simp only [Throwing.exec_bind]
    rcases hg' : (g (.object 0)).exec w₁ with ⟨e | u, w₂⟩ <;> rw [hg'] at h₂ <;> exact h₁.trans h₂

/-- The first delivery of a session, to a handler that returns such a thenable. -/
def chattyDelivery : MessageDelivery := ⟨"m1", "a", "Ada", [0x68, 0x69], Binary64.ofU64 0⟩

theorem settled_once_chatty : ∃ w₀ : World (Noted Unit),
    SettledOnce .null chattyDelivery.ackId ((messageDispatcher (notedRealm chattyRealm)
      (notedComplete .null) (notedHandler fun _ => pure (.object 0)) chattyDelivery).exec w₀).2 := by
  obtain ⟨s, hs, -⟩ := exists_delivered
  exact ⟨⟨s, [], Native.deliveries deliveredRun, ()⟩,
    (settled_once (chattyRealm_userCode .null chattyDelivery.ackId) hs rfl rfl (.refl _)).1⟩

/-- Every value is an Error, and every property of it is `null`. -/
def silentRealm : Realm (World (Noted Unit)) where
  instanceofError _ := pure true
  get _ _ := pure .null
  toString _ := pure "late"
  callThen _ _ _ _ := pure ()

/-- **A handler that throws an Error whose `message` is `null` has its delivery completed without
    error**: nothing was returned, and no thenable fulfilled. -/
theorem null_message_settles_early :
    ¬ ∀ (realm : Realm (World (Noted Unit))) (handler : TrueSealMessage → Js (World (Noted Unit)) JsVal)
      (conversionError : JsVal) (delivery : MessageDelivery) (tr : List Native.Action)
      (w₀ w : World (Noted Unit)), UserCode conversionError delivery.ackId realm handler →
      Native.machine.Run tr w₀.native → w₀.user.deliveries = Native.deliveries tr →
      w₀.user.log = [] →
      Outside conversionError delivery.ackId ((messageDispatcher (notedRealm realm)
        (notedComplete conversionError) (notedHandler handler) delivery).exec w₀).2 w →
      ∀ error pre took post, Success error → w.user.log = pre ++ .sent error took :: post →
        Due pre := by
  intro hall
  obtain ⟨s, hs, -⟩ := exists_delivered
  have hu : UserCode .null chattyDelivery.ackId silentRealm (fun _ => throw (.object 0)) :=
    ⟨⟨fun _ w => .refl w, fun _ _ w => .refl w, fun _ w => .refl w⟩, fun _ w => .refl w,
      fun _ _ _ _ _ _ w _ => .refl w⟩
  obtain ⟨value, hreturned, -⟩ := hall silentRealm (fun _ => throw (.object 0)) .null chattyDelivery
    deliveredRun ⟨s, [], Native.deliveries deliveredRun, ()⟩ _ hu hs rfl rfl (.refl _) .null
    [.reading "message", .answered "message" .null] _ [] (Or.inr rfl) rfl
  simp at hreturned

end TrueSealSync.Sdk
