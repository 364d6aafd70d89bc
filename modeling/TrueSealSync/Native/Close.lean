/-
  File:      TrueSealSync/Native/Close.lean
  Subject:   WHAT `close()` LEAVES: after its critical section nothing is parked, and which
             invocations still return an error.

  * `shut_step`, `shut_exec` -- once `closed` is set the map is empty and stays empty;
  * `nothing_parked` -- every sender is used or about to be used, and an invocation that comes to
    the closed check later returns `Ok(())` there;
  * `close_fails_no_delivery` -- an invocation in flight when the critical section runs returns
    `Ok(())` or the error its handler reported before, as long as no `tsfn.call` in flight is
    refused;
  * `refused_returns_error`, `refused_breaks_close` -- a refused call returns its own error whatever
    the drain sent, since the dispatch branch does not look into the oneshot: so each invocation that
    the condition leaves out breaks the result when it returns.
-/
import TrueSealSync.Native.Acknowledgement

namespace TrueSealSync.Native

open TrueSealSync.Lib

/-! ## 1. A shut session stays shut -/

/-- The critical section of a `close()` has run. -/
structure State.Shut (s : State) : Prop where
  closed : s.pending.closed = true
  empty : s.pending.senders = ∅

section Shut

variable {s s' : State} {tr : List Action} {i : Nat}

theorem shut_step {a : Action} (h : s.Shut) (hs : Step s a s') : s'.Shut := by
  cases hs with
  | insert i n message hp hc => rw [h.closed] at hc; cases hc
  | finish i n r hp => exact ⟨h.closed, erase_of_empty h.empty n⟩
  | take c x e j hp hl => exact ⟨h.closed, erase_of_empty h.empty x.toU64⟩
  | closeDrain k hp => exact ⟨rfl, rfl⟩
  | _ => exact ⟨h.closed, h.empty⟩

theorem shut_exec (h : s.Shut) (hex : machine.exec s tr = some s') : s'.Shut :=
  machine.exec_stable (P := State.Shut) (fun _ _ _ h hs => shut_step h (step_cases hs)) hex h

/-- A run that took the critical section of a `close()` ends in a shut session. -/
theorem shut_of_closeDrain {k : Nat} (h : machine.Run tr s) (hk : .closeDrain k ∈ tr) :
    s.Shut := by
  obtain ⟨s₀, hf⟩ := h.fires_of_mem hk
  obtain ⟨s₁, post, hst, hex⟩ := h.after_fires hf
  refine shut_exec ?_ hex
  cases step_cases hst with
  | closeDrain _ hp => exact ⟨rfl, rfl⟩

/-- `i` waits before the closed check, or was turned away there. -/
def State.turnedAway (s : State) (i : Nat) : Prop :=
  (s.onMessage i).early = true ∨ ∃ n, s.onMessage i = .returned n (.ok ())

/-- In a shut session an invocation that has not passed the closed check does not pass it, and
    does not call the threadsafe function. -/
theorem turnedAway_step {a : Action} (h : s.Shut) (hi : s.turnedAway i) (hs : Step s a s') :
    s'.turnedAway i ∧ ∀ status, a ≠ .call i status := by
  constructor
  · rcases move_step hs i with he | hm
    · rwa [State.turnedAway, he]
    · rw [h.closed] at hm
      unfold State.turnedAway at hi ⊢
      generalize s.onMessage i = p at hm hi
      generalize s'.onMessage i = q at hm ⊢
      cases hm with
      | fetchAdd n message => exact Or.inl rfl
      | abandon n message hc => exact Or.inr ⟨n, rfl⟩
      | _ => simp_all [OnMessage.early]
  · intro status he
    subst he
    cases hs with
    | dispatch _ n message hp => simp [State.turnedAway, hp, OnMessage.early] at hi
    | refuse _ n message debug hp => simp [State.turnedAway, hp, OnMessage.early] at hi

theorem turnedAway_exec (h : s.Shut) (hi : s.turnedAway i) (hex : machine.exec s tr = some s') :
    s'.turnedAway i ∧ ∀ status, .call i status ∉ tr := by
  induction tr generalizing s with
  | nil =>
      cases hex
      exact ⟨hi, fun _ => List.not_mem_nil⟩
  | cons a tr ih =>
      obtain ⟨t, hst, hex⟩ := Option.bind_eq_some_iff.mp hex
      obtain ⟨ht, ha⟩ := turnedAway_step h hi (step_cases hst)
      obtain ⟨hs', htr⟩ := ih (shut_step h (step_cases hst)) ht hex
      refine ⟨hs', fun status hm => ?_⟩
      rcases List.mem_cons.mp hm with he | hm
      · exact ha status he.symm
      · exact htr status hm

/-- The closed check of a shut session: return `Ok(())`, the map and the queue untouched. -/
theorem check_shut {n : Nat} {message : TrueSealMessage} (h : s.Shut)
    (hp : s.onMessage i = .fetched n message) :
    ∃ s', machine.step s (.insert i) = some s' ∧ s'.onMessage i = .returned n (.ok ()) ∧
      s'.pending = s.pending ∧ s'.queue = s.queue :=
  ⟨s.abandon i n, (Step.abandon i n message hp h.closed).taken, by simp, rfl, rfl⟩

/-- An invocation that goes through the closed check of a shut session has returned `Ok(())`. -/
theorem returned_of_check (h : s.Shut) (hex : machine.exec s tr = some s') (hi : .insert i ∈ tr) :
    ∃ n, s'.onMessage i = .returned n (.ok ()) := by
  obtain ⟨pre, post, rfl⟩ := List.append_of_mem hi
  obtain ⟨t, hpre, hpost⟩ := machine.exec_append_some.mp hex
  obtain ⟨t', hst, hpost⟩ := Option.bind_eq_some_iff.mp hpost
  cases step_cases hst with
  | abandon _ n message hp hc => exact ⟨n, returned_stable hpost (by simp)⟩
  | insert _ n message hp hc =>
      rw [(shut_exec h hpre).closed] at hc
      cases hc

end Shut

/-! ## 2. Nothing stays parked -/

/-- What holds of a state in which the critical section of some `close()` has run. -/
structure State.NothingParked (s : State) : Prop where
  /-- the map is empty -/
  empty : s.pending.senders = ∅
  /-- it stays empty in every later state -/
  emptyLater : ∀ tr s', machine.exec s tr = some s' → s'.pending.senders = ∅
  /-- whoever has inserted and not returned has a value in its oneshot, or a `complete_message`
      call is about to send one -/
  answered : ∀ i n, (s.onMessage i).slot = some n →
    (∃ r, s.cells i = .sent r) ∨ ∃ c x e, s.complete c = .sending x e i
  /-- the closed check answers `Ok(())`, inserts nothing and calls nothing -/
  check : ∀ i n message, s.onMessage i = .fetched n message → ∃ s',
    machine.step s (.insert i) = some s' ∧ s'.onMessage i = .returned n (.ok ()) ∧
      s'.pending = s.pending ∧ s'.queue = s.queue
  /-- whoever comes to the check later returns `Ok(())` there, and never calls the threadsafe
      function -/
  late : ∀ i tr s', (s.onMessage i).early = true → machine.exec s tr = some s' →
    ((s'.onMessage i).early = true ∨ ∃ n, s'.onMessage i = .returned n (.ok ())) ∧
      (.insert i ∈ tr → ∃ n, s'.onMessage i = .returned n (.ok ())) ∧
      ∀ status, .call i status ∉ tr

/-- **Nothing stays parked after `close()`.** -/
theorem nothing_parked {tr : List Action} {s : State} {k : Nat} (h : machine.Run tr s)
    (hd : deliveries tr < 2 ^ 53) (hk : .closeDrain k ∈ tr) : s.NothingParked := by
  have hshut := shut_of_closeDrain h hk
  have hI := inv_run h (by unfold u64Size; omega)
  refine ⟨hshut.empty, fun tr' s' hex => (shut_exec hshut hex).empty, fun i n hi => ?_,
    fun i n message hp => check_shut hshut hp, fun i tr' s' hi hex => ?_⟩
  · rcases hI.placed i n hi with hl | hc | hr
    · rw [hshut.empty, AList.lookup_empty] at hl
      cases hl
    · exact Or.inr hc
    · exact Or.inl hr
  · obtain ⟨hs', hcall⟩ := turnedAway_exec hshut (Or.inl hi) hex
    exact ⟨hs', returned_of_check hshut hex, hcall⟩

/-- A delivery whose sender `close()` drains, and one that has not inserted yet. -/
def closedRun : List Action :=
  [.fetchAdd 0 sampleMessage, .insert 0, .fetchAdd 1 sampleMessage, .innerClose 0, .closeDrain 0]

theorem nothing_parked_closedRun : ∃ s, machine.Run closedRun s ∧ s.NothingParked := by
  obtain ⟨s, hs, -⟩ := machine.exists_run closedRun (fun _ => true) (by decide)
  exact ⟨s, hs, nothing_parked (k := 0) hs (by decide) (by decide)⟩

/-! ## 3. Who still returns an error -/

/-- At the end of the run `pre`, `i` has returned. -/
def ReturnedBy (pre : List Action) (i : Nat) : Prop :=
  ∃ t n r, machine.Run pre t ∧ t.onMessage i = .returned n r

section Errors

variable {pre post : List Action} {k : Nat} {s : State} {i n : Nat}

/-- After the critical section no `complete_message` call finds a sender. -/
theorem Took.before_close {c : Nat} {x : Binary64} {e : Option String}
    (h : Took (pre ++ .closeDrain k :: post) i c x e) : Took pre i c x e := by
  obtain ⟨s₀, hf, hl⟩ := h
  rcases hf.append_cases with hf | ⟨a, b, he, hr⟩
  · exact ⟨s₀, hf, hl⟩
  · cases a with
    | nil => cases he
    | cons a₀ a =>
        obtain ⟨rfl, -⟩ := List.cons.inj he
        rw [(shut_of_closeDrain hr (k := k) (by simp)).empty, AList.lookup_empty] at hl
        cases hl

/-- **A refused `tsfn.call` is returned as an error**, whatever `complete_message` and `close()`
    have sent into the oneshot. -/
theorem refused_returns_error {tr : List Action} {debug : String} {r : Except HandlerError Unit}
    (h : machine.Run tr s) (hc : .call i (.other debug) ∈ tr)
    (hr : s.onMessage i = .returned n r) : r = .error (.failed (dispatchFailed debug)) := by
  obtain ⟨s₀, hf⟩ := h.fires_of_mem hc
  obtain ⟨s₁, post, hst, hex⟩ := h.after_fires hf
  cases step_cases hst with
  | refuse _ m message _ hp =>
      rcases settled_stable hex (i := i) (n := m) (by simp; rfl) with hs | hs
      · rw [hr] at hs
        cases hs
      · rw [hr] at hs
        cases hs
        rfl

/-- The error of an invocation whose calls were all accepted is the one its handler reported. -/
theorem returned_error_origin {tr : List Action} {e : HandlerError} (h : Returned tr i (.error e)) :
    (∃ c x msg, Took tr i c x (some msg)) ∨ ∃ debug, Called tr i (.other debug) := by
  generalize hr : (.error e : Except HandlerError Unit) = r' at h
  cases h with
  | abandoned h => cases hr
  | decided r h =>
      cases h with
      | refused debug h => exact Or.inr ⟨debug, h⟩
      | answered _ hc h =>
          cases h with
          | drained h => cases hr
          | completed c x e' h =>
              cases e' with
              | none => cases hr
              | some msg => exact Or.inl ⟨c, x, msg, h⟩

/-- **`close()` turns no accepted delivery into a failed attempt.** Take the critical section of
    any `close()` of a run, and suppose that every invocation whose `tsfn.call` answers another
    status than `Ok` (at any time of the run) has returned by then or had its sender taken by a
    completion with an error. Then an invocation that returns later returns `Ok(())`, or a
    `complete_message` call with an error and its ack id had taken its sender before the critical
    section. -/
theorem close_fails_no_delivery (h : machine.Run (pre ++ .closeDrain k :: post) s)
    (hd : deliveries (pre ++ .closeDrain k :: post) < 2 ^ 53)
    (hcall : ∀ j debug, .call j (.other debug) ∈ pre ++ .closeDrain k :: post →
      ReturnedBy pre j ∨ ∃ c x msg, Took pre j c x (some msg))
    {r : Except HandlerError Unit} (hi : ¬ ReturnedBy pre i) (hr : s.onMessage i = .returned n r) :
    r = .ok () ∨ ∃ c x msg, Took pre i c x (some msg) ∧ x.toU64 = n ∧
      ∀ m : Nat, x.value = some (m : ℚ) → m = n := by
  have hn : (s.onMessage i).drawn = some n := by rw [hr]; rfl
  -- a completion that took the sender before the critical section names the ack id of `i`
  have hexact : ∀ c x msg, Took pre i c x (some msg) → ∃ c x msg, Took pre i c x (some msg) ∧
      x.toU64 = n ∧ ∀ m : Nat, x.value = some (m : ℚ) → m = n := fun c x msg htook =>
    ⟨c, x, msg, htook, (htook.mono _).exactId h hd hn⟩
  cases r with
  | ok => exact Or.inl rfl
  | error e =>
      right
      have horigin : Returned (pre ++ .closeDrain k :: post) i (.error e) := by
        have := (origin_run h (by unfold u64Size; omega)).result i
        rw [hr] at this
        exact this
      rcases returned_error_origin horigin with ⟨c, x, msg, htook⟩ | ⟨debug, s₀, hf⟩
      · exact hexact c x msg htook.before_close
      · rcases hcall i debug hf.mem with hret | ⟨c, x, msg, htook⟩
        · exact absurd hret hi
        · exact hexact c x msg htook

/-- **The partial converse**: an invocation whose `tsfn.call` is refused, and which by the critical
    section has not lost its sender to a completion with an error, breaks this when it returns: it
    returns an error that no `complete_message` call has reported. -/
theorem refused_breaks_close {debug : String} {r : Except HandlerError Unit}
    (h : machine.Run (pre ++ .closeDrain k :: post) s)
    (hc : .call i (.other debug) ∈ pre ++ .closeDrain k :: post)
    (hno : ∀ c x msg, ¬ Took pre i c x (some msg)) (hr : s.onMessage i = .returned n r) :
    ¬ (r = .ok () ∨ ∃ c x msg, Took pre i c x (some msg) ∧ x.toU64 = n) := by
  rw [refused_returns_error h hc hr]
  rintro (hok | ⟨c, x, msg, htook, -⟩)
  · cases hok
  · exact hno c x msg htook

end Errors

/-- A delivery that has inserted its sender when `close()` runs. -/
def insertedRun : List Action := [.fetchAdd 0 sampleMessage, .insert 0, .innerClose 0]

theorem not_returnedBy_insertedRun : ¬ ReturnedBy insertedRun 0 := by
  intro ⟨t, n, r, ht, hr⟩
  obtain ⟨s, hs, hp⟩ := machine.exists_run insertedRun
    (fun s => s.onMessage 0 = .inserted 0 sampleMessage) (by decide)
  rw [ht.unique hs, of_decide_eq_true hp] at hr
  cases hr

/-- Its `tsfn.call` answers `Ok`: it returns what the drain sent. -/
theorem close_fails_no_delivery_accepted :
    ∃ s, machine.Run (insertedRun ++ .closeDrain 0 :: [.call 0 .ok, .recv 0, .remove 0]) s ∧
      ∃ r, s.onMessage 0 = .returned 0 r ∧
        (r = .ok () ∨ ∃ c x msg, Took insertedRun 0 c x (some msg) ∧ x.toU64 = 0 ∧
          ∀ m : Nat, x.value = some (m : ℚ) → m = 0) := by
  obtain ⟨s, hs, hp⟩ := machine.exists_run
    (insertedRun ++ .closeDrain 0 :: [.call 0 .ok, .recv 0, .remove 0])
    (fun s => s.onMessage 0 = .returned 0 (.ok ())) (by decide)
  exact ⟨s, hs, _, of_decide_eq_true hp, close_fails_no_delivery hs (by decide)
    (fun j debug hm => by simp [insertedRun] at hm) not_returnedBy_insertedRun
    (of_decide_eq_true hp)⟩

/-- **A delivery in flight at `close()` whose `tsfn.call` is refused becomes a failed attempt**:
    no `complete_message` call was ever made. -/
theorem refused_after_close_fails :
    ¬ ∀ (pre post : List Action) (k : Nat) (s : State) (i n : Nat) (e : HandlerError),
      machine.Run (pre ++ .closeDrain k :: post) s →
      deliveries (pre ++ .closeDrain k :: post) < 2 ^ 53 → ¬ ReturnedBy pre i →
      s.onMessage i = .returned n (.error e) →
      ∃ c x msg, Took pre i c x (some msg) ∧ x.toU64 = n := by
  intro hall
  obtain ⟨s, hs, hp⟩ := machine.exists_run
    (insertedRun ++ .closeDrain 0 :: [.call 0 (.other "Closing"), .remove 0])
    (fun s => s.onMessage 0 =
      .returned 0 (.error (.failed "tsfn dispatch failed: Closing"))) (by decide)
  obtain ⟨c, x, msg, ⟨s₀, hf, -⟩, -⟩ := hall _ _ _ s 0 0 _ hs (by decide)
    not_returnedBy_insertedRun (of_decide_eq_true hp)
  have hm := hf.mem
  simp [insertedRun] at hm

end TrueSealSync.Native
