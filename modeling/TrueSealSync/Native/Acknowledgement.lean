/-
  File:      TrueSealSync/Native/Acknowledgement.lean
  Subject:   NO FALSE ACKNOWLEDGEMENT: an invocation of `on_message` that returned `Ok(())` was
             completed without error under its own ack id, or the session had been closed while
             its result was still open.

  `State.resultOpen` says when a result is not fixed: before the closed check, and after it as
  long as the sender is in the map and no result is computed. The two other ways to `Ok(())` (the
  drain and the closed check) both start in such a state, after `inner.close()` returned: this is
  the order of the two statements of `close()`.

  The id of a completion is the number JavaScript passes, cast to `u64`. A number that is no ack
  id can be cast to one: `-1` completes delivery 0 (`acknowledged_by_minus_one`), against the
  documentation of `complete_message`, which ignores unknown ids. Where no number passed is such
  an alias (`NoAliasPassed`), the completion had exactly the ack id.
-/
import TrueSealSync.Native.Origin

namespace TrueSealSync.Native

open TrueSealSync.Lib

/-! ## 1. Open results -/

/-- The result of `i` is not fixed: `i` has not reached the closed check, or its sender is in the
    map and no result is computed. -/
def State.resultOpen (s : State) (i : Nat) : Bool :=
  (s.onMessage i).early || ((s.onMessage i).undecided && decide (i ∈ s.pending.waiting))

section Ends

variable {tr : List Action} {s : State} {i n : Nat}

/-- The drain finds open results only after `inner.close()` has returned. -/
theorem Drained.closed_while_open (hd : deliveries tr ≤ u64Size) (h : machine.Run tr s)
    (hdr : Drained tr i) :
    ∃ s₀, machine.Passes tr s₀ ∧ s₀.innerClosed = true ∧ s₀.resultOpen i = true := by
  obtain ⟨s₀, k, hf, hw, hu⟩ := hdr
  obtain ⟨d, hI⟩ := inv_passes hd hf.passes
  obtain ⟨s', _, hst, _⟩ := h.after_fires hf
  refine ⟨s₀, hf.passes, ?_, by simp [State.resultOpen, hw, hu]⟩
  cases step_cases hst with
  | closeDrain _ hp => exact hI.closing k (by rw [hp]; nofun)

/-- So does the closed check. -/
theorem Abandoned.closed_while_open (hd : deliveries tr ≤ u64Size) (h : machine.Run tr s)
    (ha : Abandoned tr i) :
    ∃ s₀, machine.Passes tr s₀ ∧ s₀.innerClosed = true ∧ s₀.resultOpen i = true := by
  obtain ⟨s₀, hf, hc⟩ := ha
  obtain ⟨d, hI⟩ := inv_passes hd hf.passes
  obtain ⟨s', _, hst, _⟩ := h.after_fires hf
  refine ⟨s₀, hf.passes, (hI.closed hc).1, ?_⟩
  have hearly : (s₀.onMessage i).early = true := by
    cases step_cases hst with
    | abandon _ n message hp => rw [hp]; rfl
    | insert _ n message hp => rw [hp]; rfl
  simp [State.resultOpen, hearly]

theorem handlerResult_ok {r : AckResult} (h : handlerResult r = .ok ()) : r = .ok () := by
  cases r with
  | ok => rfl
  | error msg => cases h

theorem outcome_ok {e : Option String} (h : outcome e = .ok ()) : e = none := by
  cases e with
  | none => rfl
  | some msg => cases h

/-- The three ways to `Ok(())`. -/
theorem returned_ok_origin (h : Returned tr i (.ok ())) :
    (∃ c x, Took tr i c x none) ∨ Drained tr i ∨ Abandoned tr i := by
  generalize hr : (.ok () : Except HandlerError Unit) = r' at h
  cases h with
  | abandoned h => exact Or.inr (Or.inr h)
  | decided r h =>
      obtain rfl := handlerResult_ok hr.symm
      generalize hok : (.ok () : AckResult) = r at h
      cases h with
      | answered _ hc h =>
          subst hok
          generalize hok : (.ok () : AckResult) = r at h
          cases h with
          | completed c x e h => exact Or.inl ⟨c, x, outcome_ok hok.symm ▸ h⟩
          | drained h => exact Or.inr (Or.inl h)
      | refused debug h => cases hok

/-! ## 2. The result -/

/-- No number passed without error is an alias of an ack id that is in the map at the call. -/
def NoAliasPassed (tr : List Action) : Prop :=
  ∀ s₀ c x, machine.Fires tr s₀ (.completeRemove c x none) →
    ∀ k ∈ s₀.pending.senders, ¬ x.Aliases k

/-- Then the call that took a sender had exactly its ack id as number. -/
theorem Took.exactNumber (h : machine.Run tr s) (hd : deliveries tr < 2 ^ 53) {c : Nat}
    {x : Binary64} (ht : Took tr i c x none) (hn : (s.onMessage i).drawn = some n)
    (hpassed : NoAliasPassed tr) : x.value = some (n : ℚ) := by
  have hcast := (ht.exactId h hd hn).1
  obtain ⟨s₀, hf, hl⟩ := ht
  have hvalue := (Binary64.value_or_aliases x).resolve_right
    (hpassed s₀ c x hf x.toU64 (mem_of_lookup hl))
  rw [hvalue, hcast]

/-- **No false acknowledgement.** An invocation that returned `Ok(())` had its sender taken by a
    `complete_message` call without error whose number is cast to its ack id, and is that id if it
    is a natural number; or the run went through a state in which `inner.close()` had returned and
    the result of the invocation was still open. Where no number passed is an alias of an ack id
    in the map, the number of the call is exactly the id. -/
theorem acknowledged_by_handler_or_close (h : machine.Run tr s) (hd : deliveries tr < 2 ^ 53)
    (hr : s.onMessage i = .returned n (.ok ())) :
    (∃ c x, Took tr i c x none ∧ x.toU64 = n ∧ (∀ m : Nat, x.value = some (m : ℚ) → m = n) ∧
        (NoAliasPassed tr → x.value = some (n : ℚ))) ∨
      ∃ s₀, machine.Passes tr s₀ ∧ s₀.innerClosed = true ∧ s₀.resultOpen i = true := by
  have hd' : deliveries tr ≤ u64Size := by unfold u64Size; omega
  have hn : (s.onMessage i).drawn = some n := by rw [hr]; rfl
  have horigin : Returned tr i (.ok ()) := by
    have := (origin_run h hd').result i
    rw [hr] at this
    exact this
  rcases returned_ok_origin horigin with ⟨c, x, ht⟩ | hdr | ha
  · obtain ⟨hx, hnat⟩ := ht.exactId h hd hn
    exact Or.inl ⟨c, x, ht, hx, hnat, ht.exactNumber h hd hn⟩
  · exact Or.inr (hdr.closed_while_open hd' h)
  · exact Or.inr (ha.closed_while_open hd' h)

end Ends

/-- A message for the runs on fixed inputs. -/
def sampleMessage : TrueSealMessage := ⟨"m-1", ⟨"a1", "Alice"⟩, [104, 105]⟩

/-- One delivery, completed by the call with the number `x` and the error `e`. -/
def completedRun (x : Binary64) (e : Option String) : List Action :=
  [.fetchAdd 0 sampleMessage, .insert 0, .call 0 .ok, .completeRemove 0 x e, .completeSend 0,
    .recv 0, .remove 0]

/-- The call with the number that was handed over has exactly the ack id. -/
theorem noAliasPassed_completedRun (n : Nat) (hn : n < 2 ^ 53) :
    NoAliasPassed (completedRun (Binary64.ofU64 n) none) := by
  intro s₀ c x hf k _ halias
  have hmem := hf.mem
  simp only [completedRun, List.mem_cons, Action.completeRemove.injEq, List.not_mem_nil,
    reduceCtorEq, false_or, or_false] at hmem
  obtain ⟨-, rfl, -⟩ := hmem
  have hk : n = k := (Binary64.toU64_ofU64 hn).symm.trans halias.toU64
  exact halias.value_ne (hk ▸ Binary64.value_ofU64 hn)

theorem acknowledged_by_handler_or_close_completed :
    (∃ c x, Took (completedRun (Binary64.ofU64 0) none) 0 c x none ∧
        x.value = some ((0 : Nat) : ℚ)) ∨
      ∃ s₀, machine.Passes (completedRun (Binary64.ofU64 0) none) s₀ ∧ s₀.innerClosed = true ∧
        s₀.resultOpen 0 = true := by
  obtain ⟨s, hs, hp⟩ := machine.exists_run (completedRun (Binary64.ofU64 0) none)
    (fun s => s.onMessage 0 = .returned 0 (.ok ())) (by decide +kernel)
  rcases acknowledged_by_handler_or_close hs (by decide) (of_decide_eq_true hp) with
    ⟨c, x, ht, -, -, hexact⟩ | hclosed
  · exact Or.inl ⟨c, x, ht, hexact (noAliasPassed_completedRun 0 (by decide))⟩
  · exact Or.inr hclosed

/-- `-1` as a binary64 value. -/
def minusOne : Binary64 := .fin true (2 ^ 52) (-52) (by decide)

/-- **A completion with the number `-1` acknowledges delivery 0**: the session is open, and no
    `complete_message` call has exactly the ack id 0. -/
theorem acknowledged_by_minus_one :
    ¬ ∀ (tr : List Action) (s : State) (i n : Nat), machine.Run tr s → deliveries tr < 2 ^ 53 →
      s.onMessage i = .returned n (.ok ()) →
      (∃ c x, Took tr i c x none ∧ x.value = some (n : ℚ)) ∨
        ∃ s₀, machine.Passes tr s₀ ∧ s₀.innerClosed = true ∧ s₀.resultOpen i = true := by
  intro hall
  obtain ⟨s, hs, hp⟩ := machine.exists_run (completedRun minusOne none)
    (fun s => s.onMessage 0 = .returned 0 (.ok ())) (by decide)
  rcases hall _ s 0 0 hs (by decide) (of_decide_eq_true hp) with
    ⟨c, x, ⟨s₀, hf, -⟩, hx⟩ | ⟨s₀, ⟨pre, post, htr, hr₀⟩, hc, -⟩
  · -- the one completion of the run carries `-1`
    have hm := hf.mem
    simp only [completedRun, List.mem_cons, Action.completeRemove.injEq, List.not_mem_nil,
      reduceCtorEq, false_or, or_false] at hm
    rw [hm.2.1] at hx
    norm_num [minusOne, Binary64.value] at hx
  · obtain ⟨k, hk⟩ := innerClose_of_innerClosed hr₀ hc
    have hmem : Action.innerClose k ∈ completedRun minusOne none :=
      htr ▸ List.mem_append_left post hk
    simp [completedRun] at hmem

end TrueSealSync.Native
