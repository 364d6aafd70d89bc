/-
  File:      TrueSealSync/Native/AckNumber.lean
  Subject:   THE NUMBER OF A COMPLETION: which slot `complete_message(x)` settles, for every `f64`,
             and which numbers JavaScript receives.

  The ack id is a `u64` that crosses the border twice, `ack_id as f64` to the handler and
  `ack_id as u64` back. `complete_message` is documented to ignore unknown ids; it looks up the
  cast of its number.

  * `settlesSlot_iff`, `ignores_iff` -- a call settles the slot under the cast of its number, and
    ignores a number whose cast is no key;
  * `identifies_iff` -- so the number identifies the slot unless it is an alias of a key: NaN, a
    number below 0 or a fraction, or one that no `u64` reaches (`Binary64.Aliases`);
  * `drawn_all` -- every id below the number of deliveries is drawn by some invocation;
  * `numbersDistinct_iff` -- so the numbers handed to JavaScript differ, and each comes back to
    its own delivery, up to `2^53 + 1` deliveries: the next id gets the number of the one before;
  * `nan_settles_delivery` -- `complete_message(NaN)` settles delivery 0.
-/
import TrueSealSync.Native.InFlight

namespace TrueSealSync.Native

open TrueSealSync.Lib

/-! ## 1. One call -/

/-- Call `c` removes the sender under `k` and sends its outcome to the invocation that made it;
    no other entry, cell or invocation changes. -/
def State.SettlesSlot (s : State) (c : Nat) (x : Binary64) (e : Option String) (k : Nat) : Prop :=
  ∃ i s' s'', s.pending.senders.lookup k = some i ∧
    machine.step s (.completeRemove c x e) = some s' ∧
    machine.step s' (.completeSend c) = some s'' ∧
    s'.pending = { s.pending with senders := s.pending.senders.erase k } ∧ s'.cells = s.cells ∧
    s''.pending = s'.pending ∧ s''.cells = Oneshot.send s.cells i (outcome e) ∧
    s'.onMessage = s.onMessage ∧ s''.onMessage = s.onMessage

/-- Call `c` finds nothing: only its own position changes, and it is done. -/
def State.Ignores (s : State) (c : Nat) (x : Binary64) (e : Option String) : Prop :=
  machine.step s (.completeRemove c x e) = some (s.setComplete c .done)

section Call

variable {s : State} {c k : Nat} {x : Binary64} {e : Option String}

/-- **A call settles the slot under the cast of its number**, and no other. -/
theorem settlesSlot_iff (hidle : s.complete c = .idle) :
    s.SettlesSlot c x e k ↔ k ∈ s.pending.senders ∧ x.toU64 = k := by
  constructor
  · intro ⟨i, s', s'', hl, h₁, h₂, hpend, _⟩
    refine ⟨mem_of_lookup hl, ?_⟩
    cases step_cases h₁ with
    | take _ _ _ j hp hl' =>
        -- the entry that is gone is the one under `k`
        by_contra hne
        have he : s.pending.senders.erase x.toU64 = s.pending.senders.erase k :=
          congrArg PendingAcks.senders hpend
        have hk := AList.lookup_erase_ne (s := s.pending.senders) (Ne.symm hne)
        rw [he, AList.lookup_erase, hl] at hk
        cases hk
    | miss _ _ _ hp hl' =>
        cases step_cases h₂ with
        | sendOutcome _ _ _ j hp' => simp at hp'
  · intro ⟨hk, hx⟩
    subst hx
    obtain ⟨i, hl⟩ := lookup_of_mem hk
    have h₁ := Step.take c x e i hidle hl
    have h₂ := Step.sendOutcome (s := s.take c x e i) c x e i (by simp)
    exact ⟨i, _, _, hl, h₁.taken, h₂.taken, rfl, rfl, rfl, rfl, rfl, rfl⟩

/-- **It ignores a number whose cast is no key**, and no other. -/
theorem ignores_iff (hidle : s.complete c = .idle) :
    s.Ignores c x e ↔ x.toU64 ∉ s.pending.senders := by
  constructor
  · intro h hx
    obtain ⟨i, hl⟩ := lookup_of_mem hx
    have hs := (Step.take c x e i hidle hl).taken.symm.trans h
    -- the sender taken would still have to be in the map
    have hl' := congrArg (fun t : State => t.pending.senders.lookup x.toU64) (Option.some.inj hs)
    have hgone : (s.pending.senders.erase x.toU64).lookup x.toU64 = some i := hl'.trans hl
    rw [AList.lookup_erase] at hgone
    cases hgone
  · intro hx
    exact (Step.miss c x e hidle (AList.lookup_eq_none.mpr hx)).taken

/-- **The number identifies the slot**: the call settles the slot of a key exactly where its
    number is that key, and ignores a number that is no key. -/
structure State.Identifies (s : State) (c : Nat) (x : Binary64) (e : Option String) : Prop where
  settles : ∀ k ∈ s.pending.senders, (s.SettlesSlot c x e k ↔ x.value = some (k : ℚ))
  ignores : (∀ k ∈ s.pending.senders, x.value ≠ some (k : ℚ)) → s.Ignores c x e

/-- **The number identifies the slot unless it is an alias of a key**, whatever the map holds. -/
theorem identifies_iff (hkeys : ∀ k ∈ s.pending.senders, k < u64Size)
    (hidle : s.complete c = .idle) :
    s.Identifies c x e ↔ ∀ k ∈ s.pending.senders, ¬ x.Aliases k := by
  constructor
  · intro h k hk ha
    have hs : s.SettlesSlot c x e k := (settlesSlot_iff hidle).mpr ⟨hk, ha.toU64⟩
    exact ha.value_ne ((h.settles k hk).mp hs)
  · intro hno
    have hcast : ∀ k ∈ s.pending.senders, x.toU64 = k ↔ x.value = some (k : ℚ) := fun k hk => by
      rw [Binary64.toU64_eq_iff (hkeys k hk)]
      exact or_iff_left (hno k hk)
    refine ⟨fun k hk => ?_, fun hnone => ?_⟩
    · rw [settlesSlot_iff hidle, hcast k hk]
      exact and_iff_right hk
    · exact (ignores_iff hidle).mpr fun hx => hnone _ hx ((hcast _ hx).mp rfl)

end Call

/-! ## 2. The ids a run issues -/

section Issued

variable {tr : List Action} {s : State}

/-- The counter is the number of deliveries, modulo `2^64`. -/
theorem nextAck_run (h : machine.Run tr s) : s.nextAck = deliveries tr % u64Size := by
  induction h using System.Run.induct with
  | start => rfl
  | snoc tr s a s' h hs ih =>
      rw [deliveries_append]
      cases step_cases hs with
      | fetchAdd i message hp =>
          show (s.nextAck + 1) % u64Size = (deliveries tr + 1) % u64Size
          rw [ih, Nat.mod_add_mod]
      | _ => exact ih

/-- **Every id below the number of deliveries is drawn** by some invocation. -/
theorem drawn_all (h : machine.Run tr s) {n : Nat} (hn : n < deliveries tr) (hsize : n < u64Size) :
    ∃ i, (s.onMessage i).drawn = some n := by
  induction h using System.Run.induct with
  | start => cases hn
  | snoc tr s a s' h hs ih =>
      rcases Nat.lt_or_ge n (deliveries tr) with hlt | hge
      · obtain ⟨i, hi⟩ := ih hlt
        exact ⟨i, drawn_step hi (step_cases hs)⟩
      · -- the last step is the `fetch_add` that draws it
        rw [deliveries_append] at hn
        cases step_cases hs with
        | fetchAdd i message hp =>
            obtain rfl : n = deliveries tr := Nat.le_antisymm (Nat.le_of_lt_succ hn) hge
            refine ⟨i, ?_⟩
            simp only [State.fetchAdd_onMessage, if_true, OnMessage.drawn]
            rw [nextAck_run h, Nat.mod_eq_of_lt hsize]
        | _ => exact absurd hn (Nat.not_lt.mpr hge)

end Issued

/-! ## 3. The numbers JavaScript receives -/

/-- **The numbers handed to JavaScript are as good as the ids**: different ids have different
    numbers, and a call with the number of a delivery still in the map settles that delivery. -/
structure State.NumbersDistinct (s : State) : Prop where
  distinct : ∀ i j m n message message', (s.onMessage i).drawn = some m →
    (s.onMessage j).drawn = some n → m ≠ n →
    (delivery message m).ackId ≠ (delivery message' n).ackId
  reaches : ∀ i n message c e, (s.onMessage i).drawn = some n → n ∈ s.pending.senders →
    s.complete c = .idle →
    s.pending.senders.lookup n = some i ∧ s.SettlesSlot c (delivery message n).ackId e n

section Numbers

variable {tr : List Action} {s : State}

/-- **The numbers are distinct up to `2^53 + 1` deliveries**, and not beyond. -/
theorem numbersDistinct_iff (h : machine.Run tr s) :
    s.NumbersDistinct ↔ deliveries tr ≤ 2 ^ 53 + 1 := by
  constructor
  · intro hdist
    by_contra hd
    -- the id `2^53 + 1` is issued, and its number is that of `2^53`
    obtain ⟨i, hi⟩ := drawn_all h (n := 2 ^ 53 + 1) (by omega) (by decide)
    obtain ⟨j, hj⟩ := drawn_all h (n := 2 ^ 53) (by omega) (by decide)
    exact hdist.distinct i j _ _ sampleMessage sampleMessage hi hj (by decide)
      Binary64.ofU64_collision
  · intro hd
    have hI := inv_run h (by unfold u64Size; omega)
    have hback : ∀ i n, (s.onMessage i).drawn = some n → (Binary64.ofU64 n).toU64 = n :=
      fun i n hn => Binary64.toU64_ofU64_le (by have := hI.issued i n hn; omega)
    refine ⟨fun i j m n message message' hm hn hne he => ?_,
      fun i n message c e hn hmem hidle => ⟨?_, ?_⟩⟩
    · have he' : Binary64.ofU64 m = Binary64.ofU64 n := he
      exact hne (by rw [← hback i m hm, he', hback j n hn])
    · obtain ⟨j, hl⟩ := lookup_of_mem hmem
      rw [hl, hI.lookup_own hn hl]
    · exact (settlesSlot_iff hidle).mpr ⟨hmem, hback i n hn⟩

/-- **Exactly when the number of a completion identifies one slot.** In any state of the map, a
    call does what its number says unless the number is an alias of a key; and the numbers handed
    to JavaScript in a run tell its deliveries apart up to `2^53 + 1` of them. -/
theorem ackNumber_identifies {t : State} {c : Nat} {x : Binary64} {e : Option String}
    (hkeys : ∀ k ∈ t.pending.senders, k < u64Size) (hidle : t.complete c = .idle)
    (h : machine.Run tr s) :
    (t.Identifies c x e ↔ ∀ k ∈ t.pending.senders, ¬ x.Aliases k) ∧
      (s.NumbersDistinct ↔ deliveries tr ≤ 2 ^ 53 + 1) :=
  ⟨identifies_iff hkeys hidle, numbersDistinct_iff h⟩

end Numbers

/-- One delivery, dispatched and waiting. -/
def waitingRun : List Action := [.fetchAdd 0 sampleMessage, .insert 0, .call 0 .ok]

theorem waitingRun_ends : ∃ s, machine.Run waitingRun s ∧ s.complete 0 = .idle ∧
    ∀ k, k ∈ s.pending.senders ↔ k = 0 := by
  refine ⟨_, rfl, rfl, fun k => ?_⟩
  show k ∈ (∅ : AList fun _ : Nat => Nat).insert 0 0 ↔ k = 0
  rw [AList.mem_insert]
  exact or_iff_left (AList.notMem_empty k)

/-- The number delivery 0 was handed identifies its slot. -/
theorem ackNumber_identifies_received :
    ∃ s, machine.Run waitingRun s ∧ s.Identifies 0 (Binary64.ofU64 0) none ∧ s.NumbersDistinct := by
  obtain ⟨s, hs, hidle, hmem⟩ := waitingRun_ends
  have hkeys : ∀ k ∈ s.pending.senders, k < u64Size := fun k hk => (hmem k).mp hk ▸ by decide
  have h := ackNumber_identifies (x := Binary64.ofU64 0) (e := none) hkeys hidle hs
  refine ⟨s, hs, h.1.mpr fun k hk ha => ?_, h.2.mpr (by decide)⟩
  obtain rfl := (hmem k).mp hk
  exact ha.value_ne (Binary64.value_ofU64 (by decide))

/-- **`complete_message(NaN)` settles delivery 0**: NaN is not the number 0, nor any ack id. -/
theorem nan_settles_delivery :
    ∃ s, machine.Run waitingRun s ∧ s.complete 0 = .idle ∧ (∀ k ∈ s.pending.senders, k < u64Size) ∧
      s.SettlesSlot 0 .nan none 0 ∧ ¬ s.Identifies 0 .nan none := by
  obtain ⟨s, hs, hidle, hmem⟩ := waitingRun_ends
  have hkey : 0 ∈ s.pending.senders := (hmem 0).mpr rfl
  have hsettles : s.SettlesSlot 0 .nan none 0 := (settlesSlot_iff hidle).mpr ⟨hkey, rfl⟩
  refine ⟨s, hs, hidle, fun k hk => (hmem k).mp hk ▸ by decide, hsettles, fun h => ?_⟩
  have hvalue := (h.settles 0 hkey).mp hsettles
  cases hvalue

end TrueSealSync.Native
