/-
  File:      TrueSealSync/Native/InFlight.lean
  Subject:   THE PENDING MAP HOLDS THE DELIVERIES IN FLIGHT, and nothing is left in it when none is.

  `InFlight tr i` reads the run: `i` has inserted its sender and not performed its final remove.
  The position says the same (`slot_iff_inFlight`), so the invariant of the machine speaks about
  the run:

  * `lookup_iff` -- the entries of the map are the deliveries in flight nobody has answered: their
    cell is empty, and no `complete_message` call holds their sender;
  * `removed_stays` -- an id that was in the map and is out of it never comes back;
  * `senders_in_flight` -- the result, `SendersInFlight`, for fewer than `2^53` deliveries.

  Ids are drawn outside the lock, so the order of the inserts is not the order of the ids; the
  removes of `complete_message`, of the drain and of the invocation itself come in any order.
-/
import TrueSealSync.Native.Routing

namespace TrueSealSync.Native

open TrueSealSync.Lib

/-! ## 1. In flight, by the run and by the position -/

/-- `i` has inserted its sender and not performed its final remove. -/
def InFlight (tr : List Action) (i : Nat) : Prop :=
  Inserted tr i ∧ .remove i ∉ tr

section Positions

variable {tr : List Action} {s s' : State} {i n : Nat} {a : Action}

/-- Only its final remove takes an invocation from its slot. -/
theorem slot_stays (hs : Step s a s') (ha : a ≠ .remove i) (hn : (s.onMessage i).slot = some n) :
    (s'.onMessage i).slot = some n := by
  cases hs with
  | finish j m r hp =>
      have hj : i ≠ j := fun e => ha (by rw [e])
      simpa [hj] using hn
  | fetchAdd j | abandon j | insert j | dispatch j | refuse j | recv j | recvDropped j =>
      by_cases hj : i = j
      · subst hj
        simp_all [OnMessage.slot]
      · simpa [hj] using hn
  | _ => exact hn

theorem slot_exec (h : machine.exec s tr = some s') (hr : .remove i ∉ tr)
    (hn : (s.onMessage i).slot = some n) : (s'.onMessage i).slot = some n := by
  refine machine.exec_stable_mem (P := fun s => (s.onMessage i).slot = some n)
    (fun t a t' ha ht hs => ?_) h hn
  exact slot_stays (step_cases hs) (fun e => hr (e ▸ ha)) ht

/-- An invocation that performed its final remove has returned. -/
theorem rank_of_removed (h : machine.Run tr s) (hr : .remove i ∈ tr) :
    5 ≤ (s.onMessage i).rank := by
  obtain ⟨s₀, hf⟩ := h.fires_of_mem hr
  obtain ⟨s₁, post, hst, hex⟩ := h.after_fires hf
  refine rank_stable hex ?_
  cases step_cases hst with
  | finish => simp [OnMessage.rank]

/-- **The position of an invocation in flight**: it is at its slot, with the id it has drawn. -/
theorem slot_iff_inFlight (h : machine.Run tr s) :
    (s.onMessage i).slot = some n ↔ (s.onMessage i).drawn = some n ∧ InFlight tr i := by
  constructor
  · intro hn
    refine ⟨drawn_of_slot hn, inserted_of_slot h hn, fun hr => ?_⟩
    have hrank := rank_of_removed h hr
    cases hp : s.onMessage i with
    | returned => rw [hp] at hn; cases hn
    | idle | fetched | inserted | awaiting | settled => simp [hp, OnMessage.rank] at hrank
  · intro hi
    obtain ⟨hn, ⟨s₀, ⟨pre, post, rfl, hr₀⟩, hc⟩, hr⟩ := hi
    obtain ⟨t, ht, hex⟩ := h.split
    obtain rfl := ht.unique hr₀
    obtain ⟨t', hst, hex'⟩ := Option.bind_eq_some_iff.mp hex
    have hpost : Action.remove i ∉ post := fun hm => hr (by simp [hm])
    cases step_cases hst with
    | abandon _ m message hp hc' => rw [hc] at hc'; cases hc'
    | insert _ m message hp hc' =>
        have hslot := slot_exec (n := m) hex' hpost (by simp [OnMessage.slot])
        rw [hslot, ← drawn_of_slot hslot, hn]

end Positions

/-! ## 2. The entries of the map -/

section Entries

variable {d : Nat} {tr : List Action} {s : State} {i n : Nat}

/-- A map without an entry is the empty one. -/
theorem empty_of_lookup {m : AList fun _ : Nat => Nat} (h : ∀ n i, m.lookup n ≠ some i) : m = ∅ :=
  AList.ext (List.eq_nil_iff_forall_not_mem.mpr fun ⟨n, i⟩ hm => h n i (AList.mem_lookup_iff.mpr hm))

/-- **The entries of the map**: the slots nobody has answered. -/
theorem Inv.lookup_iff (h : Inv d s) : s.pending.senders.lookup n = some i ↔
    (s.onMessage i).slot = some n ∧ s.cells i = .empty ∧ ∀ c x e, s.complete c ≠ .sending x e i := by
  constructor
  · intro hl
    obtain ⟨hslot, hcell⟩ := h.mapped n i hl
    refine ⟨hslot, hcell, fun c x e hc => ?_⟩
    -- a held sender's key is gone, and the key is the id of `i`
    obtain ⟨hx, _, _, hgone⟩ := h.held c x e i hc
    obtain rfl : n = x.toU64 := Option.some.inj ((drawn_of_slot hslot).symm.trans hx)
    rw [hgone] at hl
    cases hl
  · intro ⟨hslot, hcell, hfree⟩
    rcases h.placed i n hslot with hl | ⟨c, x, e, hc⟩ | ⟨r, hr⟩
    · exact hl
    · exact absurd hc (hfree c x e)
    · rw [hcell] at hr
      cases hr

/-- **An id once removed from the map never appears in it again.** -/
theorem removed_stays {pre mid post : List Action} {t u : State} (ht : machine.Run pre t)
    (hu : machine.Run (pre ++ mid) u) (h : machine.Run (pre ++ mid ++ post) s)
    (hd : deliveries (pre ++ mid ++ post) ≤ u64Size) (hin : n ∈ t.pending.senders)
    (hout : n ∉ u.pending.senders) : n ∉ s.pending.senders := by
  obtain ⟨i, hl⟩ := lookup_of_mem hin
  have hslot := ((inv_before ht (List.append_assoc pre mid post ▸ hd)).mapped n i hl).1
  obtain ⟨t', ht', hex⟩ := hu.split
  obtain rfl := ht.unique ht'
  have hgone : u.gone i n := ⟨AList.lookup_eq_none.mpr hout,
    drawn_stable hex (drawn_of_slot hslot), rank_stable hex (rank_of_slot hslot)⟩
  have := stable_run (fun _ _ _ _ hI hg hs => gone_step hI hg hs) hu h hd hgone
  exact AList.lookup_eq_none.mp this.lookup

end Entries

/-! ## 3. The result -/

/-- **The pending map holds the deliveries in flight**, at the end `s` of the run `tr`. -/
structure SendersInFlight (tr : List Action) (s : State) : Prop where
  /-- every key is the ack id of exactly one invocation in flight -/
  key : ∀ n ∈ s.pending.senders, ∃! i, (s.onMessage i).drawn = some n ∧ InFlight tr i
  /-- the entry of a delivery in flight is there until somebody takes its sender -/
  entry : ∀ n i, s.pending.senders.lookup n = some i ↔
    (s.onMessage i).drawn = some n ∧ InFlight tr i ∧ s.cells i = .empty ∧
      ∀ c x e, s.complete c ≠ .sending x e i
  /-- no two invocations hold the same ack id, those that have returned included -/
  unique : ∀ i j n, (s.onMessage i).drawn = some n → (s.onMessage j).drawn = some n → i = j
  /-- the counter is above every key and every id in use -/
  keyBelow : ∀ n ∈ s.pending.senders, n < s.nextAck
  idBelow : ∀ i n, (s.onMessage i).drawn = some n → n < s.nextAck
  /-- an id once removed from the map is never in it again -/
  removed : ∀ n pre mid post t u, tr = pre ++ mid ++ post → machine.Run pre t →
    machine.Run (pre ++ mid) u → n ∈ t.pending.senders → n ∉ u.pending.senders →
    n ∉ s.pending.senders
  /-- with no invocation in flight the map is empty -/
  empty : (∀ i, ¬ InFlight tr i) → s.pending.senders = ∅

/-- **The pending map holds the deliveries in flight**, in every state of every run with fewer
    than `2^53` deliveries. -/
theorem senders_in_flight {tr : List Action} {s : State} (h : machine.Run tr s)
    (hd : deliveries tr < 2 ^ 53) : SendersInFlight tr s := by
  have hd' : deliveries tr ≤ u64Size := by unfold u64Size; omega
  have hI := inv_run h hd'
  have hnext : s.nextAck = deliveries tr := by
    rw [hI.counter, Nat.mod_eq_of_lt (by unfold u64Size; omega)]
  have hentry : ∀ n i, s.pending.senders.lookup n = some i →
      (s.onMessage i).drawn = some n ∧ InFlight tr i := fun n i hl =>
    (slot_iff_inFlight h).mp (hI.mapped n i hl).1
  have hbelow : ∀ i n, (s.onMessage i).drawn = some n → n < s.nextAck := fun i n hn => by
    rw [hnext]
    exact hI.issued i n hn
  refine ⟨fun n hn => ?_, fun n i => ?_, hI.unique, fun n hn => ?_, hbelow, ?_, fun hno => ?_⟩
  · obtain ⟨i, hl⟩ := lookup_of_mem hn
    have hi := hentry n i hl
    exact ⟨i, hi, fun j hj => hI.unique j i n hj.1 hi.1⟩
  · rw [hI.lookup_iff, slot_iff_inFlight h, and_assoc]
  · obtain ⟨i, hl⟩ := lookup_of_mem hn
    exact hbelow i n (hentry n i hl).1
  · intro n pre mid post t u htr ht hu hin hout
    subst htr
    exact removed_stays ht hu h hd' hin hout
  · exact empty_of_lookup fun n i hl => hno i (hentry n i hl).2

/-- Two deliveries that insert in the other order; one is refused and returns, one stays. -/
def crossedRun : List Action :=
  [.fetchAdd 0 sampleMessage, .fetchAdd 1 sampleMessage, .insert 1, .insert 0,
    .call 1 (.other "Closing"), .call 0 .ok, .remove 1]

theorem senders_in_flight_crossed : ∃ s, machine.Run crossedRun s ∧ SendersInFlight crossedRun s := by
  obtain ⟨s, hs, -⟩ := machine.exists_run crossedRun (fun _ => true) (by decide +kernel)
  exact ⟨s, hs, senders_in_flight hs (by decide)⟩

end TrueSealSync.Native
