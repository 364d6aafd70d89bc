/-
  File:      TrueSealSync/Native/MapOrder.lean
  Subject:   THE ORDER OF THE PENDING MAP IS NEVER SEEN.

  `PendingAcks.senders` is a `HashMap`: the order in which `close()` drains it is not fixed, and it
  may change with every operation. The machine keeps its entries in a list, in one order.

  * `Reordered s t` -- the same session, the entries of the map in another order;
  * `reordered_step` -- a step of the one is a step of the other, with the same event;
  * `ShuffledRun` -- a run in which the map is put into any order before every step;
  * `shuffled_run` -- it shows what the machine's run of the same actions shows, and ends in the
    same session.
-/
import TrueSealSync.Native.Ledger

namespace TrueSealSync.Native

open TrueSealSync.Lib

/-- The session with other entries in its map. -/
def State.withSenders (s : State) (m : AList fun _ : Nat => Nat) : State :=
  { s with pending := { s.pending with senders := m } }

/-- **The same session, with the map in another order.** -/
def Reordered (s t : State) : Prop :=
  ∃ m : AList fun _ : Nat => Nat, m.entries.Perm s.pending.senders.entries ∧ t = s.withSenders m

section Reordered

variable {s t s' : State} {a : Action} {m : AList fun _ : Nat => Nat}

theorem Reordered.refl (s : State) : Reordered s s := ⟨s.pending.senders, .refl _, rfl⟩

theorem Reordered.trans {u : State} (h : Reordered s t) (h' : Reordered t u) : Reordered s u := by
  obtain ⟨m, hm, rfl⟩ := h
  obtain ⟨m', hm', rfl⟩ := h'
  exact ⟨m', hm'.trans hm, rfl⟩

theorem Reordered.symm (h : Reordered s t) : Reordered t s := by
  obtain ⟨m, hm, rfl⟩ := h
  exact ⟨s.pending.senders, hm.symm, rfl⟩

theorem lookup_reordered (hm : m.entries.Perm s.pending.senders.entries) (n : Nat) :
    m.lookup n = s.pending.senders.lookup n :=
  AList.perm_lookup hm

/-- The drain of another order fills the same cells. -/
theorem drained_reordered (hm : m.entries.Perm s.pending.senders.entries) :
    Oneshot.sendAll s.cells (s.withSenders m).pending.waiting (.ok ()) =
      Oneshot.sendAll s.cells s.pending.waiting (.ok ()) := by
  funext i
  have hmem : i ∈ (s.withSenders m).pending.waiting ↔ i ∈ s.pending.waiting :=
    (hm.map (·.2)).mem_iff
  refine (drained_cells (s.withSenders m) i).trans ((drained_cells s i).trans ?_).symm
  simp only [hmem]
  rfl

/-- **A step of the one session is a step of the other**, and shows the same event. -/
theorem reordered_step (h : Reordered s t) (hs : machine.step s a = some s') :
    ∃ t', machine.step t a = some t' ∧ Reordered s' t' ∧ t.event a = s.event a := by
  obtain ⟨m, hm, rfl⟩ := h
  have hlook := lookup_reordered hm
  cases step_cases hs with
  | fetchAdd i message hp =>
      exact ⟨_, (Step.fetchAdd (s := s.withSenders m) i message hp).taken, ⟨m, hm, rfl⟩, rfl⟩
  | abandon i n message hp hc =>
      exact ⟨_, (Step.abandon (s := s.withSenders m) i n message hp hc).taken, ⟨m, hm, rfl⟩, rfl⟩
  | insert i n message hp hc =>
      refine ⟨_, (Step.insert (s := s.withSenders m) i n message hp hc).taken,
        ⟨m.insert n i, AList.perm_insert hm, ?_⟩, rfl⟩
      simp only [State.insert, State.withSenders, State.setOnMessage, hlook]
  | dispatch i n message hp =>
      exact ⟨_, (Step.dispatch (s := s.withSenders m) i n message hp).taken, ⟨m, hm, rfl⟩, rfl⟩
  | refuse i n message debug hp =>
      exact ⟨_, (Step.refuse (s := s.withSenders m) i n message debug hp).taken, ⟨m, hm, rfl⟩, rfl⟩
  | recv i n r hp hr =>
      exact ⟨_, (Step.recv (s := s.withSenders m) i n r hp hr).taken, ⟨m, hm, rfl⟩, rfl⟩
  | recvDropped i n hp hr =>
      exact ⟨_, (Step.recvDropped (s := s.withSenders m) i n hp hr).taken, ⟨m, hm, rfl⟩, rfl⟩
  | finish i n r hp =>
      refine ⟨_, (Step.finish (s := s.withSenders m) i n r hp).taken,
        ⟨m.erase n, AList.perm_erase hm, ?_⟩, rfl⟩
      simp only [State.finish, State.withSenders, State.setOnMessage, hlook]
  | take c x e j hp hl =>
      refine ⟨_, (Step.take (s := s.withSenders m) c x e j hp ((hlook x.toU64).trans hl)).taken,
        ⟨m.erase x.toU64, AList.perm_erase hm, rfl⟩, ?_⟩
      simp only [State.event, State.withSenders, hlook]
      rfl
  | miss c x e hp hl =>
      refine ⟨_, (Step.miss (s := s.withSenders m) c x e hp ((hlook x.toU64).trans hl)).taken,
        ⟨m, hm, rfl⟩, ?_⟩
      simp only [State.event, State.withSenders, hlook]
      rfl
  | sendOutcome c x e j hp =>
      exact ⟨_, (Step.sendOutcome (s := s.withSenders m) c x e j hp).taken, ⟨m, hm, rfl⟩, rfl⟩
  | innerClose k hp =>
      exact ⟨_, (Step.innerClose (s := s.withSenders m) k hp).taken, ⟨m, hm, rfl⟩, rfl⟩
  | closeDrain k hp =>
      refine ⟨_, (Step.closeDrain (s := s.withSenders m) k hp).taken, ⟨∅, .refl _, ?_⟩, rfl⟩
      simp only [State.closeDrain, State.setClose]
      rw [show (s.withSenders m).cells = s.cells from rfl, drained_reordered hm]
      rfl

end Reordered

/-- A run in which the map is put into any order before every step, and the events it shows. -/
inductive ShuffledRun : List Action → List Event → State → Prop where
  | start : ShuffledRun [] [] {}
  | snoc {tr : List Action} {events : List Event} {s t s' : State} {a : Action}
      (h : ShuffledRun tr events s) (hr : Reordered s t) (hs : machine.step t a = some s') :
      ShuffledRun (tr ++ [a]) (events ++ (t.event a).toList) s'

/-- **The order of the map is never seen.** However it changes during a run, the run shows the
    events of the machine's run of the same actions, and ends in the same session up to the order:
    the same positions, cells and deliveries. -/
theorem shuffled_run {tr : List Action} {events : List Event} {s : State}
    (h : ShuffledRun tr events s) : ∃ t, machine.Run tr t ∧ Reordered t s ∧
      events = machine.observed State.event machine.init tr := by
  induction h with
  | start => exact ⟨_, System.Run.start, .refl _, rfl⟩
  | @snoc tr events s t s' a h hr hs ih =>
      obtain ⟨u, hrun, hu, hev⟩ := ih
      obtain ⟨u', hst, hu', he⟩ := reordered_step ((hu.trans hr).symm) hs
      refine ⟨u', hrun.snoc hst, hu'.symm, ?_⟩
      rw [machine.observed_concat State.event hrun hst, hev, he]

/-- A run of the machine is one: the order stays as it is. -/
theorem ShuffledRun.of_run {tr : List Action} {s : State} (h : machine.Run tr s) :
    ShuffledRun tr (machine.observed State.event machine.init tr) s := by
  induction h using System.Run.induct with
  | start => exact .start
  | snoc tr s a s' h hs ih =>
      rw [machine.observed_concat State.event h hs]
      exact .snoc ih (.refl s) hs

/-- Two senders in the map, before the critical section of a `close()`. -/
def twoSenders : List Action :=
  [.fetchAdd 0 sampleMessage, .insert 0, .fetchAdd 1 sampleMessage, .insert 1, .innerClose 0]

/-- The drain in the other order. -/
theorem shuffled_run_drain : ∃ events s, ShuffledRun (twoSenders ++ [.closeDrain 0]) events s ∧
    ∃ t, machine.Run (twoSenders ++ [.closeDrain 0]) t ∧ Reordered t s ∧
      events = machine.observed State.event machine.init (twoSenders ++ [.closeDrain 0]) := by
  obtain ⟨s, hs, hp⟩ := machine.exists_run twoSenders (fun s =>
    s.close 0 = .innerClosed ∧ s.pending.senders.entries = [⟨1, 1⟩, ⟨0, 0⟩]) (by decide)
  obtain ⟨hclose, hentries⟩ := of_decide_eq_true hp
  let m : AList fun _ : Nat => Nat := ((∅ : AList fun _ : Nat => Nat).insert 1 1).insert 0 0
  have hr : Reordered s (s.withSenders m) := ⟨m, hentries ▸ List.Perm.swap _ _ _, rfl⟩
  have hrun := (ShuffledRun.of_run hs).snoc hr
    (Step.closeDrain (s := s.withSenders m) 0 hclose).taken
  exact ⟨_, _, hrun, shuffled_run hrun⟩

end TrueSealSync.Native
