/-
  File:      TrueSealSync/Native/Progress.lean
  Subject:   THE PENDING-ACK MACHINE COMES TO REST: no deadlock, no livelock, and what it waits for.

  The parties of the machine (invocations of `on_message`, calls of `complete_message` and of
  `close()`) only move forward, so the machine is `Ranked`. What is left is where it rests:

  * `quiescent_iff` -- nothing is left to do but to start new parties exactly in the states
    `Settled`: every invocation that has started has returned, or JavaScript has its delivery and
    its sender is in the map;
  * `session_progress` -- a run of `d` deliveries, `c` completions and `k` closings has at most
    `5 d + 2 c + 2 k` steps, it can be continued to such a state by steps of the parties under
    way, and every continuation of this kind ends;
  * `close_returns_all` -- after the critical section of a `close()` this state is one where every
    invocation has returned.
-/
import TrueSealSync.Lib.Progress
import TrueSealSync.Native.InFlight

namespace TrueSealSync.Native

open TrueSealSync.Lib

/-! ## 1. The parties -/

inductive Party where
  | message (i : Nat)
  | completion (c : Nat)
  | closing (k : Nat)
  deriving DecidableEq

/-- Whose action it is. -/
def Action.party : Action → Party
  | .fetchAdd i _ | .insert i | .call i _ | .recv i | .remove i => .message i
  | .completeRemove c _ _ | .completeSend c => .completion c
  | .innerClose k | .closeDrain k => .closing k

/-- The actions that start a party: a delivery comes in, JavaScript calls `completeMessage`, or it
    calls `close`. -/
def Action.starts : Action → Bool
  | .fetchAdd _ _ | .completeRemove _ _ _ | .innerClose _ => true
  | .insert _ | .call _ _ | .recv _ | .remove _ | .completeSend _ | .closeDrain _ => false

def Close.rank : Close → Nat
  | .idle => 0
  | .innerClosed => 1
  | .done => 2

/-- How far a party is. -/
def State.rank (s : State) : Party → Nat
  | .message i => (s.onMessage i).rank
  | .completion c => (s.complete c).rank
  | .closing k => (s.close k).rank

/-- How far it can go. -/
def Party.limit : Party → Nat
  | .message _ => 5
  | .completion _ => 2
  | .closing _ => 2

theorem rank_le_limit (s : State) (p : Party) : s.rank p ≤ p.limit := by
  cases p with
  | message i =>
      simp only [State.rank, Party.limit]
      cases s.onMessage i <;> simp [OnMessage.rank]
  | completion c =>
      simp only [State.rank, Party.limit]
      cases s.complete c <;> simp [CompleteMessage.rank]
  | closing k =>
      simp only [State.rank, Party.limit]
      cases s.close k <;> simp [Close.rank]

section Ranks

variable {s s' : State} {a : Action}

@[simp] theorem setClose_close (k j : Nat) (p : Close) :
    (s.setClose k p).close j = if j = k then p else s.close j :=
  Function.update_apply ..

/-- An action takes its party forward. -/
theorem rank_own (h : Step s a s') : s.rank a.party < s'.rank a.party := by
  cases h with
  | sendOutcome c x e j hp =>
      simp [State.rank, Action.party, CompleteMessage.rank, hp]
  | innerClose k hp =>
      simp [State.rank, Action.party, Close.rank, hp, State.innerClose]
  | closeDrain k hp =>
      simp [State.rank, Action.party, Close.rank, hp, State.closeDrain]
  | take c x e j hp hl => simp [State.rank, Action.party, CompleteMessage.rank, hp]
  | miss c x e hp hl => simp [State.rank, Action.party, CompleteMessage.rank, hp]
  | _ => simp [State.rank, Action.party, OnMessage.rank, *]

/-- It leaves every other party where it is. -/
theorem rank_other (h : Step s a s') {p : Party} (hp : p ≠ a.party) : s'.rank p = s.rank p := by
  cases p with
  | message i =>
      have hne : ∀ j, a.party = .message j → i ≠ j := fun j he e => hp (by rw [he, e])
      cases h <;> first
        | rfl
        | simp [State.rank, hne _ rfl]
  | completion c =>
      have hne : ∀ j, a.party = .completion j → c ≠ j := fun j he e => hp (by rw [he, e])
      cases h <;> first
        | rfl
        | simp [State.rank, hne _ rfl]
  | closing k =>
      have hne : ∀ j, a.party = .closing j → k ≠ j := fun j he e => hp (by rw [he, e])
      cases h <;> first
        | rfl
        | simp [State.rank, hne _ rfl, State.innerClose, State.closeDrain]

/-- The first action of a party is one of those that start it. -/
theorem starts_of_rank (h : Step s a s') (hr : s.rank a.party = 0) : a.starts = true := by
  cases h with
  | fetchAdd | take | miss | innerClose => rfl
  | sendOutcome c x e j hp => simp [State.rank, Action.party, CompleteMessage.rank, hp] at hr
  | closeDrain k hp => simp [State.rank, Action.party, Close.rank, hp] at hr
  | _ => simp_all [State.rank, Action.party, OnMessage.rank]

end Ranks

/-- The machine's parties only move forward. -/
def ranked : machine.Ranked Party where
  party := Action.party
  starts := Action.starts
  rank := State.rank
  limit := Party.limit
  init p := by cases p <;> rfl
  le_limit := rank_le_limit
  own _ _ _ h := rank_own (step_cases h)
  other _ _ _ _ h hp := rank_other (step_cases h) hp
  first _ _ _ h hr := starts_of_rank (step_cases h) hr

/-- The calls of `complete_message` and of `close()` a run starts. -/
def completions (tr : List Action) : Nat :=
  tr.countP fun
    | .completeRemove _ _ _ => true
    | _ => false

def closings (tr : List Action) : Nat :=
  tr.countP fun
    | .innerClose _ => true
    | _ => false

/-- The steps the parties of a run can take in all. -/
theorem ranked_budget (tr : List Action) :
    ranked.budget tr = 5 * deliveries tr + 2 * completions tr + 2 * closings tr := by
  induction tr with
  | nil => rfl
  | cons a tr ih =>
      have hcons : ranked.budget (a :: tr) =
          (if a.starts then a.party.limit else 0) + ranked.budget tr := by
        cases ha : a.starts <;>
          simp [System.Ranked.budget, System.Ranked.started, ranked, ha]
      rw [hcons, ih]
      cases a <;> simp [Action.starts, Action.party, Party.limit, deliveries, completions,
        closings] <;> omega

/-! ## 2. Where the machine rests -/

/-- **The session is at rest**: whoever has not returned waits for its handler. -/
structure State.Settled (s : State) : Prop where
  onMessage : ∀ i, s.onMessage i = .idle ∨ (∃ n r, s.onMessage i = .returned n r) ∨
    ∃ n, s.onMessage i = .awaiting n
  complete : ∀ c, s.complete c = .idle ∨ s.complete c = .done
  close : ∀ k, s.close k = .idle ∨ s.close k = .done
  /-- the map holds the senders of the deliveries that wait, and nothing else -/
  entry : ∀ n i, s.pending.senders.lookup n = some i ↔ s.onMessage i = .awaiting n

section Rest

variable {d : Nat} {tr : List Action} {s s' : State}

/-- What is enabled and starts no party does not happen in a state at rest. -/
theorem quiescent_blocks (hq : ranked.Quiescent s) {a : Action} (ha : a.starts = false)
    (h : Step s a s') : False := by
  have := hq a s' h.taken
  rw [show ranked.starts a = false from ha] at this
  cases this

theorem settled_of_quiescent (hI : Inv d s) (hq : ranked.Quiescent s) : s.Settled := by
  have hcomplete : ∀ c, s.complete c = .idle ∨ s.complete c = .done := fun c => by
    cases hp : s.complete c with
    | idle => exact Or.inl rfl
    | sending x e j => exact (quiescent_blocks hq rfl (.sendOutcome c x e j hp)).elim
    | done => exact Or.inr rfl
  have hpos : ∀ i, s.onMessage i = .idle ∨ (∃ n r, s.onMessage i = .returned n r) ∨
      ∃ n, s.onMessage i = .awaiting n := fun i => by
    cases hp : s.onMessage i with
    | idle => exact Or.inl rfl
    | returned n r => exact Or.inr (Or.inl ⟨n, r, rfl⟩)
    | awaiting n => exact Or.inr (Or.inr ⟨n, rfl⟩)
    | inserted n message => exact (quiescent_blocks hq rfl (.dispatch i n message hp)).elim
    | settled n r => exact (quiescent_blocks hq rfl (.finish i n r hp)).elim
    | fetched n message =>
        cases hc : s.pending.closed with
        | true => exact (quiescent_blocks hq rfl (.abandon i n message hp hc)).elim
        | false => exact (quiescent_blocks hq rfl (.insert i n message hp hc)).elim
  refine ⟨hpos, hcomplete, fun k => ?_, fun n i => ?_⟩
  · cases hp : s.close k with
    | idle => exact Or.inl rfl
    | innerClosed => exact (quiescent_blocks hq rfl (.closeDrain k hp)).elim
    | done => exact Or.inr rfl
  · constructor
    · intro hl
      have hslot := (hI.mapped n i hl).1
      rcases hpos i with hp | ⟨m, r, hp⟩ | ⟨m, hp⟩
      · rw [hp] at hslot; cases hslot
      · rw [hp] at hslot; cases hslot
      · rw [hp] at hslot ⊢
        cases hslot
        rfl
    · intro hp
      -- the sender is nowhere else: no call holds one, and a filled cell could be received
      rcases hI.placed i n (by rw [hp]; rfl) with hl | ⟨c, x, e, hc⟩ | ⟨r, hr⟩
      · exact hl
      · exact (quiescent_blocks hq rfl (.sendOutcome c x e i hc)).elim
      · exact (quiescent_blocks hq rfl (.recv i n r hp hr)).elim

theorem quiescent_of_settled (hI : Inv d s) (h : s.Settled) : ranked.Quiescent s := by
  intro a s' hst
  show a.starts = true
  cases step_cases hst with
  | fetchAdd | take | miss | innerClose => rfl
  | abandon i n message hp | insert i n message hp | dispatch i n message hp
  | refuse i n message debug hp | finish i n r hp =>
      rcases h.onMessage i with hi | ⟨m, r, hi⟩ | ⟨m, hi⟩ <;> rw [hp] at hi <;> cases hi
  | recv i n r hp hr =>
      rw [(hI.mapped n i ((h.entry n i).mpr hp)).2] at hr
      cases hr
  | recvDropped i n hp hr =>
      rw [(hI.mapped n i ((h.entry n i).mpr hp)).2] at hr
      cases hr
  | sendOutcome c x e j hp =>
      rcases h.complete c with hi | hi <;> rw [hp] at hi <;> cases hi
  | closeDrain k hp =>
      rcases h.close k with hi | hi <;> rw [hp] at hi <;> cases hi

/-- **Nothing is left to do** exactly where the session is at rest. -/
theorem quiescent_iff (hI : Inv d s) : ranked.Quiescent s ↔ s.Settled :=
  ⟨settled_of_quiescent hI, quiescent_of_settled hI⟩

/-- The session's own steps: no delivery comes in, and JavaScript calls nothing. -/
def Own (tr : List Action) : Prop := ∀ a ∈ tr, a.starts = false

theorem Own.deliveries (h : Own tr) : deliveries tr = 0 := by
  refine List.countP_eq_zero.mpr fun a ha => ?_
  have := h a ha
  cases a <;> simp_all [Action.starts]

theorem inv_own {tr' : List Action} (h : machine.Run tr s) (hd : deliveries tr ≤ u64Size)
    (hex : machine.exec s tr' = some s') (hown : Own tr') : Inv (deliveries tr) s' := by
  have hlen : deliveries (tr ++ tr') = deliveries tr := by
    rw [deliveries_append, hown.deliveries, Nat.add_zero]
  exact hlen ▸ inv_run (h.trans hex) (hlen ▸ hd)

/-- **Progress of a session.** A run has at most five steps for a delivery and two for a completion
    and a closing; it can always be continued by the session's own steps until nothing is left to
    do; every continuation by own steps ends within the same bound; and it is at its end exactly
    where the session is at rest. -/
theorem session_progress (h : machine.Run tr s) (hd : deliveries tr ≤ u64Size) :
    tr.length ≤ 5 * deliveries tr + 2 * completions tr + 2 * closings tr ∧
    (∃ tr' s', machine.exec s tr' = some s' ∧ Own tr' ∧ s'.Settled) ∧
    ∀ tr' s', machine.exec s tr' = some s' → Own tr' →
      tr.length + tr'.length ≤ 5 * deliveries tr + 2 * completions tr + 2 * closings tr ∧
      (ranked.Quiescent s' ↔ s'.Settled) := by
  refine ⟨ranked_budget tr ▸ ranked.length_le h, ?_, fun tr' s' hex hown => ⟨?_, ?_⟩⟩
  · obtain ⟨tr', s', hex, hown, hq⟩ := ranked.settles h
    exact ⟨tr', s', hex, hown, settled_of_quiescent (inv_own h hd hex hown) hq⟩
  · exact ranked_budget tr ▸ ranked.continuation_le h hex hown
  · exact quiescent_iff (inv_own h hd hex hown)

/-- **After `close()` every invocation returns.** Once the critical section of a `close()` has run,
    wherever the session's own steps come to rest, every invocation that has started has returned,
    the map is empty and no `complete_message` call holds a sender. -/
theorem close_returns_all {k : Nat} (h : machine.Run tr s) (hd : deliveries tr ≤ u64Size)
    (hk : .closeDrain k ∈ tr) :
    (∃ tr' s', machine.exec s tr' = some s' ∧ Own tr' ∧ ranked.Quiescent s') ∧
    ∀ tr' s', machine.exec s tr' = some s' → Own tr' →
      tr.length + tr'.length ≤ 5 * deliveries tr + 2 * completions tr + 2 * closings tr ∧
      (ranked.Quiescent s' → s'.pending.senders = ∅ ∧
        (∀ i, s'.onMessage i = .idle ∨ ∃ n r, s'.onMessage i = .returned n r) ∧
        ∀ c x e j, s'.complete c ≠ .sending x e j) := by
  refine ⟨ranked.settles h, fun tr' s' hex hown =>
    ⟨ranked_budget tr ▸ ranked.continuation_le h hex hown, fun hq => ?_⟩⟩
  have hset := settled_of_quiescent (inv_own h hd hex hown) hq
  have hempty : s'.pending.senders = ∅ := (shut_exec (shut_of_closeDrain h hk) hex).empty
  refine ⟨hempty, fun i => ?_, fun c x e j hc => ?_⟩
  · rcases hset.onMessage i with hi | hi | ⟨n, hi⟩
    · exact Or.inl hi
    · exact Or.inr hi
    · -- it would wait with its sender in a map that is empty
      have hl := (hset.entry n i).mpr hi
      rw [hempty, AList.lookup_empty] at hl
      cases hl
  · rcases hset.complete c with hi | hi <;> rw [hc] at hi <;> cases hi

end Rest

/-- Two deliveries: JavaScript has the first one, the second is about to be offered. -/
def twoDeliveries : List Action :=
  [.fetchAdd 0 sampleMessage, .insert 0, .call 0 .ok, .fetchAdd 1 sampleMessage, .insert 1]

theorem session_progress_two : ∃ s, machine.Run twoDeliveries s ∧
    twoDeliveries.length ≤ 5 * deliveries twoDeliveries + 2 * completions twoDeliveries +
      2 * closings twoDeliveries ∧
    (∃ tr' s', machine.exec s tr' = some s' ∧ Own tr' ∧ s'.Settled) ∧
    ∀ tr' s', machine.exec s tr' = some s' → Own tr' →
      twoDeliveries.length + tr'.length ≤ 5 * deliveries twoDeliveries +
        2 * completions twoDeliveries + 2 * closings twoDeliveries ∧
      (ranked.Quiescent s' ↔ s'.Settled) := by
  obtain ⟨s, hs, -⟩ := machine.exists_run twoDeliveries (fun _ => true) (by decide)
  exact ⟨s, hs, session_progress hs (by decide)⟩

theorem close_returns_all_two :
    ∃ s, machine.Run (twoDeliveries ++ [.innerClose 0, .closeDrain 0]) s ∧
      ∃ tr' s', machine.exec s tr' = some s' ∧ Own tr' ∧ ranked.Quiescent s' := by
  obtain ⟨s, hs, -⟩ := machine.exists_run (twoDeliveries ++ [.innerClose 0, .closeDrain 0])
    (fun _ => true) (by decide)
  exact ⟨s, hs, (close_returns_all (k := 0) hs (by decide) (by decide)).1⟩

end TrueSealSync.Native
