/-
  File:      TrueSealSync/Native/Origin.lean
  Subject:   WHERE A RESULT COMES FROM: every result an invocation of `on_message` has is traced
             back to the event of the run that decided it.

  There are four such events, one for each way through the source:

  * `Took tr i c x e` -- call `c` of `complete_message` (with the number `x` and the error `e`)
    removed the sender of `i`;
  * `Drained tr i` -- the critical section of a `close()` found the sender of `i` in the map while
    the result of `i` was open;
  * `Abandoned tr i` -- `i` reached the closed check after that critical section;
  * `Called tr i (.other debug)` -- its `tsfn.call` answered the status `debug`.

  `Origin tr s` says which of them lies behind each sender in use, each filled cell, each settled
  and each returned result; `origin_step` and `origin_run` are its step and run lemmas. Order in
  time is a matter of positions: an invocation only moves forward (`move_step`, `rank_step`), it
  keeps its ack id (`drawn_stable`), and a returned result stays (`returned_stable`).
-/
import TrueSealSync.Native.Invariant

namespace TrueSealSync.Native

open TrueSealSync.Lib

/-! ## 1. Positions only move forward -/

/-- How far an invocation is. -/
def OnMessage.rank : OnMessage → Nat
  | .idle => 0
  | .fetched _ _ => 1
  | .inserted _ _ => 2
  | .awaiting _ => 3
  | .settled _ _ => 4
  | .returned _ _ => 5

/-- The sender is in the map or out, and no result is computed yet. -/
def OnMessage.undecided : OnMessage → Bool
  | .inserted _ _ | .awaiting _ => true
  | .idle | .fetched _ _ | .settled _ _ | .returned _ _ => false

/-- The moves of one invocation, in the order of the source; the flag decides at the check. -/
inductive OnMessage.Move (closed : Bool) : OnMessage → OnMessage → Prop where
  | fetchAdd (n : Nat) (message : TrueSealMessage) : Move closed .idle (.fetched n message)
  | abandon (n : Nat) (message : TrueSealMessage) (hc : closed = true) :
      Move closed (.fetched n message) (.returned n (.ok ()))
  | insert (n : Nat) (message : TrueSealMessage) (hc : closed = false) :
      Move closed (.fetched n message) (.inserted n message)
  | dispatch (n : Nat) (message : TrueSealMessage) : Move closed (.inserted n message) (.awaiting n)
  | refuse (n : Nat) (message : TrueSealMessage) (r : AckResult) :
      Move closed (.inserted n message) (.settled n r)
  | recv (n : Nat) (r : AckResult) : Move closed (.awaiting n) (.settled n r)
  | finish (n : Nat) (r : AckResult) :
      Move closed (.settled n r) (.returned n (handlerResult r))

section Positions

variable {s s' : State} {a : Action}

/-- **A step leaves an invocation where it is, or takes it one move further.** -/
theorem move_step (h : Step s a s') (i : Nat) :
    s'.onMessage i = s.onMessage i ∨
      OnMessage.Move s.pending.closed (s.onMessage i) (s'.onMessage i) := by
  cases h with
  | fetchAdd j message hp =>
      by_cases hi : i = j
      · exact Or.inr (by simp [hi, hp, OnMessage.Move.fetchAdd])
      · exact Or.inl (by simp [hi])
  | abandon j n message hp hc =>
      by_cases hi : i = j
      · exact Or.inr (by simp [hi, hp, hc, OnMessage.Move.abandon])
      · exact Or.inl (by simp [hi])
  | insert j n message hp hc =>
      by_cases hi : i = j
      · exact Or.inr (by simp [hi, hp, hc, OnMessage.Move.insert])
      · exact Or.inl (by simp [hi])
  | dispatch j n message hp =>
      by_cases hi : i = j
      · exact Or.inr (by simp [hi, hp, OnMessage.Move.dispatch])
      · exact Or.inl (by simp [hi])
  | refuse j n message debug hp =>
      by_cases hi : i = j
      · exact Or.inr (by simp [hi, hp, OnMessage.Move.refuse])
      · exact Or.inl (by simp [hi])
  | recv j n r hp hr =>
      by_cases hi : i = j
      · exact Or.inr (by simp [hi, hp, OnMessage.Move.recv])
      · exact Or.inl (by simp [hi])
  | recvDropped j n hp hr =>
      by_cases hi : i = j
      · exact Or.inr (by simp [hi, hp, OnMessage.Move.recv])
      · exact Or.inl (by simp [hi])
  | finish j n r hp =>
      by_cases hi : i = j
      · exact Or.inr (by simp [hi, hp, OnMessage.Move.finish])
      · exact Or.inl (by simp [hi])
  | take => exact Or.inl rfl
  | miss => exact Or.inl rfl
  | sendOutcome => exact Or.inl rfl
  | innerClose => exact Or.inl rfl
  | closeDrain => exact Or.inl rfl

/-- A step moves no invocation back. -/
theorem rank_step (h : Step s a s') (i : Nat) : (s.onMessage i).rank ≤ (s'.onMessage i).rank := by
  rcases move_step h i with he | hm
  · rw [he]
  · generalize s.onMessage i = p at hm ⊢
    generalize s'.onMessage i = q at hm ⊢
    cases hm <;> simp [OnMessage.rank]

theorem rank_stable {tr : List Action} {i k : Nat} (h : machine.exec s tr = some s')
    (hk : k ≤ (s.onMessage i).rank) : k ≤ (s'.onMessage i).rank :=
  machine.exec_stable (P := fun s => k ≤ (s.onMessage i).rank)
    (fun _ _ _ ht hs => Nat.le_trans ht (rank_step (step_cases hs) i)) h hk

/-- A returned result stays as it is. -/
theorem returned_stable {tr : List Action} {i n : Nat} {r : Except HandlerError Unit}
    (h : machine.exec s tr = some s') (hr : s.onMessage i = .returned n r) :
    s'.onMessage i = .returned n r := by
  refine machine.exec_stable (P := fun s => s.onMessage i = .returned n r)
    (fun t b t' ht hs => ?_) h hr
  rcases move_step (step_cases hs) i with he | hm
  · rw [he, ht]
  · rw [ht] at hm
    cases hm

/-- A computed result is the one that is returned. -/
theorem settled_stable {tr : List Action} {i n : Nat} {r : AckResult}
    (h : machine.exec s tr = some s') (hr : s.onMessage i = .settled n r) :
    s'.onMessage i = .settled n r ∨ s'.onMessage i = .returned n (handlerResult r) := by
  refine machine.exec_stable
    (P := fun s => s.onMessage i = .settled n r ∨ s.onMessage i = .returned n (handlerResult r))
    (fun t b t' ht hs => ?_) h (Or.inl hr)
  rcases move_step (step_cases hs) i with he | hm
  · rwa [he]
  · rcases ht with ht | ht
    · rw [ht] at hm
      generalize hq : t'.onMessage i = q at hm
      cases hm with
      | finish => exact Or.inr rfl
    · rw [ht] at hm
      cases hm

/-- An invocation keeps the ack id it has drawn. -/
theorem drawn_stable {tr : List Action} {i n : Nat} (h : machine.exec s tr = some s')
    (hn : (s.onMessage i).drawn = some n) : (s'.onMessage i).drawn = some n := by
  refine machine.exec_stable (P := fun s => (s.onMessage i).drawn = some n)
    (fun t b t' ht hs => ?_) h hn
  rcases move_step (step_cases hs) i with he | hm
  · rw [he, ht]
  · generalize t.onMessage i = p at hm ht
    generalize t'.onMessage i = q at hm ⊢
    cases hm <;> first | exact ht | cases ht

end Positions

/-! ## 2. The events that decide a result -/

section Events

variable (tr : List Action) (i : Nat)

/-- Call `c` of `complete_message`, with the number `x` and the error `e`, removed the sender
    of `i`. -/
def Took (c : Nat) (x : Binary64) (e : Option String) : Prop :=
  ∃ s, machine.Fires tr s (.completeRemove c x e) ∧ s.pending.senders.lookup x.toU64 = some i

/-- The critical section of a `close()` found the sender of `i` while its result was open. -/
def Drained : Prop :=
  ∃ s k, machine.Fires tr s (.closeDrain k) ∧ i ∈ s.pending.waiting ∧
    (s.onMessage i).undecided = true

/-- `i` found `closed` set at its check. -/
def Abandoned : Prop := ∃ s, machine.Fires tr s (.insert i) ∧ s.pending.closed = true

/-- The `tsfn.call` of `i` answered `status`. -/
def Called (status : Status) : Prop := ∃ s, machine.Fires tr s (.call i status)

/-- Where a value in the cell of `i` comes from. -/
inductive Answered : AckResult → Prop where
  | completed (c : Nat) (x : Binary64) (e : Option String) (h : Took tr i c x e) :
      Answered (outcome e)
  | drained (h : Drained tr i) : Answered (.ok ())

/-- Where a computed result of `i` comes from. -/
inductive Decided : AckResult → Prop where
  | answered (r : AckResult) (hc : Called tr i .ok) (h : Answered tr i r) : Decided r
  | refused (debug : String) (h : Called tr i (.other debug)) :
      Decided (.error (dispatchFailed debug))

/-- Where a returned result of `i` comes from. -/
inductive Returned : Except HandlerError Unit → Prop where
  | abandoned (h : Abandoned tr i) : Returned (.ok ())
  | decided (r : AckResult) (h : Decided tr i r) : Returned (handlerResult r)

/-- The origin of what invocation `i` has, at its position and with its cell. -/
def OriginAt (cell : Oneshot AckResult) : OnMessage → Prop
  | .idle | .fetched _ _ => True
  | .inserted _ _ => ∀ r, cell = .sent r → Answered tr i r
  | .awaiting _ => Called tr i .ok ∧ ∀ r, cell = .sent r → Answered tr i r
  | .settled _ r => Decided tr i r
  | .returned _ r => Returned tr i r

end Events

/-- **The origins after the run `tr`**: of every sender in use and of every result. -/
structure Origin (tr : List Action) (s : State) : Prop where
  sending : ∀ c x e i, s.complete c = .sending x e i → Took tr i c x e
  result : ∀ i, OriginAt tr i (s.cells i) (s.onMessage i)

/-! ## 3. Events stay -/

section Mono

variable {tr : List Action} {i : Nat} (tr' : List Action)

theorem Took.mono {c : Nat} {x : Binary64} {e : Option String} (h : Took tr i c x e) :
    Took (tr ++ tr') i c x e := by
  obtain ⟨s, hf, hl⟩ := h
  exact ⟨s, hf.mono tr', hl⟩

theorem Drained.mono (h : Drained tr i) : Drained (tr ++ tr') i := by
  obtain ⟨s, k, hf, hw, hu⟩ := h
  exact ⟨s, k, hf.mono tr', hw, hu⟩

theorem Abandoned.mono (h : Abandoned tr i) : Abandoned (tr ++ tr') i := by
  obtain ⟨s, hf, hc⟩ := h
  exact ⟨s, hf.mono tr', hc⟩

theorem Called.mono {status : Status} (h : Called tr i status) : Called (tr ++ tr') i status := by
  obtain ⟨s, hf⟩ := h
  exact ⟨s, hf.mono tr'⟩

theorem Answered.mono {r : AckResult} (h : Answered tr i r) : Answered (tr ++ tr') i r := by
  cases h with
  | completed c x e h => exact .completed c x e (h.mono tr')
  | drained h => exact .drained (h.mono tr')

theorem Decided.mono {r : AckResult} (h : Decided tr i r) : Decided (tr ++ tr') i r := by
  cases h with
  | answered _ hc h => exact .answered r (hc.mono tr') (h.mono tr')
  | refused debug h => exact .refused debug (h.mono tr')

theorem Returned.mono {r : Except HandlerError Unit} (h : Returned tr i r) :
    Returned (tr ++ tr') i r := by
  cases h with
  | abandoned h => exact .abandoned (h.mono tr')
  | decided r h => exact .decided r (h.mono tr')

theorem OriginAt.mono {cell : Oneshot AckResult} {p : OnMessage} (h : OriginAt tr i cell p) :
    OriginAt (tr ++ tr') i cell p := by
  cases p with
  | idle => trivial
  | fetched => trivial
  | inserted => exact fun r hr => Answered.mono tr' (h r hr)
  | awaiting => exact ⟨Called.mono tr' h.1, fun r hr => Answered.mono tr' (h.2 r hr)⟩
  | settled => exact Decided.mono tr' h
  | returned => exact Returned.mono tr' h

theorem Origin.mono {s : State} (h : Origin tr s) : Origin (tr ++ tr') s where
  sending c x e i hc := (h.sending c x e i hc).mono tr'
  result i := (h.result i).mono tr'

end Mono

/-! ## 4. The step and the run lemma -/

section Steps

variable {d : Nat} {tr : List Action} {s : State}

/-- **No invocation in flight loses its sender.** -/
theorem Inv.cells_ne_dropped (h : Inv d s) {i n : Nat} (hi : (s.onMessage i).slot = some n) :
    s.cells i ≠ .dropped := by
  rcases h.placed i n hi with hl | ⟨c, x, e, hc⟩ | ⟨r, hr⟩
  · rw [(h.mapped n i hl).2]; nofun
  · rw [(h.held c x e i hc).2.2.1]; nofun
  · rw [hr]; nofun

/-- One invocation moves, the cells of the others and the senders in use stay. -/
theorem Origin.of_move {s' : State} {i : Nat} (h : Origin tr s) (hc : s'.complete = s.complete)
    (hcells : ∀ j, j ≠ i → s'.cells j = s.cells j)
    (hpos : ∀ j, j ≠ i → s'.onMessage j = s.onMessage j)
    (hi : OriginAt tr i (s'.cells i) (s'.onMessage i)) : Origin tr s' where
  sending := hc ▸ h.sending
  result j := by
    by_cases hj : j = i
    · exact hj ▸ hi
    · rw [hcells j hj, hpos j hj]
      exact h.result j

/-- The cell of an invocation is filled: while its result is open the value has to come from
    somewhere, afterwards the cell is not looked at. -/
theorem OriginAt.fill {i : Nat} {cell value : Oneshot AckResult} {p : OnMessage}
    (h : OriginAt tr i cell p)
    (hans : p.undecided = true → ∀ r, value = .sent r → Answered tr i r) :
    OriginAt tr i value p := by
  cases p with
  | idle => trivial
  | fetched => trivial
  | inserted => exact hans rfl
  | awaiting => exact ⟨h.1, hans rfl⟩
  | settled => exact h
  | returned => exact h

/-- A `complete_message` call sends: the value comes from the call that took the sender. -/
theorem origin_sendOutcome {c j : Nat} {x : Binary64} {e : Option String} (h : Origin tr s)
    (hp : s.complete c = .sending x e j) : Origin tr (s.sendOutcome c e j) where
  sending c' x' e' k hc' := by
    simp only [State.sendOutcome_complete] at hc'
    split at hc'
    · cases hc'
    · exact h.sending c' x' e' k hc'
  result i := by
    show OriginAt tr i ((s.sendOutcome c e j).cells i) (s.onMessage i)
    simp only [State.sendOutcome_cells]
    split
    · rename_i hij
      subst hij
      refine (h.result i).fill fun _ r hr => ?_
      cases hr
      exact .completed c x e (h.sending c x e i hp)
    · exact h.result i

/-- The critical section of a `close()` sends to every sender in the map. -/
theorem origin_closeDrain {k : Nat} (hr : machine.Run tr s) (h : Origin tr s) :
    Origin (tr ++ [.closeDrain k]) (s.closeDrain k) where
  sending := (h.mono [.closeDrain k]).sending
  result i := by
    have hi := (h.mono [.closeDrain k]).result i
    show OriginAt _ i (Oneshot.sendAll s.cells s.pending.waiting (.ok ()) i) (s.onMessage i)
    rw [drained_cells]
    split
    · rename_i hw
      refine hi.fill fun hu r hsent => ?_
      cases hsent
      exact .drained ⟨s, k, System.Fires.last hr, hw, hu⟩
    · exact hi

/-- **One step keeps the origins.** -/
theorem origin_step {a : Action} {s' : State} (hr : machine.Run tr s) (hI : Inv d s)
    (h : Origin tr s) (hs : Step s a s') : Origin (tr ++ [a]) s' := by
  have h' := h.mono [a]
  cases hs with
  | fetchAdd i message hp =>
      refine h'.of_move rfl (fun _ _ => rfl) (i := i) (fun j hj => by simp [hj]) ?_
      simp only [State.fetchAdd_onMessage, if_true]
      trivial
  | abandon i n message hp hc =>
      refine h'.of_move rfl (fun j => Oneshot.drop_ne s.cells) (fun j hj => by simp [hj]) ?_
      simp only [State.abandon_onMessage, if_true]
      exact .abandoned ⟨s, System.Fires.last hr, hc⟩
  | insert i n message hp hc =>
      have hfree := hI.lookup_fetched hp
      have hcell : (s.insert i n message).cells = s.cells := by
        show dropSender s.cells (s.pending.senders.lookup n) = s.cells
        rw [hfree]
        rfl
      refine h'.of_move rfl (fun j _ => congrFun hcell j) (i := i) (fun j hj => by simp [hj]) ?_
      simp only [State.insert_onMessage, if_true, hcell]
      -- the cell of an invocation that was early is empty
      intro r he
      rw [hI.early i (by rw [hp]; rfl)] at he
      cases he
  | dispatch i n message hp =>
      refine h'.of_move rfl (fun _ _ => rfl) (i := i) (fun j hj => by simp [hj]) ?_
      have hi : OriginAt (tr ++ [.call i .ok]) i (s.cells i) (.inserted n message) :=
        hp ▸ h'.result i
      simp only [State.dispatch_onMessage, if_true]
      exact ⟨⟨s, System.Fires.last hr⟩, hi⟩
  | refuse i n message debug hp =>
      refine h'.of_move rfl (fun _ _ => rfl) (i := i) (fun j hj => by simp [hj]) ?_
      simp only [State.setOnMessage_onMessage, if_true]
      exact .refused debug ⟨s, System.Fires.last hr⟩
  | recv i n r hp hcell =>
      refine h'.of_move rfl (fun _ _ => rfl) (i := i) (fun j hj => by simp [hj]) ?_
      have hi : OriginAt (tr ++ [.recv i]) i (s.cells i) (.awaiting n) := hp ▸ h'.result i
      simp only [State.setOnMessage_onMessage, if_true]
      exact .answered r hi.1 (hi.2 r hcell)
  | recvDropped i n hp hcell =>
      exact absurd hcell (hI.cells_ne_dropped (n := n) (by rw [hp]; rfl))
  | finish i n r hp =>
      refine h'.of_move rfl (fun j => hI.finish_cells (by rw [hp]; rfl))
        (fun j hj => by simp [hj]) ?_
      have hi : OriginAt (tr ++ [.remove i]) i (s.cells i) (.settled n r) := hp ▸ h'.result i
      simp only [State.finish_onMessage, if_true]
      exact .decided r hi
  | take c x e j hp hl =>
      refine ⟨fun c' x' e' k hc' => ?_, h'.result⟩
      simp only [State.take_complete] at hc'
      split at hc'
      · rename_i he
        cases hc'
        exact he ▸ ⟨s, System.Fires.last hr, hl⟩
      · exact h'.sending c' x' e' k hc'
  | miss c x e hp hl =>
      refine ⟨fun c' x' e' k hc' => ?_, h'.result⟩
      simp only [State.setComplete_complete] at hc'
      split at hc'
      · cases hc'
      · exact h'.sending c' x' e' k hc'
  | sendOutcome c x e j hp => exact origin_sendOutcome h' hp
  | innerClose k hp => exact ⟨h'.sending, h'.result⟩
  | closeDrain k hp => exact origin_closeDrain hr h

theorem origin_init : Origin [] ({} : State) where
  sending _ _ _ _ h := by cases h
  result _ := trivial

/-- **The origins at the end of every run with at most `2^64` deliveries.** -/
theorem origin_run (h : machine.Run tr s) (hd : deliveries tr ≤ u64Size) : Origin tr s := by
  induction h using System.Run.induct with
  | start => exact origin_init
  | snoc tr s a s' h hs ih =>
      rw [deliveries_append] at hd
      have hd' : deliveries tr ≤ u64Size := by omega
      exact origin_step h (inv_run h hd') (ih hd') (step_cases hs)

end Steps

/-- The shutdown flag is set by an `inner.close()` of the run. -/
theorem innerClose_of_innerClosed {tr : List Action} {s : State} (h : machine.Run tr s)
    (hc : s.innerClosed = true) : ∃ k, .innerClose k ∈ tr := by
  induction h using System.Run.induct with
  | start => cases hc
  | snoc tr s a s' h hs ih =>
      cases step_cases hs with
      | innerClose k => exact ⟨k, by simp⟩
      | _ =>
          obtain ⟨k, hk⟩ := ih hc
          exact ⟨k, List.mem_append_left _ hk⟩

/-! ## 5. The id of a completion -/

section Ids

variable {tr : List Action} {s : State} {i n c : Nat} {x : Binary64} {e : Option String}

/-- The invariant held wherever the run went through. -/
theorem inv_passes (hd : deliveries tr ≤ u64Size) (h : machine.Passes tr s) : ∃ d, Inv d s := by
  obtain ⟨pre, post, rfl, hr⟩ := h
  exact ⟨_, inv_before hr hd⟩

/-- An ack id in use is below the number of deliveries. -/
theorem drawn_lt (h : machine.Run tr s) (hd : deliveries tr ≤ u64Size)
    (hn : (s.onMessage i).drawn = some n) : n < deliveries tr :=
  (inv_run h hd).issued i n hn

/-- **The call that took the sender of `i` named the ack id of `i`.** -/
theorem Took.ackId (h : machine.Run tr s) (hd : deliveries tr ≤ u64Size) (ht : Took tr i c x e)
    (hn : (s.onMessage i).drawn = some n) : x.toU64 = n := by
  obtain ⟨s₀, hf, hl⟩ := ht
  obtain ⟨d, hI⟩ := inv_passes hd hf.passes
  obtain ⟨post, hex⟩ := h.after_passes hf.passes
  have h0 := drawn_stable hex (drawn_of_slot (hI.mapped x.toU64 i hl).1)
  exact Option.some.inj (h0.symm.trans hn)

/-- The number of that call is the ack id itself where it is a natural number. -/
theorem Took.exactId (h : machine.Run tr s) (hd : deliveries tr < 2 ^ 53) (ht : Took tr i c x e)
    (hn : (s.onMessage i).drawn = some n) :
    x.toU64 = n ∧ ∀ m : Nat, x.value = some (m : ℚ) → m = n := by
  have hx := ht.ackId h (by unfold u64Size; omega) hn
  refine ⟨hx, fun m hm => ?_⟩
  -- an id in use is below the number of deliveries, so the cast was not cut off
  have hlt := drawn_lt h (by unfold u64Size; omega) hn
  rw [Binary64.value_eq_toU64 hm (by unfold u64Size; omega), hx]

end Ids

end TrueSealSync.Native
