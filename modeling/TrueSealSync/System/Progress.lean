/-
  File:      TrueSealSync/System/Progress.lean
  Subject:   THE TWO THREADS COME TO REST: no deadlock, no livelock, and who is still waited for.

  The bridge does some things by itself: the core threads take their deliveries further, calls of
  `complete_message` and `close()` that are under way go on, and the JavaScript thread runs its
  queue. What comes from outside is counted by the budget of a run: deliveries come in, handlers
  settle, and JavaScript calls `close()` and `cancel()`.

  * `accounts` -- what a run is made of: steps of the session's parties, handlers that are started,
    and closings JavaScript has come back from;
  * `resting_iff` -- nothing is left to do but what comes from outside exactly where the JavaScript
    thread is in no `close()`, its queue is empty and the session is at rest;
  * `bridge_progress` -- every run can be continued to such a state, and every continuation by own
    steps ends within the budget of the run;
  * `waits_for_handler` -- there an invocation of `on_message` waits exactly if its own handler was
    started and has not settled, and there was no closing.
-/
import Mathlib.Data.Fintype.EquivFin
import TrueSealSync.Native.Progress
import TrueSealSync.System.Bridge

namespace TrueSealSync.System

open TrueSealSync.Lib
open TrueSealSync.Native (TrueSealMessage MessageDelivery AckResult HandlerError)
open TrueSealSync.Sdk (handlerArgument)

/-! ## 1. What comes from outside -/

/-- The actions that come from outside: a delivery comes in, JavaScript calls `close` or `cancel`,
    and a handler settles. -/
def BridgeAction.starts : BridgeAction → Bool
  | .session (.native a) => a.starts
  | .session .pop | .session .closeReturn => false
  | .session .cancel => true
  | .settle _ _ _ => true

def settlements (tr : List BridgeAction) : Nat :=
  tr.countP fun
    | .settle _ _ _ => true
    | _ => false

def closings (tr : List BridgeAction) : Nat :=
  tr.countP fun
    | .session (.native (.innerClose _)) => true
    | _ => false

def cancels (tr : List BridgeAction) : Nat :=
  tr.countP fun
    | .session .cancel => true
    | _ => false

/-- **The budget of a run**: five steps and the start of a handler for a delivery, two steps for a
    settlement, three for a closing and one for a cancellation. -/
def budget (tr : List BridgeAction) : Nat :=
  6 * incoming tr + 2 * settlements tr + 3 * closings tr + cancels tr

/-- The steps the system takes by itself. -/
def OwnSteps (tr : List BridgeAction) : Prop := ∀ b ∈ tr, b.starts = false

/-! ## 2. What a run is made of -/

section Accounts

variable {s s' : State} {b : BridgeAction} {tr : List BridgeAction}

/-- Where the JavaScript thread is after an action. -/
def closingAfter (closing : Option Nat) : BridgeAction → Option Nat
  | .session (.native (.innerClose k)) => some k
  | .session .closeReturn => none
  | _ => closing

/-- What a step says about the `close()` the JavaScript thread is inside of. -/
structure ClosingMoves (s s' : State) (b : BridgeAction) : Prop where
  after : s'.closing = closingAfter s.closing b
  enter : ∀ k, b = .session (.native (.innerClose k)) → s.closing = none
  drain : ∀ k, b = .session (.native (.closeDrain k)) → s.closing = some k
  leave : b = .session .closeReturn → ∃ k, s.closing = some k ∧ s.native.close k = .done

/-- The steps of `close()`. -/
def BridgeAction.closes : BridgeAction → Bool
  | .session (.native (.innerClose _)) | .session (.native (.closeDrain _)) => true
  | .session .closeReturn => true
  | _ => false

theorem closingMoves_keep (h : s'.closing = s.closing) (hb : b.closes = false) :
    ClosingMoves s s' b where
  after := by
    rw [h]
    unfold closingAfter
    split <;> first
      | rfl
      | cases hb
  enter k he := by
    rw [he] at hb
    cases hb
  drain k he := by
    rw [he] at hb
    cases hb
  leave he := by
    rw [he] at hb
    cases hb

theorem closing_step (h : bridge.step s b = some s') : ClosingMoves s s' b := by
  have hact : ∀ {a : Native.Action} {closing : Option Nat}, s.act a closing = some s' →
      s'.closing = closing := fun ha => by
    obtain ⟨native, -, rfl⟩ := Option.map_eq_some_iff.mp ha
    rfl
  change s.bridgeStep b = some s' at h
  cases b with
  | settle q c error =>
      simp only [State.bridgeStep] at h
      split at h
      · obtain ⟨-, h⟩ := Option.ite_none_right_eq_some.mp h
        obtain ⟨hc, h⟩ := Option.ite_none_right_eq_some.mp h
        exact closingMoves_keep ((hact h).trans hc.symm) rfl
      · cases h
  | session a =>
      obtain ⟨hno, h⟩ := Option.ite_none_left_eq_some.mp h
      cases a with
      | native a =>
          cases a with
          | fetchAdd | insert | call | recv | remove => exact closingMoves_keep (hact h) rfl
          | completeRemove => exact absurd rfl hno
          | completeSend =>
              obtain ⟨hc, h⟩ := Option.ite_none_right_eq_some.mp h
              exact closingMoves_keep ((hact h).trans hc.symm) rfl
          | innerClose k =>
              obtain ⟨hc, h⟩ := Option.ite_none_right_eq_some.mp h
              refine ⟨hact h, fun _ _ => hc, fun j he => ?_, fun he => ?_⟩ <;> cases he
          | closeDrain k =>
              obtain ⟨hc, h⟩ := Option.ite_none_right_eq_some.mp h
              refine ⟨(hact h).trans hc.symm, fun j he => ?_, fun j he => ?_, fun he => ?_⟩ <;>
                cases he
              exact hc
      | pop =>
          obtain ⟨-, h⟩ := Option.ite_none_right_eq_some.mp h
          obtain ⟨delivery, -, rfl⟩ := Option.map_eq_some_iff.mp h
          exact closingMoves_keep rfl rfl
      | closeReturn =>
          simp only [State.step] at h
          split at h
          · rename_i k hc
            obtain ⟨hd, h⟩ := Option.ite_none_right_eq_some.mp h
            cases h
            refine ⟨rfl, fun j he => ?_, fun j he => ?_, fun _ => ⟨k, hc, hd⟩⟩ <;> cases he
          · cases h
      | cancel =>
          obtain ⟨-, h⟩ := Option.ite_none_right_eq_some.mp h
          cases h
          exact closingMoves_keep rfl rfl

/-- The JavaScript thread is in one `close()` at most: the one that is under way. -/
structure State.Inside (s : State) : Prop where
  underWay : ∀ k, s.native.close k = .innerClosed → s.closing = some k
  entered : ∀ k, s.closing = some k → s.native.close k ≠ .idle

/-- An action of the session moves a `close()` only where it is an action of that `close()`. -/
theorem close_frame {n n' : Native.State} {a : Native.Action} {k : Nat}
    (h : Native.machine.step n a = some n') (ha : a.party ≠ .closing k) :
    n'.close k = n.close k := by
  cases Native.step_cases h with
  | innerClose j hp =>
      have hne : k ≠ j := fun he => ha (by rw [he]; rfl)
      simp [Native.State.innerClose, hne]
  | closeDrain j hp =>
      have hne : k ≠ j := fun he => ha (by rw [he]; rfl)
      simp [Native.State.closeDrain, hne]
  | _ => rfl

/-- Where a `close()` is after its own action. -/
theorem close_own {n n' : Native.State} {k : Nat} :
    (Native.machine.step n (.innerClose k) = some n' → n'.close k = .innerClosed) ∧
      (Native.machine.step n (.closeDrain k) = some n' → n'.close k = .done) := by
  refine ⟨fun h => ?_, fun h => ?_⟩
  · cases Native.step_cases h with
    | innerClose _ hp => simp [Native.State.innerClose]
  · cases Native.step_cases h with
    | closeDrain _ hp => simp [Native.State.closeDrain]

theorem inside_step (h : s.Inside) (hs : bridge.step s b = some s') : s'.Inside := by
  have hm := closing_step hs
  -- an action that is no closing's leaves the closings and the thread where they are
  have hkeep : s'.closing = s.closing → (∀ k, s'.native.close k = s.native.close k) → s'.Inside :=
    fun hc hclose => ⟨fun k hk => hc ▸ h.underWay k (hclose k ▸ hk),
      fun k hk => hclose k ▸ h.entered k (hc ▸ hk)⟩
  cases bridge_cases hs with
  | pop delivery hq => exact hkeep rfl fun _ => rfl
  | cancel => exact hkeep rfl fun _ => rfl
  | settle q c error delivery native closing hq hlt hn =>
      exact hkeep hm.after fun k => close_frame hn nofun
  | closeReturn =>
      obtain ⟨k, hc, hd⟩ := hm.leave rfl
      refine ⟨fun j hj => ?_, nofun⟩
      obtain rfl : k = j := Option.some.inj (hc.symm.trans (h.underWay j hj))
      exact absurd (hd.symm.trans hj) nofun
  | native a native closing ha hn =>
      by_cases hparty : ∃ k, a.party = .closing k
      · obtain ⟨k, hk⟩ := hparty
        have hother : ∀ j, j ≠ k → native.close j = s.native.close j := fun j hj =>
          close_frame hn fun he => hj (by rw [hk] at he; cases he; rfl)
        cases a with
        | innerClose k' =>
            cases hk
            have hnone := hm.enter k rfl
            have hafter : closing = some k := hm.after
            refine ⟨fun j hj => ?_, fun j hj => ?_⟩
            · by_cases hjk : j = k
              · rw [hjk]
                exact hafter
              · have := h.underWay j (hother j hjk ▸ hj)
                rw [hnone] at this
                cases this
            · obtain rfl : k = j := Option.some.inj (hafter.symm.trans hj)
              have := close_own.1 hn
              show native.close k ≠ .idle
              rw [this]
              exact nofun
        | closeDrain k' =>
            cases hk
            have hin := hm.drain k rfl
            have hafter : closing = s.closing := hm.after
            have hdone := close_own.2 hn
            refine ⟨fun j hj => ?_, fun j hj => ?_⟩
            · have hjk : j ≠ k := fun he => by
                subst he
                exact absurd (hdone.symm.trans hj) nofun
              exact hafter.trans (h.underWay j (hother j hjk ▸ hj))
            · obtain rfl : k = j := Option.some.inj ((hafter.trans hin).symm.trans hj)
              show native.close k ≠ .idle
              rw [hdone]
              exact nofun
        | _ => cases hk
      · have hne : ∀ k, a.party ≠ .closing k := fun k he => hparty ⟨k, he⟩
        refine hkeep ?_ fun k => close_frame hn (hne k)
        refine hm.after.trans ?_
        cases a with
        | innerClose k => exact absurd rfl (hne k)
        | _ => rfl

theorem inside_run (h : bridge.Run tr s) : s.Inside := by
  induction h using System.Run.induct with
  | start => exact ⟨nofun, nofun⟩
  | snoc tr s b s' _ hs ih => exact inside_step ih hs

/-- Counters of a run with one more action. -/
theorem counts_snoc (tr : List BridgeAction) (b : BridgeAction) :
    incoming (tr ++ [b]) = incoming tr + incoming [b] ∧
      settlements (tr ++ [b]) = settlements tr + settlements [b] ∧
      closings (tr ++ [b]) = closings tr + closings [b] ∧
      cancels (tr ++ [b]) = cancels tr + cancels [b] :=
  ⟨List.countP_append, List.countP_append, List.countP_append, List.countP_append⟩

theorem completions_snoc (ntr : List Native.Action) (a : Native.Action) :
    Native.completions (ntr ++ [a]) = Native.completions ntr + Native.completions [a] ∧
      Native.closings (ntr ++ [a]) = Native.closings ntr + Native.closings [a] :=
  ⟨List.countP_append, List.countP_append⟩

/-- **What a run is made of**: the steps of the session's parties, the handlers that are started,
    the closings JavaScript has come back from, and the cancellations. -/
theorem accounts (h : bridge.Run tr s) : ∃ ntr, Native.machine.Run ntr s.native ∧
    Native.deliveries ntr = incoming tr ∧ Native.completions ntr = settlements tr ∧
    Native.closings ntr = closings tr ∧
    tr.length + (if s.closing.isSome then 1 else 0) =
      ntr.length + s.popped + closings tr + cancels tr := by
  induction h using System.Run.induct with
  | start => exact ⟨[], System.Run.start, rfl, rfl, rfl, rfl⟩
  | snoc tr s b s' h hs ih =>
      obtain ⟨ntr, hrun, hd, hc, hk, hlen⟩ := ih
      obtain ⟨bd, bc, bk, bx⟩ := counts_snoc tr b
      have hm := closing_step hs
      rw [bd, bc, bk, bx, List.length_append, List.length_singleton]
      cases bridge_cases hs with
      | pop delivery hq =>
          refine ⟨ntr, hrun, hd, hc, hk, ?_⟩
          show tr.length + 1 + (if s.closing.isSome then 1 else 0) =
            ntr.length + (s.popped + 1) + closings tr + cancels tr
          omega
      | cancel =>
          refine ⟨ntr, hrun, hd, hc, hk, ?_⟩
          show tr.length + 1 + (if s.closing.isSome then 1 else 0) =
            ntr.length + s.popped + closings tr + (cancels tr + 1)
          omega
      | closeReturn =>
          obtain ⟨k, hin, -⟩ := hm.leave rfl
          refine ⟨ntr, hrun, hd, hc, hk, ?_⟩
          rw [hin] at hlen
          show tr.length + 1 + 0 = ntr.length + s.popped + closings tr + cancels tr
          exact hlen
      | settle q c error delivery native closing hq hlt hn =>
          obtain ⟨nc, nk⟩ := completions_snoc ntr (.completeRemove c delivery.ackId error)
          refine ⟨ntr ++ [.completeRemove c delivery.ackId error], hrun.snoc hn, ?_, ?_, ?_, ?_⟩
          · rw [Native.deliveries_append, hd]
            rfl
          · rw [nc, hc]
            rfl
          · rw [nk, hk]
            rfl
          · rw [show closing = s.closing from hm.after, List.length_append]
            show tr.length + 1 + (if s.closing.isSome then 1 else 0) =
              ntr.length + 1 + s.popped + closings tr + cancels tr
            omega
      | native a native closing ha hn =>
          obtain ⟨nc, nk⟩ := completions_snoc ntr a
          refine ⟨ntr ++ [a], hrun.snoc hn, ?_, ?_, ?_, ?_⟩
          · rw [Native.deliveries_append, hd]
            cases a <;> rfl
          · rw [nc, hc]
            cases a <;> first
              | rfl
              | cases ha
          · rw [nk, hk]
            cases a <;> rfl
          · rw [show closing = _ from hm.after, List.length_append, List.length_singleton]
            cases a with
            | innerClose k =>
                -- the closing is counted, and the thread is inside of it
                rw [hm.enter k rfl] at hlen
                have hbefore : tr.length + 0 =
                    ntr.length + s.popped + closings tr + cancels tr := hlen
                show tr.length + 1 + 1 =
                  ntr.length + 1 + s.popped + (closings tr + 1) + cancels tr
                omega
            | _ =>
                show tr.length + 1 + (if s.closing.isSome then 1 else 0) =
                  ntr.length + 1 + s.popped + closings tr + cancels tr
                omega

/-- **The queue holds at most one place for a delivery.** -/
theorem queue_length_le (h : bridge.Run tr s) (hd : incoming tr ≤ 2 ^ 53) :
    s.native.queue.length ≤ incoming tr := by
  obtain ⟨dtr, d, hrun, hR, -⟩ := bridge_simulation.run h hd
  obtain ⟨ntr, hnative, hdel⟩ := bridge_native h
  have hinv := deskInv_run hrun
  have hI := Native.inv_run hnative (by unfold u64Size; omega)
  rw [hdel] at hI
  -- the ack id of a place is below the number of deliveries, and no other place has it
  have hplace : ∀ q : Fin s.native.queue.length, ∃ n : Fin (incoming tr), ∃ i message,
      d.ledger.offers[q.val]? = some (i, message) ∧
        (s.native.onMessage i).drawn = some n.val := fun q => by
    obtain ⟨i, message, n, hoffer, hn, -⟩ :=
      offer_of_queued hR (List.getElem?_eq_getElem q.isLt)
    exact ⟨⟨n, hI.issued i n hn⟩, i, message, hoffer, hn⟩
  choose number i message hoffer hdrawn using hplace
  have hinj : Function.Injective number := fun q q' he => by
    have hi := hI.unique (i q) (i q') (number q) (hdrawn q) (he ▸ hdrawn q')
    exact Fin.ext (hinv.distinct _ _ (i q) _ _ (hoffer q) (hi ▸ hoffer q'))
  simpa using Fintype.card_le_of_injective number hinj

/-- **A run is at most as long as its budget.** -/
theorem length_le_budget (h : bridge.Run tr s) (hd : incoming tr ≤ 2 ^ 53) :
    tr.length ≤ budget tr := by
  obtain ⟨ntr, hrun, hdel, hcomp, hclose, hlen⟩ := accounts h
  obtain ⟨mtr, hmachine⟩ := bridge_machine h
  have hnative := Native.ranked.length_le hrun
  rw [Native.ranked_budget, hdel, hcomp, hclose] at hnative
  have hpopped := (handled_run hmachine).1
  have hqueue := queue_length_le h hd
  unfold budget
  omega

/-- The system's own steps use up the budget. -/
theorem bounded : System.Bounded bridge BridgeAction.starts (fun tr => incoming tr ≤ 2 ^ 53)
    budget where
  keep tr b hb hd := by
    rw [(counts_snoc tr b).1]
    cases b with
    | settle q c error => cases hb
    | session a =>
        cases a with
        | native a => cases a <;> first | exact hd | cases hb
        | pop | closeReturn | cancel => exact hd
  spend tr b hb := by
    obtain ⟨bd, bc, bk, bx⟩ := counts_snoc tr b
    unfold budget
    rw [bd, bc, bk, bx]
    cases b with
    | settle q c error => cases hb
    | session a =>
        cases a with
        | native a => cases a <;> first | rfl | cases hb
        | pop | closeReturn => rfl
        | cancel => cases hb
  length_le _ _ h hd := length_le_budget h hd

end Accounts

/-! ## 3. Where the two threads rest -/

/-- **The two threads are at rest**: the JavaScript thread is in no `close()` and has run its
    queue, and whoever has not returned waits for its handler. -/
structure State.AtRest (s : State) : Prop where
  idle : s.closing = none
  ran : s.popped = s.native.queue.length
  session : s.native.Settled

section Rest

variable {s s' : State} {tr : List BridgeAction}

/-- What is enabled and comes from inside does not happen in a state where nothing is left to do. -/
theorem resting_blocks (hq : bridge.Resting BridgeAction.starts s) (b : BridgeAction)
    (hb : b.starts = false) (h : ∃ s', bridge.step s b = some s') : False := by
  obtain ⟨s', h⟩ := h
  have := hq b s' h
  rw [hb] at this
  cases this

/-- Outside of `close()` the JavaScript thread blocks no step of the session. -/
theorem bridge_of_native (hin : s.Inside) (hc : s.closing = none) {a : Native.Action}
    {n : Native.State} (ha : a.starts = false) (h : Native.machine.step s.native a = some n) :
    ∃ s', bridge.step s (.session (.native a)) = some s' := by
  have hact : ∀ closing, s.act a closing = some { s with native := n, closing := closing } :=
    fun closing => Option.map_eq_some_iff.mpr ⟨n, h, rfl⟩
  cases a with
  | fetchAdd | completeRemove | innerClose => cases ha
  | insert | call | recv | remove => exact ⟨_, hact s.closing⟩
  | completeSend c => exact ⟨_, (if_pos hc).trans (hact none)⟩
  | closeDrain k =>
      cases Native.step_cases h with
      | closeDrain _ hp =>
          -- that `close()` is under way, and the thread would be inside of it
          have := hin.underWay k hp
          rw [hc] at this
          cases this

theorem atRest_of_resting (h : bridge.Run tr s) (hd : incoming tr ≤ u64Size)
    (hq : bridge.Resting BridgeAction.starts s) : s.AtRest := by
  have hin := inside_run h
  obtain ⟨mtr, hmachine⟩ := bridge_machine h
  obtain ⟨ntr, hnative, hdel⟩ := bridge_native h
  have hidle : s.closing = none := by
    cases hc : s.closing with
    | none => rfl
    | some k =>
        cases hp : s.native.close k with
        | idle => exact (hin.entered k hc hp).elim
        | innerClosed =>
            have hst := (Native.Step.closeDrain k hp).taken
            exact (resting_blocks hq (.session (.native (.closeDrain k))) rfl
              ⟨{ s with native := s.native.closeDrain k, closing := some k },
                (if_pos hc).trans (Option.map_eq_some_iff.mpr ⟨_, hst, rfl⟩)⟩).elim
        | done =>
            refine (resting_blocks hq (.session .closeReturn) rfl
              ⟨{ s with closing := none, stopped := true }, ?_⟩).elim
            show s.step .closeReturn = _
            simp only [State.step, hc, hp, if_true]
  refine ⟨hidle, ?_, Native.settled_of_quiescent (d := incoming tr) ?_ fun a n hst => ?_⟩
  · by_contra hne
    have hlt : s.popped < s.native.queue.length :=
      Nat.lt_of_le_of_ne (handled_run hmachine).1 hne
    refine resting_blocks hq (.session .pop) rfl ⟨s.start (s.native.queue[s.popped]), ?_⟩
    show (if s.closing = none then (s.native.queue[s.popped]?).map s.start else none) = _
    rw [if_pos hidle, List.getElem?_eq_getElem hlt]
    rfl
  · exact hdel ▸ Native.inv_run hnative (hdel.symm ▸ hd)
  · cases ha : a.starts with
    | true => exact ha
    | false =>
        exact (resting_blocks hq (.session (.native a)) ha (bridge_of_native hin hidle ha hst)).elim

theorem resting_of_atRest (h : bridge.Run tr s) (hd : incoming tr ≤ u64Size) (hrest : s.AtRest) :
    bridge.Resting BridgeAction.starts s := by
  obtain ⟨ntr, hnative, hdel⟩ := bridge_native h
  have hI := Native.inv_run hnative (hdel.symm ▸ hd)
  intro b s' hst
  cases bridge_cases hst with
  | native a native closing ha hn => exact Native.quiescent_of_settled hI hrest.session a native hn
  | cancel => rfl
  | settle q c error delivery native closing hq hlt hn => rfl
  | pop delivery hq =>
      have hlt := (List.getElem?_eq_some_iff.mp hq).1
      have := hrest.ran
      omega
  | closeReturn =>
      obtain ⟨k, hc, -⟩ := (closing_step hst).leave rfl
      rw [hrest.idle] at hc
      cases hc

/-- **Nothing is left to do** but what comes from outside exactly where the threads are at rest. -/
theorem resting_iff (h : bridge.Run tr s) (hd : incoming tr ≤ u64Size) :
    bridge.Resting BridgeAction.starts s ↔ s.AtRest :=
  ⟨atRest_of_resting h hd, resting_of_atRest h hd⟩

/-- **Progress of the two threads.** A run with at most `2^53` deliveries is at most as long as its
    budget; it can always be continued by the system's own steps until nothing is left to do; every
    continuation by own steps ends within the same budget; and it is at its end exactly where the
    threads are at rest. -/
theorem bridge_progress (h : bridge.Run tr s) (hd : incoming tr ≤ 2 ^ 53) :
    tr.length ≤ budget tr ∧
    (∃ tr' s', bridge.exec s tr' = some s' ∧ OwnSteps tr' ∧ s'.AtRest) ∧
    ∀ tr' s', bridge.exec s tr' = some s' → OwnSteps tr' →
      tr.length + tr'.length ≤ budget tr ∧
      (bridge.Resting BridgeAction.starts s' ↔ s'.AtRest) := by
  have hmore : ∀ {tr' : List BridgeAction}, OwnSteps tr' → incoming (tr ++ tr') ≤ u64Size :=
    fun hown => Nat.le_trans (bounded.append hd hown).1 (by decide)
  refine ⟨length_le_budget h hd, ?_, fun tr' s' hex hown => ⟨?_, ?_⟩⟩
  · obtain ⟨tr', s', hex, hown, hq⟩ := bounded.settles h hd
    exact ⟨tr', s', hex, hown, atRest_of_resting (h.trans hex) (hmore hown) hq⟩
  · exact bounded.continuation_le h hd hex hown
  · exact resting_iff (h.trans hex) (hmore hown)

end Rest

/-! ## 4. Who is waited for -/

/-- Nothing is decided at a place: its handler has not settled, and there was no closing. -/
theorem decision_eq_none {q : Nat} {hs : List Happening} : decision q hs = none ↔
    (∀ r, .settled q r ∉ hs) ∧ .session .closed ∉ hs := by
  induction hs using List.reverseRecOn with
  | nil => exact ⟨fun _ => ⟨nofun, nofun⟩, fun _ => rfl⟩
  | append_singleton hs x ih =>
      have hlast : decision q (hs ++ [x]) = decideNext q (decision q hs) x :=
        decision_append q (some x)
      rw [hlast]
      cases x with
      | started message => simpa [decideNext] using ih
      | settled q' r' =>
          by_cases hq : q' = q
          · -- the place is decided by now
            subst hq
            refine iff_of_false ?_ fun hno => hno.1 r' (by simp)
            cases decision q' hs <;> simp [decideNext]
          · rw [show decideNext q (decision q hs) (.settled q' r') = decision q hs from if_neg hq, ih]
            simp [Ne.symm hq]
      | session e =>
          cases e with
          | closed =>
              refine iff_of_false ?_ fun hno => hno.2 (by simp)
              cases decision q hs <;> simp [decideNext]
          | _ => simpa [decideNext] using ih

section Waiting

variable {s : State} {d : Desk} {tr : List BridgeAction} {k i n : Nat}

/-- The handlers that were started at rest: those of all places of the queue. -/
theorem handled_at_rest (h : bridge.Run tr s) (hrest : s.AtRest) :
    s.handled = s.native.queue.map handlerArgument := by
  obtain ⟨mtr, hmachine⟩ := bridge_machine h
  rw [(handled_run hmachine).2, hrest.ran, List.take_length]

/-- An invocation that waits at rest has a place in the queue, where nothing is decided. -/
theorem place_of_awaiting (hI : Native.Inv k s.native) (hR : RefinesDesk s d)
    (hinv : DeskInv (happenings tr) d) (hrest : s.AtRest)
    (hp : s.native.onMessage i = .awaiting n) :
    ∃ q message, s.native.queue[q]? = some (Native.delivery message n) ∧
      decision q (happenings tr) = none := by
  have hl := (hrest.session.entry n i).mpr hp
  have hex := hinv.entry i
  have he := hR.ledger.entry_at hp
  generalize d.ledger.entry i = e at hex he
  cases he with
  | awaiting _ a ha =>
      cases hex with
      | offered q message _ hq hd =>
          obtain ⟨m, hm, hqueue⟩ := queued_of_offer hR hq
          rw [hp] at hm
          cases hm
          refine ⟨q, message, hqueue, ?_⟩
          rw [hd]
          -- its sender is in the map, so nobody has answered
          cases ha with
          | mapped m hm => rfl
          | held c x e hc =>
              rcases hrest.session.complete c with hi | hi <;> rw [hc] at hi <;> cases hi
          | sent r hr =>
              rw [(hI.mapped n i hl).2] at hr
              cases hr

/-- At rest an invocation with a place in the queue waits if nothing is decided there. -/
theorem awaiting_of_place (hR : RefinesDesk s d) (hinv : DeskInv (happenings tr) d)
    (hrest : s.AtRest) {q : Nat} {message : TrueSealMessage}
    (hq : d.ledger.offers[q]? = some (i, message)) (hd : decision q (happenings tr) = none) :
    ∃ n, s.native.onMessage i = .awaiting n := by
  have hex := hinv.entry i
  have he := hR.ledger.entry i
  -- the one place of `i` is `q`
  have hplace : ∀ {q' : Nat} {message' : TrueSealMessage} {r : AckResult},
      d.ledger.offers[q']? = some (i, message') → decision q' (happenings tr) ≠ some r :=
    fun hq' hr => by
      rw [hinv.distinct _ q i _ message hq' hq, hd] at hr
      cases hr
  rcases hrest.session.onMessage i with hp | ⟨m, r, hp⟩ | hp
  · rw [hp] at he
    rw [he.of_idle] at hex
    cases hex with
    | absent hn => exact absurd hq (hn q message)
  · rw [hp] at he
    generalize d.ledger.entry i = e at hex he
    cases he with
    | returned =>
        cases hex with
        | returned q' message' r' hq' hr => exact absurd hr (hplace hq')
        | returnedRefused debug hn => exact absurd hq (hn q message)
        | turnedAway hn => exact absurd hq (hn q message)
  · exact hp

/-- **Whoever waits, waits for its own handler.** Where nothing is left to do, in a run with at most
    `2^53` deliveries, an invocation of `on_message` waits exactly if the handler was started with
    its message, at the place its delivery has in the queue, this handler run has not settled, and
    there was no closing. So where every handler run has settled, or a closing came, every
    invocation that has started has returned. -/
theorem waits_for_handler (h : bridge.Run tr s) (hd : incoming tr ≤ 2 ^ 53)
    (hq : bridge.Resting BridgeAction.starts s) :
    (∀ i n, s.native.onMessage i = .awaiting n ↔ (s.native.onMessage i).drawn = some n ∧
      ∃ q message, s.native.queue[q]? = some (Native.delivery message n) ∧
        s.handled[q]? = some message ∧ (∀ r, .settled q r ∉ happenings tr) ∧
        .session .closed ∉ happenings tr) ∧
    ((.session .closed ∈ happenings tr ∨
        ∀ q < s.handled.length, ∃ r, .settled q r ∈ happenings tr) →
      ∀ i, s.native.onMessage i = .idle ∨ ∃ n r, s.native.onMessage i = .returned n r) := by
  have hrest := atRest_of_resting h (Nat.le_trans hd (by decide)) hq
  obtain ⟨dtr, d, hrun, hR, hobs⟩ := bridge_simulation.run h hd
  have hinv : DeskInv (happenings tr) d := by
    rw [happenings, ← hobs]
    exact deskInv_run hrun
  obtain ⟨ntr, hnative, hdel⟩ := bridge_native h
  have hI := Native.inv_run hnative (by unfold u64Size; omega)
  have hhandled := handled_at_rest h hrest
  have hwaits : ∀ i n, s.native.onMessage i = .awaiting n → ∃ q message,
      s.native.queue[q]? = some (Native.delivery message n) ∧ s.handled[q]? = some message ∧
      (∀ r, .settled q r ∉ happenings tr) ∧ .session .closed ∉ happenings tr := fun i n hp => by
    obtain ⟨q, message, hqueue, hdec⟩ := place_of_awaiting hI hR hinv hrest hp
    refine ⟨q, message, hqueue, ?_, decision_eq_none.mp hdec⟩
    rw [hhandled, List.getElem?_map, hqueue]
    rfl
  refine ⟨fun i n => ⟨fun hp => ⟨by rw [hp]; rfl, hwaits i n hp⟩, ?_⟩, fun hall i => ?_⟩
  · rintro ⟨hn, q, message, hqueue, -, hopen⟩
    obtain ⟨message', hoffer⟩ := offer_of_number hI (hdel.symm ▸ hd) hR hn hqueue
    obtain ⟨m, hp⟩ := awaiting_of_place hR hinv hrest hoffer (decision_eq_none.mpr hopen)
    rw [hp] at hn
    cases hn
    exact hp
  · rcases hrest.session.onMessage i with hp | hp | ⟨n, hp⟩
    · exact Or.inl hp
    · exact Or.inr hp
    · obtain ⟨q, message, -, hstarted, hsettled, hclosed⟩ := hwaits i n hp
      rcases hall with hc | hall
      · exact absurd hc hclosed
      · obtain ⟨r, hr⟩ := hall q (List.getElem?_eq_some_iff.mp hstarted).1
        exact absurd hr (hsettled r)

end Waiting

theorem bridge_progress_twoHandlers : ∃ s, bridge.Run twoHandlers s ∧
    twoHandlers.length ≤ budget twoHandlers ∧
    (∃ tr' s', bridge.exec s tr' = some s' ∧ OwnSteps tr' ∧ s'.AtRest) ∧
    ∀ tr' s', bridge.exec s tr' = some s' → OwnSteps tr' →
      twoHandlers.length + tr'.length ≤ budget twoHandlers ∧
      (bridge.Resting BridgeAction.starts s' ↔ s'.AtRest) := by
  obtain ⟨s, hs, -⟩ := bridge.exists_run twoHandlers (fun _ => true) (by decide +kernel)
  exact ⟨s, hs, bridge_progress hs (by decide)⟩

/-- One delivery whose handler was started. -/
def startedHandler : List BridgeAction :=
  [.session (.native (.fetchAdd 0 Native.sampleMessage)), .session (.native (.insert 0)),
    .session (.native (.call 0 .ok)), .session .pop]

/-- There the threads are at rest: the handler is running. -/
theorem startedHandler_atRest : ∃ s, bridge.Run startedHandler s ∧ s.AtRest ∧
    s.native.onMessage 0 = .awaiting 0 := by
  refine ⟨_, rfl, ⟨rfl, rfl, fun i => ?_, fun c => Or.inl rfl, fun k => Or.inl rfl,
    fun n i => ?_⟩, rfl⟩
  · by_cases hi : i = 0
    · subst hi
      exact Or.inr (Or.inr ⟨0, rfl⟩)
    · left
      simp [State.start, bridge, Native.State.dispatch, Native.State.insert,
        Native.State.fetchAdd, hi]
  · show (AList.insert 0 0 (∅ : AList fun _ : Nat => Nat)).lookup n = some i ↔ _
    rw [Native.lookup_insert_apply, AList.lookup_empty]
    by_cases hn : n = 0 <;> by_cases hi : i = 0 <;>
      simp [State.start, bridge, Native.State.dispatch, Native.State.insert,
        Native.State.fetchAdd, hi, hn, eq_comm]

theorem waits_for_handler_started : ∃ s, bridge.Run startedHandler s ∧
    ((s.native.onMessage 0).drawn = some 0 ∧
      ∃ q message, s.native.queue[q]? = some (Native.delivery message 0) ∧
        s.handled[q]? = some message ∧ (∀ r, .settled q r ∉ happenings startedHandler) ∧
        .session .closed ∉ happenings startedHandler) := by
  obtain ⟨s, hs, hrest, hp⟩ := startedHandler_atRest
  have hq := resting_of_atRest hs (by decide) hrest
  exact ⟨s, hs, ((waits_for_handler hs (by decide) hq).1 0 0).mp hp⟩

end TrueSealSync.System
