/-
  File:      TrueSealSync/System/Bridge.lean
  Subject:   FROM THE CORE TO THE HANDLER AND BACK: what a delivery returns is what its own handler
             settled first.

  JavaScript completes a delivery with the number it was handed with it, and with no other one
  (`messageDispatcher_own_id`). So the completions of the composite are settlements of the handler
  runs the queue has started:

  * `bridge` -- the two threads, with `settle q c error` for a settlement of the `q`-th queued
    delivery: `completeMessage(ackId, error)` under the number that delivery carries, as call `c`;
  * `desk` -- the same without numbers, queue, map and oneshots: the ledger, and for each delivery
    JavaScript accepted a handler run whose settlement goes straight to the entry of its delivery;
  * `bridge_refines` -- the bridge refines the desk, event by event;
  * `own_handler_decides` -- so a delivery the queue accepted returns what its own handler settled
    first, or `Ok(())` where a closing came first, whatever the other handlers settle, and how
    often, and in which order.
-/
import TrueSealSync.Native.Ledger
import TrueSealSync.System.Delivery

namespace TrueSealSync.System

open TrueSealSync.Lib
open TrueSealSync.Native (TrueSealMessage MessageDelivery AckResult HandlerError Ledger LedgerAction
  Event Entry Refines)
open TrueSealSync.Sdk (handlerArgument Realm Js JsVal)

/-! ## 1. The dispatcher uses no number but its own -/

/-- **The dispatcher completes under the number of its delivery only**: what `completeMessage` does
    under other numbers makes no difference to it, nor to the callbacks it hands out. -/
theorem messageDispatcher_own_id {ω : Type} (realm : Realm ω)
    {completeMessage completeMessage' : Binary64 → JsVal → Js ω Unit}
    (handler : TrueSealMessage → Js ω JsVal) {delivery : MessageDelivery}
    (h : completeMessage delivery.ackId = completeMessage' delivery.ackId) :
    Sdk.messageDispatcher realm completeMessage handler delivery =
      Sdk.messageDispatcher realm completeMessage' handler delivery := by
  have hcomplete : Sdk.complete completeMessage delivery.ackId =
      Sdk.complete completeMessage' delivery.ackId := by
    funext error
    unfold Sdk.complete
    rw [h]
  unfold Sdk.messageDispatcher Sdk.settle Sdk.onFulfilled Sdk.onRejected
  simp only [hcomplete]

/-! ## 2. The bridge -/

inductive BridgeAction where
  /-- a step of the composite that is no `completeMessage` -/
  | session (a : Action)
  /-- the `q`-th queued delivery is settled -/
  | settle (q c : Nat) (error : Option String)
  deriving DecidableEq

/-- A call of `completeMessage`. -/
def Action.completes : Action → Bool
  | .native (.completeRemove _ _ _) => true
  | _ => false

/-- The effect of one action: the handler run that is settled has been started. -/
def State.bridgeStep (s : State) : BridgeAction → Option State
  | .session a => if a.completes then none else s.step a
  | .settle q c error =>
      match s.native.queue[q]? with
      | some delivery =>
          if q < s.popped then s.step (.native (.completeRemove c delivery.ackId error)) else none
      | none => none

/-- **The bridge**: the two threads, where JavaScript settles what it was handed. -/
def bridge : System State BridgeAction := ⟨{}, State.bridgeStep⟩

/-- What can be seen: the events of the session, the handlers that are started, and what they
    settle. -/
inductive Happening where
  | session (e : Event)
  | started (message : TrueSealMessage)
  | settled (q : Nat) (result : AckResult)
  deriving DecidableEq

def State.happening (s : State) : BridgeAction → Option Happening
  | .session (.native a) => (s.native.event a).map .session
  | .session .pop =>
      (s.native.queue[s.popped]?).map fun delivery => .started (handlerArgument delivery)
  | .session .closeReturn => none
  | .session .cancel => none
  | .settle q _ error => some (.settled q (Native.outcome error))

/-- What a run shows. -/
def happenings (tr : List BridgeAction) : List Happening :=
  bridge.observed State.happening bridge.init tr

/-- The deliveries that come in. -/
def BridgeAction.arrives : BridgeAction → Bool
  | .session (.native (.fetchAdd _ _)) => true
  | _ => false

def incoming (tr : List BridgeAction) : Nat := tr.countP BridgeAction.arrives

/-- One step of the bridge, case by case. -/
inductive BridgeStep (s : State) : BridgeAction → State → Prop where
  | native (a : Native.Action) (native : Native.State) (closing : Option Nat)
      (ha : (Action.native a).completes = false)
      (hn : Native.machine.step s.native a = some native) :
      BridgeStep s (.session (.native a)) { s with native := native, closing := closing }
  | pop (delivery : MessageDelivery) (hq : s.native.queue[s.popped]? = some delivery) :
      BridgeStep s (.session .pop) (s.start delivery)
  | closeReturn : BridgeStep s (.session .closeReturn) { s with closing := none, stopped := true }
  | cancel : BridgeStep s (.session .cancel) { s with stopped := true }
  | settle (q c : Nat) (error : Option String) (delivery : MessageDelivery) (native : Native.State)
      (closing : Option Nat) (hq : s.native.queue[q]? = some delivery) (hlt : q < s.popped)
      (hn : Native.machine.step s.native (.completeRemove c delivery.ackId error) = some native) :
      BridgeStep s (.settle q c error) { s with native := native, closing := closing }

/-- A taken step is one of the cases. -/
theorem bridge_cases {s s' : State} {b : BridgeAction} (h : bridge.step s b = some s') :
    BridgeStep s b s' := by
  change s.bridgeStep b = some s' at h
  cases b with
  | session a =>
      obtain ⟨ha, h⟩ := Option.ite_none_left_eq_some.mp h
      cases step_cases h with
      | native a native closing hn hkeep hdrain =>
          exact .native a native closing (by simpa using ha) hn
      | pop delivery hq hc => exact .pop delivery hq
      | closeReturn k hc hd => exact .closeReturn
      | cancel hc => exact .cancel
  | settle q c error =>
      simp only [State.bridgeStep] at h
      split at h
      · rename_i delivery hq
        obtain ⟨hlt, h⟩ := Option.ite_none_right_eq_some.mp h
        have h' : machine.step s (.native (.completeRemove c delivery.ackId error)) = some s' := h
        cases step_cases h' with
        | native a native closing hn hkeep hdrain =>
            exact .settle q c error delivery native closing hq hlt hn
      · cases h

/-- **Each run of the bridge is a run of the session**, with as many deliveries. -/
theorem bridge_native {tr : List BridgeAction} {s : State} (h : bridge.Run tr s) :
    ∃ ntr, Native.machine.Run ntr s.native ∧ Native.deliveries ntr = incoming tr := by
  induction h using System.Run.induct with
  | start => exact ⟨[], System.Run.start, rfl⟩
  | snoc tr s b s' h hs ih =>
      obtain ⟨ntr, hrun, hd⟩ := ih
      have hin : incoming (tr ++ [b]) = incoming tr + incoming [b] := List.countP_append
      rw [hin, ← hd]
      cases bridge_cases hs with
      | native a native closing ha hn =>
          refine ⟨ntr ++ [a], hrun.snoc hn, ?_⟩
          rw [Native.deliveries_append]
          cases a <;> rfl
      | settle q c error delivery native closing hq hlt hn =>
          refine ⟨ntr ++ [.completeRemove c delivery.ackId error], hrun.snoc hn, ?_⟩
          rw [Native.deliveries_append]
          rfl
      | _ => exact ⟨ntr, hrun, rfl⟩

/-- Each run of the bridge is a run of the composite. -/
theorem bridge_machine {tr : List BridgeAction} {s : State} (h : bridge.Run tr s) :
    ∃ mtr, machine.Run mtr s := by
  induction h using System.Run.induct with
  | start => exact ⟨[], System.Run.start⟩
  | snoc tr s b s' h hs ih =>
      obtain ⟨mtr, hrun⟩ := ih
      obtain ⟨a, ha⟩ : ∃ a, machine.step s a = some s' := by
        change s.bridgeStep b = some s' at hs
        cases b with
        | session a => exact ⟨a, (Option.ite_none_left_eq_some.mp hs).2⟩
        | settle q c error =>
            simp only [State.bridgeStep] at hs
            split at hs
            · rename_i delivery hq
              exact ⟨.native (.completeRemove c delivery.ackId error),
                (Option.ite_none_right_eq_some.mp hs).2⟩
            · cases hs
      exact ⟨mtr ++ [a], hrun.snoc ha⟩

/-! ## 3. The desk -/

/-- The ledger, and how many handlers were started. -/
structure Desk where
  ledger : Ledger := {}
  started : Nat := 0

inductive DeskAction where
  /-- an action of the ledger that is no answer -/
  | ledger (a : LedgerAction)
  /-- the handler of the next accepted delivery is started -/
  | start
  /-- the handler of the `q`-th accepted delivery settles -/
  | settle (q : Nat) (result : AckResult)
  deriving DecidableEq

namespace Desk

def answers : LedgerAction → Bool
  | .answer _ _ => true
  | _ => false

/-- The effect of one action: a settlement answers the entry of its own delivery, if it is open. -/
def step (d : Desk) : DeskAction → Option Desk
  | .ledger a =>
      if answers a then none else (d.ledger.step a).map fun ledger => { d with ledger := ledger }
  | .start =>
      if d.started < d.ledger.offers.length then some { d with started := d.started + 1 } else none
  | .settle q result =>
      match d.ledger.offers[q]? with
      | some (i, _) =>
          if q < d.started then
            some { d with ledger := d.ledger.set i ((d.ledger.entry i).answered result) }
          else none
      | none => none

def happening (d : Desk) : DeskAction → Option Happening
  | .ledger a => (d.ledger.event a).map .session
  | .start => (d.ledger.offers[d.started]?).map fun offer => .started offer.2
  | .settle q result => some (.settled q result)

end Desk

/-- **The desk as a transition system.** -/
def desk : System Desk DeskAction := ⟨{}, Desk.step⟩

/-- The bridge's state refines the desk's. -/
structure RefinesDesk (s : State) (d : Desk) : Prop where
  ledger : Refines s.native d.ledger
  started : d.started = s.popped

/-! ## 4. The bridge refines the desk -/

section Refinement

variable {s s' : State} {d : Desk} {k n i : Nat} {b : BridgeAction}

/-- The desk takes the actions of the ledger that are no answers, and shows their events. -/
theorem desk_exec_ledger {l l' : Ledger} {k : Nat} {ltr : List LedgerAction}
    (hno : ∀ a ∈ ltr, Desk.answers a = false) (hex : Native.ledger.exec l ltr = some l') :
    desk.exec ⟨l, k⟩ (ltr.map .ledger) = some ⟨l', k⟩ ∧
      desk.observed Desk.happening ⟨l, k⟩ (ltr.map .ledger) =
        (Native.ledger.observed Ledger.event l ltr).map .session := by
  induction ltr generalizing l with
  | nil =>
      cases hex
      exact ⟨rfl, rfl⟩
  | cons a ltr ih =>
      obtain ⟨l₁, hst, hex⟩ := Option.bind_eq_some_iff.mp hex
      obtain ⟨hex', hobs⟩ := ih (fun x hx => hno x (List.mem_cons_of_mem a hx)) hex
      have ha : Desk.answers a = false := hno a List.mem_cons_self
      have hdesk : desk.step ⟨l, k⟩ (.ledger a) = some ⟨l₁, k⟩ := by
        have hst' : l.step a = some l₁ := hst
        simp [desk, Desk.step, ha, hst']
      refine ⟨by simp [hdesk, hex'], ?_⟩
      rw [List.map_cons, desk.observed_cons Desk.happening hdesk, hobs,
        Native.ledger.observed_cons Ledger.event hst, List.map_append]
      congr 1
      show ((l.event a).map Happening.session).toList = (l.event a).toList.map Happening.session
      cases l.event a <;> rfl

/-- The ledger's actions for a step that is no completion are no answers. -/
theorem entries_no_answer {native : Native.State} {a : Native.Action}
    (ha : (Action.native a).completes = false) :
    ∀ x ∈ native.entries a, Desk.answers x = false := by
  intro x hx
  cases a with
  | call i status => cases status <;> simp_all [Native.State.entries, Desk.answers]
  | completeRemove c y e => cases ha
  | _ => simp_all [Native.State.entries, Desk.answers]

/-- An entry that is set to what it is. -/
theorem set_entry_self (l : Ledger) (i : Nat) : l.set i (l.entry i) = l := by
  unfold Ledger.set
  rw [Function.update_eq_self]

/-- **A completion under the ack id of `i`** answers the entry of `i`, where it is open, and nothing
    else. -/
theorem refines_completion {native native' : Native.State} {l : Ledger} {c : Nat} {x : Binary64}
    {e : Option String} (hI : Native.Inv k native) (h : Refines native l)
    (hn : (native.onMessage i).drawn = some n) (hx : x.toU64 = n)
    (hs : Native.Step native (.completeRemove c x e) native') :
    Refines native' (l.set i ((l.entry i).answered (Native.outcome e))) := by
  obtain ⟨l', hex, hR, -⟩ := Native.matched_of_step hI h hs
  cases hs with
  | take _ _ _ j hp hl =>
      obtain rfl : j = i := hI.lookup_own hn (hx ▸ hl)
      cases hu : (native.onMessage j).undecided with
      | true =>
          -- the completion is the answer of the delivery
          simp only [Native.State.entries, hl, hu, if_true] at hex
          have hst := Native.ledger.exec_single.mp hex
          obtain ⟨-, hset⟩ := Option.ite_none_right_eq_some.mp
            (show (if (l.entry j).waits then some (l.set j ((l.entry j).answered (Native.outcome e)))
              else none) = some l' from hst)
          cases hset
          exact hR
      | false =>
          -- the result of the delivery is fixed, so its entry is not open
          simp only [Native.State.entries, hl, hu, Bool.false_eq_true, if_false] at hex
          cases hex
          have he := h.entry j
          have hslot := (hI.mapped x.toU64 j hl).1
          have hsame : (l.entry j).answered (Native.outcome e) = l.entry j := by
            generalize native.onMessage j = p at he hu hslot
            generalize l.entry j = entry at he
            cases he with
            | inserted => cases hu
            | awaiting => cases hu
            | _ => rfl
          rw [hsame, set_entry_self]
          exact hR
  | miss _ _ _ hp hl =>
      simp only [Native.State.entries, hl] at hex
      cases hex
      -- the sender of `i` is not in the map, so its entry is not open
      have hno : ¬ Native.AnswerOf native i none := by
        intro ha
        cases ha with
        | mapped m hm =>
            obtain rfl : m = n :=
              Option.some.inj ((Native.drawn_of_slot (hI.mapped m i hm).1).symm.trans hn)
            rw [hx, hm] at hl
            cases hl
      rw [(h.entry i).keep hno, set_entry_self]
      exact hR

/-- The `q`-th queued delivery is that of the `q`-th offer. -/
theorem offer_of_queued (h : RefinesDesk s d) {q : Nat} {delivery : MessageDelivery}
    (hq : s.native.queue[q]? = some delivery) :
    ∃ i message n, d.ledger.offers[q]? = some (i, message) ∧
      (s.native.onMessage i).drawn = some n ∧ delivery = Native.delivery message n := by
  have hall := List.forall₂_iff_get.mp h.ledger.offers
  obtain ⟨hlt, rfl⟩ := List.getElem?_eq_some_iff.mp hq
  have hlt' : q < d.ledger.offers.length := hall.1 ▸ hlt
  obtain ⟨n, hn, hd⟩ := hall.2 q hlt hlt'
  exact ⟨_, _, n, List.getElem?_eq_getElem hlt', hn, hd⟩

/-- The offer at a place is queued there, under the ack id its invocation has drawn. -/
theorem queued_of_offer (h : RefinesDesk s d) {q : Nat} {message : TrueSealMessage}
    (hq : d.ledger.offers[q]? = some (i, message)) :
    ∃ n, (s.native.onMessage i).drawn = some n ∧
      s.native.queue[q]? = some (Native.delivery message n) := by
  have hall := List.forall₂_iff_get.mp h.ledger.offers
  obtain ⟨hlt, hget⟩ := List.getElem?_eq_some_iff.mp hq
  have hlt' : q < s.native.queue.length := hall.1.symm ▸ hlt
  obtain ⟨n, hn, hdel⟩ := hall.2 q hlt' hlt
  have hoffer : d.ledger.offers.get ⟨q, hlt⟩ = (i, message) := hget
  rw [hoffer] at hn hdel
  exact ⟨n, hn, List.getElem?_eq_some_iff.mpr ⟨hlt', hdel⟩⟩

/-- The desk answers an action of the bridge: with actions that show what it shows. -/
def DeskMatched (d : Desk) (s' : State) (shown : Option Happening) : Prop :=
  ∃ dtr d', desk.exec d dtr = some d' ∧ RefinesDesk s' d' ∧
    desk.observed Desk.happening d dtr = shown.toList

theorem deskMatched_step {d' : Desk} (a : DeskAction) (hst : d.step a = some d')
    (hR : RefinesDesk s' d') : DeskMatched d s' (d.happening a) :=
  ⟨[a], d', desk.exec_single.mpr hst, hR,
    desk.observed_single Desk.happening hst⟩

/-- **Every step of the bridge is matched by the desk.** -/
theorem deskMatched_of_step (hI : Native.Inv k s.native) (hk : k ≤ 2 ^ 53) (h : RefinesDesk s d)
    (hs : BridgeStep s b s') : DeskMatched d s' (s.happening b) := by
  cases hs with
  | native a native closing ha hn =>
      obtain ⟨l', hex, hR, hev⟩ := Native.matched_of_step hI h.ledger (Native.step_cases hn)
      obtain ⟨hex', hobs⟩ := desk_exec_ledger (k := d.started) (entries_no_answer ha) hex
      refine ⟨_, ⟨l', d.started⟩, hex', ⟨hR, h.started⟩, ?_⟩
      rw [show desk.observed Desk.happening d _ = _ from hobs, hev]
      show (s.native.event a).toList.map Happening.session =
        ((s.native.event a).map Happening.session).toList
      cases s.native.event a <;> rfl
  | pop delivery hq =>
      obtain ⟨i, message, n, hoffer, -, rfl⟩ := offer_of_queued h hq
      have hoffer' : d.ledger.offers[d.started]? = some (i, message) := h.started ▸ hoffer
      have hlt : d.started < d.ledger.offers.length := (List.getElem?_eq_some_iff.mp hoffer').1
      have hev : s.happening (.session .pop) = d.happening .start := by
        simp only [State.happening, hq, Desk.happening, hoffer', Option.map_some]
        rfl
      rw [hev]
      exact deskMatched_step .start (if_pos hlt) ⟨h.ledger, congrArg (· + 1) h.started⟩
  | closeReturn => exact ⟨[], d, rfl, ⟨h.ledger, h.started⟩, rfl⟩
  | cancel => exact ⟨[], d, rfl, ⟨h.ledger, h.started⟩, rfl⟩
  | settle q c error delivery native closing hq hlt hn =>
      obtain ⟨i, message, n, hoffer, hdrawn, rfl⟩ := offer_of_queued h hq
      have hid : (Native.delivery message n).ackId.toU64 = n :=
        Binary64.toU64_ofU64 (Nat.lt_of_lt_of_le (hI.issued i n hdrawn) hk)
      have hstarted : q < d.started := h.started ▸ hlt
      have hst : d.step (.settle q (Native.outcome error)) = some
          { d with ledger := d.ledger.set i ((d.ledger.entry i).answered (Native.outcome error)) } := by
        simp only [Desk.step, hoffer, if_pos hstarted]
      exact deskMatched_step (.settle q (Native.outcome error)) hst
        ⟨refines_completion hI h.ledger hdrawn hid (Native.step_cases hn), h.started⟩

/-- The bridge is simulated by the desk while ack ids are exact in a double. -/
theorem bridge_simulation : System.Simulation bridge desk State.happening Desk.happening
    (fun tr => incoming tr ≤ 2 ^ 53) (fun _ => RefinesDesk) where
  init := ⟨Native.refines_init, rfl⟩
  before tr b h := by
    have hin : incoming (tr ++ [b]) = incoming tr + incoming [b] := List.countP_append
    omega
  step tr s b s' d hr hC hR hst := by
    have hin : incoming (tr ++ [b]) = incoming tr + incoming [b] := List.countP_append
    obtain ⟨ntr, hrun, hd⟩ := bridge_native hr
    have hI := Native.inv_run hrun (by unfold u64Size; omega)
    obtain ⟨dtr, d', hex, hR', hev⟩ := deskMatched_of_step hI (by omega) hR (bridge_cases hst)
    exact ⟨dtr, d', hex, hR', hev⟩

/-- **The bridge refines the desk.** Every run of the two threads with at most `2^53` deliveries
    shows what some run of the desk shows, event by event and in the same order: the ack ids, the
    queue, the pending map and the oneshots carry each settlement to the delivery it belongs to,
    and to no other one. -/
theorem bridge_refines {tr : List BridgeAction} (h : bridge.Run tr s) (hd : incoming tr ≤ 2 ^ 53) :
    ∃ dtr d, desk.Run dtr d ∧ RefinesDesk s d ∧
      desk.observed Desk.happening desk.init dtr =
        bridge.observed State.happening bridge.init tr :=
  bridge_simulation.run h hd

end Refinement

/-- Two deliveries that are queued in the other order; the handler at the first place settles
    twice. -/
def twoHandlers : List BridgeAction :=
  [.session (.native (.fetchAdd 0 Native.sampleMessage)),
    .session (.native (.fetchAdd 1 Native.sampleMessage)), .session (.native (.insert 1)),
    .session (.native (.insert 0)), .session (.native (.call 1 .ok)),
    .session (.native (.call 0 .ok)), .session .pop, .session .pop, .settle 1 0 none,
    .session (.native (.completeSend 0)), .settle 0 1 (some "no"), .settle 0 2 none,
    .session (.native (.completeSend 1)), .session (.native (.recv 1)),
    .session (.native (.remove 1))]

theorem bridge_refines_twoHandlers : ∃ s dtr d, desk.Run dtr d ∧ RefinesDesk s d ∧
    desk.observed Desk.happening desk.init dtr =
      bridge.observed State.happening bridge.init twoHandlers := by
  obtain ⟨s, hs, -⟩ := bridge.exists_run twoHandlers (fun _ => true) (by decide +kernel)
  exact ⟨s, bridge_refines hs (by decide)⟩

/-! ## 5. What the desk returns -/

/-- What one more happening makes of the result of the delivery at place `q` of the queue: the first
    settlement of its own handler stays, or the first closing. -/
def decideNext (q : Nat) (v : Option AckResult) : Happening → Option AckResult
  | .settled q' r => if q' = q then v.or (some r) else v
  | .session .closed => v.or (some (.ok ()))
  | _ => v

/-- The result of the delivery at place `q` after the happenings. -/
def decision (q : Nat) (hs : List Happening) : Option AckResult := hs.foldl (decideNext q) none

/-- What a closing leaves of a delivery nobody has settled. -/
def closedResult (closed : Bool) : Option AckResult := if closed then some (.ok ()) else none

/-- The queue never accepted a delivery of `i`. -/
def NotOffered (offers : List (Nat × TrueSealMessage)) (i : Nat) : Prop :=
  ∀ (q : Nat) (message : TrueSealMessage), offers[q]? ≠ some (i, message)

/-- **Why an entry is what it is**, after the happenings `hs`. -/
inductive Explained (hs : List Happening) (closed : Bool) (offers : List (Nat × TrueSealMessage))
    (i : Nat) : Entry → Prop where
  | absent (h : NotOffered offers i) : Explained hs closed offers i .absent
  | arrived (message : TrueSealMessage) (h : NotOffered offers i)
      (ha : .session (.arrived i message) ∈ hs) : Explained hs closed offers i (.arrived message)
  | posted (message : TrueSealMessage) (a : Option AckResult) (h : NotOffered offers i)
      (ha : .session (.arrived i message) ∈ hs) (hc : a = closedResult closed) :
      Explained hs closed offers i (.posted message a)
  | offered (q : Nat) (message : TrueSealMessage) (a : Option AckResult)
      (hq : offers[q]? = some (i, message)) (hd : decision q hs = a) :
      Explained hs closed offers i (.offered a)
  | decided (q : Nat) (message : TrueSealMessage) (r : AckResult)
      (hq : offers[q]? = some (i, message)) (hd : decision q hs = some r) :
      Explained hs closed offers i (.decided r)
  | refused (debug : String) (h : NotOffered offers i) (hr : .session (.refused i debug) ∈ hs) :
      Explained hs closed offers i (.decided (.error (Native.dispatchFailed debug)))
  | returned (q : Nat) (message : TrueSealMessage) (r : AckResult)
      (hq : offers[q]? = some (i, message)) (hd : decision q hs = some r) :
      Explained hs closed offers i (.returned (Native.handlerResult r))
  | returnedRefused (debug : String) (h : NotOffered offers i)
      (hr : .session (.refused i debug) ∈ hs) :
      Explained hs closed offers i
        (.returned (Native.handlerResult (.error (Native.dispatchFailed debug))))
  | turnedAway (h : NotOffered offers i) (hc : closed = true) :
      Explained hs closed offers i (.returned (.ok ()))

/-- **The invariant of the desk** after the happenings `hs`. -/
structure DeskInv (hs : List Happening) (d : Desk) : Prop where
  entry : ∀ i, Explained hs d.ledger.closed d.ledger.offers i (d.ledger.entry i)
  source : ∀ (q i : Nat) (message : TrueSealMessage),
    d.ledger.offers[q]? = some (i, message) → .session (.arrived i message) ∈ hs
  distinct : ∀ (q q' i : Nat) (message message' : TrueSealMessage),
    d.ledger.offers[q]? = some (i, message) → d.ledger.offers[q']? = some (i, message') → q = q'
  /-- no handler has settled a delivery that is not in the queue yet -/
  fresh : ∀ q, d.ledger.offers.length ≤ q → decision q hs = closedResult d.ledger.closed

section Desk

variable {hs hs' : List Happening} {closed : Bool}
  {offers offers' : List (Nat × TrueSealMessage)} {d d' : Desk} {i : Nat} {e : Entry}

theorem decision_append (q : Nat) (shown : Option Happening) :
    decision q (hs ++ shown.toList) = shown.elim (decision q hs) (decideNext q (decision q hs)) := by
  unfold decision
  rw [List.foldl_append]
  cases shown <;> rfl

/-- What stays explained: by the same place, the same decision and the same happenings. -/
theorem Explained.keep (h : Explained hs closed offers i e)
    (hoffers : ∀ (q : Nat) (message : TrueSealMessage), offers[q]? = some (i, message) →
      offers'[q]? = some (i, message))
    (hnot : NotOffered offers i → NotOffered offers' i)
    (hdec : ∀ (q : Nat) (message : TrueSealMessage), offers[q]? = some (i, message) →
      decision q hs' = decision q hs)
    (hsub : hs ⊆ hs') : Explained hs' closed offers' i e := by
  cases h with
  | absent h => exact .absent (hnot h)
  | arrived message h ha => exact .arrived message (hnot h) (hsub ha)
  | posted message a h ha hc => exact .posted message a (hnot h) (hsub ha) hc
  | offered q message a hq hd =>
      exact .offered q message a (hoffers q message hq) ((hdec q message hq).trans hd)
  | decided q message r hq hd =>
      exact .decided q message r (hoffers q message hq) ((hdec q message hq).trans hd)
  | refused debug h hr => exact .refused debug (hnot h) (hsub hr)
  | returned q message r hq hd =>
      exact .returned q message r (hoffers q message hq) ((hdec q message hq).trans hd)
  | returnedRefused debug h hr => exact .returnedRefused debug (hnot h) (hsub hr)
  | turnedAway h hc => exact .turnedAway (hnot h) hc

/-- One entry moves, the queue and the flag stay, and nothing is decided. -/
theorem deskInv_move (h : DeskInv hs d) (shown : Option Happening)
    (hdec : ∀ q, decision q (hs ++ shown.toList) = decision q hs)
    (hi : Explained (hs ++ shown.toList) d.ledger.closed d.ledger.offers i e) :
    DeskInv (hs ++ shown.toList) { d with ledger := d.ledger.set i e } where
  entry j := by
    by_cases hj : j = i
    · subst hj
      simpa using hi
    · rw [Ledger.set_entry, if_neg hj]
      exact (h.entry j).keep (fun _ _ => id) id (fun q _ _ => hdec q) (List.subset_append_left _ _)
  source q j message hq := List.mem_append_left _ (h.source q j message hq)
  distinct := h.distinct
  fresh q hq := (hdec q).trans (h.fresh q hq)

/-- Nothing of the ledger changes, and nothing is decided. -/
theorem deskInv_same (h : DeskInv hs d) (shown : Option Happening)
    (hdec : ∀ q, decision q (hs ++ shown.toList) = decision q hs) (hl : d'.ledger = d.ledger) :
    DeskInv (hs ++ shown.toList) d' where
  entry j := by
    rw [hl]
    exact (h.entry j).keep (fun _ _ => id) id (fun q _ _ => hdec q) (List.subset_append_left _ _)
  source q j message hq := List.mem_append_left _ (h.source q j message (hl ▸ hq))
  distinct := hl ▸ h.distinct
  fresh q hq := by
    rw [hl] at hq ⊢
    exact (hdec q).trans (h.fresh q hq)

/-- The entry of an invocation whose delivery is posted is in no place of the queue. -/
theorem Explained.of_posted {message : TrueSealMessage} {a : Option AckResult}
    (h : Explained hs closed offers i (.posted message a)) :
    NotOffered offers i ∧ .session (.arrived i message) ∈ hs ∧ a = closedResult closed := by
  cases h with
  | posted _ _ h ha hc => exact ⟨h, ha, hc⟩

/-- The queue accepts a posted delivery: it gets the next place. -/
theorem deskInv_offer (h : DeskInv hs d) {message : TrueSealMessage} {a : Option AckResult}
    (he : d.ledger.entry i = .posted message a) :
    DeskInv (hs ++ [.session (.offered i)]) { d with ledger :=
      { d.ledger.set i (.offered a) with offers := d.ledger.offers ++ [(i, message)] } } := by
  have hi := h.entry i
  rw [he] at hi
  obtain ⟨hnot, harrived, ha⟩ := hi.of_posted
  have hdec : ∀ q, decision q (hs ++ [.session (.offered i)]) = decision q hs := fun q =>
    decision_append q (some (.session (.offered i)))
  have hold : ∀ {q : Nat} {x : Nat × TrueSealMessage}, d.ledger.offers[q]? = some x →
      (d.ledger.offers ++ [(i, message)])[q]? = some x := fun hq =>
    (List.getElem?_append_left (List.getElem?_eq_some_iff.mp hq).1).trans hq
  -- a place of the longer queue is an old one, or the last one
  have hplace : ∀ {q : Nat} {x : Nat × TrueSealMessage},
      (d.ledger.offers ++ [(i, message)])[q]? = some x →
      d.ledger.offers[q]? = some x ∨ (q = d.ledger.offers.length ∧ x = (i, message)) := by
    intro q x hq
    rcases Nat.lt_trichotomy q d.ledger.offers.length with hlt | rfl | hgt
    · rw [List.getElem?_append_left hlt] at hq
      exact Or.inl hq
    · simp at hq
      exact Or.inr ⟨rfl, hq.symm⟩
    · rw [List.getElem?_eq_none (by simp; omega)] at hq
      cases hq
  refine ⟨fun j => ?_, fun q j m hq => ?_, fun q q' j m m' hq hq' => ?_, fun q hq => ?_⟩
  · by_cases hj : j = i
    · subst hj
      refine (Ledger.set_entry d.ledger j j (.offered a)).symm ▸ ?_
      rw [if_pos rfl]
      refine .offered d.ledger.offers.length message a (by simp) ?_
      rw [hdec, h.fresh _ (Nat.le_refl _), ha]
    · refine (Ledger.set_entry d.ledger i j (.offered a)).symm ▸ ?_
      rw [if_neg hj]
      refine (h.entry j).keep (fun _ _ => hold) (fun hn q m hq => ?_) (fun q _ _ => hdec q)
        (List.subset_append_left _ _)
      rcases hplace hq with hq | ⟨-, hx⟩
      · exact hn q m hq
      · exact hj (Prod.mk.inj hx).1
  · rcases hplace hq with hq | ⟨-, hx⟩
    · exact List.mem_append_left _ (h.source q j m hq)
    · cases hx
      exact List.mem_append_left _ harrived
  · rcases hplace hq with hq | ⟨rfl, hx⟩ <;> rcases hplace hq' with hq' | ⟨rfl, hx'⟩
    · exact h.distinct q q' j m m' hq hq'
    · cases hx'
      exact absurd hq (hnot q m)
    · cases hx
      exact absurd hq' (hnot q' m')
    · rfl
  · have hq' : d.ledger.offers.length + 1 ≤ q := by simpa using hq
    exact (hdec q).trans (h.fresh q (by omega))

/-- A closing answers every open entry. -/
theorem deskInv_close (h : DeskInv hs d) : DeskInv (hs ++ [.session .closed])
    { d with ledger :=
      { d.ledger with closed := true, entry := fun i => (d.ledger.entry i).answered (.ok ()) } } := by
  have hdec : ∀ q, decision q (hs ++ [.session .closed]) = (decision q hs).or (some (.ok ())) :=
    fun q => decision_append q (some (.session .closed))
  have hor : (closedResult d.ledger.closed).or (some (.ok ())) = closedResult true := by
    cases d.ledger.closed <;> rfl
  refine ⟨fun i => ?_, fun q j m hq => List.mem_append_left _ (h.source q j m hq), h.distinct,
    fun q hq => by rw [hdec, h.fresh q hq, hor]⟩
  show Explained _ true d.ledger.offers i ((d.ledger.entry i).answered (.ok ()))
  have hi := h.entry i
  generalize d.ledger.entry i = e at hi ⊢
  cases hi with
  | absent hn => exact .absent hn
  | arrived message hn ha => exact .arrived message hn (List.mem_append_left _ ha)
  | posted message a hn ha hc =>
      subst hc
      have he : (Entry.posted message (closedResult d.ledger.closed)).answered (.ok ()) =
          .posted message (closedResult true) := by cases d.ledger.closed <;> rfl
      rw [he]
      exact .posted message _ hn (List.mem_append_left _ ha) rfl
  | offered q message a hq hd =>
      have he : (Entry.offered a).answered (.ok ()) = .offered (a.or (some (.ok ()))) := by
        cases a <;> rfl
      rw [he]
      exact .offered q message _ hq (by rw [hdec, hd])
  | decided q message r hq hd => exact .decided q message r hq (by rw [hdec, hd]; rfl)
  | refused debug hn hr => exact .refused debug hn (List.mem_append_left _ hr)
  | returned q message r hq hd => exact .returned q message r hq (by rw [hdec, hd]; rfl)
  | returnedRefused debug hn hr => exact .returnedRefused debug hn (List.mem_append_left _ hr)
  | turnedAway hn hc => exact .turnedAway hn rfl

/-- **A handler settles**: the entry of its own delivery is answered, if it is open. -/
theorem deskInv_settle (h : DeskInv hs d) {q : Nat} {message : TrueSealMessage} {r : AckResult}
    (hq : d.ledger.offers[q]? = some (i, message)) :
    DeskInv (hs ++ [.settled q r])
      { d with ledger := d.ledger.set i ((d.ledger.entry i).answered r) } := by
  have hown : decision q (hs ++ [.settled q r]) = (decision q hs).or (some r) := by
    rw [show hs ++ [Happening.settled q r] = hs ++ (some (Happening.settled q r)).toList from rfl,
      decision_append]
    simp [decideNext]
  have hother : ∀ q', q' ≠ q → decision q' (hs ++ [.settled q r]) = decision q' hs := fun q' hne =>
    (decision_append q' (some (.settled q r))).trans (if_neg (Ne.symm hne))
  refine ⟨fun j => ?_, fun q' j m hq' => List.mem_append_left _ (h.source q' j m hq'), h.distinct,
    fun q' hq' => ?_⟩
  · by_cases hj : j = i
    · subst hj
      rw [Ledger.set_entry, if_pos rfl]
      have hj := h.entry j
      generalize d.ledger.entry j = e at hj ⊢
      -- an invocation in the queue is in the one place `q`
      cases hj with
      | absent hn => exact absurd hq (hn q message)
      | arrived m hn => exact absurd hq (hn q message)
      | posted m a hn => exact absurd hq (hn q message)
      | refused debug hn => exact absurd hq (hn q message)
      | returnedRefused debug hn => exact absurd hq (hn q message)
      | turnedAway hn => exact absurd hq (hn q message)
      | offered q' m a hq' hd =>
          obtain rfl := h.distinct q' q j m message hq' hq
          have he : (Entry.offered a).answered r = .offered (a.or (some r)) := by cases a <;> rfl
          rw [he]
          exact .offered q' m _ hq' (by rw [hown, hd])
      | decided q' m r' hq' hd =>
          obtain rfl := h.distinct q' q j m message hq' hq
          exact .decided q' m r' hq' (by rw [hown, hd]; rfl)
      | returned q' m r' hq' hd =>
          obtain rfl := h.distinct q' q j m message hq' hq
          exact .returned q' m r' hq' (by rw [hown, hd]; rfl)
    · rw [Ledger.set_entry, if_neg hj]
      refine (h.entry j).keep (fun _ _ => id) id (fun q' m hq' => hother q' fun he => hj ?_)
        (List.subset_append_left _ _)
      rw [he, hq] at hq'
      exact (Prod.mk.inj (Option.some.inj hq')).1.symm
  · have hlt : q < d.ledger.offers.length := (List.getElem?_eq_some_iff.mp hq).1
    have hle : d.ledger.offers.length ≤ q' := hq'
    exact (hother q' (by omega)).trans (h.fresh q' hle)

/-- An action of the ledger that is no answer keeps the invariant. -/
theorem deskInv_ledger (h : DeskInv hs d) {a : LedgerAction} {l : Ledger}
    (hst : d.ledger.step a = some l) (ha : Desk.answers a = false) :
    DeskInv (hs ++ ((d.ledger.event a).map .session).toList) { d with ledger := l } := by
  cases a with
  | arrive i message =>
      simp only [Ledger.step] at hst
      split at hst
      · rename_i he
        cases hst
        have hi := h.entry i
        rw [he] at hi
        refine deskInv_move h (some (.session (.arrived i message)))
          (fun q => decision_append q _) ?_
        cases hi with
        | absent hn => exact .arrived message hn (by simp)
      · cases hst
  | enter i =>
      simp only [Ledger.step] at hst
      split at hst
      · rename_i message he
        cases hst
        have hi := h.entry i
        rw [he] at hi
        have hdec : ∀ q, decision q (hs ++ ((d.ledger.event (.enter i)).map
            Happening.session).toList) = decision q hs := fun q => by
          rw [decision_append]
          simp only [Ledger.event]
          split <;> rfl
        refine deskInv_move h _ hdec ?_
        cases hi with
        | arrived _ hn harr =>
            cases hc : d.ledger.closed with
            | true => exact .turnedAway hn rfl
            | false => exact .posted message none hn (List.mem_append_left _ harr) rfl
      · cases hst
  | offer i =>
      simp only [Ledger.step] at hst
      split at hst
      · rename_i message a he
        cases hst
        exact deskInv_offer h he
      · cases hst
  | refuse i debug =>
      simp only [Ledger.step] at hst
      split at hst
      · rename_i message a he
        cases hst
        have hi := h.entry i
        rw [he] at hi
        exact deskInv_move h (some (.session (.refused i debug)))
          (fun q => decision_append q _) (.refused debug hi.of_posted.1 (by simp))
      · cases hst
  | answer i r => cases ha
  | settle i =>
      simp only [Ledger.step] at hst
      split at hst
      · rename_i r he
        cases hst
        have hi := h.entry i
        rw [he] at hi
        refine deskInv_move h none (fun q => decision_append q none) ?_
        rw [Option.toList_none, List.append_nil]
        cases hi with
        | offered q message _ hq hd => exact .decided q message r hq hd
      · cases hst
  | giveBack i =>
      simp only [Ledger.step] at hst
      split at hst
      · rename_i r he
        cases hst
        have hi := h.entry i
        rw [he] at hi
        have hev : d.ledger.event (.giveBack i) = some (.returned i (Native.handlerResult r)) := by
          simp only [Ledger.event, he]
        rw [hev]
        have hdec : ∀ q, decision q (hs ++ [.session (.returned i (Native.handlerResult r))]) =
            decision q hs := fun q => decision_append q (some (.session (.returned i _)))
        refine deskInv_move h (some (.session (.returned i (Native.handlerResult r)))) hdec ?_
        cases hi with
        | decided q message _ hq hd => exact .returned q message r hq ((hdec q).trans hd)
        | refused debug hn hr => exact .returnedRefused debug hn (List.mem_append_left _ hr)
      · cases hst
  | close =>
      cases hst
      exact deskInv_close h

/-- **One action of the desk keeps the invariant.** -/
theorem deskInv_step (h : DeskInv hs d) {a : DeskAction} (hst : desk.step d a = some d') :
    DeskInv (hs ++ (d.happening a).toList) d' := by
  change d.step a = some d' at hst
  cases a with
  | ledger a =>
      obtain ⟨ha, hst⟩ := Option.ite_none_left_eq_some.mp hst
      obtain ⟨l, hl, rfl⟩ := Option.map_eq_some_iff.mp hst
      exact deskInv_ledger h hl (by simpa using ha)
  | start =>
      obtain ⟨-, hst⟩ := Option.ite_none_right_eq_some.mp hst
      cases hst
      refine deskInv_same h _ (fun q => ?_) rfl
      rw [decision_append]
      simp only [Desk.happening]
      cases d.ledger.offers[d.started]? <;> rfl
  | settle q r =>
      simp only [Desk.step] at hst
      split at hst
      · rename_i i message hq
        obtain ⟨-, hst⟩ := Option.ite_none_right_eq_some.mp hst
        cases hst
        exact deskInv_settle h hq
      · cases hst

/-- The invariant holds of every run of the desk, with what the run shows. -/
theorem deskInv_run {dtr : List DeskAction} (h : desk.Run dtr d) :
    DeskInv (desk.observed Desk.happening desk.init dtr) d := by
  induction h using System.Run.induct with
  | start =>
      refine ⟨fun i => .absent ?_, ?_, ?_, fun q _ => rfl⟩
      · intro q message hq
        cases hq
      · intro q i message hq
        cases hq
      · intro q q' i message message' hq
        cases hq
  | snoc dtr d a d' hr hs ih =>
      rw [desk.observed_concat Desk.happening hr hs]
      exact deskInv_step ih hs

end Desk

/-! ## 6. What the bridge returns -/

/-- The ack id a queued delivery carries is drawn by one invocation: the one offered there. -/
theorem offer_of_number {s : State} {d : Desk} {i k n : Nat} (hI : Native.Inv k s.native)
    (hk : k ≤ 2 ^ 53) (hR : RefinesDesk s d) {q : Nat} {message : TrueSealMessage}
    (hn : (s.native.onMessage i).drawn = some n)
    (hq : s.native.queue[q]? = some (Native.delivery message n)) :
    ∃ message', d.ledger.offers[q]? = some (i, message') := by
  obtain ⟨j, message', m, hoffer, hm, hdel⟩ := offer_of_queued hR hq
  have hack : Binary64.ofU64 n = Binary64.ofU64 m := congrArg MessageDelivery.ackId hdel
  have hexact : ∀ {j m : Nat}, (s.native.onMessage j).drawn = some m →
      (Binary64.ofU64 m).toU64 = m := fun hj =>
    Binary64.toU64_ofU64 (Nat.lt_of_lt_of_le (hI.issued _ _ hj) hk)
  obtain rfl : n = m := by rw [← hexact hn, hack, hexact hm]
  exact ⟨message', hI.unique j i n hm hn ▸ hoffer⟩

/-- No place of the queue holds the delivery with the ack id `n`. -/
def State.NotQueued (s : State) (n : Nat) : Prop :=
  ∀ (q : Nat) (message : TrueSealMessage),
    s.native.queue[q]? ≠ some (Native.delivery message n)

/-- What the desk was not offered is at no place of the queue. -/
theorem notQueued_of_notOffered {tr : List BridgeAction} {s : State} {d : Desk} {i n : Nat}
    (h : bridge.Run tr s) (hd : incoming tr ≤ 2 ^ 53) (hR : RefinesDesk s d)
    (hn : (s.native.onMessage i).drawn = some n) (hno : NotOffered d.ledger.offers i) :
    s.NotQueued n := by
  intro q message hq
  obtain ⟨ntr, hnative, hdel⟩ := bridge_native h
  have hI := Native.inv_run hnative (by unfold u64Size; omega)
  obtain ⟨message', hoffer⟩ := offer_of_number hI (hdel.symm ▸ hd) hR hn hq
  exact hno q message' hoffer

/-- Why a returned invocation returned what it did. -/
theorem returned_explained {tr : List BridgeAction} {s : State} (h : bridge.Run tr s)
    (hd : incoming tr ≤ 2 ^ 53) {i n : Nat} {res : Except HandlerError Unit}
    (hr : s.native.onMessage i = .returned n res) : ∃ d, RefinesDesk s d ∧
      DeskInv (happenings tr) d ∧
      Explained (happenings tr) d.ledger.closed d.ledger.offers i (.returned res) := by
  obtain ⟨dtr, d, hrun, hR, hobs⟩ := bridge_simulation.run h hd
  have hinv : DeskInv (happenings tr) d := by
    rw [happenings, ← hobs]
    exact deskInv_run hrun
  refine ⟨d, hR, hinv, ?_⟩
  have hex := hinv.entry i
  have he := hR.ledger.entry_at hr
  generalize d.ledger.entry i = e at hex he
  cases he with
  | returned => exact hex

/-- **A delivery returns what its own handler settled first.** In every run of the two threads with
    at most `2^53` deliveries, an invocation `i` of `on_message` that has returned is one of three:

    * the queue accepted its delivery, at some place `q` and with the message that came in, and it
      returns the first settlement of the handler run of this place, or `Ok(())` where a closing
      came before;
    * the queue refused it, so that it is at no place of the queue, and it returns the error that
      names the status;
    * it was turned away with `Ok(())` by a session that was closed, and is at no place of the queue
      either. -/
theorem own_handler_decides {tr : List BridgeAction} {s : State} (h : bridge.Run tr s)
    (hd : incoming tr ≤ 2 ^ 53) {i n : Nat} {res : Except HandlerError Unit}
    (hr : s.native.onMessage i = .returned n res) :
    (∃ q message r, s.native.queue[q]? = some (Native.delivery message n) ∧
      .session (.arrived i message) ∈ bridge.observed State.happening bridge.init tr ∧
      decision q (bridge.observed State.happening bridge.init tr) = some r ∧
      res = Native.handlerResult r) ∨
    (∃ debug, .session (.refused i debug) ∈ bridge.observed State.happening bridge.init tr ∧
      s.NotQueued n ∧ res = .error (.failed (Native.dispatchFailed debug))) ∨
    (s.native.pending.closed = true ∧ s.NotQueued n ∧ res = .ok ()) := by
  obtain ⟨d, hR, hinv, hex⟩ := returned_explained h hd hr
  have hdrawn : (s.native.onMessage i).drawn = some n := by
    rw [hr]
    rfl
  cases hex with
  | returned q message r hq hdec =>
      -- the id the delivery carries is the one `i` has drawn
      obtain ⟨m, hm, hqueue⟩ := queued_of_offer hR hq
      rw [hr] at hm
      cases hm
      exact Or.inl ⟨q, message, r, hqueue, hinv.source q i message hq, hdec, rfl⟩
  | returnedRefused debug hn href =>
      exact Or.inr (Or.inl ⟨debug, href, notQueued_of_notOffered h hd hR hdrawn hn, rfl⟩)
  | turnedAway hn hc =>
      exact Or.inr (Or.inr
        ⟨hR.ledger.closed ▸ hc, notQueued_of_notOffered h hd hR hdrawn hn, rfl⟩)

/-- The handler at the first place fails and then settles again: its delivery returns the error. -/
theorem own_handler_decides_twoHandlers : ∃ s : State,
    (∃ q message r, s.native.queue[q]? = some (Native.delivery message 1) ∧
      .session (.arrived 1 message) ∈ bridge.observed State.happening bridge.init twoHandlers ∧
      decision q (bridge.observed State.happening bridge.init twoHandlers) = some r ∧
      .error (.failed "no") = Native.handlerResult r) ∨
    (∃ debug, .session (.refused 1 debug) ∈
        bridge.observed State.happening bridge.init twoHandlers ∧
      s.NotQueued 1 ∧ (.error (.failed "no") : Except HandlerError Unit) =
        .error (.failed (Native.dispatchFailed debug))) ∨
    (s.native.pending.closed = true ∧ s.NotQueued 1 ∧
      (.error (.failed "no") : Except HandlerError Unit) = .ok ()) := by
  obtain ⟨s, hs, hp⟩ := bridge.exists_run twoHandlers
    (fun s => s.native.onMessage 1 = .returned 1 (.error (.failed "no"))) (by decide +kernel)
  exact ⟨s, own_handler_decides hs (by decide) (of_decide_eq_true hp)⟩

end TrueSealSync.System
