/-
  File:      TrueSealSync/System/Delivery.lean
  Subject:   THE TWO THREADS TOGETHER: deliveries that the core threads queue, and the JavaScript
             thread that runs them, closes and cancels.

  The threadsafe function is the queue between them: a call it accepted is run once, in order, and
  neither `close()` nor `cancel()` takes it out again. The JavaScript thread is one: while it is
  inside `close()` it runs nothing else.

  * `State`, `Action`, `machine` -- the composite; `native_run` takes each run to a run of the
    pending-ack machine;
  * `handled_run` -- the handler is started for the queued deliveries, once each and in order;
  * `handler_stops` -- no handler starts after a `close()` or `cancel()` has returned, as long as
    each of them returns with no delivery in the queue and none is queued afterwards; where every
    queued delivery is run in the end, in no other runs.
-/
import TrueSealSync.Sdk.Dispatcher

namespace TrueSealSync.System

open TrueSealSync.Lib
open TrueSealSync.Native (TrueSealMessage)
open TrueSealSync.Sdk (handlerArgument)

/-! ## 1. The composite -/

structure State where
  native : Native.State := {}
  /-- how many calls of the queue the JavaScript thread has run -/
  popped : Nat := 0
  /-- the messages the handler was started with -/
  handled : List TrueSealMessage := []
  /-- the `close()` the JavaScript thread is inside of -/
  closing : Option Nat := none
  /-- some `close()` or `cancel()` has returned -/
  stopped : Bool := false

inductive Action where
  /-- a step of `on_message` on a core thread, of `completeMessage` or of `close()` -/
  | native (a : Native.Action)
  /-- the JavaScript thread runs the next call of the queue: the dispatcher starts the handler -/
  | pop
  | closeReturn
  /-- `cancel()` of the Subscription of the handler -/
  | cancel
  deriving DecidableEq

namespace State

/-- A step of the native session, after which the JavaScript thread is inside of `closing`. -/
def act (s : State) (a : Native.Action) (closing : Option Nat) : Option State :=
  (s.native.step a).map fun native => { s with native := native, closing := closing }

/-- The dispatcher is started on a delivery, and it starts the handler
    (`Sdk.messageDispatcher_exec`). -/
def start (s : State) (delivery : Native.MessageDelivery) : State :=
  { s with popped := s.popped + 1, handled := s.handled ++ [handlerArgument delivery] }

def step (s : State) : Action → Option State
  | .native a =>
      match a with
      | .fetchAdd _ _ | .insert _ | .call _ _ | .recv _ | .remove _ => s.act a s.closing
      | .completeRemove _ _ _ | .completeSend _ => if s.closing = none then s.act a none else none
      | .innerClose k => if s.closing = none then s.act a (some k) else none
      | .closeDrain k => if s.closing = some k then s.act a (some k) else none
  | .pop =>
      if s.closing = none then (s.native.queue[s.popped]?).map s.start else none
  | .closeReturn =>
      match s.closing with
      | some k =>
          if s.native.close k = .done then some { s with closing := none, stopped := true } else none
      | none => none
  | .cancel => if s.closing = none then some { s with stopped := true } else none

end State

/-- **The composite machine**: a session with a handler, and its steps. -/
def machine : System State Action := ⟨{}, State.step⟩

/-! ## 2. What a step can do -/

/-- One step, case by case. -/
inductive Step (s : State) : Action → State → Prop where
  /-- the session's step; `closing` is set by a step of `close()` only -/
  | native (a : Native.Action) (native : Native.State) (closing : Option Nat)
      (hn : Native.machine.step s.native a = some native)
      (hkeep : closing = s.closing ∨ closing ≠ none)
      (hdrain : ∀ k, a = .closeDrain k → closing ≠ none) :
      Step s (.native a) { s with native := native, closing := closing }
  | pop (delivery : Native.MessageDelivery) (hq : s.native.queue[s.popped]? = some delivery)
      (hc : s.closing = none) : Step s .pop (s.start delivery)
  | closeReturn (k : Nat) (hc : s.closing = some k) (hd : s.native.close k = .done) :
      Step s .closeReturn { s with closing := none, stopped := true }
  | cancel (hc : s.closing = none) : Step s .cancel { s with stopped := true }

theorem step_act {s s' : State} {a : Native.Action} {closing : Option Nat}
    (h : s.act a closing = some s') (hkeep : closing = s.closing ∨ closing ≠ none)
    (hdrain : ∀ k, a = .closeDrain k → closing ≠ none) : Step s (.native a) s' := by
  obtain ⟨native, hn, rfl⟩ := Option.map_eq_some_iff.mp h
  exact .native a native closing hn hkeep hdrain

/-- A taken step is one of the cases. -/
theorem step_cases {s s' : State} {a : Action} (h : machine.step s a = some s') : Step s a s' := by
  change s.step a = some s' at h
  cases a with
  | native a =>
      cases a with
      | fetchAdd | insert | call | recv | remove => exact step_act h (.inl rfl) nofun
      | completeRemove | completeSend =>
          obtain ⟨hc, h⟩ := Option.ite_none_right_eq_some.mp h
          exact step_act h (.inl hc.symm) nofun
      | innerClose k =>
          obtain ⟨-, h⟩ := Option.ite_none_right_eq_some.mp h
          exact step_act h (.inr nofun) nofun
      | closeDrain k =>
          obtain ⟨hc, h⟩ := Option.ite_none_right_eq_some.mp h
          exact step_act h (.inl hc.symm) fun _ _ => nofun
  | pop =>
      obtain ⟨hc, h⟩ := Option.ite_none_right_eq_some.mp h
      obtain ⟨delivery, hq, rfl⟩ := Option.map_eq_some_iff.mp h
      exact .pop delivery hq hc
  | closeReturn =>
      simp only [State.step] at h
      split at h
      · rename_i k hc
        obtain ⟨hd, h⟩ := Option.ite_none_right_eq_some.mp h
        cases h
        exact .closeReturn k hc hd
      · cases h
  | cancel =>
      obtain ⟨hc, h⟩ := Option.ite_none_right_eq_some.mp h
      cases h
      exact .cancel hc

/-- A step of the session changes the queue where `tsfn.call` accepts a delivery, and the closed
    flag in the drain only. -/
theorem native_frame {n n' : Native.State} {a : Native.Action}
    (h : Native.machine.step n a = some n') :
    (n'.queue = n.queue ∨ ∃ i delivery, a = .call i .ok ∧ n'.queue = n.queue ++ [delivery]) ∧
      (n'.pending.closed = n.pending.closed ∨ ∃ k, a = .closeDrain k) := by
  cases Native.step_cases h with
  | dispatch i m message hp => exact ⟨.inr ⟨i, _, rfl, rfl⟩, .inl rfl⟩
  | closeDrain k hp => exact ⟨.inl rfl, .inr ⟨k, rfl⟩⟩
  | _ => exact ⟨.inl rfl, .inl rfl⟩

/-! ## 3. Runs -/

section Runs

variable {s s' : State} {tr : List Action}

/-- The step of the session in an action of the composite. -/
def Action.session : Action → Option Native.Action
  | .native a => some a
  | .pop | .closeReturn | .cancel => none

/-- **Each run is a run of the session**, with what else the JavaScript thread does left out. -/
theorem native_run (h : machine.Run tr s) :
    Native.machine.Run (tr.filterMap Action.session) s.native := by
  induction h using System.Run.induct with
  | start => exact System.Run.start
  | snoc tr s a s' h hs ih =>
      rw [List.filterMap_append]
      cases step_cases hs with
      | native a native closing hn hkeep hdrain => exact ih.snoc hn
      | _ => exact (List.append_nil (tr.filterMap Action.session)).symm ▸ ih

/-- **The handler is started for the queued deliveries**, once each and in their order. -/
theorem handled_run (h : machine.Run tr s) : s.popped ≤ s.native.queue.length ∧
    s.handled = (s.native.queue.take s.popped).map handlerArgument := by
  induction h using System.Run.induct with
  | start => exact ⟨Nat.le_refl 0, rfl⟩
  | snoc tr s a s' h hs ih =>
      obtain ⟨hle, hhandled⟩ := ih
      cases step_cases hs with
      | native a native closing hn hkeep hdrain =>
          rcases (native_frame hn).1 with hq | ⟨i, delivery, -, hq⟩
          · exact hq ▸ ⟨hle, hhandled⟩
          · rw [hq, List.length_append, List.take_append_of_le_length hle]
            exact ⟨Nat.le_add_right_of_le hle, hhandled⟩
      | pop delivery hq hc =>
          obtain ⟨hlt, -⟩ := List.getElem?_eq_some_iff.mp hq
          refine ⟨hlt, ?_⟩
          show s.handled ++ [handlerArgument delivery] =
            (s.native.queue.take (s.popped + 1)).map handlerArgument
          rw [hhandled, List.take_add_one, hq, List.map_append]
          rfl
      | _ => exact ⟨hle, hhandled⟩

/-- A drain has run only inside of a `close()`, or before one returned. -/
theorem closed_run (h : machine.Run tr s) (hclosed : s.native.pending.closed = true) :
    s.closing ≠ none ∨ s.stopped = true := by
  induction h using System.Run.induct with
  | start => cases hclosed
  | snoc tr s a s' h hs ih =>
      cases step_cases hs with
      | native a native closing hn hkeep hdrain =>
          rcases (native_frame hn).2 with hc | ⟨k, rfl⟩
          · rcases ih (hc ▸ hclosed) with hbusy | hstop
            · exact .inl (hkeep.elim (fun he => he ▸ hbusy) id)
            · exact .inr hstop
          · exact .inl (hdrain k rfl)
      | pop delivery hq hc => exact ih hclosed
      | closeReturn k hc hd => exact .inr rfl
      | cancel hc => exact .inr rfl

/-! ## 4. No start after the stop -/

/-- **The condition**: where a `close()` or `cancel()` returns no delivery waits in the queue, and
    `tsfn.call` accepts none after one has returned. -/
def QuietStop (s : State) : Action → Prop
  | .closeReturn | .cancel => s.popped = s.native.queue.length
  | .native (.call _ .ok) => s.stopped = false
  | _ => True

instance (s : State) : DecidablePred (QuietStop s)
  | .closeReturn | .cancel => inferInstanceAs (Decidable (s.popped = s.native.queue.length))
  | .native (.call _ .ok) => inferInstanceAs (Decidable (s.stopped = false))
  | .native (.call _ (.other _)) | .native (.fetchAdd _ _) | .native (.insert _)
  | .native (.recv _) | .native (.remove _) | .native (.completeRemove _ _ _)
  | .native (.completeSend _) | .native (.innerClose _) | .native (.closeDrain _) | .pop =>
      .isTrue trivial

theorem quiet_native {a : Native.Action} (h : (∃ i, a = .call i .ok) → s.stopped = false) :
    QuietStop s (.native a) := by
  cases a with
  | call i status =>
      cases status with
      | ok => exact h ⟨i, rfl⟩
      | other debug => trivial
  | _ => trivial

/-- A handler starts only before any `close()` or `cancel()` has returned, and before a drain has
    released anything. -/
def StartsInTime (s : State) (a : Action) : Prop :=
  a = .pop → s.stopped = false ∧ s.native.pending.closed = false

/-- Where stops are quiet, a stopped session has nothing in its queue. -/
theorem quiet_run (h : machine.Run tr s) (hquiet : machine.Along QuietStop tr) :
    machine.Along StartsInTime tr ∧ (s.stopped = true → s.popped = s.native.queue.length) := by
  induction h using System.Run.induct with
  | start => exact ⟨System.along_nil, nofun⟩
  | snoc tr s a s' h hs ih =>
      obtain ⟨hquiet, ha⟩ := (System.along_snoc_iff h).mp hquiet
      obtain ⟨hintime, hempty⟩ := ih hquiet
      cases step_cases hs with
      | native a native closing hn hkeep hdrain =>
          refine ⟨(System.along_snoc_iff h).mpr ⟨hintime, nofun⟩, fun hstop => ?_⟩
          rcases (native_frame hn).1 with hq | ⟨i, delivery, rfl, hq⟩
          · exact hq ▸ hempty hstop
          · have hrunning : s.stopped = false := ha
            exact absurd (hrunning.symm.trans hstop) Bool.false_ne_true
      | pop delivery hq hc =>
          have hlt := (List.getElem?_eq_some_iff.mp hq).1
          have hrunning : s.stopped = false := by
            cases hstop : s.stopped with
            | false => rfl
            | true => exact absurd (hempty hstop) (Nat.ne_of_lt hlt)
          have hopen : s.native.pending.closed = false := by
            cases hclosed : s.native.pending.closed with
            | false => rfl
            | true =>
                rcases closed_run h hclosed with hbusy | hstop
                · exact absurd hc hbusy
                · exact absurd (hrunning.symm.trans hstop) Bool.false_ne_true
          exact ⟨(System.along_snoc_iff h).mpr ⟨hintime, fun _ => ⟨hrunning, hopen⟩⟩,
            fun hstop => absurd (hrunning.symm.trans hstop) Bool.false_ne_true⟩
      | closeReturn k hc hd =>
          exact ⟨(System.along_snoc_iff h).mpr ⟨hintime, nofun⟩, fun _ => ha⟩
      | cancel hc => exact ⟨(System.along_snoc_iff h).mpr ⟨hintime, nofun⟩, fun _ => ha⟩

/-- From a stopped session on, if no handler starts, the queue grows at most. -/
theorem stopped_exec {post : List Action} (h : machine.Run tr s) (hstop : s.stopped = true)
    (hintime : machine.Along StartsInTime (tr ++ post)) (hex : machine.exec s post = some s') :
    s'.popped = s.popped ∧ s.native.queue.length ≤ s'.native.queue.length := by
  induction post generalizing tr s with
  | nil =>
      cases hex
      exact ⟨rfl, Nat.le_refl _⟩
  | cons a post ih =>
      obtain ⟨t, hst, hex⟩ := Option.bind_eq_some_iff.mp hex
      have hfires : machine.Fires (tr ++ a :: post) s a := ⟨tr, post, rfl, h⟩
      have hone : t.stopped = true ∧ t.popped = s.popped ∧
          s.native.queue.length ≤ t.native.queue.length := by
        cases step_cases hst with
        | native a native closing hn hkeep hdrain =>
            rcases (native_frame hn).1 with hq | ⟨i, delivery, -, hq⟩
            · exact ⟨hstop, rfl, hq ▸ Nat.le_refl _⟩
            · exact ⟨hstop, rfl, by simp [hq]⟩
        | pop delivery hq hc =>
            have hrunning := (hintime s .pop hfires rfl).1
            exact absurd (hrunning.symm.trans hstop) Bool.false_ne_true
        | closeReturn k hc hd => exact ⟨rfl, rfl, Nat.le_refl _⟩
        | cancel hc => exact ⟨rfl, rfl, Nat.le_refl _⟩
      obtain ⟨hstop', hpopped, hlen⟩ := hone
      obtain ⟨hpopped', hlen'⟩ := ih (h.snoc hst) hstop' (by simpa using hintime) hex
      exact ⟨hpopped'.trans hpopped, hlen.trans hlen'⟩

/-- **No handler starts after the stop where stops are quiet**; and where every queued delivery is
    run in the end, the handler starts after some stop in all other runs. -/
theorem handler_stops (h : machine.Run tr s) :
    (machine.Along QuietStop tr → machine.Along StartsInTime tr) ∧
      (s.popped = s.native.queue.length → machine.Along StartsInTime tr →
        machine.Along QuietStop tr) := by
  refine ⟨fun hquiet => (quiet_run h hquiet).1, fun hdrained hintime => ?_⟩
  intro t a ⟨pre, post, he, hr⟩
  subst he
  obtain ⟨u, hu, hex⟩ := h.split
  obtain rfl := hu.unique hr
  obtain ⟨t, hst, hex⟩ := Option.bind_eq_some_iff.mp hex
  have hle := (handled_run hr).1
  -- what a stopped session has in its queue at `t` it still has at the end
  have hlater : t.stopped = true → s.popped = t.popped ∧ t.native.queue.length ≤ s.popped :=
    fun hstop => hdrained ▸ stopped_exec (hr.snoc hst) hstop (by simpa using hintime) hex
  cases step_cases hst with
  | pop delivery hq hc => trivial
  | closeReturn k hc hd =>
      obtain ⟨hpopped, hlen⟩ := hlater rfl
      exact Nat.le_antisymm hle (hlen.trans (Nat.le_of_eq hpopped))
  | cancel hc =>
      obtain ⟨hpopped, hlen⟩ := hlater rfl
      exact Nat.le_antisymm hle (hlen.trans (Nat.le_of_eq hpopped))
  | native a native closing hn hkeep hdrain =>
      refine quiet_native fun ⟨i, hcall⟩ => ?_
      subst hcall
      cases hstop : u.stopped with
      | false => rfl
      | true =>
          obtain ⟨hpopped, hlen⟩ := hlater hstop
          cases Native.step_cases hn with
          | dispatch i n message hp =>
              have hgrown : (u.native.queue ++ [Native.delivery message n]).length ≤ s.popped := hlen
              have hsame : s.popped = u.popped := hpopped
              rw [List.length_append, List.length_singleton] at hgrown
              omega

end Runs

/-- A delivery whose handler is started before the session is closed. -/
def quietRun : List Action :=
  [.native (.fetchAdd 0 Native.sampleMessage), .native (.insert 0), .native (.call 0 .ok), .pop,
    .native (.innerClose 0), .native (.closeDrain 0), .closeReturn]

theorem handler_stops_quietRun : machine.Along StartsInTime quietRun := by
  obtain ⟨s, hs, -⟩ := machine.exists_run quietRun (fun _ => true) (by decide)
  have hcheck : machine.check (fun s a => decide (QuietStop s a)) machine.init quietRun = true := by
    decide
  exact (handler_stops hs).1 fun t a hf =>
    of_decide_eq_true (System.along_of_check hcheck t a hf)

/-- The same delivery, queued when `close()` is called. -/
def lateRun : List Action :=
  [.native (.fetchAdd 0 Native.sampleMessage), .native (.insert 0), .native (.call 0 .ok),
    .native (.innerClose 0), .native (.closeDrain 0), .closeReturn, .pop]

/-- **A delivery that waits in the queue while `close()` releases it as abandoned is handed to the
    handler after `close()` has returned.** -/
theorem close_leaves_delivery_queued :
    (∃ s, machine.Run lateRun s ∧ s.stopped = true ∧ s.handled = [Native.sampleMessage] ∧
      s.native.cells 0 = .sent (.ok ())) ∧
    ¬ ∀ tr s, machine.Run tr s → machine.Along StartsInTime tr := by
  obtain ⟨t, ht, hstop⟩ := machine.exists_run (lateRun.take 6) (fun t => t.stopped) (by decide)
  obtain ⟨s, hs, hend⟩ := machine.exists_run lateRun (fun s => decide (s.stopped = true ∧
    s.handled = [Native.sampleMessage] ∧ s.native.cells 0 = .sent (.ok ()))) (by decide)
  refine ⟨⟨s, hs, of_decide_eq_true hend⟩, fun hall => ?_⟩
  have hrunning := (hall lateRun s hs t .pop ⟨lateRun.take 6, [], rfl, ht⟩ rfl).1
  rw [hstop] at hrunning
  cases hrunning

end TrueSealSync.System
