/-
  File:      TrueSealSync/System/EventLoop.lean
  Subject:   THE WHOLE PATH: src/index.ts on the JavaScript thread, src/session.rs on both, and what
             the relay is told about a message.

  The event loop takes the next call of the queue, runs the dispatcher of `TrueSeal.onMessage` on it
  to its end, and then the callbacks a thenable was given, whenever user code calls them. In between
  and meanwhile the core threads take their steps, and JavaScript calls `close()` and `cancel()`.

  * `Loop`, `turn`, `Elsewhere`, `Reached` -- the worlds of the event loop: the two threads of the
    bridge, and what each handler run has done, by the place of its delivery in the queue;
  * `Good` -- the invariant: the loop is a run of the bridge, in which each place is settled with
    what its own dispatcher sent, and whoever sends a success has a reason;
  * `loop_refines_bridge` -- so the event loop refines the bridge;
  * `told_as_handled` -- an invocation of `on_message` returns `Ok(())` only if its own handler has
    handled the message, or the session was closed, and an error only with what was sent for it.
-/
import TrueSealSync.Sdk.Settlement
import TrueSealSync.System.Bridge

namespace TrueSealSync.System

open TrueSealSync.Lib
open TrueSealSync.Native (TrueSealMessage MessageDelivery AckResult HandlerError outcome)
open TrueSealSync.Sdk (Js JsVal Realm Note Due Reasoned Success Probed handlerArgument
  napiOptionString taken typeOf)

/-! ## 1. The worlds of the event loop -/

/-- What the JavaScript thread works on. -/
structure Loop (υ : Type) where
  sys : State := {}
  /-- how often `completeMessage` was called -/
  calls : Nat := 0
  /-- how many deliveries came in -/
  deliveries : Nat := 0
  /-- what the handler run of each place of the queue has done -/
  log : Nat → List Note := fun _ => []
  user : υ

section Code

variable {υ : Type}

namespace Loop

def noted (q : Nat) (n : Note) (w : Loop υ) : Loop υ :=
  { w with log := Function.update w.log q (w.log q ++ [n]) }

@[simp] theorem noted_log (q p : Nat) (n : Note) (w : Loop υ) :
    (w.noted q n).log p = if p = q then w.log q ++ [n] else w.log p :=
  Function.update_apply ..

@[simp] theorem noted_sys (q : Nat) (n : Note) (w : Loop υ) : (w.noted q n).sys = w.sys := rfl

/-- Both steps of one `complete_message` call, which is the next call. -/
def completed (ackId : Binary64) (error : Option String) (w : Loop υ) : Loop υ :=
  { w with
    sys := { w.sys with
      native := (Sdk.completed w.sys.native ackId error).setComplete w.calls .done }
    calls := w.calls + 1 }

end Loop

variable (conversionError : JsVal)

def noteAt (q : Nat) (n : Note) : Js (Loop υ) Unit := modify (Loop.noted q n)

@[simp] theorem noteAt_exec (q : Nat) (n : Note) (w : Loop υ) :
    (noteAt q n).exec w = (.ok (), w.noted q n) := rfl

/-- `completeMessage(ackId, error)`, noted for the handler run at `q`. -/
def completeAt (q : Nat) (ackId : Binary64) (error : JsVal) : Js (Loop υ) Unit := do
  let w ← get
  noteAt q (.sent error (taken conversionError ackId w.sys.native error))
  match napiOptionString conversionError error with
  | .ok error => modify (Loop.completed ackId error)
  | .error err => throw err

/-- The realm, with the reads of the dispatcher at `q` and the calls of its callbacks noted. -/
def realmAt (q : Nat) (realm : Realm (Loop υ)) : Realm (Loop υ) where
  instanceofError := realm.instanceofError
  get v key := do
    noteAt q (.reading key)
    let answer ← realm.get v key
    noteAt q (.answered key answer)
    return answer
  toString := realm.toString
  callThen then_ value onFulfilled onRejected := do
    noteAt q .handed
    realm.callThen then_ value (do noteAt q .fulfilled; onFulfilled)
      fun err => do noteAt q (.rejected err); onRejected err

/-- The handler, with what it returns noted. -/
def handlerAt (q : Nat) (handler : TrueSealMessage → Js (Loop υ) JsVal) (m : TrueSealMessage) :
    Js (Loop υ) JsVal := do
  let value ← handler m
  noteAt q (.returned value)
  return value

/-- **One turn of the event loop**: the next call of the queue is `delivery`, and the dispatcher
    runs on it. -/
def turn (realm : Realm (Loop υ)) (handler : TrueSealMessage → Js (Loop υ) JsVal)
    (delivery : MessageDelivery) (w : Loop υ) : Loop υ :=
  ((Sdk.messageDispatcher (realmAt w.sys.popped realm) (completeAt conversionError w.sys.popped)
    (handlerAt w.sys.popped handler) delivery).exec { w with sys := w.sys.start delivery }).2

/-- The world after `complete(error)`. -/
def completionAt (q : Nat) (ackId : Binary64) (error : JsVal) (w : Loop υ) : Loop υ :=
  match napiOptionString conversionError error with
  | .ok e =>
      (w.noted q (.sent error (taken conversionError ackId w.sys.native error))).completed ackId e
  | .error _ => w.noted q (.sent error (taken conversionError ackId w.sys.native error))

theorem complete_exec (q : Nat) (ackId : Binary64) (error : JsVal) (w : Loop υ) :
    (Sdk.complete (completeAt conversionError q) ackId error).exec w =
      (.ok (), completionAt conversionError q ackId error w) := by
  unfold Sdk.complete completeAt completionAt
  rw [Throwing.exec_tryCatch, Throwing.exec_bind, Throwing.exec_get]
  simp only [Throwing.exec_bind, noteAt_exec]
  cases napiOptionString conversionError error <;> rfl

/-- User code has the callbacks of the handler run at `q`, whose delivery is `delivery`. -/
structure Handed (q : Nat) (delivery : MessageDelivery) (w : Loop υ) : Prop where
  handed : .handed ∈ w.log q
  queued : w.sys.native.queue[q]? = some delivery

/-- The actions that are the event loop's own: it runs the queue, and it completes. -/
def Action.byLoop : Action → Bool
  | .pop => true
  | a => a.completes

/-- **What user code and the other threads can do**: change the user's state, let the core threads
    take steps, call `close()` and `cancel()`, and call the callbacks of any handler run that were
    handed out. A call of a reject callback describes its argument first, and that runs user code
    again. -/
inductive Elsewhere : Loop υ → Loop υ → Prop where
  | refl (w : Loop υ) : Elsewhere w w
  | trans {u v w : Loop υ} (h : Elsewhere u v) (h' : Elsewhere v w) : Elsewhere u w
  | user (w : Loop υ) (user : υ) : Elsewhere w { w with user := user }
  | session (w : Loop υ) (tr : List Action) (sys : State) (hown : ∀ a ∈ tr, a.byLoop = false)
      (h : machine.exec w.sys tr = some sys) (hfree : sys.closing = none) :
      Elsewhere w
        { w with sys := sys, deliveries := w.deliveries + incoming (tr.map .session) }
  | fulfilled {w : Loop υ} (q : Nat) (delivery : MessageDelivery) (hh : Handed q delivery w) :
      Elsewhere w (completionAt conversionError q delivery.ackId .null (w.noted q .fulfilled))
  | rejectedText {w w₁ : Loop υ} (q : Nat) (delivery : MessageDelivery) (err : JsVal)
      (text : String) (hh : Handed q delivery w) (h : Elsewhere (w.noted q (.rejected err)) w₁) :
      Elsewhere w (completionAt conversionError q delivery.ackId (.string text) w₁)
  | rejectedMessage {w w₁ w₂ : Loop υ} (q : Nat) (delivery : MessageDelivery) (err message : JsVal)
      (hh : Handed q delivery w) (h₁ : Elsewhere (w.noted q (.rejected err)) w₁)
      (h₂ : Elsewhere (w₁.noted q (.reading "message")) w₂) :
      Elsewhere w (completionAt conversionError q delivery.ackId message
        (w₂.noted q (.answered "message" message)))
  | rejectedUnreadable {w w₁ w₂ : Loop υ} (q : Nat) (delivery : MessageDelivery) (err : JsVal)
      (hh : Handed q delivery w) (h₁ : Elsewhere (w.noted q (.rejected err)) w₁)
      (h₂ : Elsewhere (w₁.noted q (.reading "message")) w₂) :
      Elsewhere w
        (completionAt conversionError q delivery.ackId (.string "<unprintable error>") w₂)

/-- User code does no more than that; the callbacks it is given are called as it likes. -/
structure UserCode (realm : Realm (Loop υ)) (handler : TrueSealMessage → Js (Loop υ) JsVal) :
    Prop where
  reads : realm.Preserves (Elsewhere conversionError)
  handler : ∀ m, Throwing.Preserves (Elsewhere conversionError) (handler m)
  callThen : ∀ (q : Nat) (delivery : MessageDelivery) then_ value (f : Js (Loop υ) Unit)
    (g : JsVal → Js (Loop υ) Unit),
    (∀ w : Loop υ, Handed q delivery w → Elsewhere conversionError w (f.exec w).2) →
    (∀ err, ∀ w : Loop υ, Handed q delivery w → Elsewhere conversionError w ((g err).exec w).2) →
    ∀ w : Loop υ, Handed q delivery w →
      Elsewhere conversionError w ((realm.callThen then_ value f g).exec w).2

/-- **The worlds the event loop reaches.** -/
inductive Reached (realm : Realm (Loop υ)) (handler : TrueSealMessage → Js (Loop υ) JsVal) :
    Loop υ → Prop where
  | start (user : υ) : Reached realm handler { user := user }
  | elsewhere {w w' : Loop υ} (h : Reached realm handler w) (h' : Elsewhere conversionError w w') :
      Reached realm handler w'
  | turn {w : Loop υ} (delivery : MessageDelivery) (h : Reached realm handler w)
      (hq : w.sys.native.queue[w.sys.popped]? = some delivery) :
      Reached realm handler (turn conversionError realm handler delivery w)

end Code

/-! ## 2. What the bridge shows of it -/

/-- The settlements of the place `q`, in order. -/
def settledAt (q : Nat) (hs : List Happening) : List AckResult :=
  hs.filterMap fun
    | .settled p r => if p = q then some r else none
    | _ => none

/-- The results that were sent for a delivery: `completeMessage` took their argument. -/
def sentResults (conversionError : JsVal) (log : List Note) : List AckResult :=
  log.filterMap fun
    | .sent error _ => (napiOptionString conversionError error).toOption.map outcome
    | _ => none

theorem settledAt_append (q : Nat) (hs hs' : List Happening) :
    settledAt q (hs ++ hs') = settledAt q hs ++ settledAt q hs' :=
  List.filterMap_append

theorem sentResults_append (conversionError : JsVal) (log log' : List Note) :
    sentResults conversionError (log ++ log') =
      sentResults conversionError log ++ sentResults conversionError log' :=
  List.filterMap_append

/-- What is decided at a place is its first settlement, or the closing that came before it. -/
theorem decision_cases {q : Nat} {hs : List Happening} {r : AckResult}
    (h : decision q hs = some r) :
    r ∈ settledAt q hs ∨ (.session .closed ∈ hs ∧ r = .ok ()) := by
  induction hs using List.reverseRecOn with
  | nil => cases h
  | append_singleton hs x ih =>
      have hlast : decision q (hs ++ [x]) = decideNext q (decision q hs) x :=
        decision_append q (some x)
      rw [hlast] at h
      have hold : decision q hs = some r → r ∈ settledAt q (hs ++ [x]) ∨
          (.session .closed ∈ hs ++ [x] ∧ r = .ok ()) := fun hd => by
        rcases ih hd with hm | ⟨hm, hr⟩
        · exact Or.inl (settledAt_append q hs [x] ▸ List.mem_append_left _ hm)
        · exact Or.inr ⟨List.mem_append_left _ hm, hr⟩
      cases hd : decision q hs with
      | some v =>
          -- the place was decided before
          refine hold (hd.trans ?_)
          rw [hd] at h
          cases x with
          | started message => exact h
          | settled p r' =>
              by_cases hp : p = q <;> simpa [decideNext, hp] using h
          | session e => cases e <;> simpa [decideNext] using h
      | none =>
          rw [hd] at h
          cases x with
          | started message => cases h
          | settled p r' =>
              by_cases hp : p = q
              · refine Or.inl ?_
                have hr : r' = r := by simpa [decideNext, hp] using h
                rw [settledAt_append]
                simp [settledAt, hp, hr]
              · simp [decideNext, hp] at h
          | session e =>
              cases e with
              | closed =>
                  refine Or.inr ⟨by simp, ?_⟩
                  have hr : .ok () = r := by simpa [decideNext] using h
                  exact hr.symm
              | _ => cases h

section Actions

variable {s s' : State} {q : Nat}

/-- Steps of the composite that are none of the loop's own are steps of the bridge, and settle
    nothing. -/
theorem bridge_session {tr : List Action} (hown : ∀ a ∈ tr, a.byLoop = false)
    (h : machine.exec s tr = some s') : bridge.exec s (tr.map .session) = some s' ∧
      settledAt q (bridge.observed State.happening s (tr.map .session)) = [] := by
  induction tr generalizing s with
  | nil =>
      cases h
      exact ⟨rfl, rfl⟩
  | cons a tr ih =>
      obtain ⟨s₁, hst, hex⟩ := Option.bind_eq_some_iff.mp h
      obtain ⟨hex', hobs⟩ := ih (fun b hb => hown b (List.mem_cons_of_mem a hb)) hex
      have ha : a.completes = false := by
        have := hown a List.mem_cons_self
        cases a <;> first | exact this | rfl
      have hstep : bridge.step s (.session a) = some s₁ := by
        show (if a.completes then none else s.step a) = some s₁
        rw [ha]
        exact hst
      refine ⟨by simp [hstep, hex'], ?_⟩
      rw [List.map_cons, bridge.observed_cons State.happening hstep, settledAt_append, hobs]
      cases a with
      | native a =>
          simp only [State.happening]
          cases s.native.event a <;> rfl
      | pop =>
          simp only [State.happening]
          cases s.native.queue[s.popped]? <;> rfl
      | closeReturn | cancel => rfl

/-- **A completion is a settlement of the bridge**: under the number of a started delivery, by a
    call that is new. -/
theorem bridge_completed {c : Nat} {delivery : MessageDelivery} (error : Option String)
    (hfree : s.closing = none) (hq : s.native.queue[q]? = some delivery) (hlt : q < s.popped)
    (hc : s.native.complete c = .idle) : ∃ tr,
      bridge.exec s tr = some { s with
        native := (Sdk.completed s.native delivery.ackId error).setComplete c .done } ∧
      incoming tr = 0 ∧
      ∀ p, settledAt p (bridge.observed State.happening s tr) =
        if p = q then [outcome error] else [] := by
  have hsettle : ∀ {n : Native.State},
      Native.machine.step s.native (.completeRemove c delivery.ackId error) = some n →
      bridge.step s (.settle q c error) = some { s with native := n } := fun {n} hn => by
    show s.bridgeStep (.settle q c error) = some { s with native := n }
    simp only [State.bridgeStep, hq, if_pos hlt]
    show (if s.closing = none then s.act (.completeRemove c delivery.ackId error) none else none) =
      some { s with native := n }
    rw [if_pos hfree]
    exact Option.map_eq_some_iff.mpr ⟨_, hn, by rw [← hfree]⟩
  have hshown : ∀ p, settledAt p [Happening.settled q (outcome error)] =
      if p = q then [outcome error] else [] := fun p => by
    by_cases hp : p = q
    · simp [settledAt, hp]
    · simp [settledAt, hp, Ne.symm hp]
  cases hl : s.native.pending.senders.lookup delivery.ackId.toU64 with
  | none =>
      have hst := hsettle (Native.Step.miss c delivery.ackId error hc hl).taken
      refine ⟨[.settle q c error], ?_, rfl, fun p => ?_⟩
      · rw [bridge.exec_single, hst, Sdk.completed_of_miss error hl]
      · rw [bridge.observed_single State.happening hst]
        exact hshown p
  | some i =>
      have hexec : Native.machine.exec s.native [.completeRemove c delivery.ackId error,
          .completeSend c] =
            some ((Sdk.completed s.native delivery.ackId error).setComplete c .done) :=
        Sdk.completed_exec hc hl
      obtain ⟨n, hn, hsend⟩ := Option.bind_eq_some_iff.mp hexec
      have hst := hsettle hn
      have hst' : bridge.step { s with native := n } (.session (.native (.completeSend c))) =
          some { s with
            native := (Sdk.completed s.native delivery.ackId error).setComplete c .done } := by
        show (if s.closing = none then State.act _ _ none else none) = _
        rw [if_pos hfree]
        exact Option.map_eq_some_iff.mpr
          ⟨_, Native.machine.exec_single.mp hsend, by rw [← hfree]⟩
      refine ⟨[.settle q c error, .session (.native (.completeSend c))], ?_, rfl, fun p => ?_⟩
      · simp [hst, hst']
      · rw [bridge.observed_cons State.happening hst, bridge.observed_single State.happening hst',
          settledAt_append]
        exact (List.append_nil _).trans (hshown p)

/-- The queue and the number of started handlers grow. -/
theorem step_grows {a : Action} (h : machine.step s a = some s') :
    s.popped ≤ s'.popped ∧ s.native.queue <+: s'.native.queue := by
  cases step_cases h with
  | native a native closing hn =>
      refine ⟨Nat.le_refl _, ?_⟩
      rcases (native_frame hn).1 with hq | ⟨i, delivery, -, hq⟩
      · exact hq ▸ List.prefix_refl _
      · exact hq ▸ List.prefix_append _ _
  | pop delivery hq => exact ⟨Nat.le_succ _, List.prefix_refl _⟩
  | closeReturn | cancel => exact ⟨Nat.le_refl _, List.prefix_refl _⟩

theorem exec_grows {tr : List Action} (h : machine.exec s tr = some s') :
    s.popped ≤ s'.popped ∧ s.native.queue <+: s'.native.queue :=
  machine.exec_stable (P := fun t => s.popped ≤ t.popped ∧ s.native.queue <+: t.native.queue)
    (fun _ _ _ ht hst => ⟨Nat.le_trans ht.1 (step_grows hst).1, ht.2.trans (step_grows hst).2⟩)
    h ⟨Nat.le_refl _, List.prefix_refl _⟩

/-- A call that has not started is started by `completeMessage` only. -/
theorem idle_step {a : Action} {c : Nat} (ha : a.byLoop = false) (hc : s.native.complete c = .idle)
    (h : machine.step s a = some s') : s'.native.complete c = .idle := by
  cases step_cases h with
  | native a native closing hn =>
      show native.complete c = .idle
      cases Native.step_cases hn with
      | take | miss => cases ha
      | sendOutcome c' x e j hp =>
          have hne : c ≠ c' := fun he => by
            rw [he, hp] at hc
            cases hc
          simpa [Native.State.sendOutcome, hne] using hc
      | _ => exact hc
  | pop delivery hq => exact hc
  | closeReturn | cancel => exact hc

end Actions

/-! ## 3. The invariant -/

section Invariant

variable {υ : Type} {conversionError : JsVal} {w w' : Loop υ} {q : Nat}

/-- What holds of the logs, where `popped` handler runs were started. -/
structure Logs (popped : Nat) (log : Nat → List Note) : Prop where
  /-- only the started handler runs have done something -/
  placed : ∀ q, log q ≠ [] → q < popped
  /-- whoever completes without error has a reason -/
  reasoned : ∀ q, Reasoned (log q)
  returned : ∀ q, .handed ∈ log q → ∃ value, .returned value ∈ log q

/-- **The invariant of the event loop.** -/
structure Good (conversionError : JsVal) (w : Loop υ) : Prop where
  /-- the loop is a run of the bridge, where each place is settled with what was sent for it -/
  run : ∃ tr, bridge.Run tr w.sys ∧ incoming tr = w.deliveries ∧
    ∀ q, settledAt q (happenings tr) = sentResults conversionError (w.log q)
  fresh : ∀ c, w.calls ≤ c → w.sys.native.complete c = .idle
  free : w.sys.closing = none
  logs : Logs w.sys.popped w.log

/-- Everything that was done stays done. -/
structure Grows (w w' : Loop υ) : Prop where
  log : ∀ q, w.log q <+: w'.log q
  popped : w.sys.popped ≤ w'.sys.popped
  queue : w.sys.native.queue <+: w'.sys.native.queue

theorem Grows.refl (w : Loop υ) : Grows w w :=
  ⟨fun _ => List.prefix_refl _, Nat.le_refl _, List.prefix_refl _⟩

theorem Grows.trans {u v w : Loop υ} (h : Grows u v) (h' : Grows v w) : Grows u w :=
  ⟨fun q => (h.log q).trans (h'.log q), Nat.le_trans h.popped h'.popped, h.queue.trans h'.queue⟩

/-- A place of the queue, the started one of the delivery `delivery`. -/
structure Started (q : Nat) (delivery : MessageDelivery) (w : Loop υ) : Prop where
  popped : q < w.sys.popped
  queued : w.sys.native.queue[q]? = some delivery

theorem Grows.started {delivery : MessageDelivery} (h : Grows w w')
    (hs : Started q delivery w) : Started q delivery w' := by
  obtain ⟨hlt, hget⟩ := List.getElem?_eq_some_iff.mp hs.queued
  refine ⟨Nat.lt_of_lt_of_le hs.popped h.popped, ?_⟩
  rw [List.prefix_iff_getElem?.mp h.queue q hlt, hget]

theorem Handed.started {delivery : MessageDelivery} (h : Handed q delivery w)
    (hg : Good conversionError w) : Started q delivery w :=
  ⟨hg.logs.placed q (List.ne_nil_of_mem h.handed), h.queued⟩

theorem grows_noted (q : Nat) (n : Note) (w : Loop υ) : Grows w (w.noted q n) := by
  refine ⟨fun p => ?_, Nat.le_refl _, List.prefix_refl _⟩
  rw [Loop.noted_log]
  split
  · rename_i hp
    subst hp
    exact List.prefix_append _ _
  · exact List.prefix_refl _

theorem mem_noted (q : Nat) (n : Note) (w : Loop υ) : n ∈ (w.noted q n).log q := by simp

/-- One more note: a success has a reason, and the callbacks are handed out after the handler
    returned. -/
theorem Logs.noted {popped : Nat} {log : Nat → List Note} (h : Logs popped log) (hq : q < popped)
    {n : Note} (hn : ∀ error took, n = .sent error took → Success error →
      .answered "message" error ∈ log q ∨ Due (log q))
    (hh : n = .handed → ∃ value, .returned value ∈ log q) :
    Logs popped (Function.update log q (log q ++ [n])) := by
  have hlog : ∀ p, Function.update log q (log q ++ [n]) p = if p = q then log q ++ [n] else log p :=
    fun p => Function.update_apply ..
  refine ⟨fun p hp => ?_, fun p => ?_, fun p hp => ?_⟩
  · by_cases hpq : p = q
    · exact hpq ▸ hq
    · rw [hlog, if_neg hpq] at hp
      exact h.placed p hp
  · rw [hlog]
    split
    · exact Sdk.reasoned_concat (h.reasoned q) hn
    · exact h.reasoned p
  · rw [hlog] at hp ⊢
    by_cases hpq : p = q
    · rw [if_pos hpq] at hp ⊢
      have hret : ∃ value, .returned value ∈ log q := by
        rcases List.mem_append.mp hp with hm | hm
        · exact h.returned q hm
        · exact hh (List.mem_singleton.mp hm).symm
      obtain ⟨value, hv⟩ := hret
      exact ⟨value, List.mem_append_left _ hv⟩
    · rw [if_neg hpq] at hp ⊢
      exact h.returned p hp

/-- What was sent for a place, with one more note at `q`. -/
theorem sent_noted (p q : Nat) (n : Note) (w : Loop υ) :
    sentResults conversionError ((w.noted q n).log p) = sentResults conversionError (w.log p) ++
      if p = q then sentResults conversionError [n] else [] := by
  rw [Loop.noted_log]
  by_cases hp : p = q
  · rw [if_pos hp, if_pos hp, sentResults_append, hp]
  · rw [if_neg hp, if_neg hp, List.append_nil]

/-- A note that is no completion keeps the invariant. -/
theorem good_noted (h : Good conversionError w) (hq : q < w.sys.popped) {n : Note}
    (hn : n.plain = true) (hh : n = .handed → ∃ value, .returned value ∈ w.log q) :
    Good conversionError (w.noted q n) := by
  have hsent : ∀ error took, n ≠ .sent error took := by
    rintro error took rfl
    cases hn
  obtain ⟨tr, hrun, hin, hset⟩ := h.run
  refine ⟨⟨tr, hrun, hin, fun p => ?_⟩, h.fresh, h.free,
    h.logs.noted hq (fun error took he => absurd he (hsent error took)) hh⟩
  have hnone : sentResults conversionError [n] = [] := by
    cases n with
    | sent error took => exact absurd rfl (hsent error took)
    | _ => rfl
  rw [sent_noted, hset, hnone, ite_self, List.append_nil]

theorem completed_complete (s : Native.State) (x : Binary64) (e : Option String) :
    (Sdk.completed s x e).complete = s.complete := by
  unfold Sdk.completed
  split <;> rfl

/-- **A completion keeps the invariant**, where it is an error or has a reason. -/
theorem good_completion (h : Good conversionError w) {delivery : MessageDelivery}
    (hs : Started q delivery w) {error : JsVal}
    (hr : Success error → .answered "message" error ∈ w.log q ∨ Due (w.log q)) :
    Good conversionError (completionAt conversionError q delivery.ackId error w) := by
  obtain ⟨tr, hrun, hin, hset⟩ := h.run
  have hlogs := h.logs.noted hs.popped (n := .sent error
    (taken conversionError delivery.ackId w.sys.native error))
    (fun error' took he => by cases he; exact hr) nofun
  unfold completionAt
  cases hn : napiOptionString conversionError error with
  | error e =>
      refine ⟨⟨tr, hrun, hin, fun p => ?_⟩, h.fresh, h.free, hlogs⟩
      have hnone : sentResults conversionError
          [.sent error (taken conversionError delivery.ackId w.sys.native error)] = [] := by
        simp [sentResults, hn, Except.toOption]
      rw [sent_noted, hset, hnone, ite_self, List.append_nil]
  | ok e =>
      obtain ⟨tr', hex, hnew, hset'⟩ :=
        bridge_completed e h.free hs.queued hs.popped (h.fresh w.calls (Nat.le_refl _))
      refine ⟨⟨tr ++ tr', hrun.trans hex, ?_, fun p => ?_⟩, fun c hc => ?_, h.free, hlogs⟩
      · have hsum : incoming (tr ++ tr') = incoming tr + incoming tr' := List.countP_append
        rw [hsum, hnew, hin]
        rfl
      · have hone : sentResults conversionError
            [.sent error (taken conversionError delivery.ackId w.sys.native error)] =
              [outcome e] := by
          simp [sentResults, hn, Except.toOption]
        show settledAt p (bridge.observed State.happening bridge.init (tr ++ tr')) =
          sentResults conversionError ((w.noted q _).log p)
        rw [bridge.observed_append State.happening hrun, settledAt_append, hset', sent_noted, hone]
        exact congrArg (· ++ _) (hset p)
      · have hlt : w.calls + 1 ≤ c := hc
        have hne : c ≠ w.calls := by omega
        show ((Sdk.completed w.sys.native delivery.ackId e).setComplete w.calls .done).complete c = _
        rw [Native.State.setComplete_complete, if_neg hne, completed_complete]
        exact h.fresh c (by omega)

theorem grows_completion (q : Nat) (ackId : Binary64) (error : JsVal) (w : Loop υ) :
    Grows w (completionAt conversionError q ackId error w) := by
  have h := grows_noted q (.sent error (taken conversionError ackId w.sys.native error)) w
  unfold completionAt
  cases napiOptionString conversionError error with
  | error e => exact h
  | ok e =>
      refine ⟨h.log, h.popped, ?_⟩
      have hqueue : (Sdk.completed w.sys.native ackId e).queue = w.sys.native.queue := by
        unfold Sdk.completed
        split <;> rfl
      exact hqueue ▸ List.prefix_refl _

/-- Steps of the core threads, closings and cancellations keep the invariant. -/
theorem good_session (h : Good conversionError w) {tr : List Action} {sys : State}
    (hown : ∀ a ∈ tr, a.byLoop = false) (hex : machine.exec w.sys tr = some sys)
    (hfree : sys.closing = none) : Good conversionError
      { w with sys := sys, deliveries := w.deliveries + incoming (tr.map .session) } := by
  obtain ⟨pre, hrun, hin, hset⟩ := h.run
  have hbridge := fun q => bridge_session (q := q) hown hex
  refine ⟨⟨pre ++ tr.map .session, hrun.trans (hbridge 0).1, ?_, fun q => ?_⟩, fun c hc => ?_, hfree,
    fun q hq => Nat.lt_of_lt_of_le (h.logs.placed q hq) (exec_grows hex).1, h.logs.reasoned,
    h.logs.returned⟩
  · exact (List.countP_append).trans (congrArg (· + _) hin)
  · show settledAt q (bridge.observed State.happening bridge.init (pre ++ tr.map .session)) = _
    rw [bridge.observed_append State.happening hrun, settledAt_append, (hbridge q).2,
      List.append_nil]
    exact hset q
  · exact machine.exec_stable_mem (P := fun t => t.native.complete c = .idle)
      (fun _ a _ ha ht hst => idle_step (hown a ha) ht hst) hex (h.fresh c hc)

/-! ## 4. Everything that runs keeps it -/

theorem Elsewhere.grows (h : Elsewhere conversionError w w') : Grows w w' := by
  induction h with
  | refl w => exact .refl w
  | trans _ _ ih ih' => exact ih.trans ih'
  | user w user => exact ⟨fun _ => List.prefix_refl _, Nat.le_refl _, List.prefix_refl _⟩
  | session w tr sys hown hex hfree =>
      exact ⟨fun _ => List.prefix_refl _, (exec_grows hex).1, (exec_grows hex).2⟩
  | fulfilled q delivery hh => exact (grows_noted ..).trans (grows_completion ..)
  | rejectedText q delivery err text hh h ih =>
      exact ((grows_noted ..).trans ih).trans (grows_completion ..)
  | rejectedMessage q delivery err message hh h₁ h₂ ih₁ ih₂ =>
      exact ((grows_noted ..).trans (ih₁.trans (grows_noted ..))).trans
        (ih₂.trans ((grows_noted ..).trans (grows_completion ..)))
  | rejectedUnreadable q delivery err hh h₁ h₂ ih₁ ih₂ =>
      exact ((grows_noted ..).trans (ih₁.trans (grows_noted ..))).trans
        (ih₂.trans (grows_completion ..))

/-- A note of what the handler run at `q` does, where it was started on `delivery`. -/
theorem noted_started {delivery : MessageDelivery} (hg : Good conversionError w)
    (hs : Started q delivery w) {n : Note} (hn : n.plain = true) (hh : n ≠ .handed) :
    Good conversionError (w.noted q n) ∧ Started q delivery (w.noted q n) :=
  ⟨good_noted hg hs.popped hn fun he => absurd he hh, (grows_noted q n w).started hs⟩

/-- **User code and the other threads keep the invariant.** -/
theorem Elsewhere.good (h : Elsewhere conversionError w w') (hg : Good conversionError w) :
    Good conversionError w' := by
  induction h with
  | refl w => exact hg
  | trans _ _ ih ih' => exact ih' (ih hg)
  | user w user => exact ⟨hg.run, hg.fresh, hg.free, hg.logs⟩
  | session w tr sys hown hex hfree => exact good_session hg hown hex hfree
  | @fulfilled w q delivery hh =>
      obtain ⟨hg₁, hs₁⟩ := noted_started hg (hh.started hg) (n := .fulfilled) rfl nofun
      refine good_completion hg₁ hs₁ fun _ => Or.inr ?_
      obtain ⟨value, hv⟩ := hg.logs.returned q hh.handed
      exact ⟨value, (grows_noted q .fulfilled w).log q |>.subset hv,
        Or.inr (Or.inr (mem_noted q .fulfilled w))⟩
  | rejectedText q delivery err text hh h ih =>
      obtain ⟨hg₁, hs₁⟩ := noted_started hg (hh.started hg) (n := .rejected err) rfl nofun
      exact good_completion (ih hg₁) (h.grows.started hs₁) fun hs =>
        absurd hs (Sdk.not_success_string text)
  | @rejectedMessage w w₁ w₂ q delivery err message hh h₁ h₂ ih₁ ih₂ =>
      obtain ⟨hg₁, hs₁⟩ := noted_started hg (hh.started hg) (n := .rejected err) rfl nofun
      obtain ⟨hg₂, hs₂⟩ := noted_started (ih₁ hg₁) (h₁.grows.started hs₁)
        (n := .reading "message") rfl nofun
      obtain ⟨hg₃, hs₃⟩ := noted_started (ih₂ hg₂) (h₂.grows.started hs₂)
        (n := .answered "message" message) rfl nofun
      exact good_completion hg₃ hs₃ fun _ => Or.inl (mem_noted ..)
  | rejectedUnreadable q delivery err hh h₁ h₂ ih₁ ih₂ =>
      obtain ⟨hg₁, hs₁⟩ := noted_started hg (hh.started hg) (n := .rejected err) rfl nofun
      obtain ⟨hg₂, hs₂⟩ := noted_started (ih₁ hg₁) (h₁.grows.started hs₁)
        (n := .reading "message") rfl nofun
      exact good_completion (ih₂ hg₂) (h₂.grows.started hs₂) fun hs =>
        absurd hs (Sdk.not_success_string _)

/-! ## 5. The dispatcher keeps it -/

/-- **The handler run at `q`, on `delivery`**: the invariant holds, and the notes `M` were made. -/
structure At (conversionError : JsVal) (q : Nat) (delivery : MessageDelivery) (M : List Note)
    (w : Loop υ) : Prop where
  good : Good conversionError w
  started : Started q delivery w
  notes : ∀ n ∈ M, n ∈ w.log q

variable {delivery : MessageDelivery} {M : List Note} {realm : Realm (Loop υ)}
  {handler : TrueSealMessage → Js (Loop υ) JsVal}

theorem At.elsewhere (h : At conversionError q delivery M w)
    (he : Elsewhere conversionError w w') : At conversionError q delivery M w' :=
  ⟨he.good h.good, he.grows.started h.started, fun n hn =>
    (he.grows.log q).subset (h.notes n hn)⟩

theorem At.fewer {M' : List Note} (h : At conversionError q delivery M w) (hM : ∀ n ∈ M', n ∈ M) :
    At conversionError q delivery M' w :=
  ⟨h.good, h.started, fun n hn => h.notes n (hM n hn)⟩

theorem At.noted (h : At conversionError q delivery M w) {n : Note} (hn : n.plain = true)
    (hh : n = .handed → ∃ value, .returned value ∈ M) :
    At conversionError q delivery (n :: M) (w.noted q n) := by
  have hgrows := grows_noted q n w
  refine ⟨good_noted h.good h.started.popped hn fun he => ?_, hgrows.started h.started,
    fun m hm => ?_⟩
  · obtain ⟨value, hv⟩ := hh he
    exact ⟨value, h.notes _ hv⟩
  · rcases List.mem_cons.mp hm with rfl | hm
    · exact mem_noted q m w
    · exact (hgrows.log q).subset (h.notes m hm)

/-- User code that runs in between. -/
theorem triple_elsewhere {α : Type} {c : Js (Loop υ) α}
    (hc : Throwing.Preserves (Elsewhere conversionError) c) :
    Throwing.Triple (At conversionError q delivery M) c
      (fun _ => At conversionError q delivery M) (fun _ => At conversionError q delivery M) :=
  Throwing.triple_related (fun w _ => hc w) fun _ _ h he => h.elsewhere he

theorem triple_noted (n : Note) (hn : n.plain = true)
    (hh : n = .handed → ∃ value, .returned value ∈ M) {E : JsVal → Loop υ → Prop} :
    Throwing.Triple (At conversionError q delivery M) (noteAt q n)
      (fun _ => At conversionError q delivery (n :: M)) E :=
  Throwing.triple_modify fun _ h => h.noted hn hh

/-- A completion, where it is an error or has a reason. -/
theorem At.completion (h : At conversionError q delivery M w) {error : JsVal}
    (hr : Success error → .answered "message" error ∈ w.log q ∨ Due (w.log q)) :
    At conversionError q delivery M (completionAt conversionError q delivery.ackId error w) :=
  have hgrows := grows_completion q delivery.ackId error w
  ⟨good_completion h.good h.started hr, hgrows.started h.started, fun n hn =>
    (hgrows.log q).subset (h.notes n hn)⟩

/-- A property the handler run reads. -/
theorem triple_get (hreads : realm.Preserves (Elsewhere conversionError)) (v : JsVal)
    (key : String) :
    Throwing.Triple (At conversionError q delivery M) ((realmAt q realm).get v key)
      (fun answer => At conversionError q delivery (.answered key answer :: .reading key :: M))
      (fun _ => At conversionError q delivery (.reading key :: M)) :=
  Throwing.triple_bind (triple_noted (.reading key) rfl nofun) fun _ =>
    Throwing.triple_bind (triple_elsewhere (hreads.get v key)) fun answer =>
      Throwing.triple_bind (triple_noted (.answered key answer) rfl nofun) fun _ =>
        Throwing.triple_pure fun _ h => h

/-- What `describeThrown` answers, from the world `w₀`, and the world after it. -/
inductive Described (conversionError : JsVal) (q : Nat) (w₀ : Loop υ) : JsVal → Loop υ → Prop where
  | text {w : Loop υ} (text : String) (h : Elsewhere conversionError w₀ w) :
      Described conversionError q w₀ (.string text) w
  | message {w₁ w₂ : Loop υ} (message : JsVal) (h₁ : Elsewhere conversionError w₀ w₁)
      (h₂ : Elsewhere conversionError (w₁.noted q (.reading "message")) w₂) :
      Described conversionError q w₀ message (w₂.noted q (.answered "message" message))
  | unreadable {w₁ w₂ : Loop υ} (h₁ : Elsewhere conversionError w₀ w₁)
      (h₂ : Elsewhere conversionError (w₁.noted q (.reading "message")) w₂) :
      Described conversionError q w₀ (.string "<unprintable error>") w₂

theorem triple_describeThrown (hreads : realm.Preserves (Elsewhere conversionError)) (err : JsVal)
    (w₀ : Loop υ) : Throwing.Triple (· = w₀) (Sdk.describeThrown (realmAt q realm) err)
      (Described conversionError q w₀) (fun _ _ => False) := by
  -- where the body throws: before `message` is read, or while it is read
  let thrown : JsVal → Loop υ → Prop := fun _ w => Elsewhere conversionError w₀ w ∨
    ∃ w₁, Elsewhere conversionError w₀ w₁ ∧
      Elsewhere conversionError (w₁.noted q (.reading "message")) w
  have hbefore : ∀ {α : Type} {c : Js (Loop υ) α},
      Throwing.Preserves (Elsewhere conversionError) c →
      Throwing.Triple (Elsewhere conversionError w₀) c
        (fun _ => Elsewhere conversionError w₀) thrown := fun hc =>
    Throwing.triple_consequence
      (Throwing.triple_related (fun w _ => hc w) fun _ _ h he => h.trans he)
      (fun _ _ h => h) fun _ _ h => Or.inl h
  refine Throwing.triple_tryCatch (F := thrown) ?_ fun e => Throwing.triple_pure fun w h => ?_
  · refine Throwing.triple_bind (R := fun _ => Elsewhere conversionError w₀)
      (Throwing.triple_weaken (hbefore (hreads.instanceofError err)) ?_) fun isError => ?_
    · rintro w rfl
      exact .refl w
    cases isError with
    | false =>
        exact Throwing.triple_bind (hbefore (hreads.toString err)) fun text =>
          Throwing.triple_pure fun w h => .text text h
    | true =>
        refine Throwing.triple_bind (R := fun _ w => ∃ w₁, Elsewhere conversionError w₀ w₁ ∧
          w = w₁.noted q (.reading "message")) (Throwing.triple_modify fun w h => ⟨w, h, rfl⟩)
          fun _ => ?_
        refine Throwing.triple_bind (R := fun _ w => ∃ w₁, Elsewhere conversionError w₀ w₁ ∧
          Elsewhere conversionError (w₁.noted q (.reading "message")) w) ?_ fun message => ?_
        · refine Throwing.triple_consequence (Throwing.triple_related
            (fun w _ => hreads.get err "message" w) fun w w' h he => ?_) (fun _ _ h => h)
            fun _ _ h => Or.inr h
          obtain ⟨w₁, h₁, rfl⟩ := h
          exact ⟨w₁, h₁, he⟩
        · refine Throwing.triple_bind (R := fun _ w => Described conversionError q w₀ message w)
            (Throwing.triple_modify fun w h => ?_) fun _ => Throwing.triple_pure fun w h => h
          obtain ⟨w₁, h₁, h₂⟩ := h
          exact .message message h₁ h₂
  · rcases h with h | ⟨w₁, h₁, h₂⟩
    · exact .text _ h
    · exact .unreadable h₁ h₂

/-- `complete(describeThrown(err))`, in the world `w`. -/
theorem onRejected_exec (hreads : realm.Preserves (Elsewhere conversionError)) (ackId : Binary64)
    (err : JsVal) (w : Loop υ) : ∃ d w₁, Described conversionError q w d w₁ ∧
      (Sdk.onRejected (realmAt q realm) (completeAt conversionError q) ackId err).exec w =
        (.ok (), completionAt conversionError q ackId d w₁) := by
  have htriple := triple_describeThrown (q := q) hreads err w w rfl
  obtain ⟨d, w₁, hd⟩ := Sdk.describeThrown_returns (realmAt q realm) err w
  rw [hd] at htriple
  refine ⟨d, w₁, htriple, ?_⟩
  unfold Sdk.onRejected
  rw [Throwing.exec_bind, hd]
  exact complete_exec conversionError q ackId d w₁

/-- The completion with what a thrown value is described as. -/
theorem triple_onRejected (hreads : realm.Preserves (Elsewhere conversionError)) (err : JsVal)
    {E : JsVal → Loop υ → Prop} :
    Throwing.Triple (At conversionError q delivery M)
      (Sdk.onRejected (realmAt q realm) (completeAt conversionError q) delivery.ackId err)
      (fun _ => At conversionError q delivery M) E := by
  intro w h
  obtain ⟨d, w₁, hd, hexec⟩ := onRejected_exec (q := q) hreads delivery.ackId err w
  rw [hexec]
  cases hd with
  | text text h₁ =>
      exact (h.elsewhere h₁).completion fun hs => absurd hs (Sdk.not_success_string text)
  | @message w₁ w₂ _ h₁ h₂ =>
      have hread := ((h.elsewhere h₁).noted (n := .reading "message") rfl nofun).elsewhere h₂
      have hanswered := hread.noted (n := .answered "message" d) rfl nofun
      refine At.fewer (hanswered.completion fun _ => Or.inl ?_) fun n hn =>
        List.mem_cons_of_mem _ (List.mem_cons_of_mem _ hn)
      exact hanswered.notes _ List.mem_cons_self
  | unreadable h₁ h₂ =>
      have hread := ((h.elsewhere h₁).noted (n := .reading "message") rfl nofun).elsewhere h₂
      refine At.fewer (hread.completion fun hs => absurd hs (Sdk.not_success_string _)) ?_
      exact fun n hn => List.mem_cons_of_mem _ hn

/-- The callbacks a thenable gets do what `Elsewhere` allows. -/
theorem callbacks_elsewhere (hreads : realm.Preserves (Elsewhere conversionError)) (q : Nat)
    (delivery : MessageDelivery) :
    (∀ w : Loop υ, Handed q delivery w → Elsewhere conversionError w
      ((do noteAt q .fulfilled
           Sdk.onFulfilled (completeAt conversionError q) delivery.ackId :
             Js (Loop υ) Unit).exec w).2) ∧
    ∀ err, ∀ w : Loop υ, Handed q delivery w → Elsewhere conversionError w
      ((do noteAt q (.rejected err)
           Sdk.onRejected (realmAt q realm) (completeAt conversionError q) delivery.ackId err :
             Js (Loop υ) Unit).exec w).2 := by
  constructor
  · intro w hh
    rw [Throwing.exec_bind, noteAt_exec]
    simp only [Sdk.onFulfilled, complete_exec]
    exact .fulfilled q delivery hh
  · intro err w hh
    rw [Throwing.exec_bind, noteAt_exec]
    obtain ⟨d, w₁, hd, hexec⟩ :=
      onRejected_exec (q := q) hreads delivery.ackId err (w.noted q (.rejected err))
    simp only [hexec]
    cases hd with
    | text text h => exact .rejectedText q delivery err text hh h
    | message message h₁ h₂ => exact .rejectedMessage q delivery err d hh h₁ h₂
    | unreadable h₁ h₂ => exact .rejectedUnreadable q delivery err hh h₁ h₂

/-- The call of a `then`, after the handler returned. -/
theorem triple_callThen (hu : UserCode conversionError realm handler) {value : JsVal}
    (hv : .returned value ∈ M) (then_ this : JsVal) :
    Throwing.Triple (At conversionError q delivery M)
      ((realmAt q realm).callThen then_ this
        (Sdk.onFulfilled (completeAt conversionError q) delivery.ackId)
        (Sdk.onRejected (realmAt q realm) (completeAt conversionError q) delivery.ackId))
      (fun _ => At conversionError q delivery M) (fun _ => At conversionError q delivery M) := by
  refine Throwing.triple_bind (triple_noted .handed rfl fun _ => ⟨value, hv⟩) fun _ => ?_
  refine Throwing.triple_related (R := Elsewhere conversionError) (fun w h => ?_) fun w w' h he =>
    (h.elsewhere he).fewer fun n hn => List.mem_cons_of_mem _ hn
  obtain ⟨hfulfil, hreject⟩ := callbacks_elsewhere hu.reads q delivery
  exact hu.callThen q delivery then_ this _ _ hfulfil hreject w
    ⟨h.notes _ List.mem_cons_self, h.started.queued⟩

/-- The probe for a `then`: where it answers no function, a success is due. -/
theorem triple_readThen (hu : UserCode conversionError realm handler) (value : JsVal) :
    Throwing.Triple (At conversionError q delivery [.returned value])
      (Sdk.readThen (realmAt q realm) value)
      (fun answer w => At conversionError q delivery [.returned value] w ∧
        (typeOf answer ≠ .function → Due (w.log q)))
      (fun _ => At conversionError q delivery [.returned value]) := by
  rw [Sdk.readThen_eq]
  split
  · refine Throwing.triple_consequence (triple_get hu.reads value "then") (fun answer w h => ?_)
      fun _ w h => h.fewer (by simp)
    exact ⟨h.fewer (by simp), fun hf => ⟨value, h.notes _ (by simp),
      Or.inr (Or.inl ⟨answer, h.notes _ (by simp), hf⟩)⟩⟩
  · rename_i hp
    exact Throwing.triple_pure fun w h =>
      ⟨h, fun _ => ⟨value, h.notes _ List.mem_cons_self, Or.inl hp⟩⟩

/-- What the dispatcher does with a handler that returned `value`. -/
theorem triple_settle (hu : UserCode conversionError realm handler) (value : JsVal) :
    Throwing.Triple (At conversionError q delivery [.returned value])
      (Sdk.settle (realmAt q realm) (completeAt conversionError q) delivery.ackId value)
      (fun _ => At conversionError q delivery [.returned value])
      (fun _ => At conversionError q delivery [.returned value]) := by
  refine Throwing.triple_tryCatch (F := fun _ => At conversionError q delivery [.returned value])
    (Throwing.triple_bind (triple_readThen hu value) fun answer => ?_)
    fun err => triple_onRejected hu.reads err
  split
  · exact Throwing.triple_weaken (triple_callThen hu List.mem_cons_self answer value) fun w h => h.1
  · rename_i hf
    intro w h
    rw [complete_exec]
    exact h.1.completion fun _ => Or.inr (h.2 hf)

/-- **The dispatcher keeps the invariant.** -/
theorem triple_dispatcher (hu : UserCode conversionError realm handler) :
    Throwing.Triple (At conversionError q delivery [])
      (Sdk.messageDispatcher (realmAt q realm) (completeAt conversionError q)
        (handlerAt q handler) delivery)
      (fun _ => At conversionError q delivery []) (fun _ => At conversionError q delivery []) := by
  refine Throwing.triple_bind (R := fun result => match result with
    | .ok value => At conversionError q delivery [.returned value]
    | .error _ => At conversionError q delivery []) ?_ fun result => ?_
  · refine Throwing.triple_tryCatch (F := fun _ => At conversionError q delivery [])
      (Throwing.triple_bind (R := fun value => At conversionError q delivery [.returned value])
        ?_ fun value => Throwing.triple_pure fun w h => h)
      fun err => Throwing.triple_pure fun w h => h
    exact Throwing.triple_bind (triple_elsewhere (hu.handler _)) fun value =>
      Throwing.triple_bind (triple_noted (.returned value) rfl nofun) fun _ =>
        Throwing.triple_pure fun w h => h
  · cases result with
    | error err => exact triple_onRejected hu.reads err
    | ok value =>
        exact Throwing.triple_consequence (triple_settle hu value) (fun _ w h => h.fewer (by simp))
          fun _ w h => h.fewer (by simp)

/-! ## 6. The event loop refines the bridge -/

/-- The loop takes the next call of the queue. -/
theorem good_start (h : Good conversionError w)
    (hq : w.sys.native.queue[w.sys.popped]? = some delivery) :
    At conversionError w.sys.popped delivery [] { w with sys := w.sys.start delivery } := by
  obtain ⟨tr, hrun, hin, hset⟩ := h.run
  have hst : bridge.step w.sys (.session .pop) = some (w.sys.start delivery) := by
    show (if w.sys.closing = none then (w.sys.native.queue[w.sys.popped]?).map w.sys.start
      else none) = _
    rw [if_pos h.free, hq]
    rfl
  refine ⟨⟨⟨tr ++ [.session .pop], hrun.snoc hst, ?_, fun p => ?_⟩, h.fresh, h.free,
    ⟨fun p hp => Nat.lt_succ_of_lt (h.logs.placed p hp), h.logs.reasoned, h.logs.returned⟩⟩,
    ⟨Nat.lt_succ_self _, hq⟩, by simp⟩
  · have hsum : incoming (tr ++ [.session .pop]) = incoming tr + incoming [.session .pop] :=
      List.countP_append
    exact hsum.trans hin
  · show settledAt p (bridge.observed State.happening bridge.init (tr ++ [.session .pop])) = _
    rw [bridge.observed_concat State.happening hrun hst, settledAt_append]
    simp only [State.happening, hq]
    exact (List.append_nil _).trans (hset p)

/-- **A turn of the loop keeps the invariant.** -/
theorem good_turn (hu : UserCode conversionError realm handler) (h : Good conversionError w)
    (hq : w.sys.native.queue[w.sys.popped]? = some delivery) :
    Good conversionError (turn conversionError realm handler delivery w) := by
  have hrun := triple_dispatcher hu _ (good_start h hq)
  unfold turn
  generalize (Sdk.messageDispatcher (realmAt w.sys.popped realm)
    (completeAt conversionError w.sys.popped) (handlerAt w.sys.popped handler) delivery).exec
      { w with sys := w.sys.start delivery } = out at hrun ⊢
  obtain ⟨e | u, w'⟩ := out
  · exact hrun.good
  · exact hrun.good

theorem Reached.good (hu : UserCode conversionError realm handler)
    (h : Reached conversionError realm handler w) : Good conversionError w := by
  induction h with
  | start user =>
      refine ⟨⟨[], System.Run.start, rfl, fun q => rfl⟩, fun c _ => rfl, rfl,
        ⟨fun q hq => absurd rfl hq, fun q pre error took post he => ?_, fun q hq => ?_⟩⟩
      · exact absurd he.symm (by simp)
      · cases hq
  | elsewhere _ h' ih => exact h'.good ih
  | turn delivery _ hq ih => exact good_turn hu ih hq

/-- **The event loop refines the bridge.** The two threads, with src/index.ts on one of them, take a
    run of the bridge, and each place of the queue is settled with just the completions its own
    dispatcher and callbacks have sent, in their order: no handler run, however it nests and
    whenever it calls back, settles another one's delivery. -/
theorem loop_refines_bridge (hu : UserCode conversionError realm handler)
    (h : Reached conversionError realm handler w) : ∃ tr, bridge.Run tr w.sys ∧
      incoming tr = w.deliveries ∧
      ∀ q, settledAt q (happenings tr) = sentResults conversionError (w.log q) :=
  (h.good hu).run

/-! ## 7. What the relay is told -/

/-- Only the critical section of a `close()` shows a closing. -/
theorem closeDrain_of_event {n : Native.State} {a : Native.Action} (h : n.event a = some .closed) :
    ∃ k, a = .closeDrain k := by
  cases a with
  | closeDrain k => exact ⟨k, rfl⟩
  | call i status => cases status <;> cases h
  | insert i =>
      simp only [Native.State.event] at h
      split at h <;> cases h
  | remove i =>
      simp only [Native.State.event] at h
      split at h <;> cases h
  | completeRemove c x e =>
      simp only [Native.State.event] at h
      split at h
      · split at h <;> cases h
      · cases h
  | _ => cases h

/-- A closing that was shown is there to stay. -/
theorem closed_of_shown {tr : List BridgeAction} {s : State} (h : bridge.Run tr s)
    (hc : .session .closed ∈ happenings tr) : s.native.pending.closed = true := by
  induction h using System.Run.induct with
  | start => cases hc
  | snoc tr s b s' hrun hs ih =>
      have hshown : happenings (tr ++ [b]) = happenings tr ++ (s.happening b).toList :=
        bridge.observed_concat State.happening hrun hs
      rw [hshown] at hc
      -- the flag is never taken back
      have hkeep : ∀ {a : Native.Action} {n : Native.State},
          Native.machine.step s.native a = some n → s.native.pending.closed = true →
          n.pending.closed = true := fun hn ht => by
        cases Native.step_cases hn with
        | closeDrain k hp => rfl
        | _ => exact ht
      rcases List.mem_append.mp hc with hc | hc
      · have ht := ih hc
        cases bridge_cases hs with
        | native a native closing ha hn => exact hkeep hn ht
        | settle q c error delivery native closing hq hlt hn => exact hkeep hn ht
        | _ => exact ht
      · have hevent : s.happening b = some (.session .closed) := Option.mem_toList.mp hc
        cases bridge_cases hs with
        | native a native closing ha hn =>
            obtain ⟨e, he, hclosed⟩ := Option.map_eq_some_iff.mp hevent
            cases hclosed
            obtain ⟨k, rfl⟩ := closeDrain_of_event he
            cases Native.step_cases hn with
            | closeDrain _ hp => rfl
        | pop delivery hq =>
            obtain ⟨m, -, hm⟩ := Option.map_eq_some_iff.mp hevent
            cases hm
        | _ => cases hevent

/-- What was sent for a delivery that was completed without error. -/
theorem sent_of_ok {log : List Note} (h : .ok () ∈ sentResults conversionError log) :
    ∃ error took, .sent error took ∈ log ∧ Success error := by
  obtain ⟨n, hn, hr⟩ := List.mem_filterMap.mp h
  cases n with
  | sent error took =>
      refine ⟨error, took, hn, ?_⟩
      cases error with
      | undefined => exact Or.inl rfl
      | null => exact Or.inr rfl
      | _ => cases hr
  | _ => cases hr

/-- And with one: the error is the text that was sent. -/
theorem sent_of_error {log : List Note} {msg : String}
    (h : .error msg ∈ sentResults conversionError log) :
    ∃ took, .sent (.string msg) took ∈ log := by
  obtain ⟨n, hn, hr⟩ := List.mem_filterMap.mp h
  cases n with
  | sent error took =>
      cases error with
      | string text =>
          have htext : text = msg := by simpa [napiOptionString, Except.toOption, outcome] using hr
          exact ⟨took, htext ▸ hn⟩
      | _ => cases hr
  | _ => cases hr

theorem due_of_subset {log log' : List Note} (h : Due log) (hsub : ∀ n ∈ log, n ∈ log') :
    Due log' := by
  obtain ⟨value, hv, hdue⟩ := h
  refine ⟨value, hsub _ hv, ?_⟩
  rcases hdue with hp | ⟨answer, ha, hf⟩ | hf
  · exact Or.inl hp
  · exact Or.inr (Or.inl ⟨answer, hsub _ ha, hf⟩)
  · exact Or.inr (Or.inr (hsub _ hf))

/-- The handler run at the place of the delivery `n` is that of `message`. -/
structure HandlerRun (w : Loop υ) (q n : Nat) (message : TrueSealMessage) : Prop where
  queued : w.sys.native.queue[q]? = some (Native.delivery message n)
  handled : w.sys.handled[q]? = some message

/-- A place with a log is that of a handler run. -/
theorem handlerRun_of_log (h : Good conversionError w) {n : Nat} {message : TrueSealMessage}
    (hq : w.sys.native.queue[q]? = some (Native.delivery message n)) (hlog : w.log q ≠ []) :
    HandlerRun w q n message := by
  obtain ⟨tr, hrun, -⟩ := h.run
  obtain ⟨mtr, hmachine⟩ := bridge_machine hrun
  refine ⟨hq, ?_⟩
  rw [(handled_run hmachine).2, List.getElem?_map, List.getElem?_take,
    if_pos (h.logs.placed q hlog), hq]
  rfl

/-- **The relay is told what became of the message.** In every world the event loop reaches after at
    most `2^53` deliveries, for every user code:

    * an invocation of `on_message` returns `Ok(())` only if the session was closed, or the handler
      was run with its message and either returned no thenable, or its thenable called the fulfil
      callback, or an Error was described for it whose `message` reads as `null` or `undefined`;
    * it returns an error only if `tsfn.call` refused the delivery, which is at no place of the queue
      then, with the status the error names, or the handler was run with its message and just this
      text was sent for it. -/
theorem told_as_handled (hu : UserCode conversionError realm handler)
    (h : Reached conversionError realm handler w) (hd : w.deliveries ≤ 2 ^ 53) {i n : Nat}
    {res : Except HandlerError Unit} (hr : w.sys.native.onMessage i = .returned n res) :
    (res = .ok () → w.sys.native.pending.closed = true ∨
      ∃ q message, HandlerRun w q n message ∧ (Due (w.log q) ∨
        ∃ error, Success error ∧ .answered "message" error ∈ w.log q)) ∧
    (∀ msg, res = .error (.failed msg) →
      (∃ debug tr, bridge.Run tr w.sys ∧ .session (.refused i debug) ∈ happenings tr ∧
        w.sys.NotQueued n ∧ msg = Native.dispatchFailed debug) ∨
      ∃ q message took, HandlerRun w q n message ∧ .sent (.string msg) took ∈ w.log q) := by
  have hg := h.good hu
  obtain ⟨tr, hrun, hin, hset⟩ := hg.run
  obtain ⟨d, hR, hinv, hex⟩ := returned_explained hrun (hin.symm ▸ hd) hr
  have hdrawn : (w.sys.native.onMessage i).drawn = some n := by
    rw [hr]
    rfl
  cases hex with
  | turnedAway hn hc => exact ⟨fun _ => Or.inl (hR.ledger.closed ▸ hc), nofun⟩
  | returnedRefused debug hn href =>
      refine ⟨nofun, fun msg he => Or.inl ⟨debug, tr, hrun, href,
        notQueued_of_notOffered hrun (hin.symm ▸ hd) hR hdrawn hn, ?_⟩⟩
      cases he
      rfl
  | returned q message r hq hdec =>
      obtain ⟨m, hm, hqueue⟩ := queued_of_offer hR hq
      rw [hr] at hm
      cases hm
      rcases decision_cases hdec with hsettled | ⟨hclosed, rfl⟩
      · rw [hset q] at hsettled
        refine ⟨fun hok => Or.inr ⟨q, message, ?_⟩, fun msg herr => Or.inr ⟨q, message, ?_⟩⟩
        · cases r with
          | error e => cases hok
          | ok u =>
              obtain ⟨error, took, hsent, hs⟩ := sent_of_ok hsettled
              refine ⟨handlerRun_of_log hg hqueue (List.ne_nil_of_mem hsent), ?_⟩
              obtain ⟨pre, post, hlog⟩ := List.append_of_mem hsent
              have hsub : ∀ m ∈ pre, m ∈ w.log q := fun m hm =>
                hlog ▸ List.mem_append_left _ hm
              rcases hg.logs.reasoned q pre error took post hlog hs with hm | hdue
              · exact Or.inr ⟨error, hs, hsub _ hm⟩
              · exact Or.inl (due_of_subset hdue hsub)
        · cases r with
          | ok u => cases herr
          | error e =>
              cases herr
              obtain ⟨took, hsent⟩ := sent_of_error hsettled
              exact ⟨took, handlerRun_of_log hg hqueue (List.ne_nil_of_mem hsent), hsent⟩
      · exact ⟨fun _ => Or.inl (closed_of_shown hrun hclosed), nofun⟩

end Invariant

/-! ## 8. A handler that returns a promise -/

/-- Every object has a function as its `then`, which calls the fulfil callback. -/
def promiseRealm : Realm (Loop Unit) where
  instanceofError _ := pure false
  get _ _ := pure (.function 1)
  toString _ := pure ""
  callThen _ _ onFulfilled _ := onFulfilled

def promiseHandler (_ : TrueSealMessage) : Js (Loop Unit) JsVal := pure (.object 0)

theorem promise_userCode : UserCode .null promiseRealm promiseHandler where
  reads := ⟨fun _ w => .refl w, fun _ _ w => .refl w, fun _ w => .refl w⟩
  handler _ w := .refl w
  callThen _ _ _ _ _ _ hf _ w hh := hf w hh

/-- One delivery has come in and waits in the queue. -/
def queuedWorld : Loop Unit :=
  { sys := (machine.exec {} [.native (.fetchAdd 0 Native.sampleMessage), .native (.insert 0),
      .native (.call 0 .ok)]).getD {}
    deliveries := 1
    user := () }

/-- Its handler runs, and `on_message` returns. -/
theorem promise_reached : ∃ w, Reached .null promiseRealm promiseHandler w ∧ w.deliveries = 1 ∧
    w.sys.native.onMessage 0 = .returned 0 (.ok ()) := by
  have hstart : Reached .null promiseRealm promiseHandler { user := () } := .start ()
  have hqueued : Reached .null promiseRealm promiseHandler queuedWorld := hstart.elsewhere
    (.session _ [.native (.fetchAdd 0 Native.sampleMessage), .native (.insert 0),
      .native (.call 0 .ok)] _ (by decide) rfl rfl)
  have hrun := Reached.turn (Native.delivery Native.sampleMessage 0) hqueued rfl
  obtain ⟨sys, hex, hp⟩ := (Option.any_eq_true
    (fun s : State => decide (s.closing = none ∧ s.native.onMessage 0 = .returned 0 (.ok ())))
    (machine.exec (turn .null promiseRealm promiseHandler
      (Native.delivery Native.sampleMessage 0) queuedWorld).sys
      [.native (.recv 0), .native (.remove 0)])).mp (by decide +kernel)
  obtain ⟨hfree, hreturned⟩ := of_decide_eq_true hp
  exact ⟨_, hrun.elsewhere (.session _ [.native (.recv 0), .native (.remove 0)] sys (by decide)
    hex hfree), rfl, hreturned⟩

theorem loop_refines_bridge_promise : ∃ (w : Loop Unit) (tr : List BridgeAction),
    bridge.Run tr w.sys ∧ incoming tr = w.deliveries ∧
      ∀ q, settledAt q (happenings tr) = sentResults .null (w.log q) := by
  obtain ⟨w, h, -⟩ := promise_reached
  exact ⟨w, loop_refines_bridge promise_userCode h⟩

theorem told_as_handled_promise : ∃ w : Loop Unit, w.sys.native.pending.closed = true ∨
    ∃ q message, HandlerRun w q 0 message ∧ (Due (w.log q) ∨
      ∃ error, Success error ∧ .answered "message" error ∈ w.log q) := by
  obtain ⟨w, h, hd, hr⟩ := promise_reached
  exact ⟨w, (told_as_handled promise_userCode h (by rw [hd]; decide) hr).1 rfl⟩

end TrueSealSync.System
