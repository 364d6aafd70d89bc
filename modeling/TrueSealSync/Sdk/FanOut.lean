/-
  File:      TrueSealSync/Sdk/FanOut.lean
  Subject:   THE LISTENER FAN-OUT of the event and issue streams: which listener gets which item.

  A fan-out starts by buffering. The first `add` flushes the backlog to the listener it adds and
  goes live for good; in live mode an item goes to the listeners registered at that moment.

  * `dispatch`, `add`, `cancel` -- the operations of src/index.ts, `try` and `catch` included; what
    a listener does is arbitrary (`Listeners`): it may throw, change what it likes of the user's
    state, and add listeners and cancel Subscriptions while it is called;
  * `deliverAll` -- what a loop over listeners or over a backlog does to the state
    (`dispatch_exec`, `add_exec`);
  * `Reflects` -- the invariant that ties the state to the operations so far, for listeners that
    leave the fan-out alone and adds that use different functions;
  * `fanOut_delivers` -- which items a listener is called with, in which order, and which are lost.
-/
import Mathlib.Data.List.Nodup
import TrueSealSync.Sdk.Realm

namespace TrueSealSync.Sdk

open TrueSealSync.Lib

/-! ## 1. The state and the operations -/

/-- A listener function, by its identity: `===` compares that. -/
abbrev Fn := Nat

/-- The fan-out, its Subscriptions, the next tick, and the state `υ` of the user; the last two
    fields only record what happens. -/
structure FanOut (ι υ : Type) where
  listeners : List Fn := []
  buffer : Option (List ι) := some []
  /-- the listener each Subscription stands for, `none` once it is cancelled -/
  subscriptions : List (Option Fn) := []
  /-- what `process.nextTick` will throw, in order -/
  ticks : List JsVal := []
  user : υ
  /-- the calls made to listeners -/
  calls : List (Fn × ι) := []
  /-- the exceptions raised -/
  raised : List JsVal := []

/-- What a listener asks of the fan-out while it is called. -/
inductive Request where
  | add (listener : Fn)
  | cancel (subscription : Nat)

/-- What one call of a listener does. -/
structure Reaction (υ : Type) where
  requests : List Request
  user : υ
  thrown : Option JsVal

/-- The behaviour of every listener function. -/
abbrev Listeners (ι υ : Type) : Type := Fn → ι → FanOut ι υ → Reaction υ

namespace FanOut

variable {ι υ : Type}

/-- `this.listeners.push(listener)`. -/
def push (w : FanOut ι υ) (listener : Fn) : FanOut ι υ :=
  { w with listeners := w.listeners ++ [listener] }

/-- `new Subscription(..)`. -/
def subscribe (w : FanOut ι υ) (listener : Fn) : FanOut ι υ :=
  { w with subscriptions := w.subscriptions ++ [some listener] }

/-- `Subscription.cancel()` of Subscription `k`. -/
def cancel (w : FanOut ι υ) (k : Nat) : FanOut ι υ :=
  match w.subscriptions[k]? with
  | some (some listener) =>
      { w with
        subscriptions := w.subscriptions.set k none
        listeners := w.listeners.filter (· != listener) }
  | _ => w

/-- A request of a listener. Listeners are called in live mode only, so an `add` flushes nothing. -/
def request (w : FanOut ι υ) : Request → FanOut ι υ
  | .add listener => (w.push listener).subscribe listener
  | .cancel k => w.cancel k

/-- The log of calls grows by one. -/
def called (w : FanOut ι υ) (call : Fn × ι) : FanOut ι υ := { w with calls := w.calls ++ [call] }

/-- What a listener did before it returned or threw. -/
def reacted (w : FanOut ι υ) (reaction : Reaction υ) : FanOut ι υ :=
  { reaction.requests.foldl request w with user := reaction.user }

/-- `process.nextTick(() => { throw err })`. -/
def nextTick (err : JsVal) : Js (FanOut ι υ) PUnit :=
  modify fun w => { w with ticks := w.ticks ++ [err] }

section Operations

variable (beh : Listeners ι υ)

/-- `listener(item)`. -/
def invoke (listener : Fn) (item : ι) : Js (FanOut ι υ) PUnit := do
  modify (·.called (listener, item))
  let w ← get
  let reaction := beh listener item w
  set (w.reacted reaction)
  match reaction.thrown with
  | some err =>
      modify fun w => { w with raised := w.raised ++ [err] }
      throw err
  | none => pure ⟨⟩

/-- The body of both loops: `try { listener(item) } catch (err) { process.nextTick(..) }`. -/
def deliver (listener : Fn) (item : ι) : Js (FanOut ι υ) PUnit :=
  tryCatch (invoke beh listener item) nextTick

/-- `ListenerFanOut.dispatch`. -/
def dispatch (item : ι) : Js (FanOut ι υ) PUnit := do
  let w ← get
  match w.buffer with
  | some buffer => set { w with buffer := some (buffer ++ [item]) }
  | none => w.listeners.forM fun listener => deliver beh listener item

/-- `ListenerFanOut.add`; it answers the number of the new Subscription. -/
def add (listener : Fn) : Js (FanOut ι υ) Nat := do
  modify (·.push listener)
  let w ← get
  match w.buffer with
  | some backlog =>
      set { w with buffer := none }
      backlog.forM fun item => deliver beh listener item
  | none => pure ⟨⟩
  let w ← get
  set (w.subscribe listener)
  return w.subscriptions.length

end Operations

/-! ## 2. What the loops do -/

section Loops

variable (beh : Listeners ι υ)

/-- The exception a call raised, if any, is logged and scheduled. -/
def scheduled (w : FanOut ι υ) : Option JsVal → FanOut ι υ
  | some err => { w with raised := w.raised ++ [err], ticks := w.ticks ++ [err] }
  | none => w

/-- The state after one call of a listener inside the `try`. -/
def delivered (w : FanOut ι υ) (call : Fn × ι) : FanOut ι υ :=
  ((w.called call).reacted (beh call.1 call.2 (w.called call))).scheduled
    (beh call.1 call.2 (w.called call)).thrown

/-- The state after the calls `calls`, one after the other. -/
def deliverAll (w : FanOut ι υ) (calls : List (Fn × ι)) : FanOut ι υ := calls.foldl (delivered beh) w

/-- What the calls `calls` throw, each in the state the ones before it have left. -/
def thrownBy (w : FanOut ι υ) : List (Fn × ι) → List JsVal
  | [] => []
  | call :: calls =>
      (beh call.1 call.2 (w.called call)).thrown.toList ++ thrownBy (delivered beh w call) calls

theorem deliver_exec (listener : Fn) (item : ι) (w : FanOut ι υ) :
    (deliver beh listener item).exec w = (.ok ⟨⟩, delivered beh w (listener, item)) := by
  unfold deliver invoke delivered
  rw [Throwing.exec_tryCatch]
  simp only [Throwing.exec_bind, Throwing.exec_modify, Throwing.exec_get, Throwing.exec_set]
  cases (beh listener item (w.called (listener, item))).thrown with
  | none => rfl
  | some err => rfl

/-- **`dispatch` returns**: a buffering fan-out keeps the item, a live one calls its listeners in
    order. -/
theorem dispatch_exec (item : ι) (w : FanOut ι υ) :
    (dispatch beh item).exec w = (.ok ⟨⟩, match w.buffer with
      | some buffer => { w with buffer := some (buffer ++ [item]) }
      | none => deliverAll beh w (w.listeners.map (·, item))) := by
  unfold dispatch
  simp only [Throwing.exec_bind, Throwing.exec_get]
  cases w.buffer with
  | some buffer => rfl
  | none =>
      show Throwing.exec (w.listeners.forM _) w = _
      rw [Throwing.exec_forM fun listener w => deliver_exec beh listener item w]
      simp only [deliverAll, List.foldl_map]

/-- **`add` returns**: the new listener comes last, and the first one gets the backlog. -/
theorem add_exec (listener : Fn) (w : FanOut ι υ) :
    (add beh listener).exec w = match w.buffer with
      | some backlog =>
          let w' := deliverAll beh { w.push listener with buffer := none }
            (backlog.map (listener, ·))
          (.ok w'.subscriptions.length, w'.subscribe listener)
      | none => (.ok w.subscriptions.length, (w.push listener).subscribe listener) := by
  unfold add
  simp only [Throwing.exec_bind, Throwing.exec_modify, Throwing.exec_get]
  have hbuffer : (w.push listener).buffer = w.buffer := rfl
  rw [hbuffer]
  cases w.buffer with
  | none => rfl
  | some backlog =>
      simp only [Throwing.exec_bind, Throwing.exec_set]
      rw [Throwing.exec_forM fun item w => deliver_exec beh listener item w]
      simp only [deliverAll, List.foldl_map]
      rfl

/-! Requests and calls leave the mode of the fan-out and its logs alone, except that a call is
    logged, and what it throws is logged and scheduled. -/

theorem cancel_frame (w : FanOut ι υ) (k : Nat) : (w.cancel k).buffer = w.buffer ∧
    (w.cancel k).calls = w.calls ∧ (w.cancel k).ticks = w.ticks ∧ (w.cancel k).raised = w.raised := by
  unfold cancel
  split <;> exact ⟨rfl, rfl, rfl, rfl⟩

theorem cancel_user (w : FanOut ι υ) (k : Nat) : (w.cancel k).user = w.user := by
  unfold cancel
  split <;> rfl

theorem requests_frame (requests : List Request) (w : FanOut ι υ) :
    (requests.foldl request w).buffer = w.buffer ∧ (requests.foldl request w).calls = w.calls ∧
      (requests.foldl request w).ticks = w.ticks ∧ (requests.foldl request w).raised = w.raised := by
  induction requests generalizing w with
  | nil => exact ⟨rfl, rfl, rfl, rfl⟩
  | cons r requests ih =>
      obtain ⟨h1, h2, h3, h4⟩ := ih (w.request r)
      cases r with
      | add listener => exact ⟨h1, h2, h3, h4⟩
      | cancel k =>
          obtain ⟨g1, g2, g3, g4⟩ := w.cancel_frame k
          exact ⟨h1.trans g1, h2.trans g2, h3.trans g3, h4.trans g4⟩

theorem delivered_frame (w : FanOut ι υ) (call : Fn × ι) :
    (delivered beh w call).buffer = w.buffer ∧ (delivered beh w call).calls = w.calls ++ [call] ∧
      (delivered beh w call).ticks =
        w.ticks ++ (beh call.1 call.2 (w.called call)).thrown.toList ∧
      (delivered beh w call).raised =
        w.raised ++ (beh call.1 call.2 (w.called call)).thrown.toList := by
  unfold delivered
  obtain ⟨h1, h2, h3, h4⟩ := requests_frame (beh call.1 call.2 (w.called call)).requests
    (w.called call)
  cases (beh call.1 call.2 (w.called call)).thrown with
  | none =>
      refine ⟨h1, h2, ?_, ?_⟩
      · rw [Option.toList_none, List.append_nil]
        exact h3
      · rw [Option.toList_none, List.append_nil]
        exact h4
  | some err => exact ⟨h1, h2, congrArg (· ++ [err]) h3, congrArg (· ++ [err]) h4⟩

/-- **What a loop does**: every call of it is made, in order, and what the listeners throw on these
    calls is scheduled once each, in order. -/
theorem deliverAll_frame (calls : List (Fn × ι)) (w : FanOut ι υ) :
    (deliverAll beh w calls).buffer = w.buffer ∧ (deliverAll beh w calls).calls = w.calls ++ calls ∧
      (deliverAll beh w calls).ticks = w.ticks ++ thrownBy beh w calls ∧
      (deliverAll beh w calls).raised = w.raised ++ thrownBy beh w calls := by
  induction calls generalizing w with
  | nil => exact ⟨rfl, by simp [deliverAll], by simp [deliverAll, thrownBy],
      by simp [deliverAll, thrownBy]⟩
  | cons call calls ih =>
      obtain ⟨h1, h2, h3, h4⟩ := delivered_frame beh w call
      obtain ⟨g1, g2, g3, g4⟩ := ih (delivered beh w call)
      refine ⟨g1.trans h1, ?_, ?_, ?_⟩
      · exact g2.trans (by rw [h2, List.append_assoc]; rfl)
      · exact g3.trans (by rw [h3, List.append_assoc]; rfl)
      · exact g4.trans (by rw [h4, List.append_assoc]; rfl)

end Loops

section UserState

variable {beh : Listeners ι υ} {R : υ → υ → Prop} (hrefl : ∀ x, R x x)
  (htrans : ∀ x y z, R x y → R y z → R x z) (hR : ∀ l item w, R w.user (beh l item w).user)

include hrefl htrans hR

/-- The user's state is changed by the calls of listeners only. -/
theorem deliverAll_user (calls : List (Fn × ι)) (w : FanOut ι υ) :
    R w.user (deliverAll beh w calls).user := by
  induction calls generalizing w with
  | nil => exact hrefl w.user
  | cons call calls ih =>
      have hone : R w.user (delivered beh w call).user := by
        have h := hR call.1 call.2 (w.called call)
        unfold delivered scheduled reacted
        cases (beh call.1 call.2 (w.called call)).thrown with
        | none => exact h
        | some err => exact h
      exact htrans _ _ _ hone (ih (delivered beh w call))

theorem dispatch_user (item : ι) (w : FanOut ι υ) :
    R w.user ((dispatch beh item).exec w).2.user := by
  rw [dispatch_exec]
  cases w.buffer with
  | some buffer => exact hrefl w.user
  | none => exact deliverAll_user hrefl htrans hR _ w

theorem add_user (listener : Fn) (w : FanOut ι υ) :
    R w.user ((add beh listener).exec w).2.user := by
  rw [add_exec]
  cases w.buffer with
  | some backlog => exact deliverAll_user hrefl htrans hR _ { w.push listener with buffer := none }
  | none => exact hrefl w.user

end UserState

/-! ## 3. Sequences of operations -/

/-- The operations of the code that owns the fan-out. -/
inductive Op (ι : Type) where
  | dispatch (item : ι)
  | add (listener : Fn)
  | cancel (subscription : Nat)

/-- The item an operation dispatches. -/
def Op.item : Op ι → Option ι
  | .dispatch item => some item
  | .add _ | .cancel _ => none

/-- The listener an operation adds. -/
def Op.added : Op ι → Option Fn
  | .add listener => some listener
  | .dispatch _ | .cancel _ => none

/-- The operation cancels Subscription `k`. -/
def Op.cancels (k : Nat) : Op ι → Bool
  | .cancel j => j == k
  | .dispatch _ | .add _ => false

/-- The items dispatched, and the listeners added, by the operations `ops`. -/
def items (ops : List (Op ι)) : List ι := ops.filterMap Op.item

def adds (ops : List (Op ι)) : List Fn := ops.filterMap Op.added

section Runs

variable (beh : Listeners ι υ)

def apply (w : FanOut ι υ) : Op ι → FanOut ι υ
  | .dispatch item => ((dispatch beh item).exec w).2
  | .add listener => ((add beh listener).exec w).2
  | .cancel k => w.cancel k

/-- The state after the operations `ops`. -/
def run (user : υ) (ops : List (Op ι)) : FanOut ι υ := ops.foldl (apply beh) { user := user }

/-- No listener adds or cancels anything while it is called. -/
def Quiet : Prop := ∀ l item w, (beh l item w).requests = []

variable {beh}

theorem delivered_quiet (hq : Quiet beh) (w : FanOut ι υ) (call : Fn × ι) :
    (delivered beh w call).listeners = w.listeners ∧
      (delivered beh w call).subscriptions = w.subscriptions := by
  have hnone : (beh call.1 call.2 (w.called call)).requests.foldl request (w.called call) =
      w.called call := by rw [hq]; rfl
  unfold delivered reacted
  rw [hnone]
  cases (beh call.1 call.2 (w.called call)).thrown with
  | none => exact ⟨rfl, rfl⟩
  | some err => exact ⟨rfl, rfl⟩

/-- Quiet listeners leave the registrations alone. -/
theorem deliverAll_quiet (hq : Quiet beh) (calls : List (Fn × ι)) (w : FanOut ι υ) :
    (deliverAll beh w calls).listeners = w.listeners ∧
      (deliverAll beh w calls).subscriptions = w.subscriptions := by
  induction calls generalizing w with
  | nil => exact ⟨rfl, rfl⟩
  | cons call calls ih =>
      obtain ⟨h1, h2⟩ := delivered_quiet hq w call
      obtain ⟨g1, g2⟩ := ih (delivered beh w call)
      exact ⟨g1.trans h1, g2.trans h2⟩

/-! ## 4. The invariant -/

/-- A Subscription stands for the listener of its add, or is cancelled. -/
def Stands (subscription : Option Fn) (listener : Fn) : Prop :=
  subscription = none ∨ subscription = some listener

/-- **The state `w` reflects the operations `ops`.** -/
structure Reflects (ops : List (Op ι)) (w : FanOut ι υ) : Prop where
  buffer : w.buffer = if adds ops = [] then some (items ops) else none
  subscriptions : List.Forall₂ Stands w.subscriptions (adds ops)
  listeners : w.listeners = w.subscriptions.filterMap id
  calls : ∀ call ∈ w.calls, call.1 ∈ adds ops

theorem items_append (ops ops' : List (Op ι)) : items (ops ++ ops') = items ops ++ items ops' :=
  List.filterMap_append

theorem adds_append (ops ops' : List (Op ι)) : adds (ops ++ ops') = adds ops ++ adds ops' :=
  List.filterMap_append

theorem run_append (user : υ) (ops ops' : List (Op ι)) :
    run beh user (ops ++ ops') = ops'.foldl (apply beh) (run beh user ops) :=
  List.foldl_append

/-- The live listeners stand in the order of their adds. -/
theorem live_sublist {subs : List (Option Fn)} {ls : List Fn} (h : List.Forall₂ Stands subs ls) :
    (subs.filterMap id).Sublist ls := by
  induction h with
  | nil => exact List.Sublist.refl []
  | cons hs _ ih =>
      rcases hs with rfl | rfl
      · exact ih.cons _
      · exact ih.cons_cons _

/-- Cancelling one of distinct live listeners is filtering it out. -/
theorem filter_ne_eq_set {subs : List (Option Fn)} {k : Nat} {l : Fn}
    (hd : (subs.filterMap id).Nodup) (hk : subs[k]? = some (some l)) :
    (subs.filterMap id).filter (· != l) = (subs.set k none).filterMap id := by
  induction subs generalizing k with
  | nil => simp at hk
  | cons s subs ih =>
      cases k with
      | zero =>
          obtain rfl : s = some l := by simpa using hk
          have hl : l ∉ subs.filterMap id := (List.nodup_cons.mp hd).1
          simp only [List.filterMap_cons, id_eq, List.set_cons_zero, List.filter_cons, bne_self_eq_false,
            Bool.false_eq_true, if_false]
          refine List.filter_eq_self.mpr fun x hx => ?_
          simpa using fun e : x = l => hl (e ▸ hx)
      | succ k =>
          have hk' : subs[k]? = some (some l) := by simpa using hk
          cases s with
          | none => exact ih hd hk'
          | some m =>
              obtain ⟨hm, hd'⟩ := List.nodup_cons.mp hd
              have hl : l ∈ subs.filterMap id :=
                List.mem_filterMap.mpr ⟨some l, List.mem_of_getElem? hk', rfl⟩
              have hne : m ≠ l := fun e => hm (e ▸ hl)
              have hih := ih hd' hk'
              simpa [List.filterMap_cons, List.filter_cons, hne] using hih

theorem stands_set_none {subs : List (Option Fn)} {ls : List Fn} (h : List.Forall₂ Stands subs ls)
    (k : Nat) : List.Forall₂ Stands (subs.set k none) ls := by
  induction h generalizing k with
  | nil => exact List.Forall₂.nil
  | cons hs ht ih =>
      cases k with
      | zero => exact List.Forall₂.cons (Or.inl rfl) ht
      | succ k => exact List.Forall₂.cons hs (ih k)

theorem stands_getElem {subs : List (Option Fn)} {ls : List Fn} (h : List.Forall₂ Stands subs ls)
    {k : Nat} {l : Fn} (hk : subs[k]? = some (some l)) : ls[k]? = some l := by
  induction h generalizing k with
  | nil => simp at hk
  | cons hs ht ih =>
      cases k with
      | zero =>
          obtain rfl : _ = some l := by simpa using hk
          rcases hs with hs | hs
          · cases hs
          · cases hs
            rfl
      | succ k => simpa using ih (by simpa using hk)

theorem apply_dispatch (item : ι) (w : FanOut ι υ) : apply beh w (.dispatch item) =
    match w.buffer with
    | some buffer => { w with buffer := some (buffer ++ [item]) }
    | none => deliverAll beh w (w.listeners.map (·, item)) := by
  show ((dispatch beh item).exec w).2 = _
  rw [dispatch_exec]

theorem apply_add (listener : Fn) (w : FanOut ι υ) : apply beh w (.add listener) =
    match w.buffer with
    | some backlog => (deliverAll beh { w.push listener with buffer := none }
        (backlog.map (listener, ·))).subscribe listener
    | none => (w.push listener).subscribe listener := by
  show ((add beh listener).exec w).2 = _
  rw [add_exec]
  cases w.buffer <;> rfl

section Step

variable {ops : List (Op ι)} {w : FanOut ι υ}

theorem reflects_dispatch (hq : Quiet beh) (h : Reflects ops w) (item : ι) :
    Reflects (ops ++ [.dispatch item]) (apply beh w (.dispatch item)) := by
  have hadds : adds (ops ++ [.dispatch item]) = adds ops := by simp [adds, Op.added]
  rw [apply_dispatch]
  by_cases ho : adds ops = []
  · rw [show w.buffer = some (items ops) by rw [h.buffer, if_pos ho]]
    refine ⟨?_, hadds ▸ h.subscriptions, h.listeners, hadds ▸ h.calls⟩
    rw [hadds, if_pos ho, items_append]
    rfl
  · rw [show w.buffer = none by rw [h.buffer, if_neg ho]]
    obtain ⟨hb, hc, -, -⟩ := deliverAll_frame beh (w.listeners.map (·, item)) w
    obtain ⟨hl, hs⟩ := deliverAll_quiet hq (w.listeners.map (·, item)) w
    refine ⟨?_, ?_, ?_, fun call hm => ?_⟩
    · rw [hadds, if_neg ho]
      exact hb.trans (by rw [h.buffer, if_neg ho])
    · rw [hadds]
      exact hs ▸ h.subscriptions
    · exact hl.trans (h.listeners.trans (by rw [← hs]))
    · rw [hadds]
      rcases List.mem_append.mp (hc ▸ hm) with hm | hm
      · exact h.calls call hm
      · obtain ⟨l, hl, rfl⟩ := List.mem_map.mp hm
        exact (live_sublist h.subscriptions).subset (h.listeners ▸ hl)

theorem reflects_add (hq : Quiet beh) (h : Reflects ops w) (l : Fn) :
    Reflects (ops ++ [.add l]) (apply beh w (.add l)) := by
  have hadds : adds (ops ++ [.add l]) = adds ops ++ [l] := by simp [adds, Op.added]
  have hsubs : List.Forall₂ Stands (w.subscriptions ++ [some l]) (adds ops ++ [l]) :=
    List.rel_append h.subscriptions (List.Forall₂.cons (Or.inr rfl) List.Forall₂.nil)
  have hlist : w.listeners ++ [l] = (w.subscriptions ++ [some l]).filterMap id := by
    rw [List.filterMap_append, ← h.listeners]
    rfl
  rw [apply_add]
  by_cases ho : adds ops = []
  · rw [show w.buffer = some (items ops) by rw [h.buffer, if_pos ho]]
    obtain ⟨hb, hc, -, -⟩ := deliverAll_frame beh ((items ops).map (l, ·))
      { w.push l with buffer := none }
    obtain ⟨hl, hs⟩ := deliverAll_quiet hq ((items ops).map (l, ·)) { w.push l with buffer := none }
    refine ⟨?_, ?_, ?_, fun call hm => ?_⟩
    · rw [hadds, if_neg (by simp)]
      exact hb
    · rw [hadds]
      show List.Forall₂ Stands (_ ++ [some l]) _
      rw [hs]
      exact hsubs
    · show _ = List.filterMap id (_ ++ [some l])
      rw [hs]
      exact hl.trans hlist
    · rw [hadds]
      have hm' : call ∈ w.calls ++ (items ops).map (l, ·) := hc ▸ hm
      rcases List.mem_append.mp hm' with hm | hm
      · exact List.mem_append_left _ (h.calls call hm)
      · obtain ⟨item, -, rfl⟩ := List.mem_map.mp hm
        simp
  · rw [show w.buffer = none by rw [h.buffer, if_neg ho]]
    refine ⟨?_, hadds ▸ hsubs, hlist, fun call hm => ?_⟩
    · rw [hadds, if_neg (by simp)]
      show w.buffer = none
      rw [h.buffer, if_neg ho]
    · rw [hadds]
      exact List.mem_append_left _ (h.calls call hm)

theorem reflects_cancel (h : Reflects ops w) (hd : (adds ops).Nodup) (k : Nat) :
    Reflects (ops ++ [.cancel k]) (w.cancel k) := by
  have hadds : adds (ops ++ [.cancel k]) = adds ops := by simp [adds, Op.added]
  have hitems : items (ops ++ [.cancel k]) = items ops := by simp [items, Op.item]
  have hframe := w.cancel_frame k
  refine ⟨?_, ?_, ?_, ?_⟩
  · rw [hadds, hitems]
    exact hframe.1.trans h.buffer
  · rw [hadds]
    unfold cancel
    split
    · exact stands_set_none h.subscriptions k
    · exact h.subscriptions
  · unfold cancel
    split
    · rename_i l hk
      have hlive := (live_sublist h.subscriptions).nodup hd
      show w.listeners.filter (· != l) = (w.subscriptions.set k none).filterMap id
      rw [h.listeners]
      exact filter_ne_eq_set hlive hk
    · exact h.listeners
  · rw [hadds]
    intro call hm
    exact h.calls call (hframe.2.1 ▸ hm)

end Step

/-- **Every state reflects the operations so far.** -/
theorem reflects_run (hq : Quiet beh) (user : υ) {ops : List (Op ι)} (hd : (adds ops).Nodup) :
    Reflects ops (run beh user ops) := by
  induction ops using List.reverseRecOn with
  | nil => exact ⟨rfl, List.Forall₂.nil, rfl, nofun⟩
  | append_singleton ops op ih =>
      rw [adds_append] at hd
      have h := ih (List.Sublist.nodup (List.sublist_append_left _ _) hd)
      rw [run_append]
      cases op with
      | dispatch item => exact reflects_dispatch hq h item
      | add l => exact reflects_add hq h l
      | cancel k => exact reflects_cancel h (List.Sublist.nodup (List.sublist_append_left _ _) hd) k

/-! ## 5. What a listener receives -/

/-- The items among `calls` that went to `l`. -/
def itemsFor (l : Fn) (calls : List (Fn × ι)) : List ι :=
  (calls.filter fun call => call.1 == l).map (·.2)

theorem itemsFor_append (l : Fn) (calls calls' : List (Fn × ι)) :
    itemsFor l (calls ++ calls') = itemsFor l calls ++ itemsFor l calls' := by
  simp [itemsFor]

/-- One dispatch reaches a live listener once. -/
theorem itemsFor_mem {l : Fn} {ls : List Fn} (hd : ls.Nodup) (hl : l ∈ ls) (item : ι) :
    itemsFor l (ls.map (·, item)) = [item] := by
  induction ls with
  | nil => cases hl
  | cons m ls ih =>
      obtain ⟨hm, hd'⟩ := List.nodup_cons.mp hd
      rcases List.mem_cons.mp hl with rfl | hl
      · have hrest : itemsFor l (ls.map (·, item)) = [] := by
          simp only [itemsFor, List.map_eq_nil_iff, List.filter_eq_nil_iff]
          intro call hc
          obtain ⟨m, hm', rfl⟩ := List.mem_map.mp hc
          simpa using fun e : m = l => hm (e ▸ hm')
        calc itemsFor l ((l :: ls).map (·, item))
            = [item] ++ itemsFor l (ls.map (·, item)) := by simp [itemsFor]
          _ = [item] := by rw [hrest, List.append_nil]
      · have hne : m ≠ l := fun e => hm (e ▸ hl)
        have : itemsFor l ((m :: ls).map (·, item)) = itemsFor l (ls.map (·, item)) := by
          simp [itemsFor, hne]
        rw [this, ih hd' hl]

theorem itemsFor_notMem {l : Fn} {calls : List (Fn × ι)} (h : ∀ call ∈ calls, call.1 ≠ l) :
    itemsFor l calls = [] := by
  simp only [itemsFor, List.map_eq_nil_iff, List.filter_eq_nil_iff]
  exact fun call hc => by simpa using h call hc

theorem itemsFor_self (l : Fn) (backlog : List ι) : itemsFor l (backlog.map (l, ·)) = backlog := by
  induction backlog with
  | nil => rfl
  | cons item backlog ih =>
      have hstep : itemsFor l ((item :: backlog).map (l, ·)) =
          item :: itemsFor l (backlog.map (l, ·)) := by simp [itemsFor]
      rw [hstep, ih]

/-- The operations before the first cancel of Subscription `k`. -/
def beforeCancel (k : Nat) (ops : List (Op ι)) : List (Op ι) := ops.takeWhile fun op => !op.cancels k

theorem beforeCancel_of_cancelled {k : Nat} {ops : List (Op ι)} (h : ops.any (Op.cancels k) = true)
    (ops' : List (Op ι)) : beforeCancel k (ops ++ ops') = beforeCancel k ops := by
  induction ops with
  | nil => cases h
  | cons op ops ih =>
      unfold beforeCancel at ih ⊢
      cases hop : op.cancels k with
      | true => simp [hop]
      | false =>
          have h' : ops.any (Op.cancels k) = true := by simpa [hop] using h
          simpa [hop] using ih h'

theorem beforeCancel_of_live {k : Nat} {ops : List (Op ι)} (h : ops.any (Op.cancels k) = false) :
    beforeCancel k ops = ops := by
  induction ops with
  | nil => rfl
  | cons op ops ih =>
      rw [List.any_cons, Bool.or_eq_false_iff] at h
      unfold beforeCancel at ih ⊢
      simp [h.1, ih h.2]

/-- Of the first add, the backlog; of every other one, nothing. -/
def backlogOf (pre : List (Op ι)) : List ι := if adds pre = [] then items pre else []

section Tracking

variable {pre post : List (Op ι)} {l : Fn} {user : υ}

/-- In a state that reflects the operations, Subscription `k` of `l` tells whether `l` is live. -/
theorem Reflects.mem_listeners {ops : List (Op ι)} {w : FanOut ι υ} (h : Reflects ops w)
    (hd : (adds ops).Nodup) {k : Nat} (hk : (adds ops)[k]? = some l) :
    l ∈ w.listeners ↔ w.subscriptions[k]? = some (some l) := by
  rw [h.listeners]
  constructor
  · intro hl
    obtain ⟨s, hs, rfl⟩ := List.mem_filterMap.mp hl
    obtain ⟨j, hj⟩ := List.mem_iff_getElem?.mp hs
    -- the adds are distinct, so it is the same Subscription
    have hj' := stands_getElem h.subscriptions hj
    obtain ⟨hjlt, -⟩ := List.getElem?_eq_some_iff.mp hj'
    obtain rfl := (List.getElem?_inj hjlt hd).mp (hj'.trans hk.symm)
    exact hj
  · intro hs
    exact List.mem_filterMap.mpr ⟨some l, List.mem_of_getElem? hs, rfl⟩

theorem items_beforeCancel_concat (k : Nat) (ops : List (Op ι)) (op : Op ι) :
    items (beforeCancel k (ops ++ [op])) =
      items (beforeCancel k ops) ++ if ops.any (Op.cancels k) then [] else items [op] := by
  cases h : ops.any (Op.cancels k) with
  | true => simp [beforeCancel_of_cancelled h]
  | false =>
      rw [beforeCancel_of_live h]
      cases hop : op.cancels k with
      | false =>
          have hlive : (ops ++ [op]).any (Op.cancels k) = false := by simp [h, hop]
          rw [beforeCancel_of_live hlive, items_append]
          rfl
      | true =>
          have hself : beforeCancel k (ops ++ [op]) = ops := by
            unfold beforeCancel
            rw [List.takeWhile_append_of_pos fun op' hop' => by
              simpa using List.any_eq_false.mp h op' hop']
            simp [hop]
          have hitem : items [op] = [] := by
            cases op with
            | cancel j => rfl
            | _ => cases hop
          rw [hself, hitem]
          exact (List.append_nil _).symm

/-- One operation on a live fan-out: Subscription `k` of `l` is gone once it is cancelled, and `l`
    gets the item dispatched as long as it is not. -/
theorem tracked_step (hq : Quiet beh) {ops : List (Op ι)} {w : FanOut ι υ} (h : Reflects ops w)
    (hd : (adds ops).Nodup) {k : Nat} (hk : (adds ops)[k]? = some l) {c : Bool}
    (hs : w.subscriptions[k]? = some (if c then none else some l)) (op : Op ι) :
    (apply beh w op).subscriptions[k]? = some (if c || op.cancels k then none else some l) ∧
      itemsFor l (apply beh w op).calls = itemsFor l w.calls ++ if c then [] else items [op] := by
  have hadds : adds ops ≠ [] := fun he => by simp [he] at hk
  have hbuffer : w.buffer = none := by rw [h.buffer, if_neg hadds]
  cases op with
  | dispatch item =>
      obtain ⟨-, hc, -, -⟩ := deliverAll_frame beh (w.listeners.map (·, item)) w
      obtain ⟨-, hsub⟩ := deliverAll_quiet hq (w.listeners.map (·, item)) w
      rw [apply_dispatch, hbuffer]
      refine ⟨by simpa [Op.cancels, hsub] using hs, ?_⟩
      show itemsFor l (deliverAll _ _ _).calls = _
      rw [hc, itemsFor_append]
      congr 1
      have hnodup : w.listeners.Nodup := h.listeners ▸ (live_sublist h.subscriptions).nodup hd
      cases c with
      | false => exact itemsFor_mem hnodup ((h.mem_listeners hd hk).mpr hs) item
      | true =>
          have hl : l ∉ w.listeners := fun hm => by
            rw [(h.mem_listeners hd hk).mp hm] at hs
            cases hs
          refine itemsFor_notMem fun call hm he => ?_
          obtain ⟨m, hm', rfl⟩ := List.mem_map.mp hm
          exact hl (he ▸ hm')
  | add m =>
      rw [apply_add, hbuffer]
      obtain ⟨hlt, -⟩ := List.getElem?_eq_some_iff.mp hs
      refine ⟨?_, ?_⟩
      · show (w.subscriptions ++ [some m])[k]? = _
        rw [List.getElem?_append_left hlt, hs]
        simp [Op.cancels]
      · show itemsFor l w.calls = _
        simp [items, Op.item]
  | cancel j =>
      refine ⟨?_, ?_⟩
      · show (w.cancel j).subscriptions[k]? = _
        obtain ⟨hlt, -⟩ := List.getElem?_eq_some_iff.mp hs
        unfold cancel
        by_cases hj : j = k
        · subst hj
          rw [hs]
          cases c with
          | true => simpa [Op.cancels] using hs
          | false => simp [Op.cancels, hlt]
        · have hne : (j == k) = false := by simpa using hj
          split
          · simp [hs, Op.cancels, hj, hne]
          · simp [hs, Op.cancels, hne]
      · show itemsFor l (w.cancel j).calls = _
        rw [(w.cancel_frame j).2.1]
        simp [items, Op.item]

/-- **Subscription and calls of the listener of one add**, after any further operations. -/
theorem tracked (user : υ) (hq : Quiet beh) (hd : (adds (pre ++ .add l :: post)).Nodup) :
    (run beh user (pre ++ .add l :: post)).subscriptions[(adds pre).length]? =
        some (if post.any (Op.cancels (adds pre).length) then none else some l) ∧
      itemsFor l (run beh user (pre ++ .add l :: post)).calls =
        backlogOf pre ++ items (beforeCancel (adds pre).length post) := by
  induction post using List.reverseRecOn with
  | nil =>
      have hsplit : adds (pre ++ [.add l]) = adds pre ++ [l] := adds_append _ _
      rw [hsplit] at hd
      have hl : l ∉ adds pre := fun hm => (List.nodup_append.mp hd).2.2 l hm l (by simp) rfl
      have hpre := reflects_run hq user (List.Sublist.nodup (List.sublist_append_left _ _) hd)
      have hlen : (run beh user pre).subscriptions.length = (adds pre).length :=
        hpre.subscriptions.length_eq
      have hnone : itemsFor l (run beh user pre).calls = [] :=
        itemsFor_notMem fun call hc he => hl (he ▸ hpre.calls call hc)
      rw [run_append]
      show (apply beh (run beh user pre) (.add l)).subscriptions[_]? = some (some l) ∧
        itemsFor l (apply beh (run beh user pre) (.add l)).calls = backlogOf pre ++ []
      rw [apply_add, List.append_nil, backlogOf]
      by_cases ho : adds pre = []
      · rw [show (run beh user pre).buffer = some (items pre) by rw [hpre.buffer, if_pos ho],
          if_pos ho]
        obtain ⟨-, hc, -, -⟩ := deliverAll_frame beh ((items pre).map (l, ·))
          { (run beh user pre).push l with buffer := none }
        obtain ⟨-, hs⟩ := deliverAll_quiet hq ((items pre).map (l, ·))
          { (run beh user pre).push l with buffer := none }
        refine ⟨?_, ?_⟩
        · show (_ ++ [some l])[_]? = _
          rw [hs, ← hlen]
          exact List.getElem?_concat_length
        · show itemsFor l (deliverAll _ _ _).calls = _
          rw [hc, itemsFor_append, itemsFor_self]
          show itemsFor l (run beh user pre).calls ++ items pre = items pre
          rw [hnone, List.nil_append]
      · rw [show (run beh user pre).buffer = none by rw [hpre.buffer, if_neg ho], if_neg ho]
        refine ⟨?_, hnone⟩
        show ((run beh user pre).subscriptions ++ [some l])[_]? = _
        rw [← hlen]
        exact List.getElem?_concat_length
  | append_singleton post op ih =>
      have hsplit : pre ++ .add l :: (post ++ [op]) = (pre ++ .add l :: post) ++ [op] := by simp
      rw [hsplit, adds_append] at hd
      have hd' := List.Sublist.nodup (List.sublist_append_left _ _) hd
      obtain ⟨hs, hc⟩ := ih hd'
      have hk : (adds (pre ++ .add l :: post))[(adds pre).length]? = some l := by
        rw [adds_append, List.getElem?_append_right (Nat.le_refl _), Nat.sub_self]
        rfl
      obtain ⟨hs', hc'⟩ := tracked_step hq (reflects_run hq user hd') hd' hk hs op
      rw [hsplit, run_append, List.any_append, List.any_cons, List.any_nil, Bool.or_false,
        items_beforeCancel_concat, ← List.append_assoc, ← hc]
      exact ⟨hs', hc'⟩

/-- The `k`-th listener was added by the add after which there are `k` adds before it. -/
theorem split_at_add {ops : List (Op ι)} {k : Nat} (hk : (adds ops)[k]? = some l) :
    ∃ a b, ops = a ++ .add l :: b ∧ (adds a).length = k := by
  induction ops generalizing k with
  | nil => simp [adds] at hk
  | cons op ops ih =>
      cases op with
      | add m =>
          cases k with
          | zero =>
              obtain rfl : m = l := by simpa [adds, Op.added] using hk
              exact ⟨[], ops, rfl, rfl⟩
          | succ k =>
              obtain ⟨a, b, rfl, ha⟩ := ih (k := k) (by simpa [adds, Op.added] using hk)
              exact ⟨.add m :: a, b, rfl, congrArg (· + 1) ha⟩
      | dispatch item =>
          obtain ⟨a, b, rfl, ha⟩ := ih hk
          exact ⟨.dispatch item :: a, b, rfl, ha⟩
      | cancel j =>
          obtain ⟨a, b, rfl, ha⟩ := ih hk
          exact ⟨.cancel j :: a, b, rfl, ha⟩

/-- `l` was added by the operations and its Subscription not cancelled since. -/
def LiveAfter (ops : List (Op ι)) (l : Fn) : Prop :=
  ∃ a b, ops = a ++ .add l :: b ∧ b.any (Op.cancels (adds a).length) = false

/-- **The registered listeners are the live ones.** -/
theorem mem_listeners_iff (hq : Quiet beh) (user : υ) {ops : List (Op ι)} (hd : (adds ops).Nodup) :
    l ∈ (run beh user ops).listeners ↔ LiveAfter ops l := by
  have h := reflects_run hq user hd
  constructor
  · intro hl
    rw [h.listeners] at hl
    obtain ⟨s, hs, rfl⟩ := List.mem_filterMap.mp hl
    obtain ⟨k, hk⟩ := List.mem_iff_getElem?.mp hs
    obtain ⟨a, b, rfl, rfl⟩ := split_at_add (stands_getElem h.subscriptions hk)
    refine ⟨a, b, rfl, ?_⟩
    have htrack := (tracked user hq hd).1
    rw [hk] at htrack
    cases hc : b.any (Op.cancels (adds a).length) with
    | false => rfl
    | true =>
        rw [hc] at htrack
        cases htrack
  · intro ⟨a, b, he, hb⟩
    subst he
    have hk : (adds (a ++ .add l :: b))[(adds a).length]? = some l := by
      rw [adds_append, List.getElem?_append_right (Nat.le_refl _), Nat.sub_self]
      rfl
    have htrack := (tracked user hq hd).1
    rw [hb] at htrack
    exact (h.mem_listeners hd hk).mpr htrack

end Tracking

/-! ## 6. The result -/

/-- **What the fan-out delivers** over the operations `ops`. -/
structure Delivers (beh : Listeners ι υ) (user : υ) (ops : List (Op ι)) : Prop where
  /-- a listener is called with the backlog if its add was the first, and with what is dispatched
      between its add and its first cancel: in order, each item once -/
  received : ∀ pre l post, ops = pre ++ .add l :: post →
    itemsFor l (run beh user ops).calls =
      backlogOf pre ++ items (beforeCancel (adds pre).length post)
  /-- nobody else is called -/
  unregistered : ∀ l, l ∉ adds ops → itemsFor l (run beh user ops).calls = []
  /-- one dispatch calls the live listeners, in the order of their adds -/
  order : ∀ pre item post, ops = pre ++ .dispatch item :: post → ∃ live : List Fn,
    live.Sublist (adds pre) ∧ (∀ l, l ∈ live ↔ LiveAfter pre l) ∧
      (run beh user (pre ++ [.dispatch item])).calls =
        (run beh user pre).calls ++ live.map (·, item)
  /-- an item dispatched after the first add with no listener live leaves no trace -/
  lost : ∀ pre item post, ops = pre ++ .dispatch item :: post → adds pre ≠ [] →
    (∀ l, ¬ LiveAfter pre l) → run beh user (pre ++ [.dispatch item]) = run beh user pre
  /-- and buffering does not start again -/
  live : ∀ pre post, ops = pre ++ post → adds pre ≠ [] → (run beh user pre).buffer = none

/-- **The fan-out delivers exactly the right items**, for listeners that do not call back into it,
    whichever of them throws on which item, and adds that use different functions. -/
theorem fanOut_delivers (hq : Quiet beh) (user : υ) {ops : List (Op ι)} (hd : (adds ops).Nodup) :
    Delivers beh user ops := by
  have hpart : ∀ pre post, ops = pre ++ post → (adds pre).Nodup := fun pre post he => by
    rw [he, adds_append] at hd
    exact List.Sublist.nodup (List.sublist_append_left _ _) hd
  have hlive : ∀ pre post, ops = pre ++ post → adds pre ≠ [] → (run beh user pre).buffer = none :=
    fun pre post he hne => by rw [(reflects_run hq user (hpart pre post he)).buffer, if_neg hne]
  refine ⟨?_, ?_, ?_, ?_, hlive⟩
  · intro pre l post he
    subst he
    exact (tracked user hq hd).2
  · exact fun l hl => itemsFor_notMem fun call hc he =>
      hl (he ▸ (reflects_run hq user hd).calls call hc)
  · intro pre item post he
    have hdp := hpart pre _ he
    have h := reflects_run hq user hdp
    refine ⟨(run beh user pre).listeners, h.listeners ▸ live_sublist h.subscriptions,
      fun l => mem_listeners_iff hq user hdp, ?_⟩
    rw [run_append]
    show (apply beh _ (.dispatch item)).calls = _
    rw [apply_dispatch]
    by_cases ho : adds pre = []
    · have hnone : (run beh user pre).listeners = [] :=
        List.eq_nil_of_subset_nil (ho ▸ (h.listeners ▸ live_sublist h.subscriptions).subset)
      rw [show (run beh user pre).buffer = some (items pre) by rw [h.buffer, if_pos ho], hnone]
      exact (List.append_nil _).symm
    · rw [hlive pre _ he ho]
      obtain ⟨-, hc, -, -⟩ :=
        deliverAll_frame beh ((run beh user pre).listeners.map (·, item)) (run beh user pre)
      exact hc
  · intro pre item post he hne hnolive
    have hnone : (run beh user pre).listeners = [] :=
      List.eq_nil_iff_forall_not_mem.mpr fun l hl =>
        hnolive l ((mem_listeners_iff hq user (hpart pre _ he)).mp hl)
    rw [run_append]
    show apply beh _ (.dispatch item) = _
    rw [apply_dispatch, hlive pre _ he hne, hnone]
    rfl

end Runs

/-- A listener that throws on every item it is called with. -/
def throwing : Listeners Nat Unit := fun _ item _ => ⟨[], (), some (.number (Binary64.ofU64 item))⟩

/-- Items 1 and 2 wait for listener 7; listener 8 misses them, and item 4 after its cancel. -/
theorem fanOut_delivers_throwing : Delivers throwing () [.dispatch 1, .dispatch 2, .add 7,
    .add 8, .dispatch 3, .cancel 1, .dispatch 4, .cancel 0, .dispatch 5] :=
  fanOut_delivers (fun _ _ _ => rfl) () (by decide)

end FanOut

end TrueSealSync.Sdk
