/-
  File:      TrueSealSync/System/Streams.lean
  Subject:   FROM THE CORE TO A LISTENER: what the event stream and the issue stream hand over, from
             the constructor of the session on.

  The core raises its items on threads of its own, as soon as the bridge is registered; each goes
  as a text through the queue of a threadsafe function to the one JavaScript thread, which is busy
  inside `TrueSeal.open` until that settles.

  * `Wire` -- the two streams differ in it only: what is written, and what is read from it;
  * `Stream`, `Pipe.system` -- one stream: its registration, its queue, its fan-out;
  * `Carries` -- the invariant: what was accepted is what was handed to the fan-out, and then what
    is queued, in order;
  * `HandsOver` -- so each listener is called with one contiguous stretch of the items accepted;
  * `session` -- `CoreSession::new` and `TrueSeal.open` around the two streams, and their results.
-/
import Mathlib.Data.List.TakeWhile
import TrueSealSync.Lib.Simulation
import TrueSealSync.Native.PendingAcks
import TrueSealSync.Sdk.Callbacks
import TrueSealSync.Sdk.Wire

namespace TrueSealSync.System

open TrueSealSync.Lib
open TrueSealSync.Native (Status)
open TrueSealSync.Sdk (Fn FanOut Listeners JsVal streamDispatcher)

/-! ## 1. The wire -/

/-- What a stream writes for an item of the core, and what the public type reads from that. -/
structure Wire (ε π : Type) where
  value : ε → Json
  asItem : Json → Option π
  ofCore : ε → π
  reads : ∀ e, asItem (value e) = some (ofCore e)

def eventWire : Wire Sdk.TrueSealEvent Sdk.Public.TrueSealEvent where
  value := Sdk.eventValue
  asItem := Sdk.asTrueSealEvent
  ofCore := Sdk.Public.ofEvent
  reads := Sdk.asTrueSealEvent_eventValue

def issueWire : Wire Sdk.DeliveryIssue Sdk.Public.DeliveryIssue where
  value := Sdk.issueValue
  asItem := Sdk.asDeliveryIssue
  ofCore := Sdk.Public.ofIssue
  reads := Sdk.asDeliveryIssue_issueValue

/-! ## 2. One stream -/

/-- The state of one stream. -/
structure Stream (υ : Type) where
  /-- the bridge is registered with the core -/
  registered : Bool := false
  /-- the texts the threadsafe function accepted and JavaScript has not taken -/
  queue : List String := []
  fanOut : FanOut Json υ

inductive StreamAction (ε : Type) where
  | register
  /-- `on_event`, `on_delivery_issue`: `tsfn.call(..)`, whose status is not looked at -/
  | raise (e : ε) (status : Status)
  /-- the JavaScript thread takes the next text -/
  | pop
  | add (listener : Fn)
  | cancel (subscription : Nat)
  deriving DecidableEq

/-- `self.tsfn.call(.., NonBlocking)`. -/
def enqueue (queue : List String) (json : String) : Status → List String
  | .ok => queue ++ [json]
  | .other _ => queue

/-- Everything around a stream: what is written and read, and what the listeners do. They see all
    the calls made before, so what they do may depend on anything else in the process. -/
structure Pipe (ε π υ : Type) where
  wire : Wire ε π
  print : Json → String
  parse : String → Except JsVal Json
  listeners : Listeners Json υ
  user : υ

section Stream

variable {ε π υ : Type} (p : Pipe ε π υ)

/-- `event_json` and `issue_json`. -/
def Pipe.json (e : ε) : String := p.print (p.wire.value e)

/-- `JSON.parse` reads what was printed for these items. -/
def Pipe.Readable (items : List ε) : Prop := ∀ e ∈ items, p.parse (p.json e) = .ok (p.wire.value e)

def Pipe.step (s : Stream υ) : StreamAction ε → Option (Stream υ)
  | .register => if s.registered then none else some { s with registered := true }
  | .raise e status =>
      if s.registered then some { s with queue := enqueue s.queue (p.json e) status } else none
  | .pop =>
      match s.queue with
      | [] => none
      | json :: queue =>
          some { s with
            queue := queue
            fanOut := ((streamDispatcher p.listeners p.parse json).exec s.fanOut).2 }
  | .add listener => some { s with fanOut := ((FanOut.add p.listeners listener).exec s.fanOut).2 }
  | .cancel k => some { s with fanOut := s.fanOut.cancel k }

/-- One stream. -/
def Pipe.system : System (Stream υ) (StreamAction ε) where
  init := { fanOut := { user := p.user } }
  step := p.step

/-! ### What the actions of a run add up to -/

def StreamAction.accepted : StreamAction ε → Option ε
  | .raise e .ok => some e
  | _ => none

def StreamAction.pops : StreamAction ε → Bool
  | .pop => true
  | _ => false

def StreamAction.added : StreamAction ε → Option Fn
  | .add listener => some listener
  | _ => none

def StreamAction.cancels (k : Nat) : StreamAction ε → Bool
  | .cancel j => j == k
  | _ => false

/-- The items the threadsafe function accepted, in order. -/
def accepted (tr : List (StreamAction ε)) : List ε := tr.filterMap StreamAction.accepted

/-- How many texts JavaScript took. -/
def pops (tr : List (StreamAction ε)) : Nat := tr.countP StreamAction.pops

/-- The listeners added, in order. -/
def added (tr : List (StreamAction ε)) : List Fn := tr.filterMap StreamAction.added

/-- The actions before the first cancel of Subscription `k`. -/
def untilCancel (k : Nat) (tr : List (StreamAction ε)) : List (StreamAction ε) :=
  tr.takeWhile fun a => !a.cancels k

/-- The operation an action is for the fan-out. -/
def Pipe.fanOutOp (s : Stream υ) : StreamAction ε → Option (FanOut.Op Json)
  | .pop => s.queue.head?.bind fun json => (p.parse json).toOption.map .dispatch
  | .add listener => some (.add listener)
  | .cancel k => some (.cancel k)
  | .register | .raise _ _ => none

/-- The operations on the fan-out over a run. -/
def Pipe.ops (tr : List (StreamAction ε)) : List (FanOut.Op Json) :=
  p.system.observed p.fanOutOp p.system.init tr

/-! ## 3. The invariant -/

/-- **What was accepted is what was handed over and then what is queued**, and the fan-out is where
    its operations lead. -/
structure Carries (tr : List (StreamAction ε)) (s : Stream υ) : Prop where
  taken : pops tr ≤ (accepted tr).length
  queue : s.queue = ((accepted tr).drop (pops tr)).map p.json
  fanOut : s.fanOut = FanOut.run p.listeners p.user (p.ops tr)
  items : FanOut.items (p.ops tr) = ((accepted tr).take (pops tr)).map p.wire.value
  adds : FanOut.adds (p.ops tr) = added tr

variable {p}

theorem accepted_append (tr tr' : List (StreamAction ε)) :
    accepted (tr ++ tr') = accepted tr ++ accepted tr' :=
  List.filterMap_append

theorem accepted_concat (tr : List (StreamAction ε)) (a : StreamAction ε) :
    accepted (tr ++ [a]) = accepted tr ++ a.accepted.toList := by
  rw [accepted_append]
  cases h : a.accepted <;> simp [accepted, h]

theorem pops_concat (tr : List (StreamAction ε)) (a : StreamAction ε) :
    pops (tr ++ [a]) = pops tr + if a.pops then 1 else 0 := by
  simp [pops, List.countP_append, List.countP_cons]

theorem added_concat (tr : List (StreamAction ε)) (a : StreamAction ε) :
    added (tr ++ [a]) = added tr ++ a.added.toList := by
  unfold added
  cases h : a.added <;> simp [h]

/-- A text that `JSON.parse` reads is one `dispatch`. -/
theorem streamDispatcher_ok {json : String} {v : Json} (h : p.parse json = .ok v)
    (w : FanOut Json υ) : ((streamDispatcher p.listeners p.parse json).exec w).2 =
      FanOut.apply p.listeners w (.dispatch v) := by
  unfold streamDispatcher Sdk.dispatchSafely Sdk.parseJson FanOut.apply
  simp only [Throwing.exec_tryCatch, Throwing.exec_bind, h, Throwing.exec_pure]
  rw [FanOut.dispatch_exec]

theorem ops_concat {tr : List (StreamAction ε)} {s s' : Stream υ} {a : StreamAction ε}
    (h : p.system.Run tr s) (hs : p.step s a = some s') :
    p.ops (tr ++ [a]) = p.ops tr ++ (p.fanOutOp s a).toList :=
  System.observed_concat p.system p.fanOutOp h hs

/-- The next text is that of the next item accepted. -/
theorem Carries.next {tr : List (StreamAction ε)} {s : Stream υ} (hc : Carries p tr s)
    {json : String} {queue : List String} (hq : s.queue = json :: queue) :
    ∃ e rest, (accepted tr).drop (pops tr) = e :: rest ∧ json = p.json e ∧
      queue = rest.map p.json := by
  have hq' := hc.queue.symm.trans hq
  obtain ⟨e, rest, hdrop, hjson, hrest⟩ := List.map_eq_cons_iff.mp hq'
  exact ⟨e, rest, hdrop, hjson.symm, hrest.symm⟩

/-- An action that neither brings an item nor takes a text. -/
theorem Carries.keep {tr : List (StreamAction ε)} {s s' : Stream υ} {a : StreamAction ε}
    (hc : Carries p tr s) (hacc : a.accepted = none) (hpop : a.pops = false)
    (hqueue : s'.queue = s.queue)
    (hfanOut : s'.fanOut = FanOut.run p.listeners p.user (p.ops (tr ++ [a])))
    (hitems : FanOut.items (p.ops (tr ++ [a])) = FanOut.items (p.ops tr))
    (hadds : FanOut.adds (p.ops (tr ++ [a])) = FanOut.adds (p.ops tr) ++ a.added.toList) :
    Carries p (tr ++ [a]) s' := by
  have hacc' : accepted (tr ++ [a]) = accepted tr := by simp [accepted_concat, hacc]
  have hpops : pops (tr ++ [a]) = pops tr := by simp [pops_concat, hpop]
  refine ⟨?_, ?_, hfanOut, ?_, ?_⟩
  · rw [hacc', hpops]
    exact hc.taken
  · rw [hacc', hpops, hqueue]
    exact hc.queue
  · rw [hacc', hpops, hitems]
    exact hc.items
  · rw [added_concat, hadds, hc.adds]

/-- What one action does to a stream that carries its items. -/
theorem carries_step {tr : List (StreamAction ε)} {s s' : Stream υ} {a : StreamAction ε}
    (h : p.system.Run tr s) (hc : Carries p tr s) (hs : p.step s a = some s')
    (hr : p.Readable (accepted tr)) : Carries p (tr ++ [a]) s' := by
  have hops := ops_concat h hs
  -- the fan-out takes one operation, or none
  have hrun : ∀ op, p.fanOutOp s a = some op →
      FanOut.run p.listeners p.user (p.ops (tr ++ [a])) = FanOut.apply p.listeners s.fanOut op := by
    intro op hop
    rw [hops, hop, Option.toList_some, FanOut.run_append, ← hc.fanOut]
    rfl
  have hsame : p.fanOutOp s a = none → p.ops (tr ++ [a]) = p.ops tr := fun hop => by
    rw [hops, hop, Option.toList_none, List.append_nil]
  cases a with
  | register =>
      obtain ⟨-, rfl⟩ : s.registered = false ∧ _ := by simpa [Pipe.step] using hs
      have ho := hsame rfl
      exact hc.keep rfl rfl rfl (ho ▸ hc.fanOut) (by rw [ho])
        (by rw [ho]; exact (List.append_nil _).symm)
  | raise e status =>
      obtain ⟨-, rfl⟩ : s.registered = true ∧ _ := by simpa [Pipe.step] using hs
      have ho := hsame rfl
      cases status with
      | other debug =>
          exact hc.keep rfl rfl rfl (ho ▸ hc.fanOut) (by rw [ho])
            (by rw [ho]; exact (List.append_nil _).symm)
      | ok =>
          have hacc : accepted (tr ++ [.raise e .ok]) = accepted tr ++ [e] := accepted_concat tr _
          have hpops : pops (tr ++ [.raise e .ok]) = pops tr := pops_concat tr _
          have htaken := hc.taken
          refine ⟨?_, ?_, ?_, ?_, ?_⟩
          · rw [hacc, hpops, List.length_append]
            omega
          · rw [hacc, hpops, List.drop_append_of_le_length htaken, List.map_append, ← hc.queue]
            rfl
          · exact ho ▸ hc.fanOut
          · rw [ho, hacc, hpops, List.take_append_of_le_length htaken]
            exact hc.items
          · rw [ho, added_concat]
            exact hc.adds.trans (List.append_nil _).symm
  | pop =>
      cases hq : s.queue with
      | nil => simp [Pipe.step, hq] at hs
      | cons json queue =>
          obtain ⟨e, rest, hdrop, rfl, hrest⟩ := hc.next hq
          have he : e ∈ accepted tr := List.mem_of_mem_drop (hdrop ▸ List.mem_cons_self)
          obtain rfl : _ = s' := by simpa [Pipe.step, hq] using hs
          have hop : p.fanOutOp s .pop = some (.dispatch (p.wire.value e)) := by
            simp [Pipe.fanOutOp, hq, hr e he, Except.toOption]
          have hacc : accepted (tr ++ [.pop]) = accepted tr := by
            simp [accepted_concat, StreamAction.accepted]
          have hpops : pops (tr ++ [.pop]) = pops tr + 1 := pops_concat tr _
          have hget : (accepted tr)[pops tr]? = some e := by
            rw [← Nat.add_zero (pops tr), ← List.getElem?_drop, hdrop]
            rfl
          obtain ⟨hlt, -⟩ := List.getElem?_eq_some_iff.mp hget
          refine ⟨?_, ?_, ?_, ?_, ?_⟩
          · rw [hacc, hpops]
            exact hlt
          · show queue = _
            rw [hacc, hpops, ← List.drop_drop, hdrop]
            exact hrest
          · rw [hrun _ hop]
            exact streamDispatcher_ok (hr e he) s.fanOut
          · rw [hops, hop, hacc, hpops, FanOut.items_append, hc.items, List.take_add_one, hget,
              List.map_append]
            rfl
          · rw [hops, hop, FanOut.adds_append, hc.adds, added_concat]
            rfl
  | add l =>
      obtain rfl : _ = s' := by simpa [Pipe.step] using hs
      refine hc.keep rfl rfl rfl (hrun (.add l) rfl).symm ?_ ?_
      · rw [hops, FanOut.items_append]
        exact List.append_nil _
      · rw [hops, FanOut.adds_append]
        rfl
  | cancel k =>
      obtain rfl : _ = s' := by simpa [Pipe.step] using hs
      refine hc.keep rfl rfl rfl (hrun (.cancel k) rfl).symm ?_ ?_
      · rw [hops, FanOut.items_append]
        exact List.append_nil _
      · rw [hops, FanOut.adds_append]
        rfl

/-- **Every run carries its items.** -/
theorem carries_run {tr : List (StreamAction ε)} {s : Stream υ} (h : p.system.Run tr s)
    (hr : p.Readable (accepted tr)) : Carries p tr s := by
  induction h using System.Run.induct with
  | start => exact ⟨Nat.le_refl _, rfl, rfl, rfl, rfl⟩
  | snoc tr s a s' h hs ih =>
      have hr' : p.Readable (accepted tr) := fun e he =>
        hr e (accepted_concat tr a ▸ List.mem_append_left _ he)
      exact carries_step h (ih hr') hs hr'

/-! ## 4. What one listener gets -/

/-- The operations of a run in two parts. -/
theorem ops_append {tr tr' : List (StreamAction ε)} {t : Stream υ} (h : p.system.Run tr t) :
    p.ops (tr ++ tr') = p.ops tr ++ p.system.observed p.fanOutOp t tr' :=
  System.observed_append p.system p.fanOutOp h

/-- An action cancels Subscription `k` where its operation does. -/
theorem fanOutOp_cancels {k : Nat} {t : Stream υ} {a : StreamAction ε} :
    (p.fanOutOp t a).any (FanOut.Op.cancels k) = a.cancels k := by
  cases a with
  | register | raise e status | add l => rfl
  | cancel j => rfl
  | pop =>
      unfold Pipe.fanOutOp
      cases t.queue.head? with
      | none => rfl
      | some json =>
          show Option.any _ ((p.parse json).toOption.map FanOut.Op.dispatch) = false
          cases p.parse json <;> rfl

/-- **The operations up to the first cancel** are those of the actions up to it. -/
theorem beforeCancel_observed (k : Nat) {tr : List (StreamAction ε)} {t u : Stream υ}
    (h : p.system.exec t tr = some u) :
    FanOut.beforeCancel k (p.system.observed p.fanOutOp t tr) =
      p.system.observed p.fanOutOp t (untilCancel k tr) := by
  induction tr generalizing t with
  | nil => rfl
  | cons a tr ih =>
      obtain ⟨t', hst, hex⟩ := Option.bind_eq_some_iff.mp h
      have hop := fanOutOp_cancels (p := p) (k := k) (t := t) (a := a)
      rw [System.observed_cons p.system p.fanOutOp hst]
      unfold FanOut.beforeCancel untilCancel at ih ⊢
      cases ha : a.cancels k with
      | true =>
          rw [ha] at hop
          obtain ⟨op, he, hcancel⟩ := (Option.any_eq_true _ _).mp hop
          simp [ha, he, hcancel]
      | false =>
          rw [ha] at hop
          have htake : (a :: tr).takeWhile (fun a => !a.cancels k) =
              a :: tr.takeWhile fun a => !a.cancels k := by simp [ha]
          rw [htake, System.observed_cons p.system p.fanOutOp hst, ← ih hex]
          cases he : p.fanOutOp t a with
          | none => rfl
          | some op =>
              have hcancel : op.cancels k = false := by simpa [he] using hop
              simp [hcancel]

/-- **What a stream hands over** in the run `tr` that ends in `s`. -/
structure HandsOver (p : Pipe ε π υ) (tr : List (StreamAction ε)) (s : Stream υ) : Prop where
  /-- what JavaScript has not taken waits, in order -/
  queue : s.queue = ((accepted tr).drop (pops tr)).map p.json
  /-- a listener gets the items accepted that JavaScript took between its add and the first cancel
      of its Subscription, the first one also those taken before: a contiguous stretch of what
      the core raised, each item once, as the value of the public type -/
  received : ∀ pre l post, tr = pre ++ .add l :: post →
    (FanOut.itemsFor l s.fanOut.calls).map p.wire.asItem =
      (((accepted tr).take (pops (pre ++ untilCancel (added pre).length post))).drop
        (if added pre = [] then 0 else pops pre)).map fun e => some (p.wire.ofCore e)
  /-- so the first listener, while its Subscription lasts, has been called with every item accepted
      once the queue is empty -/
  drained : ∀ pre l post, tr = pre ++ .add l :: post → added pre = [] →
    post.any (StreamAction.cancels 0) = false → s.queue = [] →
      (FanOut.itemsFor l s.fanOut.calls).map p.wire.asItem =
        (accepted tr).map fun e => some (p.wire.ofCore e)
  /-- nobody else is called -/
  unregistered : ∀ l, l ∉ added tr → FanOut.itemsFor l s.fanOut.calls = []

section Received

variable {pre post : List (StreamAction ε)} {l : Fn} {s : Stream υ}

/-- A part of a run is read where the whole is. -/
theorem Readable.left {tr tr' : List (StreamAction ε)} (hr : p.Readable (accepted (tr ++ tr'))) :
    p.Readable (accepted tr) := fun e he =>
  hr e (accepted_append tr tr' ▸ List.mem_append_left _ he)

/-- The items up to a point of a run are the first ones accepted in all of it. -/
theorem items_prefix {tr tr' : List (StreamAction ε)} (h : p.system.Run (tr ++ tr') s)
    (hr : p.Readable (accepted (tr ++ tr'))) :
    FanOut.items (p.ops tr) = ((accepted (tr ++ tr')).take (pops tr)).map p.wire.value := by
  obtain ⟨t, ht, -⟩ := h.split
  have hc := carries_run ht (Readable.left hr)
  rw [hc.items, accepted_append, List.take_append_of_le_length hc.taken]

/-- **The operations of a run around an add**: those before it, and of those after it the ones up to
    the first cancel bring the items JavaScript takes until then. -/
theorem items_window (h : p.system.Run (pre ++ .add l :: post) s)
    (hr : p.Readable (accepted (pre ++ .add l :: post))) : ∃ ops : List (FanOut.Op Json),
      p.ops (pre ++ .add l :: post) = p.ops pre ++ .add l :: ops ∧
      FanOut.items (p.ops pre) ++ FanOut.items (FanOut.beforeCancel (added pre).length ops) =
        ((accepted (pre ++ .add l :: post)).take
          (pops (pre ++ untilCancel (added pre).length post))).map p.wire.value := by
  have hsplit : pre ++ .add l :: post = pre ++ [.add l] ++ post := by simp
  obtain ⟨t, ht, hex⟩ := System.Run.split (hsplit ▸ h)
  have hadd : p.ops (pre ++ [.add l]) = p.ops pre ++ [.add l] := by
    obtain ⟨t₀, ht₀, hex₀⟩ := ht.split
    exact ops_concat ht₀ (System.exec_single p.system |>.mp hex₀)
  refine ⟨p.system.observed p.fanOutOp t post, ?_, ?_⟩
  · rw [hsplit, ops_append ht, hadd, List.append_assoc]
    rfl
  · -- the run up to the cancel is a run of its own
    let k := (added pre).length
    have hpost : untilCancel k post ++ post.dropWhile (fun a => !a.cancels k) = post :=
      List.takeWhile_append_dropWhile
    have hwhole : pre ++ .add l :: post = (pre ++ [.add l] ++ untilCancel k post) ++
        post.dropWhile (fun a => !a.cancels k) := by
      rw [List.append_assoc, hpost, ← hsplit]
    have hitems := items_prefix (hwhole ▸ h) (hwhole ▸ hr)
    rw [← hwhole, ops_append ht, hadd, FanOut.items_append, FanOut.items_append] at hitems
    rw [beforeCancel_observed _ hex]
    have hpops : pops (pre ++ [.add l] ++ untilCancel k post) =
        pops (pre ++ untilCancel k post) := by
      simp [pops, StreamAction.pops]
    rw [hpops] at hitems
    exact (congrArg (· ++ _) (List.append_nil _)).symm.trans hitems

end Received

section Whole

variable {tr : List (StreamAction ε)} {s : Stream υ}

/-- **A listener gets a contiguous stretch of the items**, for listeners that do not call back into
    the fan-out, whichever of them throws on which item, and adds that use different functions. -/
theorem received_run (hq : FanOut.Quiet p.listeners) (h : p.system.Run tr s)
    (hr : p.Readable (accepted tr)) (hd : (added tr).Nodup) {pre post : List (StreamAction ε)}
    {l : Fn} (he : tr = pre ++ .add l :: post) :
    (FanOut.itemsFor l s.fanOut.calls).map p.wire.asItem =
      (((accepted tr).take (pops (pre ++ untilCancel (added pre).length post))).drop
        (if added pre = [] then 0 else pops pre)).map fun e => some (p.wire.ofCore e) := by
  subst he
  have hc := carries_run h hr
  obtain ⟨t, ht, -⟩ := h.split
  have hpre := carries_run ht (Readable.left hr)
  obtain ⟨ops, hops, hitems⟩ := items_window h hr
  have hnodup : (FanOut.adds (p.ops pre ++ .add l :: ops)).Nodup := by
    rw [← hops, hc.adds]
    exact hd
  have hlen : (FanOut.items (p.ops pre)).length = pops pre := by
    rw [hpre.items, List.length_map, List.length_take, Nat.min_eq_left hpre.taken]
  rw [hc.fanOut, hops, (FanOut.tracked p.user hq hnodup).2, hpre.adds]
  have hgot : FanOut.backlogOf (p.ops pre) ++
      FanOut.items (FanOut.beforeCancel (added pre).length ops) =
        (((accepted (pre ++ .add l :: post)).take
          (pops (pre ++ untilCancel (added pre).length post))).drop
            (if added pre = [] then 0 else pops pre)).map p.wire.value := by
    rw [List.map_drop, ← hitems]
    unfold FanOut.backlogOf
    rw [hpre.adds]
    by_cases hfirst : added pre = []
    · rw [if_pos hfirst, if_pos hfirst, List.drop_zero]
    · rw [if_neg hfirst, if_neg hfirst, ← hlen, List.drop_left, List.nil_append]
  rw [hgot, List.map_map]
  exact List.map_congr_left fun e _ => p.wire.reads e

theorem untilCancel_of_live {k : Nat} {tr : List (StreamAction ε)}
    (h : tr.any (StreamAction.cancels k) = false) : untilCancel k tr = tr :=
  List.takeWhile_eq_self_iff.mpr fun a ha => by simpa using List.any_eq_false.mp h a ha

/-- **What every stream hands over.** -/
theorem handsOver_run (hq : FanOut.Quiet p.listeners) (h : p.system.Run tr s)
    (hr : p.Readable (accepted tr)) (hd : (added tr).Nodup) : HandsOver p tr s := by
  have hc := carries_run h hr
  refine ⟨hc.queue, fun pre l post => received_run hq h hr hd, ?_, ?_⟩
  · intro pre l post he hfirst hlive hempty
    have hpops : pops (pre ++ post) = pops tr := by
      rw [he]
      simp [pops, StreamAction.pops]
    have hall : (accepted tr).length ≤ pops tr :=
      List.drop_eq_nil_iff.mp (List.map_eq_nil_iff.mp (hc.queue.symm.trans hempty))
    rw [received_run hq h hr hd he, if_pos hfirst, List.drop_zero, hfirst, List.length_nil,
      untilCancel_of_live hlive, hpops, List.take_of_length_le hall]
  · intro l hl
    refine FanOut.itemsFor_notMem fun call hcall he => hl ?_
    have hreflects : FanOut.Reflects (p.ops tr) (FanOut.run p.listeners p.user (p.ops tr)) :=
      FanOut.reflects_run hq p.user (hc.adds.symm ▸ hd)
    rw [hc.fanOut] at hcall
    exact he ▸ hc.adds ▸ hreflects.calls call hcall

end Whole

end Stream

/-! ## 5. Opening a session -/

/-- How far `CoreSession::new` and `TrueSeal.open` are. -/
inductive Opening where
  /-- both threadsafe functions are built -/
  | built
  /-- `TrueSeal::open` has returned -/
  | opened
  | eventsRegistered
  | issuesRegistered
  | resolved
  | rejected
  deriving DecidableEq

/-- What may happen to a stream: until `open` settles the JavaScript thread is busy with it, and
    only an object it resolved with has `onEvent` and `onDeliveryIssue`. -/
def Opening.allows {ε : Type} : Opening → StreamAction ε → Bool
  | _, .register => false
  | _, .raise _ _ => true
  | .resolved, _ => true
  | .rejected, .pop => true
  | _, _ => false

/-- A session with its two streams. -/
structure Session (υ υ' : Type) where
  opening : Opening := .built
  events : Stream υ
  issues : Stream υ'

inductive SessionAction where
  /-- `TrueSeal::open(..)`, with or without an error -/
  | coreOpen (ok : Bool)
  /-- `inner.on_event(..)` -/
  | onEvent (ok : Bool)
  /-- `inner.on_delivery_issue(..)` -/
  | onDeliveryIssue (ok : Bool)
  /-- `Ok(Self)`, and `return new TrueSeal(..)` -/
  | settle
  | event (a : StreamAction Sdk.TrueSealEvent)
  | issue (a : StreamAction Sdk.DeliveryIssue)

section Session

variable {υ υ' : Type} (E : Pipe Sdk.TrueSealEvent Sdk.Public.TrueSealEvent υ)
  (I : Pipe Sdk.DeliveryIssue Sdk.Public.DeliveryIssue υ')

def Session.step (s : Session υ υ') : SessionAction → Option (Session υ υ')
  | .coreOpen ok =>
      if s.opening = .built then some { s with opening := if ok then .opened else .rejected }
      else none
  | .onEvent ok =>
      if s.opening = .opened then
        if ok then (E.step s.events .register).map fun events =>
          { s with opening := .eventsRegistered, events := events }
        else some { s with opening := .rejected }
      else none
  | .onDeliveryIssue ok =>
      if s.opening = .eventsRegistered then
        if ok then (I.step s.issues .register).map fun issues =>
          { s with opening := .issuesRegistered, issues := issues }
        else some { s with opening := .rejected }
      else none
  | .settle => if s.opening = .issuesRegistered then some { s with opening := .resolved } else none
  | .event a =>
      if s.opening.allows a then (E.step s.events a).map fun events => { s with events := events }
      else none
  | .issue a =>
      if s.opening.allows a then (I.step s.issues a).map fun issues => { s with issues := issues }
      else none

/-- A session from its constructor on. -/
def session : System (Session υ υ') SessionAction where
  init := { events := E.system.init, issues := I.system.init }
  step := Session.step E I

/-- What an action is for the event stream. -/
def SessionAction.toEvents : SessionAction → Option (StreamAction Sdk.TrueSealEvent)
  | .onEvent true => some .register
  | .event a => some a
  | _ => none

/-- What an action is for the issue stream. -/
def SessionAction.toIssues : SessionAction → Option (StreamAction Sdk.DeliveryIssue)
  | .onDeliveryIssue true => some .register
  | .issue a => some a
  | _ => none

/-- The actions of a run on each stream. -/
def onEvents (tr : List SessionAction) : List (StreamAction Sdk.TrueSealEvent) :=
  tr.filterMap SessionAction.toEvents

def onIssues (tr : List SessionAction) : List (StreamAction Sdk.DeliveryIssue) :=
  tr.filterMap SessionAction.toIssues

/-! ### Each stream of a session is a stream -/

/-- What a step of the session is for one of its streams: none, or an action of the stream that the
    state of the opening allows. -/
def Side {ε π υ : Type} (p : Pipe ε π υ) (o : Opening) (t t' : Stream υ) :
    Option (StreamAction ε) → Prop
  | none => t' = t
  | some b => (b = .register ∨ o.allows b = true) ∧ p.step t b = some t'

/-- Before `open` resolves nobody is added, and before it settles nothing is taken. -/
def Waits {ε : Type} (o : Opening) (tr : List (StreamAction ε)) : Prop :=
  (o ≠ .resolved → added tr = []) ∧ (o ≠ .resolved → o ≠ .rejected → pops tr = 0)

section Sides

variable {ε π υ : Type} {p : Pipe ε π υ} {o o' : Opening} {t t' : Stream υ}

theorem Opening.added_of_allows {b : StreamAction ε} (h : o.allows b = true) (ho : o ≠ .resolved) :
    b.added = none := by
  cases b with
  | add l =>
      cases o with
      | resolved => exact absurd rfl ho
      | _ => cases h
  | _ => rfl

theorem Opening.pops_of_allows {b : StreamAction ε} (h : o.allows b = true) (ho : o ≠ .resolved)
    (ho' : o ≠ .rejected) : b.pops = false := by
  cases b with
  | pop =>
      cases o with
      | resolved => exact absurd rfl ho
      | rejected => exact absurd rfl ho'
      | _ => cases h
  | _ => rfl

theorem Side.exec {b : Option (StreamAction ε)} (h : Side p o t t' b) :
    p.system.exec t b.toList = some t' := by
  cases b with
  | none => exact congrArg some (Eq.symm h)
  | some b => exact (System.exec_single p.system).mpr h.2

theorem Waits.step {tr : List (StreamAction ε)} {b : Option (StreamAction ε)} (hw : Waits o tr)
    (hside : Side p o t t' b) (hresolved : o = .resolved → o' = o)
    (hrejected : o = .rejected → o' = o) : Waits o' (tr ++ b.toList) := by
  have ho : o' ≠ .resolved → o ≠ .resolved := fun h he => h ((hresolved he).trans he)
  have ho' : o' ≠ .rejected → o ≠ .rejected := fun h he => h ((hrejected he).trans he)
  cases b with
  | none =>
      rw [Option.toList_none, List.append_nil]
      exact ⟨fun h => hw.1 (ho h), fun h h' => hw.2 (ho h) (ho' h')⟩
  | some b =>
      rw [Option.toList_some]
      refine ⟨fun h => ?_, fun h h' => ?_⟩
      · have hb : b.added = none := by
          rcases hside.1 with rfl | hallow
          · rfl
          · exact Opening.added_of_allows hallow (ho h)
        rw [added_concat, hw.1 (ho h), hb]
        rfl
      · have hb : b.pops = false := by
          rcases hside.1 with rfl | hallow
          · rfl
          · exact Opening.pops_of_allows hallow (ho h) (ho' h')
        rw [pops_concat, hw.2 (ho h) (ho' h'), hb]
        rfl

end Sides

variable {E I}

section Runs

variable {tr : List SessionAction} {s s' : Session υ υ'} {a : SessionAction}

/-- **What a step of a session can do**: to each stream what its action is for it, and `open` once
    settled stays so. -/
theorem step_sides (h : (session E I).step s a = some s') :
    Side E s.opening s.events s'.events a.toEvents ∧
      Side I s.opening s.issues s'.issues a.toIssues ∧
      (s.opening = .resolved → s'.opening = s.opening) ∧
      (s.opening = .rejected → s'.opening = s.opening) := by
  change Session.step E I s a = some s' at h
  cases a with
  | coreOpen ok =>
      obtain ⟨ho, rfl⟩ : s.opening = .built ∧ _ = s' := by simpa [Session.step] using h
      exact ⟨rfl, rfl, by simp [ho], by simp [ho]⟩
  | onEvent ok =>
      cases ok with
      | true =>
          obtain ⟨ho, t, ht, rfl⟩ :
              s.opening = .opened ∧ ∃ t, E.step s.events .register = some t ∧ _ = s' := by
            simpa [Session.step] using h
          exact ⟨⟨Or.inl rfl, ht⟩, rfl, by simp [ho], by simp [ho]⟩
      | false =>
          obtain ⟨ho, rfl⟩ : s.opening = .opened ∧ _ = s' := by simpa [Session.step] using h
          exact ⟨rfl, rfl, by simp [ho], by simp [ho]⟩
  | onDeliveryIssue ok =>
      cases ok with
      | true =>
          obtain ⟨ho, t, ht, rfl⟩ :
              s.opening = .eventsRegistered ∧ ∃ t, I.step s.issues .register = some t ∧ _ = s' := by
            simpa [Session.step] using h
          exact ⟨rfl, ⟨Or.inl rfl, ht⟩, by simp [ho], by simp [ho]⟩
      | false =>
          obtain ⟨ho, rfl⟩ : s.opening = .eventsRegistered ∧ _ = s' := by
            simpa [Session.step] using h
          exact ⟨rfl, rfl, by simp [ho], by simp [ho]⟩
  | settle =>
      obtain ⟨ho, rfl⟩ : s.opening = .issuesRegistered ∧ _ = s' := by simpa [Session.step] using h
      exact ⟨rfl, rfl, by simp [ho], by simp [ho]⟩
  | event b =>
      obtain ⟨hallow, t, ht, rfl⟩ :
          s.opening.allows b = true ∧ ∃ t, E.step s.events b = some t ∧ _ = s' := by
        simpa [Session.step] using h
      exact ⟨⟨Or.inr hallow, ht⟩, rfl, fun _ => rfl, fun _ => rfl⟩
  | issue b =>
      obtain ⟨hallow, t, ht, rfl⟩ :
          s.opening.allows b = true ∧ ∃ t, I.step s.issues b = some t ∧ _ = s' := by
        simpa [Session.step] using h
      exact ⟨rfl, ⟨Or.inr hallow, ht⟩, fun _ => rfl, fun _ => rfl⟩

theorem onEvents_concat (tr : List SessionAction) (a : SessionAction) :
    onEvents (tr ++ [a]) = onEvents tr ++ a.toEvents.toList := by
  unfold onEvents
  cases h : a.toEvents <;> simp [h]

theorem onIssues_concat (tr : List SessionAction) (a : SessionAction) :
    onIssues (tr ++ [a]) = onIssues tr ++ a.toIssues.toList := by
  unfold onIssues
  cases h : a.toIssues <;> simp [h]

/-- **Each stream of a session runs as a stream by itself**, and waits for `open`. -/
theorem session_streams (h : (session E I).Run tr s) :
    (E.system.Run (onEvents tr) s.events ∧ Waits s.opening (onEvents tr)) ∧
      (I.system.Run (onIssues tr) s.issues ∧ Waits s.opening (onIssues tr)) := by
  induction h using System.Run.induct with
  | start =>
      exact ⟨⟨System.Run.start, fun _ => rfl, fun _ _ => rfl⟩,
        ⟨System.Run.start, fun _ => rfl, fun _ _ => rfl⟩⟩
  | snoc tr s a s' h hs ih =>
      obtain ⟨⟨hE, hwE⟩, hI, hwI⟩ := ih
      obtain ⟨hsideE, hsideI, hresolved, hrejected⟩ := step_sides hs
      rw [onEvents_concat, onIssues_concat]
      exact ⟨⟨hE.trans hsideE.exec, hwE.step hsideE hresolved hrejected⟩,
        ⟨hI.trans hsideI.exec, hwI.step hsideI hresolved hrejected⟩⟩

/-- Before `open` settles everything accepted is queued, and before it resolves nobody is called. -/
theorem HandsOver.waits {ε π υ : Type} {p : Pipe ε π υ} {tr : List (StreamAction ε)} {t : Stream υ}
    {o : Opening} (hh : HandsOver p tr t) (hw : Waits o tr) :
    (o ≠ .resolved → o ≠ .rejected → t.queue = (accepted tr).map p.json) ∧
      (o ≠ .resolved → t.fanOut.calls = []) := by
  refine ⟨fun h h' => ?_, fun h => ?_⟩
  · rw [hh.queue, hw.2 h h', List.drop_zero]
  · cases hcalls : t.fanOut.calls with
    | nil => rfl
    | cons call calls =>
        have hnone := hh.unregistered call.1 (by rw [hw.1 h]; exact List.not_mem_nil)
        rw [hcalls] at hnone
        simp [FanOut.itemsFor] at hnone

/-- **What a session hands over**, from its constructor on. -/
structure SessionHandsOver (E : Pipe Sdk.TrueSealEvent Sdk.Public.TrueSealEvent υ)
    (I : Pipe Sdk.DeliveryIssue Sdk.Public.DeliveryIssue υ') (tr : List SessionAction)
    (s : Session υ υ') : Prop where
  events : HandsOver E (onEvents tr) s.events
  issues : HandsOver I (onIssues tr) s.issues
  /-- what is raised while `open` runs waits for it -/
  opening : s.opening ≠ .resolved → s.opening ≠ .rejected →
    s.events.queue = (accepted (onEvents tr)).map E.json ∧
      s.issues.queue = (accepted (onIssues tr)).map I.json
  /-- and an `open` that does not resolve calls nobody -/
  unresolved : s.opening ≠ .resolved → s.events.fanOut.calls = [] ∧ s.issues.fanOut.calls = []

end Runs

end Session

/-- The pipe of a stream with the sample texts and with listeners that always throw. -/
def samplePipe {ε π : Type} (wire : Wire ε π) : Pipe ε π Unit where
  wire := wire
  print := Sdk.samplePrint
  parse text := (Sdk.sampleParse text).elim (.error .undefined) .ok
  listeners _ _ _ := ⟨[], (), some .null⟩
  user := ()

/-- An event and an issue are raised inside the constructor; listener 8 comes after the first event
    was taken, and the queue refuses one event. -/
def sampleOpening : List SessionAction :=
  [.coreOpen true, .onEvent true, .event (.raise (.membersChanged [⟨"a1", "Alice"⟩]) .ok),
    .onDeliveryIssue true, .issue (.raise (.heldForUpgrade 2) .ok), .settle, .event (.add 7),
    .event .pop, .event (.add 8),
    .event (.raise (.connectionChanged .connecting) (.other "Closing")),
    .event (.raise (.connectionChanged .connecting) .ok), .event .pop, .issue .pop, .issue (.add 9),
    .event (.cancel 0)]

end TrueSealSync.System
