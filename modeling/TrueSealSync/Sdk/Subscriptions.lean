/-
  File:      TrueSealSync/Sdk/Subscriptions.lean
  Subject:   CANCELLING SUBSCRIPTIONS of a listener fan-out: which registration a cancel ends, and
             whether it is called afterwards.

  A Subscription stands for one registration, that is for one `push`; the code of `cancel` knows only
  its function. The fan-out of Sdk/FanOut is run here with its registrations numbered.

  * `Tracked` -- the fan-out, the registration behind each entry of `listeners` and behind each
    Subscription, and a log of what happens to them; `run_fanOut` says that it is the fan-out;
  * `dispatch_due` -- what a dispatch has yet to call stands behind the listener being called;
  * `Tracks` -- the invariant of that bookkeeping;
  * `cancel_ends_one` -- a cancel ends its own registration and no other one as long as no two live
    registrations use one function;
  * `cancel_is_final` -- a cancelled registration is not called again as long as it is not cancelled
    by a listener that is called before it in the same loop.
-/
import TrueSealSync.Sdk.FanOut

namespace TrueSealSync.Sdk

open TrueSealSync.Lib
open FanOut (Op)

/-! ## 1. The fan-out with numbered registrations -/

/-- What happens to the registrations of a fan-out; registration `r` is the `r`-th `push`. -/
inductive Event (ι : Type) where
  | added (r : Nat) (listener : Fn)
  | called (r : Nat) (listener : Fn) (item : ι)
  /-- the first `cancel()` of the Subscription of `r`: the registrations before and after it, and
      those that the loop in progress has yet to call -/
  | cancelled (r : Nat) (before after due : List Nat)
  deriving DecidableEq

/-- A fan-out and its registrations. -/
structure Tracked (ι υ : Type) where
  fanOut : FanOut ι υ
  /-- the entries of `listeners`: registration and function -/
  entries : List (Nat × Fn) := []
  /-- the registration of each Subscription -/
  owners : List Nat := []
  next : Nat := 0
  /-- the registrations the loop in progress has yet to call -/
  due : List Nat := []
  log : List (Event ι) := []

namespace Tracked

variable {ι υ : Type}

def push (w : Tracked ι υ) (listener : Fn) : Tracked ι υ :=
  { w with
    fanOut := w.fanOut.push listener
    entries := w.entries ++ [(w.next, listener)]
    next := w.next + 1
    log := w.log ++ [.added w.next listener] }

/-- The state in which the first `add` starts to flush the backlog. -/
def flushing (w : Tracked ι υ) (listener : Fn) : Tracked ι υ :=
  { w.push listener with fanOut := { w.fanOut.push listener with buffer := none } }

/-- `new Subscription(..)` for registration `r` of `listener`. -/
def subscribe (w : Tracked ι υ) (r : Nat) (listener : Fn) : Tracked ι υ :=
  { w with fanOut := w.fanOut.subscribe listener, owners := w.owners ++ [r] }

/-- The entries without those of the function `listener`. -/
def without (entries : List (Nat × Fn)) (listener : Fn) : List (Nat × Fn) :=
  entries.filter (·.2 != listener)

def cancel (w : Tracked ι υ) (k : Nat) : Tracked ι υ :=
  match w.fanOut.subscriptions[k]?, w.owners[k]? with
  | some (some listener), some r =>
      { w with
        fanOut := w.fanOut.cancel k
        entries := without w.entries listener
        log := w.log ++ [.cancelled r (w.entries.map Prod.fst)
          ((without w.entries listener).map Prod.fst) w.due] }
  | _, _ => w

def add (w : Tracked ι υ) (listener : Fn) : Tracked ι υ :=
  (w.push listener).subscribe w.next listener

def request (w : Tracked ι υ) : Request → Tracked ι υ
  | .add listener => w.add listener
  | .cancel k => w.cancel k

/-- Entry `e` is called; the registrations `due` are called after it. -/
def called (w : Tracked ι υ) (e : Nat × Fn) (item : ι) (due : List Nat) : Tracked ι υ :=
  { w with
    fanOut := w.fanOut.called (e.2, item)
    due := due
    log := w.log ++ [.called e.1 e.2 item] }

/-- The listener returned or threw. -/
def returned (w : Tracked ι υ) (user : υ) (thrown : Option JsVal) : Tracked ι υ :=
  { w with fanOut := { w.fanOut with user := user }.scheduled thrown }

section Operations

variable (beh : Listeners ι υ)

/-- One call of a listener inside the `try`. -/
def delivered (w : Tracked ι υ) (e : Nat × Fn) (item : ι) (due : List Nat) : Tracked ι υ :=
  let reaction := beh e.2 item (w.called e item due).fanOut
  (reaction.requests.foldl request (w.called e item due)).returned reaction.user reaction.thrown

/-- The registrations that `calls` call. -/
def dueOf (calls : List ((Nat × Fn) × ι)) : List Nat := calls.map (·.1.1)

/-- A loop over a snapshot of the listeners, or over the backlog. -/
def walk (w : Tracked ι υ) : List ((Nat × Fn) × ι) → Tracked ι υ
  | [] => { w with due := [] }
  | (e, item) :: calls => walk (delivered beh w e item (dueOf calls)) calls

/-- The operations of the code that owns the fan-out. -/
def apply (w : Tracked ι υ) : Op ι → Tracked ι υ
  | .dispatch item =>
      match w.fanOut.buffer with
      | some buffer => { w with fanOut := { w.fanOut with buffer := some (buffer ++ [item]) } }
      | none => walk beh w (w.entries.map (·, item))
  | .add listener =>
      match w.fanOut.buffer with
      | some backlog =>
          (walk beh (w.flushing listener) (backlog.map ((w.next, listener), ·))).subscribe w.next
            listener
      | none => w.add listener
  | .cancel k => w.cancel k

def run (user : υ) (ops : List (Op ι)) : Tracked ι υ :=
  ops.foldl (apply beh) { fanOut := { user := user } }

end Operations

/-! ## 2. What the log says -/

/-- The registrations added so far, with their functions. -/
def added (log : List (Event ι)) : List (Nat × Fn) :=
  log.filterMap fun
    | .added r listener => some (r, listener)
    | _ => none

/-- The calls so far: registration, function and item. -/
def calls (log : List (Event ι)) : List ((Nat × Fn) × ι) :=
  log.filterMap fun
    | .called r listener item => some ((r, listener), item)
    | _ => none

/-- The live registrations: added, and not cancelled since. -/
def live (log : List (Event ι)) : List (Nat × Fn) :=
  log.foldl (fun regs event => match event with
    | .added r listener => regs ++ [(r, listener)]
    | .called _ _ _ => regs
    | .cancelled r _ _ _ => regs.filter (·.1 != r)) []

/-- The event is the cancel of registration `r`. -/
def cancels (r : Nat) : Event ι → Bool
  | .cancelled r' _ _ _ => r' == r
  | _ => false

section Log

variable (log log' : List (Event ι))

theorem added_append : added (log ++ log') = added log ++ added log' := List.filterMap_append

theorem calls_append : calls (log ++ log') = calls log ++ calls log' := List.filterMap_append

@[simp] theorem live_added (r : Nat) (l : Fn) :
    live (log ++ [.added r l]) = live log ++ [(r, l)] := by simp [live]

@[simp] theorem live_called (r : Nat) (l : Fn) (item : ι) :
    live (log ++ [.called r l item]) = live log := by simp [live]

@[simp] theorem live_cancelled (r : Nat) (before after due : List Nat) :
    live (log ++ [.cancelled r before after due]) = (live log).filter (·.1 != r) := by simp [live]

end Log

/-- A live registration was added. -/
theorem live_sublist (log : List (Event ι)) : (live log).Sublist (added log) := by
  induction log using List.reverseRecOn with
  | nil => exact List.Sublist.refl []
  | append_singleton log event ih =>
      rw [added_append]
      cases event with
      | added r l => exact (live_added log r l).symm ▸ ih.append (List.Sublist.refl _)
      | called r l item => exact (live_called log r l item).symm ▸ ih.trans (by simp)
      | cancelled r before after due =>
          rw [live_cancelled]
          exact (List.filter_sublist.trans ih).trans (by simp)

/-! ## 3. What the loops write to the log -/

section Loops

variable {w : Tracked ι υ}

/-- What a request writes: no call, and a cancel with the registrations that are due. -/
def Silent (due : List Nat) : Event ι → Prop
  | .added _ _ => True
  | .called _ _ _ => False
  | .cancelled _ _ _ due' => due' = due

theorem cancel_log (w : Tracked ι υ) (k : Nat) :
    ∃ more, (w.cancel k).log = w.log ++ more ∧ ∀ event ∈ more, Silent w.due event := by
  unfold cancel
  split
  · refine ⟨_, rfl, fun event hm => ?_⟩
    cases List.mem_singleton.mp hm
    rfl
  · exact ⟨[], (List.append_nil _).symm, nofun⟩

theorem cancel_due (w : Tracked ι υ) (k : Nat) : (w.cancel k).due = w.due := by
  unfold cancel
  split <;> rfl

theorem requests_log (requests : List Request) (w : Tracked ι υ) :
    (requests.foldl request w).due = w.due ∧ ∃ more, (requests.foldl request w).log = w.log ++ more ∧
      ∀ event ∈ more, Silent w.due event := by
  induction requests generalizing w with
  | nil => exact ⟨rfl, [], (List.append_nil _).symm, nofun⟩
  | cons r requests ih =>
      have hone : (w.request r).due = w.due ∧ ∃ more, (w.request r).log = w.log ++ more ∧
          ∀ event ∈ more, Silent w.due event := by
        cases r with
        | add l =>
            refine ⟨rfl, _, rfl, fun event hm => ?_⟩
            cases List.mem_singleton.mp hm
            trivial
        | cancel k => exact ⟨w.cancel_due k, w.cancel_log k⟩
      obtain ⟨hdue, more, hlog, hmore⟩ := hone
      obtain ⟨hdue', more', hlog', hmore'⟩ := ih (w.request r)
      refine ⟨hdue'.trans hdue, more ++ more', ?_, fun event hm => ?_⟩
      · rw [List.foldl_cons, hlog', hlog, List.append_assoc]
      · rcases List.mem_append.mp hm with hm | hm
        · exact hmore event hm
        · exact hdue ▸ hmore' event hm

/-- Wherever something is cancelled in `more`, the rest of `more` calls what was due, and no more. -/
def Announced : List (Event ι) → Prop
  | [] => True
  | .cancelled _ _ _ due :: more => dueOf (calls more) = due ∧ Announced more
  | .added _ _ :: more => Announced more
  | .called _ _ _ :: more => Announced more

theorem calls_of_silent {due : List Nat} {more : List (Event ι)}
    (h : ∀ event ∈ more, Silent due event) : calls more = [] := by
  refine List.filterMap_eq_nil_iff.mpr fun event hm => ?_
  have hs := h event hm
  cases event with
  | added | cancelled => rfl
  | called => exact hs.elim

theorem announced_append {due : List Nat} {more more' : List (Event ι)}
    (h : ∀ event ∈ more, Silent due event) (hdue : dueOf (calls more') = due) (h' : Announced more') :
    Announced (more ++ more') := by
  induction more with
  | nil => exact h'
  | cons event more ih =>
      have hrest := ih fun event hm => h event (List.mem_cons_of_mem _ hm)
      cases event with
      | added r l => exact hrest
      | called r l item => exact (h _ List.mem_cons_self).elim
      | cancelled r before after due' =>
          have hnone := calls_of_silent fun event hm => h event (List.mem_cons_of_mem _ hm)
          have hd : due' = due := h _ List.mem_cons_self
          refine ⟨?_, hrest⟩
          show dueOf (calls (more ++ more')) = due'
          rw [calls_append, hnone, List.nil_append, hdue, hd]

variable (beh : Listeners ι υ)

theorem delivered_log (w : Tracked ι υ) (e : Nat × Fn) (item : ι) (due : List Nat) :
    ∃ more, (delivered beh w e item due).log = w.log ++ .called e.1 e.2 item :: more ∧
      ∀ event ∈ more, Silent due event := by
  obtain ⟨-, more, hlog, hmore⟩ := requests_log
    (beh e.2 item (w.called e item due).fanOut).requests (w.called e item due)
  refine ⟨more, ?_, hmore⟩
  refine Eq.trans hlog ?_
  show w.log ++ [_] ++ more = _
  rw [List.append_assoc]
  rfl

/-- **A loop makes its calls**, in order, and a cancel in it is told how many are left. -/
theorem walk_log (cs : List ((Nat × Fn) × ι)) (w : Tracked ι υ) :
    ∃ more, (walk beh w cs).log = w.log ++ more ∧ calls more = cs ∧ Announced more := by
  induction cs generalizing w with
  | nil => exact ⟨[], (List.append_nil _).symm, rfl, trivial⟩
  | cons c cs ih =>
      obtain ⟨e, item⟩ := c
      obtain ⟨more, hlog, hmore⟩ := delivered_log beh w e item (dueOf cs)
      obtain ⟨more', hlog', hcalls, hannounced⟩ := ih (delivered beh w e item (dueOf cs))
      refine ⟨.called e.1 e.2 item :: (more ++ more'), ?_, ?_, ?_⟩
      · show (walk beh (delivered beh w e item (dueOf cs)) cs).log = _
        rw [hlog', hlog, List.append_assoc]
        rfl
      · show (e, item) :: calls (more ++ more') = _
        rw [calls_append, calls_of_silent hmore, hcalls]
        rfl
      · exact announced_append hmore (by rw [hcalls]) hannounced

/-- While one entry of a loop is called, nobody else is, and what is cancelled is told the entries
    behind it. -/
theorem walk_meanwhile (front behind : List ((Nat × Fn) × ι)) (e : Nat × Fn) (item : ι)
    (w : Tracked ι υ) : ∃ before meanwhile after,
      (walk beh w (front ++ (e, item) :: behind)).log =
        w.log ++ before ++ .called e.1 e.2 item :: meanwhile ++ after ∧
      calls before = front ∧ calls after = behind ∧
      ∀ event ∈ meanwhile, Silent (dueOf behind) event := by
  induction front generalizing w with
  | nil =>
      obtain ⟨more, hlog, hmore⟩ := delivered_log beh w e item (dueOf behind)
      obtain ⟨after, hlog', hcalls, -⟩ := walk_log beh behind (delivered beh w e item (dueOf behind))
      refine ⟨[], more, after, ?_, rfl, hcalls, hmore⟩
      show (walk beh (delivered beh w e item (dueOf behind)) behind).log = _
      rw [hlog', hlog, List.append_nil]
  | cons c front ih =>
      obtain ⟨e', item'⟩ := c
      obtain ⟨more, hlog, hmore⟩ :=
        delivered_log beh w e' item' (dueOf (front ++ (e, item) :: behind))
      obtain ⟨before, meanwhile, after, hlog', hfront, hbehind, hsilent⟩ :=
        ih (delivered beh w e' item' (dueOf (front ++ (e, item) :: behind)))
      refine ⟨.called e'.1 e'.2 item' :: (more ++ before), meanwhile, after, ?_, ?_, hbehind,
        hsilent⟩
      · show (walk beh (delivered beh w e' item' (dueOf (front ++ (e, item) :: behind)))
          (front ++ (e, item) :: behind)).log = _
        rw [hlog', hlog]
        simp
      · show (e', item') :: calls (more ++ before) = _
        rw [calls_append, calls_of_silent hmore, hfront]
        rfl

/-- **What is due in a dispatch** are the registrations behind the one being called in the snapshot
    of the listeners: each entry of it is called in its turn, and whatever is cancelled while entry
    `e` is called is told just the registrations behind `e`. -/
theorem dispatch_due (w : Tracked ι υ) (item : ι) (hlive : w.fanOut.buffer = none)
    {front behind : List (Nat × Fn)} {e : Nat × Fn} (hsnapshot : w.entries = front ++ e :: behind) :
    ∃ before meanwhile after, (apply beh w (.dispatch item)).log =
        w.log ++ before ++ .called e.1 e.2 item :: meanwhile ++ after ∧
      calls before = front.map (·, item) ∧ calls after = behind.map (·, item) ∧
      ∀ event ∈ meanwhile, Silent (behind.map Prod.fst) event := by
  have hdue : dueOf (behind.map (·, item)) = behind.map Prod.fst := by simp [dueOf]
  obtain ⟨before, meanwhile, after, hlog, h⟩ :=
    walk_meanwhile beh (front.map (·, item)) (behind.map (·, item)) e item w
  rw [hdue] at h
  refine ⟨before, meanwhile, after, ?_, h⟩
  simp only [apply, hlive, hsnapshot, List.map_append, List.map_cons]
  exact hlog

theorem walk_due (cs : List ((Nat × Fn) × ι)) (w : Tracked ι υ) : (walk beh w cs).due = [] := by
  induction cs generalizing w with
  | nil => rfl
  | cons c cs ih => exact ih _

end Loops

/-! ## 4. The invariant -/

/-- What every part of an operation keeps. -/
structure Stable (P : Tracked ι υ → Prop) : Prop where
  add : ∀ w listener, P w → P (w.add listener)
  cancel : ∀ w k, P w → P (w.cancel k)
  called : ∀ w e item due, e ∈ added w.log → P w → P (w.called e item due)
  returned : ∀ w user thrown, P w → P (w.returned user thrown)
  idle : ∀ w, P w → P { w with due := [] }

namespace Stable

variable {P : Tracked ι υ → Prop} {beh : Listeners ι υ}

theorem requests (h : Stable P) (requests : List Request) {w : Tracked ι υ} (hw : P w) :
    P (requests.foldl request w) := by
  induction requests generalizing w with
  | nil => exact hw
  | cons r requests ih =>
      refine ih ?_
      cases r with
      | add l => exact h.add w l hw
      | cancel k => exact h.cancel w k hw

/-- **A loop keeps it**, where what it calls was added. -/
theorem walk (h : Stable P) {cs : List ((Nat × Fn) × ι)} {w : Tracked ι υ}
    (hcs : ∀ c ∈ cs, c.1 ∈ added w.log) (hw : P w) : P (walk beh w cs) := by
  induction cs generalizing w with
  | nil => exact h.idle w hw
  | cons c cs ih =>
      obtain ⟨e, item⟩ := c
      refine ih (fun c hm => ?_) ?_
      · obtain ⟨more, hlog, -⟩ := delivered_log beh w e item (dueOf cs)
        rw [hlog, added_append]
        exact List.mem_append_left _ (hcs c (List.mem_cons_of_mem _ hm))
      · refine h.returned _ _ _ (h.requests _ (h.called w e item _ ?_ hw))
        exact hcs (e, item) List.mem_cons_self

end Stable

/-- **The bookkeeping is right.** -/
structure Tracks (w : Tracked ι υ) : Prop where
  listeners : w.fanOut.listeners = w.entries.map Prod.snd
  calls : w.fanOut.calls = (calls w.log).map fun c => (c.1.2, c.2)
  numbered : (added w.log).map Prod.fst = List.range w.next
  entries : w.entries.Sublist (added w.log)
  owners : w.owners.length = w.fanOut.subscriptions.length
  distinct : w.owners.Nodup
  issued : ∀ r ∈ w.owners, r < w.next
  /-- a Subscription that is not cancelled belongs to a live registration of its function -/
  owned : ∀ (k : Nat) listener r, w.fanOut.subscriptions[k]? = some (some listener) →
    w.owners[k]? = some r → (r, listener) ∈ live w.log
  gone : ∀ r, w.log.any (cancels r) = true →
    r < w.next ∧ r ∉ w.entries.map Prod.fst ∧ r ∉ (live w.log).map Prod.fst

/-- Registration `r` has no Subscription yet. -/
structure Pending (r : Nat) (listener : Fn) (w : Tracked ι υ) : Prop where
  issued : r < w.next
  unowned : r ∉ w.owners
  live : (r, listener) ∈ live w.log

theorem cancelled_concat (r : Nat) (log : List (Event ι)) (event : Event ι) :
    (log ++ [event]).any (cancels r) = true ↔
      log.any (cancels r) = true ∨ cancels r event = true := by
  rw [List.any_append, Bool.or_eq_true, List.any_cons, List.any_nil, Bool.or_false]

section Steps

variable {w : Tracked ι υ}

theorem Tracks.nodup (h : Tracks w) : ((added w.log).map Prod.fst).Nodup :=
  h.numbered ▸ List.nodup_range

/-- The number of a registration tells its function. -/
theorem Tracks.functional (h : Tracks w) {r : Nat} {l l' : Fn} (hl : (r, l) ∈ added w.log)
    (hl' : (r, l') ∈ added w.log) : l = l' :=
  congrArg Prod.snd (List.inj_on_of_nodup_map h.nodup hl hl' rfl)

theorem Tracks.lt_next (h : Tracks w) {e : Nat × Fn} (he : e ∈ added w.log) : e.1 < w.next := by
  rw [← List.mem_range, ← h.numbered]
  exact List.mem_map_of_mem he

theorem Tracks.push (h : Tracks w) (l : Fn) : Tracks (w.push l) where
  listeners := by
    show w.fanOut.listeners ++ [l] = (w.entries ++ [(w.next, l)]).map Prod.snd
    rw [List.map_append, h.listeners]
    rfl
  calls := by
    show w.fanOut.calls = (Tracked.calls (w.log ++ [.added w.next l])).map _
    rw [calls_append, h.calls]
    simp [Tracked.calls]
  numbered := by
    show (added (w.log ++ [.added w.next l])).map Prod.fst = List.range (w.next + 1)
    rw [added_append, List.map_append, h.numbered, List.range_succ]
    rfl
  entries := by
    show (w.entries ++ [(w.next, l)]).Sublist (added (w.log ++ [.added w.next l]))
    rw [added_append]
    exact h.entries.append (List.Sublist.refl _)
  owners := h.owners
  distinct := h.distinct
  issued r hr := Nat.lt_succ_of_lt (h.issued r hr)
  owned k f r hk hr := by
    show (r, f) ∈ live (w.log ++ [.added w.next l])
    rw [live_added]
    exact List.mem_append_left _ (h.owned k f r hk hr)
  gone r hr := by
    have hr' : w.log.any (cancels r) = true :=
      (cancelled_concat r w.log (.added w.next l)).mp hr |>.resolve_right nofun
    obtain ⟨hlt, hentries, hlive⟩ := h.gone r hr'
    have hne : r ≠ w.next := Nat.ne_of_lt hlt
    refine ⟨Nat.lt_succ_of_lt hlt, ?_, ?_⟩
    · show r ∉ (w.entries ++ [(w.next, l)]).map Prod.fst
      rw [List.map_append, List.mem_append]
      rintro (hm | hm)
      · exact hentries hm
      · exact hne (List.mem_singleton.mp hm)
    · show r ∉ (live (w.log ++ [.added w.next l])).map Prod.fst
      rw [live_added, List.map_append, List.mem_append]
      rintro (hm | hm)
      · exact hlive hm
      · exact hne (List.mem_singleton.mp hm)

theorem pending_push (h : Tracks w) (l : Fn) : Pending w.next l (w.push l) where
  issued := Nat.lt_succ_self _
  unowned hm := Nat.lt_irrefl _ (h.issued _ hm)
  live := by
    show (w.next, l) ∈ live (w.log ++ [.added w.next l])
    rw [live_added]
    simp

theorem Tracks.subscribe (h : Tracks w) {r : Nat} {l : Fn} (hp : Pending r l w) :
    Tracks (w.subscribe r l) where
  listeners := h.listeners
  calls := h.calls
  numbered := h.numbered
  entries := h.entries
  owners := by
    show (w.owners ++ [r]).length = (w.fanOut.subscriptions ++ [some l]).length
    rw [List.length_append, List.length_append, h.owners]
    rfl
  distinct := List.nodup_append.mpr ⟨h.distinct, List.nodup_singleton r, fun a ha b hb => by
    rintro rfl
    exact hp.unowned (List.mem_singleton.mp hb ▸ ha)⟩
  issued a ha := by
    rcases List.mem_append.mp ha with ha | ha
    · exact h.issued a ha
    · exact List.mem_singleton.mp ha ▸ hp.issued
  owned k f a hk ha := by
    have hk' : (w.fanOut.subscriptions ++ [some l])[k]? = some (some f) := hk
    have ha' : (w.owners ++ [r])[k]? = some a := ha
    show (a, f) ∈ live w.log
    by_cases hlt : k < w.owners.length
    · rw [List.getElem?_append_left (h.owners ▸ hlt)] at hk'
      rw [List.getElem?_append_left hlt] at ha'
      exact h.owned k f a hk' ha'
    · rw [List.getElem?_append_right (by have := h.owners; omega)] at hk'
      rw [List.getElem?_append_right (by omega)] at ha'
      obtain ⟨hlt', hr⟩ := List.getElem?_eq_some_iff.mp ha'
      obtain ⟨hlt'', hl⟩ := List.getElem?_eq_some_iff.mp hk'
      rw [List.getElem_singleton] at hr hl
      exact Option.some.inj hl ▸ hr ▸ hp.live
  gone := h.gone

/-- Nothing but the fields a loop uses changes. -/
theorem Tracks.called (h : Tracks w) {e : Nat × Fn} (item : ι) (due : List Nat) :
    Tracks (w.called e item due) where
  listeners := h.listeners
  calls := by
    show w.fanOut.calls ++ [(e.2, item)] = (Tracked.calls (w.log ++ [_])).map _
    rw [calls_append, List.map_append, h.calls]
    rfl
  numbered := by
    show (added (w.log ++ [_])).map Prod.fst = List.range w.next
    rw [added_append, ← h.numbered]
    exact congrArg _ (List.append_nil _)
  entries := by
    show w.entries.Sublist (added (w.log ++ [_]))
    rw [added_append]
    exact h.entries.trans (List.sublist_append_left _ _)
  owners := h.owners
  distinct := h.distinct
  issued := h.issued
  owned k f r hk hr := by
    show (r, f) ∈ live (w.log ++ [_])
    rw [live_called]
    exact h.owned k f r hk hr
  gone r hr := by
    have hr' := ((cancelled_concat r _ _).mp hr).resolve_right nofun
    refine ⟨(h.gone r hr').1, (h.gone r hr').2.1, ?_⟩
    show r ∉ (live (w.log ++ [_])).map Prod.fst
    rw [live_called]
    exact (h.gone r hr').2.2

theorem Tracks.returned (h : Tracks w) (user : υ) (thrown : Option JsVal) :
    Tracks (w.returned user thrown) := by
  cases thrown with
  | none => exact ⟨h.listeners, h.calls, h.numbered, h.entries, h.owners, h.distinct, h.issued,
      h.owned, h.gone⟩
  | some err => exact ⟨h.listeners, h.calls, h.numbered, h.entries, h.owners, h.distinct, h.issued,
      h.owned, h.gone⟩

/-- What an effective cancel of Subscription `k` does. -/
theorem cancel_of_owned {k : Nat} {l : Fn} {r : Nat} (hk : w.fanOut.subscriptions[k]? = some (some l))
    (hr : w.owners[k]? = some r) : w.cancel k =
      { w with
        fanOut := { w.fanOut with
          subscriptions := w.fanOut.subscriptions.set k none
          listeners := w.fanOut.listeners.filter (· != l) }
        entries := without w.entries l
        log := w.log ++ [.cancelled r (w.entries.map Prod.fst)
          ((without w.entries l).map Prod.fst) w.due] } := by
  unfold cancel
  rw [hk, hr]
  simp only [FanOut.cancel, hk]

/-- A cancel either does nothing, or it is the first one of its Subscription. -/
theorem Tracks.cancel_cases (h : Tracks w) (k : Nat) :
    (w.cancel k = w ∧ w.fanOut.cancel k = w.fanOut) ∨
      ∃ l r, w.fanOut.subscriptions[k]? = some (some l) ∧ w.owners[k]? = some r ∧
        (r, l) ∈ live w.log := by
  rcases hk : w.fanOut.subscriptions[k]? with _ | _ | l
  · exact Or.inl ⟨by unfold Tracked.cancel; rw [hk], by unfold FanOut.cancel; rw [hk]⟩
  · exact Or.inl ⟨by unfold Tracked.cancel; rw [hk], by unfold FanOut.cancel; rw [hk]⟩
  · obtain ⟨hlt, -⟩ := List.getElem?_eq_some_iff.mp hk
    have hr : w.owners[k]? = some (w.owners.get ⟨k, h.owners ▸ hlt⟩) := List.getElem?_eq_getElem _
    exact Or.inr ⟨l, _, rfl, hr, h.owned k l _ hk hr⟩

theorem Tracks.cancel (h : Tracks w) (k : Nat) : Tracks (w.cancel k) := by
  rcases h.cancel_cases k with ⟨he, -⟩ | ⟨l, r, hk, hr, hlive⟩
  · exact he.symm ▸ h
  rw [cancel_of_owned hk hr]
  have hadd : (r, l) ∈ added w.log := (live_sublist _).subset hlive
  have hgone : ∀ r', cancels r' (.cancelled (ι := ι) r (w.entries.map Prod.fst)
      ((without w.entries l).map Prod.fst) w.due) = true → r' = r := fun r' hc =>
    (beq_iff_eq.mp hc).symm
  refine ⟨?_, ?_, ?_, ?_, ?_, h.distinct, h.issued, ?_, ?_⟩
  · show w.fanOut.listeners.filter (· != l) = (w.entries.filter (·.2 != l)).map Prod.snd
    rw [h.listeners, List.filter_map]
    rfl
  · rw [calls_append, h.calls]
    simp [Tracked.calls]
  · rw [added_append, ← h.numbered]
    exact congrArg _ (List.append_nil _)
  · rw [added_append]
    exact (List.filter_sublist.trans h.entries).trans (List.sublist_append_left _ _)
  · exact h.owners.trans (List.length_set ..).symm
  · intro k' f r' hk' hr'
    have hk' : (w.fanOut.subscriptions.set k none)[k']? = some (some f) := hk'
    rw [List.getElem?_set] at hk'
    split at hk'
    · split at hk' <;> cases hk'
    · rename_i hne
      rw [live_cancelled]
      refine List.mem_filter.mpr ⟨h.owned k' f r' hk' hr', ?_⟩
      -- two Subscriptions, two registrations
      obtain ⟨hlt, -⟩ := List.getElem?_eq_some_iff.mp hr
      have hrr : r' ≠ r := by
        rintro rfl
        exact hne ((List.getElem?_inj hlt h.distinct).mp (hr.trans hr'.symm))
      simpa using hrr
  · intro r' hr'
    rw [live_cancelled]
    rcases (cancelled_concat r' _ _).mp hr' with hr' | hr'
    · obtain ⟨hlt, hentries, hl⟩ := h.gone r' hr'
      exact ⟨hlt, fun hm => hentries ((List.filter_sublist.map _).subset hm),
        fun hm => hl ((List.filter_sublist.map _).subset hm)⟩
    · obtain rfl := hgone r' hr'
      refine ⟨h.lt_next hadd, fun hm => ?_, fun hm => ?_⟩
      · obtain ⟨e, he, rfl⟩ := List.mem_map.mp hm
        obtain ⟨he, hne⟩ := List.mem_filter.mp he
        exact absurd (h.functional (h.entries.subset he) hadd) (by simpa using hne)
      · obtain ⟨e, he, rfl⟩ := List.mem_map.mp hm
        simp at he

theorem tracks_stable : Stable (Tracks (ι := ι) (υ := υ)) where
  add _ l h := (h.push l).subscribe (pending_push h l)
  cancel _ k h := h.cancel k
  called _ _ item due _ h := h.called item due
  returned _ user thrown h := h.returned user thrown
  idle _ h := ⟨h.listeners, h.calls, h.numbered, h.entries, h.owners, h.distinct, h.issued, h.owned,
    h.gone⟩

/-- Until a registration gets its Subscription nobody can cancel it. -/
theorem pending_stable (r : Nat) (l : Fn) :
    Stable fun w : Tracked ι υ => Tracks w ∧ Pending r l w where
  add w m h := by
    obtain ⟨ht, hp⟩ := h
    refine ⟨tracks_stable.add w m ht, Nat.lt_succ_of_lt hp.issued, ?_, ?_⟩
    · show r ∉ w.owners ++ [w.next]
      rw [List.mem_append, List.mem_singleton]
      rintro (hm | rfl)
      · exact hp.unowned hm
      · exact Nat.lt_irrefl _ hp.issued
    · show (r, l) ∈ live (w.log ++ [.added w.next m])
      rw [live_added]
      exact List.mem_append_left _ hp.live
  cancel w k h := by
    obtain ⟨ht, hp⟩ := h
    refine ⟨ht.cancel k, ?_⟩
    rcases ht.cancel_cases k with ⟨he, -⟩ | ⟨m, a, hk, ha, -⟩
    · exact he.symm ▸ hp
    · rw [cancel_of_owned hk ha]
      refine ⟨hp.issued, hp.unowned, ?_⟩
      rw [live_cancelled]
      refine List.mem_filter.mpr ⟨hp.live, ?_⟩
      have hne : r ≠ a := by
        rintro rfl
        exact hp.unowned (List.mem_of_getElem? ha)
      simpa using hne
  called w e item due he h := by
    refine ⟨h.1.called item due, h.2.issued, h.2.unowned, ?_⟩
    show (r, l) ∈ live (w.log ++ [_])
    rw [live_called]
    exact h.2.live
  returned w user thrown h := by
    refine ⟨h.1.returned user thrown, ?_⟩
    cases thrown with
    | none => exact ⟨h.2.issued, h.2.unowned, h.2.live⟩
    | some err => exact ⟨h.2.issued, h.2.unowned, h.2.live⟩
  idle w h := ⟨tracks_stable.idle w h.1, h.2.issued, h.2.unowned, h.2.live⟩

theorem Tracks.mode (h : Tracks w) (buffer : Option (List ι)) :
    Tracks { w with fanOut := { w.fanOut with buffer := buffer } } :=
  ⟨h.listeners, h.calls, h.numbered, h.entries, h.owners, h.distinct, h.issued, h.owned, h.gone⟩

end Steps

/-! ## 5. Runs -/

section Runs

variable {beh : Listeners ι υ} {w : Tracked ι υ}

theorem flushing_mem (w : Tracked ι υ) (l : Fn) (backlog : List ι) :
    ∀ c ∈ backlog.map ((w.next, l), ·), c.1 ∈ added (w.flushing l).log := by
  intro c hm
  obtain ⟨item, -, rfl⟩ := List.mem_map.mp hm
  show (w.next, l) ∈ added (w.log ++ [.added w.next l])
  rw [added_append]
  exact List.mem_append_right _ List.mem_cons_self

theorem flushed_tracks (beh : Listeners ι υ) (h : Tracks w) (l : Fn) (backlog : List ι) :
    Tracks (walk beh (w.flushing l) (backlog.map ((w.next, l), ·))) ∧
      Pending w.next l (walk beh (w.flushing l) (backlog.map ((w.next, l), ·))) := by
  refine (pending_stable w.next l).walk (flushing_mem w l backlog) ⟨?_, ?_⟩
  · exact (h.push l).mode none
  · exact ⟨(pending_push h l).issued, (pending_push h l).unowned, (pending_push h l).live⟩

theorem Tracks.snapshot (h : Tracks w) (item : ι) :
    ∀ c ∈ w.entries.map (·, item), c.1 ∈ added w.log := by
  intro c hm
  obtain ⟨e, he, rfl⟩ := List.mem_map.mp hm
  exact h.entries.subset he

/-- What the operations do outside their loops. -/
structure Kept (P : Tracked ι υ → Prop) : Prop extends Stable P where
  tracks : ∀ w, P w → Tracks w
  flushing : ∀ w listener, P w → P (w.flushing listener)
  subscribe : ∀ w r listener, Pending r listener w → P w → P (w.subscribe r listener)
  buffered : ∀ w buffer, P w → P { w with fanOut := { w.fanOut with buffer := some buffer } }

/-- **Every operation keeps it.** -/
theorem Kept.apply {P : Tracked ι υ → Prop} (h : Kept P) (op : Op ι) (hw : P w) :
    P (apply beh w op) := by
  have ht := h.tracks w hw
  cases op with
  | dispatch item =>
      unfold Tracked.apply
      cases w.fanOut.buffer with
      | some buffer => exact h.buffered w _ hw
      | none => exact h.walk (ht.snapshot item) hw
  | add l =>
      unfold Tracked.apply
      cases w.fanOut.buffer with
      | some backlog =>
          obtain ⟨-, hp⟩ := flushed_tracks beh ht l backlog
          exact h.subscribe _ _ _ hp (h.walk (flushing_mem w l backlog) (h.flushing w l hw))
      | none => exact h.add w l hw
  | cancel k => exact h.cancel w k hw

theorem run_append (user : υ) (ops ops' : List (Op ι)) :
    run beh user (ops ++ ops') = ops'.foldl (apply beh) (run beh user ops) := List.foldl_append

/-- Later operations keep it. -/
theorem Kept.foldl {P : Tracked ι υ → Prop} (h : Kept P) (beh : Listeners ι υ) (ops : List (Op ι)) (hw : P w) :
    P (ops.foldl (Tracked.apply beh) w) := by
  induction ops generalizing w with
  | nil => exact hw
  | cons op ops ih => exact ih (h.apply op hw)

theorem tracks_kept : Kept (Tracks (ι := ι) (υ := υ)) where
  toStable := tracks_stable
  tracks _ h := h
  flushing _ l h := (h.push l).mode none
  subscribe _ _ _ hp h := h.subscribe hp
  buffered _ _ h := h.mode _

theorem tracks_start (user : υ) : Tracks (ι := ι) { fanOut := { user := user } } :=
  ⟨rfl, rfl, rfl, List.Sublist.refl [], rfl, List.nodup_nil, nofun, nofun, nofun⟩

theorem tracks_run (beh : Listeners ι υ) (user : υ) (ops : List (Op ι)) :
    Tracks (run beh user ops) := tracks_kept.foldl beh ops (tracks_start user)

/-! The fan-out inside runs as the one of Sdk/FanOut does. -/

theorem requests_fanOut (requests : List Request) (h : Tracks w) :
    (requests.foldl request w).fanOut = requests.foldl FanOut.request w.fanOut := by
  induction requests generalizing w with
  | nil => rfl
  | cons r requests ih =>
      cases r with
      | add l => exact ih (tracks_stable.add w l h)
      | cancel k =>
          refine (ih (h.cancel k)).trans ?_
          have hone : (w.cancel k).fanOut = w.fanOut.cancel k := by
            rcases h.cancel_cases k with ⟨he, hf⟩ | ⟨l, r, hk, hr, -⟩
            · rw [he, hf]
            · unfold Tracked.cancel
              rw [hk, hr]
          rw [hone]
          rfl

theorem delivered_fanOut (h : Tracks w) (e : Nat × Fn) (item : ι) (due : List Nat) :
    (delivered beh w e item due).fanOut = FanOut.delivered beh w.fanOut (e.2, item) := by
  have hrequests := requests_fanOut (beh e.2 item (w.called e item due).fanOut).requests
    (h.called (e := e) item due)
  unfold delivered returned
  simp only [hrequests]
  rfl

theorem walk_fanOut (beh : Listeners ι υ) {cs : List ((Nat × Fn) × ι)} (h : Tracks w)
    (hcs : ∀ c ∈ cs, c.1 ∈ added w.log) :
    (walk beh w cs).fanOut = FanOut.deliverAll beh w.fanOut (cs.map fun c => (c.1.2, c.2)) := by
  induction cs generalizing w with
  | nil => rfl
  | cons c cs ih =>
      obtain ⟨e, item⟩ := c
      have hstep : Tracks (delivered beh w e item (dueOf cs)) :=
        (tracks_stable.requests _ (h.called item _)).returned _ _
      have hmem : ∀ c ∈ cs, c.1 ∈ added (delivered beh w e item (dueOf cs)).log := fun c hm => by
        obtain ⟨more, hlog, -⟩ := delivered_log beh w e item (dueOf cs)
        rw [hlog, added_append]
        exact List.mem_append_left _ (hcs c (List.mem_cons_of_mem _ hm))
      show (walk beh (delivered beh w e item (dueOf cs)) cs).fanOut = _
      rw [ih hstep hmem, delivered_fanOut h]
      rfl

/-- **The fan-out with numbered registrations is the fan-out.** -/
theorem run_fanOut (beh : Listeners ι υ) (user : υ) (ops : List (Op ι)) :
    (run beh user ops).fanOut = FanOut.run beh user ops := by
  induction ops using List.reverseRecOn with
  | nil => rfl
  | append_singleton ops op ih =>
      have h := tracks_run beh user ops
      rw [run_append, FanOut.run_append, ← ih]
      generalize run beh user ops = w at h
      show (apply beh w op).fanOut = FanOut.apply beh w.fanOut op
      cases op with
      | dispatch item =>
          rw [FanOut.apply_dispatch]
          unfold Tracked.apply
          cases hb : w.fanOut.buffer with
          | some buffer => rfl
          | none =>
              simp only [walk_fanOut beh h (h.snapshot item), h.listeners, List.map_map]
              rfl
      | add l =>
          rw [FanOut.apply_add]
          unfold Tracked.apply
          cases hb : w.fanOut.buffer with
          | some backlog =>
              have hwalk := walk_fanOut beh ((h.push l).mode none) (flushing_mem w l backlog)
              rw [List.map_map] at hwalk
              exact congrArg (FanOut.subscribe · l) hwalk
          | none => rfl
      | cancel k => exact requests_fanOut [.cancel k] h

/-- What one operation writes to the log: calls of entries or of the registration it adds. -/
theorem apply_log (beh : Listeners ι υ) (hdue : w.due = []) (op : Op ι) : (apply beh w op).due = [] ∧
    ∃ more, (apply beh w op).log = w.log ++ more ∧ Announced more ∧
      ∀ c ∈ calls more, c.1 ∈ w.entries ∨ c.1.1 = w.next := by
  cases op with
  | dispatch item =>
      unfold apply
      cases w.fanOut.buffer with
      | some buffer => exact ⟨hdue, [], (List.append_nil _).symm, trivial, nofun⟩
      | none =>
          obtain ⟨more, hlog, hcalls, hannounced⟩ := walk_log beh (w.entries.map (·, item)) w
          refine ⟨walk_due beh _ w, more, hlog, hannounced, fun c hc => Or.inl ?_⟩
          rw [hcalls] at hc
          obtain ⟨e, he, rfl⟩ := List.mem_map.mp hc
          exact he
  | add l =>
      unfold apply
      cases w.fanOut.buffer with
      | some backlog =>
          obtain ⟨more, hlog, hcalls, hannounced⟩ :=
            walk_log beh (backlog.map ((w.next, l), ·)) (w.flushing l)
          refine ⟨walk_due beh _ (w.flushing l), .added w.next l :: more, ?_, hannounced,
            fun c hc => Or.inr ?_⟩
          · refine hlog.trans ?_
            show w.log ++ [_] ++ more = _
            rw [List.append_assoc]
            rfl
          · have hc' : c ∈ calls more := hc
            rw [hcalls] at hc'
            obtain ⟨item, -, rfl⟩ := List.mem_map.mp hc'
            rfl
      | none => exact ⟨hdue, [.added w.next l], rfl, trivial, nofun⟩
  | cancel k =>
      obtain ⟨more, hlog, hmore⟩ := w.cancel_log k
      refine ⟨(w.cancel_due k).trans hdue, more, hlog, ?_, fun c hc => ?_⟩
      · rw [← List.append_nil more]
        exact announced_append hmore hdue.symm trivial
      · rw [calls_of_silent hmore] at hc
        cases hc

theorem run_due (beh : Listeners ι υ) (user : υ) (ops : List (Op ι)) :
    (run beh user ops).due = [] := by
  induction ops using List.reverseRecOn with
  | nil => rfl
  | append_singleton ops op ih =>
      rw [run_append]
      exact (apply_log beh ih op).1

/-- The log only grows. -/
theorem run_log_prefix (beh : Listeners ι υ) (user : υ) (ops ops' : List (Op ι)) :
    (run beh user ops).log <+: (run beh user (ops ++ ops')).log := by
  induction ops' using List.reverseRecOn with
  | nil =>
      rw [List.append_nil]
  | append_singleton ops' op ih =>
      obtain ⟨-, more, hlog, -⟩ := apply_log beh (run_due beh user (ops ++ ops')) op
      rw [← List.append_assoc, run_append]
      refine ih.trans ?_
      show _ <+: (apply beh (run beh user (ops ++ ops')) op).log
      rw [hlog]
      exact List.prefix_append _ _

end Runs

/-! ## 6. A cancel ends one registration -/

/-- The cancel removes its registration, and no other one. -/
def RemovesOne : Event ι → Prop
  | .cancelled r before after _ => r ∈ before ∧ after = before.filter (· != r)
  | _ => True

/-- Every cancel so far came when no other live registration used the function of its own. -/
def SoleCancels (log : List (Event ι)) : Prop :=
  ∀ pre r before after due post, log = pre ++ .cancelled r before after due :: post →
    ∀ r' listener, (r, listener) ∈ live pre → (r', listener) ∈ live pre → r' = r

theorem soleCancels_concat (log : List (Event ι)) (event : Event ι) :
    SoleCancels (log ++ [event]) ↔ SoleCancels log ∧
      ∀ r before after due, event = .cancelled r before after due →
        ∀ r' listener, (r, listener) ∈ live log → (r', listener) ∈ live log → r' = r := by
  constructor
  · intro h
    refine ⟨fun pre r before after due post he => ?_, fun r before after due he => ?_⟩
    · exact h pre r before after due (post ++ [event]) (by rw [he]; simp)
    · exact h log r before after due [] (by rw [he])
  · rintro ⟨h, hlast⟩ pre r before after due post he
    rcases List.eq_nil_or_concat post with rfl | ⟨post, last, rfl⟩
    · obtain ⟨rfl, hev⟩ := List.append_inj' he rfl
      exact hlast r before after due (List.cons.inj hev).1
    · have he' : log ++ [event] = (pre ++ .cancelled r before after due :: post) ++ [last] := by
        rw [he]
        simp
      exact h pre r before after due post (List.append_inj' he' rfl).1

theorem SoleCancels.of_prefix {log log' : List (Event ι)} (h : SoleCancels log') (hp : log <+: log') :
    SoleCancels log := by
  obtain ⟨more, rfl⟩ := hp
  intro pre r before after due post he
  exact h pre r before after due (post ++ more) (by rw [he]; simp)

/-- **The entries are the live registrations** as long as each cancel removes its own one, and it does
    exactly as long as it is the only live one of its function. -/
structure Single (entries : List (Nat × Fn)) (log : List (Event ι)) : Prop where
  sole : SoleCancels log ↔ ∀ event ∈ log, RemovesOne event
  entries : SoleCancels log → entries = live log
  once : ∀ r, log.countP (cancels r) ≤ 1

/-- Where `r` is the only registration of `l`, dropping `l` drops `r`. -/
theorem without_of_sole {entries : List (Nat × Fn)} (hd : (entries.map Prod.fst).Nodup) {r : Nat}
    {l : Fn} (hm : (r, l) ∈ entries) (h : ∀ r', (r', l) ∈ entries → r' = r) :
    without entries l = entries.filter (·.1 != r) := by
  refine List.filter_congr fun e he => ?_
  by_cases hr : e.1 = r
  · obtain rfl := List.inj_on_of_nodup_map hd he hm hr
    simp
  · have hl : e.2 ≠ l := fun hl => hr (h e.1 (hl ▸ he))
    rw [bne_iff_ne.mpr hl, bne_iff_ne.mpr hr]

/-- And only there. -/
theorem without_iff {entries : List (Nat × Fn)} (hd : (entries.map Prod.fst).Nodup) {r : Nat} {l : Fn}
    (hm : (r, l) ∈ entries) :
    (without entries l).map Prod.fst = (entries.map Prod.fst).filter (· != r) ↔
      ∀ r', (r', l) ∈ entries → r' = r := by
  constructor
  · intro h r' hr'
    by_contra hne
    have hin : r' ∈ (entries.map Prod.fst).filter (· != r) :=
      List.mem_filter.mpr ⟨List.mem_map_of_mem hr', by simpa using hne⟩
    rw [← h] at hin
    obtain ⟨e, he, hfst⟩ := List.mem_map.mp hin
    obtain ⟨he, hl⟩ := List.mem_filter.mp he
    obtain rfl := List.inj_on_of_nodup_map hd he hr' hfst
    simp at hl
  · intro h
    rw [without_of_sole hd hm h, List.filter_map]
    rfl

theorem single_push {entries : List (Nat × Fn)} {log : List (Event ι)} (h : Single entries log)
    (r : Nat) (l : Fn) : Single (entries ++ [(r, l)]) (log ++ [.added r l]) where
  sole := by
    rw [soleCancels_concat, h.sole, List.forall_mem_append, List.forall_mem_singleton]
    exact ⟨fun hs => ⟨hs.1, trivial⟩, fun hs => ⟨hs.1, nofun⟩⟩
  entries hs := by
    rw [live_added, h.entries ((soleCancels_concat _ _).mp hs).1]
  once a := by
    rw [List.countP_append]
    exact h.once a

theorem single_called {entries : List (Nat × Fn)} {log : List (Event ι)} (h : Single entries log)
    (r : Nat) (l : Fn) (item : ι) : Single entries (log ++ [.called r l item]) where
  sole := by
    rw [soleCancels_concat, h.sole, List.forall_mem_append, List.forall_mem_singleton]
    exact ⟨fun hs => ⟨hs.1, trivial⟩, fun hs => ⟨hs.1, nofun⟩⟩
  entries hs := by
    rw [live_called, h.entries ((soleCancels_concat _ _).mp hs).1]
  once a := by
    rw [List.countP_append]
    exact h.once a

section Cancel

variable {w : Tracked ι υ}

theorem Tracks.live_nodup (h : Tracks w) : ((live w.log).map Prod.fst).Nodup :=
  List.Sublist.nodup ((live_sublist w.log).map _) h.nodup

/-- **A cancel removes its registration and no other exactly where it is the only live one of its
    function.** -/
theorem single_cancel (ht : Tracks w) (h : Single w.entries w.log) {r : Nat} {l : Fn}
    (hlive : (r, l) ∈ live w.log) (due : List Nat) :
    Single (without w.entries l) (w.log ++ [.cancelled r (w.entries.map Prod.fst)
      ((without w.entries l).map Prod.fst) due]) := by
  have honly : (∀ r' before after due', .cancelled r' before after due' =
        Event.cancelled (ι := ι) r (w.entries.map Prod.fst) ((without w.entries l).map Prod.fst) due →
        ∀ r'' l', (r', l') ∈ live w.log → (r'', l') ∈ live w.log → r'' = r') ↔
      ∀ r', (r', l) ∈ live w.log → r' = r := by
    constructor
    · exact fun hs r' hr' => hs r _ _ _ rfl r' l hlive hr'
    · rintro hs r' before after due' he r'' l' hl' hl''
      cases he
      obtain rfl := ht.functional ((live_sublist _).subset hl') ((live_sublist _).subset hlive)
      exact hs r'' hl''
  constructor
  · rw [soleCancels_concat, List.forall_mem_append, List.forall_mem_singleton, h.sole]
    refine and_congr_right fun hs => ?_
    have he := h.entries (h.sole.mpr hs)
    refine Iff.trans ⟨fun hh => honly.mp fun r' b a d e => hh r' b a d e.symm,
      fun hh r' b a d e => honly.mpr hh r' b a d e.symm⟩ ?_
    show _ ↔ r ∈ w.entries.map Prod.fst ∧ (without w.entries l).map Prod.fst = _
    rw [he, without_iff ht.live_nodup hlive]
    exact (and_iff_right (List.mem_map_of_mem hlive)).symm
  · intro hs
    obtain ⟨hs, hlast⟩ := (soleCancels_concat _ _).mp hs
    rw [live_cancelled, h.entries hs]
    exact without_of_sole ht.live_nodup hlive fun r' hr' => hlast r _ _ _ rfl r' l hlive hr'
  · intro a
    rw [List.countP_append, List.countP_singleton]
    by_cases ha : r = a
    · -- `r` was live: it was not cancelled before
      have hnone : w.log.countP (cancels a) = 0 := by
        refine List.countP_eq_zero.mpr fun event hm hc => ?_
        have hgone := (ht.gone a (List.any_eq_true.mpr ⟨event, hm, hc⟩)).2.2
        exact hgone (ha ▸ List.mem_map_of_mem hlive)
      rw [hnone]
      split <;> omega
    · have hne : cancels a (.cancelled (ι := ι) r (w.entries.map Prod.fst)
          ((without w.entries l).map Prod.fst) due) = false := by simpa [cancels] using ha
      rw [hne]
      exact h.once a

theorem single_stable :
    Stable fun w : Tracked ι υ => Tracks w ∧ Single w.entries w.log where
  add w l h := ⟨tracks_stable.add w l h.1, single_push h.2 w.next l⟩
  cancel w k h := by
    refine ⟨h.1.cancel k, ?_⟩
    rcases h.1.cancel_cases k with ⟨he, -⟩ | ⟨l, r, hk, hr, hlive⟩
    · exact he.symm ▸ h.2
    · rw [cancel_of_owned hk hr]
      exact single_cancel h.1 h.2 hlive w.due
  called w e item due _ h := ⟨h.1.called item due, single_called h.2 e.1 e.2 item⟩
  returned w user thrown h := by
    refine ⟨h.1.returned user thrown, ?_⟩
    cases thrown with
    | none => exact h.2
    | some err => exact h.2
  idle w h := ⟨tracks_stable.idle w h.1, h.2⟩

theorem single_kept : Kept fun w : Tracked ι υ => Tracks w ∧ Single w.entries w.log where
  toStable := single_stable
  tracks _ h := h.1
  flushing w l h := ⟨tracks_kept.flushing w l h.1, single_push h.2 w.next l⟩
  subscribe _ _ _ hp h := ⟨h.1.subscribe hp, h.2⟩
  buffered _ _ h := ⟨h.1.mode _, h.2⟩

theorem single_run (beh : Listeners ι υ) (user : υ) (ops : List (Op ι)) :
    Single (run beh user ops).entries (run beh user ops).log := by
  have hstart : SoleCancels (ι := ι) [] := by
    intro pre r before after due post he
    simp at he
  exact (single_kept.foldl beh ops
    ⟨tracks_start user, ⟨fun _ => nofun, fun _ => hstart⟩, fun _ => rfl, fun _ => Nat.zero_le 1⟩).2

theorem getElem?_append_of_some {α : Type} {l l' : List α} {k : Nat} {a : α} (h : l[k]? = some a) :
    (l ++ l')[k]? = some a := by
  obtain ⟨hlt, -⟩ := List.getElem?_eq_some_iff.mp h
  rw [List.getElem?_append_left hlt, h]

theorem Tracks.cancel_none (h : Tracks w) {k : Nat} (hk : k < w.fanOut.subscriptions.length) :
    (w.cancel k).fanOut.subscriptions[k]? = some none := by
  rcases hs : w.fanOut.subscriptions[k]? with _ | _ | l
  · exact absurd hk (Nat.not_lt.mpr (List.getElem?_eq_none_iff.mp hs))
  · unfold Tracked.cancel
    rw [hs]
    exact hs
  · have hr : w.owners[k]? = some (w.owners.get ⟨k, h.owners ▸ hk⟩) := List.getElem?_eq_getElem _
    rw [cancel_of_owned hs hr]
    exact List.getElem?_set_self hk

/-- A cancelled Subscription stays so, and its `cancel()` does nothing. -/
theorem cancelled_kept (k : Nat) :
    Kept fun w : Tracked ι υ => Tracks w ∧ w.fanOut.subscriptions[k]? = some none where
  add w l h := ⟨tracks_stable.add w l h.1, getElem?_append_of_some h.2⟩
  cancel w j h := by
    refine ⟨h.1.cancel j, ?_⟩
    rcases h.1.cancel_cases j with ⟨he, -⟩ | ⟨l, r, hk, hr, -⟩
    · exact he.symm ▸ h.2
    · obtain ⟨hlt, -⟩ := List.getElem?_eq_some_iff.mp h.2
      rw [cancel_of_owned hk hr]
      show (w.fanOut.subscriptions.set j none)[k]? = some none
      rw [List.getElem?_set, h.2]
      split
      · simp_all
      · rfl
  called w e item due _ h := ⟨h.1.called item due, h.2⟩
  returned w user thrown h := by
    refine ⟨h.1.returned user thrown, ?_⟩
    cases thrown with
    | none => exact h.2
    | some err => exact h.2
  idle w h := ⟨tracks_stable.idle w h.1, h.2⟩
  tracks _ h := h.1
  flushing w l h := ⟨tracks_kept.flushing w l h.1, h.2⟩
  subscribe _ _ _ hp h := ⟨h.1.subscribe hp, getElem?_append_of_some h.2⟩
  buffered _ _ h := ⟨h.1.mode _, h.2⟩

end Cancel

/-- **Cancelling a Subscription ends exactly one registration**, over the operations `ops`. -/
structure EndsOne (beh : Listeners ι υ) (user : υ) (ops : List (Op ι)) : Prop where
  /-- a cancel removes its registration, and no other one -/
  one : ∀ event ∈ (run beh user ops).log, RemovesOne event
  /-- a dispatch, once the fan-out is live, calls each live registration once, in order, and nobody
      else -/
  received : ∀ pre item post, ops = pre ++ .dispatch item :: post →
    (run beh user pre).fanOut.buffer = none →
      calls (run beh user (pre ++ [.dispatch item])).log =
          calls (run beh user pre).log ++ (live (run beh user pre).log).map (·, item) ∧
        ((live (run beh user pre).log).map Prod.fst).Nodup
  /-- the second `cancel()` of a Subscription, at any later time, changes nothing -/
  again : ∀ pre k post, ops = pre ++ .cancel k :: post →
    k < (run beh user pre).fanOut.subscriptions.length →
      (run beh user ops).cancel k = run beh user ops
  /-- no registration is cancelled twice, inside listeners or out of them -/
  once : ∀ r, (run beh user ops).log.countP (cancels r) ≤ 1

/-- **A cancel ends its own registration only, exactly as long as each comes when no other live
    registration uses the function of its own**: whatever the listeners do, and in every run. -/
theorem cancel_ends_one (beh : Listeners ι υ) (user : υ) (ops : List (Op ι)) :
    EndsOne beh user ops ↔ SoleCancels (run beh user ops).log := by
  have hsingle := single_run beh user ops
  refine ⟨fun h => hsingle.sole.mpr h.one, fun hs => ⟨hsingle.sole.mp hs, ?_, ?_, hsingle.once⟩⟩
  · intro pre item post he hb
    have ht := tracks_run beh user pre
    have hpre : SoleCancels (run beh user pre).log :=
      hs.of_prefix (he ▸ run_log_prefix beh user pre _)
    refine ⟨?_, ht.live_nodup⟩
    rw [run_append]
    show calls (apply beh (run beh user pre) (.dispatch item)).log = _
    obtain ⟨more, hlog, hcalls, -⟩ :=
      walk_log beh ((run beh user pre).entries.map (·, item)) (run beh user pre)
    unfold apply
    rw [hb]
    simp only [hlog, calls_append, hcalls]
    rw [(single_run beh user pre).entries hpre]
  · intro pre k post he hlt
    subst he
    have ht := tracks_run beh user pre
    have hlast := (cancelled_kept k).foldl beh post ⟨ht.cancel k, ht.cancel_none hlt⟩
    rw [run_append]
    show (post.foldl (apply beh) ((run beh user pre).cancel k)).cancel k =
      post.foldl (apply beh) ((run beh user pre).cancel k)
    generalize post.foldl (apply beh) ((run beh user pre).cancel k) = w at hlast
    unfold cancel
    rw [hlast.2]

/-- Listeners that do nothing but return. -/
def silent : Listeners Nat Unit := fun _ _ _ => ⟨[], (), none⟩

/-- **Two owners add one function, and one of them cancels**: the other one is not called either. -/
theorem shared_function_loses_both :
    ¬ ∀ (beh : Listeners Nat Unit) (ops : List (Op Nat)), EndsOne beh () ops := by
  intro hall
  have hone := (hall silent [.add 7, .add 7, .cancel 0]).one (.cancelled 0 [0, 1] [] []) (by decide)
  exact absurd hone.2 (by decide)

/-! ## 7. A cancel is final -/

/-- A cancelled registration is not called again. -/
def CancelIsFinal (log : List (Event ι)) : Prop :=
  ∀ pre r before after due post, log = pre ++ .cancelled r before after due :: post →
    ∀ listener item, .called r listener item ∉ post

/-- Nothing is cancelled that the loop in progress has yet to call. -/
def NoneDue (log : List (Event ι)) : Prop :=
  ∀ r before after due, .cancelled r before after due ∈ log → r ∉ due

/-- After each cancel its registration is called exactly if it was due. -/
def Accounted : List (Event ι) → Prop
  | [] => True
  | .cancelled r _ _ due :: log => (r ∈ dueOf (calls log) ↔ r ∈ due) ∧ Accounted log
  | .added _ _ :: log => Accounted log
  | .called _ _ _ :: log => Accounted log

theorem Announced.accounted {log : List (Event ι)} (h : Announced log) : Accounted log := by
  induction log with
  | nil => trivial
  | cons event log ih =>
      cases event with
      | added r l => exact ih h
      | called r l item => exact ih h
      | cancelled r before after due => exact ⟨h.1 ▸ Iff.rfl, ih h.2⟩

theorem accounted_append {log more : List (Event ι)} (h : Accounted log) (h' : Accounted more)
    (hgone : ∀ r, log.any (cancels r) = true → r ∉ dueOf (calls more)) : Accounted (log ++ more) := by
  induction log with
  | nil => exact h'
  | cons event log ih =>
      have hrest : ∀ r, log.any (cancels r) = true → r ∉ dueOf (calls more) := fun r hr =>
        hgone r (by rw [List.any_cons, hr, Bool.or_true])
      cases event with
      | added r l => exact ih h hrest
      | called r l item => exact ih h hrest
      | cancelled r before after due =>
          refine ⟨?_, ih h.2 hrest⟩
          have hno : r ∉ dueOf (calls more) := hgone r (by simp [cancels])
          show r ∈ dueOf (calls (log ++ more)) ↔ r ∈ due
          rw [← h.1, calls_append]
          unfold dueOf at hno ⊢
          rw [List.map_append, List.mem_append]
          exact or_iff_left hno

theorem Accounted.suffix {pre log : List (Event ι)} (h : Accounted (pre ++ log)) : Accounted log := by
  induction pre with
  | nil => exact h
  | cons event pre ih =>
      cases event with
      | added r l => exact ih h
      | called r l item => exact ih h
      | cancelled r before after due => exact ih h.2

theorem mem_dueOf {log : List (Event ι)} {r : Nat} :
    r ∈ dueOf (calls log) ↔ ∃ listener item, .called r listener item ∈ log := by
  constructor
  · intro h
    obtain ⟨⟨⟨a, l⟩, item⟩, hc, rfl⟩ := List.mem_map.mp h
    obtain ⟨event, hm, he⟩ := List.mem_filterMap.mp hc
    cases event with
    | called b m item' =>
        cases he
        exact ⟨l, item, hm⟩
    | _ => cases he
  · rintro ⟨l, item, hm⟩
    exact List.mem_map.mpr ⟨((r, l), item), List.mem_filterMap.mpr ⟨_, hm, rfl⟩, rfl⟩

/-- **Every run accounts for the calls after its cancels.** -/
theorem accounted_run (beh : Listeners ι υ) (user : υ) (ops : List (Op ι)) :
    Accounted (run beh user ops).log := by
  induction ops using List.reverseRecOn with
  | nil => trivial
  | append_singleton ops op ih =>
      have ht := tracks_run beh user ops
      obtain ⟨-, more, hlog, hannounced, hcalls⟩ := apply_log beh (run_due beh user ops) op
      rw [run_append]
      show Accounted (apply beh (run beh user ops) op).log
      rw [hlog]
      refine accounted_append ih hannounced.accounted fun r hr hm => ?_
      -- what is cancelled is in no snapshot, and nobody adds it again
      obtain ⟨hlt, hentries, -⟩ := ht.gone r hr
      obtain ⟨c, hc, rfl⟩ := List.mem_map.mp hm
      rcases hcalls c hc with he | he
      · exact hentries (List.mem_map_of_mem he)
      · exact Nat.lt_irrefl _ (he ▸ hlt)

/-- **A cancelled registration is not called again, exactly as long as no listener cancels a
    registration that the loop calling it has yet to call**: whatever the listeners add and cancel,
    and in every run. -/
theorem cancel_is_final (beh : Listeners ι υ) (user : υ) (ops : List (Op ι)) :
    CancelIsFinal (run beh user ops).log ↔ NoneDue (run beh user ops).log := by
  have hrun := accounted_run beh user ops
  generalize (run beh user ops).log = log at hrun
  constructor
  · intro h r before after due hm hdue
    obtain ⟨pre, post, rfl⟩ := List.append_of_mem hm
    obtain ⟨l, item, hcalled⟩ := mem_dueOf.mp (hrun.suffix.1.mpr hdue)
    exact h pre r before after due post rfl l item hcalled
  · rintro h pre r before after due post rfl l item hcalled
    exact h r before after due (by simp) (hrun.suffix.1.mp (mem_dueOf.mpr ⟨l, item, hcalled⟩))

/-- Listener 1 cancels the second Subscription on every item. -/
def canceller : Listeners Nat Unit := fun l _ _ =>
  ⟨if l = 1 then [.cancel 1] else [], (), none⟩

/-- **Listener 1 cancels listener 2 while both are called with one item**: listener 2 still is. -/
theorem cancelled_while_due :
    ¬ ∀ (beh : Listeners Nat Unit) (ops : List (Op Nat)), CancelIsFinal (run beh () ops).log := by
  intro hall
  exact hall canceller [.add 1, .add 2, .dispatch 9] [.added 0 1, .added 1 2, .called 0 1 9] 1 [0, 1]
    [0] [1] [.called 1 2 9] (by decide) 2 9 (by decide)

end Tracked

end TrueSealSync.Sdk
