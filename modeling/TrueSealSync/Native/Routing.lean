/-
  File:      TrueSealSync/Native/Routing.lean
  Subject:   EXACTLY-ONCE ROUTING OF COMPLETIONS: each delivery behaves as if it had a private
             result cell that the first `complete_message` call with its id fills.

  The life of a cell has two phases, each an invariant of the invocation that owns it:

  * `State.waits s i n` -- the sender of `i` is in the map under its id `n`, no result is there
    (`waits_step`: only a completion with the id `n`, a drain or a refused `tsfn.call` ends it);
  * `State.answers s i n c e` -- call `c` took the sender, and what `i` gets is the outcome `e`
    (`answers_step`: no other party can change that).

  `routed` is the run lemma over both, `Routed` the result: the first completion decides, a call
  settles one invocation and only the one with its id, a call for a spent or unknown id changes
  nothing, and no invocation finds its channel dropped. The ids of different deliveries differ for
  `2^64` deliveries; after that the counter starts again, and an insert can drop the sender of a
  delivery still in flight (`wrapped_id_drops_sender`).
-/
import TrueSealSync.Native.Close

namespace TrueSealSync.Native

open TrueSealSync.Lib

/-! ## 1. Steps that are taken once -/

section Once

/-- An invocation calls the threadsafe function once. -/
theorem call_once (i : Nat) : machine.Once (fun a => ∃ status, a = .call i status)
    (fun s => 3 ≤ (s.onMessage i).rank) where
  enter s a s' ha hs := by
    obtain ⟨status, rfl⟩ := ha
    cases step_cases hs with
    | dispatch => simp [OnMessage.rank]
    | refuse => simp [OnMessage.rank]
  stay s a s' h hs := Nat.le_trans h (rank_step (step_cases hs) i)
  block s a h ha := by
    obtain ⟨status, rfl⟩ := ha
    by_contra hne
    obtain ⟨s', hs⟩ := Option.ne_none_iff_exists'.mp hne
    cases step_cases hs with
    | dispatch _ n message hp => simp [hp, OnMessage.rank] at h
    | refuse _ n message debug hp => simp [hp, OnMessage.rank] at h

/-- It goes through the closed check once. -/
theorem insert_once (i : Nat) : machine.Once (fun a => a = .insert i)
    (fun s => 2 ≤ (s.onMessage i).rank) where
  enter s a s' ha hs := by
    subst ha
    cases step_cases hs with
    | abandon => simp [OnMessage.rank]
    | insert => simp [OnMessage.rank]
  stay s a s' h hs := Nat.le_trans h (rank_step (step_cases hs) i)
  block s a h ha := by
    subst ha
    by_contra hne
    obtain ⟨s', hs⟩ := Option.ne_none_iff_exists'.mp hne
    cases step_cases hs with
    | abandon _ n message hp => simp [hp, OnMessage.rank] at h
    | insert _ n message hp => simp [hp, OnMessage.rank] at h

/-- How far a call of `complete_message` is. -/
def CompleteMessage.rank : CompleteMessage → Nat
  | .idle => 0
  | .sending _ _ _ => 1
  | .done => 2

theorem complete_rank_step {s s' : State} {a : Action} (h : Step s a s') (c : Nat) :
    (s.complete c).rank ≤ (s'.complete c).rank := by
  cases h with
  | take c' x e j hp => by_cases hc : c = c' <;> simp [hc, hp, CompleteMessage.rank]
  | miss c' x e hp => by_cases hc : c = c' <;> simp [hc, hp, CompleteMessage.rank]
  | sendOutcome c' x e j hp => by_cases hc : c = c' <;> simp [hc, hp, CompleteMessage.rank]
  | _ => exact Nat.le_refl _

/-- A call of `complete_message` removes at most one sender. -/
theorem completeRemove_once (c : Nat) :
    machine.Once (fun a => ∃ x e, a = .completeRemove c x e) (fun s => 1 ≤ (s.complete c).rank) where
  enter s a s' ha hs := by
    obtain ⟨x, e, rfl⟩ := ha
    cases step_cases hs with
    | take => simp [CompleteMessage.rank]
    | miss => simp [CompleteMessage.rank]
  stay s a s' h hs := Nat.le_trans h (complete_rank_step (step_cases hs) c)
  block s a h ha := by
    obtain ⟨x, e, rfl⟩ := ha
    by_contra hne
    obtain ⟨s', hs⟩ := Option.ne_none_iff_exists'.mp hne
    cases step_cases hs with
    | take _ _ _ j hp => simp [hp, CompleteMessage.rank] at h
    | miss _ _ _ hp => simp [hp, CompleteMessage.rank] at h

/-- It sends at most once. -/
theorem completeSend_once (c : Nat) :
    machine.Once (fun a => a = .completeSend c) (fun s => 2 ≤ (s.complete c).rank) where
  enter s a s' ha hs := by
    subst ha
    cases step_cases hs with
    | sendOutcome => simp [CompleteMessage.rank]
  stay s a s' h hs := Nat.le_trans h (complete_rank_step (step_cases hs) c)
  block s a h ha := by
    subst ha
    by_contra hne
    obtain ⟨s', hs⟩ := Option.ne_none_iff_exists'.mp hne
    cases step_cases hs with
    | sendOutcome _ x e j hp => simp [hp, CompleteMessage.rank] at h

end Once

/-! ## 2. Waiting for the first completion -/

/-- The sender of `i` is in the map under the id `n`, and `i` has no result. -/
structure State.waits (s : State) (i n : Nat) : Prop where
  lookup : s.pending.senders.lookup n = some i
  undecided : (s.onMessage i).undecided = true

/-- The action is the critical section of a `complete_message` call for the id `n`. -/
def Action.completes (n : Nat) : Action → Prop
  | .completeRemove _ x _ => x.toU64 = n
  | _ => False

/-- What ends the wait of `i` for a completion of `n`. -/
inductive EndsWait (s : State) (i n : Nat) : Action → Prop where
  | completion (c : Nat) (x : Binary64) (e : Option String) (hx : x.toU64 = n) :
      EndsWait s i n (.completeRemove c x e)
  | drain (k : Nat) (hw : i ∈ s.pending.waiting) : EndsWait s i n (.closeDrain k)
  | refusal (debug : String) : EndsWait s i n (.call i (.other debug))

section Waits

variable {d : Nat} {s s' : State} {i n : Nat} {a : Action}

theorem State.waits.drawn (h : s.waits i n) (hI : Inv d s) : (s.onMessage i).drawn = some n :=
  drawn_of_slot (hI.mapped n i h.lookup).1

/-- A step that moves only other invocations and keeps the entry keeps the wait. -/
theorem State.waits.of_other (h : s.waits i n)
    (hl : s'.pending.senders.lookup n = s.pending.senders.lookup n)
    (hp : s'.onMessage i = s.onMessage i) : s'.waits i n :=
  ⟨hl.trans h.lookup, hp ▸ h.undecided⟩

/-- **Only a completion of its id, a drain or a refusal ends a wait.** -/
theorem waits_step (hI : Inv d s) (h : s.waits i n) (hs : Step s a s') :
    (s'.waits i n ∧ ¬ a.completes n) ∨ EndsWait s i n a := by
  have hdrawn := h.drawn hI
  have hempty := (hI.mapped n i h.lookup).2
  have hu := h.undecided
  cases hs with
  | fetchAdd j message hp =>
      have hj : i ≠ j := fun e => by simp [e, hp, OnMessage.undecided] at hu
      exact Or.inl ⟨h.of_other rfl (by simp [hj]), id⟩
  | abandon j m message hp hc =>
      have hj : i ≠ j := fun e => by simp [e, hp, OnMessage.undecided] at hu
      exact Or.inl ⟨h.of_other rfl (by simp [hj]), id⟩
  | insert j m message hp hc =>
      have hj : i ≠ j := fun e => by simp [e, hp, OnMessage.undecided] at hu
      -- another invocation inserts under another id
      have hm : n ≠ m := fun e => hj (hI.unique i j n hdrawn (by rw [hp, e]; rfl))
      exact Or.inl ⟨h.of_other (AList.lookup_insert_ne hm) (by simp [hj]), id⟩
  | dispatch j m message hp =>
      refine Or.inl ⟨⟨h.lookup, ?_⟩, id⟩
      by_cases hj : i = j
      · simp [hj, OnMessage.undecided]
      · simpa [hj] using hu
  | refuse j m message debug hp =>
      by_cases hj : i = j
      · exact Or.inr (hj ▸ .refusal debug)
      · exact Or.inl ⟨h.of_other rfl (by simp [hj]), id⟩
  | recv j m r hp hr =>
      have hj : i ≠ j := fun e => by rw [← e, hempty] at hr; cases hr
      exact Or.inl ⟨h.of_other rfl (by simp [hj]), id⟩
  | recvDropped j m hp hr =>
      have hj : i ≠ j := fun e => by rw [← e, hempty] at hr; cases hr
      exact Or.inl ⟨h.of_other rfl (by simp [hj]), id⟩
  | finish j m r hp =>
      have hj : i ≠ j := fun e => by simp [e, hp, OnMessage.undecided] at hu
      have hm : n ≠ m := fun e => hj (hI.unique i j n hdrawn (by rw [hp, e]; rfl))
      exact Or.inl ⟨h.of_other (AList.lookup_erase_ne hm) (by simp [hj]), id⟩
  | take c x e j hp hl =>
      by_cases hx : x.toU64 = n
      · exact Or.inr (.completion c x e hx)
      · exact Or.inl ⟨h.of_other (AList.lookup_erase_ne (Ne.symm hx)) rfl, hx⟩
  | miss c x e hp hl =>
      refine Or.inl ⟨h.of_other rfl rfl, fun hx : x.toU64 = n => ?_⟩
      rw [hx, h.lookup] at hl
      cases hl
  | sendOutcome c x e j hp => exact Or.inl ⟨h.of_other rfl rfl, id⟩
  | innerClose k hp => exact Or.inl ⟨h.of_other rfl rfl, id⟩
  | closeDrain k hp => exact Or.inr (.drain k (mem_waiting.mpr ⟨n, h.lookup⟩))

end Waits

/-! ## 3. After the first completion -/

/-- Call `c` took the sender of `i`, and what `i` gets is the outcome of the error `e`. -/
inductive State.answers (s : State) (i n c : Nat) (e : Option String) : Prop where
  | sending (x : Binary64) (hc : s.complete c = .sending x e i)
      (hu : (s.onMessage i).undecided = true)
  | sent (hr : s.cells i = .sent (outcome e)) (hu : (s.onMessage i).undecided = true)
  | settled (hp : s.onMessage i = .settled n (outcome e))
  | returned (hp : s.onMessage i = .returned n (handlerResult (outcome e)))

section Answers

variable {d : Nat} {s s' : State} {i n c : Nat} {e : Option String} {a : Action}

theorem rank_of_slot {p : OnMessage} (h : p.slot = some n) : 2 ≤ p.rank := by
  cases p <;> simp_all [OnMessage.slot, OnMessage.rank]

/-- A filled cell of an invocation past the closed check stays as it is. -/
theorem filled_step {r : AckResult} (hI : Inv d s) (hu : 2 ≤ (s.onMessage i).rank)
    (hr : s.cells i = .sent r) (hs : Step s a s') : s'.cells i = .sent r := by
  cases hs with
  | abandon j m message hp hc =>
      have hj : i ≠ j := by
        rintro rfl
        simp [hp, OnMessage.rank] at hu
      exact (Oneshot.drop_ne s.cells hj).trans hr
  | insert j m message hp hc =>
      show dropSender s.cells (s.pending.senders.lookup m) i = .sent r
      rw [hI.lookup_fetched hp]
      exact hr
  | finish j m q hp =>
      by_cases hj : i = j
      · subst hj
        show dropSender s.cells (s.pending.senders.lookup m) i = .sent r
        cases hl : s.pending.senders.lookup m with
        | none => exact hr
        | some k =>
            obtain rfl := hI.lookup_own (i := i) (by rw [hp]; rfl) hl
            exact (Oneshot.drop_of_sent hr k).trans hr
      · exact (hI.finish_cells (by rw [hp]; rfl) hj).trans hr
  | sendOutcome c x e j hp =>
      have hj : i ≠ j := fun he => by
        rw [he, (hI.held c x e j hp).2.2.1] at hr
        cases hr
      simpa [hj] using hr
  | closeDrain k hp =>
      show Oneshot.sendAll s.cells s.pending.waiting (.ok ()) i = .sent r
      rw [drained_cells, if_neg fun hm => ?_]
      · exact hr
      · obtain ⟨m, hm⟩ := mem_waiting.mp hm
        rw [(hI.mapped m i hm).2] at hr
        cases hr
  | _ => exact hr

/-- An open invocation stays open until it receives, unless its `tsfn.call` is refused. -/
theorem undecided_step (hu : (s.onMessage i).undecided = true)
    (ha : ∀ debug, a ≠ .call i (.other debug)) (hs : Step s a s') :
    (s'.onMessage i).undecided = true ∨ a = .recv i := by
  have hother : ∀ j p, s.onMessage j = p → p.undecided = false → i ≠ j := by
    rintro j p rfl hp rfl
    rw [hu] at hp
    cases hp
  cases hs with
  | fetchAdd j message hp => exact Or.inl (by simpa [hother j _ hp rfl] using hu)
  | abandon j m message hp hc => exact Or.inl (by simpa [hother j _ hp rfl] using hu)
  | insert j m message hp hc => exact Or.inl (by simpa [hother j _ hp rfl] using hu)
  | finish j m r hp => exact Or.inl (by simpa [hother j _ hp rfl] using hu)
  | dispatch j m message hp =>
      by_cases hj : i = j
      · exact Or.inl (by simp [hj, OnMessage.undecided])
      · exact Or.inl (by simpa [hj] using hu)
  | refuse j m message debug hp =>
      have hj : i ≠ j := fun e => ha debug (by rw [e])
      exact Or.inl (by simpa [hj] using hu)
  | recv j m r hp hr =>
      by_cases hj : i = j
      · exact Or.inr (by rw [hj])
      · exact Or.inl (by simpa [hj] using hu)
  | recvDropped j m hp hr =>
      by_cases hj : i = j
      · exact Or.inr (by rw [hj])
      · exact Or.inl (by simpa [hj] using hu)
  | _ => exact Or.inl hu

/-- A call keeps the sender it removed until it sends on it. -/
theorem sending_step {x : Binary64} (hc : s.complete c = .sending x e i) (hs : Step s a s') :
    s'.complete c = .sending x e i ∨ s'.cells i = .sent (outcome e) := by
  cases hs with
  | take c' x' e' j hp =>
      have hne : c ≠ c' := fun he => by rw [he, hp] at hc; cases hc
      exact Or.inl (by simpa [hne] using hc)
  | miss c' x' e' hp =>
      have hne : c ≠ c' := fun he => by rw [he, hp] at hc; cases hc
      exact Or.inl (by simpa [hne] using hc)
  | sendOutcome c' x' e' j hp =>
      by_cases he : c = c'
      · subst he
        rw [hc] at hp
        cases hp
        exact Or.inr (by simp)
      · exact Or.inl (by simpa [he] using hc)
  | _ => exact Or.inl hc

/-- **Nothing but the call that took the sender decides the result.** -/
theorem answers_step (hI : Inv d s) (hn : (s.onMessage i).drawn = some n) (h : s.answers i n c e)
    (ha : ∀ debug, a ≠ .call i (.other debug)) (hs : Step s a s') : s'.answers i n c e := by
  cases h with
  | sending x hc hu =>
      rcases undecided_step hu ha hs with hu' | rfl
      · rcases sending_step hc hs with hc' | hr'
        · exact .sending x hc' hu'
        · exact .sent hr' hu'
      · -- nothing to receive yet: the cell of a sender in use is empty
        have hempty := (hI.held c x e i hc).2.2.1
        cases hs with
        | recv _ m r hp hr => rw [hempty] at hr; cases hr
        | recvDropped _ m hp hr => rw [hempty] at hr; cases hr
  | sent hr hu =>
      have hslot : (s.onMessage i).slot = some n := by
        generalize s.onMessage i = p at hu hn
        cases p <;> first | exact hn | cases hu
      rcases undecided_step hu ha hs with hu' | rfl
      · exact .sent (filled_step hI (rank_of_slot hslot) hr hs) hu'
      · cases hs with
        | recv _ m r hp hr' =>
            rw [hr] at hr'
            rw [hp] at hn
            cases hr'
            cases hn
            exact .settled (by simp)
        | recvDropped _ m hp hr' => rw [hr] at hr'; cases hr'
  | settled hp =>
      rcases move_step hs i with he | hm
      · exact .settled (he.trans hp)
      · rw [hp] at hm
        generalize hq : s'.onMessage i = q at hm
        cases hm with
        | finish => exact .returned hq
  | returned hp =>
      rcases move_step hs i with he | hm
      · exact .returned (he.trans hp)
      · rw [hp] at hm
        cases hm

end Answers

/-! ## 4. Along a run -/

/-- The critical section of a `close()` drained the sender of `i`. -/
def SenderDrained (tr : List Action) (i : Nat) : Prop :=
  ∃ s k, machine.Fires tr s (.closeDrain k) ∧ i ∈ s.pending.waiting

/-- In `rest`, call `c` with the number `x` and the error `e` is the first one for the id `n`. -/
def FirstCompletion (rest : List Action) (n c : Nat) (x : Binary64) (e : Option String) : Prop :=
  ∃ mid post, rest = mid ++ .completeRemove c x e :: post ∧ x.toU64 = n ∧
    ∀ a ∈ mid, ¬ a.completes n

section Runs

variable {tr rest : List Action} {s t : State} {i n : Nat}

theorem SenderDrained.mono (h : SenderDrained tr i) (tr' : List Action) :
    SenderDrained (tr ++ tr') i := by
  obtain ⟨s, k, hf, hw⟩ := h
  exact ⟨s, k, hf.mono tr', hw⟩

/-- **An invocation that waits is answered by the first completion of its id**, and waits on where
    there is none. -/
theorem routed (ht : machine.Run tr t) (hw : t.waits i n) (h : machine.Run (tr ++ rest) s)
    (hd : deliveries (tr ++ rest) ≤ u64Size) (hcall : ∀ debug, .call i (.other debug) ∉ rest)
    (hdr : ¬ SenderDrained (tr ++ rest) i) :
    (s.waits i n ∧ ∀ a ∈ rest, ¬ a.completes n) ∨
      ∃ c x e, FirstCompletion rest n c x e ∧ s.answers i n c e := by
  induction rest using List.reverseRecOn generalizing s with
  | nil =>
      rw [List.append_nil] at h
      exact Or.inl ⟨ht.unique h ▸ hw, fun a ha => absurd ha List.not_mem_nil⟩
  | append_singleton rest a ih =>
      rw [← List.append_assoc] at h hd hdr
      obtain ⟨u, hu, hst⟩ := machine.exec_concat.mp h
      rw [deliveries_append] at hd
      have hd' : deliveries (tr ++ rest) ≤ u64Size := by omega
      have hI := inv_run hu hd'
      have hstep := step_cases hst
      rcases ih hu hd' (fun debug hm => hcall debug (List.mem_append_left _ hm))
        (fun hm => hdr (hm.mono [a])) with ⟨hwu, hrest⟩ | ⟨c, x, e, ⟨mid, post, rfl, hx, hmid⟩, hans⟩
      · rcases waits_step hI hwu hstep with ⟨hws, ha⟩ | hend
        · refine Or.inl ⟨hws, fun b hb => ?_⟩
          rcases List.mem_append.mp hb with hb | hb
          · exact hrest b hb
          · exact List.mem_singleton.mp hb ▸ ha
        · cases hend with
          | completion c x e hx =>
              -- the first completion of the id: it finds the sender of `i`
              refine Or.inr ⟨c, x, e, ⟨rest, [], rfl, hx, hrest⟩, ?_⟩
              cases hstep with
              | take _ _ _ j hp hl =>
                  rw [hx, hwu.lookup] at hl
                  cases hl
                  exact .sending x (by simp) hwu.undecided
              | miss _ _ _ hp hl =>
                  rw [hx, hwu.lookup] at hl
                  cases hl
          | drain k hm => exact absurd ⟨u, k, System.Fires.last hu, hm⟩ hdr
          | refusal debug => exact absurd (by simp) (hcall debug)
      · have hn : (u.onMessage i).drawn = some n := by
          obtain ⟨t', ht', hex⟩ := System.Run.split (S := machine) hu
          obtain rfl := ht'.unique ht
          exact drawn_stable hex (hw.drawn (inv_before ht hd'))
        refine Or.inr ⟨c, x, e, ⟨mid, post ++ [a], by simp, hx, hmid⟩,
          answers_step hI hn hans (fun debug he => ?_) hstep⟩
        exact hcall debug (by simp [he])

end Runs

/-! ## 5. Spent and unknown ids -/

/-- `i` passed the closed check and inserted its sender. -/
def Inserted (tr : List Action) (i : Nat) : Prop :=
  ∃ s, machine.Fires tr s (.insert i) ∧ s.pending.closed = false

/-- No invocation has inserted a sender under the id `n`. -/
def UnknownId (tr : List Action) (s : State) (n : Nat) : Prop :=
  ∀ i, (s.onMessage i).drawn = some n → ¬ Inserted tr i

/-- The action spends the slot `n` of `i`: a completion of `n`, a drain, the final remove of `i`. -/
def Action.spends (i n : Nat) : Action → Prop
  | .completeRemove _ x _ => x.toU64 = n
  | .closeDrain _ => True
  | .remove j => j = i
  | _ => False

/-- The slot `n` was spent after its invocation had come to its insert. -/
def SpentId (tr : List Action) (s : State) (n : Nat) : Prop :=
  ∃ i pre post, tr = pre ++ .insert i :: post ∧ (s.onMessage i).drawn = some n ∧
    ∃ a ∈ post, a.spends i n

/-- The id `n` of `i` is out of the map, and `i` will not insert again. -/
structure State.gone (s : State) (i n : Nat) : Prop where
  lookup : s.pending.senders.lookup n = none
  drawn : (s.onMessage i).drawn = some n
  rank : 2 ≤ (s.onMessage i).rank

section Spent

variable {d : Nat} {tr : List Action} {s s' : State} {i n : Nat} {a : Action}

theorem drawn_step (hn : (s.onMessage i).drawn = some n) (hs : Step s a s') :
    (s'.onMessage i).drawn = some n :=
  have hex : machine.exec s [a] = some s' := by simp [hs.taken]
  drawn_stable hex hn

/-- A new slot is made by the insert of its invocation. -/
theorem slot_step (hs : Step s a s') (hn : (s'.onMessage i).slot = some n) :
    (s.onMessage i).slot = some n ∨ (a = .insert i ∧ s.pending.closed = false) := by
  cases hs with
  | insert j m message hp hc =>
      by_cases hj : i = j
      · exact Or.inr ⟨by rw [hj], hc⟩
      · exact Or.inl (by simpa [hj] using hn)
  | fetchAdd j | abandon j | dispatch j | refuse j | recv j | recvDropped j | finish j =>
      by_cases hj : i = j
      · subst hj
        simp_all [OnMessage.slot]
      · exact Or.inl (by simpa [hj] using hn)
  | _ => exact Or.inl hn

theorem inserted_of_slot (h : machine.Run tr s) (hn : (s.onMessage i).slot = some n) :
    Inserted tr i := by
  induction h using System.Run.induct with
  | start => cases hn
  | snoc tr s a s' h hs ih =>
      rcases slot_step (step_cases hs) hn with hn | ⟨rfl, hc⟩
      · obtain ⟨s₀, hf, hc⟩ := ih hn
        exact ⟨s₀, hf.mono _, hc⟩
      · exact ⟨s, System.Fires.last h, hc⟩

/-- **An id once out of the map does not come back.** -/
theorem gone_step (hI : Inv d s) (h : s.gone i n) (hs : Step s a s') : s'.gone i n := by
  refine ⟨?_, drawn_step h.drawn hs, Nat.le_trans h.rank (rank_step hs i)⟩
  cases hs with
  | insert j m message hp hc =>
      -- the id belongs to `i`, which is past its insert
      have hm : n ≠ m := by
        intro he
        subst he
        obtain rfl := hI.unique i j n h.drawn (by rw [hp]; rfl)
        have := h.rank
        simp [hp, OnMessage.rank] at this
      exact (AList.lookup_insert_ne hm).trans h.lookup
  | finish j m r hp =>
      show (s.pending.senders.erase m).lookup n = none
      rw [lookup_erase_apply, h.lookup, ite_self]
  | take c x e j hp hl =>
      show (s.pending.senders.erase x.toU64).lookup n = none
      rw [lookup_erase_apply, h.lookup, ite_self]
  | closeDrain k hp => exact AList.lookup_empty n
  | _ => exact h.lookup

/-- What spends a slot takes its id out of the map. -/
theorem gone_of_spends (hn : (s.onMessage i).drawn = some n) (hr : 2 ≤ (s.onMessage i).rank)
    (ha : a.spends i n) (hs : Step s a s') : s'.gone i n := by
  refine ⟨?_, drawn_step hn hs, Nat.le_trans hr (rank_step hs i)⟩
  cases hs with
  | take c x e j hp hl =>
      cases (ha : x.toU64 = n)
      exact AList.lookup_erase _ _
  | miss c x e hp hl =>
      cases (ha : x.toU64 = n)
      exact hl
  | closeDrain k hp => exact AList.lookup_empty n
  | finish j m r hp =>
      obtain rfl : j = i := ha
      rw [hp] at hn
      cases hn
      exact AList.lookup_erase _ _
  | _ => cases ha

/-- **A spent or unknown id is not in the map.** -/
theorem lookup_of_spent_or_unknown (h : machine.Run tr s) (hd : deliveries tr ≤ u64Size)
    (hn : UnknownId tr s n ∨ SpentId tr s n) : s.pending.senders.lookup n = none := by
  rcases hn with hu | ⟨i, pre, post, rfl, hdrawn, a, ha, hsp⟩
  · cases hl : s.pending.senders.lookup n with
    | none => rfl
    | some j =>
        have hslot := ((inv_run h hd).mapped n j hl).1
        exact absurd (inserted_of_slot h hslot) (hu j (drawn_of_slot hslot))
  · obtain ⟨mid, post, rfl⟩ := List.append_of_mem ha
    rw [show pre ++ .insert i :: (mid ++ a :: post) = (pre ++ .insert i :: mid) ++ a :: post by simp]
      at h hd
    obtain ⟨t, ht, hex⟩ := h.split
    obtain ⟨t', hst, hex'⟩ := Option.bind_eq_some_iff.mp hex
    have hrank : 2 ≤ (t.onMessage i).rank := (insert_once i).of_mem ht rfl (by simp)
    have hdt : (t.onMessage i).drawn = some n := by
      -- past its insert, `i` has drawn the id it keeps
      cases hp : t.onMessage i with
      | idle | fetched => simp [hp, OnMessage.rank] at hrank
      | inserted | awaiting | settled | returned =>
          exact (drawn_stable hex (hp ▸ rfl)).symm.trans hdrawn
    have hgone := gone_of_spends hdt hrank hsp (step_cases hst)
    rw [show (pre ++ .insert i :: mid) ++ a :: post = ((pre ++ .insert i :: mid) ++ [a]) ++ post by
      simp] at h hd
    exact (stable_run (fun _ _ _ _ hI hg hs => gone_step hI hg hs) (ht.snoc hst) h hd hgone).lookup

end Spent

/-! ## 6. The result -/

/-- Call `c` of `complete_message` sent its outcome to `i`. -/
def Settles (tr : List Action) (c i : Nat) : Prop :=
  ∃ s x e, machine.Fires tr s (.completeSend c) ∧ s.complete c = .sending x e i

/-- From `s` on, `i` can return `r` by steps of its own and the `send` of call `c` alone. -/
def State.CanReturn (s : State) (i n c : Nat) (r : Except HandlerError Unit) : Prop :=
  ∃ tail s', (∀ a ∈ tail, a = .completeSend c ∨ a = .recv i ∨ a = .remove i) ∧
    machine.exec s tail = some s' ∧ s'.onMessage i = .returned n r

/-- **Exactly-once routing** at the end `s` of the run `tr`. -/
structure Routed (tr : List Action) (s : State) : Prop where
  /-- an invocation whose `tsfn.call` answered `Ok` and whose sender was not drained: either no
      completion of its id came after its insert, and it has not returned; or the first one decides
      what it returns, and it can return that -/
  first : ∀ i n pre rest, tr = pre ++ .insert i :: rest → .call i .ok ∈ tr →
    ¬ SenderDrained tr i → (s.onMessage i).drawn = some n →
    ((∀ a ∈ rest, ¬ a.completes n) ∧ ∀ r, s.onMessage i ≠ .returned n r) ∨
      ∃ c x e, FirstCompletion rest n c x e ∧ x.value = some (n : ℚ) ∧
        (∀ r, s.onMessage i = .returned n r → r = handlerResult (outcome e)) ∧
        s.CanReturn i n c (handlerResult (outcome e))
  /-- a call settles at most one invocation -/
  settlesOne : ∀ c i j, Settles tr c i → Settles tr c j → i = j
  /-- and only the one with its id -/
  settlesOwn : ∀ c i n x e, Settles tr c i → .completeRemove c x e ∈ tr →
    (s.onMessage i).drawn = some n → x.value = some (n : ℚ)
  /-- a call for a spent or unknown id changes nothing but its own position, and is done -/
  miss : ∀ c x e (n : Nat) s', x.value = some (n : ℚ) → n < 2 ^ 53 →
    UnknownId tr s n ∨ SpentId tr s n → machine.step s (.completeRemove c x e) = some s' →
    s'.pending = s.pending ∧ s'.cells = s.cells ∧ s'.onMessage = s.onMessage ∧ s'.complete c = .done
  /-- nobody finds its completion channel dropped -/
  notDropped : ∀ s₀ i, machine.Fires tr s₀ (.recv i) → s₀.cells i ≠ .dropped

section Result

variable {d : Nat} {tr : List Action} {s : State} {i n c : Nat} {e : Option String}

/-- An invocation that has been answered and dispatched can return. -/
theorem answers_canReturn (hn : (s.onMessage i).drawn = some n) (h : s.answers i n c e)
    (hrank : 3 ≤ (s.onMessage i).rank) : s.CanReturn i n c (handlerResult (outcome e)) := by
  have hawaiting : (s.onMessage i).undecided = true → s.onMessage i = .awaiting n := fun hu => by
    generalize s.onMessage i = p at hu hn hrank
    cases p with
    | awaiting m => cases hn; rfl
    | inserted => simp [OnMessage.rank] at hrank
    | _ => cases hu
  have hremove : ∀ t : State, t.onMessage i = .settled n (outcome e) →
      t.CanReturn i n c (handlerResult (outcome e)) := fun t ht =>
    ⟨[.remove i], t.finish i n (outcome e), by simp, by simp [(Step.finish i n _ ht).taken],
      by simp⟩
  have hrecv : ∀ t : State, t.onMessage i = .awaiting n → t.cells i = .sent (outcome e) →
      t.CanReturn i n c (handlerResult (outcome e)) := fun t ht hc => by
    obtain ⟨tail, s', htail, hex, hs'⟩ := hremove (t.setOnMessage i (.settled n (outcome e)))
      (by simp)
    exact ⟨.recv i :: tail, s', by simpa using htail,
      by simp [(Step.recv i n _ ht hc).taken, hex], hs'⟩
  cases h with
  | sending x hc hu =>
      obtain ⟨tail, s', htail, hex, hs'⟩ := hrecv (s.sendOutcome c e i) (hawaiting hu) (by simp)
      exact ⟨.completeSend c :: tail, s', by simpa using htail,
        by simp [(Step.sendOutcome c x e i hc).taken, hex], hs'⟩
  | sent hr hu => exact hrecv s (hawaiting hu) hr
  | settled hp => exact hremove s hp
  | returned hp => exact ⟨[], s, by simp, rfl, hp⟩

/-- Before its insert an invocation has called nothing, and the insert of one that calls later
    starts its wait. -/
theorem waits_of_insert {pre rest : List Action} (h : machine.Run (pre ++ .insert i :: rest) s)
    (hn : (s.onMessage i).drawn = some n) (hcall : .call i .ok ∈ pre ++ .insert i :: rest) :
    ∃ t, machine.Run (pre ++ [.insert i]) t ∧ t.waits i n := by
  obtain ⟨u, hu, hex⟩ := h.split
  obtain ⟨t, hst, hex'⟩ := Option.bind_eq_some_iff.mp hex
  refine ⟨t, hu.snoc hst, ?_⟩
  cases step_cases hst with
  | abandon _ m message hp hc =>
      -- turned away: it calls nothing, neither before nor after
      exfalso
      rcases List.mem_append.mp hcall with hm | hm
      · have := (call_once i).of_mem hu ⟨_, rfl⟩ hm
        simp [hp, OnMessage.rank] at this
      · rcases List.mem_cons.mp hm with he | hm
        · cases he
        · exact (call_once i).not_mem (by simp [OnMessage.rank]) hex' ⟨_, rfl⟩ hm
  | insert _ m message hp hc =>
      have hm : m = n := by
        have := drawn_stable (n := m) hex' (i := i) (by simp; rfl)
        exact Option.some.inj (this.symm.trans hn)
      subst hm
      exact ⟨AList.lookup_insert _, by simp [OnMessage.undecided]⟩

theorem first_of_run {pre rest : List Action} (h : machine.Run (pre ++ .insert i :: rest) s)
    (hd : deliveries (pre ++ .insert i :: rest) ≤ u64Size)
    (hcall : .call i .ok ∈ pre ++ .insert i :: rest)
    (hdr : ¬ SenderDrained (pre ++ .insert i :: rest) i) (hn : (s.onMessage i).drawn = some n) :
    ((∀ a ∈ rest, ¬ a.completes n) ∧ ∀ r, s.onMessage i ≠ .returned n r) ∨
      ∃ c x e, FirstCompletion rest n c x e ∧ s.answers i n c e := by
  obtain ⟨t, ht, hw⟩ := waits_of_insert h hn hcall
  have hsplit : pre ++ .insert i :: rest = (pre ++ [.insert i]) ++ rest := by simp
  -- the call was accepted, so it was never refused
  have hrefused : ∀ debug, .call i (.other debug) ∉ rest := fun debug hm => by
    obtain ⟨s₁, hf₁⟩ := h.fires_of_mem hcall
    obtain ⟨s₂, hf₂⟩ := h.fires_of_mem (a := .call i (.other debug)) (by simp [hm])
    cases ((call_once i).unique h hf₁ hf₂ ⟨_, rfl⟩ ⟨_, rfl⟩).1
  rw [hsplit] at h hd hdr
  rcases routed ht hw h hd hrefused hdr with ⟨hws, hrest⟩ | hans
  · refine Or.inl ⟨hrest, fun r hr => ?_⟩
    have := hws.undecided
    rw [hr] at this
    cases this
  · exact Or.inr hans

/-- The sender a call uses is the one it removed. -/
theorem Settles.took (h : machine.Run tr s) (hd : deliveries tr ≤ u64Size) (hs : Settles tr c i) :
    ∃ x e, Took tr i c x e := by
  obtain ⟨s₀, x, e, ⟨pre, post, rfl, hr⟩, hc⟩ := hs
  rw [deliveries_append] at hd
  exact ⟨x, e, ((origin_run hr (by omega)).sending c x e i hc).mono _⟩

/-- **Exactly-once routing of completions**, on every run with at most `2^64` deliveries whose
    `complete_message` calls carry whole numbers below `2^53`. -/
theorem completions_routed (h : machine.Run tr s) (hd : deliveries tr ≤ 2 ^ 64)
    (hwhole : ∀ c x e, .completeRemove c x e ∈ tr → ∃ k : Nat, k < 2 ^ 53 ∧ x.value = some (k : ℚ)) :
    Routed tr s := by
  have hd' : deliveries tr ≤ u64Size := hd
  -- a whole number whose cast is `n` is `n`
  have hexact : ∀ c x e (n : Nat), .completeRemove c x e ∈ tr → x.toU64 = n → x.value = some (n : ℚ) := by
    intro c x e n hm hx
    obtain ⟨k, hk, hval⟩ := hwhole c x e hm
    have := Binary64.toU64_of_value hval (by unfold u64Size; omega)
    rw [hval, ← this, hx]
  refine ⟨?_, ?_, ?_, ?_, ?_⟩
  · rintro i n pre rest rfl hcall hdr hn
    refine (first_of_run h hd' hcall hdr hn).imp id ?_
    intro ⟨c, x, e, hfirst, hans⟩
    refine ⟨c, x, e, hfirst, ?_, fun r hr => ?_, ?_⟩
    · obtain ⟨mid, post, rfl, hx, -⟩ := hfirst
      exact hexact c x e n (by simp) hx
    · cases hans with
      | returned hp => rw [hr] at hp; cases hp; rfl
      | settled hp => rw [hr] at hp; cases hp
      | sending x hc hu => rw [hr] at hu; cases hu
      | sent hc hu => rw [hr] at hu; cases hu
    · exact answers_canReturn hn hans ((call_once i).of_mem h ⟨_, rfl⟩ hcall)
  · intro c i j ⟨s₁, x₁, e₁, hf₁, hc₁⟩ ⟨s₂, x₂, e₂, hf₂, hc₂⟩
    obtain rfl := ((completeSend_once c).unique h hf₁ hf₂ rfl rfl).2
    rw [hc₁] at hc₂
    cases hc₂
    rfl
  · intro c i n x e hs hm hn
    obtain ⟨x', e', htook⟩ := hs.took h hd'
    obtain ⟨s₁, hf₁⟩ := h.fires_of_mem hm
    obtain ⟨s₂, hf₂, -⟩ := id htook
    cases ((completeRemove_once c).unique h hf₁ hf₂ ⟨x, e, rfl⟩ ⟨x', e', rfl⟩).1
    exact hexact c x e n hm (htook.ackId h hd' hn)
  · intro c x e n s' hval hn hgone hs
    have hl := lookup_of_spent_or_unknown h hd' hgone
    have hx := Binary64.toU64_of_value hval (by unfold u64Size; omega)
    cases step_cases hs with
    | take _ _ _ j hp hl' => rw [hx, hl] at hl'; cases hl'
    | miss => exact ⟨rfl, rfl, rfl, by simp⟩
  · intro s₀ i hf
    obtain ⟨d, hI⟩ := inv_passes hd' hf.passes
    obtain ⟨s', _, hst, _⟩ := h.after_fires hf
    cases step_cases hst with
    | recv _ m r hp hr => rw [hr]; nofun
    | recvDropped _ m hp hr => exact absurd hr (hI.cells_ne_dropped (n := m) (by rw [hp]; rfl))

end Result

/-- A delivery whose handler fails. -/
theorem completions_routed_failed :
    ∃ s, machine.Run (completedRun (Binary64.ofU64 0) (some "boom")) s ∧
      Routed (completedRun (Binary64.ofU64 0) (some "boom")) s := by
  obtain ⟨s, hs, -⟩ := machine.exists_run
    (completedRun (Binary64.ofU64 0) (some "boom")) (fun _ => true) (by decide +kernel)
  refine ⟨s, hs, completions_routed hs (by decide) fun c x e hm => ⟨0, by decide, ?_⟩⟩
  simp only [completedRun, List.mem_cons, Action.completeRemove.injEq, List.not_mem_nil,
    reduceCtorEq, false_or, or_false] at hm
  rw [hm.2.1]
  exact Binary64.value_ofU64 (by decide)

/-! ## 7. After `2^64` deliveries -/

/-- `k` deliveries in a row draw their ids, and nothing else happens. -/
theorem exec_fetchAdds (message : TrueSealMessage) (a k : Nat) (s : State)
    (hnext : s.nextAck < u64Size) (hidle : ∀ j, a ≤ j → s.onMessage j = .idle) :
    ∃ s', machine.exec s ((List.range' a k).map (.fetchAdd · message)) = some s' ∧
      s'.nextAck = (s.nextAck + k) % u64Size ∧ s'.pending = s.pending ∧ s'.cells = s.cells ∧
      (∀ j, j < a → s'.onMessage j = s.onMessage j) ∧ ∀ j, a + k ≤ j → s'.onMessage j = .idle := by
  induction k generalizing a s with
  | zero => exact ⟨s, rfl, (Nat.mod_eq_of_lt hnext).symm, rfl, rfl, fun _ _ => rfl, hidle⟩
  | succ k ih =>
      have hstep := (Step.fetchAdd a message (hidle a (Nat.le_refl a))).taken
      have hnext' : (s.fetchAdd a message).nextAck = (s.nextAck + 1) % u64Size := rfl
      obtain ⟨s', hex, hlast, hpend, hcells, hlt, hge⟩ := ih (a + 1) (s.fetchAdd a message)
        (hnext' ▸ Nat.mod_lt _ (Nat.zero_lt_of_lt hnext))
        fun j hj => by simp [Nat.ne_of_gt hj, hidle j (by omega)]
      refine ⟨s', by simp [List.range'_succ, hstep, hex], ?_, hpend, hcells, fun j hj => ?_,
        fun j hj => hge j (by omega)⟩
      · rw [hlast, hnext', Nat.mod_add_mod]
        congr 1
        omega
      · rw [hlt j (by omega)]
        simp [Nat.ne_of_lt hj]

/-- Delivery 0 is in flight, `k` deliveries draw ids, and one more draws its id and inserts. -/
def wrappedRun (k : Nat) : List Action :=
  [.fetchAdd 0 sampleMessage, .insert 0, .call 0 .ok] ++
    (List.range' 1 k).map (.fetchAdd · sampleMessage) ++
    [.fetchAdd (k + 1) sampleMessage, .insert (k + 1)]

/-- Where the counter has come back to 0, the last insert drops the sender of delivery 0. -/
theorem wrappedRun_drops (k : Nat) (hk : (1 + k) % u64Size = 0) :
    ∃ s, machine.Run (wrappedRun k) s ∧ s.onMessage 0 = .awaiting 0 ∧ s.cells 0 = .dropped := by
  let s₁ : State :=
    ((State.fetchAdd {} 0 sampleMessage).insert 0 0 sampleMessage).dispatch 0 0 sampleMessage
  have h₁ : machine.exec machine.init
      [.fetchAdd 0 sampleMessage, .insert 0, .call 0 .ok] = some s₁ := rfl
  obtain ⟨s₂, h₂, hnext, hpend, hcells, hlt, hge⟩ := exec_fetchAdds sampleMessage 1 k s₁
    (by decide) fun j hj => by
      have hj0 : j ≠ 0 := by omega
      simp [s₁, hj0]
  have hzero : s₂.nextAck = 0 := hnext.trans hk
  have hopen : s₂.pending.closed = false := by rw [hpend]; rfl
  have hmapped : s₂.pending.senders.lookup 0 = some 0 := by rw [hpend]; rfl
  have hempty : s₂.cells 0 = .empty := by rw [hcells]; rfl
  have h₃ := (Step.fetchAdd (k + 1) sampleMessage (hge (k + 1) (by omega))).taken
  have h₄ := (Step.insert (k + 1) 0 sampleMessage
    (s := s₂.fetchAdd (k + 1) sampleMessage) (by simp [hzero]) hopen).taken
  refine ⟨(s₂.fetchAdd (k + 1) sampleMessage).insert (k + 1) 0 sampleMessage, ?_, ?_, ?_⟩
  · refine machine.exec_append_some.mpr ⟨s₂, machine.exec_append_some.mpr ⟨s₁, h₁, h₂⟩, ?_⟩
    simp [h₃, h₄]
  · simp [hlt 0 (by omega), s₁]
  · show dropSender s₂.cells (s₂.pending.senders.lookup 0) 0 = .dropped
    rw [hmapped]
    simp [dropSender, Oneshot.drop, hempty]

/-- **The id after `2^64 - 1` is 0 again**: the insert under it drops the sender of a delivery
    still in flight, which finds its completion channel dropped. No `complete_message` call is
    made. -/
theorem wrapped_id_drops_sender :
    ¬ ∀ (tr : List Action) (s s₀ : State) (i : Nat), machine.Run tr s →
      (∀ c x e, .completeRemove c x e ∈ tr → ∃ k : Nat, k < 2 ^ 53 ∧ x.value = some (k : ℚ)) →
      machine.Fires tr s₀ (.recv i) → s₀.cells i ≠ .dropped := by
  intro hall
  obtain ⟨k, hk⟩ : ∃ k, (1 + k) % u64Size = 0 :=
    ⟨u64Size - 1, by rw [Nat.add_sub_of_le (by decide), Nat.mod_self]⟩
  obtain ⟨s, hs, hp, hc⟩ := wrappedRun_drops k hk
  have hrecv := (Step.recvDropped 0 0 hp hc).taken
  refine hall _ _ s 0 (hs.snoc hrecv) (fun c x e hm => ?_) (System.Fires.last hs) hc
  simp [wrappedRun] at hm

end TrueSealSync.Native
