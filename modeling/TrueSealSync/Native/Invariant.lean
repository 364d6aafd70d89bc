/-
  File:      TrueSealSync/Native/Invariant.lean
  Subject:   THE INVARIANT OF THE PENDING-ACK MACHINE, on every run with at most `2^64`
             deliveries.

  The question behind every claim about the machine is where the sender of an invocation is. The
  invariant `Inv d s` (after `d` deliveries) answers it for all positions at once:

  * ids: an id drawn is below `d` and belongs to one invocation (`issued`, `unique`), since the
    counter has not wrapped;
  * a sender in the map sits under its invocation's own id, and its cell is empty (`mapped`);
  * a sender a `complete_message` call has removed is held by that call alone, its cell is empty,
    and the key is gone from the map (`held`, `heldOnce`);
  * an invocation between its insert and its final remove has its sender in one of the two
    places, or a value in its cell (`placed`);
  * `closed` is set after `inner.close()` returned, and then the map is empty (`closed`).

  `inv_step` is the one step lemma, `inv_run` the run lemma; `stable_run` carries what every step
  preserves under the invariant from any point of a run to its end.
-/
import TrueSealSync.Native.PendingAcks

namespace TrueSealSync.Native

open TrueSealSync.Lib

/-! ## 1. Positions and lookups -/

/-- The ack id an invocation has drawn. -/
def OnMessage.drawn : OnMessage → Option Nat
  | .idle => none
  | .fetched n _ | .inserted n _ | .awaiting n | .settled n _ | .returned n _ => some n

/-- The slot of an invocation that has inserted its sender and not done its final remove. -/
def OnMessage.slot : OnMessage → Option Nat
  | .inserted n _ | .awaiting n | .settled n _ => some n
  | .idle | .fetched _ _ | .returned _ _ => none

/-- The invocation has not reached the closed check. -/
def OnMessage.early : OnMessage → Bool
  | .idle | .fetched _ _ => true
  | .inserted _ _ | .awaiting _ | .settled _ _ | .returned _ _ => false

theorem drawn_of_slot {p : OnMessage} {n : Nat} (h : p.slot = some n) : p.drawn = some n := by
  cases p <;> simp_all [OnMessage.drawn, OnMessage.slot]

theorem early_of_slot {p : OnMessage} {n : Nat} (h : p.slot = some n) : p.early = false := by
  cases p <;> simp_all [OnMessage.early, OnMessage.slot]

/-- What is read of a position does not change where the new position reads the same. -/
theorem read_update {α : Type} (read : OnMessage → α) {positions : Nat → OnMessage} {i : Nat}
    {q : OnMessage} (h : read q = read (positions i)) (j : Nat) :
    read (if j = i then q else positions j) = read (positions j) := by
  by_cases hj : j = i
  · rw [if_pos hj, hj, h]
  · rw [if_neg hj]

theorem lookup_of_mem {m : AList fun _ : Nat => Nat} {n : Nat} (h : n ∈ m) :
    ∃ i, m.lookup n = some i :=
  Option.isSome_iff_exists.mp (AList.lookup_isSome.mpr h)

theorem mem_of_lookup {m : AList fun _ : Nat => Nat} {n i : Nat} (h : m.lookup n = some i) :
    n ∈ m :=
  AList.lookup_isSome.mp (by rw [h]; rfl)

theorem lookup_erase_apply (k n : Nat) (m : AList fun _ : Nat => Nat) :
    (m.erase n).lookup k = if k = n then none else m.lookup k := by
  split
  · rename_i h
    rw [h, AList.lookup_erase]
  · rename_i h
    rw [AList.lookup_erase_ne h]

theorem lookup_insert_apply (k n i : Nat) (m : AList fun _ : Nat => Nat) :
    (m.insert n i).lookup k = if k = n then some i else m.lookup k := by
  split
  · rename_i h
    subst h
    rw [AList.lookup_insert]
  · rename_i h
    rw [AList.lookup_insert_ne h]

theorem erase_of_empty {m : AList fun _ : Nat => Nat} (h : m = ∅) (n : Nat) : m.erase n = ∅ := by
  subst h
  exact AList.ext rfl

theorem mem_waiting {p : PendingAcks} {i : Nat} :
    i ∈ p.waiting ↔ ∃ n, p.senders.lookup n = some i := by
  unfold PendingAcks.waiting
  constructor
  · intro h
    obtain ⟨⟨n, j⟩, hm, rfl⟩ := List.mem_map.mp h
    exact ⟨n, AList.mem_lookup_iff.mpr hm⟩
  · intro ⟨n, h⟩
    exact List.mem_map.mpr ⟨⟨n, i⟩, AList.mem_lookup_iff.mp h, rfl⟩

/-- What the drain of `close()` leaves in the cells. -/
theorem drained_cells (s : State) (i : Nat) :
    Oneshot.sendAll s.cells s.pending.waiting (.ok ()) i =
      if i ∈ s.pending.waiting then .sent (.ok ()) else s.cells i := by
  split
  · rename_i h
    exact Oneshot.sendAll_mem _ _ h
  · rename_i h
    exact Oneshot.sendAll_notMem _ _ h

/-! ## 2. The invariant -/

/-- **The invariant** after `d` deliveries. -/
structure Inv (d : Nat) (s : State) : Prop where
  counter : s.nextAck = d % u64Size
  issued : ∀ i n, (s.onMessage i).drawn = some n → n < d
  unique : ∀ i j n, (s.onMessage i).drawn = some n → (s.onMessage j).drawn = some n → i = j
  mapped : ∀ n i, s.pending.senders.lookup n = some i →
    (s.onMessage i).slot = some n ∧ s.cells i = .empty
  held : ∀ c x e i, s.complete c = .sending x e i →
    (s.onMessage i).drawn = some x.toU64 ∧ (s.onMessage i).early = false ∧ s.cells i = .empty ∧
      s.pending.senders.lookup x.toU64 = none
  heldOnce : ∀ c c' x x' e e' i, s.complete c = .sending x e i →
    s.complete c' = .sending x' e' i → c = c'
  early : ∀ i, (s.onMessage i).early = true → s.cells i = .empty
  placed : ∀ i n, (s.onMessage i).slot = some n → s.pending.senders.lookup n = some i ∨
    (∃ c x e, s.complete c = .sending x e i) ∨ ∃ r, s.cells i = .sent r
  closing : ∀ k, s.close k ≠ .idle → s.innerClosed = true
  closed : s.pending.closed = true → s.innerClosed = true ∧ s.pending.senders = ∅

theorem inv_init : Inv 0 ({} : State) := by
  constructor <;> simp [OnMessage.drawn, OnMessage.slot]

section Steps

variable {d : Nat} {s : State}

/-- The key of an invocation in flight belongs to no other sender. -/
theorem Inv.lookup_own (h : Inv d s) {i j n : Nat} (hi : (s.onMessage i).drawn = some n)
    (hj : s.pending.senders.lookup n = some j) : j = i :=
  h.unique j i n (drawn_of_slot (h.mapped n j hj).1) hi

/-- Before the insert the invocation's key is free. -/
theorem Inv.lookup_fetched (h : Inv d s) {i n : Nat} {message : TrueSealMessage}
    (hp : s.onMessage i = .fetched n message) : s.pending.senders.lookup n = none := by
  cases hl : s.pending.senders.lookup n with
  | none => rfl
  | some j =>
      obtain rfl := h.lookup_own (i := i) (by rw [hp]; rfl) hl
      have hs := (h.mapped n j hl).1
      rw [hp] at hs
      cases hs

/-- A move from slot to slot of one invocation keeps the invariant. -/
theorem inv_setOnMessage (h : Inv d s) {i n : Nat} {q : OnMessage}
    (hp : (s.onMessage i).slot = some n) (hq : q.slot = some n) : Inv d (s.setOnMessage i q) := by
  -- positions agree in what the invariant reads of them
  have hdrawn : ∀ j, ((s.setOnMessage i q).onMessage j).drawn = (s.onMessage j).drawn := fun j => by
    rw [State.setOnMessage_onMessage]
    exact read_update OnMessage.drawn (by rw [drawn_of_slot hp, drawn_of_slot hq]) j
  have hslot : ∀ j, ((s.setOnMessage i q).onMessage j).slot = (s.onMessage j).slot := fun j => by
    rw [State.setOnMessage_onMessage]
    exact read_update OnMessage.slot (by rw [hp, hq]) j
  have hearly : ∀ j, ((s.setOnMessage i q).onMessage j).early = (s.onMessage j).early := fun j => by
    rw [State.setOnMessage_onMessage]
    exact read_update OnMessage.early (by rw [early_of_slot hp, early_of_slot hq]) j
  exact { h with
    issued := fun j k hj => h.issued j k (hdrawn j ▸ hj)
    unique := fun j k m hj hk => h.unique j k m (hdrawn j ▸ hj) (hdrawn k ▸ hk)
    mapped := fun m j hl => by rw [hslot]; exact h.mapped m j hl
    held := fun c x e j hc => by rw [hdrawn, hearly]; exact h.held c x e j hc
    early := fun j hj => h.early j (hearly j ▸ hj)
    placed := fun j m hj => h.placed j m (hslot j ▸ hj) }

/-- An early invocation owns no sender: none in the map, none with a `complete_message` call. -/
theorem Inv.early_owns (h : Inv d s) {i : Nat} (hi : (s.onMessage i).early = true) :
    (∀ n, s.pending.senders.lookup n ≠ some i) ∧ ∀ c x e, s.complete c ≠ .sending x e i := by
  refine ⟨fun n hl => ?_, fun c x e hc => ?_⟩
  · have := early_of_slot (h.mapped n i hl).1
    rw [hi] at this
    cases this
  · have := (h.held c x e i hc).2.1
    rw [hi] at this
    cases this

theorem inv_fetchAdd (h : Inv d s) (hd : d < u64Size) {i : Nat} {message : TrueSealMessage}
    (hp : s.onMessage i = .idle) : Inv (d + 1) (s.fetchAdd i message) := by
  -- the counter has not wrapped, so the new id is `d`, above every id drawn so far
  have hn : s.nextAck = d := by rw [h.counter, Nat.mod_eq_of_lt hd]
  have hearly : (s.onMessage i).early = true := by rw [hp]; rfl
  obtain ⟨hmap, hcall⟩ := h.early_owns hearly
  exact { h with
    counter := by
      show (s.nextAck + 1) % u64Size = (d + 1) % u64Size
      rw [hn]
    issued := fun j n hj => by
      simp only [State.fetchAdd_onMessage, hn] at hj
      split at hj
      · exact Option.some.inj hj ▸ Nat.lt_succ_self d
      · exact Nat.lt_succ_of_lt (h.issued j n hj)
    unique := fun j k n hj hk => by
      simp only [State.fetchAdd_onMessage, hn] at hj hk
      split at hj <;> split at hk
      · simp [*]
      · exact absurd (h.issued k n hk) (Option.some.inj hj ▸ Nat.lt_irrefl d)
      · exact absurd (h.issued j n hj) (Option.some.inj hk ▸ Nat.lt_irrefl d)
      · exact h.unique j k n hj hk
    mapped := fun n j hl => by
      have hne : j ≠ i := fun e => hmap n (e ▸ hl)
      simp only [State.fetchAdd_onMessage, hne, if_false]
      exact h.mapped n j hl
    held := fun c x e j hc => by
      have hne : j ≠ i := fun he => hcall c x e (he ▸ hc)
      simp only [State.fetchAdd_onMessage, hne, if_false]
      exact h.held c x e j hc
    early := fun j hj => by
      by_cases hne : j = i
      · exact hne ▸ h.early i hearly
      · simp only [State.fetchAdd_onMessage, hne, if_false] at hj
        exact h.early j hj
    placed := fun j n hj => by
      by_cases hne : j = i
      · simp [hne, OnMessage.slot] at hj
      · simp only [State.fetchAdd_onMessage, hne, if_false] at hj
        exact h.placed j n hj }

theorem inv_abandon (h : Inv d s) {i n : Nat} {message : TrueSealMessage}
    (hp : s.onMessage i = .fetched n message) : Inv d (s.abandon i n) := by
  obtain ⟨hmap, hcall⟩ := h.early_owns (i := i) (by rw [hp]; rfl)
  have hcell : ∀ j, j ≠ i → (s.abandon i n).cells j = s.cells j := fun j => Oneshot.drop_ne s.cells
  have hdrawn : ∀ j, ((s.abandon i n).onMessage j).drawn = (s.onMessage j).drawn := fun j => by
    rw [State.abandon_onMessage]
    exact read_update OnMessage.drawn (by rw [hp]; rfl) j
  exact { h with
    issued := fun j k hj => h.issued j k (hdrawn j ▸ hj)
    unique := fun j k m hj hk => h.unique j k m (hdrawn j ▸ hj) (hdrawn k ▸ hk)
    mapped := fun m j hl => by
      have hne : j ≠ i := fun e => hmap m (e ▸ hl)
      rw [hcell j hne]
      simp only [State.abandon_onMessage, hne, if_false]
      exact h.mapped m j hl
    held := fun c x e j hc => by
      have hne : j ≠ i := fun he => hcall c x e (he ▸ hc)
      rw [hcell j hne, hdrawn]
      simp only [State.abandon_onMessage, hne, if_false]
      exact h.held c x e j hc
    early := fun j hj => by
      by_cases hne : j = i
      · simp [hne, OnMessage.early] at hj
      · simp only [State.abandon_onMessage, hne, if_false] at hj
        rw [hcell j hne]
        exact h.early j hj
    placed := fun j m hj => by
      by_cases hne : j = i
      · simp [hne, OnMessage.slot] at hj
      · simp only [State.abandon_onMessage, hne, if_false] at hj
        rw [hcell j hne]
        exact h.placed j m hj }

theorem inv_insert (h : Inv d s) {i n : Nat} {message : TrueSealMessage}
    (hp : s.onMessage i = .fetched n message) (hc : s.pending.closed = false) :
    Inv d (s.insert i n message) := by
  have hi : (s.onMessage i).early = true := by rw [hp]; rfl
  obtain ⟨hmap, hcall⟩ := h.early_owns hi
  -- the key is free, so no sender is overwritten and dropped
  have hfree := h.lookup_fetched hp
  have hcell : (s.insert i n message).cells = s.cells := by
    show dropSender s.cells (s.pending.senders.lookup n) = s.cells
    rw [hfree]
    rfl
  have hlook : ∀ m, (s.insert i n message).pending.senders.lookup m =
      if m = n then some i else s.pending.senders.lookup m := fun m => lookup_insert_apply m n i _
  have hdrawn : ∀ j, ((s.insert i n message).onMessage j).drawn = (s.onMessage j).drawn := fun j => by
    rw [State.insert_onMessage]
    exact read_update OnMessage.drawn (by rw [hp]; rfl) j
  exact { h with
    issued := fun j k hj => h.issued j k (hdrawn j ▸ hj)
    unique := fun j k m hj hk => h.unique j k m (hdrawn j ▸ hj) (hdrawn k ▸ hk)
    mapped := fun m j hl => by
      rw [hlook] at hl
      rw [hcell]
      split at hl
      · rename_i hm
        cases hl
        subst hm
        simp only [State.insert_onMessage, if_true]
        exact ⟨rfl, h.early i hi⟩
      · have hne : j ≠ i := fun e => hmap m (e ▸ hl)
        simp only [State.insert_onMessage, hne, if_false]
        exact h.mapped m j hl
    held := fun c x e j hc' => by
      have hne : j ≠ i := fun he => hcall c x e (he ▸ hc')
      obtain ⟨h1, h2, h3, h4⟩ := h.held c x e j hc'
      -- the key of the held sender is another one: ids are unique
      have hx : x.toU64 ≠ n := fun he =>
        hne (h.unique j i n (he ▸ h1) (by rw [hp]; rfl))
      rw [hcell, hdrawn, hlook, if_neg hx]
      simp only [State.insert_onMessage, hne, if_false]
      exact ⟨h1, h2, h3, h4⟩
    early := fun j hj => by
      rw [hcell]
      by_cases hne : j = i
      · simp [hne, OnMessage.early] at hj
      · simp only [State.insert_onMessage, hne, if_false] at hj
        exact h.early j hj
    placed := fun j m hj => by
      rw [hcell, hlook]
      by_cases hne : j = i
      · simp only [State.insert_onMessage, hne, if_true] at hj
        cases hj
        exact Or.inl (by rw [if_pos rfl, hne])
      · simp only [State.insert_onMessage, hne, if_false] at hj
        have hm : m ≠ n := fun he =>
          hne (h.unique j i n (he ▸ drawn_of_slot hj) (by rw [hp]; rfl))
        rw [if_neg hm]
        exact h.placed j m hj
    closed := fun he => by
      have hf : s.pending.closed = true := he
      rw [hc] at hf
      cases hf }

/-- The final remove drops no sender but the invocation's own. -/
theorem Inv.finish_cells (h : Inv d s) {i n j : Nat} (hi : (s.onMessage i).drawn = some n)
    (hj : j ≠ i) : dropSender s.cells (s.pending.senders.lookup n) j = s.cells j := by
  cases hl : s.pending.senders.lookup n with
  | none => rfl
  | some k =>
      obtain rfl := h.lookup_own hi hl
      exact Oneshot.drop_ne s.cells hj

theorem inv_finish (h : Inv d s) {i n : Nat} {r : AckResult} (hp : s.onMessage i = .settled n r) :
    Inv d (s.finish i n r) := by
  have hi : (s.onMessage i).drawn = some n := by rw [hp]; rfl
  have hcell : ∀ j, j ≠ i → (s.finish i n r).cells j = s.cells j := fun j => h.finish_cells hi
  have hlook : ∀ m, (s.finish i n r).pending.senders.lookup m =
      if m = n then none else s.pending.senders.lookup m := fun m => lookup_erase_apply m n _
  have hdrawn : ∀ j, ((s.finish i n r).onMessage j).drawn = (s.onMessage j).drawn := fun j => by
    rw [State.finish_onMessage]
    exact read_update OnMessage.drawn (by rw [hp]; rfl) j
  have hearly : ∀ j, ((s.finish i n r).onMessage j).early = (s.onMessage j).early := fun j => by
    rw [State.finish_onMessage]
    exact read_update OnMessage.early (by rw [hp]; rfl) j
  exact { h with
    issued := fun j k hj => h.issued j k (hdrawn j ▸ hj)
    unique := fun j k m hj hk => h.unique j k m (hdrawn j ▸ hj) (hdrawn k ▸ hk)
    mapped := fun m j hl => by
      rw [hlook] at hl
      split at hl
      · cases hl
      · rename_i hm
        -- the sender of `i` sat under `n` only
        have hne : j ≠ i := fun e =>
          hm (Option.some.inj ((drawn_of_slot (h.mapped m i (e ▸ hl)).1).symm.trans hi))
        rw [hcell j hne]
        simp only [State.finish_onMessage, hne, if_false]
        exact h.mapped m j hl
    held := fun c x e j hc => by
      obtain ⟨h1, h2, h3, h4⟩ := h.held c x e j hc
      rw [hdrawn, hearly, hlook, h4]
      refine ⟨h1, h2, ?_, ite_self none⟩
      by_cases hne : j = i
      · -- the call holds the sender of `i`, so the remove finds nothing to drop
        subst hne
        obtain rfl : n = x.toU64 := Option.some.inj (hi.symm.trans h1)
        show dropSender s.cells (s.pending.senders.lookup x.toU64) j = .empty
        rw [h4]
        exact h3
      · rw [hcell j hne]
        exact h3
    early := fun j hj => by
      rw [hearly] at hj
      have hne : j ≠ i := by
        intro he
        subst he
        rw [hp] at hj
        cases hj
      rw [hcell j hne]
      exact h.early j hj
    placed := fun j m hj => by
      by_cases hne : j = i
      · simp [hne, OnMessage.slot] at hj
      · simp only [State.finish_onMessage, hne, if_false] at hj
        have hm : m ≠ n := fun he => hne (h.unique j i n (he ▸ drawn_of_slot hj) hi)
        rw [hcell j hne, hlook, if_neg hm]
        exact h.placed j m hj
    closed := fun he => ⟨(h.closed he).1, erase_of_empty (h.closed he).2 n⟩ }

/-- A call that has not started is none that holds a sender. -/
theorem ne_of_idle {c c' i : Nat} {x : Binary64} {e : Option String} (hp : s.complete c = .idle)
    (hc : s.complete c' = .sending x e i) : c' ≠ c := by
  intro he
  rw [he, hp] at hc
  cases hc

theorem inv_take (h : Inv d s) {c j : Nat} {x : Binary64} {e : Option String}
    (hp : s.complete c = .idle) (hl : s.pending.senders.lookup x.toU64 = some j) :
    Inv d (s.take c x e j) := by
  obtain ⟨hj, hcell⟩ := h.mapped _ _ hl
  have hlook : ∀ m, (s.take c x e j).pending.senders.lookup m =
      if m = x.toU64 then none else s.pending.senders.lookup m := fun m => lookup_erase_apply m _ _
  -- no other call holds the sender: it was in the map
  have hfree : ∀ c' x' e', s.complete c' ≠ .sending x' e' j := fun c' x' e' hc' => by
    obtain ⟨h1, _, _, h4⟩ := h.held c' x' e' j hc'
    rw [Option.some.inj ((drawn_of_slot hj).symm.trans h1)] at hl
    rw [h4] at hl
    cases hl
  exact { h with
    mapped := fun m k hm => by
      rw [hlook] at hm
      split at hm
      · cases hm
      · exact h.mapped m k hm
    held := fun c' x' e' k hc' => by
      simp only [State.take_complete] at hc'
      rw [hlook]
      split at hc'
      · cases hc'
        exact ⟨drawn_of_slot hj, early_of_slot hj, hcell, if_pos rfl⟩
      · obtain ⟨h1, h2, h3, h4⟩ := h.held c' x' e' k hc'
        rw [h4]
        exact ⟨h1, h2, h3, ite_self none⟩
    heldOnce := fun c₁ c₂ x₁ x₂ e₁ e₂ k h1 h2 => by
      simp only [State.take_complete] at h1 h2
      split at h1 <;> split at h2
      · simp [*]
      · cases h1; exact absurd h2 (hfree c₂ x₂ e₂)
      · cases h2; exact absurd h1 (hfree c₁ x₁ e₁)
      · exact h.heldOnce c₁ c₂ x₁ x₂ e₁ e₂ k h1 h2
    placed := fun k m hk => by
      rcases h.placed k m hk with hm | ⟨c', x', e', hc'⟩ | hr
      · by_cases hmx : m = x.toU64
        · subst hmx
          obtain rfl : j = k := Option.some.inj (hl.symm.trans hm)
          exact Or.inr (Or.inl ⟨c, x, e, by simp⟩)
        · exact Or.inl (by rw [hlook, if_neg hmx]; exact hm)
      · have hne : c' ≠ c := ne_of_idle hp hc'
        exact Or.inr (Or.inl ⟨c', x', e', by simp [hne, hc']⟩)
      · exact Or.inr (Or.inr hr)
    closed := fun he => ⟨(h.closed he).1, erase_of_empty (h.closed he).2 _⟩ }

theorem inv_miss (h : Inv d s) {c : Nat} (hp : s.complete c = .idle) :
    Inv d (s.setComplete c .done) := by
  have hback : ∀ c' x e k, (s.setComplete c .done).complete c' = .sending x e k →
      s.complete c' = .sending x e k := fun c' x e k hc' => by
    simp only [State.setComplete_complete] at hc'
    split at hc'
    · cases hc'
    · exact hc'
  exact { h with
    held := fun c' x e k hc' => h.held c' x e k (hback c' x e k hc')
    heldOnce := fun c₁ c₂ x₁ x₂ e₁ e₂ k h1 h2 =>
      h.heldOnce c₁ c₂ x₁ x₂ e₁ e₂ k (hback _ _ _ _ h1) (hback _ _ _ _ h2)
    placed := fun k m hk => by
      rcases h.placed k m hk with hm | ⟨c', x', e', hc'⟩ | hr
      · exact Or.inl hm
      · have hne : c' ≠ c := ne_of_idle hp hc'
        exact Or.inr (Or.inl ⟨c', x', e', by simp [hne, hc']⟩)
      · exact Or.inr (Or.inr hr) }

theorem inv_sendOutcome (h : Inv d s) {c j : Nat} {x : Binary64} {e : Option String}
    (hp : s.complete c = .sending x e j) : Inv d (s.sendOutcome c e j) := by
  obtain ⟨hj, hj', _, hl⟩ := h.held c x e j hp
  -- what still owns a sender after the step is another invocation than `j`
  have hother : ∀ c' x' e' k, (s.sendOutcome c e j).complete c' = .sending x' e' k →
      s.complete c' = .sending x' e' k ∧ k ≠ j := fun c' x' e' k hc' => by
    simp only [State.sendOutcome_complete] at hc'
    split at hc'
    · cases hc'
    · rename_i hne
      exact ⟨hc', fun he => hne (h.heldOnce c' c x' x e' e j (he ▸ hc') hp)⟩
  exact { h with
    mapped := fun m k hm => by
      have hne : k ≠ j := by
        intro he
        subst he
        have := Option.some.inj ((drawn_of_slot (h.mapped m k hm).1).symm.trans hj)
        subst this
        exact absurd (hm.symm.trans hl) (by simp)
      simp only [State.sendOutcome_cells, hne, if_false]
      exact h.mapped m k hm
    held := fun c' x' e' k hc' => by
      obtain ⟨hc, hne⟩ := hother c' x' e' k hc'
      simp only [State.sendOutcome_cells, hne, if_false]
      exact h.held c' x' e' k hc
    heldOnce := fun c₁ c₂ x₁ x₂ e₁ e₂ k h1 h2 =>
      h.heldOnce c₁ c₂ x₁ x₂ e₁ e₂ k (hother _ _ _ _ h1).1 (hother _ _ _ _ h2).1
    early := fun k hk => by
      have hne : k ≠ j := by
        intro he
        subst he
        exact absurd (hk.symm.trans hj') (by simp)
      simp only [State.sendOutcome_cells, hne, if_false]
      exact h.early k hk
    placed := fun k m hk => by
      by_cases hne : k = j
      · exact Or.inr (Or.inr ⟨outcome e, by simp [hne]⟩)
      · rcases h.placed k m hk with hm | ⟨c', x', e', hc'⟩ | ⟨r, hr⟩
        · exact Or.inl hm
        · have hcc : c' ≠ c := by
            intro he
            subst he
            rw [hp] at hc'
            cases hc'
            exact hne rfl
          exact Or.inr (Or.inl ⟨c', x', e', by simp [hcc, hc']⟩)
        · exact Or.inr (Or.inr ⟨r, by simp [hne, hr]⟩) }

theorem inv_innerClose (h : Inv d s) (k : Nat) : Inv d (s.innerClose k) :=
  { h with
    closing := fun _ _ => rfl
    closed := fun he => ⟨rfl, (h.closed he).2⟩ }

theorem inv_closeDrain (h : Inv d s) {k : Nat} (hp : s.close k = .innerClosed) :
    Inv d (s.closeDrain k) := by
  have hinner : s.innerClosed = true := h.closing k (by rw [hp]; nofun)
  have hkeep : ∀ i, (∀ n, s.pending.senders.lookup n ≠ some i) →
      (s.closeDrain k).cells i = s.cells i := fun i hi =>
    (drained_cells s i).trans (if_neg fun hm => by
      obtain ⟨n, hn⟩ := mem_waiting.mp hm
      exact hi n hn)
  exact { h with
    mapped := fun n i hl => by
      have hl' : (∅ : AList fun _ : Nat => Nat).lookup n = some i := hl
      rw [AList.lookup_empty] at hl'
      cases hl'
    held := fun c x e i hc => by
      obtain ⟨h1, h2, h3, h4⟩ := h.held c x e i hc
      refine ⟨h1, h2, ?_, AList.lookup_empty _⟩
      rw [hkeep i fun n hn => ?_]
      · exact h3
      · have := Option.some.inj ((drawn_of_slot (h.mapped n i hn).1).symm.trans h1)
        subst this
        exact absurd (hn.symm.trans h4) (by simp)
    early := fun i hi => by
      rw [hkeep i (h.early_owns hi).1]
      exact h.early i hi
    placed := fun i n hi => by
      by_cases hm : i ∈ s.pending.waiting
      · exact Or.inr (Or.inr ⟨.ok (), (drained_cells s i).trans (if_pos hm)⟩)
      · have hno : ∀ m, s.pending.senders.lookup m ≠ some i := fun m hl =>
          hm (mem_waiting.mpr ⟨m, hl⟩)
        rcases h.placed i n hi with hl | hc | ⟨r, hr⟩
        · exact absurd hl (hno n)
        · exact Or.inr (Or.inl hc)
        · exact Or.inr (Or.inr ⟨r, (hkeep i hno).trans hr⟩)
    closing := fun _ _ => hinner
    closed := fun _ => ⟨hinner, rfl⟩ }

/-- **One step keeps the invariant**, as long as the counter has not wrapped. -/
theorem inv_step {a : Action} {s' : State} (h : Inv d s) (hs : Step s a s')
    (hd : d + deliveries [a] ≤ u64Size) : Inv (d + deliveries [a]) s' := by
  cases hs with
  | fetchAdd i message hp => exact inv_fetchAdd h hd hp
  | abandon i n message hp hc => exact inv_abandon h hp
  | insert i n message hp hc => exact inv_insert h hp hc
  | dispatch i n message hp =>
      have h' := inv_setOnMessage (q := .awaiting n) h (by rw [hp]; rfl) rfl
      exact { h' with }
  | refuse i n message debug hp => exact inv_setOnMessage h (by rw [hp]; rfl) rfl
  | recv i n r hp hr => exact inv_setOnMessage h (by rw [hp]; rfl) rfl
  | recvDropped i n hp hr => exact inv_setOnMessage h (by rw [hp]; rfl) rfl
  | finish i n r hp => exact inv_finish h hp
  | take c ackId error j hp hl => exact inv_take h hp hl
  | miss c ackId error hp hl => exact inv_miss h hp
  | sendOutcome c ackId error j hp => exact inv_sendOutcome h hp
  | innerClose k hp => exact inv_innerClose h k
  | closeDrain k hp => exact inv_closeDrain h hp

end Steps

/-! ## 3. Along a run -/

theorem deliveries_append (tr tr' : List Action) :
    deliveries (tr ++ tr') = deliveries tr + deliveries tr' :=
  List.countP_append

/-- **The invariant at the end of every run with at most `2^64` deliveries.** -/
theorem inv_run {tr : List Action} {s : State} (h : machine.Run tr s)
    (hd : deliveries tr ≤ u64Size) : Inv (deliveries tr) s := by
  induction h using System.Run.induct with
  | start => exact inv_init
  | snoc tr s a s' h hs ih =>
      rw [deliveries_append] at hd ⊢
      exact inv_step (ih (by omega)) (step_cases hs) hd

/-- At every point of such a run too. -/
theorem inv_before {tr rest : List Action} {s : State} (h : machine.Run tr s)
    (hd : deliveries (tr ++ rest) ≤ u64Size) : Inv (deliveries tr) s := by
  rw [deliveries_append] at hd
  exact inv_run h (by omega)

/-- **The invariant, and what every step preserves under it**, after any further actions. -/
theorem stable_exec {P : State → Prop}
    (hP : ∀ d s a s', Inv d s → P s → Step s a s' → P s') {d : Nat} {tr : List Action} {s s' : State}
    (hI : Inv d s) (h : machine.exec s tr = some s') (hd : d + deliveries tr ≤ u64Size) (hp : P s) :
    Inv (d + deliveries tr) s' ∧ P s' := by
  induction tr using List.reverseRecOn generalizing s' with
  | nil =>
      cases h
      exact ⟨hI, hp⟩
  | append_singleton tr a ih =>
      obtain ⟨u, hu, hst⟩ := machine.exec_concat.mp h
      rw [deliveries_append] at hd
      obtain ⟨hIu, hpu⟩ := ih hu (by omega)
      rw [deliveries_append, ← Nat.add_assoc]
      exact ⟨inv_step hIu (step_cases hst) (by omega), hP _ u a s' hIu hpu (step_cases hst)⟩

/-- What every step preserves under the invariant is true at every later point of a run. -/
theorem stable_run {P : State → Prop}
    (hP : ∀ d s a s', Inv d s → P s → Step s a s' → P s') {tr rest : List Action} {t s : State}
    (ht : machine.Run tr t) (h : machine.Run (tr ++ rest) s)
    (hd : deliveries (tr ++ rest) ≤ u64Size) (hp : P t) : P s := by
  obtain ⟨t', ht', hex⟩ := h.split
  obtain rfl := ht.unique ht'
  have hI := inv_before ht hd
  rw [deliveries_append] at hd
  exact (stable_exec hP hI hex hd hp).2

end TrueSealSync.Native
