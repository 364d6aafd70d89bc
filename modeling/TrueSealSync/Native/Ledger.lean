/-
  File:      TrueSealSync/Native/Ledger.lean
  Subject:   WHAT THE PENDING-ACK MACHINE IS FOR: a ledger with one entry for each delivery, and
             the machine refines it.

  The ledger has no ack ids, no map, no oneshots and no critical sections. Each invocation has an
  entry of its own, and an answer goes to the entry at once:

  * `arrive i m`, `enter i` -- a message comes in; the open session posts it, the closed one
    returns `Ok(())`;
  * `offer i`, `refuse i debug` -- JavaScript accepted the delivery, or the call was refused;
  * `answer i r` -- the handler's answer, for an entry that has none yet;
  * `settle i`, `giveBack i` -- the entry's result is fixed, and it is returned;
  * `close` -- every open entry is answered with `Ok(())`.

  The instant a `complete_message` call removes a sender is the instant of the answer: sending it
  on later is internal. `Refines` relates the states.

  * `machine_refines` -- every run with at most `2^64` deliveries is matched by the ledger, event by
    event (`matched_of_step`);
  * `machine_realizes` -- and back: the machine shows everything the ledger allows, as long as ack
    ids are exact in a double (`realized_of_step`);
  * `returned_by_events` -- so the result of an invocation is a function of the events
    (`verdict`), whatever else interleaves.
-/
import TrueSealSync.Lib.Simulation
import TrueSealSync.Native.Routing

namespace TrueSealSync.Native

open TrueSealSync.Lib

/-! ## 1. The ledger -/

/-- The entry of one delivery. -/
inductive Entry where
  | absent
  | arrived (message : TrueSealMessage)
  /-- admitted, not offered to JavaScript yet -/
  | posted (message : TrueSealMessage) (answer : Option AckResult)
  /-- JavaScript has the delivery -/
  | offered (answer : Option AckResult)
  | decided (result : AckResult)
  | returned (result : Except HandlerError Unit)
  deriving DecidableEq

/-- The ledger: the entries, the deliveries JavaScript accepted, in order, and the flag. -/
structure Ledger where
  closed : Bool := false
  entry : Nat → Entry := fun _ => .absent
  offers : List (Nat × TrueSealMessage) := []

inductive LedgerAction where
  | arrive (i : Nat) (message : TrueSealMessage)
  | enter (i : Nat)
  | offer (i : Nat)
  | refuse (i : Nat) (debug : String)
  | answer (i : Nat) (result : AckResult)
  | settle (i : Nat)
  | giveBack (i : Nat)
  | close
  deriving DecidableEq

/-- The answer an entry has, once `result` is offered to it: the first one stays. -/
def Entry.answered (result : AckResult) : Entry → Entry
  | .posted message none => .posted message (some result)
  | .offered none => .offered (some result)
  | e => e

/-- The entry waits for an answer. -/
def Entry.waits : Entry → Bool
  | .posted _ none | .offered none => true
  | _ => false

namespace Ledger

/-- Set one entry. -/
def set (l : Ledger) (i : Nat) (e : Entry) : Ledger :=
  { l with entry := Function.update l.entry i e }

@[simp] theorem set_entry (l : Ledger) (i j : Nat) (e : Entry) :
    (l.set i e).entry j = if j = i then e else l.entry j :=
  Function.update_apply ..

@[simp] theorem set_closed (l : Ledger) (i : Nat) (e : Entry) : (l.set i e).closed = l.closed := rfl

@[simp] theorem set_offers (l : Ledger) (i : Nat) (e : Entry) : (l.set i e).offers = l.offers := rfl

/-- The effect of one action, `none` where the entry is not at it. -/
def step (l : Ledger) : LedgerAction → Option Ledger
  | .arrive i message =>
      match l.entry i with
      | .absent => some (l.set i (.arrived message))
      | _ => none
  | .enter i =>
      match l.entry i with
      | .arrived message =>
          some (l.set i (if l.closed then .returned (.ok ()) else .posted message none))
      | _ => none
  | .offer i =>
      match l.entry i with
      | .posted message answer =>
          some { l.set i (.offered answer) with offers := l.offers ++ [(i, message)] }
      | _ => none
  | .refuse i debug =>
      match l.entry i with
      | .posted _ _ => some (l.set i (.decided (.error (dispatchFailed debug))))
      | _ => none
  | .answer i result =>
      if (l.entry i).waits then some (l.set i ((l.entry i).answered result)) else none
  | .settle i =>
      match l.entry i with
      | .offered (some r) => some (l.set i (.decided r))
      | _ => none
  | .giveBack i =>
      match l.entry i with
      | .decided r => some (l.set i (.returned (handlerResult r)))
      | _ => none
  | .close => some { l with closed := true, entry := fun i => (l.entry i).answered (.ok ()) }

end Ledger

/-- **The ledger as a transition system.** -/
def ledger : System Ledger LedgerAction := ⟨{}, Ledger.step⟩

/-! ## 2. What both show -/

/-- What can be seen of a run from outside: the messages that come in, what `tsfn.call` answers,
    the answers that reach a delivery, what is returned, and the closings. -/
inductive Event where
  | arrived (i : Nat) (message : TrueSealMessage)
  | offered (i : Nat)
  | refused (i : Nat) (debug : String)
  | answered (i : Nat) (result : AckResult)
  | returned (i : Nat) (result : Except HandlerError Unit)
  | closed
  deriving DecidableEq

/-- The event of an action of the ledger. -/
def Ledger.event (l : Ledger) : LedgerAction → Option Event
  | .arrive i message => some (.arrived i message)
  | .enter i => if l.closed then some (.returned i (.ok ())) else none
  | .offer i => some (.offered i)
  | .refuse i debug => some (.refused i debug)
  | .answer i result => some (.answered i result)
  | .settle _ => none
  | .giveBack i =>
      match l.entry i with
      | .decided r => some (.returned i (handlerResult r))
      | _ => none
  | .close => some .closed

/-- The event of an action of the machine. A completion is one where it removes the sender of a
    delivery whose result is not computed yet. -/
def State.event (s : State) : Action → Option Event
  | .fetchAdd i message => some (.arrived i message)
  | .insert i => if s.pending.closed then some (.returned i (.ok ())) else none
  | .call i .ok => some (.offered i)
  | .call i (.other debug) => some (.refused i debug)
  | .recv _ => none
  | .remove i =>
      match s.onMessage i with
      | .settled _ r => some (.returned i (handlerResult r))
      | _ => none
  | .completeRemove _ ackId error =>
      match s.pending.senders.lookup ackId.toU64 with
      | some j => if (s.onMessage j).undecided then some (.answered j (outcome error)) else none
      | none => none
  | .completeSend _ => none
  | .innerClose _ => none
  | .closeDrain _ => some .closed

/-- The actions of the ledger that stand for an action of the machine: one, or none where the
    action is internal. -/
def State.entries (s : State) : Action → List LedgerAction
  | .fetchAdd i message => [.arrive i message]
  | .insert i => [.enter i]
  | .call i .ok => [.offer i]
  | .call i (.other debug) => [.refuse i debug]
  | .recv i => [.settle i]
  | .remove i => [.giveBack i]
  | .completeRemove _ ackId error =>
      match s.pending.senders.lookup ackId.toU64 with
      | some j => if (s.onMessage j).undecided then [.answer j (outcome error)] else []
      | none => []
  | .completeSend _ => []
  | .innerClose _ => []
  | .closeDrain _ => [.close]

/-! ## 3. The relation -/

/-- The answer the machine has for `i`: none while the sender is in the map; the outcome of the
    `complete_message` call that holds the sender; what was sent. -/
inductive AnswerOf (s : State) (i : Nat) : Option AckResult → Prop where
  | mapped (n : Nat) (h : s.pending.senders.lookup n = some i) : AnswerOf s i none
  | held (c : Nat) (x : Binary64) (e : Option String) (h : s.complete c = .sending x e i) :
      AnswerOf s i (some (outcome e))
  | sent (r : AckResult) (h : s.cells i = .sent r) : AnswerOf s i (some r)

/-- The entry of an invocation at a position. -/
inductive EntryOf (s : State) (i : Nat) : OnMessage → Entry → Prop where
  | idle : EntryOf s i .idle .absent
  | fetched (n : Nat) (message : TrueSealMessage) :
      EntryOf s i (.fetched n message) (.arrived message)
  | inserted (n : Nat) (message : TrueSealMessage) (a : Option AckResult) (h : AnswerOf s i a) :
      EntryOf s i (.inserted n message) (.posted message a)
  | awaiting (n : Nat) (a : Option AckResult) (h : AnswerOf s i a) :
      EntryOf s i (.awaiting n) (.offered a)
  | settled (n : Nat) (r : AckResult) : EntryOf s i (.settled n r) (.decided r)
  | returned (n : Nat) (r : Except HandlerError Unit) : EntryOf s i (.returned n r) (.returned r)

/-- **The machine's state refines the ledger's**: the flag, every entry, and every accepted
    delivery, which carries the ack id of its own invocation. -/
structure Refines (s : State) (l : Ledger) : Prop where
  closed : l.closed = s.pending.closed
  entry : ∀ i, EntryOf s i (s.onMessage i) (l.entry i)
  offers : List.Forall₂ (fun (d : MessageDelivery) (o : Nat × TrueSealMessage) =>
    ∃ n, (s.onMessage o.1).drawn = some n ∧ d = delivery o.2 n) s.queue l.offers

/-- The entry of an invocation whose position is known. -/
theorem Refines.entry_at {s : State} {l : Ledger} (h : Refines s l) {i : Nat} {p : OnMessage}
    (hp : s.onMessage i = p) : EntryOf s i p (l.entry i) :=
  hp ▸ h.entry i

section Entries

variable {s : State} {i n : Nat} {message : TrueSealMessage} {r : AckResult} {e : Entry}

theorem EntryOf.of_idle (h : EntryOf s i .idle e) : e = .absent := by
  cases h
  rfl

theorem EntryOf.of_fetched (h : EntryOf s i (.fetched n message) e) : e = .arrived message := by
  cases h
  rfl

theorem EntryOf.of_inserted (h : EntryOf s i (.inserted n message) e) :
    ∃ a, e = .posted message a ∧ AnswerOf s i a := by
  cases h with
  | inserted _ _ a ha => exact ⟨a, rfl, ha⟩

theorem EntryOf.of_awaiting (h : EntryOf s i (.awaiting n) e) :
    ∃ a, e = .offered a ∧ AnswerOf s i a := by
  cases h with
  | awaiting _ a ha => exact ⟨a, rfl, ha⟩

theorem EntryOf.of_settled (h : EntryOf s i (.settled n r) e) : e = .decided r := by
  cases h
  rfl

end Entries

/-! ## 4. The answer of an invocation -/

section Answers

variable {d : Nat} {s s' : State} {i : Nat} {a b : Option AckResult}

/-- An invocation whose sender a `complete_message` call holds has it nowhere else. -/
theorem held_not_mapped (hI : Inv d s) {c n : Nat} {x : Binary64} {e : Option String}
    (hc : s.complete c = .sending x e i) : s.pending.senders.lookup n ≠ some i := by
  obtain ⟨hdrawn, -, -, hfree⟩ := hI.held c x e i hc
  intro hl
  obtain rfl := Option.some.inj ((drawn_of_slot (hI.mapped n i hl).1).symm.trans hdrawn)
  rw [hfree] at hl
  cases hl

/-- **An invocation has one answer at a time.** -/
theorem AnswerOf.unique (hI : Inv d s) (ha : AnswerOf s i a) (hb : AnswerOf s i b) : a = b := by
  cases ha with
  | mapped n hl =>
      cases hb with
      | mapped => rfl
      | held c x e hc => exact absurd hl (held_not_mapped hI hc)
      | sent r hr =>
          rw [(hI.mapped n i hl).2] at hr
          cases hr
  | held c x e hc =>
      cases hb with
      | mapped n hl => exact absurd hl (held_not_mapped hI hc)
      | held c' x' e' hc' =>
          obtain rfl := hI.heldOnce c c' x x' e e' i hc hc'
          rw [hc] at hc'
          cases hc'
          rfl
      | sent r hr =>
          rw [(hI.held c x e i hc).2.2.1] at hr
          cases hr
  | sent r hr =>
      cases hb with
      | mapped n hl =>
          rw [(hI.mapped n i hl).2] at hr
          cases hr
      | held c x e hc =>
          rw [(hI.held c x e i hc).2.2.1] at hr
          cases hr
      | sent r' hr' =>
          rw [hr] at hr'
          cases hr'
          rfl

/-- The answer stays where the sender and the cell stay. -/
theorem AnswerOf.frame (h : AnswerOf s i a)
    (hmap : ∀ n, s.pending.senders.lookup n = some i → s'.pending.senders.lookup n = some i)
    (hheld : ∀ c x e, s.complete c = .sending x e i → s'.complete c = .sending x e i)
    (hcell : s'.cells i = s.cells i) : AnswerOf s' i a := by
  cases h with
  | mapped n hl => exact .mapped n (hmap n hl)
  | held c x e hc => exact .held c x e (hheld c x e hc)
  | sent r hr => exact .sent r (hcell.trans hr)

theorem EntryOf.frame {p : OnMessage} {e : Entry} (h : EntryOf s i p e)
    (hans : ∀ a, AnswerOf s i a → AnswerOf s' i a) : EntryOf s' i p e := by
  cases h with
  | idle => exact .idle
  | fetched n message => exact .fetched n message
  | inserted n message a ha => exact .inserted n message a (hans a ha)
  | awaiting n a ha => exact .awaiting n a (hans a ha)
  | settled n r => exact .settled n r
  | returned n r => exact .returned n r

/-- An open invocation gets its answer: the entry is answered, the position stays. -/
theorem EntryOf.answer {p : OnMessage} {e : Entry} {r : AckResult} (hI : Inv d s)
    (h : EntryOf s i p e) (hno : AnswerOf s i none) (hyes : AnswerOf s' i (some r)) :
    EntryOf s' i p (e.answered r) := by
  cases h with
  | idle => exact .idle
  | fetched n message => exact .fetched n message
  | inserted n message a ha =>
      obtain rfl := ha.unique hI hno
      exact .inserted n message (some r) hyes
  | awaiting n a ha =>
      obtain rfl := ha.unique hI hno
      exact .awaiting n (some r) hyes
  | settled n r' => exact .settled n r'
  | returned n r' => exact .returned n r'

/-- An entry that has its answer keeps it when another one comes. -/
theorem EntryOf.keep {p : OnMessage} {e : Entry} {r : AckResult} (h : EntryOf s i p e)
    (hno : ¬ AnswerOf s i none) : e.answered r = e := by
  cases h with
  | inserted n message a ha =>
      cases a with
      | none => exact absurd ha hno
      | some r' => rfl
  | awaiting n a ha =>
      cases a with
      | none => exact absurd ha hno
      | some r' => rfl
  | _ => rfl

end Answers

/-! ## 5. The machine refines the ledger -/

section Forward

variable {d : Nat} {s s' : State} {l : Ledger} {a : Action}

/-- The actions `tr` of the ledger lead to a ledger that `s'` refines, and show what is shown. -/
def Matched (l : Ledger) (s' : State) (tr : List LedgerAction) (shown : Option Event) : Prop :=
  ∃ l', ledger.exec l tr = some l' ∧ Refines s' l' ∧
    ledger.observed Ledger.event l tr = shown.toList

/-- By one action. -/
theorem matched_step {l' : Ledger} (b : LedgerAction) (hst : l.step b = some l')
    (hR : Refines s' l') : Matched l s' [b] (l.event b) :=
  ⟨l', ledger.exec_single.mpr hst, hR,
    ledger.observed_single Ledger.event hst⟩

/-- By none. -/
theorem matched_internal (hR : Refines s' l) : Matched l s' [] none :=
  ⟨l, rfl, hR, rfl⟩

/-- The accepted deliveries keep the ids they carry. -/
theorem offers_step (h : Refines s l) (hs : Step s a s') (hq : s'.queue = s.queue) :
    List.Forall₂ (fun (d : MessageDelivery) (o : Nat × TrueSealMessage) =>
      ∃ n, (s'.onMessage o.1).drawn = some n ∧ d = delivery o.2 n) s'.queue l.offers := by
  rw [hq]
  refine h.offers.imp fun d o hd => ?_
  obtain ⟨n, hn, rfl⟩ := hd
  exact ⟨n, drawn_step hn hs, rfl⟩

/-- **One invocation moves** and its entry with it; the others keep position and answer. -/
theorem refines_move (h : Refines s l) (hs : Step s a s') {i : Nat} {e : Entry}
    (hclosed : s'.pending.closed = s.pending.closed) (hq : s'.queue = s.queue)
    (hpos : ∀ j, j ≠ i → s'.onMessage j = s.onMessage j)
    (hans : ∀ j, j ≠ i → ∀ a, AnswerOf s j a → AnswerOf s' j a)
    (hi : EntryOf s' i (s'.onMessage i) e) : Refines s' (l.set i e) where
  closed := h.closed.trans hclosed.symm
  entry j := by
    by_cases hj : j = i
    · subst hj
      simpa using hi
    · rw [hpos j hj, Ledger.set_entry, if_neg hj]
      exact (h.entry j).frame (hans j hj)
  offers := offers_step (l := l) h hs hq

theorem matched_fetchAdd (h : Refines s l) {i : Nat} {message : TrueSealMessage}
    (hp : s.onMessage i = .idle) :
    Matched l (s.fetchAdd i message) [.arrive i message] (some (.arrived i message)) := by
  have hi : l.entry i = .absent := (h.entry_at hp).of_idle
  refine matched_step (.arrive i message) (by simp [Ledger.step, hi]; rfl)
    (refines_move h (.fetchAdd i message hp) rfl rfl (fun j hj => by simp [hj]) (fun j _ a ha =>
      ha.frame (fun _ => id) (fun _ _ _ => id) rfl) ?_)
  simpa using .fetched s.nextAck message

theorem matched_insert (hI : Inv d s) (h : Refines s l) {i n : Nat} {message : TrueSealMessage}
    (hp : s.onMessage i = .fetched n message) (hc : s.pending.closed = false) :
    Matched l (s.insert i n message) [.enter i] none := by
  have hlc : l.closed = false := h.closed.trans hc
  have hi : l.entry i = .arrived message := (h.entry_at hp).of_fetched
  have hfree := hI.lookup_fetched hp
  have hev : l.event (.enter i) = none := by simp [Ledger.event, hlc]
  rw [← hev]
  refine matched_step (.enter i) (by simp [Ledger.step, hi, hlc]; rfl)
    (refines_move h (.insert i n message hp hc) rfl rfl (fun j hj => by simp [hj])
      (fun j hj a ha => ha.frame (fun m hm => ?_) (fun _ _ _ => id) ?_) ?_)
  · -- the key was free, so no other sender sat under it
    have hne : m ≠ n := by
      rintro rfl
      rw [hfree] at hm
      cases hm
    exact (lookup_insert_apply m n i _).trans ((if_neg hne).trans hm)
  · show dropSender s.cells (s.pending.senders.lookup n) j = s.cells j
    rw [hfree]
    rfl
  · simpa using .inserted n message none (.mapped n (AList.lookup_insert _))

theorem matched_abandon (h : Refines s l) {i n : Nat} {message : TrueSealMessage}
    (hp : s.onMessage i = .fetched n message) (hc : s.pending.closed = true) :
    Matched l (s.abandon i n) [.enter i] (some (.returned i (.ok ()))) := by
  have hlc : l.closed = true := h.closed.trans hc
  have hi : l.entry i = .arrived message := (h.entry_at hp).of_fetched
  have hev : l.event (.enter i) = some (.returned i (.ok ())) := by simp [Ledger.event, hlc]
  rw [← hev]
  refine matched_step (.enter i) (by simp [Ledger.step, hi, hlc]; rfl)
    (refines_move h (.abandon i n message hp hc) rfl rfl (fun j hj => by simp [hj])
      (fun j hj a ha => ha.frame (fun _ => id) (fun _ _ _ => id) (Oneshot.drop_ne s.cells hj)) ?_)
  simpa using .returned n (.ok ())

theorem matched_dispatch (h : Refines s l) {i n : Nat} {message : TrueSealMessage}
    (hp : s.onMessage i = .inserted n message) :
    Matched l (s.dispatch i n message) [.offer i] (some (.offered i)) := by
  obtain ⟨a, hi, ha⟩ := (h.entry_at hp).of_inserted
  have hs := Step.dispatch i n message hp
  have hst : l.step (.offer i) =
      some { l.set i (.offered a) with offers := l.offers ++ [(i, message)] } := by
    simp [Ledger.step, hi]
  refine matched_step (.offer i) hst ⟨h.closed, fun j => ?_, ?_⟩
  · by_cases hj : j = i
    · subst hj
      simpa using .awaiting n a (ha.frame (fun _ => id) (fun _ _ _ => id) rfl)
    · show EntryOf _ j ((s.dispatch i n message).onMessage j) ((l.set i (.offered a)).entry j)
      rw [State.dispatch_onMessage, if_neg hj, Ledger.set_entry, if_neg hj]
      exact (h.entry j).frame fun a ha => ha.frame (fun _ => id) (fun _ _ _ => id) rfl
  · -- the new delivery carries the id of `i`, the others keep theirs
    refine List.rel_append (h.offers.imp fun d o hd => ?_) (.cons ⟨n, ?_, rfl⟩ .nil)
    · obtain ⟨m, hm, rfl⟩ := hd
      exact ⟨m, drawn_step hm hs, rfl⟩
    · simp [OnMessage.drawn]

/-- A result is computed: nothing but the position of the invocation changes. -/
theorem refines_settle (h : Refines s l) {i n : Nat} {r : AckResult}
    (hs : Step s a (s.setOnMessage i (.settled n r))) :
    Refines (s.setOnMessage i (.settled n r)) (l.set i (.decided r)) := by
  refine refines_move h hs rfl rfl (fun j hj => by simp [hj])
    (fun j _ a ha => ha.frame (fun _ => id) (fun _ _ _ => id) rfl) ?_
  simpa using .settled n r

theorem matched_refuse (h : Refines s l) {i n : Nat} {message : TrueSealMessage} {debug : String}
    (hp : s.onMessage i = .inserted n message) :
    Matched l (s.setOnMessage i (.settled n (.error (dispatchFailed debug))))
      [.refuse i debug] (some (.refused i debug)) := by
  obtain ⟨a, hi, -⟩ := (h.entry_at hp).of_inserted
  exact matched_step (.refuse i debug) (by simp [Ledger.step, hi])
    (refines_settle h (.refuse i n message debug hp))

theorem matched_recv (hI : Inv d s) (h : Refines s l) {i n : Nat} {r : AckResult}
    (hp : s.onMessage i = .awaiting n) (hr : s.cells i = .sent r) :
    Matched l (s.setOnMessage i (.settled n r)) [.settle i] none := by
  obtain ⟨a, hi, ha⟩ := (h.entry_at hp).of_awaiting
  obtain rfl := ha.unique hI (.sent r hr)
  exact matched_step (.settle i) (by simp [Ledger.step, hi])
    (refines_settle h (.recv i n r hp hr))

theorem matched_finish (hI : Inv d s) (h : Refines s l) {i n : Nat} {r : AckResult}
    (hp : s.onMessage i = .settled n r) :
    Matched l (s.finish i n r) [.giveBack i] (some (.returned i (handlerResult r))) := by
  have hi : l.entry i = .decided r := (h.entry_at hp).of_settled
  have hdrawn : (s.onMessage i).drawn = some n := by rw [hp]; rfl
  have hev : l.event (.giveBack i) = some (.returned i (handlerResult r)) := by
    simp [Ledger.event, hi]
  rw [← hev]
  refine matched_step (.giveBack i) (by simp [Ledger.step, hi]; rfl)
    (refines_move h (.finish i n r hp) rfl rfl (fun j hj => by simp [hj]) (fun j hj a ha =>
      ha.frame (fun m hm => ?_) (fun _ _ _ => id) (hI.finish_cells hdrawn hj)) ?_)
  · -- the key removed is `i`'s own
    have hne : m ≠ n := fun he => hj (hI.lookup_own hdrawn (he ▸ hm))
    exact (lookup_erase_apply m n _).trans ((if_neg hne).trans hm)
  · simpa using .returned n (handlerResult r)

/-- Only the answers change, and each entry goes with them. -/
theorem Refines.of_answers (h : Refines s l) (hs : Step s a s')
    (hclosed : s'.pending.closed = s.pending.closed) (hq : s'.queue = s.queue)
    (hpos : s'.onMessage = s.onMessage)
    (hentry : ∀ j, EntryOf s j (s.onMessage j) (l.entry j) →
      EntryOf s' j (s.onMessage j) (l.entry j)) : Refines s' l where
  closed := h.closed.trans hclosed.symm
  entry j := by
    rw [hpos]
    exact hentry j (h.entry j)
  offers := offers_step h hs hq

/-- **A completion that removes a sender** is the answer of its delivery, unless `tsfn.call` was
    refused before. -/
theorem matched_take (hI : Inv d s) (h : Refines s l) {c j : Nat} {x : Binary64}
    {e : Option String} (hp : s.complete c = .idle)
    (hl : s.pending.senders.lookup x.toU64 = some j) :
    Matched l (s.take c x e j) (s.entries (.completeRemove c x e))
      (s.event (.completeRemove c x e)) := by
  have hs := Step.take c x e j hp hl
  have hno : AnswerOf s j none := .mapped x.toU64 hl
  have hyes : AnswerOf (s.take c x e j) j (some (outcome e)) := .held c x e (by simp)
  -- the sender of every other invocation stays where it is
  have hother : ∀ k, k ≠ j → ∀ a, AnswerOf s k a → AnswerOf (s.take c x e j) k a := by
    intro k hk a ha
    refine ha.frame (fun m hm => ?_) (fun c' x' e' hc' => ?_) rfl
    · have hne : m ≠ x.toU64 := by
        rintro rfl
        exact hk (Option.some.inj (hm.symm.trans hl))
      exact (lookup_erase_apply m _ _).trans ((if_neg hne).trans hm)
    · simp [ne_of_idle hp hc', hc']
  have hslot := (hI.mapped x.toU64 j hl).1
  cases hpos : s.onMessage j with
  | idle => rw [hpos] at hslot; cases hslot
  | fetched n message => rw [hpos] at hslot; cases hslot
  | returned n r => rw [hpos] at hslot; cases hslot
  | inserted n message =>
      obtain ⟨a, hi, ha⟩ := (h.entry_at hpos).of_inserted
      obtain rfl := ha.unique hI hno
      have hev : s.event (.completeRemove c x e) = l.event (.answer j (outcome e)) := by
        simp [State.event, hl, hpos, OnMessage.undecided, Ledger.event]
      have hen : s.entries (.completeRemove c x e) = [.answer j (outcome e)] := by
        simp [State.entries, hl, hpos, OnMessage.undecided]
      rw [hev, hen]
      exact matched_step _ (by simp [Ledger.step, hi, Entry.waits])
        (refines_move h hs rfl rfl (fun _ _ => rfl) hother ((h.entry j).answer hI hno hyes))
  | awaiting n =>
      obtain ⟨a, hi, ha⟩ := (h.entry_at hpos).of_awaiting
      obtain rfl := ha.unique hI hno
      have hev : s.event (.completeRemove c x e) = l.event (.answer j (outcome e)) := by
        simp [State.event, hl, hpos, OnMessage.undecided, Ledger.event]
      have hen : s.entries (.completeRemove c x e) = [.answer j (outcome e)] := by
        simp [State.entries, hl, hpos, OnMessage.undecided]
      rw [hev, hen]
      exact matched_step _ (by simp [Ledger.step, hi, Entry.waits])
        (refines_move h hs rfl rfl (fun _ _ => rfl) hother ((h.entry j).answer hI hno hyes))
  | settled n r =>
      -- the result is fixed already: the removed sender is of no use
      have hev : s.event (.completeRemove c x e) = none := by
        simp [State.event, hl, hpos, OnMessage.undecided]
      have hen : s.entries (.completeRemove c x e) = [] := by
        simp [State.entries, hl, hpos, OnMessage.undecided]
      rw [hev, hen]
      refine matched_internal (h.of_answers hs rfl rfl rfl fun k hk => ?_)
      by_cases hkj : k = j
      · subst hkj
        rw [hpos] at hk ⊢
        rw [hk.of_settled]
        exact .settled n r
      · exact hk.frame (hother k hkj)

theorem matched_miss (h : Refines s l) {c : Nat} {x : Binary64} {e : Option String}
    (hp : s.complete c = .idle) (hl : s.pending.senders.lookup x.toU64 = none) :
    Matched l (s.setComplete c .done) (s.entries (.completeRemove c x e))
      (s.event (.completeRemove c x e)) := by
  have hev : s.event (.completeRemove c x e) = none := by simp [State.event, hl]
  have hen : s.entries (.completeRemove c x e) = [] := by simp [State.entries, hl]
  rw [hev, hen]
  refine matched_internal (h.of_answers (.miss c x e hp hl) rfl rfl rfl fun k hk =>
    hk.frame fun a ha => ha.frame (fun _ => id) (fun c' x' e' hc' => ?_) rfl)
  simp [ne_of_idle hp hc', hc']

theorem matched_sendOutcome (hI : Inv d s) (h : Refines s l) {c j : Nat} {x : Binary64}
    {e : Option String} (hp : s.complete c = .sending x e j) :
    Matched l (s.sendOutcome c e j) [] none := by
  refine matched_internal (h.of_answers (.sendOutcome c x e j hp) rfl rfl rfl fun k hk =>
    hk.frame fun a ha => ?_)
  by_cases hkj : k = j
  · subst hkj
    obtain rfl := ha.unique hI (.held c x e hp)
    exact .sent (outcome e) (by simp)
  · refine ha.frame (fun _ => id) (fun c' x' e' hc' => ?_) (by simp [hkj])
    have hne : c' ≠ c := by
      rintro rfl
      rw [hp] at hc'
      cases hc'
      exact hkj rfl
    simp [hne, hc']

/-- **The critical section of a `close()`** answers every open entry, and no other. -/
theorem matched_closeDrain (hI : Inv d s) (h : Refines s l) {k : Nat}
    (hp : s.close k = .innerClosed) : Matched l (s.closeDrain k) [.close] (some .closed) := by
  have hs := Step.closeDrain k hp
  refine matched_step .close rfl ⟨rfl, fun j => ?_, offers_step (l := l) h hs rfl⟩
  show EntryOf (s.closeDrain k) j (s.onMessage j) ((l.entry j).answered (.ok ()))
  by_cases hw : j ∈ s.pending.waiting
  · obtain ⟨n, hn⟩ := mem_waiting.mp hw
    exact (h.entry j).answer hI (.mapped n hn)
      (.sent (.ok ()) ((drained_cells s j).trans (if_pos hw)))
  · have hno : ¬ AnswerOf s j none := by
      intro ha
      cases ha with
      | mapped n hn => exact hw (mem_waiting.mpr ⟨n, hn⟩)
    rw [(h.entry j).keep hno]
    exact (h.entry j).frame fun a ha => ha.frame (fun n hn => absurd (mem_waiting.mpr ⟨n, hn⟩) hw)
      (fun _ _ _ => id) ((drained_cells s j).trans (if_neg hw))

/-- **Every step is matched by the ledger.** -/
theorem matched_of_step (hI : Inv d s) (h : Refines s l) (hs : Step s a s') :
    Matched l s' (s.entries a) (s.event a) := by
  cases hs with
  | fetchAdd i message hp => exact matched_fetchAdd h hp
  | abandon i n message hp hc =>
      have hev : s.event (.insert i) = some (.returned i (.ok ())) := by simp [State.event, hc]
      exact hev ▸ matched_abandon h hp hc
  | insert i n message hp hc =>
      have hev : s.event (.insert i) = none := by simp [State.event, hc]
      exact hev ▸ matched_insert hI h hp hc
  | dispatch i n message hp => exact matched_dispatch h hp
  | refuse i n message debug hp => exact matched_refuse h hp
  | recv i n r hp hr => exact matched_recv hI h hp hr
  | recvDropped i n hp hr => exact absurd hr (hI.cells_ne_dropped (n := n) (by rw [hp]; rfl))
  | finish i n r hp =>
      have hev : s.event (.remove i) = some (.returned i (handlerResult r)) := by
        simp [State.event, hp]
      exact hev ▸ matched_finish hI h hp
  | take c x e j hp hl => exact matched_take hI h hp hl
  | miss c x e hp hl => exact matched_miss h hp hl
  | sendOutcome c x e j hp => exact matched_sendOutcome hI h hp
  | innerClose k hp =>
      exact matched_internal (h.of_answers (.innerClose k hp) rfl rfl rfl fun j hj =>
        hj.frame fun a ha => ha.frame (fun _ => id) (fun _ _ _ => id) rfl)
  | closeDrain k hp => exact matched_closeDrain hI h hp

theorem refines_init : Refines {} {} where
  closed := rfl
  entry _ := .idle
  offers := .nil

/-- The machine is simulated by the ledger while the counter does not wrap. -/
theorem machine_simulation : System.Simulation machine ledger State.event Ledger.event
    (fun tr => deliveries tr ≤ u64Size) (fun _ => Refines) where
  init := refines_init
  before tr a h := by
    rw [deliveries_append] at h
    omega
  step tr s a s' l hr hC hR hst := by
    rw [deliveries_append] at hC
    obtain ⟨l', hex, hR', hev⟩ := matched_of_step (inv_run hr (by omega)) hR (step_cases hst)
    exact ⟨_, l', hex, hR', hev⟩

/-- **The machine refines the ledger.** Every run with at most `2^64` deliveries shows what some
    run of the ledger shows, event by event and in the same order, and ends in a state that refines
    the ledger's. -/
theorem machine_refines {tr : List Action} (h : machine.Run tr s)
    (hd : deliveries tr ≤ u64Size) :
    ∃ ltr l, ledger.Run ltr l ∧ Refines s l ∧
      ledger.observed Ledger.event ledger.init ltr = machine.observed State.event machine.init tr :=
  machine_simulation.run h hd

end Forward

/-- One delivery, completed with an error. -/
theorem machine_refines_completed :
    ∃ s ltr l, ledger.Run ltr l ∧ Refines s l ∧
      ledger.observed Ledger.event ledger.init ltr =
        machine.observed State.event machine.init
          (completedRun (Binary64.ofU64 0) (some "failed")) := by
  obtain ⟨s, hs, -⟩ := machine.exists_run (completedRun (Binary64.ofU64 0) (some "failed"))
    (fun _ => true) (by decide +kernel)
  exact ⟨s, machine_refines hs (by decide)⟩

/-! ## 6. The machine shows everything the ledger allows -/

/-- The number of messages that come in. -/
def arrivals (ltr : List LedgerAction) : Nat :=
  ltr.countP fun
    | .arrive _ _ => true
    | _ => false

/-- No `complete_message` call holds a sender, and there are calls left that were not made. -/
structure State.Quiet (s : State) : Prop where
  held : ∀ c x e j, s.complete c ≠ .sending x e j
  fresh : ∃ b, ∀ k, b ≤ k → s.complete k = .idle ∧ s.close k = .idle

section Backward

variable {d : Nat} {s s' : State} {l l' : Ledger} {a : Action} {b : LedgerAction} {i : Nat}

theorem refines_internal (hI : Inv d s) (h : Refines s l) (hs : Step s a s')
    (hent : s.entries a = []) : Refines s' l ∧ s.event a = none := by
  obtain ⟨l', hex, hR, hev⟩ := matched_of_step hI h hs
  rw [hent] at hex hev
  cases hex
  exact ⟨hR, Option.toList_eq_nil_iff.mp hev.symm⟩

theorem refines_external (hI : Inv d s) (h : Refines s l) (hs : Step s a s')
    (hent : s.entries a = [b]) (hst : l.step b = some l') :
    Refines s' l' ∧ s.event a = l.event b := by
  obtain ⟨l₁, hex, hR, hev⟩ := matched_of_step hI h hs
  rw [hent] at hex hev
  have hst₁ := ledger.exec_single.mp hex
  obtain rfl : l₁ = l' := Option.some.inj (hst₁.symm.trans hst)
  rw [ledger.observed_single Ledger.event hst₁] at hev
  refine ⟨hR, ?_⟩
  cases h₁ : s.event a <;> cases h₂ : l.event b <;> simp_all

/-- The machine answers an action of the ledger: with actions that show what it shows. -/
def Realized (d : Nat) (s : State) (l' : Ledger) (shown : Option Event) : Prop :=
  ∃ tr s', machine.exec s tr = some s' ∧ Inv d s' ∧ Refines s' l' ∧ s'.Quiet ∧
    machine.observed State.event s tr = shown.toList

/-- By one action. -/
theorem realized_step (hI : Inv d s) (hd : d + arrivals [b] ≤ u64Size) (h : Refines s l)
    (hs : Step s a s') (hq : s'.Quiet) (hent : s.entries a = [b])
    (hda : deliveries [a] = arrivals [b]) (hst : l.step b = some l') :
    Realized (d + arrivals [b]) s l' (l.event b) := by
  rw [← hda] at hd ⊢
  obtain ⟨hR, hev⟩ := refines_external hI h hs hent hst
  refine ⟨[a], s', by simp [hs.taken], inv_step hI hs hd, hR, hq, ?_⟩
  rw [machine.observed_single State.event hs.taken, hev]

/-- By an internal action and another one, neither a delivery. -/
theorem realized_steps {t : State} {a' : Action} {shown : Option Event} (hd : d ≤ u64Size)
    (hI : Inv d s) (hs : Step s a t) (hs' : Step t a' s') (ha : deliveries [a] = 0)
    (ha' : deliveries [a'] = 0) (hR : Refines s' l') (hq : s'.Quiet)
    (hev : (s.event a).toList ++ (t.event a').toList = shown.toList) : Realized d s l' shown := by
  have hIt := inv_step hI hs (by omega)
  have hIs := inv_step hIt hs' (by omega)
  rw [ha, ha'] at hIs
  refine ⟨[a, a'], s', by simp [hs.taken, hs'.taken], hIs, hR, hq, ?_⟩
  rw [machine.observed_cons State.event hs.taken, machine.observed_single State.event hs'.taken,
    hev]

/-- An invocation with an open entry has its sender in the map. -/
theorem mapped_of_waits (hI : Inv d s) (h : Refines s l) (hw : (l.entry i).waits = true) :
    (s.onMessage i).undecided = true ∧
      ∃ n, s.pending.senders.lookup n = some i ∧ n < d := by
  have mapped : AnswerOf s i none → ∃ n, s.pending.senders.lookup n = some i ∧ n < d := by
    intro ha
    cases ha with
    | mapped n hn => exact ⟨n, hn, hI.issued i n (drawn_of_slot (hI.mapped n i hn).1)⟩
  have he := h.entry i
  generalize s.onMessage i = p at he ⊢
  generalize l.entry i = e at he hw
  cases he with
  | inserted n message a ha =>
      cases a with
      | none => exact ⟨rfl, mapped ha⟩
      | some r => cases hw
  | awaiting n a ha =>
      cases a with
      | none => exact ⟨rfl, mapped ha⟩
      | some r => cases hw
  | _ => cases hw

/-- **An answer** is a completion under the ack id of the delivery, by a call not made before. -/
theorem realized_answer (hI : Inv d s) (hd : d ≤ 2 ^ 53) (h : Refines s l) (hq : s.Quiet)
    {r : AckResult} (hst : l.step (.answer i r) = some l') :
    Realized d s l' (some (.answered i r)) := by
  have hw : (l.entry i).waits = true := by
    by_contra hno
    simp [Ledger.step, hno] at hst
  obtain ⟨hu, n, hn, hlt⟩ := mapped_of_waits hI h hw
  obtain ⟨c, hc⟩ := hq.fresh
  obtain ⟨e, rfl⟩ : ∃ e, outcome e = r := by
    cases r with
    | ok => exact ⟨none, rfl⟩
    | error msg => exact ⟨some msg, rfl⟩
  have hx : (Binary64.ofU64 n).toU64 = n := Binary64.toU64_ofU64 (by omega)
  have hl : s.pending.senders.lookup (Binary64.ofU64 n).toU64 = some i := hx.symm ▸ hn
  have hs := Step.take c (Binary64.ofU64 n) e i (hc c (Nat.le_refl c)).1 hl
  have hd' : d ≤ u64Size := by unfold u64Size; omega
  have hIt := inv_step hI hs (by simpa [deliveries] using hd')
  have hsend : (s.take c (Binary64.ofU64 n) e i).complete c = .sending (Binary64.ofU64 n) e i := by
    simp
  have hs' := Step.sendOutcome c (Binary64.ofU64 n) e i hsend
  obtain ⟨hR, hev⟩ := refines_external hI h hs
    (by simp [State.entries, hl, hu] : _ = [.answer i (outcome e)]) hst
  obtain ⟨hR', hev'⟩ := refines_internal hIt hR hs' rfl
  refine realized_steps hd' hI hs hs' rfl rfl hR' ⟨fun c' x e' j hc' => ?_, c + 1, fun k hk => ?_⟩
    (by rw [hev, hev']; rfl)
  · simp only [State.sendOutcome_complete] at hc'
    split at hc'
    · cases hc'
    · rename_i hne
      simp only [State.take_complete, if_neg hne] at hc'
      exact hq.held c' x e' j hc'
  · have hne : k ≠ c := by omega
    simp only [State.sendOutcome_complete, State.take_complete, if_neg hne]
    exact hc k (by omega)

/-- **A closing** is a call of `close()` not made before. -/
theorem realized_close (hI : Inv d s) (hd : d ≤ u64Size) (h : Refines s l) (hq : s.Quiet)
    (hst : l.step .close = some l') : Realized d s l' (some .closed) := by
  obtain ⟨k, hk⟩ := hq.fresh
  have hs := Step.innerClose (s := s) k (hk k (Nat.le_refl k)).2
  have hIt := inv_step hI hs (by simpa [deliveries] using hd)
  have hs' := Step.closeDrain (s := s.innerClose k) k (by simp [State.innerClose, State.setClose])
  obtain ⟨hR, hev⟩ := refines_internal hI h hs rfl
  obtain ⟨hR', hev'⟩ := refines_external hIt hR hs' rfl hst
  refine realized_steps hd hI hs hs' rfl rfl hR' ⟨hq.held, k + 1, fun j hj => ?_⟩
    (by rw [hev, hev']; rfl)
  have hne : j ≠ k := by omega
  have hfree := hk j (by omega)
  simpa [State.closeDrain, State.setClose, State.innerClose, hne] using hfree

/-- The entry tells the position. -/
theorem EntryOf.idle_of_absent {p : OnMessage} (h : EntryOf s i p .absent) : p = .idle := by
  cases h
  rfl

theorem EntryOf.fetched_of_arrived {p : OnMessage} {message : TrueSealMessage}
    (h : EntryOf s i p (.arrived message)) : ∃ n, p = .fetched n message := by
  cases h with
  | fetched n => exact ⟨n, rfl⟩

theorem EntryOf.inserted_of_posted {p : OnMessage} {message : TrueSealMessage}
    {a : Option AckResult} (h : EntryOf s i p (.posted message a)) :
    ∃ n, p = .inserted n message := by
  cases h with
  | inserted n => exact ⟨n, rfl⟩

theorem EntryOf.awaiting_of_offered {p : OnMessage} {a : Option AckResult}
    (h : EntryOf s i p (.offered a)) : ∃ n, p = .awaiting n ∧ AnswerOf s i a := by
  cases h with
  | awaiting n _ ha => exact ⟨n, rfl, ha⟩

theorem EntryOf.settled_of_decided {p : OnMessage} {r : AckResult}
    (h : EntryOf s i p (.decided r)) : ∃ n, p = .settled n r := by
  cases h with
  | settled n => exact ⟨n, rfl⟩

theorem Refines.at_entry {e : Entry} (h : Refines s l) (he : l.entry i = e) :
    EntryOf s i (s.onMessage i) e :=
  he ▸ h.entry i

/-- **Every action of the ledger is realized by the machine.** -/
theorem realized_of_step (hI : Inv d s) (hd : d + arrivals [b] ≤ 2 ^ 53) (h : Refines s l)
    (hq : s.Quiet) (hst : ledger.step l b = some l') :
    Realized (d + arrivals [b]) s l' (l.event b) := by
  have hd' : d + arrivals [b] ≤ u64Size := by unfold u64Size; omega
  change l.step b = some l' at hst
  have hst₀ := hst
  cases b with
  | arrive i message =>
      simp only [Ledger.step] at hst
      split at hst
      · rename_i he
        exact realized_step hI hd' h (.fetchAdd i message (h.at_entry he).idle_of_absent) ⟨hq.held,
          hq.fresh⟩ rfl rfl hst₀
      · cases hst
  | enter i =>
      simp only [Ledger.step] at hst
      split at hst
      · rename_i message he
        obtain ⟨n, hp⟩ := (h.at_entry he).fetched_of_arrived
        cases hc : s.pending.closed with
        | true =>
            exact realized_step hI hd' h (.abandon i n message hp hc) ⟨hq.held, hq.fresh⟩ rfl rfl hst₀
        | false =>
            exact realized_step hI hd' h (.insert i n message hp hc) ⟨hq.held, hq.fresh⟩ rfl rfl hst₀
      · cases hst
  | offer i =>
      simp only [Ledger.step] at hst
      split at hst
      · rename_i message a he
        obtain ⟨n, hp⟩ := (h.at_entry he).inserted_of_posted
        exact realized_step hI hd' h (.dispatch i n message hp) ⟨hq.held, hq.fresh⟩ rfl rfl hst₀
      · cases hst
  | refuse i debug =>
      simp only [Ledger.step] at hst
      split at hst
      · rename_i message a he
        obtain ⟨n, hp⟩ := (h.at_entry he).inserted_of_posted
        exact realized_step hI hd' h (.refuse i n message debug hp) ⟨hq.held, hq.fresh⟩ rfl rfl hst₀
      · cases hst
  | answer i r => exact realized_answer hI hd h hq hst
  | settle i =>
      simp only [Ledger.step] at hst
      split at hst
      · rename_i r he
        obtain ⟨n, hp, ha⟩ := (h.at_entry he).awaiting_of_offered
        -- nothing is held, so the answer has been sent
        cases ha with
        | held c x e hc => exact absurd hc (hq.held c x e i)
        | sent _ hr =>
            exact realized_step hI hd' h (.recv i n r hp hr) ⟨hq.held, hq.fresh⟩ rfl rfl hst₀
      · cases hst
  | giveBack i =>
      simp only [Ledger.step] at hst
      split at hst
      · rename_i r he
        obtain ⟨n, hp⟩ := (h.at_entry he).settled_of_decided
        exact realized_step hI hd' h (.finish i n r hp) ⟨hq.held, hq.fresh⟩ rfl rfl hst₀
      · cases hst
  | close => exact realized_close hI hd' h hq hst

theorem arrivals_append (ltr ltr' : List LedgerAction) :
    arrivals (ltr ++ ltr') = arrivals ltr + arrivals ltr' :=
  List.countP_append

/-- The ledger is simulated by the machine while ack ids are exact in a double. -/
theorem ledger_simulation : System.Simulation ledger machine Ledger.event State.event
    (fun ltr => arrivals ltr ≤ 2 ^ 53)
    (fun ltr l s => Inv (arrivals ltr) s ∧ Refines s l ∧ s.Quiet) where
  init := ⟨inv_init, refines_init, fun _ _ _ _ => nofun, 0, fun _ _ => ⟨rfl, rfl⟩⟩
  before ltr b h := by
    rw [arrivals_append] at h
    omega
  step ltr l b l' s _ hC hR hst := by
    rw [arrivals_append] at hC
    obtain ⟨hI, hR, hq⟩ := hR
    obtain ⟨tr, s', hex, hI', hR', hq', hev⟩ := realized_of_step hI hC hR hq hst
    rw [arrivals_append]
    exact ⟨tr, s', hex, ⟨hI', hR', hq'⟩, hev⟩

/-- **The machine shows everything the ledger allows.** Every run of the ledger with at most
    `2^53` arrivals is shown, event by event, by some run of the machine, whose end refines the
    ledger's. -/
theorem machine_realizes {ltr : List LedgerAction} (h : ledger.Run ltr l)
    (hd : arrivals ltr ≤ 2 ^ 53) :
    ∃ tr s, machine.Run tr s ∧ Refines s l ∧
      machine.observed State.event machine.init tr =
        ledger.observed Ledger.event ledger.init ltr := by
  obtain ⟨tr, s, hrun, ⟨-, hR, -⟩, hobs⟩ := ledger_simulation.run h hd
  exact ⟨tr, s, hrun, hR, hobs⟩

end Backward

/-- An answer that comes while the delivery is still being offered, and a closing. -/
def answeredEarly : List LedgerAction :=
  [.arrive 0 sampleMessage, .enter 0, .answer 0 (.error "failed"), .close, .offer 0, .settle 0,
    .giveBack 0]

theorem machine_realizes_answeredEarly :
    ∃ l tr s, machine.Run tr s ∧ Refines s l ∧
      machine.observed State.event machine.init tr =
        ledger.observed Ledger.event ledger.init answeredEarly := by
  obtain ⟨l, hl, -⟩ := ledger.exists_run answeredEarly (fun _ => true) (by decide)
  exact ⟨l, machine_realizes hl (by decide)⟩

/-! ## 7. The result is a function of the events -/

/-- What one more event makes of the result of delivery `i`: a refusal sets it, and of the answers
    and closings the first one does. -/
def judge (i : Nat) (v : Option AckResult) : Event → Option AckResult
  | .refused j debug => if j = i then some (.error (dispatchFailed debug)) else v
  | .answered j r => if j = i then v.or (some r) else v
  | .closed => v.or (some (.ok ()))
  | .arrived _ _ | .offered _ | .returned _ _ => v

/-- The result of delivery `i` after the events. -/
def verdict (i : Nat) (events : List Event) : Option AckResult := events.foldl (judge i) none

theorem verdict_append (i : Nat) (events : List Event) (e : Option Event) :
    verdict i (events ++ e.toList) = e.elim (verdict i events) (judge i (verdict i events)) := by
  unfold verdict
  rw [List.foldl_append]
  cases e <;> rfl

/-- An entry agrees with the result `v` its events give. -/
def Entry.Agrees (closed : Bool) (v : Option AckResult) : Entry → Prop
  | .absent | .arrived _ => v = if closed then some (.ok ()) else none
  | .posted _ a | .offered a => v = a ∧ (closed = true → a ≠ none)
  | .decided r => v = some r
  | .returned res => ∃ r, v = some r ∧ res = handlerResult r

section Verdict

variable {l l' : Ledger} {b : LedgerAction} {v : Nat → Option AckResult}

/-- The entries of the others agree as before where their events do not concern them. -/
theorem agrees_set {i : Nat} (e : Entry) {v' : Nat → Option AckResult}
    (h : ∀ j, (l.entry j).Agrees l.closed (v j)) (hv : ∀ j, j ≠ i → v' j = v j)
    (hi : e.Agrees l.closed (v' i)) (j : Nat) :
    ((l.set i e).entry j).Agrees l.closed (v' j) := by
  by_cases hj : j = i
  · subst hj
    simpa using hi
  · rw [Ledger.set_entry, if_neg hj, hv j hj]
    exact h j

/-- A closing agrees with every entry: it answers the open ones. -/
theorem agrees_close {e : Entry} {c : Bool} {w : Option AckResult} (h : e.Agrees c w) :
    (e.answered (.ok ())).Agrees true (w.or (some (.ok ()))) := by
  cases e with
  | absent => cases c <;> simp_all [Entry.Agrees, Entry.answered]
  | arrived message => cases c <;> simp_all [Entry.Agrees, Entry.answered]
  | posted message a => cases a <;> simp_all [Entry.Agrees, Entry.answered]
  | offered a => cases a <;> simp_all [Entry.Agrees, Entry.answered]
  | decided r => simp_all [Entry.Agrees, Entry.answered]
  | returned res =>
      obtain ⟨r, rfl, rfl⟩ := h
      exact ⟨r, rfl, rfl⟩

/-- **One action of the ledger keeps the agreement** of every entry with the events. -/
theorem agrees_step (h : ∀ j, (l.entry j).Agrees l.closed (v j)) (hst : l.step b = some l')
    (j : Nat) : (l'.entry j).Agrees l'.closed ((l.event b).elim (v j) (judge j (v j))) := by
  cases b with
  | arrive i message =>
      simp only [Ledger.step] at hst
      split at hst
      · rename_i he
        cases hst
        have hi := h i
        rw [he] at hi
        exact agrees_set (.arrived message) h (fun _ _ => rfl) hi j
      · cases hst
  | enter i =>
      simp only [Ledger.step] at hst
      split at hst
      · rename_i message he
        cases hst
        have hi := h i
        rw [he] at hi
        -- the event of a delivery that is turned away does not change its result
        have hev : (l.event (.enter i)).elim (v j) (judge j (v j)) = v j := by
          simp only [Ledger.event]
          split <;> rfl
        rw [hev]
        refine agrees_set _ h (fun _ _ => rfl) ?_ j
        cases hc : l.closed with
        | true => exact ⟨.ok (), by simpa [Entry.Agrees, hc] using hi, rfl⟩
        | false => exact ⟨by simpa [Entry.Agrees, hc] using hi, nofun⟩
      · cases hst
  | offer i =>
      simp only [Ledger.step] at hst
      split at hst
      · rename_i message a he
        cases hst
        have hi := h i
        rw [he] at hi
        exact agrees_set (.offered a) h (fun _ _ => rfl) hi j
      · cases hst
  | refuse i debug =>
      simp only [Ledger.step] at hst
      split at hst
      · rename_i message a he
        cases hst
        have hothers : ∀ k, k ≠ i → judge k (v k) (.refused i debug) = v k := fun k hk =>
          if_neg (Ne.symm hk)
        refine agrees_set _ h hothers ?_ j
        simp [Entry.Agrees, judge]
      · cases hst
  | answer i r =>
      simp only [Ledger.step] at hst
      split at hst
      · rename_i hw
        cases hst
        have hothers : ∀ k, k ≠ i → judge k (v k) (.answered i r) = v k := fun k hk =>
          if_neg (Ne.symm hk)
        refine agrees_set _ h hothers ?_ j
        have hi := h i
        generalize l.entry i = e at hw hi
        cases e with
        | posted message a => cases a <;> simp_all [Entry.Agrees, Entry.answered, judge, Entry.waits]
        | offered a => cases a <;> simp_all [Entry.Agrees, Entry.answered, judge, Entry.waits]
        | _ => cases hw
      · cases hst
  | settle i =>
      simp only [Ledger.step] at hst
      split at hst
      · rename_i r he
        cases hst
        have hi := h i
        rw [he] at hi
        exact agrees_set (.decided r) h (fun _ _ => rfl) hi.1 j
      · cases hst
  | giveBack i =>
      simp only [Ledger.step] at hst
      split at hst
      · rename_i r he
        cases hst
        have hi := h i
        rw [he] at hi
        simp only [Ledger.event, he]
        exact agrees_set (.returned (handlerResult r)) h (fun _ _ => rfl) ⟨r, hi, rfl⟩ j
      · cases hst
  | close =>
      cases hst
      exact agrees_close (h j)

/-- Every entry agrees with the events of the run. -/
theorem agrees_run {ltr : List LedgerAction} (h : ledger.Run ltr l) (i : Nat) :
    (l.entry i).Agrees l.closed (verdict i (ledger.observed Ledger.event ledger.init ltr)) := by
  induction h using System.Run.induct generalizing i with
  | start => rfl
  | snoc ltr l b l' hr hs ih =>
      rw [ledger.observed_concat Ledger.event hr hs, verdict_append]
      exact agrees_step ih hs i

/-- **What an invocation returns is a function of the events of the run**: of the answers its own
    sender was removed for, the refusals and the closings, in their order. Nothing else of the
    interleaving matters. -/
theorem returned_by_events {tr : List Action} {s : State} (h : machine.Run tr s)
    (hd : deliveries tr ≤ u64Size) {i n : Nat} {res : Except HandlerError Unit}
    (hr : s.onMessage i = .returned n res) :
    ∃ r, verdict i (machine.observed State.event machine.init tr) = some r ∧
      res = handlerResult r := by
  obtain ⟨ltr, l, hl, hR, hobs⟩ := machine_simulation.run h hd
  have hagree := agrees_run hl i
  have he := hR.entry_at hr
  rw [hobs] at hagree
  generalize l.entry i = e at he hagree
  cases he with
  | returned => exact hagree

end Verdict

theorem returned_by_events_completed :
    ∃ r, verdict 0 (machine.observed State.event machine.init
        (completedRun (Binary64.ofU64 0) (some "failed"))) = some r ∧
      (.error (.failed "failed") : Except HandlerError Unit) = handlerResult r := by
  obtain ⟨s, hs, hp⟩ := machine.exists_run (completedRun (Binary64.ofU64 0) (some "failed"))
    (fun s => s.onMessage 0 = .returned 0 (.error (.failed "failed"))) (by decide +kernel)
  exact returned_by_events hs (by decide) (of_decide_eq_true hp)

end TrueSealSync.Native
