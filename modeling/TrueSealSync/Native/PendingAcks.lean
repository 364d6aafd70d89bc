/-
  File:      TrueSealSync/Native/PendingAcks.lean
  Subject:   THE PENDING-ACK MACHINE: `OnMessage::on_message`, `complete_message` and
             `CoreSession::close` of src/session.rs, as parties that interleave.

  One step is one atomic action of the source:

  * `fetchAdd i m` -- invocation `i` of `on_message` draws its ack id and makes its oneshot;
  * `insert i` -- it locks `pending`, tests `closed`, and returns `Ok(())` or inserts its sender;
  * `call i status` -- `tsfn.call(.., NonBlocking)` answers `status`;
  * `recv i` -- `rx.await` answers; the step is not enabled while the cell is empty;
  * `remove i` -- it locks `pending`, removes its slot and returns its result;
  * `completeRemove c ackId error` -- call `c` of `complete_message` locks `pending` and removes
    the sender under `ack_id as u64`;
  * `completeSend c` -- it sends the outcome on the sender it removed;
  * `innerClose k` -- in call `k` of `close()`, `self.inner.close()` has returned;
  * `closeDrain k` -- it locks `pending`, sets `closed`, drains the map with `Ok(())` and returns.

  A sender is named by the invocation that made it. A `Mutex` that another thread poisoned is
  entered all the same (`unwrap_or_else(|e| e.into_inner())`), so a lock is the atomic step only.
  `step` is the executable form; `Step` lists, case by case, what a step can do.
-/
import Mathlib.Data.List.AList
import TrueSealSync.Lib.Binary64
import TrueSealSync.Lib.Oneshot
import TrueSealSync.Lib.Run

namespace TrueSealSync.Native

open TrueSealSync.Lib

/-! ## 1. Data -/

/-- The member a message comes from. -/
structure Member where
  id : String
  name : String
  deriving DecidableEq

/-- The core's message, as `on_message` receives it. -/
structure TrueSealMessage where
  id : String
  from_ : Member
  body : List UInt8
  deriving DecidableEq

/-- The tuple handed to the JS dispatcher: `(id, fromId, fromName, body, ackId)`. -/
structure MessageDelivery where
  id : String
  fromId : String
  fromName : String
  body : List UInt8
  ackId : Binary64
  deriving DecidableEq

/-- `type AckResult = std::result::Result<(), String>`. -/
abbrev AckResult := Except String Unit

/-- `HandlerError`: the one variant the bridge uses. -/
inductive HandlerError where
  | failed (msg : String)
  deriving DecidableEq

/-- The status of `tsfn.call`; every status but `Ok` by the name its `Debug` form prints. -/
inductive Status where
  | ok
  | other (debug : String)
  deriving DecidableEq

/-- `struct PendingAcks`: the senders by ack id, and the flag `close()` sets. -/
structure PendingAcks where
  senders : AList fun _ : Nat => Nat := ∅
  closed : Bool := false

/-- Where an invocation of `on_message` is, with its local variables. -/
inductive OnMessage where
  | idle
  /-- the ack id is drawn, `pending` not locked yet -/
  | fetched (ackId : Nat) (message : TrueSealMessage)
  /-- the sender is in the map, `tsfn.call` comes next -/
  | inserted (ackId : Nat) (message : TrueSealMessage)
  /-- `tsfn.call` answered `Ok`, `rx.await` is pending -/
  | awaiting (ackId : Nat)
  /-- `result` is computed, the final `remove` comes next -/
  | settled (ackId : Nat) (result : AckResult)
  | returned (ackId : Nat) (result : Except HandlerError Unit)
  deriving DecidableEq

/-- Where a call of `complete_message` is. -/
inductive CompleteMessage where
  | idle
  /-- the sender of invocation `sender` is removed and not used yet -/
  | sending (ackId : Binary64) (error : Option String) (sender : Nat)
  | done
  deriving DecidableEq

/-- Where a call of `CoreSession::close` is. -/
inductive Close where
  | idle
  /-- `self.inner.close()` has returned -/
  | innerClosed
  | done
  deriving DecidableEq

/-- The shared state of a session and the positions of all parties. -/
structure State where
  nextAck : Nat := 0
  pending : PendingAcks := {}
  /-- the core's shutdown flag: some `inner.close()` has returned -/
  innerClosed : Bool := false
  /-- the cell of the oneshot each invocation makes -/
  cells : Nat → Oneshot AckResult := fun _ => .empty
  /-- the calls the threadsafe function accepted, in order -/
  queue : List MessageDelivery := []
  onMessage : Nat → OnMessage := fun _ => .idle
  complete : Nat → CompleteMessage := fun _ => .idle
  close : Nat → Close := fun _ => .idle

/-- One atomic action of one party. -/
inductive Action where
  | fetchAdd (i : Nat) (message : TrueSealMessage)
  | insert (i : Nat)
  | call (i : Nat) (status : Status)
  | recv (i : Nat)
  | remove (i : Nat)
  | completeRemove (c : Nat) (ackId : Binary64) (error : Option String)
  | completeSend (c : Nat)
  | innerClose (k : Nat)
  | closeDrain (k : Nat)
  deriving DecidableEq

/-! ## 2. The source's expressions -/

/-- The tuple `on_message` builds for the dispatcher. -/
def delivery (message : TrueSealMessage) (ackId : Nat) : MessageDelivery :=
  ⟨message.id, message.from_.id, message.from_.name, message.body, Binary64.ofU64 ackId⟩

/-- `match error { Some(msg) => Err(msg), None => Ok(()) }`. -/
def outcome : Option String → AckResult
  | some msg => .error msg
  | none => .ok ()

/-- `result.map_err(|msg| HandlerError::Failed { msg })`. -/
def handlerResult : AckResult → Except HandlerError Unit
  | .ok () => .ok ()
  | .error msg => .error (.failed msg)

/-- `format!("tsfn dispatch failed: {dispatched:?}")`. -/
def dispatchFailed (debug : String) : String := "tsfn dispatch failed: " ++ debug

/-- The text for a oneshot whose sender is gone. -/
def channelDropped : String := "handler completion channel dropped"

/-- The cells after a sender, if there is one, is dropped. -/
def dropSender (cells : Nat → Oneshot AckResult) : Option Nat → Nat → Oneshot AckResult
  | none => cells
  | some j => Oneshot.drop cells j

/-- The invocations whose senders the map holds. -/
def PendingAcks.waiting (p : PendingAcks) : List Nat := p.senders.entries.map (·.2)

/-! ## 3. The steps -/

namespace State

/-- Set the position of one party. -/
def setOnMessage (s : State) (i : Nat) (p : OnMessage) : State :=
  { s with onMessage := Function.update s.onMessage i p }

def setComplete (s : State) (c : Nat) (p : CompleteMessage) : State :=
  { s with complete := Function.update s.complete c p }

def setClose (s : State) (k : Nat) (p : Close) : State :=
  { s with close := Function.update s.close k p }

/-- `next_ack.fetch_add(1)`; the counter is a `u64` and wraps. -/
def fetchAdd (s : State) (i : Nat) (message : TrueSealMessage) : State :=
  { s with nextAck := (s.nextAck + 1) % u64Size }.setOnMessage i (.fetched s.nextAck message)

/-- `closed` is set: return `Ok(())`, dropping both ends of the oneshot. -/
def abandon (s : State) (i ackId : Nat) : State :=
  { s with cells := Oneshot.drop s.cells i }.setOnMessage i (.returned ackId (.ok ()))

/-- `pending.senders.insert(ack_id, tx)`; a sender already under the key is dropped. -/
def insert (s : State) (i ackId : Nat) (message : TrueSealMessage) : State :=
  { s with
    pending := { s.pending with senders := s.pending.senders.insert ackId i }
    cells := dropSender s.cells (s.pending.senders.lookup ackId) }.setOnMessage i
      (.inserted ackId message)

/-- `tsfn.call` accepted the delivery. -/
def dispatch (s : State) (i ackId : Nat) (message : TrueSealMessage) : State :=
  { s with queue := s.queue ++ [delivery message ackId] }.setOnMessage i (.awaiting ackId)

/-- `pending.senders.remove(&ack_id)`, the removed sender is dropped, and the return. -/
def finish (s : State) (i ackId : Nat) (result : AckResult) : State :=
  { s with
    pending := { s.pending with senders := s.pending.senders.erase ackId }
    cells := dropSender s.cells (s.pending.senders.lookup ackId) }.setOnMessage i
      (.returned ackId (handlerResult result))

/-- `pending.senders.remove(&(ack_id as u64))` found the sender of `j`. -/
def take (s : State) (c : Nat) (ackId : Binary64) (error : Option String) (j : Nat) : State :=
  { s with
    pending := { s.pending with senders := s.pending.senders.erase ackId.toU64 } }.setComplete c
      (.sending ackId error j)

/-- `tx.send(..)`. -/
def sendOutcome (s : State) (c : Nat) (error : Option String) (j : Nat) : State :=
  { s with cells := Oneshot.send s.cells j (outcome error) }.setComplete c .done

/-- `self.inner.close()` returned. -/
def innerClose (s : State) (k : Nat) : State :=
  { s with innerClosed := true }.setClose k .innerClosed

/-- `pending.closed = true`, and every drained sender sends `Ok(())`. -/
def closeDrain (s : State) (k : Nat) : State :=
  { s with
    pending := { senders := ∅, closed := true }
    cells := Oneshot.sendAll s.cells s.pending.waiting (.ok ()) }.setClose k .done

/-! What each effect changes; everything else it leaves alone by definition. -/

section Effects

variable (s : State) (i j n c : Nat) (message : TrueSealMessage)

@[simp] theorem setOnMessage_onMessage (p : OnMessage) :
    (s.setOnMessage i p).onMessage j = if j = i then p else s.onMessage j :=
  Function.update_apply ..

@[simp] theorem setComplete_complete (p : CompleteMessage) :
    (s.setComplete c p).complete j = if j = c then p else s.complete j :=
  Function.update_apply ..

@[simp] theorem fetchAdd_onMessage : (s.fetchAdd i message).onMessage j =
    if j = i then .fetched s.nextAck message else s.onMessage j :=
  Function.update_apply ..

@[simp] theorem abandon_onMessage : (s.abandon i n).onMessage j =
    if j = i then .returned n (.ok ()) else s.onMessage j :=
  Function.update_apply ..

@[simp] theorem insert_onMessage : (s.insert i n message).onMessage j =
    if j = i then .inserted n message else s.onMessage j :=
  Function.update_apply ..

@[simp] theorem dispatch_onMessage : (s.dispatch i n message).onMessage j =
    if j = i then .awaiting n else s.onMessage j :=
  Function.update_apply ..

@[simp] theorem finish_onMessage (r : AckResult) : (s.finish i n r).onMessage j =
    if j = i then .returned n (handlerResult r) else s.onMessage j :=
  Function.update_apply ..

@[simp] theorem take_complete (x : Binary64) (e : Option String) (k : Nat) :
    (s.take c x e k).complete j = if j = c then .sending x e k else s.complete j :=
  Function.update_apply ..

@[simp] theorem sendOutcome_complete (e : Option String) (k : Nat) :
    (s.sendOutcome c e k).complete j = if j = c then .done else s.complete j :=
  Function.update_apply ..

@[simp] theorem sendOutcome_cells (e : Option String) (k : Nat) :
    (s.sendOutcome c e k).cells j = if j = k then .sent (outcome e) else s.cells j :=
  Function.update_apply ..

end Effects

/-- The effect of one action, `none` where the party is not at it. -/
def step (s : State) : Action → Option State
  | .fetchAdd i message =>
      match s.onMessage i with
      | .idle => some (s.fetchAdd i message)
      | _ => none
  | .insert i =>
      match s.onMessage i with
      | .fetched n message =>
          if s.pending.closed then some (s.abandon i n) else some (s.insert i n message)
      | _ => none
  | .call i status =>
      match s.onMessage i with
      | .inserted n message =>
          match status with
          | .ok => some (s.dispatch i n message)
          | .other debug => some (s.setOnMessage i (.settled n (.error (dispatchFailed debug))))
      | _ => none
  | .recv i =>
      match s.onMessage i with
      | .awaiting n =>
          match s.cells i with
          | .empty => none
          | .sent r => some (s.setOnMessage i (.settled n r))
          | .dropped => some (s.setOnMessage i (.settled n (.error channelDropped)))
      | _ => none
  | .remove i =>
      match s.onMessage i with
      | .settled n r => some (s.finish i n r)
      | _ => none
  | .completeRemove c ackId error =>
      match s.complete c with
      | .idle =>
          match s.pending.senders.lookup ackId.toU64 with
          | some j => some (s.take c ackId error j)
          | none => some (s.setComplete c .done)
      | _ => none
  | .completeSend c =>
      match s.complete c with
      | .sending _ error j => some (s.sendOutcome c error j)
      | _ => none
  | .innerClose k =>
      match s.close k with
      | .idle => some (s.innerClose k)
      | _ => none
  | .closeDrain k =>
      match s.close k with
      | .innerClosed => some (s.closeDrain k)
      | _ => none

end State

/-- **The machine**: a session just opened, and its steps. -/
def machine : System State Action := ⟨{}, State.step⟩

/-- The number of deliveries a run makes: its `fetch_add`s. -/
def deliveries (tr : List Action) : Nat :=
  tr.countP fun
    | .fetchAdd _ _ => true
    | _ => false

/-! ## 4. What a step can do -/

/-- **One step, case by case**, with everything that was true before it. -/
inductive Step (s : State) : Action → State → Prop where
  | fetchAdd (i : Nat) (message : TrueSealMessage) (hp : s.onMessage i = .idle) :
      Step s (.fetchAdd i message) (s.fetchAdd i message)
  | abandon (i n : Nat) (message : TrueSealMessage) (hp : s.onMessage i = .fetched n message)
      (hc : s.pending.closed = true) : Step s (.insert i) (s.abandon i n)
  | insert (i n : Nat) (message : TrueSealMessage) (hp : s.onMessage i = .fetched n message)
      (hc : s.pending.closed = false) : Step s (.insert i) (s.insert i n message)
  | dispatch (i n : Nat) (message : TrueSealMessage) (hp : s.onMessage i = .inserted n message) :
      Step s (.call i .ok) (s.dispatch i n message)
  | refuse (i n : Nat) (message : TrueSealMessage) (debug : String)
      (hp : s.onMessage i = .inserted n message) :
      Step s (.call i (.other debug)) (s.setOnMessage i (.settled n (.error (dispatchFailed debug))))
  | recv (i n : Nat) (r : AckResult) (hp : s.onMessage i = .awaiting n)
      (hr : s.cells i = .sent r) : Step s (.recv i) (s.setOnMessage i (.settled n r))
  | recvDropped (i n : Nat) (hp : s.onMessage i = .awaiting n) (hr : s.cells i = .dropped) :
      Step s (.recv i) (s.setOnMessage i (.settled n (.error channelDropped)))
  | finish (i n : Nat) (r : AckResult) (hp : s.onMessage i = .settled n r) :
      Step s (.remove i) (s.finish i n r)
  | take (c : Nat) (ackId : Binary64) (error : Option String) (j : Nat)
      (hp : s.complete c = .idle) (hl : s.pending.senders.lookup ackId.toU64 = some j) :
      Step s (.completeRemove c ackId error) (s.take c ackId error j)
  | miss (c : Nat) (ackId : Binary64) (error : Option String) (hp : s.complete c = .idle)
      (hl : s.pending.senders.lookup ackId.toU64 = none) :
      Step s (.completeRemove c ackId error) (s.setComplete c .done)
  | sendOutcome (c : Nat) (ackId : Binary64) (error : Option String) (j : Nat)
      (hp : s.complete c = .sending ackId error j) :
      Step s (.completeSend c) (s.sendOutcome c error j)
  | innerClose (k : Nat) (hp : s.close k = .idle) : Step s (.innerClose k) (s.innerClose k)
  | closeDrain (k : Nat) (hp : s.close k = .innerClosed) : Step s (.closeDrain k) (s.closeDrain k)

/-- A taken step is one of the cases. -/
theorem step_cases {s s' : State} {a : Action} (h : machine.step s a = some s') :
    Step s a s' := by
  change s.step a = some s' at h
  cases a with
  | fetchAdd i message =>
      simp only [State.step] at h
      split at h
      · rename_i hp; cases h; exact .fetchAdd i message hp
      · cases h
  | insert i =>
      simp only [State.step] at h
      split at h
      · rename_i n message hp
        split at h
        · rename_i hc; cases h; exact .abandon i n message hp hc
        · rename_i hc; cases h; exact .insert i n message hp (by simpa using hc)
      · cases h
  | call i status =>
      simp only [State.step] at h
      split at h
      · rename_i n message hp
        split at h
        · cases h; exact .dispatch i n message hp
        · rename_i debug; cases h; exact .refuse i n message debug hp
      · cases h
  | recv i =>
      simp only [State.step] at h
      split at h
      · rename_i n hp
        split at h
        · cases h
        · rename_i r hr; cases h; exact .recv i n r hp hr
        · rename_i hr; cases h; exact .recvDropped i n hp hr
      · cases h
  | remove i =>
      simp only [State.step] at h
      split at h
      · rename_i n r hp; cases h; exact .finish i n r hp
      · cases h
  | completeRemove c ackId error =>
      simp only [State.step] at h
      split at h
      · rename_i hp
        split at h
        · rename_i j hl; cases h; exact .take c ackId error j hp hl
        · rename_i hl; cases h; exact .miss c ackId error hp hl
      · cases h
  | completeSend c =>
      simp only [State.step] at h
      split at h
      · rename_i ackId error j hp; cases h; exact .sendOutcome c ackId error j hp
      · cases h
  | innerClose k =>
      simp only [State.step] at h
      split at h
      · rename_i hp; cases h; exact .innerClose k hp
      · cases h
  | closeDrain k =>
      simp only [State.step] at h
      split at h
      · rename_i hp; cases h; exact .closeDrain k hp
      · cases h

/-- Every case is a taken step. -/
theorem Step.taken {s s' : State} {a : Action} (h : Step s a s') : machine.step s a = some s' := by
  show s.step a = some s'
  cases h <;> simp [State.step, *]

end TrueSealSync.Native
