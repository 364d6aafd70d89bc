/-
  File:      TrueSealSync/Sdk/TrueSeal.lean
  Subject:   THE PUBLIC OBJECT: the getters and operations of class TrueSeal, and what they do after
             `close()`.

  * `TrueSeal.status` and so on -- the members of the class; all but the two stream registrations
    forward to the session (`forward`), and what that throws goes through `rethrowTyped`;
  * `Call`, `Op`, `run` -- any sequence of calls, of arriving events and of cancels;
  * `run_extends` -- what reached the core stays;
  * `closed_refuses` -- after `close()` exactly the calls that reach the core are refused: `onEvent`
    and `onDeliveryIssue` register their listener, and the first of them flushes the backlog.
-/
import TrueSealSync.Sdk.Callbacks
import TrueSealSync.Sdk.CoreSession

namespace TrueSealSync.Sdk

open TrueSealSync.Lib
open TrueSealSync.Native (Member)

/-! ## 1. The members of the class -/

section Members

variable {ι κ υ : Type}

/-- An operation of the event fan-out; its listeners may change all of the process. -/
def onEvents {α : Type} : Js (FanOut ι (Process ι κ υ)) α → Js (Process ι κ υ) α :=
  Throwing.zoom (fun w => w.rest.events.within w)
    fun _ f => { f.user with rest := { f.user.rest with events := f.within ⟨⟩ } }

/-- An operation of the issue fan-out. -/
def onIssues {α : Type} : Js (FanOut κ (Process ι κ υ)) α → Js (Process ι κ υ) α :=
  Throwing.zoom (fun w => w.rest.issues.within w)
    fun _ f => { f.user with rest := { f.user.rest with issues := f.within ⟨⟩ } }

variable (program : Program ι κ υ)

/-- `try { return .. } catch (err) { rethrowTyped(err) }`. -/
def forward {α : Type} (c : Js (Process ι κ υ) α) : Js (Process ι κ υ) α :=
  tryCatch c (rethrowTyped program.realm program.conversionError)

namespace TrueSeal

/-- The group status. -/
def status : Js (Process ι κ υ) String := forward program (CoreSession.status program)

/-- This device's member record. -/
def me : Js (Process ι κ υ) Member := forward program (CoreSession.me program)

/-- The current remote group members. -/
def members : Js (Process ι κ υ) (List Member) := forward program (CoreSession.members program)

/-- The object the `connection` getter returns; `min` and `max` are there in one case only. -/
structure Connection where
  state : String
  range : Option (JsVal × JsVal) := none
  deriving DecidableEq

/-- The text of the Error for a range that is missing. -/
def glueBug (min max : String) : String :=
  "native glue returned relayVersionUnsupported without min/max (got min=" ++ min ++ ", max=" ++
    max ++ ") — a glue bug, not a relay condition"

/-- The relay connection state. -/
def connection : Js (Process ι κ υ) Connection :=
  forward program do
    let info ← CoreSession.connection program
    if info.state = "relayVersionUnsupported" then
      if typeOf info.min ≠ .number ∨ typeOf info.max ≠ .number then
        throwNew (createError (glueBug (← program.realm.toString info.min)
          (← program.realm.toString info.max)))
      else
        return ⟨"relayVersionUnsupported", some (info.min, info.max)⟩
    else
      return { state := info.state }

/-- Register the message handler. -/
def onMessage (handler : Fn) : Js (Process ι κ υ) PUnit :=
  forward program (CoreSession.onMessage program handler)

def send (body : List UInt8) : Js (Process ι κ υ) String :=
  forward program (CoreSession.send program body)

/-- `this._events.add(listener)`. -/
def onEvent (listener : Fn) : Js (Process ι κ υ) Nat :=
  onEvents (FanOut.add program.eventListeners listener)

/-- `this._issues.add(listener)`. -/
def onDeliveryIssue (listener : Fn) : Js (Process ι κ υ) Nat :=
  onIssues (FanOut.add program.issueListeners listener)

def startPairing : Js (Process ι κ υ) String := forward program (CoreSession.startPairing program)

def accept (requestId : String) : Js (Process ι κ υ) Unit :=
  forward program (CoreSession.accept program requestId)

def cancelPairing : Js (Process ι κ υ) Unit := forward program (CoreSession.cancelPairing program)

def join (token : String) : Js (Process ι κ υ) Unit :=
  forward program (CoreSession.join program token)

def cancelJoin : Js (Process ι κ υ) Unit := forward program (CoreSession.cancelJoin program)

def remove (memberId : String) : Js (Process ι κ υ) Unit :=
  forward program (CoreSession.remove program memberId)

def leave : Js (Process ι κ υ) Unit := forward program (CoreSession.leave program)

def destroyGroup : Js (Process ι κ υ) Unit := forward program (CoreSession.destroyGroup program)

/-- Stop the connection and the handlers. -/
def close : Js (Process ι κ υ) PUnit := CoreSession.close

/-- `[Symbol.dispose]`. -/
def dispose : Js (Process ι κ υ) PUnit := close

end TrueSeal

end Members

/-! ## 2. Runs -/

/-- The getters and operations of the object. -/
inductive Call where
  | status
  | me
  | members
  | connection
  | onMessage (handler : Fn)
  | onEvent (listener : Fn)
  | onDeliveryIssue (listener : Fn)
  | send (body : List UInt8)
  | startPairing
  | accept (requestId : String)
  | cancelPairing
  | join (token : String)
  | cancelJoin
  | remove (memberId : String)
  | leave
  | destroyGroup
  | close
  | dispose
  deriving DecidableEq

/-- What happens to the object from outside: calls, the callbacks of the two streams, the
    `cancel()` of Subscriptions, and whatever the user does meanwhile. -/
inductive Op (ι κ υ : Type) where
  | call (c : Call)
  | event (item : ι)
  | issue (item : κ)
  | cancelEvent (subscription : Nat)
  | cancelIssue (subscription : Nat)
  | cancelMessageHandler
  | user (f : υ → υ)

section Runs

variable {ι κ υ α : Type}

/-- The effect of a computation whose answer is not looked at. -/
def discard (c : Js (Process ι κ υ) α) : Js (Process ι κ υ) PUnit := do
  let _ ← c
  pure ⟨⟩

variable (program : Program ι κ υ)

def Call.run : Call → Js (Process ι κ υ) PUnit
  | .status => discard (TrueSeal.status program)
  | .me => discard (TrueSeal.me program)
  | .members => discard (TrueSeal.members program)
  | .connection => discard (TrueSeal.connection program)
  | .onMessage handler => TrueSeal.onMessage program handler
  | .onEvent listener => discard (TrueSeal.onEvent program listener)
  | .onDeliveryIssue listener => discard (TrueSeal.onDeliveryIssue program listener)
  | .send body => discard (TrueSeal.send program body)
  | .startPairing => discard (TrueSeal.startPairing program)
  | .accept requestId => discard (TrueSeal.accept program requestId)
  | .cancelPairing => discard (TrueSeal.cancelPairing program)
  | .join token => discard (TrueSeal.join program token)
  | .cancelJoin => discard (TrueSeal.cancelJoin program)
  | .remove memberId => discard (TrueSeal.remove program memberId)
  | .leave => discard (TrueSeal.leave program)
  | .destroyGroup => discard (TrueSeal.destroyGroup program)
  | .close => TrueSeal.close
  | .dispose => TrueSeal.dispose

def Op.run : Op ι κ υ → Js (Process ι κ υ) PUnit
  | .call c => c.run program
  | .event item => onEvents (FanOut.dispatch program.eventListeners item)
  | .issue item => onIssues (FanOut.dispatch program.issueListeners item)
  | .cancelEvent k => onEvents (modify fun f => f.cancel k)
  | .cancelIssue k => onIssues (modify fun f => f.cancel k)
  | .cancelMessageHandler => CoreSession.cancelMessageHandler
  | .user f => modify fun w => { w with rest := { w.rest with user := f w.rest.user } }

/-- The process after the operations `ops`; what they throw is the business of their callers. -/
def run (w : Process ι κ υ) (ops : List (Op ι κ υ)) : Process ι κ υ :=
  ops.foldl (fun w op => ((op.run program).exec w).2) w

end Runs

/-! ## 3. What reached the core stays -/

section History

variable {ι κ υ α β : Type} {program : Program ι κ υ}

theorem extends_refl (w : Process ι κ υ) : Extends w w := List.prefix_refl _

theorem extends_trans (u v w : Process ι κ υ) (h : Extends u v) (h' : Extends v w) : Extends u w :=
  List.IsPrefix.trans h h'

theorem extends_push (w : Process ι κ υ) (o : ErrorObject) : Extends w (w.push o) :=
  List.prefix_refl _

theorem ask_exec (call : CoreCall) (w : Process ι κ υ) : (ask program call).exec w =
    match program.core w.rest.history call with
    | .ok answer => (.ok answer, reached w (.called call))
    | .error e => (typedErr program.toString e).exec (reached w (.called call)) := by
  unfold ask
  rw [Throwing.exec_bind, Throwing.exec_get]
  simp only [Throwing.exec_bind, Throwing.exec_set]
  cases program.core w.rest.history call with
  | ok answer => rfl
  | error e => rfl

theorem ask_extends (call : CoreCall) : Throwing.Preserves Extends (ask program call) := by
  intro w
  have h : Extends w (reached w (.called call)) := List.prefix_append _ _
  rw [ask_exec]
  cases program.core w.rest.history call with
  | ok answer => exact h
  | error e => exact h

theorem forward_extends {c : Js (Process ι κ υ) α} (hc : Throwing.Preserves Extends c) :
    Throwing.Preserves Extends (forward program c) :=
  Throwing.preserves_tryCatch extends_trans hc
    (preserves_rethrowTyped extends_refl extends_trans extends_push program.realm_extends _)

theorem discard_extends {c : Js (Process ι κ υ) α} (hc : Throwing.Preserves Extends c) :
    Throwing.Preserves Extends (discard c) :=
  Throwing.preserves_bind extends_trans hc fun _ => Throwing.preserves_pure extends_refl _

theorem returned_extends {c : Js (Process ι κ υ) α} (hc : Throwing.Preserves Extends c) (f : α → β) :
    Throwing.Preserves Extends (do return f (← c)) :=
  Throwing.preserves_bind extends_trans hc fun _ => Throwing.preserves_pure extends_refl _

theorem onEvents_extends {c : Js (FanOut ι (Process ι κ υ)) α}
    (hc : ∀ f, Extends f.user (c.exec f).2.user) : Throwing.Preserves Extends (onEvents c) := by
  intro w
  unfold onEvents
  rw [Throwing.exec_zoom]
  exact hc (w.rest.events.within w)

theorem onIssues_extends {c : Js (FanOut κ (Process ι κ υ)) α}
    (hc : ∀ f, Extends f.user (c.exec f).2.user) : Throwing.Preserves Extends (onIssues c) := by
  intro w
  unfold onIssues
  rw [Throwing.exec_zoom]
  exact hc (w.rest.issues.within w)

theorem connection_extends :
    Throwing.Preserves Extends (TrueSeal.connection program) := by
  refine forward_extends (Throwing.preserves_bind extends_trans ?_ fun info => ?_)
  · refine Throwing.preserves_bind extends_trans (ask_extends _) fun answer => ?_
    cases answer <;> exact Throwing.preserves_pure extends_refl _
  · by_cases hstate : info.state = "relayVersionUnsupported"
    · rw [if_pos hstate]
      by_cases hrange : typeOf info.min ≠ .number ∨ typeOf info.max ≠ .number
      · rw [if_pos hrange]
        refine Throwing.preserves_bind extends_trans (program.realm_extends.toString _) fun _ => ?_
        refine Throwing.preserves_bind extends_trans (program.realm_extends.toString _) fun _ => ?_
        exact fun w => extends_push w _
      · rw [if_neg hrange]
        exact Throwing.preserves_pure extends_refl _
    · rw [if_neg hstate]
      exact Throwing.preserves_pure extends_refl _

/-- A call only adds to what reached the core. -/
theorem call_extends (c : Call) : Throwing.Preserves Extends (c.run program) := by
  cases c with
  | status => exact discard_extends (forward_extends (returned_extends (ask_extends _) _))
  | connection => exact discard_extends connection_extends
  | onMessage handler =>
      exact forward_extends (Throwing.preserves_bind extends_trans (ask_extends _)
        fun _ _ => extends_refl _)
  | onEvent listener =>
      exact discard_extends (onEvents_extends
        (FanOut.add_user extends_refl extends_trans program.events_extend listener))
  | onDeliveryIssue listener =>
      exact discard_extends (onIssues_extends
        (FanOut.add_user extends_refl extends_trans program.issues_extend listener))
  | close | dispose => exact fun w => List.prefix_append _ _
  | _ => exact discard_extends (forward_extends (ask_extends _))

theorem op_extends (op : Op ι κ υ) : Throwing.Preserves Extends (op.run program) := by
  cases op with
  | call c => exact call_extends c
  | event item =>
      exact onEvents_extends
        (FanOut.dispatch_user extends_refl extends_trans program.events_extend item)
  | issue item =>
      exact onIssues_extends
        (FanOut.dispatch_user extends_refl extends_trans program.issues_extend item)
  | cancelEvent k => exact onEvents_extends fun f => (f.cancel_user k).symm ▸ extends_refl _
  | cancelIssue k => exact onIssues_extends fun f => (f.cancel_user k).symm ▸ extends_refl _
  | cancelMessageHandler | user f => exact extends_refl

/-- **What reached the core stays**, over any run. -/
theorem run_extends (w : Process ι κ υ) (ops : List (Op ι κ υ)) : Extends w (run program w ops) := by
  induction ops generalizing w with
  | nil => exact extends_refl w
  | cons op ops ih => exact extends_trans _ _ _ (op_extends op w) (ih _)

/-- Whatever follows a `close()`, or a `[Symbol.dispose]()`, follows the close of the core. -/
theorem closed_run (w : Process ι κ υ) {ops : List (Op ι κ υ)}
    (hclose : .call .close ∈ ops ∨ .call .dispose ∈ ops) :
    .closed ∈ (run program w ops).rest.history := by
  have hop : ∃ op ∈ ops, ∀ w', .closed ∈ ((op.run program).exec w').2.rest.history := by
    rcases hclose with hmem | hmem
    · exact ⟨_, hmem, fun w' => List.mem_append_right _ (List.mem_singleton_self _)⟩
    · exact ⟨_, hmem, fun w' => List.mem_append_right _ (List.mem_singleton_self _)⟩
  obtain ⟨op, hmem, hclosed⟩ := hop
  obtain ⟨pre, post, rfl⟩ := List.append_of_mem hmem
  have hrun : run program w (pre ++ op :: post) =
      run program ((op.run program).exec (run program w pre)).2 post := List.foldl_append ..
  rw [hrun]
  exact (run_extends _ post).subset (hclosed _)

end History

/-! ## 4. After the close -/

section Closed

variable {ι κ υ α β : Type} {program : Program ι κ υ} {w : Process ι κ υ}

/-- **The call is refused in `w`**: it throws a TrueSealError with code `closed`, and of the object
    and the user's state nothing changes but the log of what reached the core; so it registers
    nothing and calls no listener. -/
def Refused (c : Js (Process ι κ υ) α) (w : Process ι κ υ) : Prop :=
  ∃ r w' o, c.exec w = (.error (.object r), w') ∧ w'.heap.errors r = some o ∧
    o.proto = .trueSealError ∧ o.own "code" = some (.string "closed") ∧
    w'.rest = { w.rest with history := w'.rest.history }

/-- `c` throws what `typed_err` makes of `Closed`. -/
def ThrowsClosed (program : Program ι κ υ) (c : Js (Process ι κ υ) α) (w : Process ι κ υ) : Prop :=
  ∃ call, c.exec w = (typedErr program.toString .closed : Js (Process ι κ υ) α).exec
    (reached w (.called call))

theorem ask_closed (hcore : program.core.ClosedForGood) (hclosed : .closed ∈ w.rest.history)
    (call : CoreCall) : ThrowsClosed program (ask program call) w := by
  refine ⟨call, ?_⟩
  rw [ask_exec, hcore _ call hclosed]

theorem bind_closed {c : Js (Process ι κ υ) α} (hc : ThrowsClosed program c w)
    (k : α → Js (Process ι κ υ) β) : ThrowsClosed program (c >>= k) w := by
  obtain ⟨call, hcall⟩ := hc
  refine ⟨call, ?_⟩
  rw [Throwing.exec_bind, hcall]
  rfl

theorem forward_refused {c : Js (Process ι κ υ) α} (hc : ThrowsClosed program c w) :
    Refused (forward program c) w := by
  obtain ⟨call, hcall⟩ := hc
  have hforward : (forward program c).exec w =
      (forward program (typedErr program.toString .closed)).exec (reached w (.called call)) := by
    unfold forward
    rw [Throwing.exec_tryCatch, hcall, Throwing.exec_tryCatch]
  have hsurvives := trueSealError_survives program.toString .closed
  exact ⟨_, _, _, hforward.trans (caught_exec ..), Heap.errors_push_self .., hsurvives.proto,
    hsurvives.code, rfl⟩

theorem discard_refused {c : Js (Process ι κ υ) α} (hc : Refused c w) : Refused (discard c) w := by
  obtain ⟨r, w', o, hrun, hrest⟩ := hc
  refine ⟨r, w', o, ?_, hrest⟩
  unfold discard
  rw [Throwing.exec_bind, hrun]

/-- What returns is not refused. -/
theorem not_refused {c : Js (Process ι κ υ) α} (hc : Throwing.Returns c) : ¬ Refused c w := by
  intro ⟨r, w', o, hthrow, _⟩
  obtain ⟨a, w'', hreturn⟩ := hc w
  rw [hreturn] at hthrow
  cases hthrow

theorem discard_returns {c : Js (Process ι κ υ) α} (hc : Throwing.Returns c) :
    Throwing.Returns (discard c) :=
  Throwing.returns_bind hc fun _ => Throwing.returns_pure _

theorem add_returns {ι υ : Type} (beh : Listeners ι υ) (listener : Fn) :
    Throwing.Returns (FanOut.add beh listener) := by
  intro f
  obtain ⟨k, f', hadd, -⟩ := add_delivers beh listener f
  exact ⟨k, f'.subscribe listener, hadd⟩

theorem onEvents_returns {c : Js (FanOut ι (Process ι κ υ)) α} (hc : Throwing.Returns c) :
    Throwing.Returns (onEvents c) := by
  unfold onEvents
  exact Throwing.returns_zoom hc

theorem onIssues_returns {c : Js (FanOut κ (Process ι κ υ)) α} (hc : Throwing.Returns c) :
    Throwing.Returns (onIssues c) := by
  unfold onIssues
  exact Throwing.returns_zoom hc

/-- Registering a stream listener is no call of the core. -/
def Call.Local (c : Call) : Prop :=
  ∃ listener, c = .onEvent listener ∨ c = .onDeliveryIssue listener

/-- **After `close()` exactly the calls that reach the core are refused.** `close()` or
    `[Symbol.dispose]()` has returned at any earlier point of the run, the calls that listeners and
    the handler make included; `onEvent` and `onDeliveryIssue` are not refused. -/
theorem closed_refuses (hcore : program.core.ClosedForGood) :
    (∀ w₀ ops, .call .close ∈ ops ∨ .call .dispose ∈ ops →
      .closed ∈ (run program w₀ ops).rest.history) ∧
    ∀ w : Process ι κ υ, .closed ∈ w.rest.history → ∀ c : Call, c ≠ .close → c ≠ .dispose →
      (Refused (c.run program) w ↔ ¬ c.Local) := by
  refine ⟨fun w₀ ops => closed_run w₀, fun w hclosed c hclose hdispose => ?_⟩
  have hask : ∀ call, ThrowsClosed program (ask program call) w := ask_closed hcore hclosed
  have hplain : ∀ call, Refused (discard (forward program (ask program call))) w :=
    fun call => discard_refused (forward_refused (hask call))
  have hlocal : ∀ c : Call, (∀ l, c ≠ .onEvent l) → (∀ l, c ≠ .onDeliveryIssue l) → ¬ c.Local := by
    intro c he hi ⟨listener, h⟩
    exact h.elim (he listener) (hi listener)
  cases c with
  | close => exact absurd rfl hclose
  | dispose => exact absurd rfl hdispose
  | onEvent listener =>
      have hreturns : Throwing.Returns (TrueSeal.onEvent program listener) :=
        onEvents_returns (add_returns program.eventListeners listener)
      exact iff_of_false (not_refused (discard_returns hreturns))
        (not_not_intro ⟨listener, .inl rfl⟩)
  | onDeliveryIssue listener =>
      have hreturns : Throwing.Returns (TrueSeal.onDeliveryIssue program listener) :=
        onIssues_returns (add_returns program.issueListeners listener)
      exact iff_of_false (not_refused (discard_returns hreturns))
        (not_not_intro ⟨listener, .inr rfl⟩)
  | status =>
      exact iff_of_true (discard_refused (forward_refused (bind_closed (hask _) _)))
        (hlocal _ nofun nofun)
  | connection =>
      exact iff_of_true
        (discard_refused (forward_refused (bind_closed (bind_closed (hask _) _) _)))
        (hlocal _ nofun nofun)
  | onMessage handler =>
      exact iff_of_true (forward_refused (bind_closed (hask _) _)) (hlocal _ nofun nofun)
  | me => exact iff_of_true (hplain .me) (hlocal _ nofun nofun)
  | members => exact iff_of_true (hplain .members) (hlocal _ nofun nofun)
  | send body => exact iff_of_true (hplain (.send body)) (hlocal _ nofun nofun)
  | startPairing => exact iff_of_true (hplain .startPairing) (hlocal _ nofun nofun)
  | accept requestId => exact iff_of_true (hplain (.accept requestId)) (hlocal _ nofun nofun)
  | cancelPairing => exact iff_of_true (hplain .cancelPairing) (hlocal _ nofun nofun)
  | join token => exact iff_of_true (hplain (.join token)) (hlocal _ nofun nofun)
  | cancelJoin => exact iff_of_true (hplain .cancelJoin) (hlocal _ nofun nofun)
  | remove memberId => exact iff_of_true (hplain (.remove memberId)) (hlocal _ nofun nofun)
  | leave => exact iff_of_true (hplain .leave) (hlocal _ nofun nofun)
  | destroyGroup => exact iff_of_true (hplain .destroyGroup) (hlocal _ nofun nofun)

end Closed

/-- A core of a device in no group. -/
def openAnswer : (call : CoreCall) → Except CoreError call.Answer
  | .status => .ok GroupStatus.notJoined
  | .me => .ok (⟨"3f", "AmberFalcon"⟩ : Member)
  | .members => .ok ([] : List Member)
  | .connection => .ok ConnectionState.connecting
  | .startPairing => .ok "token"
  | .onMessage | .cancelPairing | .join _ | .cancelJoin => .ok ()
  | .accept _ => .error .pairingClosed
  | .send _ | .remove _ | .leave | .destroyGroup => .error (.notMember .notJoined)

/-- That core, `closed` for good once it is closed, and listeners that do nothing. -/
def sampleProgram : Program Nat Nat Unit where
  core history call := if .closed ∈ history then .error .closed else openAnswer call
  toString _ := "an error"
  realm :=
    { instanceofError := fun _ => pure false
      get := fun _ _ => pure .undefined
      toString := fun _ => pure ""
      callThen := fun _ _ _ _ => pure () }
  conversionError := .undefined
  eventListeners _ _ w := ⟨[], w.user, none⟩
  issueListeners _ _ w := ⟨[], w.user, none⟩
  realm_extends := ⟨fun _ => extends_refl, fun _ _ => extends_refl, fun _ => extends_refl⟩
  events_extend _ _ w := extends_refl w.user
  issues_extend _ _ w := extends_refl w.user

theorem sampleProgram_closed : sampleProgram.core.ClosedForGood :=
  fun _ _ hclosed => if_pos hclosed

/-- The process just after `TrueSeal.open`. -/
def opened : Process Nat Nat Unit := ⟨Heap.empty, { user := () }⟩

/-- A `send` after the close is refused. -/
theorem closed_refuses_send :
    Refused ((Call.send [1, 2]).run sampleProgram) (run sampleProgram opened [.call .close]) :=
  ((closed_refuses sampleProgram_closed).2 _
    ((closed_refuses sampleProgram_closed).1 opened _ (.inl (List.mem_singleton_self _)))
    (.send [1, 2]) nofun nofun).mpr (by rintro ⟨listener, h | h⟩ <;> cases h)

/-- **An `onEvent` after the close is not**: the event that arrived before it is flushed to the new
    listener. -/
theorem onEvent_after_close :
    (∃ w, ((Call.onEvent 7).run sampleProgram).exec
        (run sampleProgram opened [.event 5, .call .close]) = (.ok ⟨⟩, w) ∧
      w.rest.events.listeners = [7] ∧ w.rest.events.calls = [(7, 5)]) ∧
    ¬ ∀ (program : Program Nat Nat Unit), program.core.ClosedForGood → ∀ w₀ ops,
      .call .close ∈ ops → ∀ c : Call, c ≠ .close → c ≠ .dispose →
      Refused (c.run program) (run program w₀ ops) := by
  have hflushed : ∃ w, ((Call.onEvent 7).run sampleProgram).exec
      (run sampleProgram opened [.event 5, .call .close]) = (.ok ⟨⟩, w) ∧
      w.rest.events.listeners = [7] ∧ w.rest.events.calls = [(7, 5)] := ⟨_, rfl, rfl, rfl⟩
  refine ⟨hflushed, fun hall => ?_⟩
  obtain ⟨w, hrun, -⟩ := hflushed
  obtain ⟨r, w', o, hthrow, -⟩ := hall sampleProgram sampleProgram_closed opened
    [.event 5, .call .close] (by simp) (.onEvent 7) nofun nofun
  rw [hrun] at hthrow
  cases hthrow

end TrueSealSync.Sdk
