/-
  File:      TrueSealSync/Sdk/Callbacks.lean
  Subject:   THE CALLBACKS HANDED TO THE NATIVE SIDE return on every call; a throw into one of them
             would abort the process.

  * `streamDispatcher` -- the callback of the event stream and that of the issue stream: each is it,
    on its own fan-out and its own item type;
  * `Surfaced` -- the calls made, the state they leave, and what the listeners threw on them;
  * `streamDispatcher_exec`, `add_delivers` -- what goes through a stream: every call is made, and
    what is thrown is scheduled once each, in order;
  * `no_exception_escapes` -- the three callbacks, and the two a thenable gets.
-/
import TrueSealSync.Sdk.Dispatcher
import TrueSealSync.Sdk.FanOut

namespace TrueSealSync.Sdk

open TrueSealSync.Lib
open TrueSealSync.Native (MessageDelivery TrueSealMessage)

section Streams

variable {ι υ : Type}

/-- `JSON.parse(json)`; `parse` says which strings are JSON, and of what. -/
def parseJson (parse : String → Except JsVal ι) (json : String) : Js (FanOut ι υ) ι :=
  match parse json with
  | .ok item => pure item
  | .error err => do
      modify fun w => { w with raised := w.raised ++ [err] }
      throw err

/-- `dispatchSafely` of `TrueSeal.open`. -/
def dispatchSafely (dispatch : String → Js (FanOut ι υ) PUnit) (json : String) :
    Js (FanOut ι υ) PUnit :=
  tryCatch (dispatch json) FanOut.nextTick

/-- `dispatchSafely((json) => events.dispatch(JSON.parse(json)))`, and the same for the issues. -/
def streamDispatcher (beh : Listeners ι υ) (parse : String → Except JsVal ι) (json : String) :
    Js (FanOut ι υ) PUnit :=
  dispatchSafely (fun json => do FanOut.dispatch beh (← parseJson parse json)) json

variable (beh : Listeners ι υ)

/-- From `w` to `w'`, the calls `calls` were made one after the other, each in the state the ones
    before it had left; every call was made, and what the listeners threw on these calls was
    scheduled for the next tick once each, in this order. -/
structure Surfaced (w w' : FanOut ι υ) (calls : List (Fn × ι)) : Prop where
  state : w' = FanOut.deliverAll beh w calls
  called : w'.calls = w.calls ++ calls
  raised : w'.raised = w.raised ++ FanOut.thrownBy beh w calls
  ticks : w'.ticks = w.ticks ++ FanOut.thrownBy beh w calls

/-- What one item does: a fan-out that buffers keeps it, a live one calls every listener. -/
def Dispatched (w w' : FanOut ι υ) (item : ι) : Prop :=
  match w.buffer with
  | some buffer => w' = { w with buffer := some (buffer ++ [item]) }
  | none => Surfaced beh w w' (w.listeners.map (·, item))

theorem surfaced_deliverAll (w : FanOut ι υ) (calls : List (Fn × ι)) :
    Surfaced beh w (FanOut.deliverAll beh w calls) calls := by
  obtain ⟨-, hc, ht, hr⟩ := FanOut.deliverAll_frame beh calls w
  exact ⟨rfl, hc, hr, ht⟩

theorem dispatch_surfaced (item : ι) (w : FanOut ι υ) :
    ∃ w', (FanOut.dispatch beh item).exec w = (.ok ⟨⟩, w') ∧ Dispatched beh w w' item := by
  refine ⟨_, FanOut.dispatch_exec beh item w, ?_⟩
  unfold Dispatched
  cases w.buffer with
  | some buffer => rfl
  | none => exact surfaced_deliverAll beh w _

/-- **The callback of a stream**: a payload that is JSON goes to every listener; for one that is
    not, what `JSON.parse` throws is scheduled and nobody is called. -/
theorem streamDispatcher_exec (parse : String → Except JsVal ι) (json : String) (w : FanOut ι υ) :
    ∃ w', (streamDispatcher beh parse json).exec w = (.ok ⟨⟩, w') ∧ match parse json with
      | .ok item => Dispatched beh w w' item
      | .error err => w' = { w with raised := w.raised ++ [err], ticks := w.ticks ++ [err] } := by
  unfold streamDispatcher dispatchSafely parseJson
  rw [Throwing.exec_tryCatch, Throwing.exec_bind]
  cases parse json with
  | ok item =>
      obtain ⟨w', hex, hs⟩ := dispatch_surfaced beh item w
      exact ⟨w', by simp [hex], hs⟩
  | error err =>
      simp only [Throwing.exec_bind, Throwing.exec_modify, Throwing.exec_throw]
      exact ⟨_, rfl, rfl⟩

/-- **An `add` returns too**, and a backlog is flushed to its end. -/
theorem add_delivers (listener : Fn) (w : FanOut ι υ) :
    ∃ k w', (FanOut.add beh listener).exec w = (.ok k, w'.subscribe listener) ∧
      Surfaced beh { w.push listener with buffer := none } w'
        ((w.buffer.getD []).map (listener, ·)) := by
  rw [FanOut.add_exec]
  cases hb : w.buffer with
  | some backlog => exact ⟨_, _, rfl, surfaced_deliverAll beh _ _⟩
  | none =>
      have hlive : { w.push listener with buffer := none } = w.push listener := by
        rw [← hb]
        rfl
      rw [hlive]
      exact ⟨_, _, rfl, surfaced_deliverAll beh _ []⟩

end Streams

/-- **No exception escapes into the native callbacks.** Whatever the realm, the handler and
    `completeMessage` do, the message dispatcher and the two callbacks it gives a thenable return;
    whatever the listeners do and whatever string arrives, the dispatcher of a stream returns, every
    exception of `JSON.parse` or of a listener is scheduled once, in the order raised, and the
    remaining listeners of the item, or items of the backlog, are still delivered. -/
theorem no_exception_escapes {ω ι υ : Type} (realm : Realm ω)
    (completeMessage : Binary64 → JsVal → Js ω Unit) (beh : Listeners ι υ)
    (parse : String → Except JsVal ι) :
    (∀ handler delivery,
      Throwing.Returns (messageDispatcher realm completeMessage handler delivery)) ∧
    (∀ ackId, Throwing.Returns (onFulfilled completeMessage ackId)) ∧
    (∀ ackId err, Throwing.Returns (onRejected realm completeMessage ackId err)) ∧
    (∀ json w, ∃ w', (streamDispatcher beh parse json).exec w = (.ok ⟨⟩, w') ∧
      match parse json with
      | .ok item => Dispatched beh w w' item
      | .error err => w' = { w with raised := w.raised ++ [err], ticks := w.ticks ++ [err] }) ∧
    (∀ listener w, ∃ k w', (FanOut.add beh listener).exec w = (.ok k, w'.subscribe listener) ∧
      Surfaced beh { w.push listener with buffer := none } w'
        ((w.buffer.getD []).map (listener, ·))) :=
  ⟨dispatcher_returns realm completeMessage, fun ackId => complete_returns completeMessage ackId .null,
    onRejected_returns realm completeMessage, streamDispatcher_exec beh parse, add_delivers beh⟩

end TrueSealSync.Sdk
