/-
  File:      TrueSealSync/Lib/Oneshot.lean
  Subject:   One-shot channels: a cell that one sender may fill once.

  A family of cells is a function from channel names. The sender of a cell is a resource that
  sits elsewhere (in a map, in a local variable); here is what happens to the cell when the
  sender is used (`send`) or dropped unused (`drop`). Nothing here names a program.

  * `send`, `drop`, `sendAll` -- the three uses of senders, `sendAll` for a whole list of them;
  * `sendAll_mem`, `sendAll_notMem` -- what `sendAll` leaves in a cell.
-/
import Mathlib.Logic.Function.Basic

namespace TrueSealSync.Lib

/-- The cell of a one-shot channel. -/
inductive Oneshot (α : Type*) where
  /-- nothing sent, the sender still exists -/
  | empty
  /-- a value was sent -/
  | sent (a : α)
  /-- the sender was dropped before it sent -/
  | dropped
  deriving DecidableEq

namespace Oneshot

variable {ι α : Type*} [DecidableEq ι]

/-- The sender of `j` sends `a`. -/
def send (cells : ι → Oneshot α) (j : ι) (a : α) : ι → Oneshot α :=
  Function.update cells j (.sent a)

/-- The sender of `j` is dropped: the receiver learns it where nothing was sent. -/
def drop (cells : ι → Oneshot α) (j : ι) : ι → Oneshot α :=
  Function.update cells j (match cells j with
    | .empty => .dropped
    | c => c)

/-- The senders `js` send `a`, one after the other. -/
def sendAll (cells : ι → Oneshot α) (js : List ι) (a : α) : ι → Oneshot α :=
  js.foldl (fun cells j => send cells j a) cells

@[simp] theorem send_self (cells : ι → Oneshot α) (j : ι) (a : α) : send cells j a j = .sent a := by
  simp [send]

@[simp] theorem send_ne (cells : ι → Oneshot α) {i j : ι} (a : α) (h : i ≠ j) :
    send cells j a i = cells i := by
  simp [send, h]

@[simp] theorem drop_ne (cells : ι → Oneshot α) {i j : ι} (h : i ≠ j) :
    drop cells j i = cells i := by
  simp [drop, h]

/-- Dropping a sender leaves a filled cell as it is. -/
theorem drop_of_sent {cells : ι → Oneshot α} {j : ι} {a : α} (h : cells j = .sent a) (i : ι) :
    drop cells j i = cells i := by
  by_cases hi : i = j
  · subst hi; simp [drop, h]
  · exact drop_ne cells hi

theorem sendAll_notMem (cells : ι → Oneshot α) {js : List ι} (a : α) {i : ι} (h : i ∉ js) :
    sendAll cells js a i = cells i := by
  induction js generalizing cells with
  | nil => rfl
  | cons j js ih =>
      obtain ⟨hj, hjs⟩ := not_or.mp (mt List.mem_cons.mpr h)
      show sendAll (send cells j a) js a i = cells i
      rw [ih _ hjs, send_ne _ _ hj]

theorem sendAll_mem (cells : ι → Oneshot α) {js : List ι} (a : α) {i : ι} (h : i ∈ js) :
    sendAll cells js a i = .sent a := by
  induction js generalizing cells with
  | nil => exact absurd h List.not_mem_nil
  | cons j js ih =>
      show sendAll (send cells j a) js a i = .sent a
      by_cases hi : i ∈ js
      · exact ih _ hi
      · rw [sendAll_notMem _ _ hi, (List.mem_cons.mp h).resolve_right hi, send_self]

end Oneshot

end TrueSealSync.Lib
