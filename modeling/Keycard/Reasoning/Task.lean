import Mathlib.Data.Option.Basic

/-!
# Tasks of a single-threaded event loop

The part of asyncio that decides what a cancellation does.  A coroutine runs without interruption
from one suspension point to the next; what it waits for comes back as a `Reply`.  `Task.cancel`
only records the request: the `CancelledError` is thrown when the task is next resumed, before its
first line if it has not started.  A task that waits for another task hands the request on to it.
-/

namespace Reasoning

universe u v

/-- How an awaited call comes back: with a value, with an ordinary exception, or with the
`CancelledError` that was thrown into it. -/
inductive Reply (α : Type u) where
  | returned (value : α)
  | raised
  | cancelled
deriving DecidableEq, Repr

abbrev Outcome := Reply Unit

/-- A task whose coroutine suspends at points of type `π`; the flag of a live task is a
cancellation that has been requested since it was last resumed. -/
inductive LoopTask (π : Type u) where
  | created (cancelled : Bool)
  | suspended (point : π) (cancelled : Bool)
  | ended (how : Outcome)
deriving DecidableEq, Repr

namespace LoopTask

variable {π : Type u} {θ : Type v}

def isEnded : LoopTask π → Bool
  | .created _ => false
  | .suspended _ _ => false
  | .ended _ => true

/-- Where the task is suspended, if it is. -/
def point? : LoopTask π → Option π
  | .created _ => none
  | .suspended p _ => some p
  | .ended _ => none

/-- `Task.cancel()` on a task that does not wait for another task. -/
def cancel : LoopTask π → LoopTask π
  | .created _ => .created true
  | .suspended p _ => .suspended p true
  | .ended how => .ended how

/-- `Task.cancel()` on a task that waits for `awaited` at the points `joins` picks out: while
`awaited` is alive the request goes to it, and only afterwards to the waiting task. -/
def cancelThrough (joins : π → Bool) (t : LoopTask π) (awaited : LoopTask θ) : LoopTask π × LoopTask θ :=
  match t with
  | .suspended p c =>
    if joins p && !awaited.isEnded then (.suspended p c, awaited.cancel)
    else (.suspended p true, awaited)
  | t => (t.cancel, awaited)

/-- Whether cancelling `t` reaches the task it waits for instead. -/
def waitsIn (joins : π → Bool) : LoopTask π → Bool
  | .created _ => false
  | .suspended p _ => joins p
  | .ended _ => false

@[simp] theorem isEnded_created (c : Bool) : (LoopTask.created c : LoopTask π).isEnded = false := rfl

@[simp] theorem isEnded_suspended (p : π) (c : Bool) : (suspended p c).isEnded = false := rfl

@[simp] theorem isEnded_ended (how : Outcome) : (LoopTask.ended how : LoopTask π).isEnded = true := rfl

@[simp] theorem point?_created (c : Bool) : (LoopTask.created c : LoopTask π).point? = none := rfl

@[simp] theorem point?_suspended (p : π) (c : Bool) : (suspended p c).point? = some p := rfl

@[simp] theorem point?_ended (how : Outcome) : (LoopTask.ended how : LoopTask π).point? = none := rfl

@[simp] theorem cancel_created (c : Bool) :
    (LoopTask.created c : LoopTask π).cancel = .created true := rfl

@[simp] theorem cancel_suspended (p : π) (c : Bool) :
    (suspended p c).cancel = .suspended p true := rfl

@[simp] theorem cancel_ended (how : Outcome) :
    (LoopTask.ended how : LoopTask π).cancel = .ended how := rfl

@[simp] theorem isEnded_cancel (t : LoopTask π) : t.cancel.isEnded = t.isEnded := by
  cases t <;> rfl

@[simp] theorem point?_cancel (t : LoopTask π) : t.cancel.point? = t.point? := by
  cases t <;> rfl

theorem cancelThrough_of_not_waitsIn {joins : π → Bool} {t : LoopTask π} (h : t.waitsIn joins = false)
    (awaited : LoopTask θ) : t.cancelThrough joins awaited = (t.cancel, awaited) := by
  cases t with
  | suspended p c =>
    have hp : joins p = false := h
    simp [cancelThrough, cancel, hp]
  | created c => rfl
  | ended how => rfl

theorem cancelThrough_of_isEnded (joins : π → Bool) (t : LoopTask π) {awaited : LoopTask θ}
    (h : awaited.isEnded = true) : t.cancelThrough joins awaited = (t.cancel, awaited) := by
  cases t <;> simp [cancelThrough, cancel, h]

theorem cancelThrough_of_waitsIn {joins : π → Bool} {t : LoopTask π} (h : t.waitsIn joins = true)
    {awaited : LoopTask θ} (ha : awaited.isEnded = false) :
    t.cancelThrough joins awaited = (t, awaited.cancel) := by
  cases t with
  | suspended p c =>
    have hp : joins p = true := h
    simp [cancelThrough, hp, ha]
  | created c => simp [waitsIn] at h
  | ended how => simp [waitsIn] at h

end LoopTask

/-- A `CancelledError` comes out of an awaited call only if one was sent in. -/
def Reply.allowed {α : Type u} (cancelled : Bool) : Reply α → Bool
  | .cancelled => cancelled
  | _ => true

end Reasoning
