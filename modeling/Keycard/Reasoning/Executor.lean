import Keycard.Reasoning.Task

/-!
# Jobs of a thread pool

What a coroutine hands to `run_in_executor` runs in a thread of its own.  Cancelling the coroutine
that awaits a job takes the job back only while it is still queued; a thread that has started goes on
to its end, and nobody sees what comes of it.
-/

namespace Reasoning

universe u v

/-- A job whose thread passes through points of type `π` and ends with a `β`. -/
inductive Job (π : Type u) (β : Type v) where
  | queued
  | running (point : π)
  | finished (result : β)
  | dropped
deriving DecidableEq, Repr

namespace Job

variable {π : Type u} {β : Type v}

def isOver : Job π β → Bool
  | .queued => false
  | .running _ => false
  | .finished _ => true
  | .dropped => true

@[simp] theorem isOver_queued : (queued : Job π β).isOver = false := rfl

@[simp] theorem isOver_running (p : π) : (running p : Job π β).isOver = false := rfl

@[simp] theorem isOver_finished (b : β) : (finished b : Job π β).isOver = true := rfl

@[simp] theorem isOver_dropped : (dropped : Job π β).isOver = true := rfl

end Job

/-- How a step ends where the code catches some exceptions itself: `caught` is one of these, `raised`
any other. -/
inductive Attempt (α : Type u) where
  | returned (value : α)
  | caught
  | raised
  | cancelled
deriving DecidableEq, Repr

end Reasoning
