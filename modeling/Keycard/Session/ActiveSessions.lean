import Mathlib.Data.Finset.Basic

/-!
# `ActiveSessions`

The sessions a shutdown drain still has to wait for, and the event it waits on.
-/

namespace Keycard

/-- The event is set exactly while there is no session. -/
structure ActiveSessions (ι : Type) where
  sessions : Finset ι
  empty : Bool
  empty_iff : empty = true ↔ sessions = ∅

namespace ActiveSessions

variable {ι : Type}

def initial : ActiveSessions ι where
  sessions := ∅
  empty := true
  empty_iff := by simp

@[simp] theorem sessions_initial : (initial : ActiveSessions ι).sessions = ∅ := rfl

variable [DecidableEq ι]

def add (active : ActiveSessions ι) (i : ι) : ActiveSessions ι where
  sessions := insert i active.sessions
  empty := false
  empty_iff := by simp

def discard (active : ActiveSessions ι) (i : ι) : ActiveSessions ι where
  sessions := active.sessions.erase i
  empty := if active.sessions.erase i = ∅ then true else active.empty
  empty_iff := by
    constructor
    · intro h
      split at h
      · assumption
      · rw [active.empty_iff.mp h, Finset.erase_empty]
    · intro h
      rw [if_pos h]

@[simp] theorem sessions_add (active : ActiveSessions ι) (i : ι) :
    (active.add i).sessions = insert i active.sessions := rfl

@[simp] theorem sessions_discard (active : ActiveSessions ι) (i : ι) :
    (active.discard i).sessions = active.sessions.erase i := rfl

end ActiveSessions

end Keycard
