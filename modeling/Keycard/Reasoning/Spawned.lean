import Mathlib.Logic.Function.Basic

/-!
# Tasks of a multi-threaded runtime

The part of tokio that decides what an abort does.  `abort` only records the request: the task is
dropped, with all that its future owns, the next time it would be resumed, and a poll that is under way
on another thread still ends as it would have.  Awaiting the handle waits until the task has ended one
way or the other.
-/

namespace Reasoning

universe u v

/-- A spawned task whose future suspends at points of type `π`. -/
inductive Spawned (π : Type u) where
  | alive (point : π) (aborted : Bool)
  | ended
deriving DecidableEq, Repr

namespace Spawned

variable {π : Type u}

/-- `JoinHandle::abort` -/
def abort : Spawned π → Spawned π
  | .alive p _ => .alive p true
  | .ended => .ended

@[simp] theorem abort_alive (p : π) (c : Bool) : (alive p c).abort = .alive p true := rfl

@[simp] theorem abort_ended : (ended : Spawned π).abort = .ended := rfl

/-- Where the task is suspended, if it is still there. -/
def point? : Spawned π → Option π
  | .alive p _ => some p
  | .ended => none

@[simp] theorem point?_abort (t : Spawned π) : t.abort.point? = t.point? := by
  cases t <;> rfl

end Spawned

/-- The tasks spawned so far, by name. -/
abbrev Tasks (ι : Type u) (π : Type v) := ι → Option (Spawned π)

namespace Tasks

variable {ι : Type u} {π : Type v}

def Live (ts : Tasks ι π) (i : ι) : Prop :=
  ∃ p c, ts i = some (.alive p c)

/-- It is still there, but will be dropped without anybody doing anything more. -/
def Aborted (ts : Tasks ι π) (i : ι) : Prop :=
  ∃ p, ts i = some (.alive p true)

def Begun (ts : Tasks ι π) (i : ι) : Prop :=
  ts i ≠ none

theorem Aborted.live {ts : Tasks ι π} {i : ι} (h : ts.Aborted i) : ts.Live i := by
  obtain ⟨p, hp⟩ := h
  exact ⟨p, true, hp⟩

theorem Live.begun {ts : Tasks ι π} {i : ι} (h : ts.Live i) : ts.Begun i := by
  obtain ⟨p, c, hp⟩ := h
  simp [Begun, hp]

theorem not_live_of_ended {ts : Tasks ι π} {i : ι} (h : ts i = some .ended) : ¬ ts.Live i := by
  rintro ⟨p, c, hp⟩
  rw [h] at hp
  cases hp

theorem ended_of_not_live {ts : Tasks ι π} {i : ι} (h : ts.Begun i) (hlive : ¬ ts.Live i) :
    ts i = some .ended := by
  cases ht : ts i with
  | none => exact absurd ht h
  | some t =>
    cases t with
    | alive p c => exact absurd ⟨p, c, ht⟩ hlive
    | ended => rfl

/-- Whether a handle can be awaited without waiting. -/
def isEnded (ts : Tasks ι π) (i : ι) : Bool :=
  match ts i with
  | some .ended => true
  | _ => false

theorem isEnded_iff {ts : Tasks ι π} {i : ι} : ts.isEnded i = true ↔ ts i = some .ended := by
  unfold isEnded
  split <;> simp_all

variable [DecidableEq ι]

def set (ts : Tasks ι π) (i : ι) (t : Reasoning.Spawned π) : Tasks ι π :=
  Function.update ts i (some t)

def abort (ts : Tasks ι π) (i : ι) : Tasks ι π :=
  Function.update ts i ((ts i).map .abort)

/-- The abort of the first task of a list, which is awaited before the next one is aborted. -/
def abortHead (ts : Tasks ι π) : List ι → Tasks ι π
  | [] => ts
  | i :: _ => ts.abort i

def abortAll (ts : Tasks ι π) : List ι → Tasks ι π
  | [] => ts
  | i :: is => (ts.abort i).abortAll is

@[simp] theorem set_self (ts : Tasks ι π) (i : ι) (t : Reasoning.Spawned π) : ts.set i t i = some t := by
  unfold set
  exact Function.update_self i (some t) ts

theorem set_of_ne {i j : ι} (h : j ≠ i) (ts : Tasks ι π) (t : Reasoning.Spawned π) :
    ts.set i t j = ts j := by
  unfold set
  exact Function.update_of_ne h (some t) ts

@[simp] theorem abort_self (ts : Tasks ι π) (i : ι) : ts.abort i i = (ts i).map .abort := by
  unfold abort
  exact Function.update_self i ((ts i).map .abort) ts

theorem abort_of_ne {i j : ι} (h : j ≠ i) (ts : Tasks ι π) : ts.abort i j = ts j := by
  unfold abort
  exact Function.update_of_ne h ((ts i).map .abort) ts

theorem aborted_abort {ts : Tasks ι π} {i : ι} (h : ts.Live i) : (ts.abort i).Aborted i := by
  obtain ⟨p, c, hp⟩ := h
  exact ⟨p, by simp [hp]⟩

/-- Where a task is suspended; outside, `none` is a task that was never spawned. -/
def point? (ts : Tasks ι π) (i : ι) : Option (Option π) :=
  (ts i).map Reasoning.Spawned.point?

@[simp] theorem point?_set_self (ts : Tasks ι π) (i : ι) (t : Reasoning.Spawned π) :
    (ts.set i t).point? i = some t.point? := by
  simp [point?]

theorem point?_set_of_ne {i j : ι} (h : j ≠ i) (ts : Tasks ι π) (t : Reasoning.Spawned π) :
    (ts.set i t).point? j = ts.point? j := by
  simp [point?, set_of_ne h]

/-! An abort moves nobody. -/

@[simp] theorem point?_abort (ts : Tasks ι π) (i j : ι) : (ts.abort i).point? j = ts.point? j := by
  by_cases hj : j = i
  · subst hj
    cases ht : ts j <;> simp [point?, ht]
  · simp [point?, abort_of_ne hj]

@[simp] theorem point?_abortHead (ts : Tasks ι π) (is : List ι) (j : ι) :
    (ts.abortHead is).point? j = ts.point? j := by
  cases is with
  | nil => rfl
  | cons i is => exact point?_abort ts i j

@[simp] theorem point?_abortAll (ts : Tasks ι π) (is : List ι) (j : ι) :
    (ts.abortAll is).point? j = ts.point? j := by
  induction is generalizing ts with
  | nil => rfl
  | cons i is ih => exact (ih (ts.abort i)).trans (point?_abort ts i j)

/-! ## Tasks only ever come to an end

`Wanes ts us` is what every step of the tasks themselves and every abort does to the table: nobody is
spawned, nobody who has ended or been aborted is alive again. -/

structure Wanes (ts us : Tasks ι π) : Prop where
  begun : ∀ i, us.Begun i ↔ ts.Begun i
  live : ∀ i, us.Live i → ts.Live i
  aborted : ∀ i, ts.Aborted i → us.Live i → us.Aborted i

omit [DecidableEq ι] in
theorem Wanes.refl (ts : Tasks ι π) : ts.Wanes ts where
  begun _ := .rfl
  live _ h := h
  aborted _ h _ := h

omit [DecidableEq ι] in
theorem Wanes.trans {ts us vs : Tasks ι π} (h : ts.Wanes us) (h' : us.Wanes vs) : ts.Wanes vs where
  begun i := (h'.begun i).trans (h.begun i)
  live i hi := h.live i (h'.live i hi)
  aborted i ha hi := h'.aborted i (h.aborted i ha (h'.live i hi)) hi

/-- A task goes on to its next point. -/
theorem wanes_move {ts : Tasks ι π} {i : ι} {p : π} {c : Bool} (hi : ts i = some (.alive p c)) (q : π) :
    ts.Wanes (ts.set i (.alive q c)) where
  begun j := by
    by_cases hj : j = i
    · subst hj
      simp [Begun, hi]
    · simp [Begun, set_of_ne hj]
  live j hlive := by
    by_cases hj : j = i
    · exact ⟨p, c, hj ▸ hi⟩
    · rwa [Live, set_of_ne hj] at hlive
  aborted j ha _ := by
    by_cases hj : j = i
    · subst hj
      obtain ⟨p', hp'⟩ := ha
      rw [hi] at hp'
      cases hp'
      exact ⟨q, set_self ts j _⟩
    · rwa [Aborted, set_of_ne hj]

theorem wanes_end {ts : Tasks ι π} {i : ι} (hi : ts.Begun i) : ts.Wanes (ts.set i .ended) where
  begun j := by
    by_cases hj : j = i
    · subst hj
      exact ⟨fun _ ↦ hi, fun _ ↦ by simp [Begun]⟩
    · simp [Begun, set_of_ne hj]
  live j hlive := by
    by_cases hj : j = i
    · subst hj
      exact absurd hlive (not_live_of_ended (set_self ts j _))
    · rwa [Live, set_of_ne hj] at hlive
  aborted j ha hlive := by
    by_cases hj : j = i
    · subst hj
      exact absurd hlive (not_live_of_ended (set_self ts j _))
    · rwa [Aborted, set_of_ne hj]

theorem wanes_abort (ts : Tasks ι π) (i : ι) : ts.Wanes (ts.abort i) where
  begun j := by
    by_cases hj : j = i
    · subst hj
      simp [Begun]
    · simp [Begun, abort_of_ne hj]
  live j hlive := by
    by_cases hj : j = i
    · subst hj
      obtain ⟨p, c, hp⟩ := hlive
      rw [abort_self] at hp
      cases ht : ts j with
      | none => simp [ht] at hp
      | some t =>
        cases t with
        | alive q c' => exact ⟨q, c', ht⟩
        | ended => simp [ht] at hp
    · rwa [Live, abort_of_ne hj] at hlive
  aborted j ha _ := by
    by_cases hj : j = i
    · exact hj ▸ aborted_abort (hj ▸ ha.live)
    · rwa [Aborted, abort_of_ne hj]

theorem wanes_abortHead (ts : Tasks ι π) (is : List ι) : ts.Wanes (ts.abortHead is) := by
  cases is with
  | nil => exact .refl ts
  | cons i is => exact wanes_abort ts i

theorem wanes_abortAll (ts : Tasks ι π) (is : List ι) : ts.Wanes (ts.abortAll is) := by
  induction is generalizing ts with
  | nil => exact .refl ts
  | cons i is ih => exact (wanes_abort ts i).trans (ih (ts.abort i))

/-- Whoever of the list is still there is on its way out. -/
theorem aborted_abortAll {ts : Tasks ι π} {is : List ι} {i : ι} (hm : i ∈ is)
    (hlive : (ts.abortAll is).Live i) : (ts.abortAll is).Aborted i := by
  induction is generalizing ts with
  | nil => cases hm
  | cons j is ih =>
    rcases List.mem_cons.mp hm with rfl | hm
    · have hlater : ((ts.abort i).Wanes ((ts.abort i).abortAll is)) := wanes_abortAll _ _
      have hbefore : ts.Live i := (wanes_abort ts i).live i (hlater.live i hlive)
      exact hlater.aborted i (aborted_abort hbefore) hlive
    · exact ih hm hlive

end Tasks

end Reasoning
