import Mathlib.Data.List.Basic
import Keycard.Session.Core

/-!
# What becomes of the room

A session obtains at most one room, and what it does with it is one of a few stories, told by
`Phase`.  `Staged` says that the log of a session is the beginning of such a story, and that the
fields and the tasks of the session are where the story says.  It holds in every state of every run.
-/

open Reasoning

namespace Keycard.Session

variable {ρ κ : Type}

/-- How far a session has come with the room it obtained. -/
inductive Phase where
  /-- in `self._room` -/
  | held
  /-- `_run` destroys it, since the session had ended before it opened -/
  | late
  | lateDone
  | pausing
  | kept
  | destroying (afterPause : Bool)
  | destroyed (afterPause : Bool)
deriving DecidableEq, Repr

def Mark.ofRoom : Mark ρ κ → Bool
  | .opened _ _ | .taken _ | .pause _ | .kept _ | .keepRaised _ | .destroy _ _
  | .destroyEnded _ => true
  | .reached _ _ | .took _ | .destroyKept _ | .foundNone | .pumpCancelled _
  | .teardownCancelled _ => false

/-- The log entries about the room, in order, once it has been obtained. -/
def Phase.trace (room : ρ) : Phase → List (Mark ρ κ)
  | .held => []
  | .late => [.destroy .pump room]
  | .lateDone => [.destroy .pump room, .destroyEnded room]
  | .pausing => [.taken room, .pause room]
  | .kept => [.taken room, .pause room, .kept room]
  | .destroying false => [.taken room, .destroy .teardown room]
  | .destroying true => [.taken room, .pause room, .keepRaised room, .destroy .teardown room]
  | .destroyed false => [.taken room, .destroy .teardown room, .destroyEnded room]
  | .destroyed true =>
    [.taken room, .pause room, .keepRaised room, .destroy .teardown room, .destroyEnded room]

def Core.roomMarks (c : Core ρ κ) : List (Mark ρ κ) :=
  c.marks.filter Mark.ofRoom

/-- Where the teardown is suspended; it holds a room there. -/
def Core.holding (c : Core ρ κ) : Option (TeardownPoint ρ) :=
  c.teardown.bind (·.2.point?)

/-- The pump has no room yet, or ended without one. -/
def pumpBefore : Option (LoopTask (PumpPoint ρ κ)) → Bool
  | none => true
  | some (.created _) => true
  | some (.suspended (.opening _) _) => true
  | some (.suspended (.destroyingKept _) _) => true
  | some (.suspended (.checkingOut _) _) => false
  | some (.suspended (.reading _) _) => false
  | some (.suspended (.joining _ _) _) => false
  | some (.ended _) => true

/-- The pump is past the opening of the room it put into `self._room`. -/
def pumpAfter : Option (LoopTask (PumpPoint ρ κ)) → Bool
  | none => false
  | some (.created _) => false
  | some (.suspended (.opening _) _) => false
  | some (.suspended (.destroyingKept _) _) => false
  | some (.suspended (.checkingOut _) _) => false
  | some (.suspended (.reading _) _) => true
  | some (.suspended (.joining _ _) _) => true
  | some (.ended _) => true

/-- The late `_checkout` of the pump is under way, or was cut off by a cancellation. -/
def Core.CheckingOut (c : Core ρ κ) (room : ρ) : Prop :=
  c.pump = some (.suspended (.checkingOut room) false) ∨
    (c.pump = some (.suspended (.checkingOut room) true) ∨ c.pump = some (.ended .cancelled)) ∧
      .pumpCancelled (.checkingOut room) ∈ c.marks

/-- The teardown is suspended at `point`, or was cut off there by a cancellation. -/
def Core.BusyAt (c : Core ρ κ) (point : TeardownPoint ρ) : Prop :=
  ∃ keep task, c.teardown = some (keep, task) ∧
    (task = .suspended point false ∨
      (task = .suspended point true ∨ task = .ended .cancelled) ∧
        .teardownCancelled (some point) ∈ c.marks)

/-- The teardown has not run, and never will if it was cancelled before its first line. -/
def Core.Unstarted (c : Core ρ κ) : Prop :=
  c.released = false ∧ ∀ keep task, c.teardown = some (keep, task) →
    task = .created false ∨
      (task = .created true ∨ task = .ended .cancelled) ∧ .teardownCancelled none ∈ c.marks

def Core.Returned (c : Core ρ κ) : Prop :=
  ∃ keep, c.teardown = some (keep, .ended (.returned ()))

/-! Where a phase wants the room, the pump and the teardown to be. -/

def Phase.roomLeft (room : ρ) : Phase → Option ρ
  | .held => some room
  | _ => none

def Phase.isLate : Phase → Bool
  | .late | .lateDone => true
  | _ => false

def Phase.PumpAt (c : Core ρ κ) (room : ρ) : Phase → Prop
  | .late => c.CheckingOut room
  | .lateDone => c.pump = some (.ended (.returned ()))
  | _ => pumpAfter c.pump = true

def Phase.TaskAt (c : Core ρ κ) (room : ρ) : Phase → Prop
  | .held => c.Unstarted
  | .late | .lateDone => c.teardown ≠ none ∧ c.holding = none
  | .pausing => c.BusyAt (.pausing room)
  | .destroying _ => c.BusyAt (.destroying room)
  | .kept | .destroyed _ => c.Returned

structure Phase.Fits (c : Core ρ κ) (room : ρ) (phase : Phase) : Prop where
  left : c.room = phase.roomLeft room
  pump : phase.PumpAt c room
  task : phase.TaskAt c room
  found : phase.isLate = false → .foundNone ∉ c.marks

/-- No room has been obtained. -/
structure Core.Unopened (c : Core ρ κ) : Prop where
  left : c.room = none
  pump : pumpBefore c.pump = true
  task : c.holding = none
  log : c.roomMarks = []

def Core.Staged (c : Core ρ κ) : Prop :=
  c.Unopened ∨ ∃ kept room phase, Phase.Fits c room phase ∧
    c.roomMarks = .opened kept room :: Phase.trace room phase

theorem pumpBefore_cancel (p : LoopTask (PumpPoint ρ κ)) :
    pumpBefore (some p.cancel) = pumpBefore (some p) := by
  rcases p with _ | ⟨p, _⟩ | _
  · rfl
  · cases p <;> rfl
  · rfl

theorem pumpAfter_cancel (p : LoopTask (PumpPoint ρ κ)) :
    pumpAfter (some p.cancel) = pumpAfter (some p) := by
  rcases p with _ | ⟨p, _⟩ | _
  · rfl
  · cases p <;> rfl
  · rfl

@[simp] theorem filter_cancelMarks (p : Option (PumpPoint ρ κ)) :
    (cancelMarks p).filter Mark.ofRoom = [] := by
  cases p <;> rfl

@[simp] theorem filter_takeMarks (k : Option κ) :
    (takeMarks k : List (Mark ρ κ)).filter Mark.ofRoom = [] := by
  cases k <;> rfl

theorem foundNone_not_mem_cancelMarks (p : Option (PumpPoint ρ κ)) :
    .foundNone ∉ cancelMarks p := by
  cases p <;> simp [cancelMarks]

/-! ## Moves of one task leave what a phase says of the other -/

section Frame

variable {c d : Core ρ κ} {room : ρ} {phase : Phase}

theorem Phase.PumpAt.mono (h : phase.PumpAt c room) (hpump : d.pump = c.pump)
    (hmarks : c.marks ⊆ d.marks) : phase.PumpAt d room := by
  cases phase with
  | late =>
    rcases h with h | ⟨h, hm⟩
    · exact .inl (hpump.trans h)
    · exact .inr ⟨hpump ▸ h, hmarks hm⟩
  | lateDone => exact hpump.trans h
  | held | pausing | kept | destroying | destroyed =>
    show pumpAfter d.pump = true
    rw [hpump]
    exact h

theorem Phase.TaskAt.mono (h : phase.TaskAt c room) (htask : d.teardown = c.teardown)
    (hreleased : d.released = c.released) (hmarks : c.marks ⊆ d.marks) :
    phase.TaskAt d room := by
  have hbusy {point : TeardownPoint ρ} (hb : c.BusyAt point) : d.BusyAt point := by
    obtain ⟨keep, task, ht, hp⟩ := hb
    exact ⟨keep, task, htask.trans ht, hp.imp_right fun hp ↦ ⟨hp.1, hmarks hp.2⟩⟩
  cases phase with
  | held =>
    refine ⟨hreleased.trans h.1, fun keep task ht ↦ ?_⟩
    exact (h.2 keep task (htask ▸ ht)).imp_right fun hp ↦ ⟨hp.1, hmarks hp.2⟩
  | late | lateDone => exact ⟨htask ▸ h.1, by rw [← h.2, Core.holding, Core.holding, htask]⟩
  | pausing | destroying => exact hbusy h
  | kept | destroyed => exact h.imp fun keep ht ↦ htask.trans ht

/-! What the state of a task says of the phase. -/

theorem Phase.PumpAt.not_before (h : phase.PumpAt c room) {p : Option (LoopTask (PumpPoint ρ κ))}
    (hp : c.pump = p) (hbefore : pumpBefore p = true) : p.any LoopTask.isEnded = true := by
  subst hp
  cases phase with
  | late =>
    rcases h with h | ⟨h | h, -⟩
    · rw [h] at hbefore
      cases hbefore
    · rw [h] at hbefore
      cases hbefore
    · rw [h]
      rfl
  | lateDone =>
    have h : c.pump = _ := h
    rw [h]
    rfl
  | held | pausing | kept | destroying | destroyed =>
    have h : pumpAfter c.pump = true := h
    rcases hc : c.pump with _ | ⟨_ | ⟨p, _⟩ | how⟩
    · rw [hc] at h
      cases h
    · rw [hc] at h
      cases h
    · rw [hc] at h hbefore
      cases p <;> simp [pumpAfter, pumpBefore] at h hbefore
    · rfl

theorem Phase.PumpAt.of_checkingOut (h : phase.PumpAt c room) {r : ρ} {b : Bool}
    (hp : c.pump = some (.suspended (.checkingOut r) b)) : r = room ∧ phase = .late := by
  cases phase with
  | late =>
    rcases h with h | ⟨h | h, -⟩
    · rw [hp] at h
      cases h
      exact ⟨rfl, rfl⟩
    · rw [hp] at h
      cases h
      exact ⟨rfl, rfl⟩
    · rw [hp] at h
      cases h
  | lateDone =>
    have h : c.pump = _ := h
    rw [hp] at h
    cases h
  | held | pausing | kept | destroying | destroyed =>
    have h : pumpAfter c.pump = true := h
    rw [hp] at h
    cases h

theorem Core.BusyAt.point {point : TeardownPoint ρ} (h : c.BusyAt point) {keep : Bool}
    {task : LoopTask (TeardownPoint ρ)} (ht : c.teardown = some (keep, task)) :
    task.point? = some point ∨ task = .ended .cancelled := by
  obtain ⟨keep', task', ht', hp⟩ := h
  rw [ht] at ht'
  cases ht'
  rcases hp with h | ⟨h | h, -⟩
  · exact .inl (h ▸ rfl)
  · exact .inl (h ▸ rfl)
  · exact .inr h

theorem Phase.TaskAt.of_created (h : phase.TaskAt c room) {keep b : Bool}
    (ht : c.teardown = some (keep, .created b)) : phase = .held ∨ phase.isLate = true := by
  cases phase with
  | held => exact .inl rfl
  | late | lateDone => exact .inr rfl
  | pausing | destroying =>
    rcases Core.BusyAt.point h ht with hp | hp <;> cases hp
  | kept | destroyed =>
    obtain ⟨keep', ht'⟩ := h
    rw [ht] at ht'
    cases ht'

theorem Phase.TaskAt.of_suspended (h : phase.TaskAt c room) {keep b : Bool} {p : TeardownPoint ρ}
    (ht : c.teardown = some (keep, .suspended p b)) :
    p = .pausing room ∧ phase = .pausing ∨
      p = .destroying room ∧ ∃ afterPause, phase = .destroying afterPause := by
  cases phase with
  | held =>
    rcases h.2 keep _ ht with hp | ⟨hp | hp, -⟩ <;> cases hp
  | late | lateDone =>
    have hp := h.2
    simp [Core.holding, ht] at hp
  | pausing =>
    rcases Core.BusyAt.point h ht with hp | hp
    · exact .inl ⟨Option.some.inj hp, rfl⟩
    · cases hp
  | destroying afterPause =>
    rcases Core.BusyAt.point h ht with hp | hp
    · exact .inr ⟨Option.some.inj hp, afterPause, rfl⟩
    · cases hp
  | kept | destroyed =>
    obtain ⟨keep', ht'⟩ := h
    rw [ht] at ht'
    cases ht'

/-! Cancelling a task keeps it where it is, and leaves a mark of where that was. -/

theorem Phase.PumpAt.cancel {pump : LoopTask (PumpPoint ρ κ)}
    (h : phase.PumpAt c room) (hp : c.pump = some pump) (hd : d.pump = some pump.cancel)
    (hmarks : d.marks = c.marks ++ cancelMarks pump.point?) : phase.PumpAt d room := by
  cases phase with
  | late =>
    -- running, cancelled before, or over: `hm` remembers the earlier request
    rcases h with h | ⟨h | h, hm⟩
    · rw [hp] at h
      cases h
      exact .inr ⟨.inl hd, by simp [hmarks, cancelMarks]⟩
    · rw [hp] at h
      cases h
      exact .inr ⟨.inl hd, by simp [hmarks, hm]⟩
    · rw [hp] at h
      cases h
      exact .inr ⟨.inr hd, by simp [hmarks, hm]⟩
  | lateDone =>
    have h : c.pump = _ := h
    rw [hp] at h
    cases h
    exact hd
  | held | pausing | kept | destroying | destroyed =>
    have h : pumpAfter c.pump = true := h
    show pumpAfter d.pump = true
    rw [hd, pumpAfter_cancel, ← hp]
    exact h

theorem Core.BusyAt.cancel {point : TeardownPoint ρ} {keep : Bool}
    {task : LoopTask (TeardownPoint ρ)} (h : c.BusyAt point) (ht : c.teardown = some (keep, task))
    (hend : task.isEnded = false) (hd : d.teardown = some (keep, task.cancel))
    (hmarks : d.marks = c.marks ++ [Mark.teardownCancelled task.point?]) : d.BusyAt point := by
  refine ⟨keep, task.cancel, hd, .inr ?_⟩
  rcases Core.BusyAt.point h ht with hp | hp
  · cases task with
    | suspended p b =>
      cases hp
      exact ⟨.inl rfl, by simp [hmarks]⟩
    | created b => cases hp
    | ended how => cases hp
  · rw [hp] at hend
    cases hend

theorem Phase.TaskAt.cancel {keep : Bool}
    {task : LoopTask (TeardownPoint ρ)} (h : phase.TaskAt c room)
    (ht : c.teardown = some (keep, task)) (hend : task.isEnded = false)
    (hd : d.teardown = some (keep, task.cancel)) (hreleased : d.released = c.released)
    (hmarks : d.marks = c.marks ++ [Mark.teardownCancelled task.point?]) : phase.TaskAt d room := by
  cases phase with
  | held =>
    refine ⟨hreleased.trans h.1, fun keep' task' ht' ↦ .inr ?_⟩
    rw [hd] at ht'
    cases ht'
    rcases h.2 keep task ht with hp | ⟨hp | hp, -⟩
    · exact ⟨.inl (by rw [hp]; rfl), by simp [hmarks, hp]⟩
    · exact ⟨.inl (by rw [hp]; rfl), by simp [hmarks, hp]⟩
    · rw [hp] at hend
      cases hend
  | late | lateDone =>
    have hnone : task.point? = none := by simpa [Core.holding, ht] using h.2
    exact ⟨by simp [hd], by simp [Core.holding, hd, hnone]⟩
  | pausing | destroying => exact Core.BusyAt.cancel h ht hend hd hmarks
  | kept | destroyed =>
    obtain ⟨keep', ht'⟩ := h
    rw [ht] at ht'
    cases ht'
    cases hend

theorem Core.mem_roomMarks {m : Mark ρ κ} (hm : m.ofRoom = true) :
    m ∈ c.roomMarks ↔ m ∈ c.marks := by
  simp [Core.roomMarks, hm]

/-- A session has one story, that of the room it opened. -/
theorem Core.Staged.of_opened (h : c.Staged) {kept : Option κ} (ho : .opened kept room ∈ c.marks) :
    ∃ phase, Phase.Fits c room phase ∧
      c.roomMarks = .opened kept room :: Phase.trace room phase := by
  rw [← Core.mem_roomMarks rfl] at ho
  rcases h with hu | ⟨kept', r, phase, hfit, hlog⟩
  · rw [hu.log] at ho
    cases ho
  -- the log has one `opened`, at its head
  · have heq : kept = kept' ∧ room = r := by
      rw [hlog] at ho
      rcases phase with _ | _ | _ | _ | _ | ⟨_ | _⟩ | ⟨_ | _⟩ <;> simpa [Phase.trace] using ho
    obtain ⟨rfl, rfl⟩ := heq
    exact ⟨phase, hfit, hlog⟩

/-- Only a room that came too late is destroyed by the pump. -/
theorem Core.Staged.of_late (h : c.Staged) (hm : .destroy .pump room ∈ c.marks) :
    ∃ kept phase, phase.isLate = true ∧ Phase.Fits c room phase ∧
      c.roomMarks = .opened kept room :: Phase.trace room phase := by
  rw [← Core.mem_roomMarks rfl] at hm
  rcases h with hu | ⟨kept, r, phase, hfit, hlog⟩
  · rw [hu.log] at hm
    cases hm
  · rw [hlog] at hm
    have heq : phase.isLate = true ∧ room = r := by
      cases phase with
      | late | lateDone => exact ⟨rfl, by simpa [Phase.trace] using hm⟩
      | destroying afterPause | destroyed afterPause => cases afterPause <;> simp [Phase.trace] at hm
      | held | pausing | kept => simp [Phase.trace] at hm
    obtain ⟨hlate, rfl⟩ := heq
    exact ⟨kept, phase, hlate, hfit, hlog⟩

/-- A move that adds nothing to what happened to the room. -/
theorem Core.Staged.of_fits {kept : Option κ} (hfit : phase.Fits d room)
    (hlog : c.roomMarks = .opened kept room :: phase.trace room)
    (hmarks : d.roomMarks = c.roomMarks) : d.Staged :=
  .inr ⟨kept, room, phase, hfit, hmarks.trans hlog⟩

end Frame

/-! ## Every move tells the story on -/

section Steps

variable [Room ρ] {cfg : SessionConfig} {c d : Core ρ κ} {a : Act ρ κ}

/-- Before its first step the teardown has neither released the session nor looked for a room. -/
def Core.Fresh (c : Core ρ κ) : Prop :=
  c.teardown = none → c.released = false ∧ .foundNone ∉ c.marks

theorem Core.Unopened.step (h : Move cfg c a d) (hu : c.Unopened) (hfresh : c.Fresh) : d.Staged := by
  rcases hu with ⟨hleft, hpump, htask, hlog⟩
  cases h with
  | starts hp => exact .inl ⟨hleft, rfl, htask, hlog⟩
  | begins trigger =>
    refine .inl ⟨hleft, hpump, ?_, by simpa [Core.roomMarks, Mark.ofRoom] using hlog⟩
    cases ht : c.teardown with
    | none => rfl
    | some td => simpa [Core.holding, ht] using htask
  | cancelsPump pump hp =>
    refine .inl ⟨hleft, ?_, htask, by simpa [Core.roomMarks] using hlog⟩
    rw [hp] at hpump
    exact (pumpBefore_cancel pump).trans hpump
  | cancelsTeardown keep task ht hend =>
    refine .inl ⟨hleft, hpump, ?_, by simpa [Core.roomMarks, Mark.ofRoom] using hlog⟩
    simpa [Core.holding, ht] using htask
  | pumpStarts kept hp => exact .inl ⟨hleft, rfl, htask, by simpa [Core.roomMarks] using hlog⟩
  | pumpEnds pump how hp hmay => exact .inl ⟨hleft, rfl, htask, hlog⟩
  | openCut kept hp => exact .inl ⟨hleft, rfl, htask, hlog⟩
  | resumeFails k b hp =>
    exact .inl ⟨hleft, rfl, htask, by simpa [Core.roomMarks, Mark.ofRoom] using hlog⟩
  -- the two moves that obtain a room begin a story
  | opensLate kept b room hp ht =>
    refine .inr ⟨kept, room, .late, ⟨rfl, .inl rfl, ⟨ht, htask⟩, fun hlate ↦ by cases hlate⟩, ?_⟩
    have hlog : c.marks.filter Mark.ofRoom = [] := hlog
    simp [Core.roomMarks, hlog, Mark.ofRoom, Phase.trace]
  | opens kept b room hp ht =>
    refine .inr ⟨kept, room, .held, ⟨rfl, rfl, ⟨(hfresh ht).1, fun keep task ht' ↦ ?_⟩, fun _ ↦ ?_⟩, ?_⟩
    · rw [ht] at ht'
      cases ht'
    · simpa using (hfresh ht).2
    · have hlog : c.marks.filter Mark.ofRoom = [] := hlog
      simp [Core.roomMarks, hlog, Mark.ofRoom, Phase.trace]
  -- without a room the pump is at none of these points
  | lateDestroyed room b hp => simp [hp, pumpBefore] at hpump
  | lateCut room hp => simp [hp, pumpBefore] at hpump
  | reads room b p hp hnext => simp [hp, pumpBefore] at hpump
  | neverRuns keep ht => exact .inl ⟨hleft, hpump, rfl, hlog⟩
  | findsNone keep ht hroom =>
    exact .inl ⟨hleft, hpump, rfl, by simpa [Core.roomMarks, Mark.ofRoom] using hlog⟩
  | pauses room ht hroom henabled hcan =>
    rw [hleft] at hroom
    cases hroom
  | destroys keep room ht hroom =>
    rw [hleft] at hroom
    cases hroom
  | keeps keep room b ht => simp [Core.holding, ht] at htask
  | keepFails keep room b ht => simp [Core.holding, ht] at htask
  | destroyed keep room b ht => simp [Core.holding, ht] at htask
  | cut keep p ht => simp [Core.holding, ht] at htask

theorem Phase.Fits.step {kept : Option κ} {room : ρ} {phase : Phase} (h : Move cfg c a d)
    (hfit : phase.Fits c room) (hlog : c.roomMarks = .opened kept room :: phase.trace room) :
    d.Staged := by
  have ⟨hleft, hpump, htask, hfound⟩ := hfit
  have hmarks : c.marks.filter Mark.ofRoom = .opened kept room :: phase.trace room := hlog
  cases h with
  | starts hp => cases hpump.not_before hp rfl
  -- the first `_begin_teardown` of a `held` room, or one that changes nothing
  | begins trigger =>
    have hnew : c.marks ⊆ c.marks ++ [Mark.reached trigger c.room] := by simp
    refine .of_fits ⟨hleft, hpump.mono rfl hnew, ?_, fun hl ↦ ?_⟩ hlog ?_
    · cases ht : c.teardown with
      | some td => exact htask.mono (by simp [ht]) rfl hnew
      | none =>
        cases phase with
        | held =>
          refine ⟨htask.1, fun keep task ht' ↦ .inl ?_⟩
          cases ht'
          rfl
        | late | lateDone => exact absurd ht htask.1
        | pausing | destroying =>
          obtain ⟨keep, task, ht', -⟩ := htask
          rw [ht] at ht'
          cases ht'
        | kept | destroyed =>
          obtain ⟨keep, ht'⟩ := htask
          rw [ht] at ht'
          cases ht'
    · simpa using hfound hl
    · simp [Core.roomMarks, Mark.ofRoom]
  | cancelsPump pump hp =>
    refine .of_fits ⟨hleft, hpump.cancel hp rfl rfl, htask.mono rfl rfl (by simp), fun hl ↦ ?_⟩ hlog ?_
    · simpa [foundNone_not_mem_cancelMarks] using hfound hl
    · simp [Core.roomMarks]
  | cancelsTeardown keep task ht hend =>
    refine .of_fits ⟨hleft, hpump.mono rfl (by simp), htask.cancel ht hend rfl rfl rfl,
      fun hl ↦ ?_⟩ hlog ?_
    · simpa using hfound hl
    · simp [Core.roomMarks, Mark.ofRoom]
  | pumpStarts kept hp => cases hpump.not_before hp rfl
  -- a late `_checkout` ends by its own moves, never by this one
  | pumpEnds pump how hp hmay =>
    refine .of_fits ⟨hleft, ?_, htask.mono rfl rfl (List.Subset.refl _), hfound⟩ hlog rfl
    cases phase with
    | late =>
      rcases hpump with h | ⟨h | h, -⟩
      all_goals
        rw [hp] at h
        cases h
        simp [mayEnd] at hmay
    | lateDone =>
      have h : c.pump = _ := hpump
      rw [hp] at h
      cases h
      simp [mayEnd] at hmay
    | held | pausing | kept | destroying | destroyed => exact (rfl : pumpAfter (some (.ended how)) = true)
  | openCut kept hp => cases hpump.not_before hp rfl
  | resumeFails k b hp => cases hpump.not_before hp rfl
  | opensLate kept b room hp ht => cases hpump.not_before hp rfl
  | opens kept b room hp ht => cases hpump.not_before hp rfl
  -- from here on each move is the next line of the story of its phase
  | lateDestroyed r b hp =>
    obtain ⟨rfl, rfl⟩ := hpump.of_checkingOut hp
    refine .inr ⟨kept, r, .lateDone, ⟨hleft, rfl, htask, fun hl ↦ by cases hl⟩, ?_⟩
    simp [Core.roomMarks, hmarks, Mark.ofRoom, Phase.trace]
  | lateCut r hp =>
    obtain ⟨rfl, rfl⟩ := hpump.of_checkingOut hp
    refine .of_fits ⟨hleft, .inr ⟨.inr rfl, ?_⟩, htask, hfound⟩ hlog rfl
    rcases hpump with h | ⟨-, hm⟩
    · rw [hp] at h
      cases h
    · exact hm
  | reads r b p hp hnext =>
    refine .of_fits ⟨hleft, ?_, htask.mono rfl rfl (List.Subset.refl _), hfound⟩ hlog rfl
    have hnext' : pumpAfter (some (.suspended p false)) = true := by
      rcases hnext with rfl | hj
      · rfl
      · cases p <;> first | rfl | cases hj
    cases phase with
    | late =>
      rcases hpump with h | ⟨h | h, -⟩
      all_goals
        rw [hp] at h
        cases h
    | lateDone =>
      have h : c.pump = _ := hpump
      rw [hp] at h
      cases h
    | held | pausing | kept | destroying | destroyed => exact hnext'
  -- the room stays in `self._room` of a session that will not look at it again
  | neverRuns keep ht =>
    refine .of_fits ⟨hleft, hpump.mono rfl (List.Subset.refl _), ?_, hfound⟩ hlog rfl
    rcases htask.of_created ht with rfl | hl
    · refine ⟨htask.1, fun keep' task' ht' ↦ .inr ?_⟩
      cases ht'
      rcases htask.2 keep _ ht with hp | ⟨-, hm⟩
      · cases hp
      · exact ⟨.inr rfl, hm⟩
    · cases phase with
      | late | lateDone => exact ⟨by simp, rfl⟩
      | held | pausing | kept | destroying | destroyed => cases hl
  | findsNone keep ht hroom =>
    rcases htask.of_created ht with rfl | hl
    · rw [hroom] at hleft
      cases hleft
    · refine .of_fits ⟨hleft, hpump.mono rfl (by simp), ?_, fun hl' ↦ ?_⟩ hlog ?_
      · cases phase with
        | late | lateDone => exact ⟨by simp, rfl⟩
        | held | pausing | kept | destroying | destroyed => cases hl
      · rw [hl] at hl'
        cases hl'
      · simp [Core.roomMarks, Mark.ofRoom]
  | pauses r ht hroom henabled hcan =>
    rcases htask.of_created ht with rfl | hl
    · have hr : r = room := Option.some.inj (hroom.symm.trans hleft)
      subst hr
      refine .inr ⟨kept, r, .pausing, ⟨rfl, hpump, ⟨true, _, rfl, .inl rfl⟩, fun _ ↦ ?_⟩, ?_⟩
      · simpa using hfound rfl
      · simp [Core.roomMarks, hmarks, Mark.ofRoom, Phase.trace]
    · cases phase <;> simp [Phase.isLate, Phase.roomLeft, hroom] at hl hleft
  | destroys keep r ht hroom =>
    rcases htask.of_created ht with rfl | hl
    · have hr : r = room := Option.some.inj (hroom.symm.trans hleft)
      subst hr
      refine .inr ⟨kept, r, .destroying false, ⟨rfl, hpump, ⟨keep, _, rfl, .inl rfl⟩, fun _ ↦ ?_⟩, ?_⟩
      · simpa using hfound rfl
      · simp [Core.roomMarks, hmarks, Mark.ofRoom, Phase.trace]
    · cases phase <;> simp [Phase.isLate, Phase.roomLeft, hroom] at hl hleft
  | keeps keep r b ht =>
    rcases htask.of_suspended ht with ⟨hr, rfl⟩ | ⟨hr, -⟩
    · cases hr
      refine .inr ⟨kept, room, .kept, ⟨hleft, hpump, ⟨keep, rfl⟩, fun _ ↦ ?_⟩, ?_⟩
      · simpa using hfound rfl
      · simp [Core.roomMarks, hmarks, Mark.ofRoom, Phase.trace]
    · cases hr
  | keepFails keep r b ht =>
    rcases htask.of_suspended ht with ⟨hr, rfl⟩ | ⟨hr, -⟩
    · cases hr
      refine .inr ⟨kept, room, .destroying true, ⟨hleft, hpump, ⟨keep, _, rfl, .inl rfl⟩, fun _ ↦ ?_⟩, ?_⟩
      · simpa using hfound rfl
      · simp [Core.roomMarks, hmarks, Mark.ofRoom, Phase.trace]
    · cases hr
  | destroyed keep r b ht =>
    rcases htask.of_suspended ht with ⟨hr, -⟩ | ⟨hr, afterPause, rfl⟩
    · cases hr
    · cases hr
      refine .inr ⟨kept, room, .destroyed afterPause, ⟨hleft, hpump, ⟨keep, rfl⟩, fun _ ↦ ?_⟩, ?_⟩
      · simpa using hfound rfl
      · cases afterPause <;> simp [Core.roomMarks, hmarks, Mark.ofRoom, Phase.trace]
  -- the phase stays where it was cut off, with the cancellation in the log
  | cut keep p ht =>
    refine .of_fits ⟨hleft, hpump.mono rfl (List.Subset.refl _), ?_, hfound⟩ hlog rfl
    have hbusy {point : TeardownPoint ρ} (hb : c.BusyAt point) (hp : p = point) :
        Core.BusyAt { c with teardown := some (keep, .ended .cancelled), released := true } point := by
      obtain ⟨keep', task', ht', htask'⟩ := hb
      rw [ht] at ht'
      cases ht'
      rcases htask' with h | ⟨-, hm⟩
      · cases h
      · exact ⟨keep, _, rfl, .inr ⟨.inr rfl, hm⟩⟩
    rcases htask.of_suspended ht with ⟨hp, rfl⟩ | ⟨hp, afterPause, rfl⟩
    · exact hbusy htask hp
    · exact hbusy htask hp

end Steps

section Invariant

variable {c d : Core ρ κ}

/-- What every reachable session satisfies, about its room and its teardown. -/
structure Core.Lifecycle (c : Core ρ κ) : Prop where
  staged : c.Staged
  released : c.released = true → ∃ keep how, c.teardown = some (keep, .ended how)
  returned : c.Returned → c.released = true
  found : .foundNone ∈ c.marks → c.Returned
  /-- a teardown never ends in an exception of its own -/
  raised (keep : Bool) : c.teardown ≠ some (keep, .ended .raised)

theorem Core.Lifecycle.fresh (hc : c.Lifecycle) : c.Fresh := by
  intro ht
  constructor
  · by_contra hr
    obtain ⟨keep, how, ht'⟩ := hc.released (by simpa using hr)
    rw [ht] at ht'
    cases ht'
  · intro hm
    obtain ⟨keep, ht'⟩ := hc.found hm
    rw [ht] at ht'
    cases ht'

theorem Core.Lifecycle.live (hc : c.Lifecycle) {keep : Bool} {task : LoopTask (TeardownPoint ρ)}
    (ht : c.teardown = some (keep, task)) (hlive : task.isEnded = false) :
    c.released = false ∧ .foundNone ∉ c.marks := by
  constructor
  · by_contra hr
    obtain ⟨keep', how, ht'⟩ := hc.released (by simpa using hr)
    rw [ht] at ht'
    cases ht'
    cases hlive
  · intro hm
    obtain ⟨keep', ht'⟩ := hc.found hm
    rw [ht] at ht'
    cases ht'
    cases hlive

/-- While the teardown is at work, the room is its own. -/
theorem Core.Lifecycle.room_of_suspended (hc : c.Lifecycle) {keep b : Bool} {p : TeardownPoint ρ}
    (ht : c.teardown = some (keep, .suspended p b)) : c.room = none := by
  rcases hc.staged with hu | ⟨kept, r, phase, hfit, -⟩
  · exact hu.left
  · rcases hfit.task.of_suspended ht with ⟨-, rfl⟩ | ⟨-, afterPause, rfl⟩
    · exact hfit.left
    · exact hfit.left

/-- A move that leaves the teardown alone. -/
theorem Core.Lifecycle.frame (hc : c.Lifecycle) (hs : d.Staged) (ht : d.teardown = c.teardown)
    (hreleased : d.released = c.released) (hfound : .foundNone ∈ d.marks → .foundNone ∈ c.marks) :
    d.Lifecycle where
  staged := hs
  released hr := by
    rw [ht]
    exact hc.released (hreleased ▸ hr)
  returned hr := by
    rw [hreleased]
    exact hc.returned (hr.imp fun keep h ↦ ht ▸ h)
  found hm := (hc.found (hfound hm)).imp fun keep h ↦ ht ▸ h
  raised keep := ht ▸ hc.raised keep

theorem Core.Lifecycle.of_live (hs : d.Staged) {keep : Bool} {task : LoopTask (TeardownPoint ρ)}
    (ht : d.teardown = some (keep, task)) (hlive : task.isEnded = false)
    (hreleased : d.released = false) (hfound : .foundNone ∉ d.marks) : d.Lifecycle where
  staged := hs
  released hr := by
    rw [hreleased] at hr
    cases hr
  returned := by
    rintro ⟨keep', h⟩
    rw [ht] at h
    cases h
    cases hlive
  found hm := absurd hm hfound
  raised keep' h := by
    rw [ht] at h
    cases h
    cases hlive

theorem Core.Lifecycle.of_returned (hs : d.Staged) {keep : Bool}
    (ht : d.teardown = some (keep, .ended (.returned ()))) (hreleased : d.released = true) :
    d.Lifecycle where
  staged := hs
  released _ := ⟨keep, _, ht⟩
  returned _ := hreleased
  found _ := ⟨keep, ht⟩
  raised keep' h := by
    rw [ht] at h
    cases h

theorem Core.Lifecycle.of_cancelled (hs : d.Staged) {keep : Bool}
    (ht : d.teardown = some (keep, .ended .cancelled)) (hfound : .foundNone ∉ d.marks) :
    d.Lifecycle where
  staged := hs
  released _ := ⟨keep, _, ht⟩
  returned := by
    rintro ⟨keep', h⟩
    rw [ht] at h
    cases h
  found hm := absurd hm hfound
  raised keep' h := by
    rw [ht] at h
    cases h

theorem Core.Lifecycle.initial : (core (.initial : RoomSession ρ κ)).Lifecycle where
  staged := .inl ⟨rfl, rfl, rfl, rfl⟩
  released h := by cases h
  returned := by rintro ⟨keep, h⟩; cases h
  found h := by cases h
  raised keep h := by cases h

variable [Room ρ] {cfg : SessionConfig} {a : Act ρ κ}

theorem Core.Lifecycle.staged_step (h : Move cfg c a d) (hc : c.Lifecycle) : d.Staged := by
  rcases hc.staged with hu | ⟨kept, room, phase, hfit, hlog⟩
  · exact hu.step h hc.fresh
  · exact hfit.step h hlog

theorem Core.Lifecycle.step (h : Move cfg c a d) (hc : c.Lifecycle) : d.Lifecycle := by
  have hs : d.Staged := hc.staged_step h
  cases h with
  | begins trigger =>
    by_cases ht : c.teardown = none
    · obtain ⟨hreleased, hfound⟩ := hc.fresh ht
      have hnew : (c.teardown.getD (trigger == .connectionLost, .created false)).2.isEnded = false := by
        rw [ht]
        rfl
      exact .of_live hs rfl hnew hreleased (by simpa using hfound)
    · obtain ⟨td, ht⟩ := Option.ne_none_iff_exists'.mp ht
      exact hc.frame hs (by simp [ht]) rfl (by simp)
  | cancelsTeardown keep task ht hend =>
    obtain ⟨hreleased, hfound⟩ := hc.live ht hend
    exact .of_live hs rfl (by simpa using hend) hreleased (by simpa using hfound)
  | pauses room ht hroom henabled hcan =>
    obtain ⟨hreleased, hfound⟩ := hc.live ht rfl
    exact .of_live hs rfl rfl hreleased (by simpa using hfound)
  | destroys keep room ht hroom =>
    obtain ⟨hreleased, hfound⟩ := hc.live ht rfl
    exact .of_live hs rfl rfl hreleased (by simpa using hfound)
  | keepFails keep room b ht =>
    obtain ⟨hreleased, hfound⟩ := hc.live ht rfl
    exact .of_live hs rfl rfl hreleased (by simpa using hfound)
  -- the ends of a teardown
  | findsNone keep ht hroom => exact .of_returned hs rfl rfl
  | keeps keep room b ht => exact .of_returned hs rfl rfl
  | destroyed keep room b ht => exact .of_returned hs rfl rfl
  | neverRuns keep ht => exact .of_cancelled hs rfl (hc.live ht rfl).2
  | cut keep p ht => exact .of_cancelled hs rfl (hc.live ht rfl).2
  -- moves of the pump, which leave the teardown alone
  | starts hp => exact hc.frame hs rfl rfl id
  | pumpEnds pump how hp hmay => exact hc.frame hs rfl rfl id
  | openCut kept hp => exact hc.frame hs rfl rfl id
  | reads room b p hp hnext => exact hc.frame hs rfl rfl id
  | lateCut room hp => exact hc.frame hs rfl rfl id
  | cancelsPump pump hp =>
    exact hc.frame hs rfl rfl (by simp [foundNone_not_mem_cancelMarks])
  | pumpStarts kept hp =>
    exact hc.frame hs rfl rfl (by cases kept <;> simp [takeMarks])
  | resumeFails k b hp => exact hc.frame hs rfl rfl (by simp)
  | opensLate kept b room hp ht => exact hc.frame hs rfl rfl (by simp)
  | opens kept b room hp ht => exact hc.frame hs rfl rfl (by simp)
  | lateDestroyed room b hp => exact hc.frame hs rfl rfl (by simp)

/-- Every session, after any run, is where its log says. -/
theorem reachable_lifecycle {s : RoomSession ρ κ} (h : (machine ρ κ cfg).Reachable s) :
    (core s).Lifecycle :=
  h.invariant .initial fun _ _ _ _ hi hst ↦
    (step_moves hst).invariant hi fun _ _ _ hi _ hm ↦ hi.step hm

/-- The invariant rule for sessions.  Conditions on the steps become conditions on the labels of the
moves, and every move starts from a session that is where its log says. -/
theorem reached_invariant {ok : RoomSession ρ κ → Event ρ κ → Prop} {I : Core ρ κ → Prop}
    {s : RoomSession ρ κ} (h : (machine ρ κ cfg).ReachedBy ok s)
    (hinit : I (core (.initial : RoomSession ρ κ)))
    (hstep : ∀ s e, (machine ρ κ cfg).ReachedBy ok s → ok s e → ∀ c a d, acts s e a →
      Move cfg c a d → c.Lifecycle → I c → I d) : I (core s) := by
  refine h.invariant (I := fun s ↦ I (core s)) hinit fun s e t hs hi he hst ↦ ?_
  -- `Lifecycle` is carried along: between two moves of a step the core is that of no reachable state
  have hboth : (core t).Lifecycle ∧ I (core t) :=
    (step_moves hst).invariant (I := fun c ↦ c.Lifecycle ∧ I c)
      ⟨reachable_lifecycle hs.reachable, hi⟩ fun c a d hc ha hm ↦
        ⟨hc.1.step hm, hstep s e hs he c a d ha hm hc.1 hc.2⟩
  exact hboth.2

theorem Move.released (hm : Move cfg c a d) (h : c.released = true) : d.released = true := by
  cases hm <;> first | exact h | rfl

theorem step_released {s t : RoomSession ρ κ} {e : Event ρ κ} (h : step cfg s e = some t)
    (hr : s.released = true) : t.released = true :=
  (step_moves h).invariant (I := fun c ↦ c.released = true) hr fun _ _ _ hc _ hm ↦ hm.released hc

theorem Move.marks (hm : Move cfg c a d) : c.marks ⊆ d.marks := by
  cases hm <;> simp

theorem step_marks {s t : RoomSession ρ κ} {e : Event ρ κ} (h : step cfg s e = some t) :
    s.marks ⊆ t.marks :=
  (step_moves h).invariant (I := fun c ↦ s.marks ⊆ c.marks) (List.Subset.refl _)
    fun _ _ _ hc _ hm ↦ List.Subset.trans hc hm.marks

end Invariant

end Keycard.Session
