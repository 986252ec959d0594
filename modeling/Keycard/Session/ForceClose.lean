import Keycard.Session.Lifecycle
import Keycard.Session.Turn

/-!
# `force_close`

What the drain learns from one of its `force_close` calls: one that returns has seen the teardown
return, so the session is released.
-/

open Reasoning

namespace Keycard.Session

variable {ρ κ : Type}

/-! ## Nothing but the call itself moves it -/

/-- The steps of `force_close` and its cancellation. -/
def Event.ofCloser : Event ρ κ → Bool
  | .forceClose | .closerStarts _ | .closerResumes _ | .forceCloseTimeout => true
  | _ => false

section

variable {cfg : SessionConfig} {s t : RoomSession ρ κ} {e : Event ρ κ}

theorem Turn.closer [Room ρ] (h : Turn cfg s e t) (he : e.ofCloser = false) : t.closer = s.closer := by
  cases h with
  | connectionLost => rw [connectionLost_eq]
  | openEnds => rw [afterOpen_eq]
  | destroyKeptEnds => rw [afterDestroyKept_eq]
  | lateDestroyEnds => rw [afterLateDestroy_eq]
  | readEnds => rw [afterRead_eq]
  | pumpResumes => rw [goodbye_eq, dequeue_eq]
  | watchdogRuns => rw [idleWatchdog_eq]
  | watchdogResumes =>
    rw [dequeue_eq]
    rfl
  | forceClose | closerCutOff | closerStarts | closerResumes | forceCloseTimeout => cases he
  | teardownStarts => rw [runTeardown_eq]
  | keepEnds => rw [afterKeep_eq]
  | destroyEnds => rw [afterDestroy_eq]
  | sessionStarted | channelCloses | pumpCutOff | pumpStarts | watchdogCutOff | watchdogOff | teardownCutOff => rfl

theorem step_closer [Room ρ] (h : step cfg s e = some t) (he : e.ofCloser = false) : t.closer = s.closer :=
  (step_turn h).closer he

end

/-! ## What the call does -/

section

variable {s : RoomSession ρ κ}

theorem reportAndClose_cancelled (status : Int) (broken : Bool) (how : Outcome) :
    (s.reportAndClose status true broken how).2 = .cancelled := rfl

/-- It passes on how the teardown ended, unless the last lines raise. -/
theorem reportAndClose_of_writes {broken : Bool} (hw : s.writes broken = true) (status : Int)
    (how : Outcome) : (s.reportAndClose status false broken how).2 = how := by
  cases how with
  | returned u =>
    cases hclosing : s.chan.closing with
    | true => simp [RoomSession.reportAndClose, hclosing]
    | false =>
      have hb : broken = false := by simpa [RoomSession.writes, hclosing] using hw
      simp [RoomSession.reportAndClose, hclosing, hb]
  | raised => rfl
  | cancelled => rfl

theorem returned_of_reportAndClose {status : Int} {cancelled broken : Bool} {how : Outcome}
    (h : (s.reportAndClose status cancelled broken how).2 = .returned ()) : how = .returned () := by
  cases how with
  | returned u => rfl
  | raised => cases cancelled <;> cases h
  | cancelled => cases cancelled <;> cases h

theorem teardownOver_eq_some {how : Outcome} (h : s.teardownOver = some how) :
    ∃ td, s.teardown = some td ∧ td.task = .ended how := by
  unfold RoomSession.teardownOver at h
  split at h
  · rename_i allowKeep how' waiters htd
    cases h
    exact ⟨_, htd, rfl⟩
  · cases h

theorem teardownOver_of_ended {td : Teardown ρ} {how : Outcome} (htd : s.teardown = some td)
    (htask : td.task = .ended how) : s.teardownOver = some how := by
  obtain ⟨allowKeep, task, waiters⟩ := td
  simp only at htask
  subst htask
  simp [RoomSession.teardownOver, htd]

theorem forceClose_of_not_writes {broken : Bool} (hw : s.writes broken = false) :
    s.forceClose broken = s.endCloser .raised := by
  simp [RoomSession.forceClose, hw]

theorem reached_mem_beginTeardown (trigger : Trigger) (allowKeep : Bool) :
    .reached trigger s.room ∈ (s.beginTeardown trigger allowKeep).marks := by
  cases h : s.teardown <;> simp [RoomSession.beginTeardown, RoomSession.note, h]

theorem beginTeardown_chan (trigger : Trigger) (allowKeep : Bool) :
    (s.beginTeardown trigger allowKeep).chan = s.chan := by
  rw [beginTeardown_eq]

theorem enqueue_marks (who : Trigger) : (s.enqueue who).marks = s.marks := by
  rw [enqueue_eq]

theorem beginTeardown_of_over {trigger : Trigger} {allowKeep : Bool} {td : Teardown ρ}
    {how : Outcome} (htd : (s.beginTeardown trigger allowKeep).teardown = some td)
    (htask : td.task = .ended how) : s.teardown = some td := by
  cases h : s.teardown with
  | some td' => simpa [RoomSession.beginTeardown, RoomSession.note, h] using htd
  | none =>
    simp only [RoomSession.beginTeardown, RoomSession.note, h, Option.some.injEq] at htd
    subst htd
    cases htask

/-- Once its first line is written, `force_close` reaches `_begin_teardown`; then it waits, or ends
as the teardown has ended already. -/
theorem forceClose_of_writes {broken : Bool} (hw : s.writes broken = true) :
    (∃ room, .reached .forceClose room ∈ (s.forceClose broken).marks) ∧
      ((s.forceClose broken).closer = some (.suspended () false) ∨
        ∃ td how, s.teardown = some td ∧ td.task = .ended how ∧
          (s.forceClose broken).teardown = some td ∧
            (s.forceClose broken).closer = some (.ended how)) := by
  have hreached := reached_mem_beginTeardown (s := s) .forceClose false
  unfold RoomSession.forceClose
  simp only [hw, Bool.not_true, Bool.false_eq_true, if_false]
  split
  · rename_i how hover
    obtain ⟨td, htd, htask⟩ := teardownOver_eq_some hover
    have hw' : (s.beginTeardown .forceClose false).writes broken = true := by
      rw [RoomSession.writes, beginTeardown_chan]
      exact hw
    refine ⟨⟨s.room, hreached⟩, .inr ⟨td, how, beginTeardown_of_over htd htask, htask, htd, ?_⟩⟩
    have hend := reportAndClose_of_writes hw' shutdownExitStatus how
    simp [RoomSession.closerAfterTeardown, RoomSession.endCloser, hend]
  · refine ⟨⟨s.room, ?_⟩, .inl rfl⟩
    rw [enqueue_marks]
    exact hreached

theorem wakes_eq_some {who : Trigger} {how : Outcome} (h : wakes s who = some how) :
    ∃ td, s.teardown = some td ∧ td.task = .ended how := by
  unfold wakes at h
  split at h
  · rename_i allowKeep how' w ws htd
    split at h
    · cases h
      exact ⟨_, htd, rfl⟩
    · cases h
  · cases h

theorem dequeue_writes (broken : Bool) : s.dequeue.writes broken = s.writes broken := by
  rw [dequeue_eq]
  rfl

theorem cancelCloser_marks : s.marks ⊆ s.cancelCloser.marks := by
  unfold RoomSession.cancelCloser
  cases hc : s.closer with
  | none => exact List.Subset.refl _
  | some closer =>
    by_cases hf : Forwards s (fun _ ↦ true) closer
    · obtain ⟨hw, td, htd, hend⟩ := hf
      simp [cancelTask_of_waits htd hend hw, RoomSession.note, RoomSession.setTeardown]
    · simp [cancelTask_of_alone hf, RoomSession.noteAll]

theorem cancelCloser_closer :
    s.cancelCloser.closer = s.closer ∨ s.cancelCloser.closer = s.closer.map LoopTask.cancel := by
  unfold RoomSession.cancelCloser
  cases hc : s.closer with
  | none => exact .inl hc
  | some closer =>
    by_cases hf : Forwards s (fun _ ↦ true) closer
    · obtain ⟨hw, td, htd, hend⟩ := hf
      refine .inl ?_
      simp only [cancelTask_of_waits htd hend hw]
    · refine .inr ?_
      simp only [cancelTask_of_alone hf]
      rfl

end

/-! ## One that returns -/

section

variable [Room ρ] {cfg : SessionConfig} {s t : RoomSession ρ κ} {e : Event ρ κ}

theorem closerResumes_eq {broken : Bool} (h : step cfg s (.closerResumes broken) = some t) :
    ∃ c how, s.closer = some (.suspended () c) ∧ wakes s .forceClose = some how ∧
      t = s.dequeue.closerAfterTeardown c broken how := by
  cases step_turn h with
  | closerResumes hc hwakes => exact ⟨_, _, hc, hwakes, rfl⟩

theorem Move.returned {c d : Core ρ κ} {a : Act ρ κ} (hm : Move cfg c a d) (h : c.Returned) :
    d.Returned := by
  obtain ⟨keep, ht⟩ := h
  cases hm with
  | begins trigger => exact ⟨keep, by simp [ht]⟩
  | cancelsTeardown keep' task ht' hend =>
    rw [ht] at ht'
    cases ht'
    cases hend
  | neverRuns _ ht' | findsNone _ ht' _ | pauses _ ht' _ _ _ | destroys _ _ ht' _ | keeps _ _ _ ht'
  | keepFails _ _ _ ht' | destroyed _ _ _ ht' | cut _ _ ht' =>
    rw [ht] at ht'
    cases ht'
  | _ => exact ⟨keep, ht⟩

theorem step_returned (h : step cfg s e = some t) (hr : (core s).Returned) : (core t).Returned :=
  (step_moves h).invariant hr fun _ _ _ hc _ hm ↦ hm.returned hc

theorem closerStarts_eq {broken : Bool} (h : step cfg s (.closerStarts broken) = some t) :
    s.closer = some (.created true) ∧ t = s.endCloser .cancelled ∨
      s.closer = some (.created false) ∧ t = s.forceClose broken := by
  cases step_turn h with
  | closerCutOff hc => exact .inl ⟨hc, rfl⟩
  | closerStarts hc => exact .inr ⟨hc, rfl⟩

/-- A step leaves the call alone, or it is a step of the call: from its first line, or from its
`await`, to the `await` or to its end. -/
theorem step_closer_cases (h : step cfg s e = some t) (hforce : e ≠ .forceClose)
    (htimeout : e ≠ .forceCloseTimeout) : t.closer = s.closer ∨
      ∃ c c', s.closer = some c ∧ c.isEnded = false ∧ t.closer = some c' ∧
        (c' = .suspended () false ∨ c'.isEnded = true) := by
  cases he : e.ofCloser with
  | false => exact .inl (step_closer h he)
  | true =>
    refine .inr ?_
    cases e with
    | forceClose => exact absurd rfl hforce
    | forceCloseTimeout => exact absurd rfl htimeout
    | closerStarts broken =>
      rcases closerStarts_eq h with ⟨hc, rfl⟩ | ⟨hc, rfl⟩
      · exact ⟨_, _, hc, rfl, rfl, .inr rfl⟩
      · cases hw : s.writes broken with
        | false =>
          rw [forceClose_of_not_writes hw]
          exact ⟨_, _, hc, rfl, rfl, .inr rfl⟩
        | true =>
          rcases (forceClose_of_writes hw).2 with hc' | ⟨td, how, -, -, -, hc'⟩
          · exact ⟨_, _, hc, rfl, hc', .inl rfl⟩
          · exact ⟨_, _, hc, rfl, hc', .inr rfl⟩
    | closerResumes broken =>
      obtain ⟨c, how, hc, -, rfl⟩ := closerResumes_eq h
      exact ⟨_, _, hc, rfl, rfl, .inr rfl⟩
    | _ => cases he

theorem step_closer_returned (h : step cfg s e = some t)
    (hs : s.closer = some (.ended (.returned ())) → (core s).Returned)
    (ht : t.closer = some (.ended (.returned ()))) : (core t).Returned := by
  cases he : e.ofCloser with
  | false =>
    rw [step_closer h he] at ht
    exact step_returned h (hs ht)
  | true =>
    cases e with
    | forceClose =>
      cases step_turn h
      cases ht
    | forceCloseTimeout =>
      have hsr : s.closer = some (.ended (.returned ())) := by
        cases step_turn h
        rcases cancelCloser_closer (s := s) with hc | hc
        · exact hc ▸ ht
        · rw [hc] at ht
          obtain ⟨c, hc, hcancel⟩ := Option.map_eq_some_iff.mp ht
          cases c with
          | ended how => exact hcancel ▸ hc
          | created b => cases hcancel
          | suspended p b => cases hcancel
      exact step_returned h (hs hsr)
    | closerStarts broken =>
      rcases closerStarts_eq h with ⟨hc, rfl⟩ | ⟨hc, rfl⟩
      · cases ht
      · cases hw : s.writes broken with
        | false =>
          rw [forceClose_of_not_writes hw] at ht
          cases ht
        | true =>
          rcases (forceClose_of_writes hw).2 with hc | ⟨td, how, -, htask, htd, hc⟩
          · rw [hc] at ht
            cases ht
          · rw [hc] at ht
            cases ht
            exact ⟨td.allowKeep, by simp [core, htd, htask]⟩
    | closerResumes broken =>
      obtain ⟨c, how, -, hwakes, rfl⟩ := closerResumes_eq h
      obtain ⟨td, htd, htask⟩ := wakes_eq_some hwakes
      have hend : (s.dequeue.reportAndClose shutdownExitStatus c broken how).2 = .returned () := by
        simpa [RoomSession.closerAfterTeardown, RoomSession.endCloser] using ht
      have hhow : how = .returned () := returned_of_reportAndClose hend
      have hr : (core s.dequeue).Returned := by
        rw [core_dequeue]
        exact ⟨td.allowKeep, by simp [core, htd, htask, hhow]⟩
      exact hr
    | _ => cases he

/-- A `force_close` that has returned leaves a session that is released. -/
theorem released_of_closer_returned (h : (machine ρ κ cfg).Reachable s)
    (hc : s.closer = some (.ended (.returned ()))) : s.released = true := by
  have hr : s.closer = some (.ended (.returned ())) → (core s).Returned := by
    refine h.invariant (I := fun s ↦ s.closer = some (.ended (.returned ())) → (core s).Returned) ?_
      fun s e t _ hi hst ↦ step_closer_returned hst hi
    intro h
    cases h
  exact (reachable_lifecycle h).returned (hr hc)

end

end Keycard.Session
