import Keycard.Server.Drain

/-!
# What can stop the shutdown block

An exception of a session reaches `_drain` in one of three ways: from a warning that cannot be
written, from a `force_close` whose own lines raise, and from one that waits for a teardown which is
cancelled.
-/

open Reasoning

namespace Keycard.Server

open Session

/-- `force_close` neither raises in its own lines nor, unless it is timed out anyway, waits for a
teardown that was cancelled. -/
def CallOrderly {ρ κ : Type} (timedOut : Bool) (s : RoomSession ρ κ) : Session.Event ρ κ → Prop
  | .closerStarts broken =>
    s.writes broken = true ∧ (s.teardownOver = some .cancelled → timedOut = true)
  | .closerResumes broken =>
    (s.teardownOver = some (.returned ()) → s.closer = some (.suspended () false) →
      s.writes broken = true) ∧
      (s.teardownOver = some .cancelled → timedOut = true)
  | _ => True

/-- How the drain's call for a session stands: about to start, or past `_begin_teardown`. -/
def CallRight {ρ κ : Type} (timedOut : Bool) (s : RoomSession ρ κ) : Prop :=
  s.closer = some (.created false) ∧ timedOut = false ∨
    (∃ room, .reached .forceClose room ∈ s.marks) ∧ (∀ b, s.closer ≠ some (.created b)) ∧
      (s.closer = some (.suspended () true) → timedOut = true)

section Call

variable {ρ κ : Type} [Room ρ] {cfg : SessionConfig} {s t : RoomSession ρ κ}
  {e : Session.Event ρ κ} {timedOut : Bool}

/-- How a call that stands right may end. -/
def EndsRight (timedOut : Bool) : Outcome → Prop
  | .returned () => True
  | .raised => False
  | .cancelled => timedOut = true

theorem CallRight.starts {broken : Bool} (hst : Session.step cfg s (.closerStarts broken) = some t)
    (hok : CallOrderly timedOut s (.closerStarts broken)) (hlife : (core s).Lifecycle)
    (h : CallRight timedOut s) : CallRight timedOut t ∧
      ∀ how, t.closer = some (.ended how) → EndsRight timedOut how := by
  rcases closerStarts_eq hst with ⟨hc, -⟩ | ⟨hc, rfl⟩
  · exfalso
    rcases h with ⟨hc', -⟩ | ⟨-, hnot, -⟩
    · rw [hc] at hc'
      cases hc'
    · exact hnot true hc
  · obtain ⟨hw, hcancelled⟩ := hok
    obtain ⟨hreached, hcases⟩ := forceClose_of_writes hw
    rcases hcases with hc' | ⟨td, how, htd, htask, -, hc'⟩
    · refine ⟨.inr ⟨hreached, fun b hb ↦ ?_, fun hb ↦ ?_⟩, fun how hend ↦ ?_⟩
      · rw [hc'] at hb
        cases hb
      · rw [hc'] at hb
        cases hb
      · rw [hc'] at hend
        cases hend
    · refine ⟨.inr ⟨hreached, fun b hb ↦ ?_, fun hb ↦ ?_⟩, fun how' hend ↦ ?_⟩
      · rw [hc'] at hb
        cases hb
      · rw [hc'] at hb
        cases hb
      · rw [hc'] at hend
        cases hend
        cases how with
        | returned u => trivial
        | raised => exact absurd (by simp [core, htd, htask]) (hlife.raised td.allowKeep)
        | cancelled => exact hcancelled (teardownOver_of_ended htd htask)

theorem endsRight_of_resumes {broken : Bool}
    (hst : Session.step cfg s (.closerResumes broken) = some t)
    (hok : CallOrderly timedOut s (.closerResumes broken)) (hlife : (core s).Lifecycle)
    (hflag : s.closer = some (.suspended () true) → timedOut = true) {how : Outcome}
    (hend : t.closer = some (.ended how)) : EndsRight timedOut how := by
  obtain ⟨c, how', hc, hwakes, rfl⟩ := closerResumes_eq hst
  obtain ⟨td, htd, htask⟩ := wakes_eq_some hwakes
  have hover := teardownOver_of_ended htd htask
  obtain ⟨hwrites, hcancelled⟩ := hok
  have hhow : (s.dequeue.reportAndClose shutdownExitStatus c broken how').2 = how := by
    simpa [RoomSession.closerAfterTeardown, RoomSession.endCloser] using hend
  cases c with
  | true =>
    rw [reportAndClose_cancelled] at hhow
    subst hhow
    exact hflag hc
  | false =>
    cases how' with
    | returned u =>
      have hw : s.dequeue.writes broken = true := by
        rw [dequeue_writes]
        exact hwrites hover hc
      rw [reportAndClose_of_writes hw] at hhow
      subst hhow
      trivial
    | raised => exact absurd (by simp [core, htd, htask]) (hlife.raised td.allowKeep)
    | cancelled =>
      obtain rfl : how = .cancelled := hhow.symm
      exact hcancelled hover

/-- A call that is past its first line stays so. -/
theorem CallRight.started (hst : Session.step cfg s e = some t) (hforce : e ≠ .forceClose)
    (htimeout : e ≠ .forceCloseTimeout) (hreached : ∃ room, .reached .forceClose room ∈ s.marks)
    (hnot : ∀ b, s.closer ≠ some (.created b))
    (hflag : s.closer = some (.suspended () true) → timedOut = true) : CallRight timedOut t := by
  have hreached' : ∃ room, .reached .forceClose room ∈ t.marks :=
    hreached.imp fun _ hm ↦ step_marks hst hm
  rcases step_closer_cases hst hforce htimeout with hc | ⟨c, c', hc, hlive, hc', hcases⟩
  · refine .inr ⟨hreached', fun b ↦ ?_, ?_⟩
    · rw [hc]
      exact hnot b
    · rw [hc]
      exact hflag
  · refine .inr ⟨hreached', fun b hb ↦ ?_, fun hb ↦ ?_⟩
    · rw [hc'] at hb
      cases hb
      rcases hcases with h | h <;> cases h
    · rw [hc'] at hb
      cases hb
      rcases hcases with h | h <;> cases h

theorem CallRight.step (hst : Session.step cfg s e = some t) (hforce : e ≠ .forceClose)
    (htimeout : e ≠ .forceCloseTimeout) (hok : CallOrderly timedOut s e)
    (hlife : (core s).Lifecycle) (h : CallRight timedOut s) : CallRight timedOut t ∧
      (s.closer.any LoopTask.isEnded = false →
        ∀ how, t.closer = some (.ended how) → EndsRight timedOut how) := by
  cases he : e.ofCloser with
  | false =>
    have hc := step_closer hst he
    refine ⟨?_, fun hs how hend ↦ ?_⟩
    · rcases h with ⟨hcreated, htimely⟩ | ⟨hreached, hnot, hflag⟩
      · exact .inl ⟨hc.trans hcreated, htimely⟩
      · exact .started hst hforce htimeout hreached hnot hflag
    · rw [← hc, hend] at hs
      cases hs
  | true =>
    cases e with
    | closerStarts broken =>
      have hstarts := h.starts hst hok hlife
      exact ⟨hstarts.1, fun _ ↦ hstarts.2⟩
    | closerResumes broken =>
      obtain ⟨c, how', hc, -, -⟩ := closerResumes_eq hst
      rcases h with ⟨hcreated, -⟩ | ⟨hreached, hnot, hflag⟩
      · rw [hc] at hcreated
        cases hcreated
      · exact ⟨.started hst hforce htimeout hreached hnot hflag,
          fun _ how hend ↦ endsRight_of_resumes hst hok hlife hflag hend⟩
    | forceClose => exact absurd rfl hforce
    | forceCloseTimeout => exact absurd rfl htimeout
    | _ => cases he

end Call

variable {ι ρ κ : Type}

/-- A session that is not at its first line any more has reached `_begin_teardown`. -/
theorem CallRight.reached_of_started {w : Server ι ρ κ} {timedOut : Bool} {i : ι}
    {s : RoomSession ρ κ}
    (h : CallRight timedOut s) (hs : w.sessions i = some s) (hstarted : w.closerStarted i = true) :
    ∃ room, .reached .forceClose room ∈ s.marks := by
  rcases h with ⟨hc, -⟩ | ⟨hreached, -⟩
  · simp [closerStarted, closer, hs, hc] at hstarted
  · exact hreached

/-- The timeout finds every call at its `await`, or over. -/
theorem CallRight.timesOut {w : Server ι ρ κ} {timedOut : Bool} {i : ι}
    {s : RoomSession ρ κ}
    (h : CallRight timedOut s) (hs : w.sessions i = some s) (hstarted : w.closerStarted i = true) :
    CallRight true ((stepCloser s .forceCloseTimeout).getD s) := by
  rcases h with ⟨hc, -⟩ | ⟨hreached, hnot, -⟩
  · simp [closerStarted, closer, hs, hc] at hstarted
  · cases hc : s.closer with
    | none => exact .inr ⟨by simpa [stepCloser, hc] using hreached,
        fun b ↦ by simp [stepCloser, hc], fun _ ↦ rfl⟩
    | some c =>
      refine .inr ⟨?_, fun b hb ↦ ?_, fun _ ↦ rfl⟩
      · obtain ⟨room, hm⟩ := hreached
        exact ⟨room, by simpa [stepCloser, hc] using cancelCloser_marks hm⟩
      · have hb : s.cancelCloser.closer = some (.created b) := by simpa [stepCloser, hc] using hb
        rcases cancelCloser_closer (s := s) with h | h
        · exact hnot b (h ▸ hb)
        · rw [h, hc] at hb
          cases c with
          | created b' => exact hnot b' hc
          | suspended p b' => cases hb
          | ended how => cases hb

theorem endsRight_of_gathers {w : Server ι ρ κ} {members : Finset ι} {timedOut : Bool} {how how' : Outcome}
    (h : EndsRight timedOut how) (hg : w.gathers members how = some how') :
    EndsRight timedOut how' := by
  cases how with
  | returned u =>
    simp only [gathers] at hg
    split at hg
    · cases hg
      trivial
    · cases hg
  | raised => exact h.elim
  | cancelled =>
    cases hg
    exact h

variable [DecidableEq ι]

/-- No exception of a session reaches the drain. -/
def Orderly (cfg : ServerConfig) (w : Server ι ρ κ) : Event ι ρ κ → Prop
  | .shutdown broken =>
    0 < cfg.shutdownGrace → ∀ i ∈ w.active.sessions, w.notifyRaises broken i = false
  | .session i e => ∀ members timedOut s, w.phase = .forcing members timedOut none → i ∈ members →
      w.sessions i = some s → CallOrderly timedOut s e
  | _ => True

/-- The drain is over, and `serve` has gone on. -/
def pastDrain (w : Server ι ρ κ) : Bool :=
  match w.phase with
  | .closing | .sweeping | .backendClosing _ _ | .stopped | .sweepRaised => true
  | _ => false

structure Unstopped (w : Server ι ρ κ) : Prop where
  notAborted : w.phase ≠ .aborted
  /-- `_begin_teardown` was called on every session that was active when the grace period ended -/
  begun : w.pastDrain = true → ∀ i ∈ w.forced, ∃ s, w.sessions i = some s ∧
    ∃ room, .reached .forceClose room ∈ s.marks
  /-- the drain waits for a `force_close` that is alive, or goes on to `wait_closed` -/
  goesOn (members : Finset ι) (timedOut : Bool) (g : Option Outcome) :
    w.phase = .forcing members timedOut g →
      (g = none ∧ ∃ i ∈ members, w.closerEnded i = false) ∨
        ∃ how, g = some how ∧ afterGather timedOut how = (.closing : Shutdown ι)

/-- What makes it so. -/
structure DrainRight (w : Server ι ρ κ) : Prop where
  notAborted : w.phase ≠ .aborted
  notYet : w.phase = .serving ∨ w.phase = .grace → w.forced = ∅
  calls (members : Finset ι) (timedOut : Bool) (g : Option Outcome) :
    w.phase = .forcing members timedOut g → members = w.forced ∧
      (∀ i ∈ members, ∃ s, w.sessions i = some s ∧ CallRight timedOut s) ∧
        ∀ how, g = some how → EndsRight timedOut how
  begun : w.pastDrain = true → ∀ i ∈ w.forced, ∃ s, w.sessions i = some s ∧
    ∃ room, .reached .forceClose room ∈ s.marks

section Reach

variable [Room ρ] {cfg : ServerConfig} {w w' : Server ι ρ κ} {e : Event ι ρ κ}

theorem step_begun (hst : Server.step cfg w e = some w') {i : ι} {s : RoomSession ρ κ}
    {m : Mark ρ κ} (hs : w.sessions i = some s) (hm : m ∈ s.marks) :
    ∃ s', w'.sessions i = some s' ∧ m ∈ s'.marks := by
  cases step_stepped hst with
  | made j hnone =>
    have hij : i ≠ j := by
      rintro rfl
      rw [hnone] at hs
      cases hs
    exact ⟨s, by simp [connectionMade, hij, hs], hm⟩
  | session j e s₁ t hs₁ hstep hforce htimeout =>
    by_cases hij : i = j
    · subst hij
      obtain rfl : s = s₁ := Option.some.inj (hs.symm.trans hs₁)
      exact ⟨t, by simp, step_marks hstep hm⟩
    · exact ⟨s, by simp [hij, hs], hm⟩
  | forces e hp hne =>
    by_cases hi : i ∈ w.active.sessions
    · refine ⟨(stepCloser s .forceClose).getD s, by simp [forceCloseAll, hi, hs], ?_⟩
      cases hc : s.closer <;> simpa [stepCloser, hc] using hm
    · exact ⟨s, by simp [forceCloseAll, hi, hs], hm⟩
  | timesOut members hp hstarted =>
    by_cases hi : i ∈ members
    · refine ⟨(stepCloser s .forceCloseTimeout).getD s, by simp [cancelAll, hi, hs], ?_⟩
      cases hc : s.closer with
      | none => simpa [stepCloser, hc] using hm
      | some c => simpa [stepCloser, hc] using cancelCloser_marks hm
    · exact ⟨s, by simp [cancelAll, hi, hs], hm⟩
  | _ => exact ⟨s, hs, hm⟩

/-- Each of the drain's calls goes on standing right. -/
theorem DrainRight.call (hw : (machine ι ρ κ cfg).Reachable w) (h : DrainRight w)
    {members : Finset ι} {timedOut : Bool} {g : Option Outcome}
    (hp : w.phase = .forcing members timedOut g) {i : ι} (hi : i ∈ members)
    {s t : RoomSession ρ κ} {e : Session.Event ρ κ} (hs : w.sessions i = some s)
    (hst : Session.step cfg.session s e = some t) (hforce : e ≠ .forceClose)
    (htimeout : e ≠ .forceCloseTimeout) (hok : Orderly cfg w (.session i e)) :
    CallRight timedOut t := by
  obtain ⟨-, hcalls, hends⟩ := h.calls members timedOut g hp
  obtain ⟨s', hs', hcall⟩ := hcalls i hi
  obtain rfl : s = s' := Option.some.inj (hs.symm.trans hs')
  cases g with
  | none =>
    have hlife : (core s).Lifecycle := reachable_lifecycle (reachable_session hw hs)
    exact (hcall.step hst hforce htimeout (hok members timedOut s hp hi hs) hlife).1
  | some how =>
    rcases hcall with ⟨hc, rfl⟩ | ⟨hreached, hnot, hflag⟩
    · -- the `gather` has not come to anything while a call has yet to start
      exfalso
      have hend := hends how rfl
      cases how with
      | returned u =>
        have hret := (reachable_gathering hw).gathered members false _ hp i hi
        rw [closer_of_session hs, hc] at hret
        cases hret
      | raised => exact hend
      | cancelled => cases hend
    · exact .started hst hforce htimeout hreached hnot hflag

theorem DrainRight.step (hst : Server.step cfg w e = some w') (hok : Orderly cfg w e)
    (hw : (machine ι ρ κ cfg).Reachable w) (h : DrainRight w) : DrainRight w' := by
  have hbegun (hforced : w'.forced = w.forced) (hp : w.pastDrain = true) :
      ∀ i ∈ w'.forced, ∃ s, w'.sessions i = some s ∧
        ∃ room, .reached .forceClose room ∈ s.marks := by
    intro i hi
    rw [hforced] at hi
    obtain ⟨s, hs, room, hm⟩ := h.begun hp i hi
    obtain ⟨s', hs', hm'⟩ := step_begun hst hs hm
    exact ⟨s', hs', room, hm'⟩
  cases step_stepped hst with
  | made i hnone =>
    refine ⟨h.notAborted, h.notYet, fun members timedOut g hp ↦ ?_, fun hp ↦ hbegun rfl hp⟩
    obtain ⟨hmembers, hcalls, hends⟩ := h.calls members timedOut g hp
    refine ⟨hmembers, fun j hj ↦ ?_, hends⟩
    obtain ⟨s, hs, hcall⟩ := hcalls j hj
    have hji : j ≠ i := by
      rintro rfl
      rw [hnone] at hs
      cases hs
    exact ⟨s, by simp [connectionMade, hji, hs], hcall⟩
  | session i e s t hs hstep hforce htimeout =>
    have hcall (members : Finset ι) (timedOut : Bool) (g : Option Outcome)
        (hp : w.phase = .forcing members timedOut g) :
        ∀ j ∈ members, ∃ s', (w.put i s t).sessions j = some s' ∧ CallRight timedOut s' := by
      intro j hj
      by_cases hji : j = i
      · subst hji
        exact ⟨t, by simp, h.call hw hp hj hs hstep hforce htimeout hok⟩
      · obtain ⟨s', hs', hcall⟩ := (h.calls members timedOut g hp).2.1 j hj
        exact ⟨s', by simp [hji, hs'], hcall⟩
    have hforced : (w.put i s t).forced = w.forced := put_forced w i s t
    rcases put_phase_cases w i s t with hphase | ⟨members, timedOut, how, hp, hi, hlive, hend, hphase⟩
    · have hpast : (w.put i s t).pastDrain = w.pastDrain := by
        simp only [pastDrain, hphase]
      refine ⟨by rw [hphase]; exact h.notAborted, fun hp ↦ ?_, fun members timedOut g hp ↦ ?_,
        fun hp ↦ hbegun hforced (hpast ▸ hp)⟩
      · rw [hforced]
        exact h.notYet (hphase ▸ hp)
      · rw [hphase] at hp
        obtain ⟨hmembers, -, hends⟩ := h.calls members timedOut g hp
        exact ⟨hmembers.trans hforced.symm, hcall members timedOut g hp, hends⟩
    · refine ⟨by simp [hphase], by simp [hphase], fun members' timedOut' g hp' ↦ ?_, fun hp' ↦ ?_⟩
      · rw [hphase] at hp'
        cases hp'
        obtain ⟨hmembers, hcalls, -⟩ := h.calls members timedOut none hp
        refine ⟨hmembers.trans hforced.symm, hcall members timedOut none hp, fun how' hg ↦ ?_⟩
        obtain ⟨s', hs', hcall⟩ := hcalls i hi
        obtain rfl : s = s' := Option.some.inj (hs.symm.trans hs')
        have hlife : (core s).Lifecycle := reachable_lifecycle (reachable_session hw hs)
        have hstep' := hcall.step hstep hforce htimeout (hok members timedOut s hp hi hs) hlife
        exact endsRight_of_gathers (hstep'.2 hlive how hend) hg
      · simp [pastDrain, hphase] at hp'
  | drained e hp hempty =>
    refine ⟨by simp, by simp, fun _ _ _ hp' ↦ (by cases hp'), fun _ i hi ↦ ?_⟩
    rw [h.notYet hp] at hi
    simp at hi
  | notifyRaises broken i hp hi hgrace hraises =>
    rw [hok hgrace i hi] at hraises
    cases hraises
  | notifies broken hp =>
    exact ⟨by simp, fun _ ↦ h.notYet (.inl hp), fun _ _ _ hp' ↦ (by cases hp'), fun hp' ↦ (by cases hp')⟩
  | forces e hp hne =>
    refine ⟨by simp, by simp, fun members timedOut g hp' ↦ ?_, fun hp' ↦ (by cases hp')⟩
    cases hp'
    refine ⟨rfl, fun i hi ↦ ?_, fun how hg ↦ by cases hg⟩
    have hany := (reachable_activeRight hw i).mp hi
    cases hs : w.sessions i with
    | none => simp [hs] at hany
    | some s =>
      have hc : s.closer = none :=
        (closer_of_session hs).symm.trans ((reachable_gathering hw).notYet hp i)
      refine ⟨{ s with closer := some (.created false) }, ?_, .inl ⟨rfl, rfl⟩⟩
      simp [forceCloseAll, hi, hs, stepCloser, hc]
  | timesOut members hp hstarted =>
    obtain ⟨hmembers, hcalls, -⟩ := h.calls members false none hp
    refine ⟨by simp, by simp, fun members' timedOut g hp' ↦ ?_, fun hp' ↦ (by cases hp')⟩
    cases hp'
    refine ⟨hmembers, fun i hi ↦ ?_, fun how hg ↦ by cases hg⟩
    obtain ⟨s, hs, hcall⟩ := hcalls i hi
    exact ⟨_, by simp [cancelAll, hi, hs], hcall.timesOut hs (hstarted i hi)⟩
  | timesOutLate members how hp hstarted =>
    obtain ⟨hmembers, hcalls, -⟩ := h.calls members false (some how) hp
    refine ⟨by simp, by simp, fun members' timedOut g hp' ↦ ?_, fun hp' ↦ (by cases hp')⟩
    cases hp'
    refine ⟨hmembers, fun i hi ↦ ?_, fun how hg ↦ ?_⟩
    · obtain ⟨s, hs, hcall⟩ := hcalls i hi
      refine ⟨s, hs, ?_⟩
      rcases hcall with ⟨hc, -⟩ | ⟨hreached, hnot, -⟩
      · have hst := hstarted i hi
        simp [closerStarted, closer, hs, hc] at hst
      · exact .inr ⟨hreached, hnot, fun _ ↦ rfl⟩
    · cases hg
      rfl
  | resumes members timedOut how hp hstarted =>
    obtain ⟨hmembers, hcalls, hends⟩ := h.calls members timedOut (some how) hp
    have hclosing : afterGather timedOut how = (.closing : Shutdown ι) := by
      have hend := hends how rfl
      cases how with
      | returned u => rfl
      | raised => exact hend.elim
      | cancelled =>
        obtain rfl : timedOut = true := hend
        rfl
    refine ⟨by simp [hclosing], by simp [hclosing], fun _ _ _ hp' ↦ ?_, fun _ i hi ↦ ?_⟩
    · simp [hclosing] at hp'
    · obtain ⟨s, hs, hcall⟩ := hcalls i (hmembers ▸ hi)
      exact ⟨s, hs, hcall.reached_of_started hs (hstarted i (hmembers ▸ hi))⟩
  | closeEnds hp =>
    refine ⟨by simp, by simp, fun _ _ _ hp' ↦ (by cases hp'), fun _ ↦ hbegun rfl ?_⟩
    rw [pastDrain, hp]
  | sweepRaises hp =>
    refine ⟨by simp, by simp, fun _ _ _ hp' ↦ (by cases hp'), fun _ ↦ hbegun rfl ?_⟩
    rw [pastDrain, hp]
  | sweepEnds hp =>
    refine ⟨by simp, by simp, fun _ _ _ hp' ↦ (by cases hp'), fun _ ↦ hbegun rfl ?_⟩
    rw [pastDrain, hp]
  | backendCloses left late hp =>
    refine ⟨by simp, by simp, fun _ _ _ hp' ↦ (by cases hp'), fun _ ↦ hbegun rfl ?_⟩
    rw [pastDrain, hp]

theorem reached_drainRight (h : (machine ι ρ κ cfg).ReachedBy (Orderly cfg) w) : DrainRight w := by
  refine h.invariant (I := DrainRight) ?_ fun s e t hs hi he hst ↦ hi.step hst he hs.reachable
  exact ⟨nofun, fun _ ↦ rfl, nofun, nofun⟩

/-- In every run in which no exception of a session reaches the drain, the shutdown block goes on to
its end, and no session that was active after the grace period is left out. -/
theorem unstopped_of_orderly (h : (machine ι ρ κ cfg).ReachedBy (Orderly cfg) w) : Unstopped w := by
  have hright := reached_drainRight h
  refine ⟨hright.notAborted, hright.begun, fun members timedOut g hp ↦ ?_⟩
  cases g with
  | none => exact .inl ⟨rfl, ((reachable_gathering h.reachable).gathered members timedOut _ hp).2⟩
  | some how =>
    refine .inr ⟨how, rfl, ?_⟩
    have hend := (hright.calls members timedOut _ hp).2.2 how rfl
    cases how with
    | returned u => rfl
    | raised => exact hend.elim
    | cancelled =>
      obtain rfl : timedOut = true := hend
      rfl

end Reach

/-- A shutdown without grace that cuts one session short. -/
def cutShort : List (Event Nat BuiltRoom Nat) :=
  [.connectionMade 0, .shutdown fun _ ↦ false, .session 0 (.closerStarts false),
    .session 0 .teardownStarts, .session 0 (.closerResumes false), .drainResumes]

theorem cutShort_unstopped : ∃ w : Server Nat BuiltRoom Nat,
    (machine Nat BuiltRoom Nat ⟨⟨none, 0⟩, 0⟩).run .initial cutShort = some w ∧
      w.phase = .closing ∧ Unstopped w := by
  have hrun : (machine Nat BuiltRoom Nat ⟨⟨none, 0⟩, 0⟩).run .initial cutShort = some _ := rfl
  refine ⟨_, hrun, rfl, unstopped_of_orderly (Machine.ReachedBy.run .init ?_ hrun)⟩
  refine .cons trivial rfl (.cons (fun h ↦ absurd h (by decide)) rfl (.cons ?_ rfl
    (.cons (fun _ _ _ _ _ _ ↦ trivial) rfl (.cons ?_ rfl (.cons trivial rfl trivial)))))
  · intro members timedOut s hp hi hs
    obtain rfl := Option.some.inj hs
    exact ⟨rfl, nofun⟩
  · intro members timedOut s hp hi hs
    obtain rfl := Option.some.inj hs
    exact ⟨fun _ _ ↦ rfl, nofun⟩

/-- The same, but the channel does not take the message of `force_close`. -/
def brokenChannel : List (Event Nat BuiltRoom Nat) :=
  [.connectionMade 0, .connectionMade 1, .shutdown fun _ ↦ false, .session 0 (.closerStarts true),
    .session 1 (.closerStarts false), .drainResumes]

theorem brokenChannel_stops : ¬ ∀ (cfg : ServerConfig) (es : List (Event Nat BuiltRoom Nat))
    (w : Server Nat BuiltRoom Nat),
    (machine Nat BuiltRoom Nat cfg).run .initial es = some w → Unstopped w := by
  intro h
  exact (h ⟨⟨none, 0⟩, 0⟩ brokenChannel _ rfl).notAborted rfl

end Keycard.Server
