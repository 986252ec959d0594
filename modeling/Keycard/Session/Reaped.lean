import Keycard.Session.Core
import Keycard.Session.IdleReaper
import Mathlib.Tactic.Linarith

/-!
# The reaper is exact

However often there is traffic while the watchdog sleeps, it never wakes later than `idle_seconds` after the
last of it, since what it slept for was counted from an earlier moment.  When it wakes it looks at the clock,
so it never reaps earlier either.  But it writes a banner first, and if that raises it never reaps at all.
-/

open Reasoning

namespace Keycard.Session

variable {ρ κ : Type}

/-! ## What a step does to the watchdog -/

section Watchdog

variable {s t : RoomSession ρ κ}

/-- A step that is no turn of the watchdog's loop leaves the watchdog where it is, starts it, cancels it, or
takes it on from its wait for the teardown. -/
inductive Watch (s t : RoomSession ρ κ) : Prop
  | same (h : t.watchdog = s.watchdog)
  | starts (hpump : s.pump = none) (hpump' : t.pump ≠ none) (h : t.watchdog = some (.created false))
  | cancels (h : t.watchdog = s.watchdog.map LoopTask.cancel)
  | resumes {c : Bool} {how : Outcome} (hs : s.watchdog = some (.suspended .joining c))
      (h : t.watchdog = some (.ended how))

theorem cancelWatchdog_watchdog (s : RoomSession ρ κ) :
    s.cancelWatchdog.watchdog = s.watchdog ∨ s.cancelWatchdog.watchdog = s.watchdog.map LoopTask.cancel := by
  unfold RoomSession.cancelWatchdog
  split
  · exact .inl rfl
  · rename_i watchdog hw
    rw [hw]
    by_cases hf : Forwards s WatchdogPoint.joins watchdog
    · obtain ⟨hwaits, td, htd, hend⟩ := hf
      -- it waits for the teardown, which takes the cancellation over
      rw [cancelTask_of_waits htd hend hwaits]
      exact .inl rfl
    · rw [cancelTask_of_alone hf]
      exact .inr rfl

theorem connectionLost_watch (s : RoomSession ρ κ) : Watch s s.connectionLost := by
  let s' : RoomSession ρ κ := { s with chan := { s.chan with closing := true, lost := true } }
  have hbefore : s'.cancelPump.watchdog = s.watchdog := by rw [cancelPump_eq]
  have hafter : s.connectionLost.watchdog = s'.cancelPump.cancelWatchdog.watchdog := by
    show (s'.cancelPump.cancelWatchdog.beginTeardown .connectionLost true).watchdog = _
    rw [beginTeardown_eq]
  -- the pump is cancelled first, and that leaves the watchdog where it is
  rcases cancelWatchdog_watchdog s'.cancelPump with h | h
  · exact .same (by rw [hafter, h, hbefore])
  · exact .cancels (by rw [hafter, h, hbefore])

theorem Watch.pump_ne_none (h : Watch s t) (hpump : s.pump ≠ none → t.pump ≠ none)
    (hs : s.watchdog ≠ none → s.pump ≠ none) (ht : t.watchdog ≠ none) : t.pump ≠ none := by
  cases h with
  | same h =>
    rw [h] at ht
    exact hpump (hs ht)
  | starts _ hpump' h => exact hpump'
  | cancels h =>
    rw [h] at ht
    exact hpump (hs fun hnone ↦ ht (by rw [hnone]; rfl))
  | resumes hw h => exact hpump (hs (by rw [hw]; exact Option.some_ne_none _))

variable [Room ρ] {cfg : SessionConfig} {e : Event ρ κ}

theorem Turn.watch (h : Turn cfg s e t) (he : TimedSession.isWatchdogRuns e = false) : Watch s t := by
  cases h with
  | sessionStarted hp => exact .starts hp (Option.some_ne_none _) rfl
  | connectionLost => exact connectionLost_watch s
  | watchdogResumes hw => exact .resumes hw rfl
  | watchdogCutOff | watchdogOff | watchdogRuns => cases he
  | openEnds => exact .same (by rw [afterOpen_eq])
  | destroyKeptEnds => exact .same (by rw [afterDestroyKept_eq])
  | lateDestroyEnds => exact .same (by rw [afterLateDestroy_eq])
  | readEnds => exact .same (by rw [afterRead_eq])
  | pumpResumes => exact .same (by rw [goodbye_eq, dequeue_eq])
  | closerStarts => exact .same (by rw [forceClose_eq])
  | closerResumes => exact .same (by rw [dequeue_eq]; rfl)
  | forceCloseTimeout => exact .same (by rw [cancelCloser_eq])
  | teardownStarts => exact .same (by rw [runTeardown_eq])
  | keepEnds => exact .same (by rw [afterKeep_eq])
  | destroyEnds => exact .same (by rw [afterDestroy_eq])
  | channelCloses | pumpCutOff | pumpStarts | forceClose | closerCutOff | teardownCutOff => exact .same rfl

theorem Move.pump_ne_none {cfg : SessionConfig} {a : Act ρ κ} {c c' : Core ρ κ} (h : Move cfg c a c')
    (hc : c.pump ≠ none) : c'.pump ≠ none := by
  cases h <;> simp_all

/-- Once there is a pump, there is one for good. -/
theorem pump_ne_none (h : step cfg s e = some t) (hs : s.pump ≠ none) : t.pump ≠ none :=
  (step_moves h).invariant (I := fun c ↦ c.pump ≠ none) hs fun _ _ _ hc _ hmove ↦ hmove.pump_ne_none hc

end Watchdog

/-! ## One turn of the loop -/

namespace TimedSession

/-- A lost connection has cancelled the watchdog in its loop. -/
def cutOff (s : RoomSession ρ κ) : Bool :=
  match s.watchdog with
  | some (.created true) => true
  | some (.suspended .sleeping true) => true
  | some (.ended .cancelled) => true
  | _ => false

/-- What the watchdog does once it runs, by what it finds on the clock. -/
inductive Look (s : RoomSession ρ κ) (broken : Bool) : Bool → RoomSession ρ κ → Prop
  | sleeps {t : RoomSession ρ κ} (h : t.watchdog = some (.suspended .sleeping false))
      (hreapings : reapings t = reapings s) : Look s broken false t
  /-- the channel has not taken the banner -/
  | falls {t : RoomSession ρ κ} (hwrites : s.writes broken = false) (hreapings : reapings t = reapings s) :
      Look s broken true t
  | reaps {t : RoomSession ρ κ} (hunstarted : unstarted t = false) (hsleeps : sleeps t = false)
      (hreapings : reapings t = reapings s + 1) : Look s broken true t

theorem reapings_reached (s : RoomSession ρ κ) (room : Option ρ) {t : RoomSession ρ κ}
    (h : t.marks = s.marks ++ [.reached .watchdog room]) : reapings t = reapings s + 1 := by
  unfold reapings
  rw [h, List.countP_append]
  rfl

theorem idleWatchdog_look (s : RoomSession ρ κ) (idle broken : Bool) :
    Look s broken idle (s.idleWatchdog idle broken) := by
  unfold RoomSession.idleWatchdog
  cases idle with
  | false => exact .sleeps rfl rfl
  | true =>
    cases hwrites : s.writes broken with
    | false => exact .falls hwrites rfl
    | true =>
      have hmarks : (s.beginTeardown .watchdog false).marks = s.marks ++ [.reached .watchdog s.room] := by
        rw [beginTeardown_eq]
      simp only [Bool.not_true, Bool.false_eq_true, if_false]
      split
      · exact .reaps rfl rfl (reapings_reached s s.room hmarks)
      · apply Look.reaps
        · rfl
        · rfl
        · apply reapings_reached s s.room
          rw [enqueue_eq]
          exact hmarks

/-- Where the watchdog was when it ran, and what came of it. -/
inductive Runs (cfg : SessionConfig) (s : RoomSession ρ κ) (idle broken : Bool) (t : RoomSession ρ κ) : Prop
  | ends {how : Outcome} (hs : cutOff s = true ∧ how = .cancelled ∨ cfg.idleSeconds ≤ 0)
      (h : t.watchdog = some (.ended how)) (hreapings : reapings t = reapings s)
  | looks (hs : unstarted s = true ∧ 0 < cfg.idleSeconds ∨ sleeps s = true) (h : Look s broken idle t)

theorem watchdogRuns_runs [Room ρ] {cfg : SessionConfig} {s t : RoomSession ρ κ} {idle broken : Bool}
    (h : Session.step cfg s (.watchdogRuns idle broken) = some t) : Runs cfg s idle broken t ∧ s.watchdog ≠ none := by
  cases step_turn h with
  | watchdogCutOff hw =>
    rcases hw with hw | hw
    · exact ⟨.ends (.inl ⟨by simp [cutOff, hw], rfl⟩) rfl rfl, by simp [hw]⟩
    · exact ⟨.ends (.inl ⟨by simp [cutOff, hw], rfl⟩) rfl rfl, by simp [hw]⟩
  | watchdogOff hw hidle => exact ⟨.ends (.inr hidle) rfl rfl, by simp [hw]⟩
  | watchdogRuns hw =>
    rcases hw with ⟨hw, hidle⟩ | hw
    · exact ⟨.looks (.inl ⟨by simp [unstarted, hw], hidle⟩) (idleWatchdog_look s idle broken), by simp [hw]⟩
    · exact ⟨.looks (.inr (by simp [sleeps, hw])) (idleWatchdog_look s idle broken), by simp [hw]⟩

/-- A step of a session with its clock. -/
inductive Tick (cfg : SessionConfig) (s : TimedSession ρ κ) : TimedEvent ρ κ → TimedSession ρ κ → Prop
  | passes {seconds : ℚ} (h : 0 ≤ seconds) :
      Tick cfg s (.passes seconds) { s with clock := s.clock + seconds }
  | runs {broken : Bool} {u : RoomSession ρ κ} (h : Runs cfg s.session (s.remaining cfg ≤ 0) broken u)
      (hw : s.session.watchdog ≠ none) (hpump : s.session.pump ≠ none → u.pump ≠ none) :
      Tick cfg s (.watchdogRuns broken) (s.afterWatchdog cfg u)
  | active {e : TimedEvent ρ κ} {u : RoomSession ρ κ} (h : Watch s.session u)
      (hpump : s.session.pump ≠ none → u.pump ≠ none) : Tick cfg s e { s with session := u }.active
  | quiet {e : Event ρ κ} {u : RoomSession ρ κ} (h : Watch s.session u)
      (hpump : s.session.pump ≠ none → u.pump ≠ none) : Tick cfg s (.session e) { s with session := u }

theorem step_tick [Room ρ] {cfg : SessionConfig} {s t : TimedSession ρ κ} {e : TimedEvent ρ κ}
    (h : step cfg s e = some t) : Tick cfg s e t := by
  cases e with
  | passes seconds =>
    simp only [step] at h
    split at h <;> cases h
    exact .passes ‹_›
  | dataReceived =>
    cases h
    exact .active (.same rfl) id
  | watchdogRuns broken =>
    obtain ⟨u, hu, rfl⟩ := Option.map_eq_some_iff.mp h
    obtain ⟨hruns, hw⟩ := watchdogRuns_runs hu
    exact .runs hruns hw (pump_ne_none hu)
  | session e =>
    simp only [step] at h
    split at h
    · cases h
    · rename_i he
      obtain ⟨u, hu, rfl⟩ := Option.map_eq_some_iff.mp h
      have hwatch : Watch s.session u := (step_turn hu).watch (by simpa using he)
      unfold follow
      split
      · exact .active hwatch (pump_ne_none hu)
      · exact .quiet hwatch (pump_ne_none hu)

/-! ## What holds at every moment -/

/-- The traffic is what the clock has said of it. -/
structure Stamped (s : TimedSession ρ κ) : Prop where
  last : s.traffic.getLast? = some s.lastActivity
  past (x : ℚ) : x ∈ s.traffic → x ≤ s.lastActivity
  since : 0 ≤ s.lastActivity
  now : s.lastActivity ≤ s.clock

/-- Nothing is reaped before its time. -/
structure Patient (cfg : SessionConfig) (s : TimedSession ρ κ) : Prop where
  reaps (reap : Reap) : reap ∈ s.reaps → ∀ x ∈ reap.before, cfg.idleSeconds ≤ reap.time - x
  off : cfg.idleSeconds ≤ 0 → s.reaps = [] ∧ sleeps s.session = false

/-- What the watchdog does comes at the right moment. -/
structure Exact (cfg : SessionConfig) (s : TimedSession ρ κ) : Prop where
  unstarted : unstarted s.session = true → s.clock ≤ cfg.idleSeconds
  sleeps : sleeps s.session = true → s.clock ≤ s.wake ∧
    ∀ last, s.traffic.getLast? = some last → s.wake ≤ last + cfg.idleSeconds
  /-- it is reaped when the last of the traffic lies just so far in the past -/
  reaps (reap : Reap) : reap ∈ s.reaps →
    ∃ last, reap.before.getLast? = some last ∧ reap.time = last + cfg.idleSeconds
  /-- and it is reaped, unless the client has gone -/
  left : TimedSession.unstarted s.session = false → TimedSession.sleeps s.session = false →
    s.reaps ≠ [] ∨ cutOff s.session = true

section Invariants

variable {cfg : SessionConfig} {s t : TimedSession ρ κ} {e : TimedEvent ρ κ}

theorem Stamped.tick (h : Stamped s) (ht : Tick cfg s e t) : Stamped t := by
  cases ht with
  | @passes seconds hseconds =>
    exact ⟨h.last, h.past, h.since, le_trans h.now (le_add_of_nonneg_right hseconds)⟩
  | runs => exact ⟨h.last, h.past, h.since, h.now⟩
  | quiet => exact ⟨h.last, h.past, h.since, h.now⟩
  | active =>
    refine ⟨List.getLast?_concat, fun x hx ↦ ?_, le_trans h.since h.now, le_rfl⟩
    rcases List.mem_append.mp hx with hx | hx
    · exact le_trans (h.past x hx) h.now
    · exact le_of_eq (List.mem_singleton.mp hx)

/-- The watchdog is started together with the pump. -/
theorem Tick.pump_ne_none (h : Tick cfg s e t) (hs : s.session.watchdog ≠ none → s.session.pump ≠ none) :
    t.session.watchdog ≠ none → t.session.pump ≠ none := by
  cases h with
  | passes => exact hs
  | runs _ hw hpump => exact fun _ ↦ hpump (hs hw)
  | active hwatch hpump => exact hwatch.pump_ne_none hpump hs
  | quiet hwatch hpump => exact hwatch.pump_ne_none hpump hs

theorem sleeps_cancel {s t : RoomSession ρ κ} (h : t.watchdog = s.watchdog.map LoopTask.cancel) :
    sleeps t = false := by
  unfold sleeps
  rw [h]
  rcases s.watchdog with _ | _ | ⟨_ | _, _⟩ | _ <;> rfl

theorem sleeps_watch {s t : RoomSession ρ κ} (h : Watch s t) (hs : sleeps s = false) : sleeps t = false := by
  cases h with
  | same h =>
    rw [← hs]
    unfold sleeps
    rw [h]
  | starts _ _ h => simp [sleeps, h]
  | cancels h => exact sleeps_cancel h
  | resumes hs h => simp [sleeps, h]

theorem reaps_of_eq {u : RoomSession ρ κ} (h : reapings u = reapings s.session) :
    (s.afterWatchdog cfg u).reaps = s.reaps := by
  apply if_neg
  omega

theorem reaps_of_succ {u : RoomSession ρ κ} (h : reapings u = reapings s.session + 1) :
    (s.afterWatchdog cfg u).reaps = s.reaps ++ [⟨s.clock, s.traffic⟩] := by
  apply if_pos
  omega

/-- Who looks at the clock in time finds nothing in the last `idle_seconds`. -/
theorem Stamped.idle (h : Stamped s) (hidle : s.remaining cfg ≤ 0) :
    ∀ x ∈ s.traffic, cfg.idleSeconds ≤ s.clock - x := by
  intro x hx
  have hpast : x ≤ s.lastActivity := h.past x hx
  unfold remaining at hidle
  linarith

theorem Patient.tick (h : Patient cfg s) (hstamped : Stamped s) (ht : Tick cfg s e t) : Patient cfg t := by
  cases ht with
  | passes => exact ⟨h.reaps, h.off⟩
  | active hwatch => exact ⟨h.reaps, fun hoff ↦ ⟨(h.off hoff).1, sleeps_watch hwatch (h.off hoff).2⟩⟩
  | quiet hwatch => exact ⟨h.reaps, fun hoff ↦ ⟨(h.off hoff).1, sleeps_watch hwatch (h.off hoff).2⟩⟩
  | @runs broken u hruns =>
    cases hruns with
    | ends hs hended hreapings =>
      have hkeeps : (s.afterWatchdog cfg u).reaps = s.reaps := reaps_of_eq hreapings
      refine ⟨?_, fun hoff ↦ ⟨?_, ?_⟩⟩
      · rw [hkeeps]
        exact h.reaps
      · rw [hkeeps]
        exact (h.off hoff).1
      · show sleeps u = false
        simp [sleeps, hended]
    | looks hs hlook =>
      -- only a watchdog that is switched on looks at the clock
      have hon : ¬ cfg.idleSeconds ≤ 0 := by
        intro hoff
        rcases hs with ⟨-, hidle⟩ | hs
        · exact absurd hidle (not_lt_of_ge hoff)
        · rw [(h.off hoff).2] at hs
          cases hs
      refine ⟨fun reap hreap ↦ ?_, fun hoff ↦ absurd hoff hon⟩
      generalize hidle : decide (s.remaining cfg ≤ 0) = idle at hlook
      cases hlook with
      | sleeps _ hreapings =>
        rw [reaps_of_eq hreapings] at hreap
        exact h.reaps reap hreap
      | falls _ hreapings =>
        rw [reaps_of_eq hreapings] at hreap
        exact h.reaps reap hreap
      | reaps _ _ hreapings =>
        rw [reaps_of_succ hreapings] at hreap
        rcases List.mem_append.mp hreap with hreap | hreap
        · exact h.reaps reap hreap
        · rw [List.mem_singleton.mp hreap]
          exact hstamped.idle (of_decide_eq_true hidle)

theorem unstarted_watch {s t : RoomSession ρ κ} (h : Watch s t) (hfresh : s.watchdog ≠ none → s.pump ≠ none)
    (ht : unstarted t = true) : unstarted s = true := by
  cases h with
  | same h =>
    rw [← ht]
    unfold unstarted
    rw [h]
  | starts hpump =>
    -- there is no watchdog without a pump
    have hnone : s.watchdog = none := by
      by_contra hw
      exact hfresh hw hpump
    simp [unstarted, hnone]
  | cancels h =>
    unfold unstarted at ht ⊢
    rw [h] at ht
    rcases hw : s.watchdog with _ | _ | _ | _ <;> simp_all
  | resumes hw h => simp [unstarted, h] at ht

/-- Nobody but the loop itself leaves the loop, unless the watchdog is cancelled. -/
theorem left_watch {s t : RoomSession ρ κ} (h : Watch s t) (hunstarted : unstarted t = false)
    (hsleeps : sleeps t = false) : cutOff t = true ∨ unstarted s = false ∧ sleeps s = false ∧
      (cutOff s = true → cutOff t = true) := by
  cases h with
  | same h =>
    unfold unstarted at hunstarted
    unfold sleeps at hsleeps
    rw [h] at hunstarted hsleeps
    refine .inr ⟨hunstarted, hsleeps, fun hs ↦ ?_⟩
    unfold cutOff at hs ⊢
    rw [h]
    exact hs
  | starts _ _ h => simp [unstarted, h] at hunstarted
  | cancels h =>
    rcases hw : s.watchdog with _ | c | ⟨point, c⟩ | how
    · rw [hw] at h
      simp [unstarted, h] at hunstarted
    · rw [hw] at h
      simp [cutOff, h]
    · rw [hw] at h
      cases point with
      | sleeping => simp [cutOff, h]
      -- it has left the loop, whoever cancels it now
      | joining => simp [unstarted, sleeps, cutOff, hw]
    · rw [hw] at h
      simp [unstarted, sleeps, cutOff, hw, h]
  | resumes hw h => simp [unstarted, sleeps, cutOff, hw]

/-- The watchdog is in its loop, and its next look at the clock comes no later than it should. -/
theorem Exact.due (h : Exact cfg s) (hstamped : Stamped s) {broken : Bool} (hok : s.Prompt cfg (.watchdogRuns broken))
    (hs : TimedSession.unstarted s.session = true ∧ 0 < cfg.idleSeconds ∨ TimedSession.sleeps s.session = true) :
    s.clock ≤ s.lastActivity + cfg.idleSeconds := by
  rcases hs with ⟨hs, -⟩ | hs
  · have hclock := h.unstarted hs
    have hsince := hstamped.since
    linarith
  · rw [hok hs]
    exact (h.sleeps hs).2 _ hstamped.last

theorem Exact.looks (h : Exact cfg s) (hstamped : Stamped s) {u : RoomSession ρ κ}
    {broken : Bool} (hdue : s.clock ≤ s.lastActivity + cfg.idleSeconds)
    (hbanner : s.TakesBanner cfg (.watchdogRuns broken)) (hlook : Look s.session broken (s.remaining cfg ≤ 0) u) :
    Exact cfg (s.afterWatchdog cfg u) := by
  have hremaining : s.clock + s.remaining cfg = s.lastActivity + cfg.idleSeconds := by
    unfold remaining
    linarith
  generalize hidle : decide (s.remaining cfg ≤ 0) = idle at hlook
  cases hlook with
  | sleeps hw hreapings =>
    refine ⟨fun hu ↦ ?_, fun _ ↦ ⟨?_, fun last hlast ↦ ?_⟩, ?_, fun _ hu ↦ ?_⟩
    · simp [afterWatchdog, TimedSession.unstarted, hw] at hu
    · show s.clock ≤ s.clock + s.remaining cfg
      rw [hremaining]
      exact hdue
    · show s.clock + s.remaining cfg ≤ _
      cases hlast.symm.trans hstamped.last
      exact le_of_eq hremaining
    · rw [reaps_of_eq hreapings]
      exact h.reaps
    · simp [afterWatchdog, TimedSession.sleeps, hw] at hu
  | falls hwrites =>
    have htakes : s.session.writes broken = true := hbanner (of_decide_eq_true hidle)
    cases htakes.symm.trans hwrites
  | reaps hunstarted hsleeps hreapings =>
    refine ⟨fun hu ↦ ?_, fun hu ↦ ?_, fun reap hreap ↦ ?_, fun _ _ ↦ .inl ?_⟩
    · exact absurd (hunstarted.symm.trans hu) Bool.false_ne_true
    · exact absurd (hsleeps.symm.trans hu) Bool.false_ne_true
    · rw [reaps_of_succ hreapings] at hreap
      rcases List.mem_append.mp hreap with hreap | hreap
      · exact h.reaps reap hreap
      · rw [List.mem_singleton.mp hreap]
        -- not later, since it was due, and not earlier, since nothing is left of the time
        refine ⟨s.lastActivity, hstamped.last, le_antisymm hdue ?_⟩
        rw [← hremaining]
        have hover : s.remaining cfg ≤ 0 := of_decide_eq_true hidle
        linarith
    · rw [reaps_of_succ hreapings]
      exact List.append_ne_nil_of_right_ne_nil _ (List.cons_ne_nil _ _)

theorem Exact.tick (h : Exact cfg s) (hstamped : Stamped s) (hon : 0 < cfg.idleSeconds)
    (hfresh : s.session.watchdog ≠ none → s.session.pump ≠ none) (hok : s.Prompt cfg e)
    (hbanner : s.TakesBanner cfg e) (ht : Tick cfg s e t) : Exact cfg t := by
  have hleft {u : RoomSession ρ κ} (hwatch : Watch s.session u) (hunstarted : TimedSession.unstarted u = false)
      (hsleeps : TimedSession.sleeps u = false) : s.reaps ≠ [] ∨ cutOff u = true := by
    rcases left_watch hwatch hunstarted hsleeps with hcut | ⟨hu, hs, hkeeps⟩
    · exact .inr hcut
    · exact (h.left hu hs).imp_right hkeeps
  have hsleeps {u : RoomSession ρ κ} (hwatch : Watch s.session u) (hu : TimedSession.sleeps u = true) :
      TimedSession.sleeps s.session = true := by
    by_contra hs
    rw [sleeps_watch hwatch (by simpa using hs)] at hu
    cases hu
  cases ht with
  | passes => exact ⟨hok.1, fun hs ↦ ⟨hok.2 hs, (h.sleeps hs).2⟩, h.reaps, h.left⟩
  | @runs broken u hruns =>
    cases hruns with
    | looks hs hlook => exact h.looks hstamped (h.due hstamped hok hs) hbanner hlook
    | ends hs hended hreapings =>
      rcases hs with ⟨-, rfl⟩ | hoff
      · refine ⟨fun hu ↦ ?_, fun hu ↦ ?_, ?_, fun _ _ ↦ .inr ?_⟩
        · simp [afterWatchdog, TimedSession.unstarted, hended] at hu
        · simp [afterWatchdog, TimedSession.sleeps, hended] at hu
        · rw [reaps_of_eq hreapings]
          exact h.reaps
        · simp [afterWatchdog, cutOff, hended]
      · exact absurd hon (not_lt_of_ge hoff)
  | active hwatch =>
    refine ⟨fun hu ↦ h.unstarted (unstarted_watch hwatch hfresh hu), fun hu ↦ ?_, h.reaps, hleft hwatch⟩
    obtain ⟨hwake, hlast⟩ := h.sleeps (hsleeps hwatch hu)
    refine ⟨hwake, fun last hactive ↦ ?_⟩
    have hnow : s.clock = last := Option.some.inj (List.getLast?_concat.symm.trans hactive)
    -- the sleep was counted from earlier traffic, so it is over before the new traffic is old enough
    have hdue : s.wake ≤ s.lastActivity + cfg.idleSeconds := hlast _ hstamped.last
    have hpast := hstamped.now
    show s.wake ≤ last + cfg.idleSeconds
    linarith
  | quiet hwatch =>
    exact ⟨fun hu ↦ h.unstarted (unstarted_watch hwatch hfresh hu), fun hu ↦ h.sleeps (hsleeps hwatch hu), h.reaps,
      hleft hwatch⟩

end Invariants

/-! ## Whole runs -/

section Runs

variable [Room ρ] {cfg : SessionConfig} {s : TimedSession ρ κ}

theorem reachable_stamped (h : (machine ρ κ cfg).Reachable s) : s.Stamped :=
  h.invariant ⟨rfl, fun _ hx ↦ le_of_eq (List.mem_singleton.mp hx), le_rfl, le_rfl⟩
    fun _ _ _ _ hs hst ↦ hs.tick (step_tick hst)

theorem reachable_fresh (h : (machine ρ κ cfg).Reachable s) :
    s.session.watchdog ≠ none → s.session.pump ≠ none :=
  h.invariant (I := fun s ↦ s.session.watchdog ≠ none → s.session.pump ≠ none) (fun hw ↦ absurd rfl hw)
    fun _ _ _ _ hs hst ↦ (step_tick hst).pump_ne_none hs

theorem reachable_patient (h : (machine ρ κ cfg).Reachable s) : Patient cfg s :=
  h.invariant ⟨fun _ hr ↦ absurd hr List.not_mem_nil, fun _ ↦ ⟨rfl, rfl⟩⟩
    fun _ _ _ hreach hs hst ↦ hs.tick (reachable_stamped hreach) (step_tick hst)

theorem reached_exact (hon : 0 < cfg.idleSeconds)
    (h : (machine ρ κ cfg).ReachedBy (fun s e ↦ s.Prompt cfg e ∧ s.TakesBanner cfg e) s) : Exact cfg s := by
  refine h.invariant ⟨fun _ ↦ le_of_lt hon, fun hs ↦ ?_, fun _ hr ↦ absurd hr List.not_mem_nil, fun hu ↦ ?_⟩
    fun _ _ _ hreach hs hok hst ↦ hs.tick (reachable_stamped hreach.reachable) hon (reachable_fresh hreach.reachable)
      hok.1 hok.2 (step_tick hst)
  · cases hs
  · cases hu

end Runs

/-- The watchdog never reaps within `idle_seconds` of any traffic, and never at all when it is switched off.
When its sleeps take as long as they should and its banner is taken, it reaps `idle_seconds` after the last of the
traffic and sleeps no longer than that. -/
theorem reaps_exactly [Room ρ] {cfg : SessionConfig} {s : TimedSession ρ κ} {es : List (TimedEvent ρ κ)}
    (hrun : (machine ρ κ cfg).run .initial es = some s) :
    (∀ reap ∈ s.reaps, ∀ x ∈ reap.before, cfg.idleSeconds ≤ reap.time - x) ∧
      (cfg.idleSeconds ≤ 0 → s.reaps = []) ∧
      (0 < cfg.idleSeconds →
        (machine ρ κ cfg).Follows (fun s e ↦ s.Prompt cfg e ∧ s.TakesBanner cfg e) .initial es → Exact cfg s) := by
  have hpatient : Patient cfg s := reachable_patient (.of_run hrun)
  exact ⟨hpatient.reaps, fun hoff ↦ (hpatient.off hoff).1,
    fun hon hok ↦ reached_exact hon (Machine.ReachedBy.init.run hok hrun)⟩

/-- Something is typed 4 seconds after the watchdog has fallen asleep for 10, and something is printed 3 seconds
later. -/
def typesAndReads : List (TimedEvent BuiltRoom Nat) :=
  [.session .sessionStarted, .passes 1, .watchdogRuns false, .session (.pumpStarts none),
    .session (.openEnds (.returned (.docker 0)) false), .passes 4, .dataReceived, .passes 3,
    .session (.readEnds (.returned true) false), .passes 2, .watchdogRuns false, .passes 8, .watchdogRuns false]

theorem typesAndReads_exact : ∃ s, (machine BuiltRoom Nat ⟨none, 10⟩).run .initial typesAndReads = some s ∧
    s.reaps = [⟨18, [0, 5, 8]⟩] ∧ Exact ⟨none, 10⟩ s := by
  have hreaps : ((machine BuiltRoom Nat ⟨none, 10⟩).run .initial typesAndReads).map reaps =
      some [⟨18, [0, 5, 8]⟩] := by decide +kernel
  obtain ⟨s, hrun, hs⟩ := Option.map_eq_some_iff.mp hreaps
  exact ⟨s, hrun, hs, (reaps_exactly hrun).2.2 (by decide) (by decide +kernel)⟩

/-- The room has been idle for 10 seconds, and the channel is past sending when the watchdog writes to it. -/
def idleOnBrokenChannel : List (TimedEvent BuiltRoom Nat) :=
  [.session .sessionStarted, .watchdogRuns false, .session (.pumpStarts none),
    .session (.openEnds (.returned (.docker 0)) false), .passes 10, .watchdogRuns true]

/-- The watchdog is over, the client is still there, and nobody begins the teardown. -/
theorem brokenBanner_never_reaps :
    ¬ ∀ (cfg : SessionConfig) (s : TimedSession BuiltRoom Nat) (es : List (TimedEvent BuiltRoom Nat)),
      (machine BuiltRoom Nat cfg).run .initial es = some s → 0 < cfg.idleSeconds →
        (machine BuiltRoom Nat cfg).Follows (Prompt cfg) .initial es → Exact cfg s := by
  intro hall
  have hend : ((machine BuiltRoom Nat ⟨none, 10⟩).run .initial idleOnBrokenChannel).map
      (fun s ↦ (s.reaps, unstarted s.session, TimedSession.sleeps s.session, cutOff s.session)) =
        some ([], false, false, false) := by decide +kernel
  obtain ⟨s, hrun, hs⟩ := Option.map_eq_some_iff.mp hend
  obtain ⟨hreaps, hunstarted, hsleeps, hcut⟩ : s.reaps = [] ∧ unstarted s.session = false ∧
      TimedSession.sleeps s.session = false ∧ cutOff s.session = false := by
    simpa only [Prod.mk.injEq] using hs
  have hexact := hall ⟨none, 10⟩ s idleOnBrokenChannel hrun (by decide) (by decide +kernel)
  rcases hexact.left hunstarted hsleeps with hno | hno
  · exact hno hreaps
  · cases hcut.symm.trans hno

end TimedSession

end Keycard.Session
