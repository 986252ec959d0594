import Keycard.Session.Checkout
import Keycard.Session.Feeder
import Keycard.Session.Turn

/-!
# Closing the socket of a room

A teardown that the pump or a lost connection began finds the two calls on the socket stopped: the pump
has left its read loop, or is cancelled in it, and has stopped the feeder with it.  The idle watchdog and
`force_close` stop neither, so that whether their teardown closes the socket under a pending call depends
on what the client and the shell do in time.
-/

open Reasoning

namespace Keycard.Session

variable {ρ κ : Type}

/-! ## The first trigger -/

/-- The trigger that began the teardown is the idle watchdog or `force_close`. -/
def byReaper (marks : List (Mark ρ κ)) : Bool :=
  match firstReached marks with
  | some (.reached .watchdog _) => true
  | some (.reached .forceClose _) => true
  | _ => false

/-- No trigger has come yet, or the first was the watchdog or `force_close`. -/
def Unhurried (marks : List (Mark ρ κ)) : Prop :=
  firstReached marks = none ∨ byReaper marks = true

theorem Move.unhurried [Room ρ] {cfg : SessionConfig} {c d : Core ρ κ} {a : Act ρ κ} (hm : Move cfg c a d)
    (hpump : a ≠ .begins .pump) (hlost : a ≠ .begins .connectionLost) (h : Unhurried c.marks) :
    Unhurried d.marks := by
  rcases hm.firstReached with hsame | ⟨hnone, trigger, ha⟩
  · rw [Unhurried, byReaper, hsame]
    exact h
  · subst ha
    cases hm
    have hfirst : Session.firstReached (c.marks ++ [Mark.reached trigger c.room]) =
        some (.reached trigger c.room) := by
      have hfind : c.marks.find? Mark.isReached = none := hnone
      rw [Session.firstReached, List.find?_append, hfind]
      rfl
    refine .inr ?_
    rw [byReaper, hfirst]
    cases trigger with
    | pump => exact absurd rfl hpump
    | connectionLost => exact absurd rfl hlost
    | watchdog => rfl
    | forceClose => rfl

namespace FedSession

/-! ## The read loop -/

section Frame

variable {s : RoomSession ρ κ}

theorem reads_of_pump {t : RoomSession ρ κ} (h : t.pump = s.pump) : reads t = reads s := by
  rw [reads, reads, h]

theorem reads_cancelPump : reads s.cancelPump = false := by
  unfold RoomSession.cancelPump
  split
  · rename_i hp
    simp [reads, hp]
  · rename_i pump hp
    by_cases hf : Forwards s PumpPoint.joins pump
    -- a pump that waits for the teardown has left the loop
    · obtain ⟨hw, td, htd, hend⟩ := hf
      rw [cancelTask_of_waits htd hend hw]
      rcases pump with c | ⟨⟨⟩, c⟩ | how <;> first | rfl | cases hw
    · rw [cancelTask_of_alone hf]
      rcases pump with c | ⟨⟨⟩, c⟩ | how <;> rfl

theorem reads_connectionLost : reads s.connectionLost = false := by
  unfold RoomSession.connectionLost
  rw [reads_of_pump (beginTeardown_pump _ _ _), cancelWatchdog_eq]
  exact reads_cancelPump

theorem reads_noRoomAvailable (broken : Bool) : reads (s.noRoomAvailable broken) = false := by
  unfold RoomSession.noRoomAvailable
  split <;> rfl

theorem reads_goodbye (ours unwinding cancelled broken : Bool) (how : Outcome) :
    reads (s.goodbye ours unwinding cancelled broken how) = false := by
  unfold RoomSession.goodbye
  split
  · rfl
  · split
    · split
      · split <;> rfl
      · rfl
    · rfl

theorem reads_finishReading (unwinding broken : Bool) : reads (s.finishReading unwinding broken) = false := by
  unfold RoomSession.finishReading
  simp only []
  split
  · exact reads_goodbye _ _ _ _ _
  · rfl

/-- The loop is entered only when no teardown has begun. -/
theorem afterOpen_reads {kept : Option κ} {reply : Reply ρ} {broken : Bool}
    (h : reads (s.afterOpen kept reply broken) = true) : s.teardown = none := by
  cases reply with
  | cancelled => cases h
  | raised =>
    cases kept with
    | some k => cases h
    | none =>
      rw [RoomSession.afterOpen, reads_noRoomAvailable] at h
      cases h
  | returned room =>
    cases htd : s.teardown with
    | none => rfl
    | some td =>
      simp only [RoomSession.afterOpen, RoomSession.note, htd] at h
      cases h

/-- It is gone on with only after a chunk of output. -/
theorem afterRead_reads {room : ρ} {reply : Reply Bool} {broken : Bool}
    (h : reads (s.afterRead room reply broken) = true) : reply = .returned true ∧
      s.afterRead room reply broken = { s with pump := some (.suspended (.reading room) false) } := by
  rcases reply with (_ | _) | _ | _
  · exact absurd h (by simp [RoomSession.afterRead, reads_finishReading])
  · cases broken with
    | true => exact absurd h (by simp [RoomSession.afterRead, reads_finishReading])
    | false => exact ⟨rfl, rfl⟩
  · exact absurd h (by simp [RoomSession.afterRead, reads_finishReading])
  · exact absurd h (by simp [RoomSession.afterRead, reads_finishReading])

end Frame

end FedSession

section

open FedSession

/-- The other steps leave the loop as it is. -/
theorem Turn.reads_eq [Room ρ] {cfg : SessionConfig} {s t : RoomSession ρ κ} {e : Event ρ κ}
    (h : Turn cfg s e t) (hlost : e ≠ .connectionLost) (hopen : ∀ reply broken, e ≠ .openEnds reply broken)
    (hread : ∀ reply broken, e ≠ .readEnds reply broken) : reads t = reads s := by
  cases h with
  | connectionLost => exact absurd rfl hlost
  | openEnds => exact absurd rfl (hopen _ _)
  | readEnds => exact absurd rfl (hread _ _)
  | sessionStarted hp => simp [reads, hp, RoomSession.sessionStarted]
  | pumpCutOff hp | pumpStarts hp => simp [reads, hp, RoomSession.endPump, RoomSession.run]
  | @destroyKeptEnds k c reply broken hp =>
    have hs : reads s = false := by simp [reads, hp]
    rw [hs]
    cases reply with
    | cancelled => rfl
    | returned u => exact reads_noRoomAvailable broken
    | raised => exact reads_noRoomAvailable broken
  | @lateDestroyEnds room c reply hp =>
    have hs : reads s = false := by simp [reads, hp]
    rw [hs]
    cases reply <;> rfl
  | pumpResumes hp =>
    have hs : reads s = false := by simp [reads, hp]
    rw [hs, reads_goodbye]
  | watchdogRuns => exact reads_of_pump (by rw [idleWatchdog_eq])
  | watchdogResumes | closerResumes => exact reads_of_pump (by rw [dequeue_eq]; rfl)
  | closerStarts => exact reads_of_pump (by rw [forceClose_eq])
  | forceCloseTimeout => exact reads_of_pump (by rw [cancelCloser_eq])
  | teardownStarts => exact reads_of_pump (by rw [runTeardown_eq])
  | @keepEnds td room c reply => cases reply <;> rfl
  | @destroyEnds td room c reply => cases reply <;> rfl
  | channelCloses | watchdogCutOff | watchdogOff | forceClose | closerCutOff | teardownCutOff => rfl

end

/-! ## Every step -/

namespace FedSession

/-- Nothing waits on the socket. -/
def Idle (s : FedSession ρ κ) : Prop :=
  s.readPending = false ∧ s.writePending = false

/-- `e` closes the socket in a teardown that the watchdog or `force_close` has begun. -/
def reaperCloses [AttachedRoom ρ] (s : FedSession ρ κ) : FedEvent ρ κ → Bool
  | .session .teardownStarts =>
    match s.session.teardown, s.session.room with
    | some { task := .created false, .. }, some room =>
      byReaper s.session.marks && AttachedRoom.closesFirst room
    | _, _ => false
  | .attachmentCloses => byReaper s.session.marks
  | _ => false

/-- When such a teardown closes the socket, the read and the write have come back, or the client has
hung up, or the pump has left its loop. -/
def Settled [AttachedRoom ρ] (s : FedSession ρ κ) (e : FedEvent ρ κ) : Prop :=
  s.reaperCloses e = true → s.Idle

instance (s : FedSession ρ κ) : Decidable s.Idle :=
  inferInstanceAs (Decidable (_ ∧ _))

instance [AttachedRoom ρ] (s : FedSession ρ κ) (e : FedEvent ρ κ) : Decidable (s.Settled e) :=
  inferInstanceAs (Decidable (_ → _))

/-- The feeder has nothing more to do. -/
def feederStopped (s : FedSession ρ κ) : Bool :=
  match s.feeder with
  | none => true
  | some (.created c) => c
  | some (.suspended _ c) => c
  | some (.ended _) => true

structure Attached [AttachedRoom ρ] (cfg : SessionConfig) (s : FedSession ρ κ) : Prop where
  reached : (Session.machine ρ κ cfg).Reachable s.session
  /-- a pump that reads on has not been told of a teardown -/
  unhurried : reads s.session = true → Unhurried s.session.marks
  fed : s.held = true → reads s.session = true
  stopped : s.held = false → s.feederStopped = true
  idle : s.closed = true → s.Idle
  closings : ∀ c ∈ s.closings, c = ⟨false, false⟩

section Feeder

variable {s : FedSession ρ κ}

theorem writePending_of_stopped (h : s.feederStopped = true) : s.writePending = false := by
  unfold feederStopped at h
  unfold writePending
  split at h <;> simp_all

theorem stopFeeder_stopped (h : s.held = false → s.feederStopped = true) : s.stopFeeder.feederStopped = true := by
  unfold stopFeeder
  split
  · unfold feederStopped
    rcases s.feeder with _ | c | ⟨p, c⟩ | how <;> rfl
  · exact h (by simpa using ‹¬ s.held = true›)

theorem stopFeeder_held : s.stopFeeder.held = false := by
  unfold stopFeeder
  split
  · rfl
  · simpa using ‹¬ s.held = true›

theorem stopFeeder_eq : s.stopFeeder = { s with feeder := s.stopFeeder.feeder, held := s.stopFeeder.held } := by
  unfold stopFeeder
  split <;> rfl

theorem Idle.same (h : s.Idle) {u : RoomSession ρ κ} (hreads : reads u = reads s.session) :
    ({ s with session := u } : FedSession ρ κ).Idle := by
  refine ⟨?_, h.2⟩
  rw [readPending, hreads]
  exact h.1

end Feeder

section Steps

variable [AttachedRoom ρ] {cfg : SessionConfig} {s t : FedSession ρ κ}

/-- Once the pump has left its loop, nothing waits. -/
theorem Attached.idle_of_left (h : s.Attached cfg) (hleft : reads s.session = false) : s.Idle := by
  have hheld : s.held = false := by
    by_contra hheld
    rw [h.fed (by simpa using hheld)] at hleft
    cases hleft
  exact ⟨by simp [readPending, hleft], writePending_of_stopped (h.stopped hheld)⟩

/-! What can happen to an attached session. -/

theorem Attached.same (h : s.Attached cfg) {u : RoomSession ρ κ}
    (hreached : (Session.machine ρ κ cfg).Reachable u) (hreads : reads u = reads s.session)
    (hunhurried : Unhurried s.session.marks → Unhurried u.marks) :
    ({ s with session := u } : FedSession ρ κ).Attached cfg where
  reached := hreached
  unhurried hr := hunhurried (h.unhurried (hreads ▸ hr))
  fed hheld := hreads.trans (h.fed hheld)
  stopped := h.stopped
  idle hclosed := (h.idle hclosed).same hreads
  closings := h.closings

theorem Attached.stop (h : s.Attached cfg) {u : RoomSession ρ κ}
    (hreached : (Session.machine ρ κ cfg).Reachable u) (hleft : reads u = false) :
    ({ s with session := u } : FedSession ρ κ).stopFeeder.Attached cfg := by
  have hstopped : ({ s with session := u } : FedSession ρ κ).stopFeeder.feederStopped = true :=
    stopFeeder_stopped h.stopped
  have hheld : ({ s with session := u } : FedSession ρ κ).stopFeeder.held = false := stopFeeder_held
  rw [stopFeeder_eq] at hstopped hheld ⊢
  exact
    { reached := hreached
      unhurried := fun hr ↦ absurd (hleft.symm.trans hr) Bool.false_ne_true
      fed := fun hr ↦ absurd (hheld.symm.trans hr) Bool.false_ne_true
      stopped := fun _ ↦ hstopped
      idle := fun _ ↦ ⟨by simp [readPending, hleft], writePending_of_stopped hstopped⟩
      closings := h.closings }

theorem Attached.start (h : s.Attached cfg) {u : RoomSession ρ κ}
    (hreached : (Session.machine ρ κ cfg).Reachable u) (hreads : reads u = true)
    (hunhurried : Unhurried u.marks) : ({ s with session := u } : FedSession ρ κ).startFeeder.Attached cfg where
  reached := hreached
  unhurried _ := hunhurried
  fed _ := hreads
  stopped hheld := by cases hheld
  idle hclosed := by
    have hclosed : s.closed = true := hclosed
    exact ⟨by simp [readPending, startFeeder, hclosed], rfl⟩
  closings := h.closings

theorem Attached.readAgain (h : s.Attached cfg) : s.readAgain.Attached cfg where
  reached := h.reached
  unhurried := h.unhurried
  fed := h.fed
  stopped := h.stopped
  idle hclosed := by
    have hclosed : s.closed = true := hclosed
    exact ⟨by simp [readPending, FedSession.readAgain, hclosed], (h.idle hclosed).2⟩
  closings := h.closings

theorem Attached.close (h : s.Attached cfg) (hidle : s.Idle) : s.closeAttachment.Attached cfg where
  reached := h.reached
  unhurried := h.unhurried
  fed := h.fed
  stopped := h.stopped
  idle _ := hidle
  closings c hc := by
    rcases List.mem_append.mp hc with hc | hc
    · exact h.closings c hc
    · rw [List.mem_singleton.mp hc, hidle.1, hidle.2]

/-- A turn of the feeder, or more input for it. -/
theorem Attached.feed (h : s.Attached cfg) {input writes : List Bytes} {feeder : Option (LoopTask FeedPoint)}
    (hstopped : s.held = false → ({ s with input, writes, feeder } : FedSession ρ κ).feederStopped = true)
    (hidle : s.closed = true → ({ s with input, writes, feeder } : FedSession ρ κ).writePending = false) :
    ({ s with input, writes, feeder } : FedSession ρ κ).Attached cfg where
  reached := h.reached
  unhurried := h.unhurried
  fed := h.fed
  stopped := hstopped
  idle hclosed := ⟨(h.idle hclosed).1, hidle hclosed⟩
  closings := h.closings

/-! ## Which teardown closes the socket of a pump that reads on -/

theorem step_unhurried {u v : RoomSession ρ κ} {e : Event ρ κ} (hst : Session.step cfg u e = some v)
    (hlost : e ≠ .connectionLost) (hread : ∀ reply broken, e ≠ .readEnds reply broken)
    (h : Unhurried u.marks) : Unhurried v.marks := by
  refine (step_moves hst).invariant (I := fun c ↦ Unhurried c.marks) h fun c a d hc ha hm ↦ ?_
  refine hm.unhurried ?_ ?_ hc
  · rintro rfl
    cases e with
    | readEnds reply broken => exact hread _ _ rfl
    | _ => simp [acts] at ha
  · rintro rfl
    cases e with
    | connectionLost => exact hlost rfl
    | _ => simp [acts] at ha

theorem byReaper_of_begun {u : RoomSession ρ κ} (hu : (Session.machine ρ κ cfg).Reachable u)
    (h : Unhurried u.marks) (htd : u.teardown ≠ none) : byReaper u.marks = true := by
  refine h.resolve_left fun hnone ↦ ?_
  have htouched := (reachable_triggered hu).touched (by simpa [core] using htd)
  rw [show firstReached (core u).marks = firstReached u.marks from rfl, hnone] at htouched
  cases htouched

/-- The teardown of a reaper does not pause, so it closes the socket at once only in `destroy()`. -/
theorem reaperCloses_of_starts {u : RoomSession ρ κ} (hs : (Session.machine ρ κ cfg).Reachable s.session)
    (hst : Session.step cfg s.session .teardownStarts = some u) (hcloses : closesNow u .teardownStarts = true)
    (h : Unhurried s.session.marks) : s.reaperCloses (.session .teardownStarts) = true := by
  cases step_turn hst with
  | teardownCutOff htd htask => cases hcloses
  | @teardownStarts td htd htask =>
    have hby : byReaper s.session.marks = true := byReaper_of_begun hs h (by simp [htd])
    have hkeep : td.allowKeep = false := by
      obtain ⟨trigger, hfirst, hkeep⟩ := (reachable_triggered hs).waiting td.allowKeep false
        (by simp [core, htd, htask])
      rw [byReaper, show firstReached s.session.marks = _ from hfirst] at hby
      cases trigger <;> first | exact hkeep | cases hby
    cases hroom : s.session.room with
    | none =>
      simp [RoomSession.runTeardown, hroom, closesNow, RoomSession.release, RoomSession.setTeardown] at hcloses
    | some room =>
      obtain ⟨keep, task, waiters⟩ := td
      cases hkeep
      cases htask
      have hcloses : AttachedRoom.closesFirst room = true := by
        simpa [RoomSession.runTeardown, hroom, closesNow, RoomSession.checkout, RoomSession.setTeardown]
          using hcloses
      simp [reaperCloses, htd, hroom, hby, hcloses]

/-- A room that is being paused has lost its client. -/
theorem not_unhurried_of_pausing {u : RoomSession ρ κ} (hu : (Session.machine ρ κ cfg).Reachable u)
    {td : Teardown ρ} {room : ρ} {c : Bool} (htd : u.teardown = some td)
    (htask : td.task = .suspended (.pausing room) c) : ¬ Unhurried u.marks := by
  have hcore : (core u).teardown = some (td.allowKeep, .suspended (.pausing room) c) := by
    simp [core, htd, htask]
  have hm : Mark.pause room ∈ (core u).marks := (reachable_lifecycle hu).pause_mem hcore
  have hfirst : firstReached u.marks = _ := ((reachable_triggered hu).paused room hm).1
  rintro (h | h)
  · cases hfirst.symm.trans h
  · rw [byReaper, hfirst] at h
    cases h

theorem Attached.session (h : s.Attached cfg) {e : Event ρ κ} {u : RoomSession ρ κ}
    (hok : s.Settled (.session e)) (hst : Session.step cfg s.session e = some u)
    (hread : ∀ reply broken, e ≠ .readEnds reply broken) : (s.follow e u).Attached cfg := by
  have hreached := h.reached.step hst
  have hturn := step_turn hst
  cases e with
  | connectionLost =>
    cases hturn
    exact h.stop hreached reads_connectionLost
  | openEnds reply broken =>
    cases hturn with
    | @openEnds kept c _ _ hp hreply =>
      have hreads : reads s.session = false := by simp [reads, hp]
      by_cases hloop : reads (s.session.afterOpen kept reply broken) = true
      · simp only [follow, hloop, if_true]
        have hnone : firstReached s.session.marks = none :=
          (reachable_triggered h.reached).untouched (by simp [core, afterOpen_reads hloop])
        exact h.start hreached hloop (step_unhurried hst (by simp) (by simp) (.inl hnone))
      · have hleft : reads (s.session.afterOpen kept reply broken) = false := by simpa using hloop
        have hsame := h.same hreached (hleft.trans hreads.symm) (step_unhurried hst (by simp) (by simp))
        simp only [follow, hloop, Bool.false_eq_true, if_false]
        split
        -- a room that opened too late: there is no read loop
        · exact hsame.close (hsame.idle_of_left hleft)
        · exact hsame
  | readEnds reply broken => exact absurd rfl (hread reply broken)
  | teardownStarts =>
    have hreads := hturn.reads_eq (by simp) (by simp) (by simp)
    have hsame := h.same hreached hreads (step_unhurried hst (by simp) (by simp))
    simp only [follow]
    split
    · rename_i hcloses
      refine hsame.close ?_
      by_cases hloop : reads s.session = true
      · exact (hok (reaperCloses_of_starts h.reached hst hcloses (h.unhurried hloop))).same hreads
      · exact hsame.idle_of_left (hreads.trans (by simpa using hloop))
    · exact hsame
  | keepEnds reply =>
    have hreads := hturn.reads_eq (by simp) (by simp) (by simp)
    have hsame := h.same hreached hreads (step_unhurried hst (by simp) (by simp))
    simp only [follow]
    split
    · refine hsame.close ?_
      by_cases hloop : reads s.session = true
      · cases hturn with
        | keepEnds htd htask =>
          exact absurd (h.unhurried hloop) (not_unhurried_of_pausing h.reached htd htask)
      · exact hsame.idle_of_left (hreads.trans (by simpa using hloop))
    · exact hsame
  | _ => exact h.same hreached (hturn.reads_eq (by simp) (by simp) (by simp)) (step_unhurried hst (by simp) (by simp))

/-- What `room.read()` comes back with: the loop goes on, or stops the feeder. -/
theorem Attached.readEnds (h : s.Attached cfg) {sock : Reply Bool} {broken : Bool} {u : RoomSession ρ κ}
    (hmay : s.mayRead sock = true) (hst : Session.step cfg s.session (.readEnds (read sock) broken) = some u) :
    (s.follow (.readEnds (read sock) broken) u).Attached cfg := by
  have hreached : (Session.machine ρ κ cfg).Reachable u :=
    h.reached.step (e := .readEnds (read sock) broken) hst
  cases step_turn hst with
  | @readEnds room c _ _ hp hreply =>
    by_cases hloop : reads (s.session.afterRead room (read sock) broken) = true
    · obtain ⟨hreply', hsame⟩ := afterRead_reads hloop
      -- a cancelled read does not come back with output
      have hc : c = false := by
        cases c with
        | false => rfl
        | true =>
          have hsock : sock = .cancelled := by simpa [mayRead, hp] using hmay
          rw [hsock] at hreply'
          cases hreply'
      have hu : s.session.afterRead room (read sock) broken = s.session := by
        rw [hsame, ← hc, ← hp]
      rw [hu] at hloop
      simp only [follow, hu, hloop, if_true]
      exact h.readAgain
    · simp only [follow, hloop, Bool.false_eq_true, if_false]
      exact h.stop hreached (by simpa using hloop)

theorem Attached.runFeeder (h : s.Attached cfg) (hst : s.runFeeder = some t) : t.Attached cfg := by
  unfold FedSession.runFeeder at hst
  split at hst
  · cases hst
    exact h.feed (fun _ ↦ rfl) fun _ ↦ rfl
  · rename_i hf
    cases hst
    refine h.feed (fun hheld ↦ ?_) fun _ ↦ rfl
    have hstopped := h.stopped hheld
    simp [feederStopped, hf] at hstopped
  · cases hst
    exact h.feed (fun _ ↦ rfl) fun _ ↦ rfl
  · rename_i hf
    split at hst <;> cases hst
    refine h.feed (fun hheld ↦ ?_) fun hclosed ↦ ?_
    · have hstopped := h.stopped hheld
      simp [feederStopped, hf] at hstopped
    -- a write to a socket that is closed does not wait
    · simp [writePending, hclosed]
  · rename_i hf
    cases hst
    refine h.feed (fun hheld ↦ ?_) fun _ ↦ rfl
    have hstopped := h.stopped hheld
    simp [feederStopped, hf] at hstopped
  · cases hst

theorem Attached.step {e : FedEvent ρ κ} (h : s.Attached cfg) (hok : s.Settled e)
    (hst : step cfg s e = some t) : t.Attached cfg := by
  cases e with
  | session e =>
    simp only [FedSession.step] at hst
    split at hst
    · rename_i hmay
      obtain ⟨u, hu, rfl⟩ := Option.map_eq_some_iff.mp hst
      refine h.session hok hu ?_
      rintro reply broken rfl
      cases hmay
    · cases hst
  | readEnds sock broken =>
    simp only [FedSession.step] at hst
    split at hst
    · rename_i hmay
      obtain ⟨u, hu, rfl⟩ := Option.map_eq_some_iff.mp hst
      exact h.readEnds hmay hu
    · cases hst
  | dataReceived data =>
    cases hst
    unfold FedSession.dataReceived
    split
    · exact h.feed h.stopped fun hclosed ↦ (h.idle hclosed).2
    · exact h
  | feederRuns => exact h.runFeeder hst
  | readComesBack =>
    simp only [FedSession.step] at hst
    split at hst
    · cases hst
      exact ⟨h.reached, h.unhurried, h.fed, h.stopped,
        fun hclosed ↦ ⟨by simp [readPending], (h.idle hclosed).2⟩, h.closings⟩
    · cases hst
  | writeComesBack =>
    simp only [FedSession.step] at hst
    split at hst
    · rename_i hf
      split at hst <;> cases hst
      refine h.feed (fun hheld ↦ ?_) fun _ ↦ rfl
      have hstopped := h.stopped hheld
      simp [feederStopped, hf] at hstopped
    · cases hst
  | attachmentCloses =>
    simp only [FedSession.step] at hst
    split at hst
    · rename_i hlater
      cases hst
      refine h.close ?_
      by_cases hloop : reads s.session = true
      · refine hok (byReaper_of_begun h.reached (h.unhurried hloop) fun htd ↦ ?_)
        -- a pump that reads on is not in `_checkout`
        unfold reads at hloop
        split at hloop
        · rename_i hp
          simp [closesLater, htd, hp] at hlater
        · cases hloop
      · exact h.idle_of_left (by simpa using hloop)
    · cases hst

theorem reached_attached (h : (machine ρ κ cfg).ReachedBy Settled s) : s.Attached cfg := by
  refine h.invariant ⟨.init, ?_, ?_, fun _ ↦ rfl, ?_, ?_⟩ fun s e t _ hs hok hst ↦ hs.step hok hst
  · intro hr
    cases hr
  · intro hheld
    cases hheld
  · intro hclosed
    cases hclosed
  · exact fun c hc ↦ absurd hc List.not_mem_nil

/-! ## Every run -/

/-- The socket was closed under no call, so that none is left registered for it and the pump gets out of
its read loop. -/
structure Undisturbed (cfg : SessionConfig) (s : FedSession ρ κ) : Prop where
  closings : ∀ c ∈ s.closings, c.reading = false ∧ c.writing = false
  registered : s.closed = true → s.readPending = false ∧ s.writePending = false
  leaves (room : ρ) (c : Bool) : s.closed = true → s.session.pump = some (.suspended (.reading room) c) →
    ∃ sock t, (machine ρ κ cfg).step s (.readEnds sock false) = some t ∧ reads t.session = false

/-- The end of the stream, or the `CancelledError` that stands for it, takes the pump out of the loop. -/
theorem leaves_of_idle (hidle : s.readPending = false) {room : ρ} {c : Bool}
    (hp : s.session.pump = some (.suspended (.reading room) c)) :
    ∃ sock t, (machine ρ κ cfg).step s (.readEnds sock false) = some t ∧ reads t.session = false := by
  have hsock : ∃ sock, s.mayRead sock = true ∧ read sock = .returned false := by
    cases c with
    | true => exact ⟨.cancelled, by simp [mayRead, hp], rfl⟩
    | false =>
      have hback : s.readBack = true := by simpa [readPending, reads, hp] using hidle
      exact ⟨.raised, by simp [mayRead, hp, hback], rfl⟩
  obtain ⟨sock, hmay, hread⟩ := hsock
  have hst : Session.step cfg s.session (.readEnds (.returned false) false) =
      some (s.session.finishReading false false) := by
    simp [Session.step, stepPump, hp, Reply.allowed, RoomSession.afterRead]
  have hleft := reads_finishReading (s := s.session) false false
  refine ⟨sock, ({ s with session := s.session.finishReading false false } : FedSession ρ κ).stopFeeder, ?_, ?_⟩
  · change FedSession.step cfg s (.readEnds sock false) = _
    simp only [FedSession.step, hmay, if_true, hread, hst, Option.map_some, follow, hleft,
      Bool.false_eq_true, if_false]
  · rw [stopFeeder_eq]
    exact hleft

theorem Attached.undisturbed (h : s.Attached cfg) : s.Undisturbed cfg where
  closings c hc := by
    rw [h.closings c hc]
    exact ⟨rfl, rfl⟩
  registered := h.idle
  leaves _ _ hclosed hp := leaves_of_idle (h.idle hclosed).1 hp

/-- The close of the socket leaves an entry that says what waited. -/
theorem closings_of_reaperCloses {e : FedEvent ρ κ} (hcloses : s.reaperCloses e = true)
    (hst : step cfg s e = some t) : t.closings = s.closings ++ [⟨s.readPending, s.writePending⟩] := by
  unfold reaperCloses at hcloses
  split at hcloses
  · split at hcloses
    · rename_i keep waiters room htd hroom
      obtain ⟨-, hfirst⟩ := Bool.and_eq_true_iff.mp hcloses
      simp only [FedSession.step, mayEnd, if_true] at hst
      obtain ⟨u, hu, rfl⟩ := Option.map_eq_some_iff.mp hst
      have hsame : reads u = reads s.session := (step_turn hu).reads_eq (by simp) (by simp) (by simp)
      have hnow : closesNow u .teardownStarts = true := by
        simp only [Session.step, stepTeardown, htd, Option.some.injEq] at hu
        subst hu
        unfold RoomSession.runTeardown
        rw [hroom]
        simp only []
        split
        · rfl
        · exact hfirst
      simp only [follow, hnow, if_true, closeAttachment, readPending, writePending, hsame]
    · cases hcloses
  · simp only [FedSession.step] at hst
    split at hst <;> cases hst
    rfl
  · cases hcloses

/-- In a run the socket is never closed under a call exactly if every teardown that the watchdog or
`force_close` has begun closes it when the read and the write are over. -/
theorem undisturbed_iff_settled {es : List (FedEvent ρ κ)}
    (hrun : (machine ρ κ cfg).run .initial es = some s) :
    (machine ρ κ cfg).Keeps (Undisturbed cfg) .initial es ↔
      (machine ρ κ cfg).Follows Settled .initial es := by
  refine Machine.ReachedBy.keeps_iff_follows (fun s hs ↦ (reached_attached hs).undisturbed) ?_ .init hrun
  intro s e t _ hst ht hcloses
  refine ht.closings ⟨s.readPending, s.writePending⟩ ?_
  rw [closings_of_reaperCloses hcloses hst]
  exact List.mem_append_right _ (List.mem_singleton.mpr rfl)

end Steps

/-- The idle watchdog ends a microVM whose shell exits meanwhile: the end of the stream is there before
the attachment closes. -/
def reapedAtExit : List (FedEvent BuiltRoom Nat) :=
  [.session .sessionStarted, .session (.pumpStarts none),
    .session (.openEnds (.returned (.firecracker 0)) false), .feederRuns, .dataReceived [101], .feederRuns,
    .writeComesBack, .feederRuns, .session (.watchdogRuns true false), .session .teardownStarts,
    .readComesBack, .attachmentCloses, .readEnds (.returned false) false]

theorem reapedAtExit_undisturbed : ∃ s : FedSession BuiltRoom Nat,
    (machine BuiltRoom Nat ⟨none, 60⟩).run .initial reapedAtExit = some s ∧
      (machine BuiltRoom Nat ⟨none, 60⟩).Keeps (Undisturbed ⟨none, 60⟩) .initial reapedAtExit := by
  have hrun : (machine BuiltRoom Nat ⟨none, 60⟩).run .initial reapedAtExit = some _ := rfl
  exact ⟨_, hrun, (undisturbed_iff_settled hrun).mpr (by decide)⟩

/-- The idle watchdog ends a container in which the shell waits for input. -/
def reapedAtPrompt : List (FedEvent BuiltRoom Nat) :=
  [.session .sessionStarted, .session (.pumpStarts none),
    .session (.openEnds (.returned (.docker 0)) false), .session (.watchdogRuns true false),
    .session .teardownStarts]

theorem reapedAtPrompt_disturbs : ¬ ∀ (cfg : SessionConfig) (es : List (FedEvent BuiltRoom Nat))
    (s : FedSession BuiltRoom Nat), (machine BuiltRoom Nat cfg).run .initial es = some s →
      Undisturbed cfg s := by
  intro hall
  have hclosings := (hall ⟨none, 60⟩ reapedAtPrompt _ rfl).closings ⟨true, false⟩ (.head _)
  cases hclosings.1

/-! ## A pump that is left behind -/

section Stranded

variable [AttachedRoom ρ] {cfg : SessionConfig} {s t : FedSession ρ κ}

/-- A read that the socket was closed under stays where it is, whatever happens, until the client hangs
up. -/
theorem stranded_step {e : FedEvent ρ κ} (hclosed : s.closed = true) (hpending : s.readPending = true)
    (he : e ≠ .session .connectionLost) (hst : step cfg s e = some t) :
    t.closed = true ∧ t.readPending = true := by
  obtain ⟨hreads, hback⟩ := Bool.and_eq_true_iff.mp hpending
  have hpump : ∃ room, s.session.pump = some (.suspended (.reading room) false) := by
    unfold reads at hreads
    split at hreads
    · exact ⟨_, ‹_›⟩
    · cases hreads
  obtain ⟨room, hpump⟩ := hpump
  cases e with
  | session e =>
    simp only [FedSession.step] at hst
    split at hst
    · rename_i hmay
      obtain ⟨u, hu, rfl⟩ := Option.map_eq_some_iff.mp hst
      have hlost : e ≠ .connectionLost := fun h ↦ he (h ▸ rfl)
      have hread : ∀ reply broken, e ≠ .readEnds reply broken := by
        rintro reply broken rfl
        cases hmay
      have hopen : ∀ reply broken, e ≠ .openEnds reply broken := by
        rintro reply broken rfl
        cases step_turn hu with
        | openEnds hp => cases hpump.symm.trans hp
      have hsame : reads u = reads s.session := (step_turn hu).reads_eq hlost hopen hread
      have hkept : ({ s with session := u } : FedSession ρ κ).readPending = true := by
        rw [readPending, hsame]
        exact hpending
      cases e with
      | connectionLost => exact absurd rfl hlost
      | openEnds reply broken => exact absurd rfl (hopen reply broken)
      | readEnds reply broken => exact absurd rfl (hread reply broken)
      | teardownStarts | keepEnds reply =>
        simp only [follow]
        split
        · exact ⟨rfl, hkept⟩
        · exact ⟨hclosed, hkept⟩
      | _ => exact ⟨hclosed, hkept⟩
    · cases hst
  | readEnds sock broken =>
    have hno : s.mayRead sock = false := by simp_all [mayRead]
    simp [FedSession.step, hno] at hst
  | dataReceived data =>
    cases hst
    unfold FedSession.dataReceived
    split <;> exact ⟨hclosed, hpending⟩
  | feederRuns =>
    simp only [FedSession.step, FedSession.runFeeder] at hst
    split at hst
    · cases hst
      exact ⟨hclosed, hpending⟩
    · cases hst
      exact ⟨hclosed, hpending⟩
    · cases hst
      exact ⟨hclosed, hpending⟩
    · split at hst <;> cases hst
      exact ⟨hclosed, hpending⟩
    · cases hst
      exact ⟨hclosed, hpending⟩
    · cases hst
  | readComesBack => simp [FedSession.step, hclosed] at hst
  | writeComesBack =>
    simp only [FedSession.step, hclosed, if_true] at hst
    split at hst <;> cases hst
  | attachmentCloses => simp [FedSession.step, hclosed] at hst

theorem stranded_run {es : List (FedEvent ρ κ)} (hclosed : s.closed = true) (hpending : s.readPending = true)
    (hes : .session .connectionLost ∉ es) (hrun : (machine ρ κ cfg).run s es = some t) :
    t.readPending = true := by
  induction es generalizing s with
  | nil =>
    simp only [Machine.run, Option.some.injEq] at hrun
    exact hrun ▸ hpending
  | cons e es ih =>
    obtain ⟨u, hu, hrest⟩ := Option.bind_eq_some_iff.mp hrun
    obtain ⟨hclosed', hpending'⟩ :=
      stranded_step hclosed hpending (fun h ↦ hes (h ▸ List.mem_cons_self)) hu
    exact ih hclosed' hpending' (fun hm ↦ hes (List.mem_cons_of_mem e hm)) hrest

end Stranded

end FedSession

end Keycard.Session
