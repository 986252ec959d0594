import Keycard.Reasoning.Part
import Keycard.Session.FrontDesk

/-!
# One place for each sandbox

A session gets a sandbox by opening it or by taking what is kept for its username, and parts with it by having it
kept; everything else it does can only drop what it has.
-/

open Reasoning

namespace Keycard.Session

variable {s t : RoomSession SandboxRoom SandboxKept} {cfg : SessionConfig} {x : Nat}

/-! ## One session -/

theorem teardownSandbox_beginTeardown (trigger : Trigger) (allowKeep : Bool) :
    teardownSandbox (s.beginTeardown trigger allowKeep) = teardownSandbox s := by
  unfold RoomSession.beginTeardown
  simp only []
  split
  · rename_i h
    have hnone : s.teardown = none := h
    simp [teardownSandbox, hnone]
  · rfl

theorem teardownSandbox_enqueue (who : Trigger) : teardownSandbox (s.enqueue who) = teardownSandbox s := by
  unfold RoomSession.enqueue
  split
  · rfl
  · rename_i td htd
    simp [teardownSandbox, htd]

theorem teardownSandbox_dequeue : teardownSandbox s.dequeue = teardownSandbox s := by
  unfold RoomSession.dequeue
  split
  · rfl
  · rename_i td htd
    simp [teardownSandbox, htd]

/-- A cancellation takes no room from the teardown. -/
theorem teardownSandbox_cancelTask {π : Type} {joins : π → Bool} {own : Option π → List (Mark SandboxRoom SandboxKept)}
    {task : LoopTask π} (h : teardownSandbox (s.cancelTask joins own task).2 = some x) : teardownSandbox s = some x := by
  obtain ⟨point, hpoint, hx⟩ := Option.map_eq_some_iff.mp h
  obtain ⟨td', htd', htask⟩ := Option.bind_eq_some_iff.mp hpoint
  obtain ⟨td, htd, hsame, -⟩ := cancelTask_teardown htd'
  simp [teardownSandbox, htd, ← hsame, htask, hx]

theorem pumpSandbox_cancelPump : pumpSandbox s.cancelPump = pumpSandbox s := by
  unfold RoomSession.cancelPump
  split
  · rfl
  · rename_i pump hp
    by_cases hf : Forwards s PumpPoint.joins pump
    · obtain ⟨hw, td, htd, hend⟩ := hf
      rw [cancelTask_of_waits htd hend hw]
      simp [pumpSandbox, hp]
    · rw [cancelTask_of_alone hf]
      simp [pumpSandbox, hp]

theorem teardownSandbox_cancelPump (h : teardownSandbox s.cancelPump = some x) : teardownSandbox s = some x := by
  unfold RoomSession.cancelPump at h
  split at h
  · exact h
  · exact teardownSandbox_cancelTask h

theorem teardownSandbox_cancelWatchdog (h : teardownSandbox s.cancelWatchdog = some x) :
    teardownSandbox s = some x := by
  unfold RoomSession.cancelWatchdog at h
  split at h
  · exact h
  · exact teardownSandbox_cancelTask h

theorem teardownSandbox_cancelCloser (h : teardownSandbox s.cancelCloser = some x) : teardownSandbox s = some x := by
  unfold RoomSession.cancelCloser at h
  split at h
  · exact h
  · exact teardownSandbox_cancelTask h

/-- What a step keeps of what the session has, or drops. -/
structure Drops (s t : RoomSession SandboxRoom SandboxKept) : Prop where
  pump : pumpSandbox t = pumpSandbox s ∨ pumpSandbox t = none
  room : t.room = s.room ∨ t.room = none
  teardown {x : Nat} : teardownSandbox t = some x → teardownSandbox s = some x ∨ s.room.map SandboxRoom.sandbox = some x

theorem Drops.has (h : Drops s t) (ht : HasSandbox t x) : HasSandbox s x := by
  rcases ht with ht | ht | ht
  · rcases h.pump with hp | hp
    · exact .inl (hp ▸ ht)
    · cases hp.symm.trans ht
  · rcases h.room with hr | hr
    · exact .inr (.inl (hr ▸ ht))
    · rw [hr] at ht
      cases ht
  · exact (h.teardown ht).elim (fun h ↦ .inr (.inr h)) fun h ↦ .inr (.inl h)

/-- Only the watchdog, the drain or the channel are concerned. -/
theorem Drops.of_pump (hp : t.pump = s.pump) (hr : t.room = s.room)
    (htd : ∀ {x}, teardownSandbox t = some x → teardownSandbox s = some x) : Drops s t where
  pump := .inl (by rw [pumpSandbox, hp, pumpSandbox])
  room := .inl hr
  teardown h := .inl (htd h)

theorem pumpSandbox_ended {how : Outcome} (h : t.pump = some (.ended how)) : pumpSandbox t = none := by
  rw [pumpSandbox, h]
  rfl

theorem noRoomAvailable_pump (broken : Bool) : ∃ how, (s.noRoomAvailable broken).pump = some (.ended how) := by
  cases broken
  · exact ⟨_, rfl⟩
  · exact ⟨_, rfl⟩

theorem goodbye_pump (ours unwinding cancelled broken : Bool) (how : Outcome) :
    ∃ how', (s.goodbye ours unwinding cancelled broken how).pump = some (.ended how') := by
  unfold RoomSession.goodbye
  split
  · exact ⟨_, rfl⟩
  · split
    · exact ⟨_, rfl⟩
    · exact ⟨_, rfl⟩

theorem finishReading_drops (unwinding broken : Bool) : Drops s (s.finishReading unwinding broken) := by
  have hroom : (s.finishReading unwinding broken).room = s.room := by rw [finishReading_eq]
  refine ⟨.inr ?_, .inl hroom, fun {x} h ↦ .inl ?_⟩
  · unfold RoomSession.finishReading
    simp only []
    split
    · obtain ⟨how, hpump⟩ := goodbye_pump (s := s.beginTeardown .pump false) s.teardown.isNone unwinding false broken _
      exact pumpSandbox_ended hpump
    · rfl
  · unfold RoomSession.finishReading at h
    simp only [] at h
    split at h
    · rw [goodbye_eq] at h
      exact (teardownSandbox_beginTeardown .pump false).symm.trans h
    · have henqueue : teardownSandbox ((s.beginTeardown .pump false).enqueue .pump) = some x := h
      rw [teardownSandbox_enqueue, teardownSandbox_beginTeardown] at henqueue
      exact henqueue

theorem Turn.drops {e : Event SandboxRoom SandboxKept} (h : Turn cfg s e t) (hpump : ∀ kept, e ≠ .pumpStarts (some kept))
    (hopen : ∀ room broken, e ≠ .openEnds (.returned room) broken) : Drops s t := by
  cases h with
  | sessionStarted hp => exact ⟨.inr rfl, .inl rfl, .inl⟩
  | channelCloses => exact .of_pump rfl rfl id
  | connectionLost =>
    refine ⟨.inl ?_, .inl (by rw [connectionLost_eq]), fun h ↦ .inl ?_⟩
    · unfold RoomSession.connectionLost
      simp only []
      rw [pumpSandbox, beginTeardown_pump, cancelWatchdog_eq, ← pumpSandbox.eq_1]
      exact pumpSandbox_cancelPump
    · unfold RoomSession.connectionLost at h
      simp only [] at h
      rw [teardownSandbox_beginTeardown] at h
      have := teardownSandbox_cancelPump (teardownSandbox_cancelWatchdog h)
      exact this
  | pumpCutOff => exact ⟨.inr rfl, .inl rfl, .inl⟩
  | @pumpStarts kept hp =>
    cases kept with
    | some kept => exact absurd rfl (hpump kept)
    | none => exact ⟨.inr rfl, .inl rfl, .inl⟩
  | @openEnds kept c reply broken hp hreply =>
    cases reply with
    | returned room => exact absurd rfl (hopen room broken)
    | cancelled => exact ⟨.inr rfl, .inl rfl, .inl⟩
    | raised =>
      cases kept with
      | some k => exact ⟨.inl (by rw [pumpSandbox, pumpSandbox, hp]; rfl), .inl rfl, .inl⟩
      | none =>
        obtain ⟨how, hpump⟩ := noRoomAvailable_pump (s := s) broken
        refine ⟨.inr (pumpSandbox_ended hpump), .inl ?_, fun h ↦ .inl ?_⟩
        · unfold RoomSession.afterOpen
          rw [noRoomAvailable_eq]
        · unfold RoomSession.afterOpen at h
          rw [noRoomAvailable_eq] at h
          exact h
  | @destroyKeptEnds k c reply broken hp hreply =>
    have hended : ∃ how, (s.afterDestroyKept reply broken).pump = some (.ended how) := by
      cases reply with
      | cancelled => exact ⟨_, rfl⟩
      | returned | raised => exact noRoomAvailable_pump broken
    obtain ⟨how, hpump⟩ := hended
    rw [afterDestroyKept_eq] at hpump ⊢
    exact ⟨.inr (pumpSandbox_ended hpump), .inl rfl, .inl⟩
  | @lateDestroyEnds room c reply hp hreply =>
    have hended : ∃ how, (s.afterLateDestroy room reply).pump = some (.ended how) := by
      cases reply <;> exact ⟨_, rfl⟩
    obtain ⟨how, hpump⟩ := hended
    rw [afterLateDestroy_eq] at hpump ⊢
    exact ⟨.inr (pumpSandbox_ended hpump), .inl rfl, .inl⟩
  | @readEnds room c reply broken hp hreply =>
    unfold RoomSession.afterRead
    split
    · split
      · exact finishReading_drops _ _
      · exact ⟨.inr rfl, .inl rfl, .inl⟩
    · exact finishReading_drops _ _
    · exact finishReading_drops _ _
    · exact finishReading_drops _ _
  | @pumpResumes ours unwinding c broken how hp =>
    obtain ⟨how', hpump⟩ := goodbye_pump (s := s.dequeue) ours unwinding c broken how
    refine ⟨.inr (pumpSandbox_ended hpump), .inl ?_, fun h ↦ .inl ?_⟩
    · rw [goodbye_eq, dequeue_eq]
    · rw [goodbye_eq] at h
      exact teardownSandbox_dequeue.symm.trans h
  | watchdogCutOff | watchdogOff | forceClose | closerCutOff => exact .of_pump rfl rfl id
  | @watchdogRuns idle broken =>
    refine .of_pump (by rw [idleWatchdog_eq]) (by rw [idleWatchdog_eq]) fun {x} h ↦ ?_
    unfold RoomSession.idleWatchdog at h
    split at h
    · exact h
    · split at h
      · exact h
      · simp only [] at h
        split at h
        · exact (teardownSandbox_beginTeardown .watchdog false).symm.trans h
        · exact (teardownSandbox_beginTeardown .watchdog false).symm.trans ((teardownSandbox_enqueue .watchdog).symm.trans h)
  | watchdogResumes | closerResumes =>
    exact .of_pump (by rw [dequeue_eq]; rfl) (by rw [dequeue_eq]; rfl) (teardownSandbox_dequeue.symm.trans ·)
  | @closerStarts broken =>
    refine .of_pump (by rw [forceClose_eq]) (by rw [forceClose_eq]) fun {x} h ↦ ?_
    unfold RoomSession.forceClose at h
    split at h
    · exact h
    · simp only [] at h
      split at h
      · exact (teardownSandbox_beginTeardown .forceClose false).symm.trans h
      · exact (teardownSandbox_beginTeardown .forceClose false).symm.trans
          ((teardownSandbox_enqueue .forceClose).symm.trans h)
  | forceCloseTimeout =>
    exact .of_pump (by rw [cancelCloser_eq]) (by rw [cancelCloser_eq]) teardownSandbox_cancelCloser
  | teardownCutOff => exact ⟨.inl rfl, .inl rfl, nofun⟩
  | @teardownStarts td htd htask =>
    refine ⟨.inl (by rw [runTeardown_eq]; rfl), .inr (by rw [runTeardown_eq]), fun {x} h ↦ .inr ?_⟩
    unfold RoomSession.runTeardown at h
    split at h
    · cases h
    · rename_i room hroom
      rw [hroom]
      simp only [] at h
      split at h
      · exact h
      · exact h
  | @keepEnds td room c reply htd htask hreply =>
    refine ⟨.inl (by rw [afterKeep_eq]; rfl), .inl (by rw [afterKeep_eq]), fun {x} h ↦ .inl ?_⟩
    cases reply with
    | returned | cancelled => cases h
    | raised =>
      simp only [teardownSandbox, htd, Option.bind_some, htask]
      exact h
  | @destroyEnds td room c reply htd htask hreply =>
    refine ⟨.inl (by rw [afterDestroy_eq]; rfl), .inl (by rw [afterDestroy_eq]), fun {x} h ↦ ?_⟩
    cases reply <;> cases h

theorem step_drops {e : Event SandboxRoom SandboxKept} (h : step cfg s e = some t)
    (hpump : ∀ kept, e ≠ .pumpStarts (some kept)) (hopen : ∀ room broken, e ≠ .openEnds (.returned room) broken) :
    Drops s t :=
  (step_turn h).drops hpump hopen

/-- What `run` claims is all that it adds. -/
theorem pumpStarts_has {kept : Option SandboxKept} (hst : step cfg s (.pumpStarts kept) = some t)
    (h : HasSandbox t x) : HasSandbox s x ∨ ∃ k, kept = some k ∧ k.sandbox = x := by
  cases kept with
  | none => exact .inl ((step_drops hst nofun nofun).has h)
  | some k =>
    cases step_turn hst with
    | pumpCutOff hp => exact .inl (h.imp (fun h ↦ by cases h) id)
    | pumpStarts hp =>
      rcases h with h | h
      · exact .inr ⟨k, rfl, Option.some.inj h⟩
      · exact .inl (.inr h)

/-- The room that `open` or `resume` returns is all that the session gets. -/
theorem openEnds_has {room : SandboxRoom} {broken : Bool} (hst : step cfg s (.openEnds (.returned room) broken) = some t)
    (h : HasSandbox t x) : HasSandbox s x ∨ room.sandbox = x := by
  cases step_turn hst with
  | openEnds hp =>
    rename_i kept c
    unfold RoomSession.afterOpen at h
    simp only [] at h
    split at h
    · rcases h with h | h | h
      · exact .inr (Option.some.inj h)
      · cases h
      · exact .inl (.inr (.inr h))
    · split at h
      · rcases h with h | h | h
        · cases h
        · exact .inr (Option.some.inj h)
        · exact .inl (.inr (.inr h))
      · rcases h with h | h | h
        · cases h
        · exact .inr (Option.some.inj h)
        · exact .inl (.inr (.inr h))

namespace FrontDesk

theorem pausing_eq {s : RoomSession SandboxRoom SandboxKept} {room : SandboxRoom} (h : pausing s = some room) :
    ∃ td c, s.teardown = some td ∧ td.task = .suspended (.pausing room) c := by
  unfold pausing at h
  split at h
  · rename_i keep room' c waiters htd
    cases h
    exact ⟨_, c, htd, rfl⟩
  · cases h

theorem has_of_pausing {s : RoomSession SandboxRoom SandboxKept} {room : SandboxRoom} (h : pausing s = some room) :
    HasSandbox s room.sandbox := by
  obtain ⟨td, c, htd, htask⟩ := pausing_eq h
  exact .inr (.inr (by simp [teardownSandbox, htd, htask, TeardownPoint.sandbox]))

end FrontDesk

theorem pumpSandbox_of_after (h : pumpAfter s.pump = true) : pumpSandbox s = none := by
  unfold pumpAfter at h
  split at h
  case h_6 hp | h_7 hp | h_8 hp =>
    rw [pumpSandbox, hp]
    rfl
  all_goals cases h

/-- Once its room is kept, a session has nothing any more. -/
theorem keepEnds_has (hs : (machine SandboxRoom SandboxKept cfg).Reachable s)
    (hst : step cfg s (.keepEnds (.returned ())) = some t) : ¬ HasSandbox t x := by
  cases step_turn hst with
  | @keepEnds td room c reply htd htask =>
    have hlife := reachable_lifecycle hs
    have hcore : (core s).teardown = some (td.allowKeep, .suspended (.pausing room) c) := by
      simp [core, htd, htask]
    have hroom : s.room = none := hlife.room_of_suspended hcore
    have hpump : pumpSandbox s = none := by
      rcases hlife.staged with hu | ⟨kept, r, phase, hfit, -⟩
      · have hnone := hu.task
        rw [Core.holding, hcore] at hnone
        cases hnone
      · -- the pump is past the opening of the room
        have hafter : pumpAfter s.pump = true := by
          rcases hfit.task.of_suspended hcore with ⟨-, rfl⟩ | ⟨hp, -⟩
          · exact hfit.pump
          · cases hp
        exact pumpSandbox_of_after hafter
    rintro (h | h | h)
    · cases hpump.symm.trans h
    · have hnone : s.room.map SandboxRoom.sandbox = some x := h
      rw [hroom] at hnone
      cases hnone
    · cases h

/-! ## All of them -/

namespace FrontDesk

variable {υ : Type} [DecidableEq υ] {cfg : SessionConfig} {d d' : FrontDesk υ} {e : DeskEvent υ} {x : Nat}

/-- What a step does to the sessions and to the registry. -/
inductive Moves (cfg : SessionConfig) (d : FrontDesk υ) : DeskEvent υ → FrontDesk υ → Prop
  | connects {username : υ} : Moves cfg d (.connects username) { d with guests := d.guests ++ [⟨username, .initial⟩] }
  | session {i : Nat} {g : Guest υ} {e : Event SandboxRoom SandboxKept} {session : RoomSession SandboxRoom SandboxKept}
      (hg : d.guests[i]? = some g) (hown : isOwnSession e = false) (hst : Session.step cfg g.session e = some session) :
      Moves cfg d (.session i e) (d.setSession i g session)
  | takes {i : Nat} {g : Guest υ} {session : RoomSession SandboxRoom SandboxKept} {kept : KeptRooms υ SandboxKept}
      (hg : d.guests[i]? = some g) (hp : g.session.pump = some (.created false))
      (hst : Session.step cfg g.session (.pumpStarts (d.kept.byUsername.get? g.username)) = some session)
      (htake : d.kept.step (.take g.username) = some kept) :
      Moves cfg d (.pumpStarts i) { d.setSession i g session with kept }
  | pumpStarts {i : Nat} {g : Guest υ} {session : RoomSession SandboxRoom SandboxKept} (hg : d.guests[i]? = some g)
      (hst : Session.step cfg g.session (.pumpStarts none) = some session) :
      Moves cfg d (.pumpStarts i) (d.setSession i g session)
  | opens {i : Nat} {g : Guest υ} {pausable broken : Bool} {session : RoomSession SandboxRoom SandboxKept} {c : Bool}
      (hg : d.guests[i]? = some g) (hp : g.session.pump = some (.suspended (.opening none) c))
      (hst : Session.step cfg g.session (.openEnds (.returned ⟨d.openedFor.length, pausable⟩) broken) = some session) :
      Moves cfg d (.opens i pausable broken) { d.setSession i g session with openedFor := d.openedFor ++ [g.username] }
  | resumes {i : Nat} {g : Guest υ} {pausable broken : Bool} {session : RoomSession SandboxRoom SandboxKept}
      {kept : SandboxKept} {c : Bool} (hg : d.guests[i]? = some g)
      (hp : g.session.pump = some (.suspended (.opening (some kept)) c))
      (hst : Session.step cfg g.session (.openEnds (.returned ⟨kept.sandbox, pausable⟩) broken) = some session) :
      Moves cfg d (.opens i pausable broken) (d.setSession i g session)
  | teardownStarts {i : Nat} {g : Guest υ} {session : RoomSession SandboxRoom SandboxKept}
      {kept : KeptRooms υ SandboxKept} (hg : d.guests[i]? = some g)
      (hst : Session.step cfg g.session .teardownStarts = some session)
      (hkept : kept.byUsername = d.kept.byUsername ∧ kept.marks = d.kept.marks) :
      Moves cfg d (.teardownStarts i) { d.setSession i g session with kept }
  | pauseEnds {i : Nat} {g : Guest υ} {reply : Reply Nat} {room : SandboxRoom}
      {session : RoomSession SandboxRoom SandboxKept} {kept : KeptRooms υ SandboxKept} (hg : d.guests[i]? = some g)
      (hroom : pausing g.session = some room)
      (hst : Session.step cfg g.session (.keepEnds (outcome reply)) = some session)
      (hkept : d.kept.step (.pauseEnds g.username (pauseReply room reply)) = some kept) :
      Moves cfg d (.pauseEnds i reply) { d.setSession i g session with kept }
  | registry {e : KeptEvent υ SandboxKept} {kept : KeptRooms υ SandboxKept} (hown : isOwnRegistry e = false)
      (hkept : d.kept.step e = some kept) : Moves cfg d (.registry e) { d with kept }

theorem step_moves (h : step cfg d e = some d') : Moves cfg d e d' := by
  cases e with
  | connects username =>
    cases h
    exact .connects
  | session i e =>
    obtain ⟨g, hg, h⟩ := Option.bind_eq_some_iff.mp h
    split at h
    · cases h
    · obtain ⟨session, hst, rfl⟩ := Option.map_eq_some_iff.mp h
      exact .session hg (Bool.eq_false_iff.mpr ‹_›) hst
  | pumpStarts i =>
    obtain ⟨g, hg, h⟩ := Option.bind_eq_some_iff.mp h
    split at h
    · rename_i hclaims
      obtain ⟨session, hst, h⟩ := Option.bind_eq_some_iff.mp h
      obtain ⟨kept, htake, h⟩ := Option.bind_eq_some_iff.mp h
      cases h
      simp only [claims, Bool.and_eq_true, decide_eq_true_eq] at hclaims
      exact .takes hg hclaims.2 hst htake
    · obtain ⟨session, hst, rfl⟩ := Option.map_eq_some_iff.mp h
      exact .pumpStarts hg hst
  | opens i pausable broken =>
    obtain ⟨g, hg, h⟩ := Option.bind_eq_some_iff.mp h
    split at h
    · obtain ⟨session, hst, h⟩ := Option.bind_eq_some_iff.mp h
      cases h
      exact .opens hg ‹_› hst
    · obtain ⟨session, hst, rfl⟩ := Option.map_eq_some_iff.mp h
      exact .resumes hg ‹_› hst
    · cases h
  | teardownStarts i =>
    obtain ⟨g, hg, h⟩ := Option.bind_eq_some_iff.mp h
    obtain ⟨session, hst, h⟩ := Option.bind_eq_some_iff.mp h
    split at h
    · obtain ⟨kept, hkeep, h⟩ := Option.bind_eq_some_iff.mp h
      cases hkeep
      cases h
      exact .teardownStarts hg hst ⟨rfl, rfl⟩
    · cases h
      exact .teardownStarts hg hst ⟨rfl, rfl⟩
  | pauseEnds i reply =>
    obtain ⟨g, hg, h⟩ := Option.bind_eq_some_iff.mp h
    obtain ⟨room, hroom, h⟩ := Option.bind_eq_some_iff.mp h
    obtain ⟨session, hst, h⟩ := Option.bind_eq_some_iff.mp h
    obtain ⟨kept, hkept, h⟩ := Option.bind_eq_some_iff.mp h
    cases h
    exact .pauseEnds hg hroom hst hkept
  | registry e =>
    simp only [step] at h
    split at h
    · cases h
    · obtain ⟨kept, hkept, rfl⟩ := Option.map_eq_some_iff.mp h
      exact .registry (Bool.eq_false_iff.mpr ‹_›) hkept

/-- The sandboxes that were opened, and for whom. -/
def openedAs (d : FrontDesk υ) (x : Nat) : Option υ :=
  d.openedFor[x]?

def Passes (d d' : FrontDesk υ) : Prop :=
  Reasoning.Passes d.Has d'.Has d.openedAs d'.openedAs d.actsFor d'.actsFor

section

variable {i : Nat} {g : Guest υ} {session : RoomSession SandboxRoom SandboxKept}

omit [DecidableEq υ] in
theorem actsFor_set (hg : d.guests[i]? = some g) (hguests : d'.guests = d.guests.set i { g with session }) :
    d'.actsFor = d.actsFor := by
  funext p
  cases p with
  | desk username => rfl
  | session j =>
    show d'.guests[j]?.map Guest.username = d.guests[j]?.map Guest.username
    rw [hguests, List.getElem?_set]
    split
    · rename_i hij
      subst hij
      obtain ⟨hlt, -⟩ := List.getElem?_eq_some_iff.mp hg
      rw [if_pos hlt, hg]
      rfl
    · rfl

/-- The other sessions have what they had. -/
theorem has_set (hguests : d'.guests = d.guests.set i { g with session }) {j : Nat} (h : d'.Has (.session j) x) :
    j ≠ i ∧ d.Has (.session j) x ∨ j = i ∧ HasSandbox session x := by
  obtain ⟨g', hg', hx⟩ := h
  rw [hguests, List.getElem?_set] at hg'
  split at hg'
  · rename_i hij
    split at hg'
    · cases hg'
      exact .inr ⟨hij.symm, hx⟩
    · cases hg'
  · rename_i hij
    exact .inl ⟨fun h ↦ hij h.symm, g', hg', hx⟩

/-- A session drops what it drops, and nothing is put into the registry. -/
theorem passes_of_drops (hg : d.guests[i]? = some g) (hguests : d'.guests = d.guests.set i { g with session })
    (hopened : d'.openedFor = d.openedFor) (hsame : ∀ y, HasSandbox session y → HasSandbox g.session y)
    (hdesk : ∀ u y, d'.Has (.desk u) y → d.Has (.desk u) y) : d.Passes d' := by
  refine .drops (funext fun x ↦ by rw [openedAs, hopened, openedAs])
    (fun p _ _ ↦ by rw [actsFor_set hg hguests]) fun p y hp ↦ ?_
  cases p with
  | desk u => exact hdesk u y hp
  | session j =>
    rcases has_set hguests hp with ⟨-, hj⟩ | ⟨rfl, hj⟩
    · exact hj
    · exact ⟨g, hg, hsame y hj⟩

end

theorem desk_of_change {kept kept' : KeptRooms υ SandboxKept} (h : KeptRooms.Change kept kept' none) {u : υ}
    {k : SandboxKept} (hk : kept'.byUsername.get? u = some k) : kept.byUsername.get? u = some k := by
  cases h with
  | same hsame => rwa [hsame] at hk
  | removed u' k' f hfound hf herase =>
    rw [herase, Dict.get?_erase] at hk
    by_cases hu : u = u'
    · rw [hu, Function.update_self] at hk
      cases hk
    · rwa [Function.update_of_ne hu] at hk

theorem Moves.passes (hreached : ∀ g ∈ d.guests, (Session.machine SandboxRoom SandboxKept cfg).Reachable g.session)
    (hst : Moves cfg d e d') : d.Passes d' := by
  cases hst with
  | @connects username =>
    refine .drops rfl (fun p y hp ↦ ?_) fun p y hp ↦ ?_
    · cases p with
      | desk u => rfl
      | session j =>
        obtain ⟨g, hg, hy⟩ := hp
        obtain ⟨hlt, -⟩ := List.getElem?_eq_some_iff.mp hg
        show (d.guests ++ [_])[j]?.map _ = d.guests[j]?.map _
        rw [List.getElem?_append_left hlt]
    -- the new session has nothing
    · cases p with
      | desk u => exact hp
      | session j =>
        obtain ⟨g, hg, hy⟩ := hp
        have hguests : (d.guests ++ [⟨username, .initial⟩])[j]? = some g := hg
        rw [List.getElem?_append] at hguests
        split at hguests
        · exact ⟨g, hguests, hy⟩
        · cases List.mem_singleton.mp (List.mem_of_getElem? hguests)
          rcases hy with hy | hy | hy <;> cases hy
  | @session i g e session hg hown hst =>
    refine passes_of_drops hg rfl rfl (fun y ↦ (step_drops hst ?_ ?_).has) fun u y hu ↦ hu
    · rintro kept rfl
      cases hown
    · rintro room broken rfl
      cases hown
  | @takes i g session kept hg hp hst htake =>
    have hchange := KeptRooms.step_change htake
    cases hfound : d.kept.byUsername.get? g.username with
    | none =>
      rw [hfound] at hst
      refine passes_of_drops hg rfl rfl (fun y ↦ (step_drops hst nofun nofun).has) fun u y hu ↦ ?_
      obtain ⟨k, hk, hy⟩ := hu
      exact ⟨k, desk_of_change hchange hk, hy⟩
    | some k =>
      rw [hfound] at hst
      have hdesk : d.Has (.desk g.username) k.sandbox := ⟨k, hfound, rfl⟩
      have hacts : d.actsFor (.session i) = d.actsFor (.desk g.username) := by
        show d.guests[i]?.map Guest.username = some g.username
        rw [hg]
        rfl
      refine .hands _ _ _ hdesk ?_ hacts rfl (actsFor_set hg rfl) fun p y hp ↦ ?_
      · rintro ⟨k', hk', -⟩
        have hnone : kept.byUsername.get? g.username = none := by
          cases htake
          rw [KeptRooms.take, hfound]
          show (d.kept.byUsername.erase g.username).get? g.username = none
          rw [Dict.get?_erase, Function.update_self]
        cases hnone.symm.trans hk'
      · cases p with
        | desk u =>
          obtain ⟨k', hk', hy⟩ := hp
          exact .inl ⟨k', desk_of_change hchange hk', hy⟩
        | session j =>
          rcases has_set rfl hp with ⟨-, hj⟩ | ⟨rfl, hj⟩
          · exact .inl hj
          · rcases pumpStarts_has hst hj with hold | ⟨k', hk', hy⟩
            · exact .inl ⟨g, hg, hold⟩
            · cases hk'
              exact .inr ⟨rfl, hy.symm⟩
  | pumpStarts hg hst => exact passes_of_drops hg rfl rfl (fun y ↦ (step_drops hst nofun nofun).has) fun u y hu ↦ hu
  | @opens i g pausable broken session c hg hp hst =>
    have hnew : d.openedAs d.openedFor.length = none := List.getElem?_eq_none (Nat.le_refl _)
    refine .creates (.session i) _ g.username hnew ?_ (fun y b hb ↦ ?_) ?_ (actsFor_set (d := d) hg rfl) fun p y hp ↦ ?_
    · exact List.getElem?_concat_length
    · exact (List.getElem?_append_left (List.getElem?_eq_some_iff.mp hb).1).trans hb
    · show d.guests[i]?.map Guest.username = some g.username
      rw [hg]
      rfl
    · cases p with
      | desk u => exact .inl hp
      | session j =>
        rcases has_set rfl hp with ⟨-, hj⟩ | ⟨rfl, hj⟩
        · exact .inl hj
        · rcases openEnds_has hst hj with hold | hy
          · exact .inl ⟨g, hg, hold⟩
          · exact .inr ⟨rfl, hy.symm⟩
  | @resumes i g pausable broken session kept c hg hp hst =>
    refine passes_of_drops hg rfl rfl (fun y hy ↦ ?_) fun u y hu ↦ hu
    rcases openEnds_has hst hy with hold | hroom
    · exact hold
    · -- the claim was for this sandbox
      exact .inl (by rw [pumpSandbox, hp]; exact congrArg some hroom)
  | @teardownStarts i g session kept hg hst hkept =>
    refine passes_of_drops hg rfl rfl (fun y ↦ (step_drops hst nofun nofun).has) fun u y hu ↦ ?_
    obtain ⟨k, hk, hy⟩ := hu
    exact ⟨k, by rw [← hkept.1]; exact hk, hy⟩
  | @pauseEnds i g reply room session kept hg hroom hst hkept =>
    have hchange := KeptRooms.step_change hkept
    cases reply with
    | raised | cancelled =>
      refine passes_of_drops hg rfl rfl (fun y ↦ (step_drops hst nofun nofun).has) fun u y hu ↦ ?_
      obtain ⟨k, hk, hy⟩ := hu
      exact ⟨k, desk_of_change hchange hk, hy⟩
    | returned k =>
      have hnothing {y : Nat} : ¬ HasSandbox session y := keepEnds_has (hreached g (List.mem_of_getElem? hg)) hst
      have hacts : d.actsFor (.desk g.username) = d.actsFor (.session i) := by
        show some g.username = d.guests[i]?.map Guest.username
        rw [hg]
        rfl
      have hhas : d.Has (.session i) room.sandbox := ⟨g, hg, has_of_pausing hroom⟩
      refine .hands _ _ _ hhas ?_ hacts rfl (actsFor_set hg rfl) fun p y hp ↦ ?_
      · intro hp
        rcases has_set rfl hp with ⟨hne, -⟩ | ⟨-, hj⟩
        · exact hne rfl
        · exact hnothing hj
      · cases p with
        | session j =>
          rcases has_set rfl hp with ⟨-, hj⟩ | ⟨-, hj⟩
          · exact .inl hj
          · exact absurd hj hnothing
        | desk u =>
          obtain ⟨k', hk', hy⟩ := hp
          cases hchange with
          | registered u' k'' hnew hset =>
            have hget : (d.kept.byUsername.set g.username ⟨k, room.sandbox⟩).get? u = some k' := hset ▸ hk'
            rw [Dict.get?_set] at hget
            by_cases hu : u = g.username
            · subst hu
              rw [Function.update_self] at hget
              cases hget
              exact .inr ⟨rfl, hy.symm⟩
            · rw [Function.update_of_ne hu] at hget
              exact .inl ⟨k', hget, hy⟩
  | @registry e kept hown hkept =>
    have hchange := KeptRooms.step_change hkept
    have hnone : e.registers = none := by
      cases e with
      | pauseEnds => cases hown
      | _ => rfl
    rw [hnone] at hchange
    refine .drops rfl (fun _ _ _ ↦ rfl) fun p y hp ↦ ?_
    cases p with
    | session j => exact hp
    | desk u =>
      obtain ⟨k, hk, hy⟩ := hp
      exact ⟨k, desk_of_change hchange hk, hy⟩

/-! ## Every run -/

omit [DecidableEq υ] in
theorem mem_set {d : FrontDesk υ} {i : Nat} {g : Guest υ} {e : Event SandboxRoom SandboxKept}
    {session : RoomSession SandboxRoom SandboxKept} (hg : d.guests[i]? = some g)
    (hst : Session.step cfg g.session e = some session) {y : RoomSession SandboxRoom SandboxKept}
    (hy : y ∈ (d.guests.set i { g with session }).map Guest.session) :
    y ∈ d.guests.map Guest.session ∨
      ∃ x ∈ d.guests.map Guest.session, ∃ f, Session.step cfg x f = some y := by
  obtain ⟨g', hmem, rfl⟩ := List.mem_map.mp hy
  rcases List.mem_or_eq_of_mem_set hmem with hmem | rfl
  · exact .inl (List.mem_map_of_mem hmem)
  · exact .inr ⟨g.session, List.mem_map_of_mem (List.mem_of_getElem? hg), e, hst⟩

theorem reachable_sessions (h : (machine υ cfg).Reachable d) :
    ∀ session ∈ d.guests.map Guest.session, (Session.machine SandboxRoom SandboxKept cfg).Reachable session := by
  refine h.members (fun d ↦ d.guests.map Guest.session) rfl fun d e d' hst y hy ↦ ?_
  cases step_moves hst with
  | connects =>
    rw [List.map_append] at hy
    rcases List.mem_append.mp hy with hy | hy
    · exact .inl hy
    · exact .inr (.inl (List.mem_singleton.mp hy))
  | session hg _ hstep | takes hg _ hstep | pumpStarts hg hstep | opens hg _ hstep | resumes hg _ hstep
  | teardownStarts hg hstep | pauseEnds hg _ hstep => exact (mem_set hg hstep hy).imp_right .inr
  | registry => exact .inl hy

theorem passes_of_step (h : (machine υ cfg).Reachable d) (hst : step cfg d e = some d') : d.Passes d' :=
  (step_moves hst).passes fun _ hg ↦ reachable_sessions h _ (List.mem_map_of_mem hg)

theorem reachable_custody (h : (machine υ cfg).Reachable d) : Custody d.Has d.openedAs d.actsFor := by
  refine h.invariant (.of_none ?_) fun d e d' hd hi hst ↦ (passes_of_step hd hst).custody hi
  intro p x hp
  cases p with
  | session i =>
    obtain ⟨g, hg, -⟩ := hp
    cases hg
  | desk u =>
    obtain ⟨k, hk, -⟩ := hp
    cases hk

/-- What nobody has stays with nobody. -/
theorem gone_for_good (h : (machine υ cfg).Reachable d) {es : List (DeskEvent υ)}
    (hrun : (machine υ cfg).run d es = some d') {u : υ} (hopened : d.openedAs x = some u) (hgone : ∀ p, ¬ d.Has p x) :
    ∀ p, ¬ d'.Has p x := by
  induction es generalizing d with
  | nil =>
    cases hrun
    exact hgone
  | cons e es ih =>
    obtain ⟨d₁, hst, hrest⟩ := Option.bind_eq_some_iff.mp hrun
    have hpass := passes_of_step h hst
    refine ih (h.step hst) hrest (hpass.made_some hopened) fun p hp ↦ ?_
    rcases hpass.had hp with ⟨q, hq⟩ | hnew
    · exact hgone q hq
    · cases hopened.symm.trans hnew

/-- At any time a sandbox is with one session, or kept under one username, or with nobody: then nobody will ever have
it again.  Whoever has it has it for the username it was opened for. -/
theorem sandbox_exclusive (υ : Type) [DecidableEq υ] (cfg : SessionConfig) {d : FrontDesk υ}
    (h : (machine υ cfg).Reachable d) :
    (∀ p q x, d.Has p x → d.Has q x → p = q) ∧
      (∀ p x, d.Has p x → ∃ username, d.openedFor[x]? = some username ∧ d.actsFor p = some username) ∧
        ∀ es d' x, (machine υ cfg).run d es = some d' → x < d.openedFor.length → (∀ p, ¬ d.Has p x) →
          ∀ p, ¬ d'.Has p x := by
  refine ⟨fun _ _ _ hp hq ↦ (reachable_custody h).alone hp hq, fun _ _ hp ↦ (reachable_custody h).behalf hp, ?_⟩
  intro es d' x hrun hlt hgone
  exact gone_for_good h hrun (List.getElem?_eq_getElem hlt) hgone

/-- Two clients of the same name: the second comes while the first one's room is kept, and the first comes back. -/
def bothComeBack : List (DeskEvent String) :=
  [.connects "python", .session 0 .sessionStarted, .pumpStarts 0, .opens 0 true false, .session 0 .connectionLost,
    .teardownStarts 0, .connects "python", .session 1 .sessionStarted, .pauseEnds 0 (.returned 0), .pumpStarts 1,
    .opens 1 true false, .connects "python", .session 2 .sessionStarted, .pumpStarts 2, .opens 2 true false]

theorem bothComeBack_exclusive : ∃ d : FrontDesk String,
    (machine String ⟨some 600, 0⟩).run .initial bothComeBack = some d ∧ d.Has (.session 1) 0 ∧ d.Has (.session 2) 1 ∧
      ¬ d.Has (.session 0) 0 ∧ ¬ d.Has (.desk "python") 0 := by
  have hends : ((machine String ⟨some 600, 0⟩).run .initial bothComeBack).map
      (fun d ↦ d.guests.map fun g ↦ g.session.room.map SandboxRoom.sandbox) = some [none, some 0, some 1] := by
    decide +kernel
  obtain ⟨d, hrun, hrooms⟩ := Option.map_eq_some_iff.mp hends
  have hhas {i x : Nat} (hi : (d.guests.map fun g ↦ g.session.room.map SandboxRoom.sandbox)[i]? = some (some x)) :
      d.Has (.session i) x := by
    rw [List.getElem?_map] at hi
    obtain ⟨g, hg, hroom⟩ := Option.map_eq_some_iff.mp hi
    exact ⟨g, hg, .inr (.inl hroom)⟩
  have hone : d.Has (.session 1) 0 := hhas (by rw [hrooms]; rfl)
  have htwo : d.Has (.session 2) 1 := hhas (by rw [hrooms]; rfl)
  have halone := (sandbox_exclusive String ⟨some 600, 0⟩ (Machine.Reachable.of_run hrun)).1
  refine ⟨d, hrun, hone, htwo, fun h ↦ ?_, fun h ↦ ?_⟩
  · cases halone _ _ _ h hone
  · cases halone _ _ _ h hone

end FrontDesk

end Keycard.Session
