import Keycard.Session.Reports

/-!
# The exit status of a session

A session sends one exit status at most.  Whoever waits for the teardown is resumed in the order it began
to wait, and the first to report closes the channel, so that the status is that of the trigger that began
the teardown, unless another trigger arrives when the teardown is over and its creator has yet to be
resumed, or the creator's report is lost.
-/

open Reasoning

namespace Keycard.Session

variable {ρ κ : Type}

/-! ## When the creator of the teardown is the first to report -/

/-- The watchdog or `force_close` comes to its `await` of the teardown. -/
def arrives (cfg : SessionConfig) (s : RoomSession ρ κ) : Event ρ κ → Bool
  | .watchdogRuns true false =>
    match s.watchdog with
    | some (.created false) => 0 < cfg.idleSeconds
    | some (.suspended .sleeping false) => true
    | _ => false
  | .closerStarts false =>
    match s.closer with
    | some (.created false) => true
    | _ => false
  | _ => false

/-- It finds the teardown over, and the channel still open. -/
def overtakes (cfg : SessionConfig) (s : RoomSession ρ κ) (e : Event ρ κ) : Bool :=
  arrives cfg s e && s.teardownOver = some (.returned ()) && !s.chan.closing && (creator s.marks).isSome

/-- The trigger that `e` resumes after the teardown, and whether its report is lost: it has been
cancelled meanwhile, or the channel raises. -/
def resumed (s : RoomSession ρ κ) : Event ρ κ → Option (Trigger × Bool)
  | .pumpResumes broken =>
    match s.pump with
    | some (.suspended (.joining _ _) c) => some (.pump, c || broken)
    | _ => none
  | .watchdogResumes broken =>
    match s.watchdog with
    | some (.suspended .joining c) => some (.watchdog, c || broken)
    | _ => none
  | .closerResumes broken =>
    match s.closer with
    | some (.suspended () c) => some (.forceClose, c || broken)
    | _ => none
  | _ => none

/-- The creator's report is lost, and behind it waits one of the triggers that report in any case. -/
def losesReport (s : RoomSession ρ κ) (e : Event ρ κ) : Bool :=
  match resumed s e, s.teardown with
  | some (trigger, lost), some td =>
    creator s.marks = some trigger && lost && !s.chan.closing && td.waiters.tail.any (· ≠ .pump)
  | _, _ => false

/-- The creator of the teardown reports before anyone else can. -/
def ReportsFirst (cfg : SessionConfig) (s : RoomSession ρ κ) (e : Event ρ κ) : Prop :=
  overtakes cfg s e = false ∧ losesReport s e = false

instance (cfg : SessionConfig) (s : RoomSession ρ κ) (e : Event ρ κ) : Decidable (ReportsFirst cfg s e) :=
  inferInstanceAs (Decidable (_ ∧ _))

/-- Nobody who reports in any case waits behind a creator whose report is lost. -/
theorem tail_of_not_loses {e : Event ρ κ} {who : Trigger} (hlose : losesReport s e = false)
    (hresumed : resumed s e = some (who, true)) (hcreator : creator s.marks = some who)
    (hopen : s.chan.closing = false) (td : Teardown ρ) (htd : s.teardown = some td) :
    ∀ w ∈ td.waiters.tail, w = .pump := by
  simpa [losesReport, hresumed, hcreator, hopen, htd] using hlose

/-! ## Every step -/

section Invariant

variable [Room ρ] {cfg : SessionConfig} {s t : RoomSession ρ κ}

/-- A trigger that found a room came after the room had opened. -/
theorem Move.opened_of_reached {c d : Core ρ κ} {a : Act ρ κ} (hm : Move cfg c a d) (hlife : c.Lifecycle)
    (hc : ∀ trigger room, .reached trigger (some room) ∈ c.marks → ∃ kept r, .opened kept r ∈ c.marks)
    (trigger : Trigger) (room : ρ) (hd : .reached trigger (some room) ∈ d.marks) :
    ∃ kept r, .opened kept r ∈ d.marks := by
  have hopened : ∃ kept r, .opened kept r ∈ c.marks := by
    obtain ⟨ms, hmarks, hms⟩ := hm.appends
    rw [hmarks] at hd
    rcases List.mem_append.mp hd with hd | hd
    · exact hc trigger room hd
    · obtain ⟨trigger', -, hreached⟩ := hms _ hd rfl
      injection hreached with _ hroom
      rcases hlife.staged with hu | ⟨kept, r, phase, -, hlog⟩
      · rw [hu.left] at hroom
        cases hroom
      · have hfirst : .opened kept r ∈ c.roomMarks := by
          rw [hlog]
          exact List.mem_cons_self
        exact ⟨kept, r, List.mem_of_mem_filter hfirst⟩
  obtain ⟨kept, r, ho⟩ := hopened
  exact ⟨kept, r, hm.marks ho⟩

theorem reachable_opened (h : (machine ρ κ cfg).Reachable s) {trigger : Trigger}
    (hcreator : creator s.marks = some trigger) : ∃ kept r, .opened kept r ∈ s.marks := by
  have hall : ∀ trigger room, .reached trigger (some room) ∈ (core s).marks →
      ∃ kept r, .opened kept r ∈ (core s).marks := by
    refine reached_invariant (I := fun c ↦ ∀ trigger room, .reached trigger (some room) ∈ c.marks →
      ∃ kept r, .opened kept r ∈ c.marks) h ?_ ?_
    · intro trigger room hm
      cases hm
    · intro s e _ _ c a d _ hm hlife hc
      exact hm.opened_of_reached hlife hc
  unfold creator at hcreator
  split at hcreator
  · rename_i trigger' room hfirst
    exact hall trigger' room (List.mem_of_find?_eq_some hfirst)
  · cases hcreator

/-- Before the pump has opened a room, no trigger has found one. -/
theorem creator_of_before (h : (machine ρ κ cfg).Reachable s) (hbefore : pumpBefore s.pump = true)
    (hlive : s.pump.any LoopTask.isEnded = false) : creator s.marks = none ∧ s.room = none := by
  have hunopened : ∀ kept r, .opened kept r ∉ s.marks := by
    intro kept r ho
    obtain ⟨phase, hfit, -⟩ := (reachable_lifecycle h).staged.of_opened ho
    have hended := hfit.pump.not_before rfl hbefore
    rw [show (core s).pump = s.pump from rfl, hlive] at hended
    cases hended
  constructor
  · by_contra hcreator
    obtain ⟨trigger, htrigger⟩ := Option.ne_none_iff_exists'.mp hcreator
    obtain ⟨kept, r, ho⟩ := reachable_opened h htrigger
    exact hunopened kept r ho
  · rcases (reachable_lifecycle h).staged with hu | ⟨kept, r, phase, -, hlog⟩
    · exact hu.left
    · have hfirst : .opened kept r ∈ (core s).roomMarks := by
        rw [hlog]
        exact List.mem_cons_self
      exact absurd (List.mem_of_mem_filter hfirst) (hunopened kept r)

theorem firstReached_of_untouched (h : (machine ρ κ cfg).Reachable s) (hnone : s.teardown = none) :
    firstReached s.marks = none :=
  (reachable_triggered h).untouched (by simp [core, hnone])

theorem firstReached_of_touched (h : (machine ρ κ cfg).Reachable s) {td : Teardown ρ}
    (htd : s.teardown = some td) : (firstReached s.marks).isSome = true :=
  (reachable_triggered h).touched (by simp [core, htd])

/-! The pump. -/

theorem Reported.noRoom (h : Reported s) (hreached : (machine ρ κ cfg).Reachable s)
    (hbefore : pumpBefore s.pump = true) (hlive : s.pump.any LoopTask.isEnded = false) (broken : Bool) :
    Reported (s.noRoomAvailable broken) := by
  obtain ⟨hcreator, hroom⟩ := creator_of_before hreached hbefore hlive
  unfold RoomSession.noRoomAvailable
  split
  · exact h.silent (.endsPump s _)
  · refine ⟨((h.faithful.silent (.endsPump s (.returned ()))).exits (n := 1) (fun _ ↦ ⟨hroom, rfl⟩) ?_),
      .of_closing (closing_exit _ _)⟩
    intro trigger htrigger
    have hcreator' : creator s.marks = some trigger := htrigger
    rw [hcreator] at hcreator'
    cases hcreator'

theorem Reported.afterOpen (h : Reported s) (hreached : (machine ρ κ cfg).Reachable s) {kept : Option κ}
    {c : Bool} (hp : s.pump = some (.suspended (.opening kept) c)) (reply : Reply ρ) (broken : Bool) :
    Reported (s.afterOpen kept reply broken) := by
  have hours : joinsOurs s = false := by simp [joinsOurs, hp]
  have hended : pumpEnded s = false := by simp [pumpEnded, hp]
  cases reply with
  | cancelled => exact h.silent (.endsPump s _)
  | raised =>
    cases kept with
    | some k => exact h.silent (.pumps hours hended rfl (firstReached_append _ (by simp [Mark.isReached])))
    | none => exact h.noRoom hreached (by simp [hp, pumpBefore]) (by simp [hp]) broken
  | returned room =>
    unfold RoomSession.afterOpen
    simp only []
    split
    · refine h.silent (.pumps hours hended rfl ?_)
      rw [RoomSession.note, RoomSession.note, List.append_assoc]
      exact firstReached_append _ (by simp [Mark.isReached])
    · split
      · exact h.silent (.pumps hours hended rfl (firstReached_append _ (by simp [Mark.isReached])))
      · exact h.silent (.pumps hours hended rfl (firstReached_append _ (by simp [Mark.isReached])))

theorem Reported.afterDestroyKept (h : Reported s) (hreached : (machine ρ κ cfg).Reachable s) {k : κ}
    {c : Bool} (hp : s.pump = some (.suspended (.destroyingKept k) c)) (reply : Outcome) (broken : Bool) :
    Reported (s.afterDestroyKept reply broken) := by
  have hroom := h.noRoom hreached (by simp [hp, pumpBefore]) (by simp [hp]) broken
  cases reply with
  | cancelled => exact h.silent (.endsPump s _)
  | returned u => exact hroom
  | raised => exact hroom

omit [Room ρ] in
theorem Reported.pumpResumes (h : Reported s) {ours unwinding c broken : Bool} {how : Outcome}
    (hp : s.pump = some (.suspended (.joining ours unwinding) c)) (hwakes : wakes s .pump = some how)
    (hlose : losesReport s (.pumpResumes broken) = false) :
    Reported (s.dequeue.goodbye ours unwinding c broken how) := by
  have hjoins : joinsOurs s = ours := by rw [joinsOurs, hp]
  have hover : s.dequeue.teardownOver = some how := (dequeue_over s).trans (over_of_wakes hwakes)
  constructor
  · refine h.faithful.dequeues.goodbye (fun hours ↦ ?_) hover _ _ _
    rw [dequeue_eq]
    exact h.faithful.ours (hjoins.trans hours)
  · rcases goodbye_cases s.dequeue ours unwinding c broken how with ⟨out, heq, hlost⟩ | ⟨n, out, -, -, -, heq⟩
    · rw [heq]
      refine (h.queued.dequeues hwakes fun hopen hhow hcreator ↦ ?_).silent (.endsPump _ out)
      -- the creator of the teardown is `ours`, and has a status to report
      have hours : ours = true := by
        obtain ⟨room, hfirst⟩ : ∃ room, firstReached s.marks = some (.reached .pump room) := by
          unfold creator at hcreator
          split at hcreator
          · rename_i hfirst
            cases hcreator
            exact ⟨_, hfirst⟩
          · cases hcreator
        rcases h.faithful.pump room hfirst with hours | hended
        · exact hjoins.symm.trans hours
        · rw [pumpEnded, hp] at hended
          cases hended
      have hstatus : s.status.isSome = true := by
        rcases h.faithful.told .pump hcreator (hhow ▸ over_of_wakes hwakes) with hno | hstatus
        · cases hno
        · exact hstatus
      rw [dequeue_eq] at hlost
      have hflag := hlost hours hhow hopen hstatus
      exact tail_of_not_loses hlose (by rw [resumed, hp]; exact congrArg (fun b ↦ some (Trigger.pump, b)) hflag)
        hcreator hopen
    · rw [heq]
      exact .of_closing (closing_exit _ n)

/-- The `finally` of the read loop. -/
theorem Reported.finishReading (h : Reported s) (hreached : (machine ρ κ cfg).Reachable s) {room : ρ}
    {c : Bool} (hp : s.pump = some (.suspended (.reading room) c)) (unwinding broken : Bool) :
    Reported (s.finishReading unwinding broken) := by
  have hours : joinsOurs s = false := by simp [joinsOurs, hp]
  have hended : pumpEnded s = false := by simp [pumpEnded, hp]
  unfold RoomSession.finishReading
  cases htd : s.teardown with
  | none =>
    have hfirst := firstReached_of_untouched hreached htd
    simp only [RoomSession.beginTeardown, RoomSession.note, htd, RoomSession.teardownOver,
      RoomSession.enqueue, List.nil_append, Option.isNone_none]
    exact ⟨h.faithful.begins hfirst htd .pump false [.pump] rfl, .begins hfirst .pump false rfl rfl rfl⟩
  | some td =>
    have htouched := firstReached_of_touched hreached htd
    have hnoted : Reported (s.note (.reached .pump s.room)) := h.silent (.notes htouched _)
    have hbegun : s.beginTeardown .pump false = s.note (.reached .pump s.room) := by
      simp [RoomSession.beginTeardown, RoomSession.note, htd]
    simp only [hbegun, Option.isNone_some]
    split
    · rename_i how hover
      rcases goodbye_cases (s.note (.reached .pump s.room)) false unwinding false broken how with
        ⟨out, heq, -⟩ | ⟨n, out, hno, -⟩
      · rw [heq]
        exact hnoted.silent (.endsPump _ out)
      · cases hno
    · rename_i hover
      have hlive : ∀ td', (s.note (.reached .pump s.room)).teardown = some td' → td'.task.isEnded = false := by
        intro td' htd'
        obtain ⟨keep, task, waiters⟩ := td'
        rw [RoomSession.teardownOver, htd'] at hover
        cases task <;> first | rfl | cases hover
      have hqueued : Reported ((s.note (.reached .pump s.room)).enqueue .pump) :=
        ⟨hnoted.faithful.enqueues _, hnoted.queued.enqueues hlive _⟩
      refine hqueued.silent (.pumps ?_ ?_ rfl rfl)
      · rw [joinsOurs, enqueue_eq]
        exact hours
      · rw [pumpEnded, enqueue_eq]
        exact hended

/-! The watchdog and `force_close`. -/

omit [Room ρ] in
/-- A trigger that has waited reports, or has lost its report. -/
theorem Reported.resumes (h : Reported s) {e : Event ρ κ} {who : Trigger} {n : Int} {c broken : Bool}
    {how : Outcome} (hwakes : wakes s who = some how) (hwho : who ≠ .pump)
    (hannounces : ∀ status, announces status who = some n) (hlose : losesReport s e = false)
    (hresumed : resumed s e = some (who, c || broken)) :
    Reported { s.dequeue with chan := (s.dequeue.reportAndClose n c broken how).1 } := by
  rcases reportAndClose_cases s.dequeue n c broken how with ⟨out, heq, hlost⟩ | ⟨out, hhow, hopen, -, -, heq⟩
  · rw [heq]
    refine ⟨h.faithful.dequeues, h.queued.dequeues hwakes fun hopen hhow hcreator ↦ ?_⟩
    rw [dequeue_eq] at hlost
    rw [hlost hhow hopen] at hresumed
    exact tail_of_not_loses hlose hresumed hcreator hopen
  · rw [heq]
    subst hhow
    refine Reported.exits h.faithful.dequeues ((dequeue_over s).trans (over_of_wakes hwakes)) ?_
    rw [dequeue_eq] at hopen ⊢
    intro trigger hcreator
    rw [creator_of_wakes h.queued hwakes hopen hwho hcreator]
    exact hannounces _

/-- A trigger that comes to `_begin_teardown` waits if the teardown is not over, or reports at once. -/
theorem Reported.arrives (h : Reported s) (hreached : (machine ρ κ cfg).Reachable s) {who : Trigger}
    (hwho : who ≠ .pump) :
    (∀ how, (s.beginTeardown who false).teardownOver = some how →
      s.teardownOver = some how ∧ Reported (s.beginTeardown who false)) ∧
    ((s.beginTeardown who false).teardownOver = none → Reported ((s.beginTeardown who false).enqueue who)) := by
  cases htd : s.teardown with
  | none =>
    have hfirst := firstReached_of_untouched hreached htd
    have hjoins : joinsOurs s = (who == .pump) := by
      rw [beq_false_of_ne hwho]
      by_contra hjoins
      obtain ⟨room, hours⟩ := h.faithful.ours (by simpa using hjoins)
      cases hfirst.symm.trans hours
    have hbegun := @Faithful.begins _ _ _ h.faithful hfirst htd who false [who] s.pump hjoins
    have hover : (s.beginTeardown who false).teardownOver = none := by
      simp [RoomSession.beginTeardown, RoomSession.note, htd, RoomSession.teardownOver]
    refine ⟨fun how hhow ↦ ?_, fun _ ↦ ?_⟩
    · rw [hover] at hhow
      cases hhow
    · have hsame : (s.beginTeardown who false).enqueue who = { s with
          teardown := some ⟨false, .created false, [who]⟩, marks := s.marks ++ [Mark.reached who s.room] } := by
        simp [RoomSession.beginTeardown, RoomSession.note, htd, RoomSession.enqueue]
      rw [hsame]
      exact ⟨hbegun, .begins hfirst who false rfl rfl rfl⟩
  | some td =>
    have htouched := firstReached_of_touched hreached htd
    have hbegun : s.beginTeardown who false = s.note (.reached who s.room) := by
      simp [RoomSession.beginTeardown, RoomSession.note, htd]
    have hnoted : Reported (s.beginTeardown who false) := hbegun ▸ h.silent (.notes htouched _)
    have hsame : (s.beginTeardown who false).teardownOver = s.teardownOver := by
      rw [hbegun]
      rfl
    refine ⟨fun how hhow ↦ ⟨hsame ▸ hhow, hnoted⟩, fun hover ↦ ?_⟩
    refine ⟨hnoted.faithful.enqueues _, hnoted.queued.enqueues (fun td' htd' ↦ ?_) _⟩
    obtain ⟨keep, task, waiters⟩ := td'
    rw [RoomSession.teardownOver, htd'] at hover
    cases task <;> first | rfl | cases hover

/-- It reports at once only on a channel that is closing, or if no trigger has found a room. -/
theorem Reported.overtakes (h : Reported s) (hreached : (machine ρ κ cfg).Reachable s) {e : Event ρ κ}
    {who : Trigger} (hwho : who ≠ .pump) {n : Int} {broken : Bool} {how : Outcome}
    (hno : overtakes cfg s e = false) (harrives : broken = false → Session.arrives cfg s e = true)
    (hover : (s.beginTeardown who false).teardownOver = some how) :
    Reported { s.beginTeardown who false with
      chan := ((s.beginTeardown who false).reportAndClose n false broken how).1 } := by
  obtain ⟨hsame, hbegun⟩ := (h.arrives hreached hwho).1 how hover
  rcases reportAndClose_cases (s.beginTeardown who false) n false broken how with
    ⟨out, heq, -⟩ | ⟨out, hhow, hopen, -, hbroken, heq⟩
  · rw [heq]
    exact hbegun
  · rw [heq]
    subst hhow
    refine Reported.exits hbegun.faithful hover fun trigger hcreator ↦ ?_
    have hmarks : (s.beginTeardown who false).marks = s.marks ++ [Mark.reached who s.room] := by
      rw [beginTeardown_eq]
    have htouched : (firstReached s.marks).isSome = true := by
      obtain ⟨td, htd, -⟩ : ∃ td, s.teardown = some td ∧ True := by
        rcases htd : s.teardown with _ | td
        · rw [RoomSession.teardownOver, htd] at hsame
          cases hsame
        · exact ⟨td, rfl, trivial⟩
      exact firstReached_of_touched hreached htd
    have hcreator' : creator s.marks = some trigger := by
      rwa [hmarks, creator_congr (firstReached_append_of_isSome _ htouched)] at hcreator
    have hopen' : s.chan.closing = false := by
      rw [beginTeardown_eq] at hopen
      exact hopen
    simp [Session.overtakes, harrives hbroken, hsame, hopen', hcreator'] at hno

theorem Reported.idleWatchdog (h : Reported s) (hreached : (machine ρ κ cfg).Reachable s) {idle broken : Bool}
    (hw : s.watchdog = some (.created false) ∧ 0 < cfg.idleSeconds ∨
      s.watchdog = some (.suspended .sleeping false))
    (hno : Session.overtakes cfg s (.watchdogRuns idle broken) = false) :
    Reported (s.idleWatchdog idle broken) := by
  unfold RoomSession.idleWatchdog
  cases idle with
  | false => exact h.silent (.others s _ s.closer s.released)
  | true =>
    simp only [Bool.not_true, Bool.false_eq_true, if_false]
    split
    · exact h.silent (.others s _ s.closer s.released)
    · split
      · rename_i how hover
        refine (h.overtakes hreached (by decide) hno (fun hbroken ↦ ?_) hover).silent (.others _ _ _ _)
        subst hbroken
        rcases hw with ⟨hw, hidle⟩ | hw <;> simp [Session.arrives, hw]
        exact hidle
      · rename_i hover
        exact ((h.arrives hreached (by decide)).2 hover).silent (.others _ _ _ _)

theorem Reported.forceClose (h : Reported s) (hreached : (machine ρ κ cfg).Reachable s) {broken : Bool}
    (hc : s.closer = some (.created false))
    (hno : Session.overtakes cfg s (.closerStarts broken) = false) : Reported (s.forceClose broken) := by
  unfold RoomSession.forceClose
  split
  · exact h.silent (.others s s.watchdog _ s.released)
  · simp only []
    split
    · rename_i how hover
      refine (h.overtakes hreached (by decide) hno (fun hbroken ↦ ?_) hover).silent (.others _ _ _ _)
      subst hbroken
      simp [Session.arrives, hc]
    · rename_i hover
      exact ((h.arrives hreached (by decide)).2 hover).silent (.others _ _ _ _)

/-! The channel, and the teardown. -/

theorem Reported.connectionLost (h : Reported s) (hreached : (machine ρ κ cfg).Reachable s) :
    Reported s.connectionLost := by
  let s₀ : RoomSession ρ κ := { s with chan := { s.chan with closing := true, lost := true } }
  have hlost : Silent s s₀ := .keeps rfl (fun _ ↦ rfl) rfl
  have hcancelled := (hlost.trans (.cancelsPump s₀)).trans (.cancelsWatchdog _)
  have hreported := h.silent hcancelled
  have hclosing : s₀.cancelPump.cancelWatchdog.chan.closing = true :=
    ((Silent.cancelsPump s₀).trans (.cancelsWatchdog _)).closing rfl
  change Reported (s₀.cancelPump.cancelWatchdog.beginTeardown .connectionLost true)
  cases htd : s₀.cancelPump.cancelWatchdog.teardown with
  | none =>
    have hfirst := hcancelled.first.trans (firstReached_of_untouched hreached (hcancelled.begun.mp htd))
    have hjoins : joinsOurs s₀.cancelPump.cancelWatchdog = false := by
      by_contra hjoins
      obtain ⟨room, hours⟩ := hreported.faithful.ours (by simpa using hjoins)
      cases hfirst.symm.trans hours
    have hbegun := @Faithful.begins _ _ _ hreported.faithful hfirst htd .connectionLost true []
      s₀.cancelPump.cancelWatchdog.pump hjoins
    have hsame : s₀.cancelPump.cancelWatchdog.beginTeardown .connectionLost true =
        { s₀.cancelPump.cancelWatchdog with
          teardown := some ⟨true, .created false, []⟩
          marks := s₀.cancelPump.cancelWatchdog.marks ++
            [.reached .connectionLost s₀.cancelPump.cancelWatchdog.room] } := by
      simp [RoomSession.beginTeardown, RoomSession.note, htd]
    rw [hsame]
    exact ⟨hbegun, .of_closing hclosing⟩
  | some td =>
    have htouched : (firstReached s₀.cancelPump.cancelWatchdog.marks).isSome = true := by
      rw [hcancelled.first]
      obtain ⟨td', htd'⟩ := Option.ne_none_iff_exists'.mp fun hnone ↦ by
        rw [hcancelled.begun.mpr hnone] at htd
        cases htd
      exact firstReached_of_touched hreached htd'
    have hsame : s₀.cancelPump.cancelWatchdog.beginTeardown .connectionLost true =
        s₀.cancelPump.cancelWatchdog.note (.reached .connectionLost s₀.cancelPump.cancelWatchdog.room) := by
      simp [RoomSession.beginTeardown, RoomSession.note, htd]
    rw [hsame]
    exact hreported.silent (.notes htouched _)

theorem Reported.runTeardown (h : Reported s) (hreached : (machine ρ κ cfg).Reachable s) {td : Teardown ρ}
    (htd : s.teardown = some td) (htask : td.task = .created false) : Reported (s.runTeardown cfg td) := by
  have hlive : td.task.isEnded = false := by rw [htask]; rfl
  unfold RoomSession.runTeardown
  cases hroom : s.room with
  | none =>
    -- no trigger has found a room either
    have hno : creator s.marks = none := by
      obtain ⟨trigger, hfirst, -⟩ := (reachable_triggered hreached).waiting td.allowKeep false
        (by simp [core, htd, htask])
      rw [creator, show firstReached s.marks = _ from hfirst, show (core s).room = none from hroom]
    have hmarks : firstReached (s.marks ++ [Mark.foundNone]) = firstReached s.marks :=
      firstReached_append _ (by simp [Mark.isReached])
    refine ⟨h.faithful.overs htd hlive hmarks fun trigger hcreator ↦ ?_, h.queued.overs htd hlive hmarks⟩
    rw [hno] at hcreator
    cases hcreator
  | some room =>
    have hmarks (m : Mark ρ κ) (hm : m.isReached = false) :
        firstReached (s.marks ++ [Mark.taken room] ++ [m]) = firstReached s.marks :=
      (firstReached_append _ (by simpa using hm)).trans (firstReached_append _ (by simp [Mark.isReached]))
    simp only []
    split
    · exact h.silent (.tears htd hlive (by simp) (fun _ ↦ rfl) (hmarks (.pause room) rfl))
    · exact h.silent (.tears htd hlive (by simp) (fun _ ↦ rfl) (hmarks (.destroy .teardown room) rfl))

theorem Reported.afterKeep (h : Reported s) (hreached : (machine ρ κ cfg).Reachable s) {td : Teardown ρ}
    {room : ρ} {c : Bool} (htd : s.teardown = some td) (htask : td.task = .suspended (.pausing room) c)
    (reply : Outcome) : Reported (s.afterKeep td room reply) := by
  have hlive : td.task.isEnded = false := by rw [htask]; rfl
  cases reply with
  | returned u =>
    have hmarks : firstReached (s.marks ++ [Mark.kept room]) = firstReached s.marks :=
      firstReached_append _ (by simp [Mark.isReached])
    refine ⟨h.faithful.overs htd hlive hmarks fun trigger hcreator ↦ .inl ?_, h.queued.overs htd hlive hmarks⟩
    -- only a lost connection pauses a room
    have hcore : (core s).teardown = some (td.allowKeep, .suspended (.pausing room) c) := by
      simp [core, htd, htask]
    have hfirst : firstReached s.marks = _ :=
      ((reachable_triggered hreached).paused room ((reachable_lifecycle hreached).pause_mem hcore)).1
    rw [creator, hfirst] at hcreator
    cases hcreator
    rfl
  | raised =>
    exact h.silent (.tears htd hlive (by simp) id
      ((firstReached_append _ (by simp [Mark.isReached])).trans (firstReached_append _ (by simp [Mark.isReached]))))
  | cancelled => exact h.silent (.tears htd hlive (by simp) id rfl)

omit [Room ρ] in
theorem Reported.afterDestroy (h : Reported s) {td : Teardown ρ} {room : ρ} {c : Bool}
    (htd : s.teardown = some td) (htask : td.task = .suspended (.destroying room) c) (reply : Reply Int) :
    Reported (s.afterDestroy td room reply) := by
  have hlive : td.task.isEnded = false := by rw [htask]; rfl
  have hmarks : firstReached (s.marks ++ [Mark.destroyEnded room]) = firstReached s.marks :=
    firstReached_append _ (by simp [Mark.isReached])
  cases reply with
  | returned n =>
    exact ⟨h.faithful.overs htd hlive hmarks fun _ _ ↦ .inr rfl, h.queued.overs htd hlive hmarks⟩
  | raised =>
    exact ⟨h.faithful.overs htd hlive hmarks fun _ _ ↦ .inr rfl, h.queued.overs htd hlive hmarks⟩
  | cancelled => exact h.silent (.tears htd hlive (by simp) id rfl)

theorem Reported.step {e : Event ρ κ} (h : Reported s) (hreached : (machine ρ κ cfg).Reachable s)
    (hok : ReportsFirst cfg s e) (hst : Turn cfg s e t) : Reported t := by
  cases hst with
  | sessionStarted hp =>
    exact (h.silent (.pumps (by simp [joinsOurs, hp]) (by simp [pumpEnded, hp]) rfl rfl)).silent
      (.others _ _ s.closer s.released)
  | channelCloses => exact h.silent (.closes s)
  | connectionLost => exact h.connectionLost hreached
  | pumpCutOff => exact h.silent (.endsPump s _)
  | @pumpStarts kept hp =>
    refine h.silent (.pumps (by simp [joinsOurs, hp]) (by simp [pumpEnded, hp]) rfl ?_)
    refine firstReached_append _ fun m hm ↦ ?_
    cases kept <;> simp [takeMarks] at hm
    rw [hm]
    rfl
  | openEnds hp => exact h.afterOpen hreached hp _ _
  | destroyKeptEnds hp => exact h.afterDestroyKept hreached hp _ _
  | @lateDestroyEnds room c reply hp =>
    have hended : Reported (s.note (.destroyEnded room)) :=
      h.silent (.keeps rfl id (firstReached_append _ (by simp [Mark.isReached])))
    cases reply with
    | cancelled => exact h.silent (.endsPump s _)
    | returned n => exact hended.silent (.endsPump _ _)
    | raised => exact hended.silent (.endsPump _ _)
  | @readEnds room c reply broken hp =>
    have hfinish (unwinding : Bool) := h.finishReading hreached hp unwinding broken
    rcases reply with (_ | _) | _ | _
    · exact hfinish false
    · cases broken with
      | true => exact hfinish false
      | false => exact h.silent (.pumps (by simp [joinsOurs, hp]) (by simp [pumpEnded, hp]) rfl rfl)
    · exact hfinish false
    · exact hfinish true
  | pumpResumes hp hwakes => exact h.pumpResumes hp hwakes hok.2
  | watchdogCutOff | watchdogOff => exact h.silent (.others s _ s.closer s.released)
  | watchdogRuns hw => exact h.idleWatchdog hreached hw hok.1
  | watchdogResumes hw hwakes =>
    exact (h.resumes hwakes (by decide) (fun _ ↦ rfl) hok.2 (by rw [resumed, hw])).silent (.others _ _ _ _)
  | forceClose | closerCutOff => exact h.silent (.others s s.watchdog _ s.released)
  | closerStarts hc => exact h.forceClose hreached hc hok.1
  | closerResumes hc hwakes =>
    exact (h.resumes hwakes (by decide) (fun _ ↦ rfl) hok.2 (by rw [resumed, hc])).silent (.others _ _ _ _)
  | forceCloseTimeout => exact h.silent (.cancelsCloser s)
  | teardownCutOff htd htask => exact h.silent (.tears htd (by rw [htask]; rfl) (by simp) id rfl)
  | teardownStarts htd htask => exact h.runTeardown hreached htd htask
  | keepEnds htd htask => exact h.afterKeep hreached htd htask _
  | destroyEnds htd htask => exact h.afterDestroy htd htask _

omit [Room ρ] in
theorem Reported.initial : Reported (.initial : RoomSession ρ κ) where
  faithful :=
    { unsent := fun _ ↦ rfl, early := fun _ hsent ↦ absurd rfl hsent
      ours := fun hours ↦ (by cases hours), pump := fun _ hfirst ↦ (by cases hfirst)
      settled := fun _ hsent ↦ absurd rfl hsent, told := fun _ hcreator ↦ (by cases hcreator)
      announced := fun _ hcreator ↦ (by cases hcreator) }
  queued _ _ hcreator := by cases hcreator

theorem reached_reported (h : (machine ρ κ cfg).ReachedBy (ReportsFirst cfg) s) : Reported s :=
  h.invariant .initial fun _ _ _ hs hi hok hst ↦ hi.step hs.reachable hok (step_turn hst)

end Invariant

/-! ## One status at most -/

section Channel

variable {s t : RoomSession ρ κ}

/-- What a step does to the channel: it sends a status, if the channel is open, or none. -/
inductive Sends : Channel → Channel → Prop
  | quiet {c c' : Channel} (hstatuses : c'.statuses = c.statuses)
      (hclosing : c.closing = true → c'.closing = true) : Sends c c'
  | exits {c c' : Channel} (n : Int) (hopen : c.closing = false) (hstatuses : c'.statuses = c.statuses ++ [n])
      (hclosing : c'.closing = true) : Sends c c'

theorem Sends.exit (c : Channel) (n : Int) : Sends c (c.exit n) := by
  unfold Channel.exit
  split
  · exact .quiet rfl id
  · exact .exits n (by simpa using ‹¬ c.closing = true›) rfl rfl

theorem sends_noRoomAvailable (broken : Bool) : Sends s.chan (s.noRoomAvailable broken).chan := by
  unfold RoomSession.noRoomAvailable
  split
  · exact .quiet rfl id
  · exact .exit s.chan 1

theorem sends_goodbye (ours unwinding c broken : Bool) (how : Outcome) :
    Sends s.chan (s.goodbye ours unwinding c broken how).chan := by
  rcases goodbye_cases s ours unwinding c broken how with ⟨out, heq, -⟩ | ⟨n, out, -, -, -, heq⟩
  · rw [heq]
    exact .quiet rfl id
  · rw [heq]
    exact .exit s.chan n

theorem sends_reportAndClose (n : Int) (c broken : Bool) (how : Outcome) :
    Sends s.chan (s.reportAndClose n c broken how).1 := by
  rcases reportAndClose_cases s n c broken how with ⟨out, heq, -⟩ | ⟨out, -, hopen, -, -, heq⟩
  · rw [heq]
    exact .quiet rfl id
  · rw [heq]
    exact .exits n hopen (by simp [Channel.exit, Channel.close, hopen]) rfl

theorem sends_finishReading (unwinding broken : Bool) :
    Sends s.chan (s.finishReading unwinding broken).chan := by
  unfold RoomSession.finishReading
  simp only []
  split
  · have hsends := sends_goodbye (s := s.beginTeardown .pump false) s.teardown.isNone unwinding false broken ‹_›
    rw [show (s.beginTeardown .pump false).chan = s.chan by rw [beginTeardown_eq]] at hsends
    exact hsends
  · rw [enqueue_eq, beginTeardown_eq]
    exact .quiet rfl id

/-- The watchdog and `force_close` send through `reportAndClose` alone. -/
theorem sends_begun (who : Trigger) (n : Int) (broken : Bool) (how : Outcome) :
    Sends s.chan ((s.beginTeardown who false).reportAndClose n false broken how).1 := by
  have hsends := sends_reportAndClose (s := s.beginTeardown who false) n false broken how
  rwa [show (s.beginTeardown who false).chan = s.chan by rw [beginTeardown_eq]] at hsends

theorem sends_waiting (who : Trigger) : Sends s.chan ((s.beginTeardown who false).enqueue who).chan := by
  rw [enqueue_eq, beginTeardown_eq]
  exact .quiet rfl id

theorem sends_resumed (n : Int) (c broken : Bool) (how : Outcome) :
    Sends s.chan (s.dequeue.reportAndClose n c broken how).1 := by
  have hsends := sends_reportAndClose (s := s.dequeue) n c broken how
  rwa [show s.dequeue.chan = s.chan by rw [dequeue_eq]] at hsends

variable [Room ρ] {cfg : SessionConfig} {e : Event ρ κ}

theorem Turn.sends (h : Turn cfg s e t) : Sends s.chan t.chan := by
  cases h with
  | connectionLost =>
    rw [connectionLost_eq]
    exact .quiet rfl fun _ ↦ rfl
  | @openEnds kept c reply broken =>
    rcases reply with room | _ | _
    · unfold RoomSession.afterOpen
      simp only []
      split
      · exact .quiet rfl id
      · split <;> exact .quiet rfl id
    · cases kept with
      | some k => exact .quiet rfl id
      | none => exact sends_noRoomAvailable broken
    · exact .quiet rfl id
  | @destroyKeptEnds k c reply broken =>
    cases reply with
    | cancelled => exact .quiet rfl id
    | returned u => exact sends_noRoomAvailable broken
    | raised => exact sends_noRoomAvailable broken
  | lateDestroyEnds =>
    rw [afterLateDestroy_eq]
    exact .quiet rfl id
  | @readEnds room c reply broken =>
    rcases reply with (_ | _) | _ | _
    · exact sends_finishReading false broken
    · cases broken with
      | true => exact sends_finishReading false true
      | false => exact .quiet rfl id
    · exact sends_finishReading false broken
    · exact sends_finishReading true broken
  | @pumpResumes ours unwinding c broken how =>
    have hsends := sends_goodbye (s := s.dequeue) ours unwinding c broken how
    rwa [show s.dequeue.chan = s.chan by rw [dequeue_eq]] at hsends
  | watchdogRuns =>
    unfold RoomSession.idleWatchdog
    split
    · exact .quiet rfl id
    · split
      · exact .quiet rfl id
      · simp only []
        split
        · exact sends_begun _ _ _ _
        · exact sends_waiting _
  | watchdogResumes => exact sends_resumed _ _ _ _
  | closerStarts =>
    unfold RoomSession.forceClose
    split
    · exact .quiet rfl id
    · simp only []
      split
      · exact sends_begun _ _ _ _
      · exact sends_waiting _
  | closerResumes => exact sends_resumed _ _ _ _
  | forceCloseTimeout =>
    rw [cancelCloser_eq]
    exact .quiet rfl id
  | teardownStarts =>
    rw [runTeardown_eq]
    exact .quiet rfl id
  | keepEnds =>
    rw [afterKeep_eq]
    exact .quiet rfl id
  | destroyEnds =>
    rw [afterDestroy_eq]
    exact .quiet rfl id
  | channelCloses => exact .quiet rfl fun _ ↦ rfl
  | sessionStarted | pumpCutOff | pumpStarts | watchdogCutOff | watchdogOff | forceClose | closerCutOff
  | teardownCutOff => exact .quiet rfl id

theorem reachable_once (h : (machine ρ κ cfg).Reachable s) :
    s.chan.statuses.length ≤ 1 ∧ (s.chan.closing = false → s.chan.statuses = []) := by
  refine h.invariant (I := fun s ↦ s.chan.statuses.length ≤ 1 ∧ (s.chan.closing = false → s.chan.statuses = []))
    ⟨Nat.zero_le 1, fun _ ↦ rfl⟩ fun s e t _ hs hst ↦ ?_
  obtain ⟨hlength, hunsent⟩ := hs
  cases (step_turn hst).sends with
  | quiet hstatuses hclosing =>
    rw [hstatuses]
    refine ⟨hlength, fun hopen ↦ hunsent ?_⟩
    by_contra hclosed
    rw [hclosing (by simpa using hclosed)] at hopen
    cases hopen
  | exits n hopen hstatuses hclosing =>
    rw [hstatuses, hunsent hopen]
    refine ⟨Nat.le_refl 1, fun hopen' ↦ ?_⟩
    rw [hclosing] at hopen'
    cases hopen'

end Channel

/-! ## The status of the room -/

section Status

variable {s t : RoomSession ρ κ}

variable [Room ρ] {cfg : SessionConfig} {e : Event ρ κ}

/-- `self._status` is what `destroy()` came back with. -/
theorem Turn.status (h : Turn cfg s e t) : t.status = s.status ∨
    (∃ n, e = .destroyEnds (.returned n) ∧ t.status = some n) ∨ e = .destroyEnds .raised ∧ t.status = some 1 := by
  cases h with
  | @destroyEnds td room c reply =>
    cases reply with
    | returned n => exact .inr (.inl ⟨n, rfl, rfl⟩)
    | raised => exact .inr (.inr ⟨rfl, rfl⟩)
    | cancelled => exact .inl rfl
  | connectionLost => exact .inl (by rw [connectionLost_eq])
  | openEnds => exact .inl (by rw [afterOpen_eq])
  | destroyKeptEnds => exact .inl (by rw [afterDestroyKept_eq])
  | lateDestroyEnds => exact .inl (by rw [afterLateDestroy_eq])
  | readEnds => exact .inl (by rw [afterRead_eq])
  | pumpResumes => exact .inl (by rw [goodbye_eq, dequeue_eq])
  | watchdogRuns => exact .inl (by rw [idleWatchdog_eq])
  | watchdogResumes | closerResumes => exact .inl (by rw [dequeue_eq]; rfl)
  | closerStarts => exact .inl (by rw [forceClose_eq])
  | forceCloseTimeout => exact .inl (by rw [cancelCloser_eq])
  | teardownStarts => exact .inl (by rw [runTeardown_eq])
  | keepEnds => exact .inl (by rw [afterKeep_eq])
  | sessionStarted | channelCloses | pumpCutOff | pumpStarts | watchdogCutOff | watchdogOff | forceClose
  | closerCutOff | teardownCutOff => exact .inl rfl

/-- `n` is what `trigger` has to report of the teardown it began in the run `es`. -/
def Told (es : List (Event ρ κ)) : Trigger → Int → Prop
  | .pump, n => .destroyEnds (.returned n) ∈ es ∨ n = 1 ∧ .destroyEnds .raised ∈ es
  | .connectionLost, _ => False
  | .watchdog, n => n = idleExitStatus
  | .forceClose, n => n = shutdownExitStatus

theorem run_status {es : List (Event ρ κ)} (hrun : (machine ρ κ cfg).run .initial es = some s) (n : Int) :
    s.status = some n → Told es .pump n := by
  refine Machine.run_induction (P := fun es (s : RoomSession ρ κ) ↦ s.status = some n → Told es .pump n) hrun ?_ ?_
  · intro hstatus
    cases hstatus
  · intro es s e t ih hst hstatus
    rcases (step_turn hst).status with hsame | ⟨m, rfl, hm⟩ | ⟨rfl, hone⟩
    · rw [hsame] at hstatus
      exact (ih hstatus).imp (List.mem_append_left _) fun h ↦ ⟨h.1, List.mem_append_left _ h.2⟩
    · cases hstatus.symm.trans hm
      exact .inl (List.mem_append_right _ List.mem_cons_self)
    · cases hstatus.symm.trans hone
      exact .inr ⟨rfl, List.mem_append_right _ List.mem_cons_self⟩

/-- At most one exit status is sent.  Where the creator of the teardown is always the first to report, and
the room was open when it came, the status is the one it has to report. -/
theorem exitStatus_of_creator {es : List (Event ρ κ)} (hrun : (machine ρ κ cfg).run .initial es = some s) :
    s.chan.statuses.length ≤ 1 ∧ ((machine ρ κ cfg).Follows (ReportsFirst cfg) .initial es →
      ∀ trigger room, firstReached s.marks = some (.reached trigger (some room)) →
        ∀ n ∈ s.chan.statuses, Told es trigger n) := by
  refine ⟨(reachable_once (.of_run hrun)).1, fun hok trigger room hfirst n hn ↦ ?_⟩
  have hreported : Reported s := reached_reported (Machine.ReachedBy.init.run hok hrun)
  have hcreator : creator s.marks = some trigger := by rw [creator, hfirst]
  have hannounced := hreported.faithful.announced trigger hcreator n hn
  cases trigger with
  | pump => exact run_status hrun n hannounced
  | connectionLost => cases hannounced
  | watchdog => exact (Option.some.inj hannounced).symm
  | forceClose => exact (Option.some.inj hannounced).symm

end Status

/-- The shell exits with 3 while the session has been idle for long, and the idle watchdog waits behind the
pump. -/
def exitedWhileIdle : List (Event BuiltRoom Nat) :=
  [.sessionStarted, .watchdogRuns false false, .pumpStarts none, .openEnds (.returned (.docker 0)) false,
    .readEnds (.returned false) false, .watchdogRuns true false, .teardownStarts, .destroyEnds (.returned 3),
    .pumpResumes false, .watchdogResumes false]

theorem exitedWhileIdle_tells_three : ∃ s : RoomSession BuiltRoom Nat,
    (machine BuiltRoom Nat ⟨none, 60⟩).run .initial exitedWhileIdle = some s ∧ s.chan.statuses = [3] ∧
      Told exitedWhileIdle .pump 3 := by
  have hrun : (machine BuiltRoom Nat ⟨none, 60⟩).run .initial exitedWhileIdle = some _ := rfl
  exact ⟨_, hrun, rfl,
    (exitStatus_of_creator hrun).2 (by decide) .pump (.docker 0) rfl 3 List.mem_cons_self⟩

/-- The teardown of a shell that exits with 3 ends, and before the pump is resumed the idle watchdog
arrives. -/
def idleBeforeGoodbye : List (Event BuiltRoom Nat) :=
  [.sessionStarted, .watchdogRuns false false, .pumpStarts none, .openEnds (.returned (.docker 0)) false,
    .readEnds (.returned false) false, .teardownStarts, .destroyEnds (.returned 3), .watchdogRuns true false]

theorem idleBeforeGoodbye_misreports : ¬ ∀ (cfg : SessionConfig) (es : List (Event BuiltRoom Nat))
    (s : RoomSession BuiltRoom Nat), (machine BuiltRoom Nat cfg).run .initial es = some s →
      s.chan.statuses.length ≤ 1 ∧ ∀ trigger room, firstReached s.marks = some (.reached trigger (some room)) →
        ∀ n ∈ s.chan.statuses, Told es trigger n := by
  intro hall
  have htold := (hall ⟨none, 60⟩ idleBeforeGoodbye _ rfl).2 .pump (.docker 0) rfl 124 List.mem_cons_self
  rcases htold with hm | ⟨hone, -⟩
  · exact absurd hm (by decide)
  · cases hone

end Keycard.Session
