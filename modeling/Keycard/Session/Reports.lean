import Keycard.Session.Checkout
import Keycard.Session.Turn

/-!
# Reports on the channel

The pump, the watchdog and `force_close` may all wait for one teardown, and each has a status of its own
to report when it wakes.  `Faithful` says that what has been sent is the report of the trigger that began
the teardown, `Queued` that this trigger is the next to be resumed.  Most of what a session does touches
neither (`Silent`).
-/

open Reasoning

namespace Keycard.Session

variable {ρ κ : Type}

/-! ## Who has begun the teardown -/

/-- The trigger that began the teardown, if it found a room. -/
def creator (marks : List (Mark ρ κ)) : Option Trigger :=
  match firstReached marks with
  | some (.reached trigger (some _)) => some trigger
  | _ => none

/-- What `trigger` reports once the teardown is over. -/
def announces (status : Option Int) : Trigger → Option Int
  | .pump => status
  | .connectionLost => none
  | .watchdog => some idleExitStatus
  | .forceClose => some shutdownExitStatus

/-! ## What holds of the channel -/

def joinsOurs (s : RoomSession ρ κ) : Bool :=
  match s.pump with
  | some (.suspended (.joining ours _) _) => ours
  | _ => false

def pumpEnded (s : RoomSession ρ κ) : Bool :=
  match s.pump with
  | some (.ended _) => true
  | _ => false

structure Faithful (s : RoomSession ρ κ) : Prop where
  unsent : s.chan.closing = false → s.chan.statuses = []
  /-- what is sent before any trigger is that there is no room -/
  early : s.teardown = none → s.chan.statuses ≠ [] → s.room = none ∧ pumpEnded s = true
  ours : joinsOurs s = true → ∃ room, firstReached s.marks = some (.reached .pump room)
  pump (room : Option ρ) : firstReached s.marks = some (.reached .pump room) →
    joinsOurs s = true ∨ pumpEnded s = true
  settled : creator s.marks ≠ none → s.chan.statuses ≠ [] → s.teardownOver = some (.returned ())
  told (trigger : Trigger) : creator s.marks = some trigger → s.teardownOver = some (.returned ()) →
    trigger = .connectionLost ∨ s.status.isSome = true
  announced (trigger : Trigger) : creator s.marks = some trigger → ∀ n ∈ s.chan.statuses,
    announces s.status trigger = some n

/-- `trigger` is next to be resumed, or nobody who waits reports. -/
def Awaits (td : Teardown ρ) (trigger : Trigger) : Prop :=
  match td.task with
  | .ended (.returned ()) => td.waiters.head? = some trigger ∨ ∀ w ∈ td.waiters, w = .pump
  | .ended _ => True
  | _ => td.waiters.head? = some trigger

def Queued (s : RoomSession ρ κ) : Prop :=
  ∀ trigger td, creator s.marks = some trigger → s.chan.closing = false → s.teardown = some td →
    Awaits td trigger

/-- From `s` to `t` nothing is reported, and no one begins to wait for the teardown or is resumed. -/
structure Silent (s t : RoomSession ρ κ) : Prop where
  statuses : t.chan.statuses = s.chan.statuses
  closing : s.chan.closing = true → t.chan.closing = true
  status : t.status = s.status
  first : firstReached t.marks = firstReached s.marks
  begun : t.teardown = none ↔ s.teardown = none
  task (td td' : Teardown ρ) : s.teardown = some td → t.teardown = some td' → td'.waiters = td.waiters ∧
    (td'.task = td.task ∨ td.task.isEnded = false ∧ td'.task ≠ .ended (.returned ()))
  ours : joinsOurs t = true → joinsOurs s = true
  left : joinsOurs s = true ∨ pumpEnded s = true → joinsOurs t = true ∨ pumpEnded t = true
  early : s.room = none → pumpEnded s = true → t.room = none ∧ pumpEnded t = true

section Silent

variable {s t : RoomSession ρ κ}

theorem creator_congr {marks marks' : List (Mark ρ κ)} (h : firstReached marks' = firstReached marks) :
    creator marks' = creator marks := by
  rw [creator, creator, h]

theorem Silent.settled (h : Silent s t) :
    t.teardownOver = some (.returned ()) ↔ s.teardownOver = some (.returned ()) := by
  unfold RoomSession.teardownOver
  cases hs : s.teardown with
  | none => rw [h.begun.mpr hs]
  | some td =>
    cases ht : t.teardown with
    | none =>
      rw [h.begun.mp ht] at hs
      cases hs
    | some td' =>
      obtain ⟨keep, task, waiters⟩ := td
      obtain ⟨keep', task', waiters'⟩ := td'
      rcases (h.task _ _ hs ht).2 with hsame | ⟨hlive, hno⟩
      · cases hsame
        cases task <;> exact Iff.rfl
      · cases task <;> cases task' <;> simp_all

theorem Faithful.silent (h : Faithful s) (hst : Silent s t) : Faithful t where
  unsent hopen := by
    rw [hst.statuses]
    refine h.unsent ?_
    by_contra hclosing
    rw [hst.closing (by simpa using hclosing)] at hopen
    cases hopen
  early hnone hsent := by
    rw [hst.statuses] at hsent
    obtain ⟨hroom, hended⟩ := h.early (hst.begun.mp hnone) hsent
    exact hst.early hroom hended
  ours hours := by
    rw [hst.first]
    exact h.ours (hst.ours hours)
  pump room hfirst := by
    rw [hst.first] at hfirst
    exact hst.left (h.pump room hfirst)
  settled hcreator hsent := by
    rw [creator_congr hst.first] at hcreator
    rw [hst.statuses] at hsent
    exact hst.settled.mpr (h.settled hcreator hsent)
  told trigger hcreator hover := by
    rw [creator_congr hst.first] at hcreator
    rw [hst.status]
    exact h.told trigger hcreator (hst.settled.mp hover)
  announced trigger hcreator := by
    rw [creator_congr hst.first] at hcreator
    rw [hst.statuses, hst.status]
    exact h.announced trigger hcreator

theorem Queued.silent (h : Queued s) (hst : Silent s t) : Queued t := by
  intro trigger td' hcreator hopen htd'
  have hopen' : s.chan.closing = false := by
    by_contra hclosing
    rw [hst.closing (by simpa using hclosing)] at hopen
    cases hopen
  cases htd : s.teardown with
  | none =>
    rw [hst.begun.mpr htd] at htd'
    cases htd'
  | some td =>
    have hawaits := h trigger td (creator_congr hst.first ▸ hcreator) hopen' htd
    obtain ⟨hwaiters, htask⟩ := hst.task td td' htd htd'
    obtain ⟨keep, task, waiters⟩ := td
    obtain ⟨keep', task', waiters'⟩ := td'
    cases hwaiters
    rcases htask with hsame | ⟨hlive, hno⟩
    · cases hsame
      exact hawaits
    -- the teardown was at work, so its creator was the first to wait
    · have hhead : waiters.head? = some trigger := by cases task <;> first | exact hawaits | cases hlive
      rcases task' with c | ⟨p, c⟩ | ⟨_ | _ | _⟩ <;> first | exact hhead | exact trivial | exact absurd rfl hno

structure Reported (s : RoomSession ρ κ) : Prop where
  faithful : Faithful s
  queued : Queued s

theorem Reported.silent (h : Reported s) (hst : Silent s t) : Reported t :=
  ⟨h.faithful.silent hst, h.queued.silent hst⟩

/-- The channel may close, and the log grow without a first trigger; the watchdog, `force_close` and the
registry are no part of this. -/
theorem Silent.keeps {chan : Channel} {marks : List (Mark ρ κ)} {watchdog : Option (LoopTask WatchdogPoint)}
    {closer : Option (LoopTask Unit)} {released : Bool} (hstatuses : chan.statuses = s.chan.statuses)
    (hclosing : s.chan.closing = true → chan.closing = true)
    (hmarks : firstReached marks = firstReached s.marks) :
    Silent s { s with chan, marks, watchdog, closer, released } where
  statuses := hstatuses
  closing := hclosing
  status := rfl
  first := hmarks
  begun := Iff.rfl
  task td td' htd htd' := by
    cases htd.symm.trans htd'
    exact ⟨rfl, .inl rfl⟩
  ours := id
  left := id
  early hroom hended := ⟨hroom, hended⟩

theorem Silent.others (s : RoomSession ρ κ) (watchdog : Option (LoopTask WatchdogPoint))
    (closer : Option (LoopTask Unit)) (released : Bool) : Silent s { s with watchdog, closer, released } :=
  .keeps rfl id rfl

theorem Silent.trans {u : RoomSession ρ κ} (h : Silent s t) (h' : Silent t u) : Silent s u where
  statuses := h'.statuses.trans h.statuses
  closing hc := h'.closing (h.closing hc)
  status := h'.status.trans h.status
  first := h'.first.trans h.first
  begun := h'.begun.trans h.begun
  task td td'' htd htd'' := by
    cases htd' : t.teardown with
    | none =>
      rw [h.begun.mp htd'] at htd
      cases htd
    | some td' =>
      obtain ⟨hwaiters, htask⟩ := h.task td td' htd htd'
      obtain ⟨hwaiters', htask'⟩ := h'.task td' td'' htd' htd''
      refine ⟨hwaiters'.trans hwaiters, ?_⟩
      rcases htask with hsame | ⟨hlive, hno⟩
      · rw [hsame] at htask'
        exact htask'
      · rcases htask' with hsame' | ⟨-, hno'⟩
        · exact .inr ⟨hlive, hsame' ▸ hno⟩
        · exact .inr ⟨hlive, hno'⟩
  ours ho := h.ours (h'.ours ho)
  left hl := h'.left (h.left hl)
  early hroom hended := by
    obtain ⟨hroom', hended'⟩ := h.early hroom hended
    exact h'.early hroom' hended'

end Silent

/-! ## Steps that are silent -/

section Steps

variable {s t : RoomSession ρ κ}

/-- The pump goes on, before it has come to the `finally` of its loop. -/
theorem Silent.pumps {pump : LoopTask (PumpPoint ρ κ)} {room : Option ρ} {marks : List (Mark ρ κ)}
    (hours : joinsOurs s = false) (hended : pumpEnded s = false)
    (hpump : joinsOurs { s with pump := some pump } = false) (hmarks : firstReached marks = firstReached s.marks) :
    Silent s { s with pump := some pump, room, marks } where
  statuses := rfl
  closing := id
  status := rfl
  first := hmarks
  begun := Iff.rfl
  task td td' htd htd' := by
    cases htd.symm.trans htd'
    exact ⟨rfl, .inl rfl⟩
  ours ho := by
    have ho : joinsOurs { s with pump := some pump } = true := ho
    rw [hpump] at ho
    cases ho
  left hl := by simp [hours, hended] at hl
  early _ he := by
    rw [hended] at he
    cases he

theorem Silent.endsPump (s : RoomSession ρ κ) (how : Outcome) : Silent s (s.endPump how) where
  statuses := rfl
  closing := id
  status := rfl
  first := rfl
  begun := Iff.rfl
  task td td' htd htd' := by
    cases htd.symm.trans htd'
    exact ⟨rfl, .inl rfl⟩
  ours ho := by cases ho
  left _ := .inr rfl
  early hroom _ := ⟨hroom, rfl⟩

/-- The teardown goes on, or ends in a cancellation. -/
theorem Silent.tears {td : Teardown ρ} {task : LoopTask (TeardownPoint ρ)} {marks : List (Mark ρ κ)}
    {room : Option ρ} {released : Bool} (htd : s.teardown = some td) (hlive : td.task.isEnded = false)
    (hno : task ≠ .ended (.returned ())) (hroom : s.room = none → room = none)
    (hmarks : firstReached marks = firstReached s.marks) :
    Silent s { s with teardown := some { td with task }, room, released, marks } where
  statuses := rfl
  closing := id
  status := rfl
  first := hmarks
  begun := by simp [htd]
  task td' td'' htd' htd'' := by
    cases htd.symm.trans htd'
    cases htd''
    exact ⟨rfl, .inr ⟨hlive, hno⟩⟩
  ours := id
  left := id
  early hr he := ⟨hroom hr, he⟩

theorem Silent.cancelsTask {π : Type} (s : RoomSession ρ κ) (joins : π → Bool)
    (own : Option π → List (Mark ρ κ)) (task : LoopTask π)
    (hown : ∀ p, ∀ m ∈ own p, m.isReached = false) : Silent s (s.cancelTask joins own task).2 := by
  by_cases hf : Forwards s joins task
  · obtain ⟨hw, td, htd, hend⟩ := hf
    rw [cancelTask_of_waits htd hend hw]
    refine .tears htd hend ?_ id (firstReached_append _ (by simp [Mark.isReached]))
    intro hc
    have hended := LoopTask.isEnded_cancel td.task
    rw [hc, hend] at hended
    cases hended
  · rw [cancelTask_of_alone hf]
    exact .keeps rfl id (firstReached_append _ (hown _))

theorem isReached_cancelMarks (p : Option (PumpPoint ρ κ)) : ∀ m ∈ cancelMarks p, m.isReached = false := by
  rintro m hm
  cases p with
  | none => cases hm
  | some p =>
    rw [List.mem_singleton.mp hm]
    rfl

/-- A cancelled pump stays where it is, or hands the request on. -/
theorem Silent.cancelsPump (s : RoomSession ρ κ) : Silent s s.cancelPump := by
  unfold RoomSession.cancelPump
  split
  · exact .others s s.watchdog s.closer s.released
  · rename_i pump hp
    by_cases hf : Forwards s PumpPoint.joins pump
    · have htask := Silent.cancelsTask s PumpPoint.joins cancelMarks pump isReached_cancelMarks
      obtain ⟨hw, td, htd, hend⟩ := hf
      rw [cancelTask_of_waits htd hend hw] at htask ⊢
      have hsame : { (s.setTeardown td td.task.cancel).note (.teardownCancelled td.task.point?) with
          pump := some pump } =
          (s.setTeardown td td.task.cancel).note (.teardownCancelled td.task.point?) := by
        rw [← hp]
        rfl
      simp only [hsame]
      exact htask
    · rw [cancelTask_of_alone hf]
      have hours : joinsOurs { s with pump := some pump.cancel } = joinsOurs s := by
        rw [joinsOurs, joinsOurs, hp]
        rcases pump with c | ⟨⟨⟩, c⟩ | how <;> rfl
      have hended : pumpEnded { s with pump := some pump.cancel } = pumpEnded s := by
        rw [pumpEnded, pumpEnded, hp]
        rcases pump with c | ⟨⟨⟩, c⟩ | how <;> rfl
      exact
        { statuses := rfl, closing := id, status := rfl
          first := firstReached_append _ (isReached_cancelMarks _)
          begun := Iff.rfl
          task := fun td td' htd htd' ↦ by cases htd.symm.trans htd'; exact ⟨rfl, .inl rfl⟩
          ours := fun ho ↦ hours ▸ ho
          left := fun hl ↦ by
            rw [← hours, ← hended] at hl
            exact hl
          early := fun hroom he ↦ ⟨hroom, by
            rw [← hended] at he
            exact he⟩ }

theorem Silent.cancelsWatchdog (s : RoomSession ρ κ) : Silent s s.cancelWatchdog := by
  unfold RoomSession.cancelWatchdog
  split
  · exact .others s s.watchdog s.closer s.released
  · rename_i watchdog hw
    exact (Silent.cancelsTask s WatchdogPoint.joins (fun _ ↦ []) watchdog (by simp)).trans
      (.others _ _ _ _)

theorem Silent.cancelsCloser (s : RoomSession ρ κ) : Silent s s.cancelCloser := by
  unfold RoomSession.cancelCloser
  split
  · exact .others s s.watchdog s.closer s.released
  · rename_i closer hc
    exact (Silent.cancelsTask s (fun _ ↦ true) (fun _ ↦ []) closer (by simp)).trans (.others _ _ _ _)

/-! ## Steps that report, and those that begin to wait -/

theorem Queued.of_closing (hclosing : s.chan.closing = true) : Queued s := by
  intro trigger td _ hopen
  rw [hclosing] at hopen
  cases hopen

theorem closing_exit (chan : Channel) (n : Int) : (chan.exit n).closing = true := by
  unfold Channel.exit
  split
  · assumption
  · rfl

/-- `chan.exit(n)`: nothing is sent on a channel that is closing. -/
theorem Faithful.exits (h : Faithful s) {n : Int}
    (hearly : s.teardown = none → s.room = none ∧ pumpEnded s = true)
    (hright : ∀ trigger, creator s.marks = some trigger →
      s.teardownOver = some (.returned ()) ∧ announces s.status trigger = some n) :
    Faithful { s with chan := s.chan.exit n } := by
  cases hclosing : s.chan.closing with
  | true =>
    have hsame : s.chan.exit n = s.chan := by simp [Channel.exit, hclosing]
    rw [hsame]
    exact h
  | false =>
    have hsent : (s.chan.exit n).statuses = [n] := by simp [Channel.exit, hclosing, h.unsent hclosing]
    exact
      { unsent := fun hopen ↦ by rw [closing_exit] at hopen; cases hopen
        early := fun hnone _ ↦ hearly hnone
        ours := h.ours
        pump := h.pump
        settled := fun hcreator _ ↦ by
          obtain ⟨trigger, htrigger⟩ := Option.ne_none_iff_exists'.mp hcreator
          exact (hright trigger htrigger).1
        told := h.told
        announced := fun trigger htrigger m hm ↦ by
          rw [hsent] at hm
          rw [List.mem_singleton.mp hm]
          exact (hright trigger htrigger).2 }

theorem firstReached_begun (marks : List (Mark ρ κ)) (hfirst : firstReached marks = none) (trigger : Trigger)
    (room : Option ρ) : firstReached (marks ++ [Mark.reached trigger room]) = some (.reached trigger room) := by
  have hnone : marks.find? Mark.isReached = none := hfirst
  rw [firstReached, List.find?_append, hnone]
  rfl

/-- `trigger` begins the teardown. -/
theorem Faithful.begins (h : Faithful s) (hfirst : firstReached s.marks = none) (hnone : s.teardown = none)
    (trigger : Trigger) (allowKeep : Bool) (waiters : List Trigger)
    {pump : Option (LoopTask (PumpPoint ρ κ))} (hpump : joinsOurs { s with pump } = (trigger == .pump)) :
    Faithful { s with
      teardown := some { allowKeep, task := .created false, waiters }
      marks := s.marks ++ [Mark.reached trigger s.room]
      pump } := by
  have hunsent : creator (s.marks ++ [Mark.reached trigger s.room]) ≠ none → s.chan.statuses = [] := by
    intro hcreator
    by_contra hsent
    rw [creator, firstReached_begun _ hfirst, (h.early hnone hsent).1] at hcreator
    exact hcreator rfl
  exact
    { unsent := h.unsent
      early := fun hno ↦ by cases hno
      ours := fun hours ↦ by
        have hours : joinsOurs { s with pump } = true := hours
        rw [hpump] at hours
        rw [firstReached_begun _ hfirst, eq_of_beq hours]
        exact ⟨_, rfl⟩
      pump := fun room hreached ↦ by
        rw [firstReached_begun _ hfirst] at hreached
        cases hreached
        exact .inl hpump
      settled := fun hcreator hsent ↦ absurd (hunsent hcreator) hsent
      told := fun _ _ hover ↦ by cases hover
      announced := fun trigger' htrigger n hn ↦ by
        have hsent : s.chan.statuses = [] := hunsent (by rw [htrigger]; exact Option.some_ne_none _)
        have hn : n ∈ s.chan.statuses := hn
        rw [hsent] at hn
        cases hn }

theorem Queued.begins (hfirst : firstReached s.marks = none) (trigger : Trigger) (allowKeep : Bool)
    {waiters : List Trigger} (hhead : waiters.head? = some trigger) {t : RoomSession ρ κ}
    (htd : t.teardown = some { allowKeep, task := .created false, waiters })
    (hmarks : t.marks = s.marks ++ [Mark.reached trigger s.room]) : Queued t := by
  intro trigger' td hcreator _ htd'
  cases htd.symm.trans htd'
  rw [creator, hmarks, firstReached_begun _ hfirst] at hcreator
  split at hcreator
  · rename_i heq
    cases hcreator
    have hsame : trigger = trigger' := by
      injection heq with heq
      injection heq
    rw [← hsame]
    exact hhead
  · cases hcreator

/-- A later trigger changes nothing about who began it. -/
theorem Silent.notes (htouched : (firstReached s.marks).isSome = true) (m : Mark ρ κ) :
    Silent s (s.note m) :=
  .keeps rfl id (firstReached_append_of_isSome _ htouched)

theorem teardownOver_congr {td : Teardown ρ} (htd : s.teardown = some td) {t : RoomSession ρ κ}
    {waiters : List Trigger} (ht : t.teardown = some { td with waiters }) : t.teardownOver = s.teardownOver := by
  obtain ⟨keep, task, waiters'⟩ := td
  unfold RoomSession.teardownOver
  rw [htd, ht]
  cases task <;> rfl

theorem goodbye_cases (s : RoomSession ρ κ) (ours unwinding c broken : Bool) (how : Outcome) :
    (∃ out, s.goodbye ours unwinding c broken how = s.endPump out ∧
      (ours = true → how = .returned () → s.chan.closing = false → s.status.isSome = true →
        (c || broken) = true)) ∨
    ∃ n out, ours = true ∧ how = .returned () ∧ s.status = some n ∧
      s.goodbye ours unwinding c broken how = ({ s with chan := s.chan.exit n } : RoomSession ρ κ).endPump out := by
  unfold RoomSession.goodbye
  cases c with
  | true => exact .inl ⟨_, rfl, fun _ _ _ _ ↦ rfl⟩
  | false =>
    cases how with
    | cancelled => exact .inl ⟨_, rfl, fun _ hhow ↦ by cases hhow⟩
    | raised => exact .inl ⟨_, rfl, fun _ hhow ↦ by cases hhow⟩
    | returned u =>
      cases hstatus : s.status with
      | none => exact .inl ⟨_, rfl, fun _ _ _ hsome ↦ by cases hsome⟩
      | some n =>
        rw [if_neg Bool.false_ne_true]
        dsimp only
        split
        · rename_i hif
          obtain ⟨hopen, -⟩ := Bool.and_eq_true_iff.mp hif
          exact .inr ⟨n, _, (Bool.and_eq_true_iff.mp hopen).1, rfl, rfl, rfl⟩
        · rename_i hif
          refine .inl ⟨_, rfl, fun hours _ hopen _ ↦ ?_⟩
          simpa [hours, hopen] using hif

/-- Who waits does not decide what has been reported. -/
theorem Faithful.requeues (h : Faithful s) {td : Teardown ρ} (htd : s.teardown = some td)
    (waiters : List Trigger) : Faithful { s with teardown := some { td with waiters } } where
  unsent := h.unsent
  early hnone := by cases hnone
  ours := h.ours
  pump := h.pump
  settled hcreator hsent := (teardownOver_congr htd rfl).trans (h.settled hcreator hsent)
  told trigger hcreator hover := h.told trigger hcreator ((teardownOver_congr htd rfl).symm.trans hover)
  announced := h.announced

theorem Faithful.enqueues (h : Faithful s) (who : Trigger) : Faithful (s.enqueue who) := by
  unfold RoomSession.enqueue
  split
  · exact h
  · exact h.requeues ‹_› _

theorem Faithful.dequeues (h : Faithful s) : Faithful s.dequeue := by
  unfold RoomSession.dequeue
  split
  · exact h
  · exact h.requeues ‹_› _

theorem dequeue_over (s : RoomSession ρ κ) : s.dequeue.teardownOver = s.teardownOver := by
  unfold RoomSession.dequeue
  split
  · rfl
  · exact teardownOver_congr ‹_› rfl

theorem over_of_wakes {who : Trigger} {how : Outcome} (h : wakes s who = some how) :
    s.teardownOver = some how := by
  unfold wakes at h
  split at h
  · rename_i keep how' w waiters htd
    split at h
    · cases h
      rw [RoomSession.teardownOver, htd]
    · cases h
  · cases h

theorem Awaits.head {td : Teardown ρ} {trigger : Trigger} (h : Awaits td trigger)
    (hlive : td.task.isEnded = false) : td.waiters.head? = some trigger := by
  obtain ⟨keep, task, waiters⟩ := td
  cases task with
  | created c => exact h
  | suspended p c => exact h
  | ended how => cases hlive

theorem Awaits.of_head {td : Teardown ρ} {trigger : Trigger} (h : td.waiters.head? = some trigger) :
    Awaits td trigger := by
  obtain ⟨keep, task, waiters⟩ := td
  rcases task with c | ⟨p, c⟩ | ⟨_ | _ | _⟩
  · exact h
  · exact h
  · exact .inl h
  · trivial
  · trivial

theorem Queued.enqueues (h : Queued s) (hlive : ∀ td, s.teardown = some td → td.task.isEnded = false)
    (who : Trigger) : Queued (s.enqueue who) := by
  unfold RoomSession.enqueue
  split
  · exact h
  · rename_i td htd
    intro trigger td' hcreator hopen htd'
    cases htd'
    have hhead := (h trigger td hcreator hopen htd).head (hlive td htd)
    exact .of_head (by simp [List.head?_append, hhead])

/-- `who` has been resumed and the channel is still open. -/
theorem Queued.dequeues (h : Queued s) {who : Trigger} {how : Outcome} (hwakes : wakes s who = some how)
    (hlast : s.chan.closing = false → how = .returned () → creator s.marks = some who →
      ∀ td, s.teardown = some td → ∀ w ∈ td.waiters.tail, w = .pump) : Queued s.dequeue := by
  unfold wakes at hwakes
  split at hwakes
  · rename_i keep how' w waiters htd
    split at hwakes
    · rename_i hwho
      cases hwakes
      subst hwho
      have hsame : s.dequeue = { s with teardown := some ⟨keep, .ended how, waiters⟩ } := by
        rw [RoomSession.dequeue, htd]
        rfl
      rw [hsame]
      intro trigger td' hcreator hopen htd'
      cases htd'
      rcases how with ⟨_⟩ | _ | _
      · rcases h trigger _ hcreator hopen htd with hhead | hpumps
        · have hwho : w = trigger := Option.some.inj hhead
          exact .inr (hlast hopen rfl (hwho ▸ hcreator) _ htd)
        · exact .inr fun w' hw' ↦ hpumps w' (List.mem_cons_of_mem _ hw')
      · trivial
      · trivial
    · cases hwakes
  · cases hwakes

/-- The teardown has returned. -/
theorem Faithful.overs (h : Faithful s) {td : Teardown ρ} (htd : s.teardown = some td)
    (hlive : td.task.isEnded = false) {status : Option Int} {released : Bool} {marks : List (Mark ρ κ)}
    (hmarks : firstReached marks = firstReached s.marks)
    (htold : ∀ trigger, creator s.marks = some trigger → trigger = .connectionLost ∨ status.isSome = true) :
    Faithful { s with
      teardown := some { td with task := .ended (.returned ()) }, status, released, marks } := by
  have hunsent : creator s.marks ≠ none → s.chan.statuses = [] := by
    intro hcreator
    by_contra hsent
    have hover := h.settled hcreator hsent
    obtain ⟨keep, task, waiters⟩ := td
    simp only [RoomSession.teardownOver, htd] at hover
    cases task <;> cases hover
    cases hlive
  exact
    { unsent := h.unsent
      early := fun hnone ↦ by cases hnone
      ours := fun hours ↦ by rw [hmarks]; exact h.ours hours
      pump := fun room hfirst ↦ by
        rw [hmarks] at hfirst
        exact h.pump room hfirst
      settled := fun _ _ ↦ rfl
      told := fun trigger hcreator _ ↦ htold trigger (creator_congr hmarks ▸ hcreator)
      announced := fun trigger hcreator n hn ↦ by
        rw [creator_congr hmarks] at hcreator
        have hn : n ∈ s.chan.statuses := hn
        rw [hunsent (by rw [hcreator]; exact Option.some_ne_none _)] at hn
        cases hn }

theorem Queued.overs (h : Queued s) {td : Teardown ρ} (htd : s.teardown = some td)
    (hlive : td.task.isEnded = false) {status : Option Int} {released : Bool} {marks : List (Mark ρ κ)}
    (hmarks : firstReached marks = firstReached s.marks) :
    Queued { s with
      teardown := some { td with task := .ended (.returned ()) }, status, released, marks } := by
  intro trigger td' hcreator hopen htd'
  cases htd'
  rw [creator_congr hmarks] at hcreator
  exact .of_head ((h trigger td hcreator hopen htd).head hlive)

/-- The goodbye is that of the teardown's creator. -/
theorem Faithful.goodbye (h : Faithful s) {ours : Bool}
    (hours : ours = true → ∃ room, firstReached s.marks = some (.reached .pump room)) {how : Outcome}
    (hover : s.teardownOver = some how) (unwinding c broken : Bool) :
    Faithful (s.goodbye ours unwinding c broken how) := by
  rcases goodbye_cases s ours unwinding c broken how with ⟨out, heq, -⟩ | ⟨n, out, hour, hhow, hstatus, heq⟩
  · rw [heq]
    exact h.silent (.endsPump s out)
  · rw [heq]
    refine (h.exits (n := n) (fun hnone ↦ ?_) fun trigger htrigger ↦ ⟨hhow ▸ hover, ?_⟩).silent (.endsPump _ out)
    · rw [RoomSession.teardownOver, hnone] at hover
      cases hover
    · obtain ⟨room, hfirst⟩ := hours hour
      rw [creator, hfirst] at htrigger
      cases room <;> cases htrigger
      exact hstatus

theorem reportAndClose_cases (s : RoomSession ρ κ) (n : Int) (c broken : Bool) (how : Outcome) :
    (∃ out, s.reportAndClose n c broken how = (s.chan, out) ∧
      (how = .returned () → s.chan.closing = false → (c || broken) = true)) ∨
    ∃ out, how = .returned () ∧ s.chan.closing = false ∧ c = false ∧ broken = false ∧
      s.reportAndClose n c broken how = ((s.chan.exit n).close, out) := by
  unfold RoomSession.reportAndClose
  cases c with
  | true => exact .inl ⟨_, rfl, fun _ _ ↦ rfl⟩
  | false =>
    cases how with
    | cancelled => exact .inl ⟨_, rfl, fun hhow ↦ by cases hhow⟩
    | raised => exact .inl ⟨_, rfl, fun hhow ↦ by cases hhow⟩
    | returned u =>
      rw [if_neg Bool.false_ne_true]
      dsimp only
      split
      · rename_i hclosing
        refine .inl ⟨_, rfl, fun _ hopen ↦ ?_⟩
        rw [hclosing] at hopen
        cases hopen
      · rename_i hclosing
        cases broken with
        | true => exact .inl ⟨_, rfl, fun _ _ ↦ rfl⟩
        | false => exact .inr ⟨_, rfl, by simpa using hclosing, rfl, rfl, rfl⟩

theorem Silent.closes (s : RoomSession ρ κ) : Silent s { s with chan := s.chan.close } :=
  .keeps rfl (fun _ ↦ rfl) rfl

/-- `chan.exit(n); chan.close()`, for a trigger that may. -/
theorem Reported.exits (h : Faithful s) {n : Int} (hover : s.teardownOver = some (.returned ()))
    (hright : ∀ trigger, creator s.marks = some trigger → announces s.status trigger = some n) :
    Reported { s with chan := (s.chan.exit n).close } := by
  have hexits : Faithful { s with chan := s.chan.exit n } := by
    refine h.exits (fun hnone ↦ ?_) fun trigger htrigger ↦ ⟨hover, hright trigger htrigger⟩
    rw [RoomSession.teardownOver, hnone] at hover
    cases hover
  exact ⟨hexits.silent (.closes _), .of_closing rfl⟩

/-- Who is resumed on an open channel is the creator. -/
theorem creator_of_wakes (h : Queued s) {who : Trigger} (hwakes : wakes s who = some (.returned ()))
    (hopen : s.chan.closing = false) (hwho : who ≠ .pump) {trigger : Trigger}
    (hcreator : creator s.marks = some trigger) : trigger = who := by
  unfold wakes at hwakes
  split at hwakes
  · rename_i keep how w waiters htd
    split at hwakes
    · rename_i hw
      cases hwakes
      rcases h trigger _ hcreator hopen htd with hhead | hpumps
      · exact (Option.some.inj hhead).symm.trans hw
      · exact absurd (hw.symm.trans (hpumps w List.mem_cons_self)) hwho
    · cases hwakes
  · cases hwakes

end Steps

end Keycard.Session
