import Keycard.GuestAgent.Readers

/-!
# A shell that exits while a connection attaches

`serve` asks `is_running` before it attaches, and the exit task clears the session once, when it has
taken the readers.  Whoever is past the question by then installs its writers and registers its readers
in a session that nobody will clear any more.
-/

open Reasoning

namespace Keycard.GuestAgent

open Session

namespace ExitTask

/-- `running` has been set to `false`. -/
def hasStopped : ExitTask → Bool
  | .waiting => false
  | .reaped _ => false
  | _ => true

/-- The exit task is past `take_readers`. -/
def hasTaken : ExitTask → Bool
  | .detaching .taking => false
  | .detaching _ => true
  | .done => true
  | _ => false

/-- It is past the clearing of `data_out`. -/
def hasClearedData : ExitTask → Bool
  | .detaching .clearingCtrl => true
  | .done => true
  | _ => false

end ExitTask

namespace Session

/-- The agent holds the write half of `x`, in a slot or in a call of `attach`. -/
def HoldsWriter (s : Session) (x : Stream) : Prop :=
  match x.channel with
  | .data => s.dataOut = some x.conn ∨ (∃ d, s.holder = .attaching x.conn (.detaching d)) ∨
      s.holder = .attaching x.conn .installingData
  | .ctrl => s.ctrlOut = some x.conn ∨ (∃ d, s.holder = .attaching x.conn (.detaching d)) ∨
      s.holder = .attaching x.conn .installingData ∨ s.holder = .attaching x.conn .installingCtrl

/-- The agent holds the read half of `x`, in a reader task or in a call of `attach`. -/
def HoldsReader (s : Session) (x : Stream) : Prop :=
  s.tasks.Live x ∨ s.Unspawned x.conn

/-- Nothing is left of any connection the session was handed, and its host sees the end of the stream.
A reader that was aborted by `drop` may still be on its way out. -/
structure Closed (s : Session) : Prop where
  dataOut : s.dataOut = none
  ctrlOut : s.ctrlOut = none
  readers : s.readers = []
  writeHalves : ∀ x, ¬ s.HoldsWriter x
  readHalves : ∀ x, s.HoldsReader x → s.holder = .dropped ∧ s.tasks.Aborted x

/-- When the exit task takes the readers, nobody is between the `is_running` of `serve` and the end of
`attach`. -/
def TakesLast (s : Session) (e : Event) : Prop :=
  e = .exitRuns → s.exitTask = .detaching .taking → s.attaching = false

instance (s : Session) (e : Event) : Decidable (s.TakesLast e) :=
  inferInstanceAs (Decidable (_ → _ → _))

section

variable {window : Nat} {s t : Session} {e : Event}

/-! ## The exit task and the flag -/

def Flagged (s : Session) : Prop :=
  s.running = !s.exitTask.hasStopped

theorem detaches_frame {d : Detach} {next : Option Detach} (hd : Detaches s d t next) :
    t.running = s.running ∧ t.exitTask = s.exitTask ∧ t.holder = s.holder := by
  rw [detaches_eq hd]
  exact ⟨rfl, rfl, rfl⟩

theorem hasStopped_next (next : Option Detach) :
    (next.elim .done .detaching : ExitTask).hasStopped = true := by
  cases next <;> rfl

theorem Flagged.step (h : s.Flagged) (hst : Step window s e t) : t.Flagged := by
  have haside := hst.aside
  unfold Flagged at h ⊢
  cases hst with
  | shellExits hexit | exitAborts hexit | exitJoins hexit | exitSkips hexit | exitLocks hexit
  | exitWrites hexit | exitWriteFails hexit | exitShuts hexit =>
    simpa [hexit, ExitTask.hasStopped, deliver, setHost] using h
  | exitStops => rfl
  | exitDetaches hexit hd =>
    obtain ⟨hrunning, -, -⟩ := detaches_frame hd
    simp only [hrunning, hasStopped_next, h, hexit]
    rfl
  | attachDetaches hholder hd =>
    obtain ⟨hrunning, hexit, -⟩ := detaches_frame hd
    simpa [hrunning, hexit] using h
  | reattaches | replaces | installsData | installsCtrl | spawns | registers | drops => exact h
  | _ =>
    have ha := haside rfl
    rw [ha.running, ha.exitTask]
    exact h

theorem reachable_flagged (h : (machine window).Reachable s) : s.Flagged :=
  h.invariant rfl fun _ _ _ _ hi hst ↦ hi.step (step_step hst)

theorem hasStopped_of_hasTaken {x : ExitTask} (h : x.hasTaken = true) : x.hasStopped = true := by
  cases x with
  | detaching | done => rfl
  | _ => cases h

/-- Once the exit task has taken the readers, no connection is handed to the session any more. -/
theorem not_running_of_hasTaken (h : s.Flagged) (htaken : s.exitTask.hasTaken = true) : s.running = false := by
  rw [h, hasStopped_of_hasTaken htaken]
  rfl

/-! ## Nobody comes after the exit task -/

structure Cleared (s : Session) : Prop where
  idle : s.attaching = false
  readers : s.readers = []
  dataOut : s.exitTask.hasClearedData = true → s.dataOut = none
  ctrlOut : s.exitTask = .done → s.ctrlOut = none

def Retreated (s : Session) : Prop :=
  s.exitTask.hasTaken = true → s.Cleared

theorem Retreated.aside (h : s.Retreated) (ha : Aside s t) : t.Retreated := by
  intro htaken
  have hc := h (ha.exitTask ▸ htaken)
  refine ⟨(attaching_congr ha.holder).trans hc.idle, ha.readers.trans hc.readers, fun hcleared ↦ ?_, fun hdone ↦ ?_⟩
  · rcases ha.dataOut with hsame | hnone
    · exact hsame.trans (hc.dataOut (ha.exitTask ▸ hcleared))
    · exact hnone
  · exact ha.ctrlOut.trans (hc.ctrlOut (ha.exitTask ▸ hdone))

theorem Retreated.exitDetaches (h : s.Retreated) {d : Detach} {next : Option Detach}
    (hexit : s.exitTask = .detaching d) (hd : Detaches s d t next)
    (hok : d = .taking → s.attaching = false) :
    ({ t with exitTask := next.elim .done .detaching } : Session).Retreated := by
  intro _
  cases hd with
  | takes => exact ⟨hok rfl, rfl, fun hcleared ↦ (by cases hcleared), fun hdone ↦ (by cases hdone)⟩
  | joined | joins =>
    have hc := h (by rw [hexit]; rfl)
    exact ⟨hc.idle, hc.readers, fun hcleared ↦ (by cases hcleared), fun hdone ↦ (by cases hdone)⟩
  | clearsData =>
    have hc := h (by rw [hexit]; rfl)
    exact ⟨hc.idle, hc.readers, fun _ ↦ rfl, fun hdone ↦ (by cases hdone)⟩
  | clearsCtrl =>
    have hc := h (by rw [hexit]; rfl)
    exact ⟨hc.idle, hc.readers, fun _ ↦ hc.dataOut (by rw [hexit]; rfl), fun _ ↦ rfl⟩

theorem Retreated.step (h : s.Retreated) (hflagged : s.Flagged) (hok : s.TakesLast e)
    (hst : Step window s e t) : t.Retreated := by
  have haside := hst.aside
  -- whoever is in `attach` is there before the exit task takes the readers
  have hearly {k : Nat} {p : AttachPoint} (hholder : s.holder = .attaching k p) :
      ¬ s.exitTask.hasTaken = true := by
    intro htaken
    have hidle := (h htaken).idle
    simp [attaching, hholder] at hidle
  cases hst with
  | shellExits | exitStops | exitAborts | exitJoins | exitSkips | exitLocks | exitWrites | exitWriteFails
  | exitShuts => exact fun htaken ↦ (by cases htaken)
  | exitDetaches hexit hd =>
    refine h.exitDetaches hexit hd fun htaking ↦ hok rfl ?_
    rw [hexit, htaking]
  | reattaches hholder hrunning =>
    intro htaken
    cases hrunning.symm.trans (not_running_of_hasTaken hflagged htaken)
  | replaces =>
    intro htaken
    have hc := h htaken
    exact ⟨rfl, hc.readers, hc.dataOut, hc.ctrlOut⟩
  | attachDetaches hholder hd =>
    intro htaken
    obtain ⟨-, hexit, -⟩ := detaches_frame hd
    exact absurd (hexit ▸ htaken) (hearly hholder)
  | installsData hholder | installsCtrl hholder | spawns hholder | registers hholder =>
    exact fun htaken ↦ absurd htaken (hearly hholder)
  | drops =>
    intro htaken
    have hc := h htaken
    exact ⟨rfl, rfl, hc.dataOut, hc.ctrlOut⟩
  | _ => exact h.aside (haside rfl)

theorem reached_retreated (h : (machine window).ReachedBy TakesLast s) : s.Retreated :=
  h.invariant (fun htaken ↦ by cases htaken) fun _ _ _ hs hi hok hst ↦
    hi.step (reachable_flagged hs.reachable) hok (step_step hst)

/-- What the accounts leave when the exit task is done. -/
theorem Cleared.closed (h : s.Cleared) (haccounted : s.Accounted) (hdone : s.exitTask = .done) : s.Closed := by
  have hno (k : Nat) (p : AttachPoint) : s.holder ≠ .attaching k p := by
    intro hholder
    have hidle := h.idle
    simp [attaching, hholder] at hidle
  have hexit : s.exitJoins = [] := by simp only [exitJoins, hdone]
  have hattach : s.attachJoins = [] := by
    unfold attachJoins
    split
    · exact absurd ‹_› (hno _ _)
    · rfl
  have hdata := h.dataOut (by rw [hdone]; rfl)
  have hctrl := h.ctrlOut hdone
  refine ⟨hdata, hctrl, h.readers, fun x hx ↦ ?_, fun x hx ↦ ?_⟩
  · obtain ⟨k, ch⟩ := x
    cases ch with
    | data =>
      rcases hx with hx | ⟨d, hx⟩ | hx
      · rw [hdata] at hx
        cases hx
      · exact hno _ _ hx
      · exact hno _ _ hx
    | ctrl =>
      rcases hx with hx | ⟨d, hx⟩ | hx | hx
      · rw [hctrl] at hx
        cases hx
      · exact hno _ _ hx
      · exact hno _ _ hx
      · exact hno _ _ hx
  · rcases hx with hlive | ⟨p, hx, -⟩
    · rcases haccounted.live x hlive with hx | hx | hx
      · rw [mem_handles, h.readers, hexit, hattach] at hx
        simp at hx
      · exact absurd hx (hno _ _)
      · exact hx
    · exact absurd hx (hno _ _)

/-! ## Somebody comes after the exit task -/

/-- The exit task has taken the readers, and there are readers it did not take, or there will be. -/
def Late (s : Session) : Prop :=
  s.exitTask.hasTaken = true ∧ (s.attaching = true ∨ s.holder = .dropped ∨ s.readers ≠ [])

theorem late_of_not_takesLast (hst : Step window s e t) (hnot : ¬ s.TakesLast e) : t.Late := by
  obtain ⟨rfl, hexit, hattaching⟩ : e = .exitRuns ∧ s.exitTask = .detaching .taking ∧ ¬ s.attaching = false := by
    simpa [TakesLast] using hnot
  cases hst with
  | exitDetaches hexit' hd =>
    rw [hexit] at hexit'
    cases hexit'
    cases hd
    exact ⟨rfl, .inl (by simpa [attaching, takeReaders] using hattaching)⟩
  | exitStops hexit' | exitAborts hexit' | exitJoins hexit' | exitSkips hexit' | exitLocks hexit'
  | exitShuts hexit' => cases hexit.symm.trans hexit'

theorem Late.aside (h : s.Late) (ha : Aside s t) : t.Late := by
  rw [Late, ha.exitTask, attaching_congr ha.holder, ha.holder, ha.readers]
  exact h

theorem Late.step (h : s.Late) (hst : Step window s e t) : t.Late := by
  have haside := hst.aside
  obtain ⟨htaken, hlate⟩ := h
  cases hst with
  | shellExits hexit | exitStops hexit | exitAborts hexit | exitJoins hexit | exitSkips hexit
  | exitLocks hexit | exitWrites hexit | exitWriteFails hexit | exitShuts hexit =>
    rw [hexit] at htaken
    cases htaken
  | exitDetaches hexit hd =>
    rw [hexit] at htaken
    cases hd with
    | takes => cases htaken
    | joined | joins | clearsData | clearsCtrl => exact ⟨rfl, hlate⟩
  | reattaches => exact ⟨htaken, .inl rfl⟩
  | replaces hholder =>
    refine ⟨htaken, .inr (.inr ?_)⟩
    simpa [attaching, hholder] using hlate
  | attachDetaches hholder hd =>
    obtain ⟨-, hexit, -⟩ := detaches_frame hd
    exact ⟨hexit ▸ htaken, .inl rfl⟩
  | installsData | installsCtrl | spawns => exact ⟨htaken, .inl rfl⟩
  | registers => exact ⟨htaken, .inr (.inr (by simp))⟩
  | drops => exact ⟨htaken, .inr (.inl rfl)⟩
  | _ => exact Late.aside ⟨htaken, hlate⟩ (haside rfl)

/-- When the exit task is done and no call of `attach` is under way, nothing is left of any connection if
in every step of the run the exit task was the last to come; and only then, unless the session was dropped
with what was left. -/
theorem closed_iff_takesLast {es : List Event} (hrun : (machine window).run .start es = some s)
    (hdone : s.exitTask = .done) (hidle : s.attaching = false) :
    ((machine window).Follows TakesLast .start es → s.Closed) ∧
      (s.holder ≠ .dropped → s.Closed → (machine window).Follows TakesLast .start es) := by
  have hreach : (machine window).Reachable s := .of_run hrun
  constructor
  · intro hok
    have hretreated := reached_retreated (Machine.ReachedBy.init.run hok hrun)
    exact (hretreated (by rw [hdone]; rfl)).closed (reachable_accounted hreach) hdone
  · intro hdropped hclosed
    have hnot : ¬ s.Late := by
      rintro ⟨-, hattaching | hholder | hreaders⟩
      · rw [hidle] at hattaching
        cases hattaching
      · exact hdropped hholder
      · exact hreaders hclosed.readers
    refine (Machine.Reachable.init.follows_of_trap (fun _ _ _ _ hst hok ↦ ?_) (fun _ _ _ _ hst hlate ↦ ?_)
      hrun hnot).2
    · exact late_of_not_takesLast (step_step hst) hok
    · exact hlate.step (step_step hst)

end

/-- The shell exits while its only connection is attached. -/
def exits : List Event :=
  List.replicate 8 Event.attachRuns ++
    ([.shellExits 3, .exitRuns, .exitRuns, .pumpDropped, .exitRuns, .exitRuns, .exitWrites 7, .exitRuns, .exitRuns,
      .readerDropped ⟨0, .data⟩, .exitRuns, .readerDropped ⟨0, .ctrl⟩, .exitRuns, .exitRuns, .exitRuns, .exitRuns,
      .serves] : List Event)

theorem exits_closed : ∃ s : Session, (machine 4096).run .start exits = some s ∧ s.Closed := by
  have hrun : (machine 4096).run .start exits = some _ := rfl
  exact ⟨_, hrun, (closed_iff_takesLast hrun rfl rfl).1 (by decide)⟩

/-- The host has stopped reading when it comes back with a second connection; `attach` waits for the pump,
which the exit of the shell sets free. -/
def exitsUnderAttach : List Event :=
  List.replicate 8 Event.attachRuns ++
    ([.pumpReads (some [1, 2, 3]), .pumpLocks, .pumpWrites 2, .serves, .attachRuns, .readerDropped ⟨0, .data⟩,
      .attachRuns, .readerDropped ⟨0, .ctrl⟩, .attachRuns, .attachRuns, .shellExits 3, .exitRuns, .exitRuns,
      .pumpDropped, .attachRuns, .attachRuns, .exitRuns, .exitRuns, .exitRuns, .exitRuns, .exitRuns, .exitRuns,
      .attachRuns, .attachRuns, .attachRuns, .attachRuns] : List Event)

theorem exitsUnderAttach_left_open : ¬ ∀ (window : Nat) (es : List Event) (s : Session),
    (machine window).run .start es = some s → s.exitTask = .done → s.attaching = false → s.Closed := by
  intro hall
  have hclosed := hall 2 exitsUnderAttach _ rfl rfl rfl
  cases hclosed.dataOut

end Session

end Keycard.GuestAgent
