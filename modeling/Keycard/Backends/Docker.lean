import Keycard.Reasoning.Executor
import Keycard.Reasoning.Machine

/-!
# `DockerBackend.open`

`open` hands one job to the executor: start the container, then resize and attach to it.  The thread
and the coroutine that awaits it end separately.
-/

open Reasoning

namespace Keycard.Docker

structure DockerRoom where
  container : Nat
  raw : Nat
deriving DecidableEq, Repr

/-- Where `_attach` is. -/
inductive AttachPoint where
  | resizing
  | attaching
  | unblocking (raw : Nat)
deriving DecidableEq, Repr

/-- Where the thread of `_open` is. -/
inductive OpenPoint where
  | starting
  | attached (container : Nat) (point : AttachPoint)
deriving DecidableEq, Repr

inductive Caller where
  | preparing
  | waiting
  | ended (how : Reply DockerRoom)
deriving DecidableEq, Repr

structure OpenCall where
  caller : Caller
  job : Option (Job OpenPoint (Option DockerRoom))
  /-- The containers the call has started. -/
  containers : List Nat
deriving DecidableEq, Repr

inductive OpenEvent where
  /-- `_room_overrides` and the rest before the job is submitted. -/
  | prepared (ok : Bool)
  | threadStarts
  /-- `containers.run` raises, or returns a started container. -/
  | runEnds (container : Option Nat)
  /-- `caught` is a `DockerException`. -/
  | resizeEnds (reply : Attempt Unit)
  | attachSocketEnds (raw : Option Nat)
  | setblockingEnds (ok : Bool)
  | resumes
  /-- The caller is cancelled where it waits for the job. -/
  | cancelled
  | jobDropped
deriving DecidableEq, Repr

namespace OpenCall

def initial : OpenCall where
  caller := .preparing
  job := none
  containers := []

/-- How one step of `_attach` leaves the job. -/
def attachStep (container : Nat) : AttachPoint → OpenEvent →
    Option (Job OpenPoint (Option DockerRoom))
  | .resizing, .resizeEnds (.returned ()) => some (.running (.attached container .attaching))
  | .resizing, .resizeEnds .caught => some (.running (.attached container .attaching))
  | .resizing, .resizeEnds .raised => some (.finished none)
  | .attaching, .attachSocketEnds (some raw) => some (.running (.attached container (.unblocking raw)))
  | .attaching, .attachSocketEnds none => some (.finished none)
  | .unblocking raw, .setblockingEnds true => some (.finished (some ⟨container, raw⟩))
  | .unblocking _, .setblockingEnds false => some (.finished none)
  | _, _ => none

def threadStep (s : OpenCall) (p : OpenPoint) (e : OpenEvent) : Option OpenCall :=
  match p, e with
  | .starting, .runEnds none => some { s with job := some (.finished none) }
  | .starting, .runEnds (some container) =>
    some { s with
      job := some (.running (.attached container .resizing))
      containers := container :: s.containers }
  | .starting, _ => none
  | .attached container p, e => (attachStep container p e).map fun job ↦ { s with job := some job }

def step (s : OpenCall) (e : OpenEvent) : Option OpenCall :=
  match e with
  | .prepared ok =>
    if s.caller = .preparing then
      some (if ok then { s with caller := .waiting, job := some .queued }
        else { s with caller := .ended .raised })
    else none
  | .resumes =>
    match s.caller, s.job with
    | .waiting, some (.finished (some room)) => some { s with caller := .ended (.returned room) }
    | .waiting, some (.finished none) => some { s with caller := .ended .raised }
    | _, _ => none
  | .cancelled => if s.caller = .waiting then some { s with caller := .ended .cancelled } else none
  -- the cancellation takes back a job that has not started
  | .jobDropped =>
    if s.caller = .ended .cancelled ∧ s.job = some .queued then some { s with job := some .dropped }
    else none
  | .threadStarts =>
    if s.job = some .queued then some { s with job := some (.running .starting) } else none
  | e =>
    match s.job with
    | some (.running p) => s.threadStep p e
    | _ => none

/-- `open` has returned or raised, and its executor work has finished. -/
def Over (s : OpenCall) : Prop :=
  (∃ how, s.caller = .ended how) ∧ ∀ job, s.job = some job → job.isOver = true

/-- What the call has started is what it returned. -/
def AllOrNothing (s : OpenCall) : Prop :=
  ∀ how, s.caller = .ended how →
    s.containers = match how with
      | .returned room => [room.container]
      | _ => []

end OpenCall

def machine : Machine OpenCall OpenEvent where
  init := .initial
  step := OpenCall.step

/-- The events with which `_attach` raises. -/
def OpenEvent.failsToAttach : OpenEvent → Bool
  | .resizeEnds .raised => true
  | .attachSocketEnds none => true
  | .setblockingEnds false => true
  | _ => false

/-- Docker starts no container, or the caller is not cancelled and attaching works. -/
def Undisturbed (es : List OpenEvent) : Prop :=
  (∀ container, .runEnds (some container) ∉ es) ∨
    (.cancelled ∉ es ∧ ∀ e ∈ es, e.failsToAttach = false)

/-- What the events so far say about the state, and the state about them. -/
@[grind cases]
structure Traced (es : List OpenEvent) (s : OpenCall) : Prop where
  started : ∀ container, .runEnds (some container) ∈ es ↔ container ∈ s.containers
  cut : .cancelled ∈ es ↔ s.caller = .ended .cancelled
  failed : (∃ e ∈ es, e.failsToAttach = true) ↔ s.job = some (.finished none) ∧ s.containers ≠ []
  preparing : s.caller = .preparing → s.job = none
  raised : s.caller = .ended .raised → s.job = none ∨ s.job = some (.finished none)
  returned : ∀ room, s.caller = .ended (.returned room) → s.job = some (.finished (some room))
  idle : s.job = none ∨ s.job = some .queued ∨ s.job = some .dropped ∨
    s.job = some (.running .starting) → s.containers = []
  attached : ∀ container p, s.job = some (.running (.attached container p)) →
    s.containers = [container]
  finished : ∀ room, s.job = some (.finished (some room)) → s.containers = [room.container]

/-- What one step of `_attach` can do. -/
inductive AttachStep (container : Nat) (e : OpenEvent) : Job OpenPoint (Option DockerRoom) → Prop
  | goesOn (p : AttachPoint) : e.failsToAttach = false →
      AttachStep container e (.running (.attached container p))
  | attached (raw : Nat) : e.failsToAttach = false →
      AttachStep container e (.finished (some ⟨container, raw⟩))
  | fails : e.failsToAttach = true → AttachStep container e (.finished none)

theorem attachStep_inv {container : Nat} {p : AttachPoint} {e : OpenEvent}
    {job : Job OpenPoint (Option DockerRoom)} (h : OpenCall.attachStep container p e = some job) :
    AttachStep container e job := by
  unfold OpenCall.attachStep at h
  split at h <;> cases h
  · exact .goesOn _ rfl
  · exact .goesOn _ rfl
  · exact .fails rfl
  · exact .goesOn _ rfl
  · exact .fails rfl
  · exact .attached _ rfl
  · exact .fails rfl

section Steps

variable {es : List OpenEvent} {s t : OpenCall} {e : OpenEvent}

theorem Traced.attach (h : Traced es s) {container : Nat} {p : AttachPoint}
    {job : Job OpenPoint (Option DockerRoom)}
    (hj : s.job = some (.running (.attached container p)))
    (hrun : ∀ c, e ≠ .runEnds c) (hcancel : e ≠ .cancelled) (hstep : AttachStep container e job) :
    Traced (es ++ [e]) { s with job := some job } := by
  have hown : s.containers = [container] := h.attached container p hj
  cases hstep with
  | goesOn p' he => constructor <;> grind -linarith
  | attached raw he => constructor <;> grind -linarith
  | fails he => constructor <;> grind -linarith

theorem Traced.thread (h : Traced es s) {p : OpenPoint} (hj : s.job = some (.running p))
    (hcancel : e ≠ .cancelled) (hst : s.threadStep p e = some t) : Traced (es ++ [e]) t := by
  cases p with
  | starting =>
    have hnil : s.containers = [] := h.idle (.inr (.inr (.inr hj)))
    cases e with
    | runEnds container =>
      cases container with
      | none =>
        cases hst
        constructor <;> grind -linarith [OpenEvent.failsToAttach]
      | some container =>
        cases hst
        constructor <;> grind -linarith [OpenEvent.failsToAttach]
    | _ => cases hst
  | attached container p =>
    obtain ⟨job, hjob, rfl⟩ := Option.map_eq_some_iff.mp hst
    refine h.attach hj ?_ hcancel (attachStep_inv hjob)
    rintro c rfl
    cases p <;> cases hjob

theorem Traced.step (h : Traced es s) (hst : s.step e = some t) : Traced (es ++ [e]) t := by
  unfold OpenCall.step at hst
  split at hst
  case h_1 ok =>
    -- before the job is submitted
    split at hst
    case isFalse => cases hst
    have hj : s.job = none := h.preparing ‹_›
    have hnil : s.containers = [] := h.idle (.inl hj)
    cases ok <;> cases hst <;> constructor <;> grind -linarith [OpenEvent.failsToAttach]
  case h_2 =>
    -- the job is over, and the coroutine takes its result
    split at hst <;> cases hst <;> constructor <;> grind -linarith [OpenEvent.failsToAttach]
  case h_3 =>
    split at hst <;> cases hst
    constructor <;> grind -linarith [OpenEvent.failsToAttach]
  case h_4 =>
    split at hst <;> cases hst
    constructor <;> grind -linarith [OpenEvent.failsToAttach]
  case h_5 =>
    split at hst <;> cases hst
    constructor <;> grind -linarith [OpenEvent.failsToAttach]
  case h_6 _ _ hcancel _ _ =>
    -- everything else is a step of the thread
    split at hst
    case h_2 => cases hst
    exact h.thread ‹_› hcancel hst

end Steps

theorem run_traced {es : List OpenEvent} {s : OpenCall} (h : machine.run .initial es = some s) :
    Traced es s := by
  refine Machine.run_induction (m := machine) h ?_ fun _ _ _ _ ht hst ↦ ht.step hst
  constructor <;> simp [machine, OpenCall.initial]

/-- A call of `open` that is over has kept all or nothing, exactly if Docker started no container or
nothing disturbed the way from there to the room. -/
theorem allOrNothing_iff_undisturbed {es : List OpenEvent} {s : OpenCall}
    (h : machine.run .initial es = some s) (hover : s.Over) :
    s.AllOrNothing ↔ Undisturbed es := by
  have ht := run_traced h
  obtain ⟨⟨how, hhow⟩, hjob⟩ := hover
  have hnone : (∀ container, .runEnds (some container) ∉ es) ↔ s.containers = [] := by
    simp only [ht.started, List.eq_nil_iff_forall_not_mem]
  have hfails : (∀ e ∈ es, e.failsToAttach = false) ↔
      ¬ (s.job = some (.finished none) ∧ s.containers ≠ []) := by
    rw [← ht.failed]
    simp
  unfold Undisturbed
  rw [hnone, ht.cut, hfails]
  cases how with
  | returned room =>
    have hroom := ht.returned room hhow
    simp [OpenCall.AllOrNothing, hhow, hroom, ht.finished room hroom]
  | raised =>
    rcases ht.raised hhow with hj | hj
    · simp [OpenCall.AllOrNothing, hhow, ht.idle (.inl hj)]
    · simp [OpenCall.AllOrNothing, hhow, hj]
  | cancelled => simp [OpenCall.AllOrNothing, hhow]

/-- The client hangs up while Docker is starting the container. -/
def hangUpWhileStarting : List OpenEvent :=
  [.prepared true, .threadStarts, .cancelled, .runEnds (some 7), .resizeEnds (.returned ()),
    .attachSocketEnds (some 3), .setblockingEnds true]

theorem hangUpWhileStarting_leaks : ¬ ∀ (es : List OpenEvent) (s : OpenCall),
    machine.run .initial es = some s → s.Over → s.AllOrNothing := by
  intro h
  have hclean := h hangUpWhileStarting ⟨.ended .cancelled, some (.finished (some ⟨7, 3⟩)), [7]⟩ rfl
    ⟨⟨_, rfl⟩, fun job hj ↦ by cases hj; rfl⟩ .cancelled rfl
  cases hclean

/-- Nothing goes wrong but the resize, which may. -/
def smoothOpen : List OpenEvent :=
  [.prepared true, .threadStarts, .runEnds (some 7), .resizeEnds .caught, .attachSocketEnds (some 3),
    .setblockingEnds true, .resumes]

theorem smoothOpen_allOrNothing :
    ∃ s, machine.run .initial smoothOpen = some s ∧ s.containers = [7] ∧ s.AllOrNothing := by
  have hrun : machine.run .initial smoothOpen = some _ := rfl
  refine ⟨_, hrun, rfl, (allOrNothing_iff_undisturbed hrun ⟨⟨_, rfl⟩, fun job hj ↦ ?_⟩).mpr ?_⟩
  · cases hj
    rfl
  · exact .inr ⟨by decide, by decide⟩

end Keycard.Docker
