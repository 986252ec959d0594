import Keycard.Reasoning.Executor
import Keycard.Reasoning.Machine

/-!
# `FirecrackerBackend.open`

`open` makes the instance directory in an executor thread, and then builds the room inside a `try`
whose handler is `_cleanup`.  A signal that is sent takes effect, and so does an `rmtree` that runs
to its end.
-/

open Reasoning

namespace Keycard.Firecracker

/-- The firecracker process of an instance. -/
inductive Process where
  | none
  | running
  | gone
deriving DecidableEq, Repr

/-- Where the thread of `Instance.create` is. -/
inductive CreatePoint where
  | making
  | claiming
deriving DecidableEq, Repr

/-- How `Instance.create` ends: it returns, or `mkdir` raises, or writing `owner.pid` does. -/
inductive Created where
  | complete
  | noDirectory
  | unclaimed
deriving DecidableEq, Repr

/-- Where `_stop` is. -/
inductive StopPoint where
  | terminating
  | waiting
  | killing
  | reaping
deriving DecidableEq, Repr

/-- Where `wait_ready` is. -/
inductive ReadyPoint where
  | looping
  | connecting
  | pausing
  | disconnecting
deriving DecidableEq, Repr

/-- Where the body of the `try` is: `_copy_rootfs`, `_fsize_for`, `_spawn`, `_configure`,
`InstanceStart` and `_attach`. -/
inductive BodyPoint where
  | copying
  | sizing
  | preparing
  | spawning
  | closing
  | recording
  | ready (p : ReadyPoint)
  | stopping (p : StopPoint)
  | calling (path : String) (rest : List String)
  | attachingData
  | attachingCtrl
  | resizing
deriving DecidableEq, Repr

inductive Stage where
  | checking
  | creating
  | building (p : BodyPoint)
  | cleaning (p : StopPoint)
  | removing
  | returned
  | raised
deriving DecidableEq, Repr

structure OpenCall where
  stage : Stage
  /-- `vm is not None`. -/
  vm : Bool
  create : Option (Job CreatePoint Created)
  remove : Option (Job Unit Unit)
  directory : Bool
  process : Process
deriving DecidableEq, Repr

inductive OpenEvent where
  | imageChecked (found : Bool)
  | createStarts
  | mkdirEnds (made : Bool)
  | ownerPidEnds (written : Bool)
  | createResumes
  /-- The caller is cancelled where it waits for `Instance.create`. -/
  | createCancelled
  | createDropped
  | builds (p : BodyPoint) (reply : Attempt Unit)
  | cleans (p : StopPoint) (reply : Attempt Unit)
  | removeStarts
  | removeFinishes
  | removeResumes
  | removeCancelled
  | removeDropped
  | vmmExits
deriving DecidableEq, Repr

/-- Where a piece of code goes next. -/
inductive Next (π : Type) where
  | goesTo (p : π)
  | returns
  | raises
deriving DecidableEq, Repr

/-- `_stop`.  At `terminating` and `killing` the caught exception is `ProcessLookupError`, or the
process has a return code already; at `waiting` it is the `TimeoutError` of `STOP_GRACE`. -/
def stopNext : StopPoint → Attempt Unit → Option (Next StopPoint)
  | .terminating, .returned () => some (.goesTo .waiting)
  | .terminating, .caught => some .returns
  | .waiting, .returned () => some .returns
  | .waiting, .caught => some (.goesTo .killing)
  | .waiting, .cancelled => some .raises
  | .killing, .returned () => some (.goesTo .reaping)
  | .killing, .caught => some .returns
  | .reaping, .returned () => some .returns
  | .reaping, .cancelled => some .raises
  | _, _ => none

/-- The signals of `_stop`, and what it finds out about the process. -/
def stopProcess (process : Process) : StopPoint → Attempt Unit → Option Process
  | .terminating, .returned () => some .gone
  -- a process found dead cannot be running
  | .terminating, .caught => if process = .running then none else some process
  | .killing, .returned () => some .gone
  | _, _ => some process

/-- `wait_ready`.  The caught exception is the `OSError` of `open_unix_connection` or `wait_closed`;
at `looping` it is that the deadline has passed. -/
def readyNext : ReadyPoint → Attempt Unit → Option (Next ReadyPoint)
  | .looping, .returned () => some (.goesTo .connecting)
  | .connecting, .returned () => some (.goesTo .disconnecting)
  | .connecting, .caught => some (.goesTo .pausing)
  | .connecting, .raised => some .raises
  | .connecting, .cancelled => some .raises
  | .pausing, .returned () => some (.goesTo .looping)
  | .pausing, .cancelled => some .raises
  | .disconnecting, .returned () => some .returns
  | .disconnecting, .caught => some .returns
  | .disconnecting, .raised => some .raises
  | .disconnecting, .cancelled => some .raises
  | _, _ => none

/-- The calls of `_configure`, and `InstanceStart`. -/
def firstCall : BodyPoint :=
  .calling "/boot-source" ["/drives/rootfs", "/machine-config", "/vsock", "/actions"]

/-- Whether the code suspends at the point, so that a cancellation can arrive there. -/
def BodyPoint.suspends : BodyPoint → Bool
  | .copying => true
  | .spawning => true
  | .calling _ _ => true
  | .attachingData => true
  | .attachingCtrl => true
  | .resizing => true
  | _ => false

/-- The body, but for `wait_ready` and `_stop`. -/
def plainNext : BodyPoint → Attempt Unit → Option (Next BodyPoint)
  | .copying, .returned () => some (.goesTo .sizing)
  | .sizing, .returned () => some (.goesTo .preparing)
  | .preparing, .returned () => some (.goesTo .spawning)
  | .spawning, .returned () => some (.goesTo .closing)
  | .closing, .returned () => some (.goesTo .recording)
  | .recording, .returned () => some (.goesTo (.ready .looping))
  | .calling _ [], .returned () => some (.goesTo .attachingData)
  | .calling _ (path :: rest), .returned () => some (.goesTo (.calling path rest))
  | .attachingData, .returned () => some (.goesTo .attachingCtrl)
  -- the guest does not answer yet
  | .attachingData, .caught => some (.goesTo .attachingData)
  | .attachingCtrl, .returned () => some (.goesTo .resizing)
  | .resizing, .returned () => some .returns
  | .resizing, .caught => some .returns
  | _, .raised => some .raises
  | p, .cancelled => if p.suspends then some .raises else none
  | _, .caught => none
  | _, _ => none

def buildNext (p : BodyPoint) (reply : Attempt Unit) : Option (Next BodyPoint) :=
  match p with
  | .ready .looping =>
    match reply with
    -- `wait_ready` raises `TimeoutError`, which `_spawn` catches
    | .caught => some (.goesTo (.stopping .terminating))
    | reply => (readyNext .looping reply).map fun
      | .goesTo p => .goesTo (.ready p)
      | .returns => .goesTo firstCall
      | .raises => .raises
  | .ready p => (readyNext p reply).map fun
    | .goesTo p => .goesTo (.ready p)
    | .returns => .goesTo firstCall
    | .raises => .raises
  | .stopping p => (stopNext p reply).map fun
    | .goesTo p => .goesTo (.stopping p)
    | .returns => .raises
    | .raises => .raises
  | p => plainNext p reply

def buildProcess (process : Process) (p : BodyPoint) (reply : Attempt Unit) : Option Process :=
  match p, reply with
  | .spawning, .returned () => some .running
  | .stopping p, reply => stopProcess process p reply
  | _, _ => some process

namespace OpenCall

def initial : OpenCall where
  stage := .checking
  vm := false
  create := none
  remove := none
  directory := false
  process := .none

/-- `_remove_dir`. -/
def removeDir (s : OpenCall) : OpenCall :=
  { s with stage := .removing, remove := some .queued }

/-- `_cleanup`. -/
def cleanup (s : OpenCall) : OpenCall :=
  if s.vm then { s with stage := .cleaning .terminating } else s.removeDir

def buildStep (s : OpenCall) (p : BodyPoint) (reply : Attempt Unit) : Option OpenCall := do
  let process ← buildProcess s.process p reply
  let next ← buildNext p reply
  let s := { s with process := process }
  -- `vm = await self._spawn(..)` has been assigned once the first API call is made
  match next with
  | .goesTo p => some { s with stage := .building p, vm := s.vm || p == firstCall }
  | .returns => some { s with stage := .returned }
  | .raises => some s.cleanup

def cleanStep (s : OpenCall) (p : StopPoint) (reply : Attempt Unit) : Option OpenCall := do
  let process ← stopProcess s.process p reply
  let next ← stopNext p reply
  let s := { s with process := process }
  match next with
  | .goesTo p => some { s with stage := .cleaning p }
  | .returns => some s.removeDir
  | .raises => some { s with stage := .raised }

def step (s : OpenCall) : OpenEvent → Option OpenCall
  | .imageChecked found =>
    if s.stage = .checking then
      some (if found then { s with stage := .creating, create := some .queued }
        else { s with stage := .raised })
    else none
  | .createStarts =>
    if s.create = some .queued then some { s with create := some (.running .making) } else none
  | .mkdirEnds made =>
    if s.create = some (.running .making) then
      some (if made then { s with create := some (.running .claiming), directory := true }
        else { s with create := some (.finished .noDirectory) })
    else none
  | .ownerPidEnds written =>
    if s.create = some (.running .claiming) then
      some { s with create := some (.finished (if written then .complete else .unclaimed)) }
    else none
  | .createResumes =>
    if s.stage = .creating then
      match s.create with
      | some (.finished .complete) => some { s with stage := .building .copying }
      | some (.finished _) => some { s with stage := .raised }
      | _ => none
    else none
  | .createCancelled => if s.stage = .creating then some { s with stage := .raised } else none
  -- the cancellation takes back a job that has not started
  | .createDropped =>
    if s.stage = .raised ∧ s.create = some .queued then some { s with create := some .dropped }
    else none
  | .builds p reply => if s.stage = .building p then s.buildStep p reply else none
  | .cleans p reply => if s.stage = .cleaning p then s.cleanStep p reply else none
  | .removeStarts =>
    if s.remove = some .queued then some { s with remove := some (.running ()) } else none
  | .removeFinishes =>
    if s.remove = some (.running ()) then
      some { s with remove := some (.finished ()), directory := false }
    else none
  | .removeResumes =>
    if s.stage = .removing ∧ s.remove = some (.finished ()) then some { s with stage := .raised }
    else none
  | .removeCancelled => if s.stage = .removing then some { s with stage := .raised } else none
  -- `rmtree` is a job of the same executor: cancelled in the queue, it never runs
  | .removeDropped =>
    if s.stage = .raised ∧ s.remove = some .queued then some { s with remove := some .dropped }
    else none
  -- firecracker may exit by itself at any time
  | .vmmExits => if s.process = .running then some { s with process := .gone } else none

/-- `open` has returned or raised, and its executor work has finished. -/
def Over (s : OpenCall) : Prop :=
  (s.stage = .returned ∨ s.stage = .raised) ∧ (∀ job, s.create = some job → job.isOver = true) ∧
    ∀ job, s.remove = some job → job.isOver = true

/-- Nothing is left of a call that raised. -/
def Unwound (s : OpenCall) : Prop :=
  s.stage = .raised → s.process ≠ .running ∧ s.directory = false

end OpenCall

def machine : Machine OpenCall OpenEvent where
  init := .initial
  step := OpenCall.step

/-! ## What leaves something behind -/

/-- The ways out of `_spawn` after which the process runs and `vm` is still `None`. -/
def orphans : BodyPoint → Attempt Unit → Bool
  -- `_spawn` has not returned yet, so `open` does not know of the process
  | .closing, .raised => true
  | .recording, .raised => true
  | .ready _, .raised => true
  | .ready _, .cancelled => true
  | _, _ => false

def Orphaned (es : List OpenEvent) : Prop :=
  ∃ p reply, orphans p reply = true ∧ .builds p reply ∈ es

def CleanupCut (es : List OpenEvent) : Prop :=
  ∃ p, .cleans p .cancelled ∈ es

/-- The condition under which `open` unwinds. -/
structure Unwinds (es : List OpenEvent) : Prop where
  claimed : .ownerPidEnds false ∉ es
  uncut : .createCancelled ∈ es → .mkdirEnds true ∉ es
  reached : Orphaned es → .vmmExits ∈ es
  cleaned : ¬ CleanupCut es
  removed : .removeDropped ∉ es

/-! ## Where the handle is and where the process is -/

/-- Whether `vm` and the process are as they are at this point of the body. -/
def BodyPoint.Fits (vm : Bool) (process : Process) : BodyPoint → Prop
  | .copying | .sizing | .preparing | .spawning => vm = false ∧ process = .none
  | .closing | .recording | .ready _ | .stopping .terminating => vm = false ∧ process ≠ .none
  | .stopping _ => vm = false ∧ process = .gone
  | .calling _ _ | .attachingData | .attachingCtrl | .resizing => vm = true ∧ process ≠ .none

theorem BodyPoint.Fits.exit {p : BodyPoint} {vm : Bool} (h : p.Fits vm .running) :
    p.Fits vm .gone := by
  cases p with
  | stopping q => cases q <;> simp_all [BodyPoint.Fits]
  | _ => simp_all [BodyPoint.Fits]

/-- Whether `_stop` has sent a signal by the time the body is there. -/
def BodyPoint.signalled : BodyPoint → Bool
  | .stopping p => p ≠ .terminating
  | _ => false

/-- What one step of the body can do. -/
inductive BuildStep (p : BodyPoint) (reply : Attempt Unit) (s : OpenCall) : OpenCall → Prop
  | goesOn (p' : BodyPoint) (vm : Bool) (process : Process) : orphans p reply = false →
      p'.Fits vm process → (s.process = .gone → process = .gone) →
      (p'.signalled = false → process = .gone → p.signalled = false ∧ s.process = .gone) →
      BuildStep p reply s { s with stage := .building p', vm := vm, process := process }
  | returns : orphans p reply = false → BuildStep p reply s { s with stage := .returned }
  | unwinds (process : Process) : orphans p reply = false → s.vm = true → process ≠ .none →
      (s.process = .gone → process = .gone) →
      BuildStep p reply s { s with stage := .cleaning .terminating, process := process }
  | removes (process : Process) : s.vm = false → (process = .running → orphans p reply = true) →
      (orphans p reply = true → process ≠ .none ∧ process = s.process) →
      (s.process = .gone → process = .gone) →
      BuildStep p reply s
        { s with stage := .removing, remove := some .queued, process := process }

/-- Whatever `_stop` does next, the process is gone. -/
theorem stopProcess_eq_gone {process process' : Process} {p : StopPoint} {reply : Attempt Unit}
    (hne : process ≠ .none) (hp : p ≠ .terminating → process = .gone)
    (h : stopProcess process p reply = some process') (hnext : stopNext p reply ≠ none) :
    process' = .gone := by
  cases p with
  | terminating =>
    cases reply with
    | returned => exact (Option.some.inj h).symm
    -- `ProcessLookupError` or a return code: it was dead before
    | caught =>
      simp only [stopProcess] at h
      split at h
      · cases h
      · cases process <;> simp_all
    | raised => simp [stopNext] at hnext
    | cancelled => simp [stopNext] at hnext
  | waiting => exact (Option.some.inj h).symm.trans (hp (by decide))
  | killing =>
    have hgone := hp (by decide)
    cases reply <;> simp_all [stopProcess]
  | reaping => exact (Option.some.inj h).symm.trans (hp (by decide))

theorem stopNext_ne_terminating {p p' : StopPoint} {reply : Attempt Unit}
    (h : stopNext p reply = some (.goesTo p')) : p' ≠ .terminating := by
  unfold stopNext at h
  split at h <;> cases h <;> decide

theorem stopNext_raises_iff {p : StopPoint} {reply : Attempt Unit} {next : Next StopPoint}
    (h : stopNext p reply = some next) : next = .raises ↔ reply = .cancelled := by
  unfold stopNext at h
  split at h <;> cases h <;> simp

theorem readyNext_raises_iff {p : ReadyPoint} {reply : Attempt Unit} {next : Next ReadyPoint}
    (h : readyNext p reply = some next) : next = .raises ↔ orphans (.ready p) reply = true := by
  unfold readyNext at h
  split at h <;> cases h <;> simp [orphans]

/-- Where a step of the body that raises leads. -/
theorem cleanup_inv {s : OpenCall} {p : BodyPoint} {reply : Attempt Unit} {process : Process}
    (hne : s.vm = true → process ≠ .none)
    (hgone : s.process = .gone → process = .gone)
    (hvm : orphans p reply = true → s.vm = false ∧ process ≠ .none ∧ process = s.process)
    (hrun : s.vm = false → process = .running → orphans p reply = true) :
    BuildStep p reply s ({ s with process := process } : OpenCall).cleanup := by
  unfold OpenCall.cleanup
  -- with a handle `_cleanup` begins with `_stop`, without one with `_remove_dir`
  split
  · rename_i h
    have htrue : s.vm = true := h
    refine .unwinds process ?_ htrue (hne htrue) hgone
    cases ho : orphans p reply with
    | false => rfl
    | true => exact absurd (hvm ho).1 (by simp [htrue])
  · rename_i h
    have hfalse : s.vm = false := by simpa using h
    exact .removes process hfalse (hrun hfalse) (fun ho ↦ (hvm ho).2) hgone

section Plain

variable {p p' : BodyPoint} {reply : Attempt Unit} {vm : Bool} {process process' : Process}

theorem plainNext_goesTo (hfits : p.Fits vm process)
    (hprocess : buildProcess process p reply = some process')
    (h : plainNext p reply = some (.goesTo p')) :
    p'.Fits (vm || p' == firstCall) process' ∧ orphans p reply = false ∧
      (process = .gone → process' = .gone) ∧
      (p'.signalled = false → process' = .gone → p.signalled = false ∧ process = .gone) := by
  unfold plainNext at h
  split at h
  case h_15 => split at h <;> cases h
  all_goals cases h
  all_goals
    cases hprocess
    simp_all [BodyPoint.Fits, BodyPoint.signalled, orphans, firstCall]

theorem plainNext_returns (hprocess : buildProcess process p reply = some process')
    (h : plainNext p reply = some .returns) : process' = process ∧ orphans p reply = false := by
  unfold plainNext at h
  split at h
  case h_15 => split at h <;> cases h
  all_goals cases h
  all_goals
    cases hprocess
    exact ⟨rfl, rfl⟩

theorem plainNext_raises (h : plainNext p reply = some .raises) :
    reply = .raised ∨ (reply = .cancelled ∧ p.suspends = true) := by
  unfold plainNext at h
  split at h
  -- an exception can come from anywhere, a cancellation only from an `await`
  case h_14 => exact .inl rfl
  case h_15 hsuspends => exact .inr ⟨rfl, by simpa using h⟩
  all_goals cases h

end Plain

theorem buildStep_inv {s t : OpenCall} {p : BodyPoint} {reply : Attempt Unit}
    (hfits : p.Fits s.vm s.process) (h : s.buildStep p reply = some t) : BuildStep p reply s t := by
  obtain ⟨process, hprocess, hbind⟩ := Option.bind_eq_some_iff.mp h
  clear h
  obtain ⟨next, hnext, h⟩ := Option.bind_eq_some_iff.mp hbind
  clear hbind
  unfold buildNext at hnext
  split at hnext
  case h_1 =>
    -- `wait_ready` before its next attempt
    cases hprocess
    cases reply with
    | returned =>
      cases hnext
      cases h
      exact .goesOn _ _ _ rfl (by simpa [BodyPoint.Fits, firstCall] using hfits) id
        fun _ h ↦ ⟨rfl, h⟩
    | caught =>
      cases hnext
      cases h
      exact .goesOn _ _ _ rfl (by simpa [BodyPoint.Fits, firstCall] using hfits) id
        fun _ h ↦ ⟨rfl, h⟩
    | raised => cases hnext
    | cancelled => cases hnext
  -- `wait_ready` goes on: what raises there leaves an orphan
  case h_2 p _ =>
    cases hprocess
    obtain ⟨n, hn, rfl⟩ := Option.map_eq_some_iff.mp hnext
    have hiff := readyNext_raises_iff hn
    have hvm : s.vm = false ∧ s.process ≠ .none := hfits
    cases n with
    | goesTo p' =>
      cases h
      exact .goesOn _ _ _ (by simpa using hiff) (by simpa [BodyPoint.Fits, firstCall] using hfits) id
        fun _ h ↦ ⟨rfl, h⟩
    | returns =>
      cases h
      exact .goesOn _ _ _ (by simpa using hiff) ⟨by simp, hvm.2⟩ id fun _ h ↦ ⟨rfl, h⟩
    | raises =>
      cases h
      exact cleanup_inv (fun _ ↦ hvm.2) id (fun _ ↦ ⟨hvm.1, hvm.2, rfl⟩) fun _ _ ↦ hiff.mp rfl
  -- `_stop` of a process that never got ready: however it ends, `_spawn` raises
  case h_3 p =>
    obtain ⟨n, hn, rfl⟩ := Option.map_eq_some_iff.mp hnext
    have hvm : s.vm = false := by cases p <;> exact hfits.1
    have hgone : process = .gone := by
      have hne : s.process ≠ .none := by cases p <;> simp_all [BodyPoint.Fits]
      have hsent (hp : p ≠ .terminating) : s.process = .gone := by
        cases p <;> simp_all [BodyPoint.Fits]
      exact stopProcess_eq_gone hne hsent hprocess (by rw [hn]; simp)
    subst hgone
    have hraises : BuildStep (.stopping p) reply s ({ s with process := .gone } : OpenCall).cleanup :=
      cleanup_inv (fun _ ↦ by decide) (fun _ ↦ rfl) (fun ho ↦ by cases ho) fun _ hr ↦ by cases hr
    cases n with
    | goesTo p' =>
      cases h
      have hne := stopNext_ne_terminating hn
      refine .goesOn _ _ _ rfl ?_ (fun _ ↦ rfl) fun hs _ ↦ ?_
      · cases p' <;> simp_all [BodyPoint.Fits, firstCall]
      · exact absurd hne (by simpa [BodyPoint.signalled] using hs)
    | returns =>
      cases h
      exact hraises
    | raises =>
      cases h
      exact hraises
  -- the straight line of the body
  case h_4 hlooping hready hstopping =>
    cases next with
    | goesTo p' =>
      cases h
      obtain ⟨hfits', horphans, hgone, hsignalled⟩ := plainNext_goesTo hfits hprocess hnext
      exact .goesOn _ _ _ horphans hfits' hgone hsignalled
    | returns =>
      cases h
      obtain ⟨rfl, horphans⟩ := plainNext_returns hprocess hnext
      exact .returns horphans
    | raises =>
      cases h
      rcases plainNext_raises hnext with rfl | ⟨rfl, hsuspends⟩
      · cases p with
        | ready q => exact absurd rfl (hready q)
        | stopping q => exact absurd rfl (hstopping q)
        | _ =>
          cases hprocess
          apply cleanup_inv <;> simp_all [BodyPoint.Fits, orphans]
      · cases p with
        | ready q => exact absurd rfl (hready q)
        | stopping q => exact absurd rfl (hstopping q)
        | _ =>
          cases hprocess
          apply cleanup_inv <;> simp_all [BodyPoint.Fits, orphans, BodyPoint.suspends]

/-! ## What the events say about the state -/

/-- About the two jobs and the directory. -/
@[grind cases]
structure Jobs (es : List OpenEvent) (s : OpenCall) : Prop where
  made : .mkdirEnds true ∈ es ↔ s.create = some (.running .claiming) ∨
    s.create = some (.finished .complete) ∨ s.create = some (.finished .unclaimed)
  unclaimed : .ownerPidEnds false ∈ es ↔ s.create = some (.finished .unclaimed)
  directory : s.directory = true ↔ .mkdirEnds true ∈ es ∧ s.remove ≠ some (.finished ())
  dropped : .removeDropped ∈ es ↔ s.remove = some .dropped

/-- About the coroutine and the process. -/
@[grind cases]
structure Course (es : List OpenEvent) (s : OpenCall) : Prop where
  createCut : .createCancelled ∈ es → s.stage = .raised ∧ s.remove = none
  orphaned : Orphaned es → (s.stage = .removing ∨ s.stage = .raised) ∧
    (s.process = .running ∨ .vmmExits ∈ es)
  exited : .vmmExits ∈ es → s.process = .gone
  cleanupCut : CleanupCut es → s.stage = .raised ∧ s.remove = none ∧
    s.create = some (.finished .complete)
  running : s.process = .running → s.stage = .removing ∨ s.stage = .raised → Orphaned es
  before : s.stage = .checking ∨ s.stage = .creating → s.remove = none ∧ s.process = .none ∧ s.vm = false
  checking : s.stage = .checking → s.create = none
  building : ∀ p, s.stage = .building p → p.Fits s.vm s.process
  unsignalled : ∀ p, s.stage = .building p → p.signalled = false → s.process = .gone → .vmmExits ∈ es
  cleaning : ∀ p, s.stage = .cleaning p → s.process ≠ .none ∧ (p ≠ .terminating → s.process = .gone)
  inside : (∃ p, s.stage = .building p) ∨ (∃ p, s.stage = .cleaning p) ∨ s.stage = .returned →
    s.create = some (.finished .complete) ∧ s.remove = none
  removed : s.remove ≠ none →
    (s.stage = .removing ∨ s.stage = .raised) ∧ s.create = some (.finished .complete)
  removing : s.stage = .removing → s.remove ≠ none
  raised : s.stage = .raised → s.create = none ∨ s.create = some (.finished .noDirectory) ∨
    s.create = some (.finished .unclaimed) ∨ .createCancelled ∈ es ∨ CleanupCut es ∨ s.remove ≠ none

section Append

variable {es : List OpenEvent} {e : OpenEvent}

@[grind =] theorem orphaned_append : Orphaned (es ++ [e]) ↔
    Orphaned es ∨ ∃ p reply, orphans p reply = true ∧ e = .builds p reply := by
  constructor
  · rintro ⟨p, reply, ho, hm⟩
    rcases List.mem_append.mp hm with hm | hm
    · exact .inl ⟨p, reply, ho, hm⟩
    · exact .inr ⟨p, reply, ho, (List.mem_singleton.mp hm).symm⟩
  · rintro (⟨p, reply, ho, hm⟩ | ⟨p, reply, ho, rfl⟩)
    · exact ⟨p, reply, ho, List.mem_append_left _ hm⟩
    · exact ⟨p, reply, ho, List.mem_append_right _ List.mem_cons_self⟩

@[grind =] theorem cleanupCut_append :
    CleanupCut (es ++ [e]) ↔ CleanupCut es ∨ ∃ p, e = .cleans p .cancelled := by
  constructor
  · rintro ⟨p, hm⟩
    rcases List.mem_append.mp hm with hm | hm
    · exact .inl ⟨p, hm⟩
    · exact .inr ⟨p, (List.mem_singleton.mp hm).symm⟩
  · rintro (⟨p, hm⟩ | ⟨p, rfl⟩)
    · exact ⟨p, List.mem_append_left _ hm⟩
    · exact ⟨p, List.mem_append_right _ List.mem_cons_self⟩

end Append

section Steps

variable {es : List OpenEvent} {s t : OpenCall} {e : OpenEvent}

/-- A step of the coroutine, or of the process. -/
theorem Jobs.frame (h : Jobs es s) (hcreate : t.create = s.create ∨ s.create = none ∧ t.create = some .queued)
    (hdirectory : t.directory = s.directory)
    (hremove : t.remove = s.remove ∨ s.remove = none ∧ t.remove = some .queued)
    (he : e ≠ .mkdirEnds true ∧ e ≠ .ownerPidEnds false ∧ e ≠ .removeDropped) :
    Jobs (es ++ [e]) t := by
  obtain ⟨hmade, hunclaimed, hdropped⟩ := he
  constructor <;> grind -linarith

/-- A step of `Instance.create`. -/
theorem Course.create_frame (h : Course es s) {job : Job CreatePoint Created} (directory : Bool)
    (hjob : s.create = some .queued ∨ ∃ p, s.create = some (.running p))
    (he : e = .createStarts ∨ (∃ made, e = .mkdirEnds made) ∨ (∃ written, e = .ownerPidEnds written) ∨
      e = .createDropped) :
    Course (es ++ [e]) { s with create := some job, directory := directory } := by
  constructor <;> grind -linarith

/-- A step of `_remove_dir`. -/
theorem Course.remove_frame (h : Course es s) {job : Job Unit Unit} (directory : Bool)
    (hjob : s.remove ≠ none) (he : e = .removeStarts ∨ e = .removeFinishes ∨ e = .removeDropped) :
    Course (es ++ [e]) { s with remove := some job, directory := directory } := by
  constructor <;> grind -linarith

theorem Course.not_orphaned (h : Course es s) (hremoving : s.stage ≠ .removing)
    (hraised : s.stage ≠ .raised) : ¬ Orphaned es := by
  intro ho
  rcases (h.orphaned ho).1 with hs | hs
  · exact hremoving hs
  · exact hraised hs

theorem Course.builds (h : Course es s) {p : BodyPoint} {reply : Attempt Unit}
    (hstage : s.stage = .building p) (hst : BuildStep p reply s t) :
    Course (es ++ [OpenEvent.builds p reply]) t := by
  obtain ⟨hcreate, hremove⟩ := h.inside (.inl ⟨p, hstage⟩)
  -- an orphan ends the body, so none has been left so far
  have hno : ¬ Orphaned es := h.not_orphaned (by simp [hstage]) (by simp [hstage])
  cases hst with
  | goesOn p' vm process ho hfits hgone hsignalled =>
    constructor <;> grind -linarith
  | returns ho => constructor <;> grind -linarith
  | unwinds process ho hvm hne hgone =>
    constructor <;> grind -linarith
  | removes process hvm hrun horphans hgone =>
    -- the process of an orphan is there, and only its own end can have taken it away
    have hlost : orphans p reply = true → process = .running ∨ .vmmExits ∈ es := by
      intro ho
      obtain ⟨hne, heq⟩ := horphans ho
      have hp : p.signalled = false := by cases p <;> simp_all [orphans, BodyPoint.signalled]
      cases hprocess : process with
      | none => exact absurd hprocess hne
      | running => exact .inl rfl
      | gone => exact .inr (h.unsignalled p hstage hp (heq.symm.trans hprocess))
    constructor <;> grind -linarith

/-- What one step of `_cleanup` can do. -/
inductive CleanStep (reply : Attempt Unit) (s : OpenCall) : OpenCall → Prop
  | goesOn (p : StopPoint) : reply ≠ .cancelled →
      CleanStep reply s { s with stage := .cleaning p, process := .gone }
  | removes : reply ≠ .cancelled →
      CleanStep reply s { s with stage := .removing, remove := some .queued, process := .gone }
  | cut : reply = .cancelled → CleanStep reply s { s with stage := .raised, process := .gone }

theorem cleanStep_inv {p : StopPoint} {reply : Attempt Unit} (hne : s.process ≠ .none)
    (hgone : p ≠ .terminating → s.process = .gone) (hst : s.cleanStep p reply = some t) :
    CleanStep reply s t := by
  obtain ⟨process, hprocess, hbind⟩ := Option.bind_eq_some_iff.mp hst
  clear hst
  obtain ⟨next, hnext, hst⟩ := Option.bind_eq_some_iff.mp hbind
  have hprocess' : process = .gone :=
    stopProcess_eq_gone hne hgone hprocess (by rw [hnext]; simp)
  subst hprocess'
  have hcut := stopNext_raises_iff hnext
  cases next with
  | goesTo p' =>
    cases hst
    exact .goesOn p' (by simpa using hcut)
  | returns =>
    cases hst
    exact .removes (by simpa using hcut)
  | raises =>
    cases hst
    exact .cut (hcut.mp rfl)

theorem Course.cleans (h : Course es s) {p : StopPoint} {reply : Attempt Unit}
    (hstage : s.stage = .cleaning p) (hst : CleanStep reply s t) :
    Course (es ++ [OpenEvent.cleans p reply]) t := by
  obtain ⟨hcreate, hremove⟩ := h.inside (.inr (.inl ⟨p, hstage⟩))
  have hno : ¬ Orphaned es := h.not_orphaned (by simp [hstage]) (by simp [hstage])
  cases hst with
  | goesOn p' hreply => constructor <;> grind -linarith
  | removes hreply => constructor <;> grind -linarith
  | cut hreply => constructor <;> grind -linarith

theorem Course.imageChecked (h : Course es s) {found : Bool}
    (hst : s.step (.imageChecked found) = some t) : Course (es ++ [OpenEvent.imageChecked found]) t := by
  simp only [OpenCall.step] at hst
  split at hst
  case isFalse => cases hst
  rename_i hstage
  obtain ⟨hremove, hprocess, hvm⟩ := h.before (.inl hstage)
  cases found with
  | false =>
    cases hst
    constructor <;> grind -linarith
  | true =>
    cases hst
    constructor <;> grind -linarith

theorem Course.createResumes (h : Course es s) (hst : s.step .createResumes = some t) :
    Course (es ++ [OpenEvent.createResumes]) t := by
  simp only [OpenCall.step] at hst
  split at hst
  case isFalse => cases hst
  rename_i hstage
  obtain ⟨hremove, hprocess, hvm⟩ := h.before (.inr hstage)
  split at hst
  · cases hst
    constructor <;>
      grind -linarith [BodyPoint.Fits, BodyPoint.signalled]
  · rename_i result hne hjob
    cases hst
    cases result with
    | complete => exact absurd rfl hne
    | noDirectory => constructor <;> grind -linarith
    | unclaimed => constructor <;> grind -linarith
  · cases hst

theorem Course.vmmExits (h : Course es s) (hrunning : s.process = .running) :
    Course (es ++ [OpenEvent.vmmExits]) { s with process := .gone } := by
  -- nothing in the body depends on the process being alive
  have hfits (p : BodyPoint) (hp : s.stage = .building p) : p.Fits s.vm .gone :=
    BodyPoint.Fits.exit (hrunning ▸ h.building p hp)
  constructor <;> grind -linarith

theorem Course.createCancelled (h : Course es s) (hstage : s.stage = .creating) :
    Course (es ++ [OpenEvent.createCancelled]) { s with stage := .raised } := by
  obtain ⟨hremove, hprocess, hvm⟩ := h.before (.inr hstage)
  constructor <;> grind -linarith

theorem Course.removeEnds (h : Course es s) (hstage : s.stage = .removing)
    (he : e = .removeResumes ∨ e = .removeCancelled) :
    Course (es ++ [e]) { s with stage := .raised } := by
  have hremove : s.remove ≠ none := h.removing hstage
  constructor <;> grind -linarith

theorem traced_step (hj : Jobs es s) (hc : Course es s) (hst : s.step e = some t) :
    Jobs (es ++ [e]) t ∧ Course (es ++ [e]) t := by
  cases e with
  | imageChecked found =>
    refine ⟨?_, hc.imageChecked hst⟩
    simp only [OpenCall.step] at hst
    split at hst
    case isFalse => cases hst
    have hnone := hc.checking ‹_›
    cases found <;> cases hst
    · exact hj.frame (.inl rfl) rfl (.inl rfl) (by simp)
    · exact hj.frame (.inr ⟨hnone, rfl⟩) rfl (.inl rfl) (by simp)
  | createStarts =>
    simp only [OpenCall.step] at hst
    split at hst <;> cases hst
    refine ⟨?_, hc.create_frame s.directory (.inl ‹_›) (.inl rfl)⟩
    constructor <;> grind -linarith
  | mkdirEnds made =>
    simp only [OpenCall.step] at hst
    split at hst
    case isFalse => cases hst
    rename_i hjob
    have hremove : s.remove = none := by
      by_contra hne
      rw [(hc.removed hne).2] at hjob
      cases hjob
    cases made <;> cases hst
    · refine ⟨?_, hc.create_frame s.directory (.inr ⟨_, hjob⟩) (.inr (.inl ⟨_, rfl⟩))⟩
      constructor <;> grind -linarith
    · refine ⟨?_, hc.create_frame true (.inr ⟨_, hjob⟩) (.inr (.inl ⟨_, rfl⟩))⟩
      constructor <;> grind -linarith
  | ownerPidEnds written =>
    simp only [OpenCall.step] at hst
    split at hst <;> cases hst
    refine ⟨?_, hc.create_frame s.directory (.inr ⟨_, ‹_›⟩) (.inr (.inr (.inl ⟨_, rfl⟩)))⟩
    cases written <;> constructor <;> grind -linarith
  | createResumes =>
    refine ⟨?_, hc.createResumes hst⟩
    simp only [OpenCall.step] at hst
    split at hst
    case isFalse => cases hst
    split at hst <;> cases hst <;> exact hj.frame (.inl rfl) rfl (.inl rfl) (by simp)
  | createCancelled =>
    simp only [OpenCall.step] at hst
    split at hst <;> cases hst
    exact ⟨hj.frame (.inl rfl) rfl (.inl rfl) (by simp), hc.createCancelled ‹_›⟩
  | createDropped =>
    simp only [OpenCall.step] at hst
    split at hst <;> cases hst
    rename_i hjob
    refine ⟨?_, hc.create_frame s.directory (.inl hjob.2) (.inr (.inr (.inr rfl)))⟩
    constructor <;> grind -linarith
  | builds p reply =>
    simp only [OpenCall.step] at hst
    split at hst
    case isFalse => cases hst
    rename_i hstage
    have hstep := buildStep_inv (hc.building p hstage) hst
    have hremove := (hc.inside (.inl ⟨p, hstage⟩)).2
    refine ⟨?_, hc.builds hstage hstep⟩
    cases hstep with
    | goesOn => exact hj.frame (.inl rfl) rfl (.inl rfl) (by simp)
    | returns => exact hj.frame (.inl rfl) rfl (.inl rfl) (by simp)
    | unwinds => exact hj.frame (.inl rfl) rfl (.inl rfl) (by simp)
    | removes => exact hj.frame (.inl rfl) rfl (.inr ⟨hremove, rfl⟩) (by simp)
  | cleans p reply =>
    simp only [OpenCall.step] at hst
    split at hst
    case isFalse => cases hst
    rename_i hstage
    obtain ⟨hne, hgone⟩ := hc.cleaning p hstage
    have hstep := cleanStep_inv hne hgone hst
    have hremove := (hc.inside (.inr (.inl ⟨p, hstage⟩))).2
    refine ⟨?_, hc.cleans hstage hstep⟩
    cases hstep with
    | goesOn => exact hj.frame (.inl rfl) rfl (.inl rfl) (by simp)
    | removes => exact hj.frame (.inl rfl) rfl (.inr ⟨hremove, rfl⟩) (by simp)
    | cut => exact hj.frame (.inl rfl) rfl (.inl rfl) (by simp)
  | removeStarts =>
    simp only [OpenCall.step] at hst
    split at hst <;> cases hst
    rename_i hjob
    refine ⟨?_, hc.remove_frame s.directory (by simp [hjob]) (.inl rfl)⟩
    constructor <;> grind -linarith
  | removeFinishes =>
    simp only [OpenCall.step] at hst
    split at hst <;> cases hst
    rename_i hjob
    refine ⟨?_, hc.remove_frame false (by simp [hjob]) (.inr (.inl rfl))⟩
    constructor <;> grind -linarith
  | removeResumes =>
    simp only [OpenCall.step] at hst
    split at hst <;> cases hst
    rename_i hstage
    exact ⟨hj.frame (.inl rfl) rfl (.inl rfl) (by simp), hc.removeEnds hstage.1 (.inl rfl)⟩
  | removeCancelled =>
    simp only [OpenCall.step] at hst
    split at hst <;> cases hst
    exact ⟨hj.frame (.inl rfl) rfl (.inl rfl) (by simp), hc.removeEnds ‹_› (.inr rfl)⟩
  | removeDropped =>
    simp only [OpenCall.step] at hst
    split at hst <;> cases hst
    rename_i hjob
    refine ⟨?_, hc.remove_frame s.directory (by simp [hjob.2]) (.inr (.inr rfl))⟩
    constructor <;> grind -linarith
  | vmmExits =>
    simp only [OpenCall.step] at hst
    split at hst <;> cases hst
    exact ⟨hj.frame (.inl rfl) rfl (.inl rfl) (by simp), hc.vmmExits ‹_›⟩

end Steps

theorem run_traced {es : List OpenEvent} {s : OpenCall} (h : machine.run .initial es = some s) :
    Jobs es s ∧ Course es s := by
  refine Machine.run_induction (m := machine) (P := fun es s ↦ Jobs es s ∧ Course es s) h ⟨?_, ?_⟩
    fun _ _ _ _ ht hst ↦ traced_step ht.1 ht.2 hst
  · constructor <;> simp [machine, OpenCall.initial]
  · constructor <;> simp [machine, OpenCall.initial, Orphaned, CleanupCut]

/-! ## A call that is over -/

section Over

variable {es : List OpenEvent} {s : OpenCall}

theorem unwinds_of_returned (hj : Jobs es s) (hc : Course es s) (hstage : s.stage = .returned) :
    Unwinds es := by
  obtain ⟨hcreate, hremove⟩ := hc.inside (.inr (.inr hstage))
  constructor
  · rw [hj.unclaimed, hcreate]
    simp
  · intro hcut
    rw [(hc.createCut hcut).1] at hstage
    cases hstage
  · intro ho
    exact absurd ho (hc.not_orphaned (by simp [hstage]) (by simp [hstage]))
  · intro hcut
    rw [(hc.cleanupCut hcut).1] at hstage
    cases hstage
  · rw [hj.dropped, hremove]
    simp

theorem unwinds_of_unwound (hj : Jobs es s) (hc : Course es s) (hstage : s.stage = .raised)
    (h : s.Unwound) : Unwinds es := by
  obtain ⟨hprocess, hdirectory⟩ := h hstage
  have hfinished (hmade : .mkdirEnds true ∈ es) : s.remove = some (.finished ()) := by
    by_contra hne
    rw [hj.directory.mpr ⟨hmade, hne⟩] at hdirectory
    cases hdirectory
  have hcomplete (hcreate : s.create = some (.finished .complete)) : s.remove = some (.finished ()) :=
    hfinished (hj.made.mpr (.inr (.inl hcreate)))
  constructor
  · intro hm
    have hcreate := hj.unclaimed.mp hm
    have hremove := hfinished (hj.made.mpr (.inr (.inr hcreate)))
    rw [(hc.removed (by simp [hremove])).2] at hcreate
    cases hcreate
  · intro hcut hmade
    have hremove := hfinished hmade
    rw [(hc.createCut hcut).2] at hremove
    cases hremove
  · intro ho
    exact (hc.orphaned ho).2.resolve_left hprocess
  · intro hcut
    obtain ⟨-, hnone, hcreate⟩ := hc.cleanupCut hcut
    rw [hcomplete hcreate] at hnone
    cases hnone
  · intro hm
    have hremove := hj.dropped.mp hm
    rw [hcomplete (hc.removed (by simp [hremove])).2] at hremove
    cases hremove

theorem unwound_of_unwinds (hj : Jobs es s) (hc : Course es s) (hover : s.Over) (h : Unwinds es) :
    s.Unwound := by
  intro hstage
  constructor
  · intro hrunning
    have hexits := h.reached (hc.running hrunning (.inr hstage))
    rw [hc.exited hexits] at hrunning
    cases hrunning
  · by_contra hne
    obtain ⟨hmade, hremove⟩ := hj.directory.mp (Bool.not_eq_false _ ▸ hne)
    have hcreate := hj.made.mp hmade
    rcases hc.raised hstage with hnone | hno | hunclaimed | hcut | hcut | hjob
    · simp [hnone] at hcreate
    · simp [hno] at hcreate
    · exact h.claimed (hj.unclaimed.mpr hunclaimed)
    · exact h.uncut hcut hmade
    · exact h.cleaned hcut
    · -- the removal was submitted, and it is over
      obtain ⟨job, hsome⟩ := Option.ne_none_iff_exists'.mp hjob
      have hjover := hover.2.2 job hsome
      cases job with
      | queued => cases hjover
      | running => cases hjover
      | finished => exact hremove hsome
      | dropped => exact h.removed (hj.dropped.mpr hsome)

end Over

/-- A call of `open` that is over has unwound, exactly if none of the ways out that `_cleanup` does
not cover was taken. -/
theorem unwound_iff_unwinds {es : List OpenEvent} {s : OpenCall}
    (h : machine.run .initial es = some s) (hover : s.Over) : s.Unwound ↔ Unwinds es := by
  obtain ⟨hj, hc⟩ := run_traced h
  refine ⟨fun hs ↦ ?_, unwound_of_unwinds hj hc hover⟩
  rcases hover.1 with hstage | hstage
  · exact unwinds_of_returned hj hc hstage
  · exact unwinds_of_unwound hj hc hstage hs

/-- The room is built up to the spawned process. -/
def spawned : List OpenEvent :=
  [.imageChecked true, .createStarts, .mkdirEnds true, .ownerPidEnds true, .createResumes,
    .builds .copying (.returned ()), .builds .sizing (.returned ()), .builds .preparing (.returned ()),
    .builds .spawning (.returned ()), .builds .closing (.returned ())]

/-- The disk is full when `vmm.pid` is written. -/
def diskFull : List OpenEvent :=
  spawned ++ ([.builds .recording .raised, .removeStarts, .removeFinishes, .removeResumes] : List OpenEvent)

theorem diskFull_orphans : ¬ ∀ (es : List OpenEvent) (s : OpenCall),
    machine.run .initial es = some s → s.Over → s.Unwound := by
  intro h
  have hclean := h diskFull
    ⟨.raised, false, some (.finished .complete), some (.finished ()), false, .running⟩ rfl
    ⟨.inr rfl, fun job hj ↦ (by cases hj; rfl), fun job hj ↦ (by cases hj; rfl)⟩ rfl
  exact hclean.1 rfl

/-- Firecracker rejects the kernel, and does not end on SIGTERM. -/
def kernelRejected : List OpenEvent :=
  spawned ++ ([.builds .recording (.returned ()), .builds (.ready .looping) (.returned ()),
    .builds (.ready .connecting) (.returned ()), .builds (.ready .disconnecting) (.returned ()),
    .builds firstCall .raised, .cleans .terminating (.returned ()), .cleans .waiting .caught,
    .cleans .killing (.returned ()), .cleans .reaping (.returned ()), .removeStarts, .removeFinishes,
    .removeResumes] : List OpenEvent)

theorem kernelRejected_unwound :
    ∃ s, machine.run .initial kernelRejected = some s ∧ s.stage = .raised ∧ s.Unwound := by
  have horphaned : ¬ Orphaned kernelRejected := by
    rintro ⟨p, reply, horphans, hmem⟩
    simp only [kernelRejected, spawned, List.cons_append, List.nil_append, List.mem_cons, List.not_mem_nil,
      OpenEvent.builds.injEq, reduceCtorEq, false_or, or_false] at hmem
    rcases hmem with ⟨rfl, rfl⟩ | ⟨rfl, rfl⟩ | ⟨rfl, rfl⟩ | ⟨rfl, rfl⟩ | ⟨rfl, rfl⟩ | ⟨rfl, rfl⟩ | ⟨rfl, rfl⟩ |
      ⟨rfl, rfl⟩ | ⟨rfl, rfl⟩ | ⟨rfl, rfl⟩ <;> cases horphans
  have hcut : ¬ CleanupCut kernelRejected := by
    rintro ⟨p, hmem⟩
    simp [kernelRejected, spawned] at hmem
  have hrun : machine.run .initial kernelRejected = some _ := rfl
  refine ⟨_, hrun, rfl, (unwound_iff_unwinds hrun ?_).mpr ?_⟩
  · exact ⟨.inr rfl, fun job hj ↦ (by cases hj; rfl), fun job hj ↦ (by cases hj; rfl)⟩
  · exact ⟨by decide, by decide, fun h ↦ absurd h horphaned, hcut, by decide⟩

end Keycard.Firecracker
