import Keycard.EndToEnd.Configuration

/-!
# A microVM that is paused and resumed

`pause` has firecracker write the guest to two files and stops it, and `resume` starts another firecracker that reads
them.  Both speak through the API socket, and firecracker acts on what it has applied, also when the client does not
hear of it.  What an applied call does is firecracker's own and a parameter here, of which `Documented` says what is
relied on.
-/

open Reasoning

namespace Keycard.EndToEnd

open FcApi
open Firecracker (Process StopPoint BodyPoint stopNext stopProcess buildNext buildProcess firstCall)

/-- A guest: the state of its devices, and its memory. -/
structure Guest (δ μ : Type) where
  devices : δ
  memory : μ

inductive SnapshotFile (δ μ : Type) where
  | devices (devices : δ)
  | memory (memory : μ)

/-- What the calls act on. -/
structure Vmm (δ μ : Type) where
  /-- the guest of the last firecracker, if it was given one -/
  guest : Option (Guest δ μ)
  paused : Bool
  files : Dict String (SnapshotFile δ μ)

/-- What firecracker makes of a request; it does not apply one where this is `none`. -/
abbrev Effect (δ μ : Type) :=
  Vmm δ μ → Request Body → Option (Vmm δ μ)

/-- The two files have this guest. -/
def Vmm.Holds {δ μ : Type} (dir : String) (vmm : Vmm δ μ) (guest : Guest δ μ) : Prop :=
  vmm.files.get? (fileIn dir "snapshot") = some (.devices guest.devices) ∧
    vmm.files.get? (fileIn dir "memory") = some (.memory guest.memory)

/-- What firecracker documents of the three calls, once they are applied. -/
structure Documented {δ μ : Type} (dir : String) (effect : Effect δ μ) : Prop where
  /-- a guest that is paused stays as it is -/
  pauses {vmm vmm' : Vmm δ μ} : effect vmm vmPaused = some vmm' → vmm'.guest = vmm.guest ∧ vmm'.paused = true
  /-- the guest is written to the two files, and is still paused if it was -/
  creates {vmm vmm' : Vmm δ μ} : effect vmm (snapshotCreate dir) = some vmm' →
    vmm'.guest = vmm.guest ∧ vmm'.paused = vmm.paused ∧ ∃ guest, vmm.guest = some guest ∧ vmm'.Holds dir guest
  /-- a firecracker without a guest has the one of the two files, and `resume_vm` has it run -/
  loads {vmm vmm' : Vmm δ μ} {guest : Guest δ μ} : effect vmm (snapshotLoad dir) = some vmm' → vmm.guest = none →
    vmm.Holds dir guest → vmm'.guest = some guest ∧ vmm'.paused = false

/-- Whose calls are made, or were made last. -/
inductive Operation where
  | opened
  | pause
  | resume
deriving DecidableEq, Repr

/-- The calls that are not yet made when the operation begins; those of `open` are over. -/
def Operation.calls (dir : String) : Operation → List (Request Body)
  | .opened => []
  | .pause => pauseCalls dir
  | .resume => resumeCalls dir

/-- Where the room is: with a session, in `pause`, kept, or in `resume`. -/
inductive LifeStage where
  | room
  | pausing
  | parking (p : StopPoint)
  | kept
  | resuming (p : BodyPoint)
  | loading
  /-- the handler of `resume` -/
  | unwinding (p : StopPoint)
  | raised
deriving DecidableEq, Repr

structure Life (δ μ : Type) (limit : Nat) where
  stage : LifeStage
  operation : Operation
  api : ApiPath Body limit
  process : Process
  vmm : Vmm δ μ
  /-- the guest as it was left by its last step -/
  last : Guest δ μ

inductive LifeEvent (δ μ : Type) (limit : Nat) where
  | guestRuns (guest : Guest δ μ)
  | vmmExits
  | pauses
  | api (e : ApiEvent limit)
  /-- the calls are over, and the coroutine goes on -/
  | callsEnd
  | parks (p : StopPoint) (reply : Attempt Unit)
  | resumes
  | builds (p : BodyPoint) (reply : Attempt Unit)
  | unwinds (p : StopPoint) (reply : Attempt Unit)

/-- `vm = await self._spawn(..)` has been assigned. -/
def isAttached : BodyPoint → Bool
  | .attachingData | .attachingCtrl | .resizing => true
  | _ => false

namespace Life

variable {δ μ : Type} {limit : Nat}

def initial (guest : Guest δ μ) : Life δ μ limit where
  stage := .room
  operation := .opened
  api := .start []
  process := .running
  vmm := ⟨some guest, false, .empty⟩
  last := guest

/-! ## The steps -/

/-- Firecracker acts on what it applies, and a call is served only while it runs. -/
def apiStep (effect : Effect δ μ) (s : Life δ μ limit) (e : ApiEvent limit) : Option (Life δ μ limit) :=
  (ApiPath.step jsonBody s.api e).bind fun api ↦
    match e with
    | .serves _ =>
      if s.process = .running then
        match api.applied.drop s.api.applied.length with
        | [] => some { s with api := api }
        | request :: _ => (effect s.vmm request).map fun vmm ↦ { s with api := api, vmm := vmm }
      else none
    | _ => some { s with api := api }

/-- `_stop`, in a stage of its own. -/
def stopStep (s : Life δ μ limit) (p : StopPoint) (reply : Attempt Unit) (stage : StopPoint → LifeStage)
    (stopped : LifeStage) : Option (Life δ μ limit) := do
  let process ← stopProcess s.process p reply
  let next ← stopNext p reply
  match next with
  | .goesTo p => some { s with process := process, stage := stage p }
  | .returns => some { s with process := process, stage := stopped }
  | .raises => some { s with process := process, stage := .raised }

/-- A process that has just started has no guest. -/
def afterBuild (s : Life δ μ limit) (p : BodyPoint) (reply : Attempt Unit) (process : Process) : Life δ μ limit :=
  if p = .spawning ∧ reply = .returned () then
    { s with process := process, vmm := { s.vmm with guest := none, paused := false } }
  else { s with process := process }

/-- The body of `resume`, but for its call. -/
def buildStep (dir : String) (s : Life δ μ limit) (p : BodyPoint) (reply : Attempt Unit) :
    Option (Life δ μ limit) := do
  let process ← buildProcess s.process p reply
  let next ← buildNext p reply
  let s := s.afterBuild p reply process
  match next with
  -- behind `_spawn`
  | .goesTo q =>
    some (if q = firstCall then
      { s with stage := .loading, operation := .resume, api := .start (Operation.resume.calls dir) }
    else { s with stage := .resuming q })
  | .returns => some { s with stage := .room }
  | .raises => some { s with stage := if isAttached p then .unwinding .terminating else .raised }

/-- Where the coroutine goes behind its calls. -/
def callsEnd (s : Life δ μ limit) : Option (Life δ μ limit) :=
  match s.stage, s.api.client with
  | .pausing, .returned => some { s with stage := .parking .terminating }
  | .pausing, .raised _ => some { s with stage := .raised }
  | .loading, .returned => some { s with stage := .resuming .attachingData }
  | .loading, .raised _ => some { s with stage := .unwinding .terminating }
  | _, _ => none

def step (effect : Effect δ μ) (dir : String) (s : Life δ μ limit) : LifeEvent δ μ limit → Option (Life δ μ limit)
  -- a guest takes steps while it is not paused and its process runs
  | .guestRuns guest =>
    if s.process = .running ∧ s.vmm.guest.isSome ∧ s.vmm.paused = false then
      some { s with vmm := { s.vmm with guest := some guest }, last := guest }
    else none
  | .vmmExits => if s.process = .running then some { s with process := .gone } else none
  | .pauses =>
    if s.stage = .room then
      some { s with stage := .pausing, operation := .pause, api := .start (Operation.pause.calls dir) }
    else none
  | .api e => s.apiStep effect e
  | .callsEnd => s.callsEnd
  | .parks p reply => if s.stage = .parking p then s.stopStep p reply .parking .kept else none
  | .resumes => if s.stage = .kept then some { s with stage := .resuming .sizing } else none
  | .builds p reply => if s.stage = .resuming p then s.buildStep dir p reply else none
  | .unwinds p reply => if s.stage = .unwinding p then s.stopStep p reply .unwinding .raised else none

def machine (effect : Effect δ μ) (dir : String) (limit : Nat) (guest : Guest δ μ) :
    Machine (Life δ μ limit) (LifeEvent δ μ limit) where
  init := initial guest
  step := step effect dir

/-! ## What is known -/

/-- The two files have the guest as its last step left it. -/
def Saved (dir : String) (s : Life δ μ limit) : Prop :=
  s.vmm.Holds dir s.last

/-- What the calls have come to, `n` of which are applied. -/
def Made (dir : String) (s : Life δ μ limit) : Operation → Nat → Prop
  | .opened, _ => s.vmm.guest = some s.last ∧ s.vmm.paused = false
  | .pause, n => (1 ≤ n → s.vmm.paused = true ∨ s.vmm.guest = none) ∧ (2 ≤ n → s.Saved dir)
  | .resume, n => (n = 0 → s.vmm.guest = none ∧ s.Saved dir) ∧
      (1 ≤ n → s.vmm.guest = some s.last ∧ s.vmm.paused = false)

/-- What is known of the process and the calls in each stage. -/
def AtStage (s : Life δ μ limit) : LifeStage → Prop
  | .room => s.operation ≠ .pause ∧ s.api.client = .returned ∧ s.process ≠ .none
  | .pausing => s.operation = .pause ∧ s.process ≠ .none
  | .parking p => s.operation = .pause ∧ s.api.client = .returned ∧ s.process ≠ .none ∧
      (p ≠ .terminating → s.process = .gone)
  | .kept => s.operation = .pause ∧ s.api.client = .returned ∧ s.process = .gone
  | .resuming p =>
    match p with
    | .sizing | .preparing | .spawning => s.operation = .pause ∧ s.api.client = .returned ∧ s.process = .gone
    | .attachingData | .attachingCtrl | .resizing =>
      s.operation = .resume ∧ s.api.client = .returned ∧ s.process ≠ .none
    | .closing | .recording | .ready _ | .stopping _ =>
      s.operation = .pause ∧ s.api.client = .returned ∧ s.process ≠ .none ∧ s.vmm.guest = none
    | .copying | .calling _ _ => False
  | .loading => s.operation = .resume ∧ s.process ≠ .none
  | .unwinding _ | .raised => True

structure Continuous (dir : String) (s : Life δ μ limit) : Prop where
  api : s.api.Configuring jsonBody (s.operation.calls dir)
  guest : ∀ guest, s.vmm.guest = some guest → guest = s.last
  made : s.Made dir s.operation s.api.applied.length
  point : s.AtStage s.stage

/-! ## What is applied -/

section

variable {effect : Effect δ μ} {dir : String} {s t : Life δ μ limit}

theorem isCall_calls (operation : Operation) : ∀ call ∈ operation.calls dir, IsCall call := by
  cases operation with
  | opened => exact fun _ hcall ↦ by cases hcall
  | pause => exact isCall_pauseCalls dir
  | resume => exact isCall_resumeCalls dir

/-- What is known when the next of the calls is applied. -/
theorem Made.applied (heffect : Documented dir effect) {operation : Operation} {n : Nat} {request : Request Body}
    {vmm : Vmm δ μ} (h : s.Made dir operation n) (hguest : ∀ guest, s.vmm.guest = some guest → guest = s.last)
    (hcall : (operation.calls dir)[n]? = some request) (happly : effect s.vmm request = some vmm) :
    ({ s with vmm } : Life δ μ limit).Made dir operation (n + 1) ∧
      ∀ guest, vmm.guest = some guest → guest = s.last := by
  cases operation with
  | opened => cases hcall
  | pause =>
    rcases n with _ | _ | n
    · cases hcall
      obtain ⟨hsame, hpaused⟩ := heffect.pauses happly
      exact ⟨⟨fun _ ↦ .inl hpaused, fun h ↦ by omega⟩, hsame ▸ hguest⟩
    · cases hcall
      obtain ⟨hsame, hpaused, guest, hmachine, hholds⟩ := heffect.creates happly
      refine ⟨⟨fun _ ↦ ?_, fun _ ↦ hguest guest hmachine ▸ hholds⟩, hsame ▸ hguest⟩
      show vmm.paused = true ∨ vmm.guest = none
      rw [hpaused, hsame]
      exact h.1 (Nat.le_refl 1)
    · cases hcall
  | resume =>
    rcases n with _ | n
    · cases hcall
      obtain ⟨hnone, hsaved⟩ := h.1 rfl
      have hloaded := heffect.loads happly hnone hsaved
      refine ⟨⟨fun h ↦ by omega, fun _ ↦ hloaded⟩, fun guest hsome ↦ ?_⟩
      exact (Option.some.inj (hloaded.1.symm.trans hsome)).symm
    · cases hcall

/-! ## What a step keeps -/

theorem start_configuring (operation : Operation) :
    (ApiPath.start (operation.calls dir) : ApiPath Body limit).Configuring jsonBody (operation.calls dir) :=
  ApiPath.reachable_configuring (isCall_calls operation) .init

/-- A stage in which the calls are not over, or do not matter. -/
def isOpen : LifeStage → Bool
  | .pausing | .loading | .unwinding _ | .raised => true
  | _ => false

theorem AtStage.returned {stage : LifeStage} (h : s.AtStage stage) (hstage : isOpen stage = false) :
    s.api.client = .returned := by
  cases stage with
  | room => exact h.2.1
  | parking p => exact h.2.1
  | kept => exact h.2.1
  | resuming p =>
    cases p with
    | copying | calling => exact h.elim
    | _ => exact h.2.1
  | pausing | loading | unwinding | raised => cases hstage

theorem AtStage.of_open {stage : LifeStage} (h : s.AtStage stage) (hstage : isOpen stage = true)
    (hoperation : t.operation = s.operation) (hprocess : t.process = s.process) : t.AtStage stage := by
  cases stage with
  | pausing =>
    refine ⟨hoperation.trans h.1, ?_⟩
    rw [hprocess]
    exact h.2
  | loading =>
    refine ⟨hoperation.trans h.1, ?_⟩
    rw [hprocess]
    exact h.2
  | unwinding p => trivial
  | raised => trivial
  | room | parking | kept | resuming => cases hstage

/-- When the calls of `pause` are over, all of it is in the files. -/
theorem Continuous.saved (h : s.Continuous dir) (hoperation : s.operation = .pause)
    (hreturned : s.api.client = .returned) : (s.vmm.paused = true ∨ s.vmm.guest = none) ∧ s.Saved dir := by
  have hmade := h.made
  have hall := h.api.all hreturned
  rw [hall, hoperation] at hmade
  exact ⟨hmade.1 (Nat.le_succ 1), hmade.2 (Nat.le_refl 2)⟩

/-- A room has the guest as it was left. -/
theorem Continuous.running (h : s.Continuous dir) (hstage : s.stage = .room) :
    s.vmm.guest = some s.last ∧ s.vmm.paused = false ∧ s.process ≠ .none := by
  have hpoint := h.point
  rw [hstage] at hpoint
  obtain ⟨hoperation, hreturned, hprocess⟩ := hpoint
  have hmade := h.made
  rw [h.api.all hreturned] at hmade
  cases hwhich : s.operation with
  | opened =>
    rw [hwhich] at hmade
    exact ⟨hmade.1, hmade.2, hprocess⟩
  | pause => exact absurd hwhich hoperation
  | resume =>
    rw [hwhich] at hmade
    obtain ⟨hguest, hpaused⟩ := hmade.2 (Nat.le_refl 1)
    exact ⟨hguest, hpaused, hprocess⟩

theorem Continuous.api_step (h : s.Continuous dir) (heffect : Documented dir effect) {e : ApiEvent limit}
    (hst : s.apiStep effect e = some t) : t.Continuous dir ∧ t.last = s.last := by
  obtain ⟨api, hapi, hnext⟩ := Option.bind_eq_some_iff.mp hst
  have hstage : isOpen s.stage = true := by
    cases hopen : isOpen s.stage with
    | true => rfl
    | false => exact absurd ((h.api.over (h.point.returned hopen) e).symm.trans hapi) (by simp)
  have hcalls : ∀ call ∈ s.operation.calls dir, IsCall call := isCall_calls s.operation
  have hconfiguring := h.api.step hcalls (ApiPath.step_moves hapi)
  -- where nothing is applied only the calls go on
  have hidle (happlied : api.applied = s.api.applied) : ({ s with api := api } : Life δ μ limit).Continuous dir := by
    refine ⟨hconfiguring, h.guest, ?_, h.point.of_open hstage rfl rfl⟩
    show s.Made dir s.operation api.applied.length
    rw [happlied]
    exact h.made
  rcases h.api.applies hcalls hapi with happlied | ⟨request, answer, rfl, happlied, hrequest⟩
  · have hdrop : api.applied.drop s.api.applied.length = [] := by rw [happlied, List.drop_length]
    have ht : t = { s with api := api } := by
      split at hnext
      · split at hnext
        · rw [hdrop] at hnext
          exact (Option.some.inj hnext).symm
        · cases hnext
      · exact (Option.some.inj hnext).symm
    rw [ht]
    exact ⟨hidle happlied, rfl⟩
  · have hdrop : api.applied.drop s.api.applied.length = [request] := by rw [happlied, List.drop_left]
    simp only [hdrop] at hnext
    split at hnext
    · obtain ⟨vmm, happly, rfl⟩ := Option.map_eq_some_iff.mp hnext
      obtain ⟨hmade, hguest⟩ := h.made.applied heffect h.guest hrequest happly
      refine ⟨⟨hconfiguring, hguest, ?_, h.point.of_open hstage rfl rfl⟩, rfl⟩
      show Made dir _ s.operation api.applied.length
      rw [happlied, List.length_append]
      exact hmade
    · cases hnext

theorem Continuous.guest_runs (h : s.Continuous dir) (guest : Guest δ μ) (hsome : s.vmm.guest.isSome = true)
    (hruns : s.vmm.paused = false) :
    ({ s with vmm := { s.vmm with guest := some guest }, last := guest } : Life δ μ limit).Continuous dir := by
  have hmachine : s.vmm.guest ≠ none := Option.isSome_iff_ne_none.mp hsome
  refine ⟨h.api, fun other hother ↦ (Option.some.inj hother).symm, ?_, ?_⟩
  · have hmade := h.made
    show Made dir _ s.operation s.api.applied.length
    cases hoperation : s.operation with
    | opened => exact ⟨rfl, hruns⟩
    | pause =>
      rw [hoperation] at hmade
      -- what `pause` has stopped does not run
      have hnone : ¬ 1 ≤ s.api.applied.length := by
        intro hpaused
        rcases hmade.1 hpaused with hp | hg
        · rw [hruns] at hp
          cases hp
        · exact hmachine hg
      exact ⟨fun h1 ↦ absurd h1 hnone, fun h2 ↦ absurd (Nat.le_of_succ_le h2) hnone⟩
    | resume =>
      rw [hoperation] at hmade
      exact ⟨fun hzero ↦ absurd (hmade.1 hzero).1 hmachine, fun _ ↦ ⟨rfl, hruns⟩⟩
  · have hpoint := h.point
    show AtStage _ s.stage
    cases hstage : s.stage with
    | resuming p =>
      rw [hstage] at hpoint
      cases p with
      | closing | recording | ready | stopping => exact absurd hpoint.2.2.2 hmachine
      | _ => exact hpoint
    | _ =>
      rw [hstage] at hpoint
      exact hpoint

theorem Continuous.vmm_exits (h : s.Continuous dir) :
    ({ s with process := .gone } : Life δ μ limit).Continuous dir := by
  refine ⟨h.api, h.guest, h.made, ?_⟩
  have hpoint := h.point
  show AtStage _ s.stage
  cases hstage : s.stage with
  | room =>
    rw [hstage] at hpoint
    exact ⟨hpoint.1, hpoint.2.1, by simp⟩
  | pausing =>
    rw [hstage] at hpoint
    exact ⟨hpoint.1, by simp⟩
  | parking p =>
    rw [hstage] at hpoint
    exact ⟨hpoint.1, hpoint.2.1, by simp, fun _ ↦ rfl⟩
  | kept =>
    rw [hstage] at hpoint
    exact ⟨hpoint.1, hpoint.2.1, rfl⟩
  | resuming p =>
    rw [hstage] at hpoint
    cases p with
    | copying | calling => exact hpoint.elim
    | sizing | preparing | spawning => exact ⟨hpoint.1, hpoint.2.1, rfl⟩
    | attachingData | attachingCtrl | resizing => exact ⟨hpoint.1, hpoint.2.1, by simp⟩
    | closing | recording | ready | stopping => exact ⟨hpoint.1, hpoint.2.1, by simp, hpoint.2.2.2⟩
  | loading =>
    rw [hstage] at hpoint
    exact ⟨hpoint.1, by simp⟩
  | unwinding p => trivial
  | raised => trivial

theorem Continuous.pauses (h : s.Continuous dir) (hstage : s.stage = .room) :
    ({ s with stage := .pausing, operation := .pause, api := .start (Operation.pause.calls dir) } :
      Life δ μ limit).Continuous dir := by
  refine ⟨start_configuring .pause, h.guest, ⟨fun h ↦ (by cases h), fun h ↦ (by cases h)⟩, rfl, ?_⟩
  exact (h.running hstage).2.2

theorem Continuous.calls_end (h : s.Continuous dir) (hst : s.callsEnd = some t) :
    t.Continuous dir ∧ t.last = s.last := by
  have hpoint := h.point
  unfold callsEnd at hst
  split at hst
  · rename_i hstage hreturned
    cases hst
    rw [hstage] at hpoint
    exact ⟨⟨h.api, h.guest, h.made, hpoint.1, hreturned, hpoint.2, fun hne ↦ absurd rfl hne⟩, rfl⟩
  · cases hst
    exact ⟨⟨h.api, h.guest, h.made, trivial⟩, rfl⟩
  · rename_i hstage hreturned
    cases hst
    rw [hstage] at hpoint
    exact ⟨⟨h.api, h.guest, h.made, hpoint.1, hreturned, hpoint.2⟩, rfl⟩
  · cases hst
    exact ⟨⟨h.api, h.guest, h.made, trivial⟩, rfl⟩
  · cases hst

/-- `_stop` goes on, has stopped the process, or is cut off. -/
theorem stopStep_cases {p : StopPoint} {reply : Attempt Unit} {stage : StopPoint → LifeStage} {stopped : LifeStage}
    (hne : s.process ≠ .none) (hgone : p ≠ .terminating → s.process = .gone)
    (hst : s.stopStep p reply stage stopped = some t) :
    (∃ q, t = { s with process := .gone, stage := stage q }) ∨ t = { s with process := .gone, stage := stopped } ∨
      t = { s with process := .gone, stage := .raised } := by
  obtain ⟨process, hprocess, hbind⟩ := Option.bind_eq_some_iff.mp hst
  obtain ⟨next, hnext, heq⟩ := Option.bind_eq_some_iff.mp hbind
  have hstopped := Firecracker.stopProcess_eq_gone hne hgone hprocess (by rw [hnext]; simp)
  subst hstopped
  cases next with
  | goesTo q =>
    cases heq
    exact .inl ⟨q, rfl⟩
  | returns =>
    cases heq
    exact .inr (.inl rfl)
  | raises =>
    cases heq
    exact .inr (.inr rfl)

theorem Continuous.parks (h : s.Continuous dir) {p : StopPoint} {reply : Attempt Unit} (hstage : s.stage = .parking p)
    (hst : s.stopStep p reply .parking .kept = some t) : t.Continuous dir ∧ t.last = s.last := by
  have hpoint := h.point
  rw [hstage] at hpoint
  obtain ⟨hoperation, hreturned, hne, hgone⟩ := hpoint
  rcases stopStep_cases hne hgone hst with ⟨q, rfl⟩ | rfl | rfl
  · exact ⟨⟨h.api, h.guest, h.made, hoperation, hreturned, by simp, fun _ ↦ rfl⟩, rfl⟩
  · exact ⟨⟨h.api, h.guest, h.made, hoperation, hreturned, rfl⟩, rfl⟩
  · exact ⟨⟨h.api, h.guest, h.made, trivial⟩, rfl⟩

theorem Continuous.unwinds (h : s.Continuous dir) {p : StopPoint} {reply : Attempt Unit}
    (hst : s.stopStep p reply .unwinding .raised = some t) : t.Continuous dir ∧ t.last = s.last := by
  obtain ⟨process, -, hbind⟩ := Option.bind_eq_some_iff.mp hst
  obtain ⟨next, -, heq⟩ := Option.bind_eq_some_iff.mp hbind
  cases next with
  | goesTo | returns | raises =>
    cases heq
    exact ⟨⟨h.api, h.guest, h.made, trivial⟩, rfl⟩

theorem buildNext_ready {q : Firecracker.ReadyPoint} {reply : Attempt Unit} {next : Firecracker.Next BodyPoint}
    (h : buildNext (.ready q) reply = some next) :
    (∃ p, next = .goesTo p ∧ (p = .stopping .terminating ∨ ∃ q, p = .ready q)) ∨ next = .goesTo firstCall ∨
      next = .raises := by
  unfold buildNext at h
  split at h
  · split at h
    · exact .inl ⟨_, (Option.some.inj h).symm, .inl rfl⟩
    · obtain ⟨n, -, rfl⟩ := Option.map_eq_some_iff.mp h
      cases n with
      | goesTo p => exact .inl ⟨.ready p, rfl, .inr ⟨p, rfl⟩⟩
      | returns => exact .inr (.inl rfl)
      | raises => exact .inr (.inr rfl)
  · obtain ⟨n, -, rfl⟩ := Option.map_eq_some_iff.mp h
    cases n with
    | goesTo p => exact .inl ⟨.ready p, rfl, .inr ⟨p, rfl⟩⟩
    | returns => exact .inr (.inl rfl)
    | raises => exact .inr (.inr rfl)
  · rename_i heq
    cases heq
  · rename_i hlooping hready hstopping
    exact absurd rfl (hready q)

theorem buildNext_stopping {q : StopPoint} {reply : Attempt Unit} {next : Firecracker.Next BodyPoint}
    (h : buildNext (.stopping q) reply = some next) : (∃ q, next = .goesTo (.stopping q)) ∨ next = .raises := by
  obtain ⟨n, -, rfl⟩ := Option.map_eq_some_iff.mp h
  cases n with
  | goesTo q => exact .inl ⟨q, rfl⟩
  | returns => exact .inr rfl
  | raises => exact .inr rfl

theorem stopProcess_ne_none {process process' : Process} {q : StopPoint} {reply : Attempt Unit}
    (hne : process ≠ .none) (h : stopProcess process q reply = some process') : process' ≠ .none := by
  unfold stopProcess at h
  split at h
  · cases h
    decide
  · split at h
    · cases h
    · cases h
      exact hne
  · cases h
    decide
  · cases h
    exact hne

theorem Continuous.raises (h : s.Continuous dir) (p : BodyPoint) (process : Process) :
    ({ s with process := process, stage := if isAttached p then .unwinding .terminating else .raised } :
      Life δ μ limit).Continuous dir := by
  refine ⟨h.api, h.guest, h.made, ?_⟩
  show AtStage _ (if isAttached p then LifeStage.unwinding .terminating else .raised)
  split
  · trivial
  · trivial

theorem Continuous.builds (h : s.Continuous dir) {p : BodyPoint} {reply : Attempt Unit}
    (hstage : s.stage = .resuming p) (hst : s.buildStep dir p reply = some t) :
    t.Continuous dir ∧ t.last = s.last := by
  have hpoint := h.point
  rw [hstage] at hpoint
  obtain ⟨process, hprocess, hbind⟩ := Option.bind_eq_some_iff.mp hst
  obtain ⟨next, hnext, heq⟩ := Option.bind_eq_some_iff.mp hbind
  cases p with
  | copying | calling => exact hpoint.elim
  | sizing | preparing | closing | recording =>
    cases reply with
    | returned =>
      cases hprocess
      cases hnext
      cases heq
      exact ⟨⟨h.api, h.guest, h.made, hpoint⟩, rfl⟩
    | raised =>
      cases hprocess
      cases hnext
      cases heq
      exact ⟨h.raises _ s.process, rfl⟩
    | caught | cancelled => cases hnext
  | spawning =>
    cases reply with
    | returned =>
      cases hprocess
      cases hnext
      cases heq
      -- the new process has no guest yet, and the files are those of the last `pause`
      obtain ⟨hoperation, hreturned, -⟩ := hpoint
      have hrunning : Process.running ≠ .none := by decide
      refine ⟨⟨h.api, fun _ hnone ↦ (by cases hnone), ?_, hoperation, hreturned, hrunning, rfl⟩, rfl⟩
      show Made dir _ s.operation s.api.applied.length
      rw [hoperation]
      exact ⟨fun _ ↦ .inr rfl, fun _ ↦ (h.saved hoperation hreturned).2⟩
    | raised | cancelled =>
      cases hprocess
      cases hnext
      cases heq
      exact ⟨h.raises .spawning s.process, rfl⟩
    | caught => cases hnext
  | ready q =>
    have hsame : s.process = process := by
      cases reply with
      | returned | caught | raised | cancelled => exact Option.some.inj hprocess
    subst hsame
    rcases buildNext_ready hnext with ⟨p, rfl, hp⟩ | rfl | rfl
    · have hfirst : p ≠ firstCall := by
        rcases hp with rfl | ⟨q, rfl⟩
        · decide
        · simp [firstCall]
      simp only [if_neg hfirst] at heq
      cases heq
      refine ⟨⟨h.api, h.guest, h.made, ?_⟩, rfl⟩
      rcases hp with rfl | ⟨q, rfl⟩
      · exact hpoint
      · exact hpoint
    · simp only [if_true] at heq
      cases heq
      obtain ⟨hoperation, hreturned, hne, hnone⟩ := hpoint
      have hsaved := (h.saved hoperation hreturned).2
      exact ⟨⟨start_configuring .resume, h.guest, ⟨fun _ ↦ ⟨hnone, hsaved⟩, fun hone ↦ (by cases hone)⟩, rfl, hne⟩, rfl⟩
    · cases heq
      exact ⟨h.raises _ s.process, rfl⟩
  | stopping q =>
    rcases buildNext_stopping hnext with ⟨q', rfl⟩ | rfl
    · have hfirst : BodyPoint.stopping q' ≠ firstCall := by simp [firstCall]
      simp only [if_neg hfirst] at heq
      cases heq
      obtain ⟨hoperation, hreturned, hne, hnone⟩ := hpoint
      refine ⟨⟨h.api, h.guest, h.made, hoperation, hreturned, ?_, hnone⟩, rfl⟩
      show process ≠ .none
      exact stopProcess_ne_none hne hprocess
    · cases heq
      exact ⟨h.raises _ process, rfl⟩
  | attachingData =>
    cases reply with
    | returned | caught =>
      cases hprocess
      cases hnext
      cases heq
      exact ⟨⟨h.api, h.guest, h.made, hpoint⟩, rfl⟩
    | raised | cancelled =>
      cases hprocess
      cases hnext
      cases heq
      exact ⟨h.raises .attachingData s.process, rfl⟩
  | attachingCtrl =>
    cases reply with
    | returned =>
      cases hprocess
      cases hnext
      cases heq
      exact ⟨⟨h.api, h.guest, h.made, hpoint⟩, rfl⟩
    | raised | cancelled =>
      cases hprocess
      cases hnext
      cases heq
      exact ⟨h.raises .attachingCtrl s.process, rfl⟩
    | caught => cases hnext
  | resizing =>
    cases reply with
    | returned | caught =>
      cases hprocess
      cases hnext
      cases heq
      obtain ⟨hoperation, hreturned, hne⟩ := hpoint
      have hnot : s.operation ≠ .pause := by
        rw [hoperation]
        decide
      exact ⟨⟨h.api, h.guest, h.made, hnot, hreturned, hne⟩, rfl⟩
    | raised | cancelled =>
      cases hprocess
      cases hnext
      cases heq
      exact ⟨h.raises .resizing s.process, rfl⟩

/-- The step of the guest, if it is one. -/
def guestStep (s : Life δ μ limit) : LifeEvent δ μ limit → List (Guest δ μ × Guest δ μ)
  | .guestRuns guest => s.vmm.guest.toList.map fun before ↦ (before, guest)
  | _ => []

/-- Each of the steps goes on where the one before it ended. -/
def Leads {α : Type} : α → List (α × α) → α → Prop
  | a, [], b => a = b
  | a, (c, d) :: steps, b => a = c ∧ Leads d steps b

theorem Leads.append {α : Type} {a b c : α} {steps more : List (α × α)} (h : Leads a steps b) (hmore : Leads b more c) :
    Leads a (steps ++ more) c := by
  induction steps generalizing a with
  | nil => exact (show a = b from h) ▸ hmore
  | cons step steps ih => exact ⟨h.1, ih h.2⟩

theorem Continuous.step (h : s.Continuous dir) (heffect : Documented dir effect) {e : LifeEvent δ μ limit}
    (hst : Life.step effect dir s e = some t) : t.Continuous dir ∧ Leads s.last (guestStep s e) t.last := by
  have hsame (hnext : t.Continuous dir ∧ t.last = s.last) (hnone : guestStep s e = []) :
      t.Continuous dir ∧ Leads s.last (guestStep s e) t.last := by
    rw [hnone]
    exact ⟨hnext.1, hnext.2.symm⟩
  cases e with
  | guestRuns guest =>
    simp only [Life.step] at hst
    split at hst
    · rename_i hruns
      cases hst
      obtain ⟨before, hbefore⟩ := Option.isSome_iff_exists.mp hruns.2.1
      refine ⟨h.guest_runs guest hruns.2.1 hruns.2.2, ?_⟩
      simp only [guestStep, hbefore]
      exact ⟨(h.guest before hbefore).symm, rfl⟩
    · cases hst
  | vmmExits =>
    simp only [Life.step] at hst
    split at hst
    · cases hst
      exact hsame ⟨h.vmm_exits, rfl⟩ rfl
    · cases hst
  | pauses =>
    simp only [Life.step] at hst
    split at hst
    · cases hst
      exact hsame ⟨h.pauses ‹_›, rfl⟩ rfl
    · cases hst
  | api e => exact hsame (h.api_step heffect hst) rfl
  | callsEnd => exact hsame (h.calls_end hst) rfl
  | parks p reply =>
    simp only [Life.step] at hst
    split at hst
    · exact hsame (h.parks ‹_› hst) rfl
    · cases hst
  | resumes =>
    simp only [Life.step] at hst
    split at hst
    · rename_i hstage
      cases hst
      have hpoint := h.point
      rw [hstage] at hpoint
      exact hsame ⟨⟨h.api, h.guest, h.made, hpoint⟩, rfl⟩ rfl
    · cases hst
  | builds p reply =>
    simp only [Life.step] at hst
    split at hst
    · exact hsame (h.builds ‹_› hst) rfl
    · cases hst
  | unwinds p reply =>
    simp only [Life.step] at hst
    split at hst
    · exact hsame (h.unwinds hst) rfl
    · cases hst

theorem continuous_initial (dir : String) (guest : Guest δ μ) :
    (initial guest : Life δ μ limit).Continuous dir := by
  have hoperation : Operation.opened ≠ .pause := by decide
  have hprocess : Process.running ≠ .none := by decide
  exact ⟨start_configuring .opened, fun _ hguest ↦ (Option.some.inj hguest).symm, ⟨rfl, rfl⟩, hoperation, rfl, hprocess⟩

theorem reachable_continuous (heffect : Documented dir effect) {guest : Guest δ μ}
    (h : (machine effect dir limit guest).Reachable s) : s.Continuous dir :=
  h.invariant (continuous_initial dir guest) fun _ _ _ _ hi hst ↦ (hi.step heffect hst).1

theorem run_leads (heffect : Documented dir effect) {guest : Guest δ μ}
    (h : (machine effect dir limit guest).Reachable s) {es : List (LifeEvent δ μ limit)}
    (hrun : (machine effect dir limit guest).run s es = some t) :
    Leads s.last ((machine effect dir limit guest).trace guestStep s es) t.last := by
  induction es generalizing s with
  | nil =>
    simp only [Machine.run, Option.some.injEq] at hrun
    rw [hrun]
    rfl
  | cons e es ih =>
    obtain ⟨u, hu, hrest⟩ := Option.bind_eq_some_iff.mp hrun
    have hfirst := ((reachable_continuous heffect h).step heffect hu).2
    rw [Machine.trace, hu]
    exact hfirst.append (ih (h.step hu) hrest)

/-- Where firecracker does what it documents, each step of a guest goes on where the one before it ended, however often
its room is paused and resumed.  A kept room has no process, and its two files are of one snapshot, the guest as its
last step left it; no second firecracker is started while one runs; and a room that a session has again has that guest,
and it is not paused. -/
theorem guest_continues (effect : Effect δ μ) (dir : String) (heffect : Documented dir effect) (limit : Nat)
    (guest : Guest δ μ) {es : List (LifeEvent δ μ limit)} {s : Life δ μ limit}
    (hrun : (machine effect dir limit guest).run (initial guest) es = some s) :
    Leads guest ((machine effect dir limit guest).trace guestStep (initial guest) es) s.last ∧
      (s.stage = .kept → s.process = .gone ∧ s.Saved dir) ∧
      (s.stage = .resuming .spawning → s.process = .gone) ∧
      (s.stage = .room → s.vmm.guest = some s.last ∧ s.vmm.paused = false) := by
  have hcontinuous := reachable_continuous heffect (.of_run hrun)
  have hpoint := hcontinuous.point
  refine ⟨run_leads heffect .init hrun, fun hstage ↦ ?_, fun hstage ↦ ?_, fun hstage ↦ ?_⟩
  · rw [hstage] at hpoint
    exact ⟨hpoint.2.2, (hcontinuous.saved hpoint.1 hpoint.2.1).2⟩
  · rw [hstage] at hpoint
    exact hpoint.2.2
  · obtain ⟨hguest, hpaused, -⟩ := hcontinuous.running hstage
    exact ⟨hguest, hpaused⟩

end

/-! ## A room that comes back -/

end Life

/-- A member that is a text. -/
def textOf (body : Body) (name : String) : Option String :=
  match body.lookup name with
  | some (.scalar (.text s)) => some s
  | _ => none

/-- A text in the object that is a member. -/
def textIn (body : Body) (name inner : String) : Option String :=
  match body.lookup name with
  | some (.object members) =>
    match members.lookup inner with
    | some (.text s) => some s
    | _ => none
  | _ => none

namespace Vmm

variable {δ μ : Type} {vmm vmm' : Vmm δ μ} {guest : Guest δ μ} {dir : String}

/-- The guest is paused. -/
def pause (vmm : Vmm δ μ) (body : Body) : Option (Vmm δ μ) :=
  if vmm.guest.isSome ∧ textOf body "state" = some "Paused" then some { vmm with paused := true } else none

/-- A guest that is paused is written to the two files. -/
def createSnapshot (vmm : Vmm δ μ) (body : Body) : Option (Vmm δ μ) :=
  match textOf body "snapshot_path", textOf body "mem_file_path", vmm.guest with
  | some snapshot, some memory, some guest =>
    if vmm.paused then
      some { vmm with files := (vmm.files.set snapshot (.devices guest.devices)).set memory (.memory guest.memory) }
    else none
  | _, _, _ => none

/-- A firecracker without a guest reads one from the two files. -/
def loadSnapshot (vmm : Vmm δ μ) (body : Body) : Option (Vmm δ μ) :=
  match textOf body "snapshot_path", textIn body "mem_backend" "backend_path", vmm.guest with
  | some snapshot, some memory, none =>
    match vmm.files.get? snapshot, vmm.files.get? memory with
    | some (.devices devices), some (.memory memory) =>
      some { vmm with guest := some ⟨devices, memory⟩, paused := false }
    | _, _ => none
  | _, _, _ => none

/-- A firecracker that does what is documented. -/
def apply : Effect δ μ := fun vmm request ↦
  request.body.bind fun body ↦
    if request.method = "PATCH" ∧ request.path = "/vm" then vmm.pause body
    else if request.method = "PUT" ∧ request.path = "/snapshot/create" then vmm.createSnapshot body
    else if request.method = "PUT" ∧ request.path = "/snapshot/load" then vmm.loadSnapshot body
    else none

theorem apply_pause : vmm.apply vmPaused = if vmm.guest.isSome then some { vmm with paused := true } else none := by
  simp [apply, vmPaused, patch, textField, pause, textOf]

theorem apply_create : vmm.apply (snapshotCreate dir) =
    vmm.guest.bind fun guest ↦
      if vmm.paused then
        some { vmm with
          files := (vmm.files.set (fileIn dir "snapshot") (.devices guest.devices)).set (fileIn dir "memory")
            (.memory guest.memory) }
      else none := by
  cases hguest : vmm.guest with
  | none => simp [apply, snapshotCreate, put, textField, createSnapshot, textOf, hguest]
  | some guest => simp [apply, snapshotCreate, put, textField, createSnapshot, textOf, List.lookup_cons, hguest]

theorem apply_load (hnone : vmm.guest = none) (h : vmm.Holds dir guest) :
    vmm.apply (snapshotLoad dir) = some { vmm with guest := some guest, paused := false } := by
  simp [apply, snapshotLoad, put, textField, loadSnapshot, textOf, textIn, List.lookup_cons, hnone, h.1, h.2]

theorem fileIn_ne : fileIn dir "snapshot" ≠ fileIn dir "memory" := by
  intro heq
  have hlists := congrArg String.toList heq
  simp [fileIn, String.toList_append] at hlists

theorem holds_set (vmm : Vmm δ μ) (dir : String) (guest : Guest δ μ) :
    ({ vmm with
      files := (vmm.files.set (fileIn dir "snapshot") (.devices guest.devices)).set (fileIn dir "memory")
        (.memory guest.memory) } : Vmm δ μ).Holds dir guest := by
  constructor
  · show Dict.get? _ (fileIn dir "snapshot") = _
    rw [Dict.get?_set, Function.update_of_ne fileIn_ne, Dict.get?_set, Function.update_self]
  · show Dict.get? _ (fileIn dir "memory") = _
    rw [Dict.get?_set, Function.update_self]

theorem documented_apply (dir : String) : Documented dir (apply : Effect δ μ) where
  pauses happly := by
    rw [apply_pause] at happly
    split at happly
    · cases happly
      exact ⟨rfl, rfl⟩
    · cases happly
  creates {vmm _} happly := by
    rw [apply_create] at happly
    obtain ⟨guest, hguest, hcreate⟩ := Option.bind_eq_some_iff.mp happly
    split at hcreate
    · cases hcreate
      exact ⟨rfl, rfl, guest, hguest, vmm.holds_set dir guest⟩
    · cases hcreate
  loads happly hnone hholds := by
    rw [apply_load hnone hholds] at happly
    cases happly
    exact ⟨rfl, rfl⟩

end Vmm

namespace Life

section

variable {δ μ : Type} {limit : Nat} {dir : String} {s t : Life δ μ limit} {guest : Guest δ μ}
  {answer : ServerAnswer limit}

def callEvents (answer : ServerAnswer limit) (call : Request Body) : List (LifeEvent δ μ limit) :=
  (ApiPath.returning jsonBody answer call).map .api

/-- The room is paused. -/
def goes (dir : String) (answer : ServerAnswer limit) : List (LifeEvent δ μ limit) :=
  [.pauses] ++ (callEvents answer vmPaused ++ (callEvents answer (snapshotCreate dir) ++
    [.callsEnd, .parks .terminating (.returned ()), .parks .waiting (.returned ())]))

/-- `resume`, up to its call.  Firecracker is not there at once. -/
def respawns : List (LifeEvent δ μ limit) :=
  [.resumes, .builds .sizing (.returned ()), .builds .preparing (.returned ()), .builds .spawning (.returned ()),
    .builds .closing (.returned ()), .builds .recording (.returned ()), .builds (.ready .looping) (.returned ()),
    .builds (.ready .connecting) .caught, .builds (.ready .pausing) (.returned ()),
    .builds (.ready .looping) (.returned ()), .builds (.ready .connecting) (.returned ()),
    .builds (.ready .disconnecting) (.returned ())]

/-- The room is resumed. -/
def comesBack (dir : String) (answer : ServerAnswer limit) : List (LifeEvent δ μ limit) :=
  respawns ++ (callEvents answer (snapshotLoad dir) ++ [.callsEnd, .builds .attachingData (.returned ()),
    .builds .attachingCtrl (.returned ()), .builds .resizing (.returned ())])

/-- A call that comes through. -/
theorem run_call {start : Guest δ μ} {call : Request Body} (done rest : List (Request Body)) {vmm : Vmm δ μ}
    (hcall : IsCall call) (hok : answer.response.ok = true) (hruns : s.process = .running)
    (hapi : s.api = ⟨done, call :: rest, .connecting, none, done⟩) (happly : s.vmm.apply call = some vmm) :
    (machine Vmm.apply dir limit start).run s (callEvents answer call) =
      some { s with api := ⟨done ++ [call], rest, ApiPath.nextPoint rest, none, done ++ [call]⟩, vmm := vmm } := by
  simp only [callEvents, ApiPath.returning, List.map_cons, List.map_nil, Machine.run, machine, step, apiStep, hapi,
    ApiPath.step, ApiConnection.fresh, Option.map_some, Option.bind_some, if_true, List.length_nil, Nat.zero_add,
    List.take_length, ApiPath.serve, Option.isNone_none, true_and, ApiPath.readRequest_callBytes hcall, hok,
    Bool.false_eq_true, if_false, hruns, List.drop_left, happly, ApiPath.read, ApiPath.readResponse_bytes,
    ApiPath.request]

/-- A room whose guest runs. -/
structure Running (s : Life δ μ limit) (guest : Guest δ μ) : Prop where
  stage : s.stage = .room
  process : s.process = .running
  guest : s.vmm.guest = some guest
  paused : s.vmm.paused = false

/-- A room with a snapshot of the guest. -/
structure Parked (dir : String) (s : Life δ μ limit) (guest : Guest δ μ) : Prop where
  stage : s.stage = .kept
  process : s.process = .gone
  holds : s.vmm.Holds dir guest

theorem run_goes {start : Guest δ μ} (hok : answer.response.ok = true) (h : s.Running guest) :
    ∃ t, (machine Vmm.apply dir limit start).run s (goes dir answer) = some t ∧ t.Parked dir guest := by
  obtain ⟨stage, operation, api, process, ⟨guest', paused, files⟩, last⟩ := s
  obtain ⟨rfl, rfl, rfl, rfl⟩ := h
  obtain ⟨hpatch, hcreate⟩ := List.forall_mem_cons.mp (isCall_pauseCalls dir)
  let saved := (files.set (fileIn dir "snapshot") (.devices guest.devices)).set (fileIn dir "memory")
    (.memory guest.memory)
  have hbegins : (machine Vmm.apply dir limit start).run
        ⟨.room, operation, api, .running, ⟨some guest, false, files⟩, last⟩ [.pauses] =
      some ⟨.pausing, .pause, ⟨[], [vmPaused, snapshotCreate dir], .connecting, none, []⟩, .running,
        ⟨some guest, false, files⟩, last⟩ := rfl
  have hpaused : (machine Vmm.apply dir limit start).run
        ⟨.pausing, .pause, ⟨[], [vmPaused, snapshotCreate dir], .connecting, none, []⟩, .running,
          ⟨some guest, false, files⟩, last⟩ (callEvents answer vmPaused) =
      some ⟨.pausing, .pause, ⟨[vmPaused], [snapshotCreate dir], .connecting, none, [vmPaused]⟩, .running,
        ⟨some guest, true, files⟩, last⟩ :=
    run_call [] [snapshotCreate dir] hpatch hok rfl rfl Vmm.apply_pause
  have hcreated : (machine Vmm.apply dir limit start).run
        ⟨.pausing, .pause, ⟨[vmPaused], [snapshotCreate dir], .connecting, none, [vmPaused]⟩, .running,
          ⟨some guest, true, files⟩, last⟩ (callEvents answer (snapshotCreate dir)) =
      some ⟨.pausing, .pause, ⟨pauseCalls dir, [], .returned, none, pauseCalls dir⟩, .running,
        ⟨some guest, true, saved⟩, last⟩ :=
    run_call [vmPaused] [] (hcreate _ List.mem_cons_self) hok rfl rfl Vmm.apply_create
  have hends : (machine Vmm.apply dir limit start).run
        ⟨.pausing, .pause, ⟨pauseCalls dir, [], .returned, none, pauseCalls dir⟩, .running, ⟨some guest, true, saved⟩,
          last⟩ [.callsEnd, .parks .terminating (.returned ()), .parks .waiting (.returned ())] =
      some ⟨.kept, .pause, ⟨pauseCalls dir, [], .returned, none, pauseCalls dir⟩, .gone, ⟨some guest, true, saved⟩,
        last⟩ := rfl
  refine ⟨⟨.kept, .pause, ⟨pauseCalls dir, [], .returned, none, pauseCalls dir⟩, .gone, ⟨some guest, true, saved⟩,
    last⟩, ?_, rfl, rfl, Vmm.holds_set ⟨some guest, true, files⟩ dir guest⟩
  rw [goes, Machine.run_append _ hbegins, Machine.run_append _ hpaused, Machine.run_append _ hcreated, hends]

theorem run_comesBack {start : Guest δ μ} (hok : answer.response.ok = true) (h : s.Parked dir guest) :
    ∃ t, (machine Vmm.apply dir limit start).run s (comesBack dir answer) = some t ∧ t.Running guest := by
  obtain ⟨stage, operation, api, process, ⟨guest', paused, files⟩, last⟩ := s
  obtain ⟨rfl, rfl, hholds⟩ := h
  have hcall : IsCall (snapshotLoad dir) := isCall_resumeCalls dir _ List.mem_cons_self
  have hbegins : (machine Vmm.apply dir limit start).run
        ⟨.kept, operation, api, .gone, ⟨guest', paused, files⟩, last⟩ respawns =
      some ⟨.loading, .resume, ⟨[], [snapshotLoad dir], .connecting, none, []⟩, .running, ⟨none, false, files⟩,
        last⟩ := by
    simp [respawns, Machine.run, machine, step, buildStep, buildProcess, buildNext, Firecracker.plainNext,
      Firecracker.readyNext, afterBuild, firstCall, ApiPath.start, ApiPath.nextPoint, Operation.calls, resumeCalls]
  have hloaded : (machine Vmm.apply dir limit start).run
        ⟨.loading, .resume, ⟨[], [snapshotLoad dir], .connecting, none, []⟩, .running, ⟨none, false, files⟩, last⟩
        (callEvents answer (snapshotLoad dir)) =
      some ⟨.loading, .resume, ⟨resumeCalls dir, [], .returned, none, resumeCalls dir⟩, .running,
        ⟨some guest, false, files⟩, last⟩ :=
    run_call [] [] hcall hok rfl rfl (Vmm.apply_load rfl hholds)
  have hends : (machine Vmm.apply dir limit start).run
        ⟨.loading, .resume, ⟨resumeCalls dir, [], .returned, none, resumeCalls dir⟩, .running,
          ⟨some guest, false, files⟩, last⟩
        [.callsEnd, .builds .attachingData (.returned ()), .builds .attachingCtrl (.returned ()),
          .builds .resizing (.returned ())] =
      some ⟨.room, .resume, ⟨resumeCalls dir, [], .returned, none, resumeCalls dir⟩, .running,
        ⟨some guest, false, files⟩, last⟩ := rfl
  refine ⟨⟨.room, .resume, ⟨resumeCalls dir, [], .returned, none, resumeCalls dir⟩, .running,
    ⟨some guest, false, files⟩, last⟩, ?_, rfl, rfl, rfl, rfl⟩
  rw [comesBack, Machine.run_append _ hbegins, Machine.run_append _ hloaded, hends]

end

/-- The guest takes a step before its room is paused, and one when it is back. -/
def stepsTwice : List (LifeEvent Nat Nat 65536) :=
  [.guestRuns ⟨1, 5⟩] ++ (goes "/run/ubuntu-5f4e3d2c1b0a" ApiPath.noContent ++
    (comesBack "/run/ubuntu-5f4e3d2c1b0a" ApiPath.noContent ++ [.guestRuns ⟨2, 7⟩]))

def smallMachine : Machine (Life Nat Nat 65536) (LifeEvent Nat Nat 65536) :=
  machine Vmm.apply "/run/ubuntu-5f4e3d2c1b0a" 65536 ⟨0, 0⟩

theorem stepsTwice_continues : ∃ s, smallMachine.run (initial ⟨0, 0⟩) stepsTwice = some s ∧ s.stage = .room ∧
    s.vmm.guest = some ⟨2, 7⟩ ∧ Leads ⟨0, 0⟩ (smallMachine.trace guestStep (initial ⟨0, 0⟩) stepsTwice) ⟨2, 7⟩ := by
  have hok : ApiPath.noContent.response.ok = true := by decide
  have hfirst : smallMachine.run (initial ⟨0, 0⟩) [.guestRuns ⟨1, 5⟩] =
      some { initial ⟨0, 0⟩ with vmm := ⟨some ⟨1, 5⟩, false, .empty⟩, last := ⟨1, 5⟩ } := rfl
  have hgoes : ∃ t, smallMachine.run { initial ⟨0, 0⟩ with vmm := ⟨some ⟨1, 5⟩, false, .empty⟩, last := ⟨1, 5⟩ }
      (goes "/run/ubuntu-5f4e3d2c1b0a" ApiPath.noContent) = some t ∧ t.Parked "/run/ubuntu-5f4e3d2c1b0a" ⟨1, 5⟩ :=
    run_goes hok ⟨rfl, rfl, rfl, rfl⟩
  obtain ⟨kept, hgoes, hparked⟩ := hgoes
  have hcomes : ∃ t, smallMachine.run kept (comesBack "/run/ubuntu-5f4e3d2c1b0a" ApiPath.noContent) = some t ∧
      t.Running ⟨1, 5⟩ := run_comesBack hok hparked
  obtain ⟨room, hcomes, hrunning⟩ := hcomes
  have hlast : smallMachine.run room [.guestRuns ⟨2, 7⟩] =
      some { room with vmm := { room.vmm with guest := some ⟨2, 7⟩ }, last := ⟨2, 7⟩ } := by
    simp [Machine.run, smallMachine, machine, step, hrunning.process, hrunning.guest, hrunning.paused]
  have hrun : smallMachine.run (initial ⟨0, 0⟩) stepsTwice =
      some { room with vmm := { room.vmm with guest := some ⟨2, 7⟩ }, last := ⟨2, 7⟩ } := by
    rw [stepsTwice, Machine.run_append _ hfirst, Machine.run_append _ hgoes, Machine.run_append _ hcomes, hlast]
  refine ⟨_, hrun, hrunning.stage, rfl, ?_⟩
  exact (guest_continues Vmm.apply "/run/ubuntu-5f4e3d2c1b0a" (Vmm.documented_apply _) 65536 ⟨0, 0⟩ hrun).1

end Life

end Keycard.EndToEnd
