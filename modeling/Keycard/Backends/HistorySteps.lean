import Keycard.Backends.History

/-!
# What one step of a history does

For each part of a history, everything a step can do to it, so that no invariant has to go through
the steps again.
-/

open Reasoning

namespace Keycard.Firecracker

namespace History

variable {root : RuntimeDir} {s t : History} {e : HostEvent}

theorem createStep_some {n : Nat} {at_ : Creating} {f : Creation → Option History}
    (h : s.createStep n at_ f = some t) :
    ∃ creation, s.instances[n]? = some creation ∧ s.keycardAlive creation.keycard = true ∧
      s.creating n = at_ ∧ f creation = some t := by
  unfold createStep at h
  split at h
  · rename_i creation hn
    split at h
    · rename_i hif
      exact ⟨creation, hn, hif.1, hif.2, h⟩
    · cases h
  · cases h

/-- What a step does, with all that its guard has checked. -/
inductive Effect (root : RuntimeDir) (s : History) : HostEvent → History → Prop
  | starts {pid : Pid} {argv0 binary : String} (hfree : s.processes.get? pid = none) :
      Effect root s (.starts pid argv0 binary) (s.start pid argv0 binary)
  | otherStarts {pid : Pid} {argv0 : String} (hfree : s.processes.get? pid = none) :
      Effect root s (.otherStarts pid argv0) { s with processes := s.processes.set pid ⟨argv0, .other⟩ }
  | threadStarts {tid pid : Pid} {argv0 : String} (hfree : s.processes.get? tid = none) :
      Effect root s (.threadStarts tid pid) { s with processes := s.processes.set tid ⟨argv0, .thread pid⟩ }
  | threadEnds {tid pid : Pid} {argv0 : String} (hat : s.processes.get? tid = some ⟨argv0, .thread pid⟩) :
      Effect root s (.threadEnds tid) { s with processes := s.processes.erase tid }
  | exits {pid : Pid} {entry : ProcEntry} (hat : s.processes.get? pid = some entry)
      (hruns : entry.role.runs = true) :
      Effect root s (.exits pid) { s with processes := s.processes.set pid ⟨"", .zombie⟩ }
  | waits {pid : Pid} {argv0 : String} (hat : s.processes.get? pid = some ⟨argv0, .zombie⟩) :
      Effect root s (.waits pid) { s with processes := s.processes.erase pid }
  | sweeps {k : Nat} {reaping : Reaping} (halive : s.keycardAlive k = true)
      (hnext : s.sweepNext root (s.reaping k) = some reaping) :
      Effect root s (.sweeps k) (s.setReaping k reaping)
  | removes {k : Nat} {name : String} {rest : List String} {p : Path}
      (hat : s.reaping k = .looking name .removing rest) (hbelow : root.path ++ [name] <+: p)
      (hcan : s.canRemove p = true) : Effect root s (.removes k p) { s with files := s.files.erase p }
  | rmtreeEnds {k : Nat} {name : String} {rest : List String}
      (hat : s.reaping k = .looking name .removing rest) :
      Effect root s (.rmtreeEnds k) (s.setReaping k (.between rest))
  | returns {k : Nat} (hat : s.reaping k = .between []) :
      Effect root s (.returns k) (s.setReaping k .returned)
  | creates {k : Nat} {roomName uuid : String} (halive : s.keycardAlive k = true)
      (hfresh : s.fresh (creation root k roomName uuid)) :
      Effect root s (.creates k roomName uuid) (s.create (creation root k roomName uuid))
  | makesParent {n : Nat} {made : Creation} {p : Path} (hn : s.instances[n]? = some made)
      (hp : p ∈ made.parents) (hnone : s.files.get? p = none) (hparent : s.files.isDir p.dropLast = true) :
      Effect root s (.makesParent n p) { s with files := s.files.set p .dir }
  | makes {n : Nat} {made : Creation} (hn : s.instances[n]? = some made)
      (halive : s.keycardAlive made.keycard = true) (hstage : s.creating n = .making)
      (hnone : s.files.get? made.dir = none) (hparent : s.files.isDir made.dir.dropLast = true) :
      Effect root s (.makes n) ({ s with files := s.files.set made.dir .dir }.setCreating n .made)
  | opensOwner {n : Nat} {made : Creation} (hn : s.instances[n]? = some made)
      (halive : s.keycardAlive made.keycard = true) (hstage : s.creating n = .made)
      (hdir : s.files.isDir made.dir = true) :
      Effect root s (.opensOwner n)
        ({ s with files := s.files.set (ownerPid made.dir) emptyFile }.setCreating n .opened)
  | writesOwner {n : Nat} {made : Creation} {keycard : KeycardProcess} (hn : s.instances[n]? = some made)
      (halive : s.keycardAlive made.keycard = true) (hstage : s.creating n = .opened)
      (hkeycard : s.keycards[made.keycard]? = some keycard) :
      Effect root s (.writesOwner n)
        ({ s with files := s.overwrite (ownerPid made.dir) (pidFile keycard.pid) }.setCreating n .created)
  | puts {n : Nat} {made : Creation} {name : String} (hn : s.instances[n]? = some made)
      (halive : s.keycardAlive made.keycard = true ∨ s.vmmAlive n = true)
      (hstage : s.creating n = .created) (hname : name ∈ instanceFiles)
      (hdir : s.files.isDir made.dir = true) :
      Effect root s (.puts n name) { s with files := s.files.set (made.dir ++ [name]) emptyFile }
  | spawns {n : Nat} {pid : Pid} {made : Creation} {keycard : KeycardProcess} (hn : s.instances[n]? = some made)
      (halive : s.keycardAlive made.keycard = true) (hstage : s.creating n = .created)
      (hkeycard : s.keycards[made.keycard]? = some keycard) (hvmm : s.vmm n = none)
      (hfree : s.processes.get? pid = none) :
      Effect root s (.spawns n pid) (s.spawn n pid keycard.binary)
  | opensVmm {n : Nat} {pid : Pid} {made : Creation} (hn : s.instances[n]? = some made)
      (halive : s.keycardAlive made.keycard = true) (hstage : s.creating n = .created)
      (hvmm : s.vmm n = some ⟨pid, .unrecorded⟩) (hdir : s.files.isDir made.dir = true) :
      Effect root s (.opensVmm n)
        ({ s with files := s.files.set (vmmPid made.dir) emptyFile }.setVmm n ⟨pid, .opened⟩)
  | writesVmm {n : Nat} {pid : Pid} {made : Creation} (hn : s.instances[n]? = some made)
      (halive : s.keycardAlive made.keycard = true) (hstage : s.creating n = .created)
      (hvmm : s.vmm n = some ⟨pid, .opened⟩) :
      Effect root s (.writesVmm n)
        ({ s with files := s.overwrite (vmmPid made.dir) (pidFile pid) }.setVmm n ⟨pid, .recorded⟩)
  | discards {n : Nat} {made : Creation} {p : Path} (hn : s.instances[n]? = some made)
      (halive : s.keycardAlive made.keycard = true) (hbelow : made.dir <+: p)
      (hcan : s.canRemove p = true) : Effect root s (.discards n p) { s with files := s.files.erase p }

theorem step_effect (h : s.step root e = some t) : Effect root s e t := by
  cases e with
  | starts pid argv0 binary =>
    simp only [step] at h
    split at h <;> cases h
    exact .starts ‹_›
  | otherStarts pid argv0 =>
    simp only [step] at h
    split at h <;> cases h
    exact .otherStarts ‹_›
  | threadStarts tid pid =>
    simp only [step, threadStart] at h
    split at h
    · split at h <;> cases h
      rename_i hif
      exact .threadStarts hif.2
    · cases h
  | threadEnds tid =>
    simp only [step, threadEnd] at h
    split at h <;> cases h
    exact .threadEnds ‹_›
  | exits pid =>
    simp only [step, exit] at h
    split at h
    · split at h <;> cases h
      rename_i hat hif
      exact .exits hat hif.1
    · cases h
  | waits pid =>
    simp only [step, wait] at h
    split at h <;> cases h
    exact .waits ‹_›
  | sweeps k =>
    simp only [step, sweepStep] at h
    split at h
    · obtain ⟨reaping, hnext, hst⟩ := Option.map_eq_some_iff.mp h
      cases hst
      exact .sweeps ‹_› hnext
    · cases h
  | removes k q =>
    simp only [step, removeStep] at h
    split at h
    · split at h <;> cases h
      rename_i hat hif
      exact .removes hat hif.2.1 hif.2.2
    · cases h
  | rmtreeEnds k =>
    simp only [step, rmtreeEndStep] at h
    split at h
    · split at h <;> cases h
      exact .rmtreeEnds ‹_›
    · cases h
  | returns k =>
    simp only [step] at h
    split at h <;> cases h
    rename_i hif
    exact .returns hif.2
  | creates k roomName uuid =>
    simp only [step] at h
    split at h <;> cases h
    rename_i hif
    exact .creates hif.1 hif.2.2
  | makesParent n q =>
    obtain ⟨made, hn, -, -, hst⟩ := createStep_some h
    split at hst <;> cases hst
    rename_i hif
    exact .makesParent hn hif.1 hif.2.1 hif.2.2
  | makes n =>
    obtain ⟨made, hn, halive, hstage, hst⟩ := createStep_some h
    split at hst <;> cases hst
    rename_i hif
    exact .makes hn halive hstage hif.1 hif.2
  | opensOwner n =>
    obtain ⟨made, hn, halive, hstage, hst⟩ := createStep_some h
    split at hst <;> cases hst
    rename_i hif
    exact .opensOwner hn halive hstage hif.1
  | writesOwner n =>
    obtain ⟨made, hn, halive, hstage, hst⟩ := createStep_some h
    split at hst <;> cases hst
    exact .writesOwner hn halive hstage ‹_›
  | puts n name =>
    simp only [step] at h
    split at h
    · rename_i made hn
      split at h <;> cases h
      rename_i hif
      exact .puts hn hif.1 hif.2.1 hif.2.2.1 hif.2.2.2.1
    · cases h
  | spawns n pid =>
    obtain ⟨made, hn, halive, hstage, hst⟩ := createStep_some h
    split at hst
    · split at hst <;> cases hst
      rename_i hif
      exact .spawns hn halive hstage ‹_› hif.1 hif.2
    · cases hst
  | opensVmm n =>
    obtain ⟨made, hn, halive, hstage, hst⟩ := createStep_some h
    split at hst
    · split at hst <;> cases hst
      rename_i hif
      exact .opensVmm hn halive hstage ‹_› hif.1
    · cases hst
  | writesVmm n =>
    obtain ⟨made, hn, halive, hstage, hst⟩ := createStep_some h
    split at hst
    · cases hst
      exact .writesVmm hn halive hstage ‹_›
    · cases hst
  | discards n q =>
    obtain ⟨made, hn, halive, -, hst⟩ := createStep_some h
    split at hst <;> cases hst
    rename_i hif
    exact .discards hn halive hif.1 hif.2

/-! ## The tree -/

/-- What is in a file: nothing, or a pid. -/
inductive Written : File → Prop
  | empty : Written ⟨some "", false⟩
  | pid (pid : Pid) : Written ⟨some (pidText pid), false⟩

/-- Who puts a node at a path where it was not, and which. -/
inductive Writes (s t : History) : Path → Node File → Prop
  | parent {n : Nat} {made : Creation} {p : Path} (hn : s.instances[n]? = some made)
      (hp : p ∈ made.parents) (hnone : s.files.get? p = none) (hparent : s.files.isDir p.dropLast = true) :
      Writes s t p .dir
  | own {n : Nat} {made : Creation} (hn : s.instances[n]? = some made)
      (halive : s.keycardAlive made.keycard = true) (hmade : t.creating n = .made)
      (hnone : s.files.get? made.dir = none) (hparent : s.files.isDir made.dir.dropLast = true) :
      Writes s t made.dir .dir
  | inside {n : Nat} {made : Creation} {name : String} {file : File} (hn : s.instances[n]? = some made)
      (halive : s.keycardAlive made.keycard = true ∨ s.vmmAlive n = true)
      (hparent : s.files.isDir made.dir = true ∨ s.files.get? (made.dir ++ [name]) ≠ none)
      (hrecords : name = "vmm.pid" → t.vmm n ≠ s.vmm n) (hfile : Written file) :
      Writes s t (made.dir ++ [name]) (.file file)

theorem get?_set_cases {files : Files} {p q : Path} {node node' : Node File}
    (h : (files.set p node).get? q = some node') : files.get? q = some node' ∨ q = p ∧ node' = node := by
  rw [Dict.get?_set, Function.update_apply] at h
  split at h
  · rename_i hq
    exact .inr ⟨hq, (Option.some.inj h).symm⟩
  · exact .inl h

theorem get?_erase_cases {files : Files} {p q : Path} {node : Node File}
    (h : (files.erase p).get? q = some node) : files.get? q = some node ∧ q ≠ p := by
  rw [Dict.get?_erase, Function.update_apply] at h
  split at h
  · cases h
  · exact ⟨h, ‹_›⟩

theorem get?_overwrite_cases {p q : Path} {node node' : Node File}
    (h : (s.overwrite p node).get? q = some node') :
    s.files.get? q = some node' ∨ q = p ∧ node' = node ∧ s.files.get? p ≠ none := by
  unfold overwrite at h
  split at h
  · exact .inl h
  · rename_i hthere
    rcases get?_set_cases h with hq | ⟨hq, hnode⟩
    · exact .inl hq
    · exact .inr ⟨hq, hnode, hthere⟩

/-- A node of the new tree is from the old one, or somebody has just written it. -/
theorem Effect.files (h : Effect root s e t) {p : Path} {node : Node File}
    (hp : t.files.get? p = some node) : s.files.get? p = some node ∨ Writes s t p node := by
  cases h with
  | starts | otherStarts | threadStarts | threadEnds | exits | waits | sweeps | rmtreeEnds | returns | creates
  | spawns => exact .inl hp
  | removes | discards => exact .inl (get?_erase_cases hp).1
  | makesParent hn hparents hnone hparent =>
    rcases get?_set_cases hp with hp | ⟨rfl, rfl⟩
    · exact .inl hp
    · exact .inr (.parent hn hparents hnone hparent)
  | makes hn halive hstage hnone hparent =>
    rcases get?_set_cases hp with hp | ⟨rfl, rfl⟩
    · exact .inl hp
    · exact .inr (.own hn halive (Function.update_self ..) hnone hparent)
  | opensOwner hn halive hstage hdir =>
    rcases get?_set_cases hp with hp | ⟨rfl, rfl⟩
    · exact .inl hp
    · exact .inr (.inside hn (.inl halive) (.inl hdir) (fun hname ↦ absurd hname (by decide)) .empty)
  | writesOwner hn halive hstage hkeycard =>
    rcases get?_overwrite_cases hp with hp | ⟨rfl, rfl, hthere⟩
    · exact .inl hp
    · exact .inr (.inside hn (.inl halive) (.inr hthere) (fun hname ↦ absurd hname (by decide)) (.pid _))
  | puts hn halive hstage hname hdir =>
    rcases get?_set_cases hp with hp | ⟨rfl, rfl⟩
    · exact .inl hp
    · refine .inr (.inside hn halive (.inl hdir) ?_ .empty)
      rintro rfl
      exact absurd hname (by decide)
  | opensVmm hn halive hstage hvmm hdir =>
    rcases get?_set_cases hp with hp | ⟨rfl, rfl⟩
    · exact .inl hp
    · refine .inr (.inside hn (.inl halive) (.inl hdir) (fun _ ↦ ?_) .empty)
      dsimp only [setVmm]
      rw [Function.update_self, hvmm]
      nofun
  | writesVmm hn halive hstage hvmm =>
    rcases get?_overwrite_cases hp with hp | ⟨rfl, rfl, hthere⟩
    · exact .inl hp
    · refine .inr (.inside hn (.inl halive) (.inr hthere) (fun _ ↦ ?_) (.pid _))
      dsimp only [setVmm]
      rw [Function.update_self, hvmm]
      nofun

theorem get?_set_none {files : Files} {p q : Path} {node : Node File} (h : (files.set p node).get? q = none) :
    files.get? q = none := by
  rw [Dict.get?_set, Function.update_apply] at h
  split at h
  · cases h
  · exact h

theorem get?_overwrite_none {p q : Path} {node : Node File} (h : (s.overwrite p node).get? q = none) :
    s.files.get? q = none := by
  unfold overwrite at h
  split at h
  · exact h
  · exact get?_set_none h

theorem get?_erase_none {files : Files} {p q : Path} (h : (files.erase p).get? q = none) :
    q = p ∨ files.get? q = none := by
  rw [Dict.get?_erase, Function.update_apply] at h
  split at h
  · exact .inl ‹_›
  · exact .inr h

/-- The node at `p` is removed, by a sweep or by the keycard that made the instance. -/
inductive Removes (root : RuntimeDir) (s : History) (p : Path) : HostEvent → Prop
  | sweep {k : Nat} {name : String} {rest : List String} (hat : s.reaping k = .looking name .removing rest)
      (hbelow : root.path ++ [name] <+: p) (hcan : s.canRemove p = true) : Removes root s p (.removes k p)
  | keycard {n : Nat} {made : Creation} (hn : s.instances[n]? = some made)
      (halive : s.keycardAlive made.keycard = true) (hbelow : made.dir <+: p) (hcan : s.canRemove p = true) :
      Removes root s p (.discards n p)

theorem canRemove_dir {p q : Path} {node : Node File} (hcan : s.canRemove p = true)
    (hdir : s.files.get? p = some .dir) (hq : s.files.get? q = some node) (hbelow : p <+: q) : q = p := by
  by_contra hne
  have hhas : s.files.hasBelow p = true := FileTree.hasBelow_iff.mpr ⟨q, node, hq, hbelow, hne⟩
  rw [canRemove, hdir, hhas] at hcan
  cases hcan

theorem Removes.canRemove {p : Path} (h : Removes root s p e) : s.canRemove p = true := by
  cases h with
  | sweep _ _ hcan => exact hcan
  | keycard _ _ _ hcan => exact hcan

theorem Removes.files {p : Path} (h : Removes root s p e) (hst : Effect root s e t) :
    t.files = s.files.erase p := by
  cases h with
  | sweep => cases hst; rfl
  | keycard => cases hst; rfl

/-- A node is gone only if somebody has removed it. -/
theorem Effect.files_gone (h : Effect root s e t) {p : Path} {node : Node File}
    (hp : s.files.get? p = some node) (hgone : t.files.get? p = none) : Removes root s p e := by
  have hthere : s.files.get? p ≠ none := by
    rw [hp]
    nofun
  cases h with
  | starts | otherStarts | threadStarts | threadEnds | exits | waits | sweeps | rmtreeEnds | returns | creates
  | spawns => exact absurd hgone hthere
  | removes hat hbelow hcan =>
    rcases get?_erase_none hgone with rfl | hnone
    · exact .sweep hat hbelow hcan
    · exact absurd hnone hthere
  | discards hn halive hbelow hcan =>
    rcases get?_erase_none hgone with rfl | hnone
    · exact .keycard hn halive hbelow hcan
    · exact absurd hnone hthere
  | makesParent | makes | opensOwner | puts | opensVmm => exact absurd (get?_set_none hgone) hthere
  | writesOwner | writesVmm => exact absurd (get?_overwrite_none hgone) hthere

/-- A file stays as it is unless it is removed or somebody writes to it. -/
theorem Effect.files_kept (h : Effect root s e t) {p : Path} {node : Node File}
    (hp : s.files.get? p = some node) :
    t.files.get? p = some node ∨ Removes root s p e ∨ ∃ file, Writes s t p (.file file) := by
  cases ht : t.files.get? p with
  | none => exact .inr (.inl (h.files_gone hp ht))
  | some node' =>
    rcases h.files ht with hold | hwrites
    · exact .inl (hold.symm.trans hp)
    · cases node' with
      | file file => exact .inr (.inr ⟨file, hwrites⟩)
      | dir =>
        cases hwrites with
        | parent _ _ hnone => cases hnone.symm.trans hp
        | own _ _ _ hnone => cases hnone.symm.trans hp
      | link => cases hwrites

/-! ## Processes -/

theorem keycardAlive_iff {k : Nat} :
    s.keycardAlive k = true ↔ ∃ keycard entry, s.keycards[k]? = some keycard ∧
      s.processes.get? keycard.pid = some entry ∧ entry.role = .keycard k := by
  unfold keycardAlive
  split
  · rename_i keycard hk
    simp [hk]
  · rename_i hk
    simp [hk]

theorem vmmAlive_iff {n : Nat} :
    s.vmmAlive n = true ↔ ∃ vmm entry, s.vmm n = some vmm ∧
      s.processes.get? vmm.pid = some entry ∧ entry.role = .vmm n := by
  unfold vmmAlive
  split
  · rename_i vmm hn
    simp [hn]
  · rename_i hn
    simp [hn]

/-- An entry of `/proc` that has just come up. -/
inductive Begins (s : History) : HostEvent → Pid → ProcEntry → Prop
  | keycard {pid : Pid} {argv0 binary : String} (hfree : s.processes.get? pid = none) :
      Begins s (.starts pid argv0 binary) pid ⟨argv0, .keycard s.keycards.length⟩
  | other {pid : Pid} {argv0 : String} (hfree : s.processes.get? pid = none) :
      Begins s (.otherStarts pid argv0) pid ⟨argv0, .other⟩
  | thread {tid pid : Pid} {argv0 : String} (hfree : s.processes.get? tid = none) :
      Begins s (.threadStarts tid pid) tid ⟨argv0, .thread pid⟩
  | zombie {pid : Pid} {entry : ProcEntry} (hat : s.processes.get? pid = some entry)
      (hruns : entry.role.runs = true) : Begins s (.exits pid) pid ⟨"", .zombie⟩
  | vmm {n : Nat} {pid : Pid} {made : Creation} {keycard : KeycardProcess} (hn : s.instances[n]? = some made)
      (halive : s.keycardAlive made.keycard = true) (hkeycard : s.keycards[made.keycard]? = some keycard)
      (hvmm : s.vmm n = none) (hfree : s.processes.get? pid = none) :
      Begins s (.spawns n pid) pid ⟨keycard.binary, .vmm n⟩

theorem get?_setProcess_cases {processes : ProcTable} {pid pid' : Pid} {entry entry' : ProcEntry}
    (h : (processes.set pid entry).get? pid' = some entry') :
    processes.get? pid' = some entry' ∨ pid' = pid ∧ entry' = entry := by
  rw [Dict.get?_set, Function.update_apply] at h
  split at h
  · rename_i hpid
    exact .inr ⟨hpid, (Option.some.inj h).symm⟩
  · exact .inl h

theorem get?_eraseProcess_cases {processes : ProcTable} {pid pid' : Pid} {entry : ProcEntry}
    (h : (processes.erase pid).get? pid' = some entry) : processes.get? pid' = some entry := by
  rw [Dict.get?_erase, Function.update_apply] at h
  split at h
  · cases h
  · exact h

theorem Effect.processes (h : Effect root s e t) {pid : Pid} {entry : ProcEntry}
    (hpid : t.processes.get? pid = some entry) :
    s.processes.get? pid = some entry ∨ Begins s e pid entry := by
  cases h with
  | sweeps | rmtreeEnds | returns | creates | removes | discards | makesParent | makes | opensOwner
  | writesOwner | puts | opensVmm | writesVmm => exact .inl hpid
  | starts hfree =>
    rcases get?_setProcess_cases hpid with hpid | ⟨rfl, rfl⟩
    · exact .inl hpid
    · exact .inr (.keycard hfree)
  | otherStarts hfree =>
    rcases get?_setProcess_cases hpid with hpid | ⟨rfl, rfl⟩
    · exact .inl hpid
    · exact .inr (.other hfree)
  | threadStarts hfree =>
    rcases get?_setProcess_cases hpid with hpid | ⟨rfl, rfl⟩
    · exact .inl hpid
    · exact .inr (.thread hfree)
  | exits hat hruns =>
    rcases get?_setProcess_cases hpid with hpid | ⟨rfl, rfl⟩
    · exact .inl hpid
    · exact .inr (.zombie hat hruns)
  | threadEnds | waits => exact .inl (get?_eraseProcess_cases hpid)
  | spawns hn halive hstage hkeycard hvmm hfree =>
    rcases get?_setProcess_cases hpid with hpid | ⟨rfl, rfl⟩
    · exact .inl hpid
    · exact .inr (.vmm hn halive hkeycard hvmm hfree)

/-- An entry of `/proc` goes, or becomes that of a zombie. -/
inductive Ends (pid : Pid) (entry : ProcEntry) : HostEvent → Prop
  | exit (hruns : entry.role.runs = true) : Ends pid entry (.exits pid)
  | wait (hrole : entry.role = .zombie) : Ends pid entry (.waits pid)
  | thread {pid' : Pid} (hrole : entry.role = .thread pid') : Ends pid entry (.threadEnds pid)

/-- What runs ends by its own exit. -/
theorem Ends.exits {pid : Pid} {entry : ProcEntry} (h : Ends pid entry e) (hruns : entry.role.runs = true) :
    e = .exits pid := by
  cases h with
  | exit => rfl
  | wait hrole =>
    rw [hrole] at hruns
    cases hruns
  | thread hrole =>
    rw [hrole] at hruns
    cases hruns

theorem get?_setProcess_of_ne {processes : ProcTable} {pid pid' : Pid} {entry : ProcEntry} (hne : pid ≠ pid') :
    (processes.set pid' entry).get? pid = processes.get? pid := by
  rw [Dict.get?_set, Function.update_of_ne hne]

theorem get?_eraseProcess_of_ne {processes : ProcTable} {pid pid' : Pid} (hne : pid ≠ pid') :
    (processes.erase pid').get? pid = processes.get? pid := by
  rw [Dict.get?_erase, Function.update_of_ne hne]

/-- An entry stays as it is until it ends. -/
theorem Effect.processes_gone (h : Effect root s e t) {pid : Pid} {entry : ProcEntry}
    (hpid : s.processes.get? pid = some entry) : t.processes.get? pid = some entry ∨ Ends pid entry e := by
  have hne : ∀ {pid'}, s.processes.get? pid' = none → pid ≠ pid' := by
    rintro pid' hfree rfl
    cases hfree.symm.trans hpid
  cases h with
  | sweeps | rmtreeEnds | returns | creates | removes | discards | makesParent | makes | opensOwner
  | writesOwner | puts | opensVmm | writesVmm => exact .inl hpid
  | starts hfree | otherStarts hfree | threadStarts hfree | spawns _ _ _ _ _ hfree =>
    exact .inl ((get?_setProcess_of_ne (hne hfree)).trans hpid)
  | @exits pid' _ hat hruns =>
    by_cases hsame : pid = pid'
    · subst hsame
      cases hat.symm.trans hpid
      exact .inr (.exit hruns)
    · exact .inl ((get?_setProcess_of_ne hsame).trans hpid)
  | @threadEnds tid _ _ hat =>
    by_cases hsame : pid = tid
    · subst hsame
      cases hat.symm.trans hpid
      exact .inr (.thread rfl)
    · exact .inl ((get?_eraseProcess_of_ne hsame).trans hpid)
  | @waits pid' _ hat =>
    by_cases hsame : pid = pid'
    · subst hsame
      cases hat.symm.trans hpid
      exact .inr (.wait rfl)
    · exact .inl ((get?_eraseProcess_of_ne hsame).trans hpid)

theorem Effect.keycards (h : Effect root s e t) : s.keycards <+: t.keycards := by
  cases h with
  | starts => exact List.prefix_append _ _
  | _ => exact List.prefix_refl _

theorem Effect.keycards_new (h : Effect root s e t) {k : Nat} {keycard : KeycardProcess}
    (hk : t.keycards[k]? = some keycard) :
    s.keycards[k]? = some keycard ∨ ∃ argv0, e = .starts keycard.pid argv0 keycard.binary := by
  cases h with
  | starts hfree =>
    dsimp only [start] at hk
    rcases Nat.lt_or_ge k s.keycards.length with hlt | hge
    · rw [List.getElem?_append_left hlt] at hk
      exact .inl hk
    · rw [List.getElem?_append_right hge] at hk
      cases List.mem_singleton.mp (List.mem_of_getElem? hk)
      exact .inr ⟨_, rfl⟩
  | _ => exact .inl hk

theorem Effect.getElem?_keycards (h : Effect root s e t) {k : Nat} (hk : k < s.keycards.length) :
    t.keycards[k]? = s.keycards[k]? := by
  obtain ⟨new, hnew⟩ := h.keycards
  rw [← hnew, List.getElem?_append_left hk]

/-- A keycard that is dead stays dead. -/
theorem Effect.keycardAlive (h : Effect root s e t) {k : Nat} (hk : k < s.keycards.length)
    (halive : t.keycardAlive k = true) : s.keycardAlive k = true := by
  obtain ⟨keycard, entry, hkeycard, hentry, hrole⟩ := keycardAlive_iff.mp halive
  rw [h.getElem?_keycards hk] at hkeycard
  refine keycardAlive_iff.mpr ⟨keycard, entry, hkeycard, ?_, hrole⟩
  rcases h.processes hentry with hold | hbegins
  · exact hold
  · cases hbegins with
    | keycard =>
      cases hrole
      exact absurd hk (lt_irrefl _)
    | other | thread | zombie | vmm => cases hrole

/-- A keycard dies only by its own exit. -/
theorem Effect.keycardAlive_gone (h : Effect root s e t) {k : Nat} (halive : s.keycardAlive k = true) :
    t.keycardAlive k = true ∨ ∃ keycard, s.keycards[k]? = some keycard ∧ e = .exits keycard.pid := by
  obtain ⟨keycard, entry, hkeycard, hentry, hrole⟩ := keycardAlive_iff.mp halive
  obtain ⟨hk, -⟩ := List.getElem?_eq_some_iff.mp hkeycard
  rcases h.processes_gone hentry with hstays | hends
  · exact .inl (keycardAlive_iff.mpr ⟨keycard, entry, (h.getElem?_keycards hk).trans hkeycard, hstays, hrole⟩)
  · exact .inr ⟨keycard, hkeycard, hends.exits (by rw [hrole]; rfl)⟩

/-- `_spawn` goes on with the firecracker of instance `n`. -/
inductive Records (s t : History) (n : Nat) (made : Creation) : HostEvent → Vmm → Prop
  | spawned {pid : Pid} (hvmm : s.vmm n = none) (hfree : s.processes.get? pid = none) :
      Records s t n made (.spawns n pid) ⟨pid, .unrecorded⟩
  | opened {pid : Pid} (hvmm : s.vmm n = some ⟨pid, .unrecorded⟩)
      (hfiles : t.files = s.files.set (vmmPid made.dir) emptyFile) :
      Records s t n made (.opensVmm n) ⟨pid, .opened⟩
  | recorded {pid : Pid} (hvmm : s.vmm n = some ⟨pid, .opened⟩)
      (hfiles : t.files = s.overwrite (vmmPid made.dir) (pidFile pid)) :
      Records s t n made (.writesVmm n) ⟨pid, .recorded⟩

theorem Effect.vmm (h : Effect root s e t) {n : Nat} {vmm : Vmm} (hvmm : t.vmm n = some vmm) :
    s.vmm n = some vmm ∨ ∃ made, s.instances[n]? = some made ∧ s.keycardAlive made.keycard = true ∧
      Records s t n made e vmm := by
  cases h with
  | creates =>
    dsimp only [create] at hvmm
    rw [Function.update_apply] at hvmm
    split at hvmm
    · cases hvmm
    · exact .inl hvmm
  | spawns hm halive hstage hkeycard hnone hfree =>
    dsimp only [spawn, setVmm] at hvmm
    rw [Function.update_apply] at hvmm
    split at hvmm
    · rename_i hsame
      cases hvmm
      subst hsame
      exact .inr ⟨_, hm, halive, .spawned hnone hfree⟩
    · exact .inl hvmm
  | opensVmm hm halive hstage hat =>
    dsimp only [setVmm] at hvmm
    rw [Function.update_apply] at hvmm
    split at hvmm
    · rename_i hsame
      cases hvmm
      subst hsame
      exact .inr ⟨_, hm, halive, .opened hat rfl⟩
    · exact .inl hvmm
  | writesVmm hm halive hstage hat =>
    dsimp only [setVmm] at hvmm
    rw [Function.update_apply] at hvmm
    split at hvmm
    · rename_i hsame
      cases hvmm
      subst hsame
      exact .inr ⟨_, hm, halive, .recorded hat rfl⟩
    · exact .inl hvmm
  | _ => exact .inl hvmm

/-- Only a living keycard has a firecracker start. -/
theorem Effect.vmmAlive (h : Effect root s e t) {n : Nat} (halive : t.vmmAlive n = true) :
    s.vmmAlive n = true ∨ ∃ made pid, s.instances[n]? = some made ∧
      s.keycardAlive made.keycard = true ∧ s.vmm n = none ∧ e = .spawns n pid := by
  obtain ⟨vmm, entry, hvmm, hentry, hrole⟩ := vmmAlive_iff.mp halive
  rcases h.processes hentry with hentry | hbegins
  · rcases h.vmm hvmm with hold | ⟨made, hn, hlives, hrecords⟩
    · exact .inl (vmmAlive_iff.mpr ⟨vmm, entry, hold, hentry, hrole⟩)
    · cases hrecords with
      | spawned hnone hfree => cases hfree.symm.trans hentry
      | opened hat => exact .inl (vmmAlive_iff.mpr ⟨_, entry, hat, hentry, hrole⟩)
      | recorded hat => exact .inl (vmmAlive_iff.mpr ⟨_, entry, hat, hentry, hrole⟩)
  · cases hbegins with
    | keycard | other | thread | zombie => cases hrole
    | vmm hn hlives hkeycard hnone =>
      cases hrole
      exact .inr ⟨_, _, hn, hlives, hnone, rfl⟩

theorem Effect.vmm_kept (h : Effect root s e t) {n : Nat} {made : Creation} {vmm : Vmm}
    (hn : s.instances[n]? = some made) (hvmm : s.vmm n = some vmm) :
    ∃ vmm', t.vmm n = some vmm' ∧ vmm'.pid = vmm.pid := by
  cases h with
  | creates =>
    refine ⟨vmm, ?_, rfl⟩
    dsimp only [create]
    rw [Function.update_of_ne (Nat.ne_of_lt (List.getElem?_eq_some_iff.mp hn).1)]
    exact hvmm
  | spawns hm halive hstage hkeycard hnone =>
    refine ⟨vmm, ?_, rfl⟩
    dsimp only [spawn, setVmm]
    rw [Function.update_of_ne]
    · exact hvmm
    · rintro rfl
      cases hnone.symm.trans hvmm
  | opensVmm hm halive hstage hat | writesVmm hm halive hstage hat =>
    dsimp only [setVmm]
    rw [Function.update_apply]
    split
    · rename_i hsame
      subst hsame
      cases hat.symm.trans hvmm
      exact ⟨_, rfl, rfl⟩
    · exact ⟨vmm, hvmm, rfl⟩
  | _ => exact ⟨vmm, hvmm, rfl⟩

/-- A firecracker dies only by its own exit. -/
theorem Effect.vmmAlive_gone (h : Effect root s e t) {n : Nat} {made : Creation}
    (hn : s.instances[n]? = some made) (halive : s.vmmAlive n = true) :
    t.vmmAlive n = true ∨ ∃ vmm, s.vmm n = some vmm ∧ e = .exits vmm.pid := by
  obtain ⟨vmm, entry, hvmm, hentry, hrole⟩ := vmmAlive_iff.mp halive
  obtain ⟨vmm', hvmm', hpid⟩ := h.vmm_kept hn hvmm
  rcases h.processes_gone hentry with hstays | hends
  · exact .inl (vmmAlive_iff.mpr ⟨vmm', entry, hvmm', hpid ▸ hstays, hrole⟩)
  · exact .inr ⟨vmm, hvmm, hends.exits (by rw [hrole]; rfl)⟩

/-! ## Instances -/

/-- A call of `Instance.create` that has just begun. -/
structure Enters (root : RuntimeDir) (s : History) (e : HostEvent) (made : Creation) : Prop where
  event : ∃ k roomName uuid, e = .creates k roomName uuid ∧ made = creation root k roomName uuid
  alive : s.keycardAlive made.keycard = true
  fresh : s.fresh made

theorem Effect.instances (h : Effect root s e t) {n : Nat} {made : Creation}
    (hn : t.instances[n]? = some made) :
    s.instances[n]? = some made ∨
      n = s.instances.length ∧ Enters root s e made ∧ t.creating n = .making ∧ t.vmm n = none := by
  cases h with
  | creates halive hfresh =>
    dsimp only [create] at hn
    rcases Nat.lt_or_ge n s.instances.length with hlt | hge
    · rw [List.getElem?_append_left hlt] at hn
      exact .inl hn
    · rw [List.getElem?_append_right hge] at hn
      obtain ⟨hsingle, hmade⟩ := List.getElem?_eq_some_iff.mp hn
      have hlast : n = s.instances.length := by simp at hsingle; omega
      subst hlast
      simp only [Nat.sub_self, List.getElem_cons_zero] at hmade
      subst hmade
      exact .inr ⟨rfl, ⟨⟨_, _, _, rfl, rfl⟩, halive, hfresh⟩, Function.update_self .., Function.update_self ..⟩
  | _ => exact .inl hn

theorem Effect.getElem?_instances (h : Effect root s e t) {n : Nat} {made : Creation}
    (hn : s.instances[n]? = some made) : t.instances[n]? = some made := by
  cases h with
  | creates =>
    dsimp only [create]
    rw [List.getElem?_append_left (List.getElem?_eq_some_iff.mp hn).1]
    exact hn
  | _ => exact hn

/-- `mkdir` is not undone. -/
theorem Effect.creating (h : Effect root s e t) {n : Nat} {made : Creation}
    (hn : s.instances[n]? = some made) (hstage : s.creating n ≠ .making) : t.creating n ≠ .making := by
  cases h with
  | creates =>
    dsimp only [create]
    rw [Function.update_of_ne (Nat.ne_of_lt (List.getElem?_eq_some_iff.mp hn).1)]
    exact hstage
  | @makes m | @opensOwner m | @writesOwner m =>
    dsimp only [setCreating]
    rw [Function.update_apply]
    split
    · nofun
    · exact hstage
  | _ => exact hstage

/-- Only a living keycard gets past `mkdir`. -/
theorem Effect.creating_new (h : Effect root s e t) {n : Nat} {made : Creation}
    (hn : s.instances[n]? = some made) (hstage : t.creating n ≠ .making) :
    s.creating n ≠ .making ∨ s.keycardAlive made.keycard = true ∧ s.files.get? made.dir = none := by
  cases h with
  | creates =>
    dsimp only [create] at hstage
    rw [Function.update_of_ne (Nat.ne_of_lt (List.getElem?_eq_some_iff.mp hn).1)] at hstage
    exact .inl hstage
  | makes hm halive hat hnone =>
    dsimp only [setCreating] at hstage
    rw [Function.update_apply] at hstage
    split at hstage
    · rename_i hsame
      subst hsame
      cases hn.symm.trans hm
      exact .inr ⟨halive, hnone⟩
    · exact .inl hstage
  | opensOwner hm halive hat | writesOwner hm halive hat =>
    dsimp only [setCreating] at hstage
    rw [Function.update_apply] at hstage
    split at hstage
    · rename_i hsame
      subst hsame
      rw [hat]
      exact .inl nofun
    · exact .inl hstage
  | _ => exact .inl hstage

/-! ## Sweeps -/

/-- What comes of a look at the entry at `path`. -/
inductive Looks (db : Unicode) (s : History) (path : Path) (name : String) (rest : List String) :
    Look → Reaping → Prop
  | passesBy (hno : s.files.isDir path = false) : Looks db s path name rest .testing (.between rest)
  | tests (hdir : s.files.isDir path = true) :
      Looks db s path name rest .testing (.looking name .readingOwner rest)
  | readsOwner {pid : Int} (hpid : readPid db s.files (ownerPid path) = some pid) :
      Looks db s path name rest .readingOwner (.looking name (.checkingOwner pid) rest)
  | readsNoOwner (hno : readPid db s.files (ownerPid path) = none) :
      Looks db s path name rest .readingOwner (.looking name .readingVmm rest)
  | spares {pid : Int} (hproc : (proc s.processes pid).isSome = true) :
      Looks db s path name rest (.checkingOwner pid) (.between rest)
  | missesOwner {pid : Int} (hproc : proc s.processes pid = none) :
      Looks db s path name rest (.checkingOwner pid) (.looking name .readingVmm rest)
  | raises {pid : Int} : Looks db s path name rest (.checkingOwner pid) .raised
  | readsVmm {pid : Int} (hpid : readPid db s.files (vmmPid path) = some pid) :
      Looks db s path name rest .readingVmm (.looking name (.checkingVmm pid) rest)
  | readsNoVmm (hno : readPid db s.files (vmmPid path) = none) :
      Looks db s path name rest .readingVmm (.looking name .removing rest)
  | sparesVmm {pid : Int} (hruns : runs s.processes pid "firecracker" = true) :
      Looks db s path name rest (.checkingVmm pid) (.between rest)
  | missesVmm {pid : Int} (hruns : runs s.processes pid "firecracker" = false) :
      Looks db s path name rest (.checkingVmm pid) (.looking name .removing rest)

theorem procExists_ok {processes : ProcTable} {pid : Int} {found : Bool}
    (h : procExists processes pid = .ok found) : (proc processes pid).isSome = found := by
  unfold procExists at h
  split at h
  · cases h
  · exact Except.ok.inj h

theorem lookNext_looks {db : Unicode} {path : Path} {name : String} {rest : List String} {look : Look}
    {reaping : Reaping} (h : s.lookNext db path name rest look = some reaping) :
    Looks db s path name rest look reaping := by
  cases look with
  | testing =>
    cases h
    split
    · exact .tests ‹_›
    · exact .passesBy (by simpa using ‹¬ s.files.isDir path = true›)
  | readingOwner =>
    cases h
    split
    · exact .readsOwner ‹_›
    · exact .readsNoOwner ‹_›
  | checkingOwner pid =>
    cases h
    split
    · exact .spares (procExists_ok ‹_›)
    · exact .missesOwner (Option.isSome_eq_false_iff.mp (procExists_ok ‹_›) |> Option.isNone_iff_eq_none.mp)
    · exact .raises
  | readingVmm =>
    cases h
    split
    · exact .readsVmm ‹_›
    · exact .readsNoVmm ‹_›
  | checkingVmm pid =>
    cases h
    split
    · exact .sparesVmm ‹_›
    · exact .missesVmm (by simpa using ‹¬ runs s.processes pid "firecracker" = true›)
  | removing => cases h

theorem Looks.same {db : Unicode} {path : Path} {name name' : String} {rest rest' : List String}
    {look look' : Look} (h : Looks db s path name rest look (.looking name' look' rest')) :
    name = name' ∧ rest = rest' := by
  cases h <;> exact ⟨rfl, rfl⟩

/-- The sweep of `k` goes on, without changing the tree. -/
inductive Advances (root : RuntimeDir) (s : History) (k : Nat) : HostEvent → Reaping → Prop
  | lists (halive : s.keycardAlive k = true) (hat : s.reaping k = .starting) :
      Advances root s k (.sweeps k) (.between (s.files.names root.path))
  | picks {name : String} {rest : List String} (hat : s.reaping k = .between (name :: rest)) :
      Advances root s k (.sweeps k) (.looking name .testing rest)
  | looks {name : String} {look : Look} {rest : List String} {reaping : Reaping}
      (hat : s.reaping k = .looking name look rest)
      (hlooks : Looks root.unicode s (root.path ++ [name]) name rest look reaping) :
      Advances root s k (.sweeps k) reaping
  | ends {name : String} {rest : List String} (hat : s.reaping k = .looking name .removing rest) :
      Advances root s k (.rmtreeEnds k) (.between rest)
  | returns (hat : s.reaping k = .between []) : Advances root s k (.returns k) .returned
  | starts {pid : Pid} {argv0 binary : String} (hk : k = s.keycards.length) :
      Advances root s k (.starts pid argv0 binary) .starting

theorem sweepNext_advances {k : Nat} {reaping : Reaping} (halive : s.keycardAlive k = true)
    (h : s.sweepNext root (s.reaping k) = some reaping) :
    Advances root s k (.sweeps k) reaping := by
  cases hat : s.reaping k with
  | starting =>
    rw [hat] at h
    cases h
    exact .lists halive hat
  | between rest =>
    rw [hat] at h
    cases rest with
    | nil => cases h
    | cons first rest =>
      cases h
      exact .picks hat
  | looking first look rest =>
    rw [hat] at h
    exact .looks hat (lookNext_looks h)
  | returned | raised =>
    rw [hat] at h
    cases h

theorem Advances.files {k : Nat} {reaping : Reaping} (h : Advances root s k e reaping)
    (hst : Effect root s e t) : t.files = s.files := by
  cases h <;> cases hst <;> rfl

theorem Effect.reaping (h : Effect root s e t) (k : Nat) :
    t.reaping k = s.reaping k ∨ Advances root s k e (t.reaping k) := by
  cases h with
  | starts hfree =>
    dsimp only [start]
    rw [Function.update_apply]
    split
    · exact .inr (.starts ‹_›)
    · exact .inl rfl
  | sweeps halive hnext =>
    dsimp only [setReaping]
    rw [Function.update_apply]
    split
    · rename_i hsame
      subst hsame
      exact .inr (sweepNext_advances halive hnext)
    · exact .inl rfl
  | rmtreeEnds hat =>
    dsimp only [setReaping]
    rw [Function.update_apply]
    split
    · rename_i hsame
      subst hsame
      exact .inr (.ends hat)
    · exact .inl rfl
  | returns hat =>
    dsimp only [setReaping]
    rw [Function.update_apply]
    split
    · rename_i hsame
      subst hsame
      exact .inr (.returns hat)
    · exact .inl rfl
  | _ => exact .inl rfl

end History

end Keycard.Firecracker
