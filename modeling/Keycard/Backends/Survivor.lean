import Keycard.Backends.Attribution

/-!
# A firecracker that outlives its keycard

Once the keycard is gone only `vmm.pid` speaks for a running guest: the file must have been written, it
must still be there, and the process it names must be called what the sweep looks for.
-/

open Reasoning

namespace Keycard.Firecracker

/-! ## Reading a pid file -/

theorem readPid_eq {files : Files} (db : Unicode) (hlinkless : files.Linkless) {p : Path} (hdots : ".." ∉ p)
    {pid : Pid} (hfile : files.get? p = some (pidFile pid)) : readPid db files p = some ((pid : Nat) : Int) := by
  have hread : files.read? p = some ⟨some (pidText pid), false⟩ := by
    rw [FileTree.read?, hlinkless.stat_eq hdots, hfile]
    rfl
  rw [readPid, hread]
  simp only [Option.bind_some, int_pidText]

/-- Where all that was written are pids, nothing else is read. -/
theorem readPid_written {files : Files} (db : Unicode)
    (hwritten : ∀ {p : Path} {file : File}, files.get? p = some (.file file) → History.Written file) (p : Path) :
    readPid db files p = none ∨ ∃ pid : Pid, readPid db files p = some ((pid : Nat) : Int) := by
  cases hread : files.read? p with
  | none => exact .inl (by rw [readPid, hread])
  | some file =>
    have hnode : files.stat p = some (.file file) := by
      unfold FileTree.read? at hread
      split at hread
      · cases hread
        assumption
      · cases hread
    cases hwritten hnode with
    | empty =>
      refine .inl ?_
      rw [readPid, hread]
      rfl
    | pid pid =>
      refine .inr ⟨pid, ?_⟩
      rw [readPid, hread]
      simp only [Option.bind_some, int_pidText]

theorem no_dots_vmmPid {dir : Path} (h : ".." ∉ dir) : ".." ∉ vmmPid dir := by
  simp [vmmPid, h]

namespace History

variable {root : RuntimeDir} {s t : History} {e : HostEvent}

/-- The pid of firecracker `n` is not in its file yet. -/
def Unrecorded (s : History) (n : Nat) : Prop :=
  s.vmmAlive n = true ∧ (s.vmm n).map Vmm.recording ≠ some .recorded

instance (s : History) (n : Nat) : Decidable (s.Unrecorded n) :=
  inferInstanceAs (Decidable (_ ∧ _))

/-- The keycard with this pid, if it is one, is not in the middle of `_spawn`. -/
def BetweenSpawns (s : History) (pid : Pid) : Prop :=
  ∀ n ∈ List.range s.instances.length, ∀ made ∈ s.instances[n]?, ∀ keycard ∈ s.keycards[made.keycard]?,
    keycard.pid = pid → s.keycardAlive made.keycard = true → ¬ s.Unrecorded n

instance (s : History) (pid : Pid) : Decidable (s.BetweenSpawns pid) :=
  inferInstanceAs (Decidable (∀ _ ∈ _, _))

/-- The condition under which a running guest is safe: every keycard runs a file called firecracker, is
not killed before it has recorded the pid, and does not discard the directory of a guest that runs. -/
def Survivable (root : RuntimeDir) (s : History) (e : HostEvent) : Prop :=
  Attributable root s e ∧ match e with
    | .starts _ _ binary => pathName binary = "firecracker"
    | .exits pid => s.BetweenSpawns pid
    | .discards n _ => s.vmmAlive n = false
    | _ => True

instance (root : RuntimeDir) (s : History) (e : HostEvent) : Decidable (Survivable root s e) :=
  match e with
  | .starts _ _ _ | .exits _ | .discards _ _ | .otherStarts _ _ | .threadStarts _ _ | .threadEnds _ | .waits _
  | .sweeps _ | .removes _ _ | .rmtreeEnds _ | .returns _ | .creates _ _ _ | .makesParent _ _ | .makes _
  | .opensOwner _ | .writesOwner _ | .puts _ _ | .spawns _ _ | .opensVmm _ | .writesVmm _ =>
    inferInstanceAs (Decidable (_ ∧ _))

/-- What is on disk of the pid of a firecracker that runs. -/
def OnDisk (s : History) (made : Creation) (vmm : Vmm) : Prop :=
  match vmm.recording with
  | .unrecorded => True
  | .opened => ∃ file, s.files.get? (vmmPid made.dir) = some (.file file)
  | .recorded => s.files.get? (vmmPid made.dir) = some (pidFile vmm.pid)

/-- What a sweep at the instance of a running firecracker has found out. -/
def SeesVmm (s : History) (n : Nat) : Look → Prop
  | .checkingVmm pid => ∃ vmm, s.vmm n = some vmm ∧ pid = (vmm.pid : Nat)
  | .removing => False
  | _ => True

structure Guarded (root : RuntimeDir) (s : History) : Prop where
  attributed : s.Attributed root
  binaries : ∀ {k : Nat} {keycard : KeycardProcess}, s.keycards[k]? = some keycard →
    pathName keycard.binary = "firecracker"
  argv : ∀ {pid : Pid} {n : Nat} {entry : ProcEntry}, s.processes.get? pid = some entry → entry.role = .vmm n →
    pathName entry.argv0 = "firecracker"
  written : ∀ {p : Path} {file : File}, s.files.get? p = some (.file file) → Written file
  recorded : ∀ {n : Nat} {made : Creation}, s.instances[n]? = some made → s.vmmAlive n = true →
    s.keycardAlive made.keycard = true ∨ (s.vmm n).map Vmm.recording = some .recorded
  onDisk : ∀ {n : Nat} {made : Creation} {vmm : Vmm}, s.instances[n]? = some made → s.vmm n = some vmm →
    s.vmmAlive n = true → s.OnDisk made vmm
  looked : ∀ {k : Nat} {name : String} {look : Look} {rest : List String} {n : Nat} {made : Creation},
    s.reaping k = .looking name look rest → s.instances[n]? = some made →
      made.dir = root.path ++ [name] → s.vmmAlive n = true → s.SeesVmm n look

theorem guarded_initial (root : RuntimeDir) : (initial root).Guarded root where
  attributed := attributed_initial root
  binaries hk := by cases hk
  argv hpid := by cases hpid
  written hp := by cases (initial_get? root hp).2
  recorded hn := by cases hn
  onDisk hn := by cases hn
  looked hat := by cases hat

theorem Guarded.binaries_step (h : s.Guarded root) (hok : Survivable root s e) (hst : Effect root s e t)
    {k : Nat} {keycard : KeycardProcess} (hk : t.keycards[k]? = some keycard) :
    pathName keycard.binary = "firecracker" := by
  rcases hst.keycards_new hk with hold | ⟨argv0, rfl⟩
  · exact h.binaries hold
  · exact hok.2

theorem Guarded.argv_step (h : s.Guarded root) (hst : Effect root s e t) {pid : Pid} {n : Nat} {entry : ProcEntry}
    (hpid : t.processes.get? pid = some entry) (hrole : entry.role = .vmm n) :
    pathName entry.argv0 = "firecracker" := by
  rcases hst.processes hpid with hold | hbegins
  · exact h.argv hold hrole
  · cases hbegins with
    | keycard | other | thread | zombie => cases hrole
    | vmm hn halive hkeycard => exact h.binaries hkeycard

/-- A pid that has been recorded stays so. -/
theorem Effect.recorded (hst : Effect root s e t) {n : Nat} {made : Creation}
    (hn : s.instances[n]? = some made) (hrec : (s.vmm n).map Vmm.recording = some .recorded) :
    t.vmm n = s.vmm n := by
  cases hst with
  | creates =>
    dsimp only [create]
    rw [Function.update_of_ne (Nat.ne_of_lt (List.getElem?_eq_some_iff.mp hn).1)]
  | @spawns m pid _ _ _ _ _ _ hat | @opensVmm m pid _ _ _ _ hat | @writesVmm m pid _ _ _ _ hat =>
    have hne : n ≠ m := by
      rintro rfl
      rw [hat] at hrec
      cases hrec
    exact Function.update_of_ne hne _ _
  | _ => rfl

theorem Guarded.recorded_step (h : s.Guarded root) (hok : Survivable root s e) (hst : Effect root s e t)
    {n : Nat} {made : Creation} (hn : t.instances[n]? = some made) (halive : t.vmmAlive n = true) :
    t.keycardAlive made.keycard = true ∨ (t.vmm n).map Vmm.recording = some .recorded := by
  rcases hst.instances hn with hold | ⟨-, -, -, hnone⟩
  · have hstays : s.keycardAlive made.keycard = true → t.keycardAlive made.keycard = true ∨
        (t.vmm n).map Vmm.recording = some .recorded := by
      intro hlives
      rcases hst.keycardAlive_gone hlives with hlives | ⟨keycard, hkeycard, rfl⟩
      · exact .inl hlives
      · rcases hst.vmmAlive halive with hvmm | ⟨_, _, -, -, -, he⟩
        · have hbetween := hok.2 n (List.mem_range.mpr (List.getElem?_eq_some_iff.mp hold).1) made hold keycard
            hkeycard rfl hlives
          have hrec : (s.vmm n).map Vmm.recording = some .recorded := by
            by_contra hno
            exact hbetween ⟨hvmm, hno⟩
          exact .inr (hst.recorded hold hrec ▸ hrec)
        · cases he
    rcases hst.vmmAlive halive with hvmm | ⟨made', pid, hold', hlives, -⟩
    · rcases h.recorded hold hvmm with hlives | hrec
      · exact hstays hlives
      · exact .inr (hst.recorded hold hrec ▸ hrec)
    · cases hold.symm.trans hold'
      exact hstays hlives
  · obtain ⟨vmm, entry, hvmm, -⟩ := vmmAlive_iff.mp halive
    cases hnone.symm.trans hvmm

/-- A sweep of the pid file of an instance is a sweep of the instance. -/
theorem Attributed.eq_entry (h : s.Attributed root) {n : Nat} {made : Creation} {name file : String}
    (hn : s.instances[n]? = some made) (hbelow : root.path ++ [name] <+: made.dir ++ [file]) :
    made.dir = root.path ++ [name] := by
  rcases List.prefix_concat_iff.mp hbelow with heq | hbelow
  · exact absurd (List.append_inj' heq rfl).1.symm (h.placed hn).1
  · exact (h.placed hn).eq_entry hbelow

/-- While a firecracker runs, nobody removes its pid file, and only its keycard writes it. -/
theorem Guarded.keeps_file (h : s.Guarded root) (hok : Survivable root s e) (hst : Effect root s e t)
    {n : Nat} {made : Creation} {node : Node File} (hn : s.instances[n]? = some made)
    (halive : s.vmmAlive n = true) (hsame : t.vmm n = s.vmm n)
    (hnode : s.files.get? (vmmPid made.dir) = some node) :
    t.files.get? (vmmPid made.dir) = some node := by
  rcases hst.files_kept hnode with hkept | hremoves | ⟨file, hwrites⟩
  · exact hkept
  · cases hremoves with
    | sweep hat hbelow =>
      exact absurd (h.looked hat hn (h.attributed.eq_entry hn hbelow) halive) id
    | keycard hm _ hbelow =>
      have hdiscards : s.vmmAlive _ = false := hok.2
      rw [← h.attributed.apart.eq_of_below hn hm hbelow, halive] at hdiscards
      cases hdiscards
  · generalize hp : vmmPid made.dir = p at hwrites
    cases hwrites with
    | inside hm _ _ hrecords =>
      obtain ⟨hdir, hname⟩ := List.append_inj' hp rfl
      have hsame' : n = _ := h.attributed.apart.nested hn hm (hdir ▸ List.prefix_refl _)
      subst hsame'
      exact absurd hsame (hrecords (List.singleton_inj.mp hname).symm)

theorem Guarded.onDisk_step (h : s.Guarded root) (hok : Survivable root s e) (hst : Effect root s e t)
    {n : Nat} {made : Creation} {vmm : Vmm} (hn : t.instances[n]? = some made) (hvmm : t.vmm n = some vmm)
    (halive : t.vmmAlive n = true) : t.OnDisk made vmm := by
  rcases hst.instances hn with hold | ⟨-, -, -, hnone⟩
  · rcases hst.vmm hvmm with hbefore | ⟨made', hm, hlives, hrecords⟩
    · have halive' : s.vmmAlive n = true := by
        rcases hst.vmmAlive halive with halive' | ⟨_, _, -, -, hnone, -⟩
        · exact halive'
        · cases hnone.symm.trans hbefore
      have hdisk := h.onDisk hold hbefore halive'
      have hsame : t.vmm n = s.vmm n := hvmm.trans hbefore.symm
      unfold OnDisk at hdisk ⊢
      cases hrec : vmm.recording with
      | unrecorded => trivial
      | opened =>
        rw [hrec] at hdisk
        obtain ⟨file, hfile⟩ := hdisk
        exact ⟨file, h.keeps_file hok hst hold halive' hsame hfile⟩
      | recorded =>
        rw [hrec] at hdisk
        exact h.keeps_file hok hst hold halive' hsame hdisk
    · cases hold.symm.trans hm
      cases hrecords with
      | spawned => trivial
      | opened hat hfiles =>
        refine ⟨⟨some "", false⟩, ?_⟩
        rw [hfiles, Dict.get?_set, Function.update_self]
        rfl
      | recorded hat hfiles =>
        have halive' : s.vmmAlive n = true := by
          rcases hst.vmmAlive halive with halive' | ⟨_, _, -, -, hnone, -⟩
          · exact halive'
          · cases hnone.symm.trans hat
        obtain ⟨file, hfile⟩ := h.onDisk hold hat halive'
        change t.files.get? (vmmPid made.dir) = _
        rw [hfiles, overwrite, if_neg (by rw [hfile]; nofun), Dict.get?_set, Function.update_self]
  · cases hnone.symm.trans hvmm

/-- The sweep of a running firecracker whose keycard is gone finds its pid, and its name. -/
theorem Guarded.finds (h : s.Guarded root) {n : Nat} {made : Creation} (hn : s.instances[n]? = some made)
    (hdead : s.keycardAlive made.keycard ≠ true) (halive : s.vmmAlive n = true) :
    ∃ vmm, s.vmm n = some vmm ∧ readPid root.unicode s.files (vmmPid made.dir) = some ((vmm.pid : Nat) : Int) ∧
      runs s.processes ((vmm.pid : Nat) : Int) "firecracker" = true := by
  obtain ⟨vmm, entry, hvmm, hentry, hrole⟩ := vmmAlive_iff.mp halive
  have hrec : vmm.recording = .recorded := by
    rcases h.recorded hn halive with hlives | hrec
    · exact absurd hlives hdead
    · rw [hvmm] at hrec
      exact Option.some.inj hrec
  have hdisk := h.onDisk hn hvmm halive
  rw [OnDisk, hrec] at hdisk
  refine ⟨vmm, hvmm, readPid_eq _ h.attributed.apart.linkless (no_dots_vmmPid made.no_dots) hdisk, ?_⟩
  have hname : pathName entry.argv0 = "firecracker" := h.argv hentry hrole
  have hne : entry.argv0 ≠ "" := by
    intro hempty
    rw [hempty] at hname
    exact absurd hname (by decide)
  rw [runs, proc_natCast, hentry]
  simp [hne, hname]

/-- One look of a sweep at the instance of a running firecracker. -/
theorem Guarded.looks (h : s.Guarded root) {k n : Nat} {name : String} {look look' : Look}
    {rest rest' : List String} {made : Creation} (hat : s.reaping k = .looking name look' rest')
    (hlooks : Looks root.unicode s (root.path ++ [name]) name rest' look' (.looking name look rest))
    (hn : s.instances[n]? = some made) (hdir : made.dir = root.path ++ [name])
    (halive : s.vmmAlive n = true) : s.SeesVmm n look := by
  have howner : s.keycardAlive made.keycard = true → s.SeesOwner made look' := h.attributed.looked hat hn hdir
  cases hlooks with
  | tests | readsOwner | readsNoOwner | missesOwner => trivial
  | readsVmm hpid =>
    obtain ⟨vmm, hvmm, hread, -⟩ := h.finds hn (fun hlives ↦ howner hlives) halive
    rw [hdir, hpid] at hread
    exact ⟨vmm, hvmm, Option.some.inj hread⟩
  | readsNoVmm hno =>
    obtain ⟨vmm, hvmm, hread, -⟩ := h.finds hn (fun hlives ↦ howner hlives) halive
    rw [hdir, hno] at hread
    cases hread
  | missesVmm hruns =>
    obtain ⟨vmm, hvmm, -, hfound⟩ := h.finds hn (fun hlives ↦ howner hlives) halive
    obtain ⟨vmm', hvmm', hpid⟩ := h.looked hat hn hdir halive
    cases hvmm.symm.trans hvmm'
    rw [hpid, hfound] at hruns
    cases hruns

theorem Guarded.looked_step (h : s.Guarded root) (hst : Effect root s e t) {k n : Nat} {name : String}
    {look : Look} {rest : List String} {made : Creation} (hat : t.reaping k = .looking name look rest)
    (hn : t.instances[n]? = some made) (hdir : made.dir = root.path ++ [name])
    (halive : t.vmmAlive n = true) : t.SeesVmm n look := by
  obtain ⟨vmm', entry, hvmm', -⟩ := vmmAlive_iff.mp halive
  rcases hst.instances hn with hold | ⟨-, -, -, hnone⟩
  · rcases hst.vmmAlive halive with halive' | ⟨made', pid, hm, hlives, -, rfl⟩
    · have hsees : s.SeesVmm n look := by
        rcases hst.reaping k with hsame | hadvances
        · exact h.looked (hsame ▸ hat) hold hdir halive'
        · rw [hat] at hadvances
          cases hadvances with
          | picks => trivial
          | looks hat' hlooks =>
            obtain ⟨rfl, rfl⟩ := hlooks.same
            exact h.looks hat' hlooks hold hdir halive'
      cases look with
      | checkingVmm pid =>
        obtain ⟨vmm, hvmm, hpid⟩ := hsees
        obtain ⟨vmm'', hkept, hsame⟩ := hst.vmm_kept hold hvmm
        exact ⟨vmm'', hkept, hsame.symm ▸ hpid⟩
      | removing => exact hsees
      | _ => trivial
    · -- a keycard that spawns is alive, and no sweep got past that
      cases hold.symm.trans hm
      have hsame : t.reaping k = s.reaping k := by
        rcases hst.reaping k with hsame | hadvances
        · exact hsame
        · cases hadvances
      have howner := h.attributed.looked (hsame ▸ hat) hold hdir hlives
      cases look with
      | testing | readingOwner | checkingOwner => trivial
      | _ => exact absurd howner id
  · cases hnone.symm.trans hvmm'

theorem Guarded.step (h : s.Guarded root) (hok : Survivable root s e) (hst : Effect root s e t) :
    t.Guarded root where
  attributed := h.attributed.step hok.1 hst
  binaries hk := h.binaries_step hok hst hk
  argv hpid hrole := h.argv_step hst hpid hrole
  written hp := by
    rcases hst.files hp with hold | hwrites
    · exact h.written hold
    · cases hwrites with
      | inside hn halive hparent hrecords hfile => exact hfile
  recorded hn halive := h.recorded_step hok hst hn halive
  onDisk hn hvmm halive := h.onDisk_step hok hst hn hvmm halive
  looked hat hn hdir halive := h.looked_step hst hat hn hdir halive

theorem reachedBy_guarded (h : (hostMachine root).ReachedBy (Survivable root) s) : s.Guarded root :=
  h.invariant (guarded_initial root) fun _ _ _ _ hi hok hst ↦ hi.step hok (step_effect hst)

/-- The directory of a firecracker that has outlived its keycard is not debris. -/
def ProtectsGuests (root : RuntimeDir) (s : History) : Prop :=
  ∀ n made, s.instances[n]? = some made → s.keycardAlive made.keycard = false → s.vmmAlive n = true →
    instanceIsDebris root.unicode (fun _ ↦ false) s.files s.processes made.dir = .ok false

/-- Nor is any sweep about to take it. -/
def SweepsNoGuest (root : RuntimeDir) (s : History) : Prop :=
  ∀ n made, s.instances[n]? = some made → s.vmmAlive n = true →
    ∀ k name rest, s.reaping k = .looking name .removing rest → ¬ root.path ++ [name] <+: made.dir

/-- In a history whose steps all meet the condition, a running guest protects its directory. -/
theorem guest_protects_directory (h : (hostMachine root).ReachedBy (Survivable root) s) :
    ProtectsGuests root s ∧ SweepsNoGuest root s := by
  have hguarded := reachedBy_guarded h
  constructor
  · intro n made hn hdead halive
    obtain ⟨vmm, -, hread, hruns⟩ := hguarded.finds hn (by rw [hdead]; nofun) halive
    have hprocess : processIs root.unicode s.files s.processes (vmmPid made.dir) "firecracker" = true := by
      rw [processIs, hread]
      exact hruns
    have howner : ∃ found, pidIsAlive root.unicode s.files s.processes (ownerPid made.dir) = .ok found := by
      rcases readPid_written root.unicode hguarded.written (ownerPid made.dir) with hnone | ⟨pid, hpid⟩
      · exact ⟨false, by rw [pidIsAlive, hnone]⟩
      · exact ⟨_, by rw [pidIsAlive, hpid]; exact procExists_natCast s.processes pid⟩
    obtain ⟨found, hfound⟩ := howner
    rw [instanceIsDebris, if_neg Bool.false_ne_true, hfound, hprocess]
    split
    · rfl
    · cases found <;> rfl
  · intro n made hn halive k name rest hat hbelow
    exact hguarded.looked hat hn ((hguarded.attributed.placed hn).eq_entry hbelow) halive

/-- A keycard is killed while its guest runs. -/
def orphaned (binary : String) : List HostEvent :=
  [.starts 10 "keycard" binary, .sweeps 0, .returns 0, .creates 0 "ubuntu" "0a1b2c3d4e5f", .makes 0,
    .opensOwner 0, .writesOwner 0, .puts 0 "rootfs.ext4", .spawns 0 20, .opensVmm 0, .writesVmm 0, .exits 10,
    .waits 10]

theorem orphaned_protects_directory :
    ∃ s, (hostMachine runDir).run (hostMachine runDir).init (orphaned "/bin/firecracker") = some s ∧
      s.keycardAlive 0 = false ∧ s.vmmAlive 0 = true ∧ ProtectsGuests runDir s ∧ SweepsNoGuest runDir s := by
  have hok : (hostMachine runDir).Follows (Survivable runDir) (hostMachine runDir).init
      (orphaned "/bin/firecracker") := by
    decide
  exact ⟨_, rfl, rfl, rfl, guest_protects_directory (.run .init hok rfl)⟩

/-- The release binaries of firecracker have the version in their names. -/
theorem renamed_binary_is_debris :
    ¬ ∀ (root : RuntimeDir) (s : History), (hostMachine root).Reachable s → ProtectsGuests root s := by
  intro hall
  obtain ⟨s, hrun⟩ : ∃ s, (hostMachine runDir).run (hostMachine runDir).init
      (orphaned "/bin/firecracker-v1.7.0-x86_64") = some s := ⟨_, rfl⟩
  have hreach : (hostMachine runDir).Reachable s := .of_run hrun
  cases hrun
  have hfalse := hall runDir _ hreach 0 _ rfl rfl rfl
  exact absurd hfalse (by decide)

end History

end Keycard.Firecracker
