import Keycard.Backends.Confine

/-!
# What a confined VMM can reach

None of the rules is rejected, so a ruleset is exactly its plan: the rights that are handed out, as far as the
kernel handles them, at the places the paths lead to.  Truncation is only handled since the third version; an
older kernel does not restrict it.
-/

open Reasoning Landlock

namespace Keycard.Firecracker.Confine

variable {files : Files} {handled access : Mask} {abi : Nat}

/-! ## Masks -/

theorem handledByAbi_cases (h : handledByAbi abi = some handled) :
    (abi = 1 ∧ handled = (1 <<< 13) - 1) ∨ (abi = 2 ∧ handled = (1 <<< 14) - 1) ∨
      (abi = 3 ∧ handled = (1 <<< 15) - 1) := by
  unfold handledByAbi at h
  split at h <;> cases h
  · exact .inl ⟨rfl, rfl⟩
  · exact .inr (.inl ⟨rfl, rfl⟩)
  · exact .inr (.inr ⟨rfl, rfl⟩)

/-- The table has an entry for every version. -/
theorem exists_handled (h : abi ≠ 0) : ∃ handled, handledByAbi (min abi newestAbi) = some handled := by
  have hmin : min abi newestAbi = 1 ∨ min abi newestAbi = 2 ∨ min abi newestAbi = 3 := by
    simp only [newestAbi]
    omega
  rcases hmin with hmin | hmin | hmin <;> exact ⟨_, congrArg handledByAbi hmin⟩

/-- All that is ever handed out is handled, but for truncation on the first two versions. -/
theorem grants_handled (h : handledByAbi (min abi newestAbi) = some handled) {right : AccessFs}
    (hright : grants (execute ||| write) right = true) :
    grants handled right = true ↔ (right = .truncate → 3 ≤ abi) := by
  have hle : 3 ≤ abi ↔ min abi newestAbi = 3 := by
    simp only [newestAbi]
    omega
  rw [hle]
  rcases handledByAbi_cases h with ⟨habi, rfl⟩ | ⟨habi, rfl⟩ | ⟨habi, rfl⟩ <;> rw [habi] <;>
    revert hright <;> cases right <;> decide

/-- A rule of any plan is accepted, on a directory and, once it is narrowed, on anything else. -/
theorem not_rejected (h : handledByAbi abi = some handled) (haccess : access ∈ [execute, read, write])
    (isDir : Bool) : rejects handled isDir (narrow isDir (access &&& handled)) = none := by
  simp only [List.mem_cons, List.not_mem_nil, or_false] at haccess
  rcases handledByAbi_cases h with ⟨-, rfl⟩ | ⟨-, rfl⟩ | ⟨-, rfl⟩ <;>
    rcases haccess with rfl | rfl | rfl <;> cases isDir <;> decide

theorem Plan.access_mem {plan : Plan} {rule : Path × Mask} (h : rule ∈ plan.rules) :
    rule.2 ∈ [execute, read, write] := by
  simp only [rules, List.mem_append, List.mem_map] at h
  rcases h with (⟨_, -, rfl⟩ | ⟨_, -, rfl⟩) | ⟨_, -, rfl⟩ <;> simp

/-! ## Rules -/

theorem addRule_of_missing {ruleset : Ruleset} {path : Path} (h : files.stat path = none) :
    addRule files ruleset path access = .error (.cannotConfine path) := by
  rw [addRule, h]

theorem addRule_of_exists (hhandled : handledByAbi abi = some handled) {rules : List Rule} {path : Path}
    {node : Node File} (hstat : files.stat path = some node) (haccess : access ∈ [execute, read, write]) :
    addRule files ⟨handled, rules⟩ path (access &&& handled) =
      .ok ⟨handled, rules ++ [ruleFor files path (access &&& handled)]⟩ := by
  have haccepted := Ruleset.addRule_eq_ok ⟨handled, rules⟩ (ruleFor files path (access &&& handled))
    (not_rejected hhandled haccess (files.isDir path))
  rw [addRule, hstat]
  simp only [haccepted]

/-- The loop ends with all the rules, or at the first path that is not there. -/
theorem addRules_cases (files : Files) (hhandled : handledByAbi abi = some handled) (rules : List Rule)
    {todo : List (Path × Mask)} (htodo : ∀ rule ∈ todo, rule.2 ∈ [execute, read, write]) :
    addRules files handled ⟨handled, rules⟩ todo =
        .ok ⟨handled, rules ++ todo.map fun rule ↦ ruleFor files rule.1 (rule.2 &&& handled)⟩ ∨
      ∃ rule ∈ todo, files.stat rule.1 = none ∧
        addRules files handled ⟨handled, rules⟩ todo = .error (.cannotConfine rule.1) := by
  induction todo generalizing rules with
  | nil => exact .inl (by rw [addRules, List.map_nil, List.append_nil])
  | cons rule todo ih =>
    obtain ⟨path, access⟩ := rule
    obtain ⟨haccess, hrest⟩ := List.forall_mem_cons.mp htodo
    cases hstat : files.stat path with
    | none =>
      refine .inr ⟨_, List.mem_cons_self, hstat, ?_⟩
      rw [addRules, addRule_of_missing hstat]
    | some node =>
      rw [addRules, addRule_of_exists hhandled hstat haccess]
      dsimp only
      rcases ih (rules ++ [ruleFor files path (access &&& handled)]) hrest with hok | ⟨rule, hmem, hmissing, herr⟩
      · exact .inl (by rw [hok, List.map_cons, List.append_assoc, List.singleton_append])
      · exact .inr ⟨rule, List.mem_cons_of_mem _ hmem, hmissing, herr⟩

variable {host : Host} {createRuleset : Mask → Option Errno} {plan : Plan}

/-- Wherever its paths lead, no rule of a plan is rejected. -/
theorem buildRuleset_ne_addRule (path : Path) (errno : Errno) :
    buildRuleset host createRuleset plan ≠ .error (.addRule path errno) := by
  intro h
  unfold buildRuleset at h
  split at h
  · cases h
  · split at h
    · cases h
    · rename_i handled hhandled
      split at h
      · cases h
      · rcases addRules_cases host.files hhandled [] fun _ hmem ↦ Plan.access_mem hmem with
          hok | ⟨rule, -, -, herr⟩
        · rw [hok] at h
          cases h
        · rw [herr] at h
          cases h

theorem buildRuleset_eq_some {ruleset : Ruleset} (h : buildRuleset host createRuleset plan = .ok (some ruleset)) :
    ∃ handled, handledByAbi (min host.abi newestAbi) = some handled ∧
      ruleset = ⟨handled, plan.rules.map fun rule ↦ ruleFor host.files rule.1 (rule.2 &&& handled)⟩ := by
  unfold buildRuleset at h
  split at h
  · cases h
  · split at h
    · cases h
    · rename_i handled hhandled
      split at h
      · cases h
      · refine ⟨handled, hhandled, ?_⟩
        rcases addRules_cases host.files hhandled [] fun _ hmem ↦ Plan.access_mem hmem with
          hok | ⟨rule, -, -, herr⟩
        · rw [hok] at h
          cases h
          rfl
        · rw [herr] at h
          cases h

/-- Where confinement is required, `_preflight` has seen to it that there is a ruleset. -/
theorem required_not_unconfined {config : FirecrackerConfig} (hmode : config.confinement = .required)
    (hcheck : checkConfinement config host = .ok ()) (binary : String) (image dir : Path) :
    rulesetFor host createRuleset config binary image dir ≠ .ok none := by
  intro h
  have habi : host.abi ≠ 0 := by
    intro habi
    rw [checkConfinement, hmode, habi] at hcheck
    cases hcheck
  rw [rulesetFor, hmode, if_neg (by decide), buildRuleset, if_neg habi] at h
  split at h
  · cases h
  · split at h
    · cases h
    · unfold Except.map at h
      split at h <;> cases h

/-! ## What the rules of one instance reach -/

theorem isDir_of_isFile {path : Path} (h : isFile files path = true) : files.isDir path = false := by
  unfold isFile FileTree.read? at h
  unfold FileTree.isDir
  split at h
  · rename_i hstat
    rw [hstat]
  · cases h

theorem grants_narrow {isDir : Bool} {right : AccessFs} (h : grants (narrow isDir (access &&& handled)) right = true) :
    grants access right = true := by
  unfold narrow at h
  split at h
  · rw [grants_and, Bool.and_eq_true] at h
    exact h.1
  · rw [grants_and, grants_and, Bool.and_eq_true, Bool.and_eq_true] at h
    exact h.1.1

theorem grants_narrow_file {right : AccessFs} (h : grants (narrow false (access &&& handled)) right = true) :
    grants fileAccess right = true := by
  rw [narrow, if_neg Bool.false_ne_true, grants_and, Bool.and_eq_true] at h
  exact h.2

theorem read_of_file {right : AccessFs} (h : grants read right = true) (hfile : grants fileAccess right = true) :
    right = .readFile := by
  revert h hfile
  cases right <;> decide

theorem execute_or_read {right : AccessFs} (h : grants execute right = true) :
    right = .readFile ∨ right = .execute := by
  revert h
  cases right <;> decide

/-- What every VMM is there to reach, whichever instance it is for. -/
inductive Shared (host : Host) (binary : String) (image : Path) (right : AccessFs) (path : Path) : Prop
  | kvm (h : host.files.real kvm <+: path) (hright : grants write right = true)
  | image (h : path = host.files.real image) (hright : right = .readFile)
  | binary (h : path = host.files.real (joinpath host.cwd binary)) (hright : right = .readFile ∨ right = .execute)

variable {config : FirecrackerConfig} {binary : String} {image dir : Path} {ruleset : Ruleset}

theorem rulesetFor_eq_some (h : rulesetFor host createRuleset config binary image dir = .ok (some ruleset)) :
    buildRuleset host createRuleset (planFor (joinpath host.cwd binary) image dir []) = .ok (some ruleset) := by
  unfold rulesetFor at h
  split at h
  · cases h
  · exact h

theorem shared_of_permits (hbinary : isFile host.files (joinpath host.cwd binary) = true)
    (himage : isFile host.files image = true)
    (h : rulesetFor host createRuleset config binary image dir = .ok (some ruleset)) {right : AccessFs}
    {path : Path} (hhandled : grants ruleset.handled right = true) (hpermits : ruleset.Permits right path) :
    host.files.real dir <+: path ∧ grants write right = true ∨ Shared host binary image right path := by
  obtain ⟨handled, -, rfl⟩ := buildRuleset_eq_some (rulesetFor_eq_some h)
  obtain ⟨rule, hrule, hreach, hright⟩ := hpermits hhandled
  obtain ⟨⟨target, access⟩, hmem, rfl⟩ := List.mem_map.mp hrule
  have haccess := grants_narrow hright
  have hrules : (planFor (joinpath host.cwd binary) image dir []).rules =
      [(joinpath host.cwd binary, execute), (image, read), (dir, write), (Confine.kvm, write)] := rfl
  simp only [hrules, List.mem_cons, List.not_mem_nil, or_false, Prod.mk.injEq] at hmem
  rcases hmem with ⟨rfl, rfl⟩ | ⟨rfl, rfl⟩ | ⟨rfl, rfl⟩ | ⟨rfl, rfl⟩
  · exact .inr (.binary (hreach.eq_of_file (isDir_of_isFile hbinary)) (execute_or_read haccess))
  · have hfile := isDir_of_isFile himage
    have hnarrow : grants (narrow (host.files.isDir target) (read &&& handled)) right = true := hright
    rw [hfile] at hnarrow
    exact .inr (.image (hreach.eq_of_file hfile) (read_of_file haccess (grants_narrow_file hnarrow)))
  · exact .inl ⟨hreach.beneath, haccess⟩
  · exact .inr (.kvm hreach.beneath haccess)

/-- A directory that is there and no link is where its path leads. -/
theorem real_of_dir {root : Path} {name : String} (hname : name ≠ "..")
    (h : files.get? (files.real root ++ [name]) = some .dir) :
    files.real (root ++ [name]) = files.real root ++ [name] := by
  rw [FileTree.real, List.foldl_append]
  change (if name = ".." then _ else files.follow (files.real root ++ [name])) = _
  rw [if_neg hname, FileTree.follow, h]

/-- No two entries of a directory are beneath each other. -/
theorem not_beneath_sibling {root path : Path} {own sibling : String} (hne : own ≠ sibling)
    (h : root ++ [sibling] <+: path) : ¬ root ++ [own] <+: path := by
  intro hown
  have heq : root ++ [own] = root ++ [sibling] :=
    (List.prefix_of_prefix_length_le hown h (by simp)).eq_of_length (by simp)
  exact hne (List.singleton_inj.mp (List.append_cancel_left heq))

/-- The directory of an instance, as `mkdir` has made it. -/
def IsInstance (host : Host) (config : FirecrackerConfig) (id : String) : Prop :=
  id ≠ ".." ∧ host.files.get? (host.files.real config.runtimeDir ++ [id]) = some .dir

instance (host : Host) (config : FirecrackerConfig) (id : String) : Decidable (IsInstance host config id) :=
  inferInstanceAs (Decidable (_ ∧ _))

/-- No rule is rejected.  Outside the directory of its own instance, a VMM may only use `/dev/kvm`, read the
kernel, and read and execute the binary, also where it could reach another instance; but it may truncate what it
likes where the kernel does not handle that. -/
theorem confined_to_instance (host : Host) (createRuleset : Mask → Option Errno) (config : FirecrackerConfig)
    (binary : String) (image : Path) (own : String)
    (hbinary : isFile host.files (joinpath host.cwd binary) = true) (himage : isFile host.files image = true)
    (hown : IsInstance host config own) :
    (∀ path errno, rulesetFor host createRuleset config binary image (config.runtimeDir ++ [own]) ≠
      .error (.addRule path errno)) ∧
    ∀ ruleset, rulesetFor host createRuleset config binary image (config.runtimeDir ++ [own]) =
        .ok (some ruleset) →
      (∀ right path, grants (execute ||| write) right = true → (right = .truncate → 3 ≤ host.abi) →
        ruleset.Permits right path →
          (host.files.real (config.runtimeDir ++ [own]) <+: path ∧ grants write right = true ∨
            Shared host binary image right path) ∧
          ∀ sibling, sibling ≠ own → IsInstance host config sibling →
            host.files.real (config.runtimeDir ++ [sibling]) <+: path → Shared host binary image right path) ∧
      (host.abi < 3 → ∀ path, ruleset.Permits .truncate path) := by
  refine ⟨fun path errno h ↦ ?_, fun ruleset h ↦ ⟨fun right path hright habi hpermits ↦ ?_, ?_⟩⟩
  · unfold rulesetFor at h
    split at h
    · cases h
    · exact buildRuleset_ne_addRule path errno h
  · have hhandled : grants ruleset.handled right = true := by
      obtain ⟨handled, hhandled, rfl⟩ := buildRuleset_eq_some (rulesetFor_eq_some h)
      exact (grants_handled hhandled hright).mpr habi
    have hreach := shared_of_permits hbinary himage h hhandled hpermits
    refine ⟨hreach, fun sibling hne hsibling hpath ↦ hreach.resolve_left fun hdir ↦ ?_⟩
    rw [real_of_dir hown.1 hown.2] at hdir
    rw [real_of_dir hsibling.1 hsibling.2] at hpath
    exact not_beneath_sibling hne.symm hpath hdir.1
  · intro habi path
    obtain ⟨handled, hhandled, rfl⟩ := buildRuleset_eq_some (rulesetFor_eq_some h)
    refine permits_of_not_handled (Bool.eq_false_iff.mpr fun htruncate ↦ ?_) path
    exact absurd ((grants_handled hhandled (by decide)).mp htruncate rfl) (Nat.not_le.mpr habi)

/-! Two microVMs of one keycard, and the key it serves with. -/

def sharedFiles : Files where
  items := [([], .dir), (["dev"], .dir), (["dev", "kvm"], .file ⟨none, false⟩),
    (["firecracker"], .file ⟨none, true⟩), (["vmlinux"], .file ⟨none, false⟩), (["host_key"], .file ⟨none, false⟩),
    (["run"], .dir), (["run", "ubuntu-0a1b2c3d4e5f"], .dir), (["run", "ubuntu-5f4e3d2c1b0a"], .dir),
    (["run", "ubuntu-5f4e3d2c1b0a", "rootfs.ext4"], .file ⟨none, false⟩)]
  nodup := by decide

def hostWith (abi : Nat) : Host :=
  { hostOf sharedFiles with abi := abi }

/-- The ruleset of the first of them. -/
def rulesetOn (abi : Nat) : Except ConfinementError (Option Ruleset) :=
  rulesetFor (hostWith abi) (fun _ ↦ none) (configOf ["images"]) "/firecracker" ["vmlinux"]
    ((configOf ["images"]).runtimeDir ++ ["ubuntu-0a1b2c3d4e5f"])

theorem newest_confined :
    ∃ ruleset, rulesetOn 3 = .ok (some ruleset) ∧
      ∀ right, grants (execute ||| write) right = true → ¬ ruleset.Permits right ["host_key"] := by
  obtain ⟨-, hruleset⟩ := confined_to_instance (hostWith 3) (fun _ ↦ none) (configOf ["images"]) "/firecracker"
    ["vmlinux"] "ubuntu-0a1b2c3d4e5f" (by decide) (by decide) (by decide)
  refine ⟨_, rfl, fun right hright hpermits ↦ ?_⟩
  obtain ⟨⟨hdir, -⟩ | hshared, -⟩ := (hruleset _ rfl).1 right _ hright (fun _ ↦ Nat.le_refl 3) hpermits
  · exact absurd hdir (by decide)
  · cases hshared with
    | kvm h => exact absurd h (by decide)
    | image h => exact absurd h (by decide)
    | binary h => exact absurd h (by decide)

/-- On the first version a VMM may truncate the disk of another room. -/
theorem oldest_truncates :
    ∃ ruleset, rulesetOn 1 = .ok (some ruleset) ∧ grants write .truncate = true ∧
      isFile sharedFiles ["firecracker"] = true ∧ isFile sharedFiles ["vmlinux"] = true ∧
      IsInstance (hostWith 1) (configOf ["images"]) "ubuntu-0a1b2c3d4e5f" ∧
      IsInstance (hostWith 1) (configOf ["images"]) "ubuntu-5f4e3d2c1b0a" ∧
      ruleset.Permits .truncate ["run", "ubuntu-5f4e3d2c1b0a", "rootfs.ext4"] ∧
      ¬ sharedFiles.real ["run", "ubuntu-0a1b2c3d4e5f"] <+: ["run", "ubuntu-5f4e3d2c1b0a", "rootfs.ext4"] ∧
      ¬ Shared (hostWith 1) "/firecracker" ["vmlinux"] .truncate ["run", "ubuntu-5f4e3d2c1b0a", "rootfs.ext4"] := by
  refine ⟨_, rfl, by decide, by decide, by decide, by decide, by decide, permits_of_not_handled (by decide) _,
    by decide, fun hshared ↦ ?_⟩
  cases hshared with
  | kvm h => exact absurd h (by decide)
  | image h => exact absurd h (by decide)
  | binary h => exact absurd h (by decide)

end Keycard.Firecracker.Confine
