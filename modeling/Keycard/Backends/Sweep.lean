import Keycard.Backends.Instance

/-!
# The sweep at startup

`FirecrackerBackend.__init__`: what `_preflight` accepts, and what `reap_debris` then does to the
directory it is given.
-/

open Reasoning

namespace Keycard.Firecracker

inductive Confinement where
  | off
  | bestEffort
  | required
deriving DecidableEq, Repr

/-- The keys of `FirecrackerConfig` that `__init__` reads, with the paths made absolute. -/
structure FirecrackerConfig where
  binary : String
  kernel : Option Path
  rootfsDir : Path
  runtimeDir : Path
  confinement : Confinement
deriving DecidableEq, Repr

/-- What a keycard finds when it starts. -/
structure Host where
  files : Files
  /-- the paths whose `stat` raises, which may change with what is removed -/
  refused : Files → Path → Bool
  /-- the nodes of others, whose mode keycard cannot change -/
  foreign : Path → Bool
  /-- the directories in which keycard can make nothing -/
  closed : Path → Bool
  processes : ProcTable
  unicode : Unicode
  cwd : Path
  /-- the directories of PATH -/
  path : List String
  /-- `confine.abi_version()`, 0 without Landlock -/
  abi : Nat
  /-- the nodes that cannot be removed -/
  stuck : Path → Bool

inductive FirecrackerError where
  | binaryNotFound (binary : String)
  | noKernel
  | noKernelAt (kernel : Path)
  | noRootfsDirAt (rootfsDir : Path)
  | noKvm
  | noLandlock
  /-- the `OSError` of a `stat` -/
  | statRaises (exc : OSError)
  /-- the `OSError` of a `mkdir` -/
  | notMade (path : Path)
  /-- the `PermissionError` of `chmod` -/
  | notOwned (path : Path)
deriving DecidableEq, Repr

/-! ## `_preflight` -/

/-- `_access_check` of `shutil`, for an executable -/
def accessCheck (host : Host) (fn : String) : Bool :=
  match host.files.stat (joinpath host.cwd fn) with
  | some (.file file) => file.executable
  | _ => false

/-- `os.path.join(dir, cmd)`, where `cmd` has no slash -/
def joinName (dir cmd : String) : String :=
  if dir = "" then cmd else if dir.toList.getLast? = some '/' then dir ++ cmd else dir ++ "/" ++ cmd

/-- `shutil.which` -/
def which (host : Host) (cmd : String) : Option String :=
  if '/' ∈ cmd.toList then if accessCheck host cmd then some cmd else none
  else (host.path.map (joinName · cmd)).find? (accessCheck host)

def isFile (files : Files) (p : Path) : Bool :=
  (files.read? p).isSome

/-- `kvm_present` -/
def kvmPresent (host : Host) : Bool :=
  (host.files.stat ["dev", "kvm"]).isSome

/-- `_check_confinement` -/
def checkConfinement (config : FirecrackerConfig) (host : Host) : Except FirecrackerError Unit :=
  if config.confinement = .off then .ok ()
  else if host.abi ≠ 0 then .ok ()
  else if config.confinement = .required then .error .noLandlock
  else .ok ()

/-- `stat` of `path`, where it does not matter what is there. -/
def reach (host : Host) (path : Path) : Except FirecrackerError Unit :=
  if host.refused host.files path then .error (.statRaises (.denied path)) else .ok ()

/-- `_preflight` -/
def preflight (config : FirecrackerConfig) (host : Host) : Except FirecrackerError String := do
  let some binary := which host config.binary | .error (.binaryNotFound config.binary)
  let some kernel := config.kernel | .error .noKernel
  reach host kernel
  if !isFile host.files kernel then .error (.noKernelAt kernel)
  reach host config.rootfsDir
  if !host.files.isDir config.rootfsDir then .error (.noRootfsDirAt config.rootfsDir)
  reach host ["dev", "kvm"]
  if !kvmPresent host then .error .noKvm
  checkConfinement config host
  return binary

/-! ## `__init__` -/

/-- `mkdir` with `parents` and `exist_ok`, from the root down -/
def mkdirs (host : Host) (files : Files) : List Path → Except FirecrackerError Files
  | [] => .ok files
  | p :: rest =>
    if host.refused files p then .error (.notMade p)
    else
      match files.stat p with
      | some .dir => mkdirs host files rest
      | some _ => .error (.notMade p)
      -- also where a link leads to nothing
      | none =>
        if files.get? (files.real p.dropLast ++ p.getLast?.toList) ≠ none then .error (.notMade p)
        else if host.closed (files.real p.dropLast) then .error (.notMade p)
        else mkdirs host (files.set (files.real p) .dir) rest

/-- `shutil.rmtree` with `ignore_errors`; it refuses a link -/
def rmtree (files : Files) (stuck : Path → Bool) (p : Path) : Files :=
  match files.get? p with
  | some .dir => files.removeAll stuck p
  | _ => files

/-- `instance_is_debris` for an entry, when its turn comes. -/
def judge (host : Host) (files : Files) (path : Path) : Except OSError Bool :=
  instanceIsDebris host.unicode (host.refused files) files host.processes path

/-- What one round of the loop in `reap_debris` removes. -/
def sweepEntry (host : Host) (files : Files) (path : Path) : Files :=
  match judge host files path with
  | .ok true => rmtree files host.stuck path
  | _ => files

/-- The loop of `reap_debris` over the entries of `root`.  Where `instance_is_debris` raises, it ends, and nothing
is reported. -/
def reap (host : Host) (root : Path) : List String → Files → Files × Except OSError (List String)
  | [], files => (files, .ok [])
  | name :: rest, files =>
    match judge host files (root ++ [name]) with
    | .error exc => (files, .error exc)
    | .ok debris =>
      let (left, reaped) := reap host root rest (sweepEntry host files (root ++ [name]))
      (left, if debris then reaped.map (name :: ·) else reaped)

/-- `sorted(runtime_dir.iterdir())`; an `OSError` ends the sweep as an empty directory does -/
def entries (files : Files) (runtimeDir : Path) : List String :=
  if files.isDir runtimeDir then files.names (files.real runtimeDir) else []

/-- `reap_debris` -/
def reapDebris (host : Host) (files : Files) (runtimeDir : Path) : Files × Except OSError (List String) :=
  reap host (files.real runtimeDir) (entries files runtimeDir) files

/-- A constructor that has come as far as the sweep.  It raises what the sweep raises. -/
structure Backend where
  binary : String
  /-- the tree once `runtime_dir` is there -/
  found : Files
  left : Files
  reaped : Except OSError (List String)

/-- `FirecrackerBackend.__init__` -/
def init (config : FirecrackerConfig) (host : Host) : Except FirecrackerError Backend := do
  let binary ← preflight config host
  let found ← mkdirs host host.files config.runtimeDir.inits
  if host.foreign (found.real config.runtimeDir) then .error (.notOwned config.runtimeDir)
  let (left, reaped) := reapDebris host found config.runtimeDir
  return ⟨binary, found, left, reaped⟩

/-! ## What one round removes -/

/-- Everything but instance directories, `made`, and what is in them is still there. -/
def Survives (made : List Path) (files left : Files) : Prop :=
  ∀ p node, files.get? p = some node → (∀ dir ∈ made, ¬ dir <+: p) → left.get? p = some node

/-- Nothing at or below `p` is stuck. -/
def Loose (stuck : Path → Bool) (files : Files) (p : Path) : Prop :=
  ∀ q node, files.get? q = some node → p <+: q → stuck q = false

/-- Whatever goes with the directory at `path` is an instance directory that some keycard made, or lies in one. -/
def Claimed (stuck : Path → Bool) (made : List Path) (files : Files) (path : Path) : Prop :=
  files.get? path = some .dir → ∀ p node, files.get? p = some node → path <+: p → Loose stuck files p →
    ∃ dir ∈ made, dir <+: p

section Rounds

variable {host : Host} {stuck : Path → Bool} {made : List Path} {files middle left : Files} {path : Path}

end Rounds

/-! ## What the whole sweep removes -/

/-- The sweep removes only what it should, and what it reports is exactly what it has removed. -/
def Exact (made : List Path) (root : Path) (names : List String) (files left : Files)
    (reaped : Except OSError (List String)) : Prop :=
  Survives made files left ∧
    ∀ gone, reaped = .ok gone → gone = names.filter fun name ↦ left.get? (root ++ [name]) = none

section Sweeps

variable {host : Host} {made : List Path} {files : Files} {root : Path}

end Sweeps

/-- A host with Landlock, where nobody runs. -/
def hostOf (files : Files) : Host where
  files := files
  refused _ _ := false
  foreign _ := false
  closed _ := false
  processes := .empty
  unicode := .ofAscii
  cwd := []
  path := []
  abi := 1
  stuck _ := false

def configOf (rootfsDir : Path) : FirecrackerConfig where
  binary := "/firecracker"
  kernel := some ["vmlinux"]
  rootfsDir := rootfsDir
  runtimeDir := ["run"]
  confinement := .bestEffort

/-- The images are built into a directory below `/run`. -/
def sharedFiles : Files where
  items := [([], .dir), (["dev"], .dir), (["dev", "kvm"], .file ⟨none, false⟩),
    (["firecracker"], .file ⟨none, true⟩), (["vmlinux"], .file ⟨none, false⟩), (["run"], .dir),
    (["run", "images"], .dir), (["run", "images", "ubuntu.ext4"], .file ⟨none, false⟩)]
  nodup := by decide

end Keycard.Firecracker
