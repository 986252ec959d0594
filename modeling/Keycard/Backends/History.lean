import Keycard.Backends.Instance
import Keycard.Reasoning.Machine

/-!
# The keycards of one host

Any number of keycard processes share one `runtime_dir`.  Each sweeps it once when it starts and then
creates instances in it, and every process can be killed between any two of its steps.  A process that is
dead keeps its pid until it has been waited for; then the pid is used again.  Which process a pid stands for
is known to the history only (`Role`).
-/

open Reasoning

namespace Keycard.Firecracker

/-- How far the sweep is with one entry. -/
inductive Look where
  | testing
  | readingOwner
  | checkingOwner (pid : Int)
  | readingVmm
  | checkingVmm (pid : Int)
  | removing
deriving DecidableEq, Repr

/-- How far `reap_debris` is, with the entries still to come. -/
inductive Reaping where
  | starting
  | between (rest : List String)
  | looking (name : String) (look : Look) (rest : List String)
  | returned
  /-- with an `OSError` of `instance_is_debris` -/
  | raised
deriving DecidableEq, Repr

/-- The entries a sweep has listed and is not through with. -/
def Reaping.names : Reaping → List String
  | .starting => []
  | .between rest => rest
  | .looking name _ rest => name :: rest
  | .returned => []
  | .raised => []

structure KeycardProcess where
  pid : Pid
  /-- `self._binary` -/
  binary : String
deriving DecidableEq, Repr

/-- `runtime_dir` as the operating system resolves it, and the character database of the keycards that share it. -/
structure RuntimeDir where
  path : Path
  no_dots : ".." ∉ path
  unicode : Unicode

/-- One call of `Instance.create`: who made it, where, and which directories `mkdir` may make on the
way. -/
structure Creation where
  keycard : Nat
  dir : Path
  no_dots : ".." ∉ dir
  parents : List Path
  parents_no_dots : ∀ p ∈ parents, ".." ∉ p
deriving DecidableEq, Repr

/-- `Instance.create(runtime_dir, room_name)` by keycard `k` -/
def creation (root : RuntimeDir) (k : Nat) (roomName uuid : String) : Creation where
  keycard := k
  dir := normalize (joinpath root.path (instanceId roomName uuid))
  no_dots := no_dots_normalize _
  parents := (joinpath root.path (instanceId roomName uuid)).inits.dropLast.map normalize
  parents_no_dots p hp := by
    obtain ⟨q, -, rfl⟩ := List.mem_map.mp hp
    exact no_dots_normalize q

/-- How far `Instance.create` is. -/
inductive Creating where
  | making
  | made
  /-- `owner.pid` is there and empty -/
  | opened
  | created
deriving DecidableEq, Repr

/-- How far `_spawn` is with `vmm.pid`. -/
inductive Recording where
  | unrecorded
  | opened
  | recorded
deriving DecidableEq, Repr

structure Vmm where
  pid : Pid
  recording : Recording
deriving DecidableEq, Repr

structure History where
  files : Files
  processes : ProcTable
  keycards : List KeycardProcess
  reaping : Nat → Reaping
  instances : List Creation
  creating : Nat → Creating
  vmm : Nat → Option Vmm

inductive HostEvent where
  | starts (pid : Pid) (argv0 binary : String)
  | otherStarts (pid : Pid) (argv0 : String)
  | threadStarts (tid pid : Pid)
  | threadEnds (tid : Pid)
  /-- a process is killed, or ends by itself, and is a zombie from now on -/
  | exits (pid : Pid)
  /-- its parent, or init, waits for a zombie -/
  | waits (pid : Pid)
  | sweeps (k : Nat)
  | removes (k : Nat) (p : Path)
  | rmtreeEnds (k : Nat)
  | returns (k : Nat)
  | creates (k : Nat) (roomName uuid : String)
  | makesParent (n : Nat) (p : Path)
  | makes (n : Nat)
  | opensOwner (n : Nat)
  | writesOwner (n : Nat)
  | puts (n : Nat) (name : String)
  | spawns (n : Nat) (pid : Pid)
  | opensVmm (n : Nat)
  | writesVmm (n : Nat)
  /-- `_remove_dir` of the keycard itself -/
  | discards (n : Nat) (p : Path)
deriving DecidableEq, Repr

/-- The other files of an instance directory. -/
def instanceFiles : List String :=
  ["api.sock", "vsock.sock", "rootfs.ext4", "console.log", "snapshot", "memory"]

def emptyFile : Node File :=
  .file ⟨some "", false⟩

def pidFile (pid : Pid) : Node File :=
  .file ⟨some (pidText pid), false⟩

namespace History

variable (s : History)

def keycardAlive (k : Nat) : Bool :=
  match s.keycards[k]? with
  | some keycard => (s.processes.get? keycard.pid).map ProcEntry.role = some (.keycard k)
  | none => false

def vmmAlive (n : Nat) : Bool :=
  match s.vmm n with
  | some vmm => (s.processes.get? vmm.pid).map ProcEntry.role = some (.vmm n)
  | none => false

/-- `unlink` or `rmdir`, which removes only an empty directory -/
def canRemove (p : Path) : Bool :=
  match s.files.get? p with
  | some .dir => !s.files.hasBelow p
  | some _ => true
  | none => false

/-- The next step of `reap_debris` that does not change the tree.  No directory shuts a keycard out, so that no
`stat` in the tree is refused. -/
def lookNext (db : Unicode) (path : Path) (name : String) (rest : List String) : Look → Option Reaping
  | .testing => some (if s.files.isDir path then .looking name .readingOwner rest else .between rest)
  | .readingOwner => some (match readPid db s.files (ownerPid path) with
    | some pid => .looking name (.checkingOwner pid) rest
    | none => .looking name .readingVmm rest)
  | .checkingOwner pid => some (match procExists s.processes pid with
    | .ok true => .between rest
    | .ok false => .looking name .readingVmm rest
    | .error _ => .raised)
  | .readingVmm => some (match readPid db s.files (vmmPid path) with
    | some pid => .looking name (.checkingVmm pid) rest
    | none => .looking name .removing rest)
  | .checkingVmm pid => some (if runs s.processes pid "firecracker" then .between rest
    else .looking name .removing rest)
  | .removing => none

def sweepNext (root : RuntimeDir) : Reaping → Option Reaping
  | .starting => some (.between (s.files.names root.path))
  | .between (name :: rest) => some (.looking name .testing rest)
  | .between [] => none
  | .looking name look rest => s.lookNext root.unicode (root.path ++ [name]) name rest look
  | .returned => none
  | .raised => none

/-- `write` on an open file; the file may have been removed meanwhile. -/
def overwrite (p : Path) (node : Node File) : Files :=
  if s.files.get? p = none then s.files else s.files.set p node

def setReaping (k : Nat) (reaping : Reaping) : History :=
  { s with reaping := Function.update s.reaping k reaping }

def setCreating (n : Nat) (creating : Creating) : History :=
  { s with creating := Function.update s.creating n creating }

def setVmm (n : Nat) (vmm : Vmm) : History :=
  { s with vmm := Function.update s.vmm n (some vmm) }

/-- A uuid is in no path that is in use. -/
def fresh (new : Creation) : Prop :=
  new.dir ∉ new.parents ∧ ∀ old ∈ s.instances, ¬ new.dir <+: old.dir ∧ new.dir ∉ old.parents

instance (new : Creation) : Decidable (s.fresh new) :=
  inferInstanceAs (Decidable (_ ∧ _))

def start (pid : Pid) (argv0 binary : String) : History :=
  { s with
    processes := s.processes.set pid ⟨argv0, .keycard s.keycards.length⟩
    keycards := s.keycards ++ [⟨pid, binary⟩]
    reaping := Function.update s.reaping s.keycards.length .starting }

def create (new : Creation) : History :=
  { s with
    instances := s.instances ++ [new]
    creating := Function.update s.creating s.instances.length .making
    vmm := Function.update s.vmm s.instances.length none }

/-- `create_subprocess_exec(binary, ...)` -/
def spawn (n : Nat) (pid : Pid) (binary : String) : History :=
  { s with processes := s.processes.set pid ⟨binary, .vmm n⟩ }.setVmm n ⟨pid, .unrecorded⟩

/-! ### Threads, and the end of a process -/

def threadStart (tid pid : Pid) : Option History :=
  match s.processes.get? pid with
  | some entry =>
    if entry.role.runs ∧ s.processes.get? tid = none then
      some { s with processes := s.processes.set tid ⟨entry.argv0, .thread pid⟩ }
    else none
  | none => none

def threadEnd (tid : Pid) : Option History :=
  match s.processes.get? tid with
  | some ⟨_, .thread _⟩ => some { s with processes := s.processes.erase tid }
  | _ => none

/-- A process is dead once its last thread has ended.  There is no command line in `/proc` any more. -/
def exit (pid : Pid) : Option History :=
  match s.processes.get? pid with
  | some entry =>
    if entry.role.runs ∧ ∀ item ∈ s.processes.items, item.2.role ≠ .thread pid then
      some { s with processes := s.processes.set pid ⟨"", .zombie⟩ }
    else none
  | none => none

def wait (pid : Pid) : Option History :=
  match s.processes.get? pid with
  | some ⟨_, .zombie⟩ => some { s with processes := s.processes.erase pid }
  | _ => none

/-- The steps of `reap_debris` in keycard `k`. -/
def sweepStep (root : RuntimeDir) (k : Nat) : Option History :=
  if s.keycardAlive k then (s.sweepNext root (s.reaping k)).map (s.setReaping k) else none

def removeStep (root : RuntimeDir) (k : Nat) (p : Path) : Option History :=
  match s.reaping k with
  | .looking name .removing _ =>
    if s.keycardAlive k ∧ root.path ++ [name] <+: p ∧ s.canRemove p then
      some { s with files := s.files.erase p }
    else none
  | _ => none

def rmtreeEndStep (k : Nat) : Option History :=
  match s.reaping k with
  | .looking _ .removing rest => if s.keycardAlive k then some (s.setReaping k (.between rest)) else none
  | _ => none

/-- A step of `Instance.create` at `creation`, the stage being `at_`. -/
def createStep (n : Nat) (at_ : Creating) (f : Creation → Option History) : Option History :=
  match s.instances[n]? with
  | some creation => if s.keycardAlive creation.keycard ∧ s.creating n = at_ then f creation else none
  | none => none

def step (root : RuntimeDir) : HostEvent → Option History
  | .starts pid argv0 binary =>
    if s.processes.get? pid = none then some (s.start pid argv0 binary) else none
  | .otherStarts pid argv0 =>
    if s.processes.get? pid = none then
      some { s with processes := s.processes.set pid ⟨argv0, .other⟩ }
    else none
  | .threadStarts tid pid => s.threadStart tid pid
  | .threadEnds tid => s.threadEnd tid
  | .exits pid => s.exit pid
  | .waits pid => s.wait pid
  | .sweeps k => s.sweepStep root k
  | .removes k p => s.removeStep root k p
  | .rmtreeEnds k => s.rmtreeEndStep k
  | .returns k =>
    if s.keycardAlive k ∧ s.reaping k = .between [] then some (s.setReaping k .returned) else none
  | .creates k roomName uuid =>
    if s.keycardAlive k ∧ s.reaping k = .returned ∧ s.fresh (creation root k roomName uuid) then
      some (s.create (creation root k roomName uuid))
    else none
  | .makesParent n p => s.createStep n .making fun creation ↦
    if p ∈ creation.parents ∧ s.files.get? p = none ∧ s.files.isDir p.dropLast then
      some { s with files := s.files.set p .dir }
    else none
  | .makes n => s.createStep n .making fun creation ↦
    if s.files.get? creation.dir = none ∧ s.files.isDir creation.dir.dropLast then
      some ({ s with files := s.files.set creation.dir .dir }.setCreating n .made)
    else none
  | .opensOwner n => s.createStep n .made fun creation ↦
    if s.files.isDir creation.dir ∧ !s.files.isDir (ownerPid creation.dir) then
      some ({ s with files := s.files.set (ownerPid creation.dir) emptyFile }.setCreating n .opened)
    else none
  | .writesOwner n => s.createStep n .opened fun creation ↦
    match s.keycards[creation.keycard]? with
    | some keycard =>
      some ({ s with files := s.overwrite (ownerPid creation.dir) (pidFile keycard.pid) }.setCreating n
        .created)
    | none => none
  -- the keycard and firecracker itself
  | .puts n name =>
    match s.instances[n]? with
    | some creation =>
      if (s.keycardAlive creation.keycard ∨ s.vmmAlive n) ∧ s.creating n = .created ∧
          name ∈ instanceFiles ∧ s.files.isDir creation.dir ∧
          !s.files.isDir (creation.dir ++ [name]) then
        some { s with files := s.files.set (creation.dir ++ [name]) emptyFile }
      else none
    | none => none
  -- one firecracker for each instance: `resume` needs a `pause`, which this backend refuses
  | .spawns n pid => s.createStep n .created fun creation ↦
    match s.keycards[creation.keycard]? with
    | some keycard =>
      if s.vmm n = none ∧ s.processes.get? pid = none then some (s.spawn n pid keycard.binary) else none
    | none => none
  | .opensVmm n => s.createStep n .created fun creation ↦
    match s.vmm n with
    | some ⟨pid, .unrecorded⟩ =>
      if s.files.isDir creation.dir ∧ !s.files.isDir (vmmPid creation.dir) then
        some ({ s with files := s.files.set (vmmPid creation.dir) emptyFile }.setVmm n ⟨pid, .opened⟩)
      else none
    | _ => none
  | .writesVmm n => s.createStep n .created fun creation ↦
    match s.vmm n with
    | some ⟨pid, .opened⟩ =>
      some ({ s with files := s.overwrite (vmmPid creation.dir) (pidFile pid) }.setVmm n ⟨pid, .recorded⟩)
    | _ => none
  | .discards n p => s.createStep n .created fun creation ↦
    if creation.dir <+: p ∧ s.canRemove p then some { s with files := s.files.erase p } else none

/-- `runtime_dir` is there, and empty. -/
def initial (root : RuntimeDir) : History where
  files := root.path.inits.foldl (fun files p ↦ files.set p .dir) .empty
  processes := .empty
  keycards := []
  reaping _ := .starting
  instances := []
  creating _ := .making
  vmm _ := none

end History

def hostMachine (root : RuntimeDir) : Machine History HostEvent where
  init := .initial root
  step s e := s.step root e

end Keycard.Firecracker
