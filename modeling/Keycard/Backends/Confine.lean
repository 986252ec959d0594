import Keycard.Reasoning.Landlock
import Keycard.Backends.Sweep

/-!
# Confinement of the VMM

`backends/confine.py`, and `_ruleset_for`: the ruleset that the VMM of one instance is restricted to.
-/

open Reasoning Landlock

namespace Keycard.Firecracker.Confine

/-- `_HANDLED_BY_ABI` -/
def handledByAbi : Nat → Option Mask
  | 1 => some ((1 <<< 13) - 1)
  | 2 => some ((1 <<< 14) - 1)
  | 3 => some ((1 <<< 15) - 1)
  | _ => none

/-- `_NEWEST_ABI` -/
def newestAbi : Nat := 3

/-- `READ` -/
def read : Mask := AccessFs.readFile.bit ||| AccessFs.readDir.bit

/-- `EXECUTE` -/
def execute : Mask := AccessFs.execute.bit ||| AccessFs.readFile.bit

/-- `WRITE` -/
def write : Mask :=
  read ||| AccessFs.writeFile.bit ||| AccessFs.truncate.bit ||| AccessFs.removeDir.bit ||| AccessFs.removeFile.bit
    ||| AccessFs.makeDir.bit ||| AccessFs.makeReg.bit ||| AccessFs.makeSock.bit ||| AccessFs.makeFifo.bit
    ||| AccessFs.makeSym.bit

/-- `FILE_ACCESS` -/
def fileAccess : Mask :=
  AccessFs.execute.bit ||| AccessFs.readFile.bit ||| AccessFs.writeFile.bit ||| AccessFs.truncate.bit

/-- `KVM` -/
def kvm : Path := ["dev", "kvm"]

inductive ConfinementError where
  /-- landlock_create_ruleset failed: `errno` -/
  | createRuleset (errno : Errno)
  /-- cannot confine to `path` -/
  | cannotConfine (path : Path)
  /-- landlock_add_rule for `path` failed: `errno` -/
  | addRule (path : Path) (errno : Errno)
  /-- the `KeyError` of a version that is not in the table -/
  | unknownAbi (abi : Nat)
deriving DecidableEq, Repr

structure Plan where
  executable : List Path
  readable : List Path
  writable : List Path

namespace Plan

def rules (plan : Plan) : List (Path × Mask) :=
  plan.executable.map (·, execute) ++ plan.readable.map (·, read) ++ plan.writable.map (·, write)

end Plan

/-- `plan_for` -/
def planFor (binary image instanceDir : Path) (extraReadable : List Path) : Plan where
  executable := [binary]
  readable := image :: extraReadable
  writable := [instanceDir, kvm]

/-- The rights that a rule asks for; those of a directory are left out for anything else. -/
def narrow (isDir : Bool) (access : Mask) : Mask :=
  if isDir then access else access &&& fileAccess

/-- The rule that `_add_rule` makes. -/
def ruleFor (files : Files) (path : Path) (access : Mask) : Rule where
  path := files.real path
  isDir := files.isDir path
  access := narrow (files.isDir path) access

/-- `_add_rule` -/
def addRule (files : Files) (ruleset : Ruleset) (path : Path) (access : Mask) :
    Except ConfinementError Ruleset :=
  match files.stat path with
  | none => .error (.cannotConfine path)
  | some _ =>
    match ruleset.addRule (ruleFor files path access) with
    | .error errno => .error (.addRule path errno)
    | .ok ruleset => .ok ruleset

/-- The loop of `build_ruleset`. -/
def addRules (files : Files) (handled : Mask) (ruleset : Ruleset) :
    List (Path × Mask) → Except ConfinementError Ruleset
  | [] => .ok ruleset
  | (path, access) :: rest =>
    match addRule files ruleset path (access &&& handled) with
    | .error exc => .error exc
    | .ok ruleset => addRules files handled ruleset rest

/-- `build_ruleset`; `none` where the kernel has no Landlock.  `createRuleset` tells how
`landlock_create_ruleset` fails for a set of rights, if it does. -/
def buildRuleset (host : Host) (createRuleset : Mask → Option Errno) (plan : Plan) :
    Except ConfinementError (Option Ruleset) :=
  if host.abi = 0 then .ok none
  else
    match handledByAbi (min host.abi newestAbi) with
    | none => .error (.unknownAbi host.abi)
    | some handled =>
      match createRuleset handled with
      | some errno => .error (.createRuleset errno)
      | none => (addRules host.files handled ⟨handled, []⟩ plan.rules).map some

/-- `_ruleset_for`, where `image` is the kernel that `_preflight` has found configured -/
def rulesetFor (host : Host) (createRuleset : Mask → Option Errno) (config : FirecrackerConfig) (binary : String)
    (image instanceDir : Path) : Except ConfinementError (Option Ruleset) :=
  if config.confinement = .off then .ok none
  else buildRuleset host createRuleset (planFor (joinpath host.cwd binary) image instanceDir [])

end Keycard.Firecracker.Confine
