import Keycard.Reasoning.FileTree

/-!
# Landlock rulesets

A ruleset handles some of the rights on files and gives some of them back, each rule for one path and
what is beneath it.  A right that is not handled is not restricted at all.  Paths are those that following
links ends at.
-/

namespace Reasoning

/-- `LANDLOCK_ACCESS_FS_*` -/
inductive AccessFs
  | execute | writeFile | readFile | readDir | removeDir | removeFile | makeChar | makeDir | makeReg
  | makeSock | makeFifo | makeBlock | makeSym | refer | truncate
deriving DecidableEq, Repr

namespace AccessFs

/-- The place of a right among the bits of a mask. -/
def index : AccessFs → Nat
  | execute => 0
  | writeFile => 1
  | readFile => 2
  | readDir => 3
  | removeDir => 4
  | removeFile => 5
  | makeChar => 6
  | makeDir => 7
  | makeReg => 8
  | makeSock => 9
  | makeFifo => 10
  | makeBlock => 11
  | makeSym => 12
  | refer => 13
  | truncate => 14

def bit (right : AccessFs) : BitVec 64 := 1 <<< right.index

end AccessFs

namespace Landlock

abbrev Mask := BitVec 64

def grants (mask : Mask) (right : AccessFs) : Bool :=
  mask.getLsbD right.index

theorem grants_and (a b : Mask) (right : AccessFs) : grants (a &&& b) right = (grants a right && grants b right) :=
  BitVec.getLsbD_and

/-- The rights that only mean something for a directory. -/
def directoryOnly : Mask :=
  AccessFs.readDir.bit ||| AccessFs.removeDir.bit ||| AccessFs.removeFile.bit ||| AccessFs.makeChar.bit
    ||| AccessFs.makeDir.bit ||| AccessFs.makeReg.bit ||| AccessFs.makeSock.bit ||| AccessFs.makeFifo.bit
    ||| AccessFs.makeBlock.bit ||| AccessFs.makeSym.bit ||| AccessFs.refer.bit

inductive Errno
  | nomsg
  | inval
deriving DecidableEq, Repr

structure Rule where
  path : Path
  isDir : Bool
  access : Mask
deriving DecidableEq, Repr

structure Ruleset where
  handled : Mask
  rules : List Rule
deriving DecidableEq, Repr

/-- Why a rule is rejected: it asks for nothing, for a right that is not handled, or for what a file does
not have. -/
def rejects (handled : Mask) (isDir : Bool) (access : Mask) : Option Errno :=
  if access = 0 then some .nomsg
  else if access &&& ~~~handled ≠ 0 then some .inval
  else if !isDir && access &&& directoryOnly ≠ 0 then some .inval
  else none

/-- `landlock_add_rule` -/
def Ruleset.addRule (ruleset : Ruleset) (rule : Rule) : Except Errno Ruleset :=
  match rejects ruleset.handled rule.isDir rule.access with
  | some errno => .error errno
  | none => .ok { ruleset with rules := ruleset.rules ++ [rule] }

/-- A rule on a path reaches that path and, if it is a directory, what is beneath it. -/
def Rule.Reaches (rule : Rule) (path : Path) : Prop :=
  rule.path = path ∨ rule.isDir = true ∧ rule.path <+: path

/-- Whoever is restricted to the ruleset holds this right on this path. -/
def Ruleset.Permits (ruleset : Ruleset) (right : AccessFs) (path : Path) : Prop :=
  grants ruleset.handled right = true →
    ∃ rule ∈ ruleset.rules, rule.Reaches path ∧ grants rule.access right = true

variable {ruleset ruleset' : Ruleset} {right : AccessFs} {path : Path}

theorem permits_of_not_handled (h : grants ruleset.handled right = false) (path : Path) :
    ruleset.Permits right path := by
  intro hhandled
  rw [h] at hhandled
  cases hhandled

theorem Ruleset.addRule_eq_ok (ruleset : Ruleset) (rule : Rule)
    (h : rejects ruleset.handled rule.isDir rule.access = none) :
    ruleset.addRule rule = .ok { ruleset with rules := ruleset.rules ++ [rule] } := by
  rw [addRule, h]

/-- Below a file there is nothing that a rule on it could reach. -/
theorem Rule.Reaches.eq_of_file {rule : Rule} (h : rule.Reaches path) (hfile : rule.isDir = false) :
    path = rule.path := by
  rcases h with h | ⟨hdir, -⟩
  · exact h.symm
  · rw [hfile] at hdir
    cases hdir

theorem Rule.Reaches.beneath {rule : Rule} (h : rule.Reaches path) : rule.path <+: path := by
  rcases h with h | ⟨-, h⟩
  · exact h ▸ List.prefix_refl _
  · exact h

end Landlock

end Reasoning
