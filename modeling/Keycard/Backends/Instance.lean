import Keycard.Reasoning.FileTree
import Keycard.Reasoning.Literals

/-!
# Instance directories

What a keycard leaves in the directory of a microVM, and what another one reads there later: the pid
files, and the two questions that `instance_is_debris` asks about them.
-/

open Reasoning

namespace Keycard.Firecracker

/-! ## Paths -/

/-- The parts of a path as `pathlib` has them, without the root. -/
def parts (s : String) : Path :=
  ((s.toList.splitOn '/').map String.ofList).filter fun c ↦ c ≠ "" && c ≠ "."

def isAbsolute (s : String) : Bool :=
  s.toList.head? = some '/'

/-- `base / s`.  An absolute `s` takes the place of `base`. -/
def joinpath (base : Path) (s : String) : Path :=
  if isAbsolute s then parts s else base ++ parts s

/-- `PurePosixPath(s).name` -/
def pathName (s : String) : String :=
  (parts s).getLast?.getD ""

/-! ## Files and processes -/

/-- `text` is what `read_text` returns, and `none` where it raises. -/
structure File where
  text : Option String
  executable : Bool
deriving DecidableEq, Repr

abbrev Files := FileTree File

/-- `PID_MAX_LIMIT` -/
abbrev pidLimit : Nat := 4194304

instance : NeZero pidLimit := ⟨by decide⟩

abbrev Pid := Fin pidLimit

/-- The errors of `stat` that do not just say that nothing is there. -/
inductive OSError where
  | nameTooLong
  /-- a directory on the way cannot be searched, or the medium fails -/
  | denied (path : Path)
deriving DecidableEq, Repr

/-- What an entry of `/proc` is to the history of a host.  No code can see this. -/
inductive Role where
  | keycard (k : Nat)
  | vmm (n : Nat)
  | other
  /-- a thread, which is found under its own id too -/
  | thread (pid : Pid)
  /-- dead, but nobody has waited for it yet -/
  | zombie
deriving DecidableEq, Repr

/-- A process that runs. -/
def Role.runs : Role → Bool
  | .keycard _ | .vmm _ | .other => true
  | .thread _ | .zombie => false

structure ProcEntry where
  /-- as `/proc/<pid>/cmdline` has it; a zombie has none -/
  argv0 : String
  role : Role
deriving DecidableEq, Repr

abbrev ProcTable := Dict Pid ProcEntry

/-- `/proc/<pid>` -/
def proc (processes : ProcTable) : Int → Option ProcEntry
  | .ofNat pid => if h : pid < pidLimit then processes.get? ⟨pid, h⟩ else none
  | .negSucc _ => none

@[simp]
theorem proc_natCast (processes : ProcTable) (pid : Pid) : proc processes ((pid : Nat) : Int) = processes.get? pid :=
  dif_pos pid.isLt

theorem proc_eq_some {processes : ProcTable} {pid : Int} {entry : ProcEntry} (h : proc processes pid = some entry) :
    ∃ n : Pid, pid = ((n : Nat) : Int) ∧ processes.get? n = some entry := by
  cases pid with
  | ofNat n =>
    rw [proc] at h
    split at h
    · rename_i hlt
      exact ⟨⟨n, hlt⟩, rfl, h⟩
    · cases h
  | negSucc n => cases h

/-! ## Pid files -/

/-- The rest of an integer literal after a digit, where digits may be grouped by underscores. -/
def digits : Nat → List Char → Option Nat
  | n, [] => some n
  | n, '_' :: c :: rest => if c.isDigit then digits (10 * n + (c.toNat - '0'.toNat)) rest else none
  | n, c :: rest => if c.isDigit then digits (10 * n + (c.toNat - '0'.toNat)) rest else none

def natural : List Char → Option Nat
  | [] => none
  | c :: rest => if c.isDigit then digits (c.toNat - '0'.toNat) rest else none

/-- An integer literal, with or without a sign. -/
def signed : List Char → Option Int
  | '-' :: rest => (natural rest).map fun n : Nat ↦ -(n : Int)
  | '+' :: rest => (natural rest).map fun n : Nat ↦ (n : Int)
  | text => (natural text).map fun n : Nat ↦ (n : Int)

/-- `sys.get_int_max_str_digits()` -/
def maxStrDigits : Nat := 4300

/-- `int(text)`, with `none` for a `ValueError` -/
def int (db : Unicode) (text : List Char) : Option Int :=
  let text := ((db.transform text).dropWhile isSpaceC).rdropWhile isSpaceC
  if text.countP Char.isDigit ≤ maxStrDigits then signed text else none

/-- `_read_pid` -/
def readPid (db : Unicode) (files : Files) (pidFile : Path) : Option Int :=
  match files.read? pidFile with
  | some file => file.text.bind fun text ↦ int db (db.strip text.toList)
  | none => none

/-- The longest name a file can have. -/
def nameMax : Nat := 255

/-- `exists` of the path of `/proc/<pid>` -/
def procExists (processes : ProcTable) (pid : Int) : Except OSError Bool :=
  if nameMax < (toString pid).toList.length then .error .nameTooLong else .ok (proc processes pid).isSome

/-- `_pid_is_alive` -/
def pidIsAlive (db : Unicode) (files : Files) (processes : ProcTable) (pidFile : Path) : Except OSError Bool :=
  match readPid db files pidFile with
  | some pid => procExists processes pid
  | none => .ok false

/-- The part of `_process_is` after the pid has been read. -/
def runs (processes : ProcTable) (pid : Int) (program : String) : Bool :=
  match proc processes pid with
  | some process => process.argv0 ≠ "" && pathName process.argv0 = program
  | none => false

/-- `_process_is` -/
def processIs (db : Unicode) (files : Files) (processes : ProcTable) (pidFile : Path) (program : String) : Bool :=
  match readPid db files pidFile with
  | some pid => runs processes pid program
  | none => false

def ownerPid (dir : Path) : Path :=
  dir ++ ["owner.pid"]

def vmmPid (dir : Path) : Path :=
  dir ++ ["vmm.pid"]

/-- `instance_is_debris`, where the `stat` of some paths is `refused` -/
def instanceIsDebris (db : Unicode) (refused : Path → Bool) (files : Files) (processes : ProcTable) (path : Path) :
    Except OSError Bool :=
  if refused path then .error (.denied path)
  else if !files.isDir path then .ok false
  else
    match pidIsAlive db files processes (ownerPid path) with
    | .error exc => .error exc
    | .ok true => .ok false
    | .ok false => .ok (!processIs db files processes (vmmPid path) "firecracker")

/-- What `write_text` puts into a pid file. -/
def pidText (pid : Pid) : String :=
  Nat.repr pid ++ "\n"

/-- The id of an instance: a room name and 12 digits of a uuid. -/
def instanceId (roomName uuid : String) : String :=
  roomName ++ "-" ++ uuid

/-! ## What is written is read again -/

theorem digits_of_isDigit {n : Nat} {cs : List Char} (h : ∀ c ∈ cs, c.isDigit) :
    digits n cs = some (Nat.ofDigitChars 10 cs n) := by
  induction cs generalizing n with
  | nil => simp [digits]
  | cons c rest ih =>
    have hc : c.isDigit = true := h c List.mem_cons_self
    have hne : c ≠ '_' := by
      rintro rfl
      cases hc
    rw [digits, if_pos hc, ih fun d hd ↦ h d (List.mem_cons_of_mem _ hd), Nat.ofDigitChars_cons]
    intro d rest' hcd
    exact absurd hcd hne

theorem natural_toDigits (n : Nat) : natural (Nat.toDigits 10 n) = some n := by
  have hdigits : ∀ c ∈ Nat.toDigits 10 n, c.isDigit := fun _ ↦ isDigit_of_mem_toDigits
  have hvalue : Nat.ofDigitChars 10 (Nat.toDigits 10 n) 0 = n := Nat.ofDigitChars_ten_toDigits
  cases hcs : Nat.toDigits 10 n with
  | nil => exact absurd hcs Nat.toDigits_ne_nil
  | cons c rest =>
    rw [hcs] at hdigits hvalue
    rw [Nat.ofDigitChars_cons, Nat.mul_zero, Nat.zero_add] at hvalue
    rw [natural, if_pos (hdigits c List.mem_cons_self),
      digits_of_isDigit fun d hd ↦ hdigits d (List.mem_cons_of_mem _ hd), hvalue]

/-- A digit is no blank, wherever it comes from. -/
theorem plain_of_isDigit (db : Unicode) {c : Char} (h : c.isDigit = true) :
    c.toNat < 127 ∧ db.isSpace c = false ∧ isSpaceC c = false := by
  obtain ⟨hlow, hhigh⟩ : 48 ≤ c.toNat ∧ c.toNat ≤ 57 := by
    simpa [Char.isDigit, UInt32.le_iff_toNat_le] using h
  refine ⟨by omega, ?_, (isPlain_of_isDigit h).2.1⟩
  rw [db.isSpace_ascii c (by omega)]
  simp only [Bool.or_eq_false_iff, Bool.and_eq_false_iff, decide_eq_false_iff_not]
  omega

theorem strip_digits (db : Unicode) {cs : List Char} (h : ∀ c ∈ cs, c.isDigit) : db.strip (cs ++ ['\n']) = cs := by
  have hnewline : db.isSpace '\n' = true := by
    rw [db.isSpace_ascii _ (by decide)]
    rfl
  cases cs with
  | nil => simp [Unicode.strip, hnewline]
  | cons c rest =>
    have hfirst : db.isSpace c = false := (plain_of_isDigit db (h c List.mem_cons_self)).2.1
    have hlast : ¬ db.isSpace ((c :: rest).getLast (List.cons_ne_nil c rest)) = true := by
      rw [(plain_of_isDigit db (h _ (List.getLast_mem _))).2.1]
      nofun
    rw [Unicode.strip, List.cons_append, List.dropWhile_cons_of_neg (by simp [hfirst]), ← List.cons_append,
      List.rdropWhile_concat_pos _ _ _ hnewline, List.rdropWhile_eq_self_iff]
    exact fun _ ↦ hlast

theorem signed_toDigits (n : Nat) : signed (Nat.toDigits 10 n) = some (n : Int) := by
  unfold signed
  split
  · rename_i rest hrest
    exact absurd hrest (toDigits_ne_cons (by decide))
  · rename_i rest hrest
    exact absurd hrest (toDigits_ne_cons (by decide))
  · rw [natural_toDigits]
    rfl

/-- `int` reads the digits of a number, unless there are too many. -/
theorem int_toDigits (db : Unicode) {n : Nat} (h : (Nat.toDigits 10 n).length ≤ maxStrDigits) :
    int db (Nat.toDigits 10 n) = some (n : Int) := by
  have hdigits : ∀ c ∈ Nat.toDigits 10 n, c.isDigit = true := fun _ ↦ isDigit_of_mem_toDigits
  have hascii : db.transform (Nat.toDigits 10 n) = Nat.toDigits 10 n := by
    refine (List.map_congr_left fun c hc ↦ ?_).trans (List.map_id _)
    exact if_pos (plain_of_isDigit db (hdigits c hc)).1
  have hstrip : ((Nat.toDigits 10 n).dropWhile isSpaceC).rdropWhile isSpaceC = Nat.toDigits 10 n :=
    strip_eq_self fun c hc ↦ (plain_of_isDigit db (hdigits c hc)).2.2
  rw [int, hascii, hstrip, if_pos (Nat.le_trans List.countP_le_length h), signed_toDigits]

/-- A pid has at most seven digits. -/
theorem length_toDigits_pid (pid : Pid) : (Nat.toDigits 10 pid).length ≤ 7 := by
  have hlt : (pid : Nat) < 10 ^ 7 := Nat.lt_trans pid.isLt (by decide)
  exact Nat.length_toDigits_le_iff (by decide) (by decide) |>.mpr hlt

theorem int_pidText (db : Unicode) (pid : Pid) : int db (db.strip (pidText pid).toList) = some ((pid : Nat) : Int) := by
  have hstrip : db.strip (pidText pid).toList = Nat.toDigits 10 pid := by
    rw [pidText, String.toList_append, Nat.toList_repr]
    exact strip_digits db fun _ ↦ isDigit_of_mem_toDigits
  rw [hstrip, int_toDigits db (Nat.le_trans (length_toDigits_pid pid) (by decide))]

/-- No pid is too long for a file name. -/
theorem procExists_natCast (processes : ProcTable) (pid : Pid) :
    procExists processes ((pid : Nat) : Int) = .ok (processes.get? pid).isSome := by
  have hshort : ¬ nameMax < (toString ((pid : Nat) : Int)).toList.length := by
    have hlength := length_toDigits_pid pid
    rw [Int.toString_eq_repr, Int.repr_eq_if, if_pos (Int.natCast_nonneg _), Int.toNat_natCast, Nat.toList_repr]
    exact Nat.not_lt.mpr (Nat.le_trans hlength (by decide))
  rw [procExists, if_neg hshort, proc_natCast]

end Keycard.Firecracker
