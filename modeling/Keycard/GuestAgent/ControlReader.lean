import Keycard.Reasoning.Text
import Keycard.GuestAgent.Steps

/-!
# The agent's half of the control channel

`parse_resize`, and the loop of the control reader in `attach`, which reads the lines of a connection through
a `BufReader` and applies each size to the pty.
-/

open Reasoning

namespace Keycard.GuestAgent

/-- `b'\n'` -/
def newline : UInt8 := 10

/-- `char::is_whitespace` -/
def isWhitespace (c : Char) : Bool :=
  9 ≤ c.toNat && c.toNat ≤ 13 || c.toNat = 32 || c.toNat = 0x85 || c.toNat = 0xa0 || c.toNat = 0x1680 ||
    0x2000 ≤ c.toNat && c.toNat ≤ 0x200a || c.toNat = 0x2028 || c.toNat = 0x2029 || c.toNat = 0x202f ||
    c.toNat = 0x205f || c.toNat = 0x3000

/-- A number may have a `+` before its digits. -/
def unsigned : List Char → List Char
  | '+' :: rest => rest
  | text => text

/-- `str::parse::<u16>` -/
def parseU16 (text : List Char) : Option UInt16 :=
  let digits := unsigned text
  if digits.isEmpty || !digits.all Char.isDigit then none
  else if Nat.ofDigitChars 10 digits 0 < UInt16.size then some (.ofNat (Nat.ofDigitChars 10 digits 0))
  else none

/-- `parse_resize`: the columns and the rows.  Whatever comes after them is ignored. -/
def parseResize (line : String) : Option (UInt16 × UInt16) :=
  match words isWhitespace line.toList with
  | verb :: cols :: rows :: _ =>
    if verb = "resize".toList then do
      let cols ← parseU16 cols
      let rows ← parseU16 rows
      return (cols, rows)
    else none
  | _ => none

/-- What `set_winsize` is called with for a line. -/
def resizeOf (line : String) : Option Winsize :=
  (parseResize line).map fun (cols, rows) ↦ ⟨rows, cols⟩

/-- The carriage return before the end of a line belongs to the end. -/
def chomp (line : Bytes) : Bytes :=
  if line.getLast? = some 13 then line.dropLast else line

/-- What the loop makes of complete lines, and whether one of them ends it: a line has to be UTF-8. -/
def readLines : List Bytes → List (Option Winsize) × Bool
  | [] => ([], false)
  | line :: more =>
    match decodeUtf8 (chomp line) with
    | none => ([], true)
    | some text => (resizeOf text :: (readLines more).1, (readLines more).2)

structure CtrlReader where
  /-- the line that has not ended yet -/
  buffer : Bytes
  /-- what was made of each line so far -/
  sizes : List (Option Winsize)
  ended : Bool
deriving DecidableEq, Repr

namespace CtrlReader

def start : CtrlReader := ⟨[], [], false⟩

/-- The next read of the stream: some bytes, none at its end, or an error.  The end of the stream is the
end of the last line, too. -/
def receive (r : CtrlReader) : Option Bytes → CtrlReader
  | none => { r with ended := true }
  | some [] =>
    if r.ended || r.buffer.isEmpty then { r with ended := true }
    else
      match decodeUtf8 r.buffer with
      | none => { r with ended := true }
      | some text => ⟨[], r.sizes ++ [resizeOf text], true⟩
  | some (b :: chunk) =>
    if r.ended then r
    else
      let text := lines newline (r.buffer ++ b :: chunk)
      ⟨text.2, r.sizes ++ (readLines text.1).1, (readLines text.1).2⟩

end CtrlReader

/-! ## However the stream is cut -/

theorem readLines_append (ls more : List Bytes) (h : (readLines (ls ++ more)).2 = false) :
    (readLines ls).2 = false ∧ (readLines more).2 = false ∧
      (readLines (ls ++ more)).1 = (readLines ls).1 ++ (readLines more).1 := by
  induction ls with
  | nil => exact ⟨rfl, h, rfl⟩
  | cons line ls ih =>
    simp only [List.cons_append, readLines] at h ⊢
    split at h
    · cases h
    · obtain ⟨hls, hmore, heq⟩ := ih h
      exact ⟨hls, hmore, by rw [heq, List.cons_append]⟩

theorem foldl_receive {chunks : List Bytes} (buffer : Bytes) (sizes : List (Option Winsize))
    (hbuffer : newline ∉ buffer) (hchunks : ∀ chunk ∈ chunks, chunk ≠ [])
    (hgood : (readLines (lines newline (buffer ++ chunks.flatten)).1).2 = false) :
    (chunks.map some).foldl CtrlReader.receive ⟨buffer, sizes, false⟩ =
      ⟨(lines newline (buffer ++ chunks.flatten)).2,
        sizes ++ (readLines (lines newline (buffer ++ chunks.flatten)).1).1, false⟩ := by
  induction chunks generalizing buffer sizes with
  | nil =>
    rw [List.flatten_nil, List.append_nil, lines_of_not_mem hbuffer, readLines, List.append_nil]
    rfl
  | cons chunk chunks ih =>
    obtain ⟨hchunk, hrest⟩ := List.forall_mem_cons.mp hchunks
    rw [List.flatten_cons, ← List.append_assoc, lines_append] at hgood ⊢
    obtain ⟨hread, hmore, heq⟩ := readLines_append _ _ hgood
    have hreceive : CtrlReader.receive ⟨buffer, sizes, false⟩ (some chunk) =
        ⟨(lines newline (buffer ++ chunk)).2, sizes ++ (readLines (lines newline (buffer ++ chunk)).1).1,
          false⟩ := by
      cases chunk with
      | nil => exact absurd rfl hchunk
      | cons b chunk => simp only [CtrlReader.receive, hread, Bool.false_eq_true, if_false]
    rw [List.map_cons, List.foldl_cons, hreceive, ih _ _ (not_mem_left _ _) hrest hmore, heq, List.append_assoc]

/-- The control reader of a session is at these lines one after another. -/
theorem run_ctrlReads {window : Nat} {s : Session} {k : Nat} {c : Bool}
    (ht : s.tasks ⟨k, .ctrl⟩ = some (.alive .reading c)) (hrunning : s.running = true)
    (sizes : List (Option Winsize)) :
    (machine window).run s (sizes.map fun size ↦ .ctrlReads k (some size)) =
      some { s with winsize := (sizes.filterMap id).getLast?.getD s.winsize } := by
  induction sizes generalizing s with
  | nil => rfl
  | cons size sizes ih =>
    have hstep : (machine window).step s (.ctrlReads k (some size)) =
        some { s with winsize := size.getD s.winsize } := by
      simp [machine, step, Session.ctrlReads, ht, hrunning]
    rw [List.map_cons, Machine.run, hstep, Option.bind_some, ih (by exact ht) (by exact hrunning)]
    cases size with
    | none => rfl
    | some size =>
      simp only [Option.getD_some, List.filterMap_cons, id_eq, List.getLast?_cons]

/-! ## Numbers -/

theorem parseU16_repr (n : UInt16) : parseU16 (toString (n.toNat : Int)).toList = some n := by
  have htext : (toString (n.toNat : Int)).toList = Nat.toDigits 10 n.toNat := Nat.toList_repr
  have hplus : unsigned (Nat.toDigits 10 n.toNat) = Nat.toDigits 10 n.toNat := by
    unfold unsigned
    split
    · rename_i rest hrest
      exact absurd hrest (toDigits_ne_cons (by decide))
    · rfl
  have hall : (Nat.toDigits 10 n.toNat).all Char.isDigit = true :=
    List.all_eq_true.mpr fun _ ↦ isDigit_of_mem_toDigits
  have hempty : (Nat.toDigits 10 n.toNat).isEmpty = false := by
    simp
  rw [htext, parseU16, hplus, hempty, hall, Nat.ofDigitChars_ten_toDigits, if_pos n.toNat_lt]
  simp

end Keycard.GuestAgent
