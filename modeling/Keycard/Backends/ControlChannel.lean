import Keycard.Reasoning.Text
import Keycard.Backends.Instance
import Mathlib.Algebra.Group.Nat.Defs
import Mathlib.Tactic.Common

/-!
# The host's half of the control channel

`parse_exit`, and the two methods of `FirecrackerRoom` that use the channel: `resize` writes a line to it,
and `_watch_exit` reads from it until it has found the exit status.
-/

open Reasoning

namespace Keycard.Firecracker

abbrev Bytes := List UInt8

/-- `b"\n"` -/
def newline : UInt8 := 10

/-! ## `bytes` -/

/-- `bytes.isspace` -/
def isSpaceByte (b : UInt8) : Bool :=
  b = 32 || 9 ≤ b && b ≤ 13

/-- `bytes.split()` -/
def bytesSplit (b : Bytes) : List Bytes :=
  words isSpaceByte b

/-- The characters with the codes in `b`; an integer literal has only ASCII among them. -/
def chars (b : Bytes) : List Char :=
  b.map fun c ↦ Char.ofNat c.toNat

/-- `int(b)`, with `none` for a `ValueError` -/
def bytesInt (b : Bytes) : Option Int :=
  let text := chars ((b.dropWhile isSpaceByte).rdropWhile isSpaceByte)
  if text.countP Char.isDigit ≤ maxStrDigits then signed text else none

/-! ## The channel -/

/-- `parse_exit` -/
def parseExit (line : Bytes) : Option Int :=
  match bytesSplit line with
  | [verb, code] => if verb = ascii "exit" then bytesInt code else none
  | _ => none

/-- What `resize` sends. -/
def resizeLine (width height : Int) : Bytes :=
  ascii ("resize " ++ toString width ++ " " ++ toString height ++ "\n")

/-- How a `sock_recv` of `_watch_exit` comes back: with bytes, none of them at the end of the stream, or
with an `OSError` or a `CancelledError`. -/
inductive Recv where
  | data (chunk : Bytes)
  | raised
deriving DecidableEq, Repr

/-- Where `_watch_exit` is; `status` is what it has left in `_exit_status`. -/
inductive Watch where
  | receiving (buffer : Bytes)
  | ended (status : Option Int)
deriving DecidableEq, Repr

/-- The inner loop, which takes one line after another off the buffer. -/
def scan (buffer : Bytes) : Watch :=
  match _hcut : cut newline buffer with
  | none => .receiving buffer
  | some (line, rest) =>
    match parseExit line with
    | some status => .ended (some status)
    | none => scan rest
termination_by buffer.length
decreasing_by
  rw [(cut_eq_some _hcut).1]
  simp only [List.length_append, List.length_cons]
  omega

def Watch.recv : Watch → Recv → Watch
  | .receiving _, .raised => .ended none
  | .receiving _, .data [] => .ended none
  | .receiving buffer, .data (b :: chunk) => scan (buffer ++ b :: chunk)
  | .ended status, _ => .ended status

/-- `_watch_exit` -/
def watchExit (received : List Recv) : Watch :=
  received.foldl Watch.recv (.receiving [])

/-- No more is to come: the stream has ended, or reading it failed. -/
def Recv.isLast : Recv → Bool
  | .data [] => true
  | .data _ => false
  | .raised => true

/-! ## It reads line by line, however the stream is cut -/

/-- What the complete lines of a text come to, with what is left behind them. -/
def verdict (text : List Bytes × Bytes) : Watch :=
  match text.1.findSome? parseExit with
  | some status => .ended (some status)
  | none => .receiving text.2

theorem scan_eq (buffer : Bytes) : scan buffer = verdict (lines newline buffer) := by
  induction buffer using scan.induct with
  | case1 buffer hcut =>
    rw [scan]
    split
    · rw [lines_of_not_mem (cut_eq_none hcut)]
      rfl
    · rw [hcut] at *
      cases ‹_ = some _›
  | case2 buffer line rest hcut status hstatus =>
    obtain ⟨rfl, hline⟩ := cut_eq_some hcut
    rw [scan]
    split
    · simp_all
    · rename_i hcut'
      rw [hcut] at hcut'
      cases hcut'
      rw [hstatus, lines_line hline, verdict, List.findSome?_cons, hstatus]
  | case3 buffer line rest hcut hstatus ih =>
    obtain ⟨rfl, hline⟩ := cut_eq_some hcut
    rw [scan]
    split
    · simp_all
    · rename_i hcut'
      rw [hcut] at hcut'
      cases hcut'
      rw [hstatus, ih, lines_line hline, verdict, verdict, List.findSome?_cons, hstatus]

theorem foldl_recv_ended (status : Option Int) (received : List Recv) :
    received.foldl Watch.recv (.ended status) = .ended status := by
  induction received with
  | nil => rfl
  | cons r received ih => exact ih

/-- What is done with the stream does not depend on the chunks it comes in. -/
theorem foldl_recv_chunks {buffer : Bytes} {chunks : List Bytes} (hbuffer : newline ∉ buffer)
    (hchunks : ∀ chunk ∈ chunks, chunk ≠ []) :
    (chunks.map Recv.data).foldl Watch.recv (.receiving buffer) =
      verdict (lines newline (buffer ++ chunks.flatten)) := by
  induction chunks generalizing buffer with
  | nil =>
    rw [List.flatten_nil, List.append_nil, lines_of_not_mem hbuffer]
    rfl
  | cons chunk chunks ih =>
    obtain ⟨hchunk, hrest⟩ := List.forall_mem_cons.mp hchunks
    have hrecv : Watch.recv (.receiving buffer) (.data chunk) = scan (buffer ++ chunk) := by
      cases chunk with
      | nil => exact absurd rfl hchunk
      | cons b chunk => rfl
    rw [List.map_cons, List.foldl_cons, hrecv, scan_eq, List.flatten_cons, ← List.append_assoc,
      lines_append (buffer ++ chunk), verdict, verdict, List.findSome?_append]
    cases hfound : (lines newline (buffer ++ chunk)).1.findSome? parseExit with
    | some status => exact foldl_recv_ended _ _
    | none => exact ih (not_mem_left _ _) hrest

theorem watchExit_chunks {chunks : List Bytes} (hchunks : ∀ chunk ∈ chunks, chunk ≠ []) :
    watchExit (chunks.map .data) = verdict (lines newline chunks.flatten) :=
  foldl_recv_chunks List.not_mem_nil hchunks

/-! ## Numbers -/

theorem signed_repr (n : Int) : signed (toString n).toList = some n := by
  rw [Int.toString_eq_repr, Int.repr_eq_if]
  split
  · rename_i hn
    rw [Nat.toList_repr, signed_toDigits, Int.toNat_of_nonneg hn]
  · rename_i hn
    have htext : ("-" ++ (-n).toNat.repr).toList = '-' :: Nat.toDigits 10 (-n).toNat := by
      rw [String.toList_append, Nat.toList_repr]
      rfl
    rw [htext, signed, natural_toDigits, Option.map_some, Int.toNat_of_nonneg (by omega), Int.neg_neg]

theorem length_toString_le {n : Int} {k : Nat} (hk : 0 < k) (hn : n.natAbs < 10 ^ k) :
    (toString n).toList.length ≤ k + 1 := by
  have hdigits (m : Nat) (hm : m < 10 ^ k) : m.repr.toList.length ≤ k := by
    rw [Nat.toList_repr]
    exact (Nat.length_toDigits_le_iff (by decide) hk).mpr hm
  rw [Int.toString_eq_repr, Int.repr_eq_if]
  split
  · exact Nat.le_succ_of_le (hdigits _ (by omega))
  · rw [String.toList_append, List.length_append, Nat.add_comm]
    exact Nat.add_le_add_right (hdigits _ (by omega)) 1

/-- The characters of a number: digits, and perhaps a sign. -/
def isNumeral (c : Char) : Bool :=
  c.isDigit || c = '-'

theorem isNumeral_of_mem_toString {n : Int} {c : Char} (hc : c ∈ (toString n).toList) : isNumeral c = true := by
  have hdigit (m : Nat) (h : c ∈ m.repr.toList) : isNumeral c = true := by
    rw [Nat.toList_repr] at h
    simp [isNumeral, isDigit_of_mem_toDigits h]
  rw [Int.toString_eq_repr, Int.repr_eq_if] at hc
  split at hc
  · exact hdigit _ hc
  · rw [String.toList_append] at hc
    rcases List.mem_append.mp hc with hc | hc
    · rw [List.mem_singleton.mp hc]
      rfl
    · exact hdigit _ hc

theorem toNat_of_isNumeral {c : Char} (h : isNumeral c = true) : 45 ≤ c.toNat ∧ c.toNat ≤ 57 := by
  rcases (Bool.or_eq_true _ _).mp h with hdigit | hminus
  · have hbounds : 48 ≤ c.toNat ∧ c.toNat ≤ 57 := by
      simpa [Char.isDigit, UInt32.le_iff_toNat_le] using hdigit
    omega
  · rw [of_decide_eq_true hminus]
    decide

theorem toUInt8_toNat {c : Char} (h : c.toNat < 256) : c.toUInt8.toNat = c.toNat :=
  Nat.mod_eq_of_lt h

/-- A number as the wire has it. -/
theorem chars_ascii {text : String} (h : ∀ c ∈ text.toList, c.toNat < 256) : chars (ascii text) = text.toList := by
  rw [chars, ascii, List.map_map]
  refine (List.map_congr_left fun c hc ↦ ?_).trans (List.map_id _)
  rw [Function.comp_apply, toUInt8_toNat (h c hc), Char.ofNat_toNat]
  rfl

theorem isSpaceByte_numeral {n : Int} : ∀ b ∈ ascii (toString n), isSpaceByte b = false := by
  intro b hb
  obtain ⟨c, hc, rfl⟩ := List.mem_map.mp hb
  obtain ⟨hlow, hhigh⟩ := toNat_of_isNumeral (isNumeral_of_mem_toString hc)
  have hnat := toUInt8_toNat (c := c) (by omega)
  simp only [isSpaceByte, Bool.or_eq_false_iff, Bool.and_eq_false_iff, decide_eq_false_iff_not,
    UInt8.le_iff_toNat_le, ← UInt8.toNat_inj, hnat]
  refine ⟨?_, .inr ?_⟩
  · simp only [UInt8.toNat_ofNat]
    omega
  · simp only [UInt8.toNat_ofNat]
    omega

theorem ascii_toString_ne_nil (n : Int) : ascii (toString n) ≠ [] := by
  intro h
  have hnil : (toString n).toList = [] := List.map_eq_nil_iff.mp h
  have hsigned := signed_repr n
  rw [hnil] at hsigned
  cases hsigned

/-- A number that is not too long is read as it was written. -/
theorem bytesInt_ascii {n : Int} (hn : (toString n).toList.length ≤ maxStrDigits) :
    bytesInt (ascii (toString n)) = some n := by
  have hchars : chars (ascii (toString n)) = (toString n).toList :=
    chars_ascii fun c hc ↦ by
      have := toNat_of_isNumeral (isNumeral_of_mem_toString hc)
      omega
  have hcount : (toString n).toList.countP Char.isDigit ≤ maxStrDigits :=
    Nat.le_trans List.countP_le_length hn
  rw [bytesInt, strip_eq_self isSpaceByte_numeral, hchars, if_pos hcount, signed_repr]

end Keycard.Firecracker
