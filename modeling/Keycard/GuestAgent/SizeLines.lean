import Keycard.GuestAgent.ControlProtocol
import Keycard.Session.TerminalSize

/-!
# Sizes on the wire

The host sends any size an SSH client may name, and `parse_resize` only takes those that fit into a `u16`: a line
with another one is ignored.  However the stream is cut, the reader has made something of the lines that are
complete and keeps the rest.
-/

open Reasoning

namespace Keycard.GuestAgent

open Keycard.Session (Size)
open Keycard.Firecracker (resizeLine isSpaceByte)

/-- What the agent makes of a size. -/
def winsizeOf (size : Size) : Option Winsize :=
  if size.width < UInt16.size ∧ size.height < UInt16.size then some ⟨.ofNat size.height, .ofNat size.width⟩
  else none

/-- The line that `room.resize` sends. -/
def sizeText (size : Size) : String :=
  resizeText size.width size.height

/-- What is sent for some sizes. -/
def sizeStream (sizes : List Size) : Bytes :=
  sizes.flatMap fun size ↦ resizeLine size.width size.height

theorem sizeStream_append (sizes more : List Size) : sizeStream (sizes ++ more) = sizeStream sizes ++ sizeStream more :=
  List.flatMap_append

theorem parseU16_toString (n : Nat) : parseU16 (toString (n : Int)).toList =
    if n < UInt16.size then some (.ofNat n) else none := by
  have htext : (toString (n : Int)).toList = Nat.toDigits 10 n := Nat.toList_repr
  have hplus : unsigned (Nat.toDigits 10 n) = Nat.toDigits 10 n := by
    unfold unsigned
    split
    · rename_i rest hrest
      exact absurd hrest (toDigits_ne_cons (by decide))
    · rfl
  have hall : (Nat.toDigits 10 n).all Char.isDigit = true :=
    List.all_eq_true.mpr fun _ ↦ isDigit_of_mem_toDigits
  have hempty : (Nat.toDigits 10 n).isEmpty = false := by
    simp
  rw [htext, parseU16, hplus, hempty, hall, Nat.ofDigitChars_ten_toDigits]
  rfl

theorem resizeOf_sizeText (size : Size) : resizeOf (sizeText size) = winsizeOf size := by
  have hverb : ∀ c ∈ "resize".toList, isWhitespace c = false := noSep_of_all rfl
  have hsplit : (sizeText size).toList = "resize".toList ++
      ' ' :: ((toString (size.width : Int)).toList ++ ' ' :: (toString (size.height : Int)).toList) := by
    rw [sizeText, resizeText, String.toList_append, String.toList_append, String.toList_append, List.append_assoc,
      List.append_assoc]
    rfl
  rw [resizeOf, parseResize, hsplit, words_append_sep (by decide) hverb (by decide),
    words_append_sep (toString_toList_ne_nil _) isWhitespace_numeral (by decide),
    words_word (toString_toList_ne_nil _) isWhitespace_numeral]
  simp only [if_true, parseU16_toString, winsizeOf]
  by_cases hwidth : size.width < UInt16.size
  · by_cases hheight : size.height < UInt16.size
    · simp [hwidth, hheight]
    · simp [hwidth, hheight]
  · simp [hwidth]

theorem readLines_sizeTexts (sizes : List Size) :
    readLines (sizes.map fun size ↦ ascii (sizeText size)) = (sizes.map winsizeOf, false) := by
  induction sizes with
  | nil => rfl
  | cons size sizes ih =>
    have hascii : isAscii (sizeText size) = true := by
      simp only [sizeText, resizeText, isAscii_append, isAscii_toString]
      decide
    have hchomp := chomp_numeral ("resize " ++ toString (size.width : Int) ++ " ") size.height
    rw [← resizeText, ← sizeText] at hchomp
    rw [List.map_cons, readLines, hchomp, decodeUtf8_ascii hascii]
    simp only [ih, resizeOf_sizeText, List.map_cons]

theorem lines_sizeStream (sizes : List Size) :
    lines newline (sizeStream sizes) = (sizes.map fun size ↦ ascii (sizeText size), []) := by
  have htexts : sizeStream sizes =
      (sizes.map fun size ↦ ascii (sizeText size)).flatMap fun line ↦ line ++ [newline] := by
    rw [sizeStream, List.flatMap_map]
    exact List.flatMap_congr fun size _ ↦ resizeLine_eq _ _
  have hends : ∀ line ∈ sizes.map fun size ↦ ascii (sizeText size), newline ∉ line := by
    intro line hline
    obtain ⟨size, -, rfl⟩ := List.mem_map.mp hline
    exact newline_not_mem_resizeText _ _
  have hall := lines_flatMap hends []
  rw [List.append_nil, ← htexts] at hall
  rw [hall]
  simp [lines]

/-- The reader has got this much of the stream. -/
def CtrlReader.Got (r : CtrlReader) (text : Bytes) : Prop :=
  r = ⟨(lines newline text).2, (readLines (lines newline text).1).1, false⟩ ∧
    (readLines (lines newline text).1).2 = false

theorem CtrlReader.got_start : CtrlReader.start.Got [] :=
  ⟨rfl, rfl⟩

theorem CtrlReader.Got.receive {r : CtrlReader} {text chunk : Bytes} (h : r.Got text) (hne : chunk ≠ [])
    (hgood : (readLines (lines newline (text ++ chunk)).1).2 = false) :
    (r.receive (some chunk)).Got (text ++ chunk) := by
  obtain ⟨rfl, hread⟩ := h
  rw [lines_append] at hgood
  obtain ⟨-, hmore, heq⟩ := readLines_append _ _ hgood
  have hone := @foldl_receive [chunk] (lines newline text).2 (readLines (lines newline text).1).1
    (not_mem_left _ _) (by simpa using hne) (by simpa using hmore)
  simp only [List.map_singleton, List.foldl_cons, List.foldl_nil, List.flatten_singleton] at hone
  have hlines := @lines_append _ _ newline text chunk
  refine ⟨?_, by rw [hlines]; exact hgood⟩
  rw [hone, hlines]
  simp only [heq]

/-- What was made of the lines so far stays as it is. -/
theorem CtrlReader.Got.sizes_receive {r : CtrlReader} {text chunk : Bytes} (h : r.Got text) (hne : chunk ≠ [])
    (hgood : (readLines (lines newline (text ++ chunk)).1).2 = false) :
    r.sizes <+: (r.receive (some chunk)).sizes := by
  have hgot := h.receive hne hgood
  rw [lines_append] at hgood
  obtain ⟨-, -, heq⟩ := readLines_append _ _ hgood
  have hlines := @lines_append _ _ newline text chunk
  rw [hgot.1, h.1, hlines]
  exact ⟨_, heq.symm⟩

/-- What the reader has made of the beginning of a stream of sizes. -/
theorem CtrlReader.Got.sizes {r : CtrlReader} {text : Bytes} {sizes : List Size} (h : r.Got text)
    (hbegun : text <+: sizeStream sizes) : r.sizes <+: sizes.map winsizeOf := by
  obtain ⟨rest, hrest⟩ := hbegun
  have hlines := lines_sizeStream sizes
  rw [← hrest, lines_append] at hlines
  have hread := readLines_sizeTexts sizes
  rw [← (Prod.mk.inj hlines).1] at hread
  obtain ⟨-, -, heq⟩ := readLines_append _ _ (congrArg Prod.snd hread)
  have hall := congrArg Prod.fst hread
  rw [heq] at hall
  rw [h.1]
  exact ⟨_, hall⟩

/-- A stream of sizes is good at any point. -/
theorem readLines_begun {text : Bytes} {sizes : List Size} (hbegun : text <+: sizeStream sizes) :
    (readLines (lines newline text).1).2 = false := by
  obtain ⟨rest, hrest⟩ := hbegun
  have hlines := lines_sizeStream sizes
  rw [← hrest, lines_append] at hlines
  have hread := readLines_sizeTexts sizes
  rw [← (Prod.mk.inj hlines).1] at hread
  exact (readLines_append _ _ (congrArg Prod.snd hread)).1

end Keycard.GuestAgent
