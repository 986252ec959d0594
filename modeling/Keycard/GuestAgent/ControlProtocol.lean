import Keycard.Backends.ControlChannel
import Keycard.GuestAgent.ControlReader

/-!
# The two halves of the control protocol

What one side writes the other reads, in whatever pieces it arrives: the exit status on its way to the host,
the sizes on their way to the agent.
-/

open Reasoning

namespace Keycard.GuestAgent

open Session (exitLine)
open Keycard.Firecracker (parseExit resizeLine bytesSplit bytesInt watchExit Recv Watch verdict isSpaceByte)

/-! ## The exit line -/

/-- `exit <code>` without its end. -/
def exitText (code : Int32) : Bytes :=
  ascii ("exit " ++ toString code.toInt)

theorem exitLine_eq (code : Int32) : exitLine code = exitText code ++ [newline] := by
  rw [exitText, exitLine]
  exact ascii_append _ "\n"

theorem parseExit_exitText (code : Int32) : parseExit (exitText code) = some code.toInt := by
  have hlow := code.le_toInt
  have hhigh := code.toInt_lt
  have hlength := Firecracker.length_toString_le (n := code.toInt) (k := 10) (by decide) (by omega)
  have hverb : ∀ b ∈ ascii "exit", isSpaceByte b = false := noSep_of_all rfl
  have hwords : bytesSplit (exitText code) = [ascii "exit", ascii (toString code.toInt)] := by
    have hsplit : exitText code = ascii "exit" ++ 32 :: ascii (toString code.toInt) := ascii_append "exit " _
    rw [bytesSplit, hsplit, words_append_sep (by decide) hverb (by decide),
      words_word (Firecracker.ascii_toString_ne_nil _) Firecracker.isSpaceByte_numeral]
  rw [parseExit, hwords]
  simp only [if_true]
  exact Firecracker.bytesInt_ascii (Nat.le_trans hlength (by decide))

/-! ## The resize line -/

def resizeText (width height : Int) : String :=
  "resize " ++ toString width ++ " " ++ toString height

theorem resizeLine_eq (width height : Int) : resizeLine width height = ascii (resizeText width height) ++ [newline] :=
  ascii_append _ "\n"

theorem resizeText_words (width height : Int) : bytesSplit (ascii (resizeText width height)) =
    [ascii "resize", ascii (toString width), ascii (toString height)] := by
  have hverb : ∀ b ∈ ascii "resize", isSpaceByte b = false := noSep_of_all rfl
  have hsplit : ascii (resizeText width height) =
      ascii "resize" ++ 32 :: (ascii (toString width) ++ 32 :: ascii (toString height)) := by
    rw [resizeText, ascii_append, ascii_append, ascii_append, List.append_assoc, List.append_assoc]
    rfl
  rw [bytesSplit, hsplit, words_append_sep (by decide) hverb (by decide),
    words_append_sep (Firecracker.ascii_toString_ne_nil _) Firecracker.isSpaceByte_numeral (by decide),
    words_word (Firecracker.ascii_toString_ne_nil _) Firecracker.isSpaceByte_numeral]

theorem parseExit_resizeText (width height : Int) : parseExit (ascii (resizeText width height)) = none := by
  rw [parseExit, resizeText_words]

theorem isWhitespace_numeral {n : Int} : ∀ c ∈ (toString n).toList, isWhitespace c = false := by
  intro c hc
  obtain ⟨hlow, hhigh⟩ := Firecracker.toNat_of_isNumeral (Firecracker.isNumeral_of_mem_toString hc)
  simp only [isWhitespace, Bool.or_eq_false_iff, Bool.and_eq_false_iff, decide_eq_false_iff_not]
  omega

theorem toString_toList_ne_nil (n : Int) : (toString n).toList ≠ [] := by
  intro h
  exact Firecracker.ascii_toString_ne_nil n (List.map_eq_nil_iff.mpr h)

theorem parseResize_resizeText (width height : UInt16) :
    parseResize (resizeText width.toNat height.toNat) = some (width, height) := by
  have hverb : ∀ c ∈ "resize".toList, isWhitespace c = false := noSep_of_all rfl
  have hsplit : (resizeText width.toNat height.toNat).toList = "resize".toList ++
      ' ' :: ((toString (width.toNat : Int)).toList ++ ' ' :: (toString (height.toNat : Int)).toList) := by
    rw [resizeText, String.toList_append, String.toList_append, String.toList_append, List.append_assoc,
      List.append_assoc]
    rfl
  rw [parseResize, hsplit, words_append_sep (by decide) hverb (by decide),
    words_append_sep (toString_toList_ne_nil _) isWhitespace_numeral (by decide),
    words_word (toString_toList_ne_nil _) isWhitespace_numeral]
  simp only [if_true, parseU16_repr]
  rfl

theorem parseResize_exitText (code : Int32) : parseResize ("exit " ++ toString code.toInt) = none := by
  have hverb : ∀ c ∈ "exit".toList, isWhitespace c = false := noSep_of_all rfl
  have hsplit : ("exit " ++ toString code.toInt).toList = "exit".toList ++ ' ' :: (toString code.toInt).toList :=
    String.toList_append
  rw [parseResize, hsplit, words_append_sep (by decide) hverb (by decide),
    words_word (toString_toList_ne_nil _) isWhitespace_numeral]

theorem isAscii_toString (n : Int) : isAscii (toString n) = true := by
  refine List.all_eq_true.mpr fun c hc ↦ ?_
  obtain ⟨-, hhigh⟩ := Firecracker.toNat_of_isNumeral (Firecracker.isNumeral_of_mem_toString hc)
  exact decide_eq_true (by omega)

theorem newline_not_mem_numeral (n : Int) : newline ∉ ascii (toString n) := by
  intro hmem
  cases Firecracker.isSpaceByte_numeral _ hmem

theorem newline_not_mem_resizeText (width height : Int) : newline ∉ ascii (resizeText width height) := by
  simp only [resizeText, ascii_append, List.mem_append, not_or]
  exact ⟨⟨⟨by decide, newline_not_mem_numeral width⟩, by decide⟩, newline_not_mem_numeral height⟩

/-- A line that ends with a number has no carriage return at its end. -/
theorem chomp_numeral (text : String) (n : Int) : chomp (ascii (text ++ toString n)) = ascii (text ++ toString n) := by
  have hlast : (ascii (text ++ toString n)).getLast? ≠ some 13 := by
    rw [ascii_append, List.getLast?_append_of_ne_nil _ (Firecracker.ascii_toString_ne_nil n)]
    intro hcr
    cases Firecracker.isSpaceByte_numeral _ (List.mem_of_getLast? hcr)
  rw [chomp, if_neg hlast]

theorem readLines_resizeText (sizes : List (UInt16 × UInt16)) :
    readLines (sizes.map fun (width, height) ↦ ascii (resizeText width.toNat height.toNat)) =
      (sizes.map fun (width, height) ↦ some ⟨height, width⟩, false) := by
  induction sizes with
  | nil => rfl
  | cons size sizes ih =>
    have hascii : isAscii (resizeText size.1.toNat size.2.toNat) = true := by
      simp only [resizeText, isAscii_append, isAscii_toString]
      decide
    have hchomp := chomp_numeral ("resize " ++ toString (size.1.toNat : Int) ++ " ") size.2.toNat
    rw [← resizeText] at hchomp
    rw [List.map_cons, readLines, hchomp, decodeUtf8_ascii hascii]
    simp only [ih, resizeOf, parseResize_resizeText, Option.map_some, List.map_cons]

theorem readLines_exitText (code : Int32) : readLines [exitText code] = ([none], false) := by
  have hascii : isAscii ("exit " ++ toString code.toInt) = true := by
    rw [isAscii_append, isAscii_toString]
    rfl
  rw [readLines, exitText, chomp_numeral, decodeUtf8_ascii hascii]
  simp only [readLines, resizeOf, parseResize_exitText, Option.map_none]

theorem newline_not_mem_exitText (code : Int32) : newline ∉ exitText code := by
  rw [exitText, ascii_append, List.mem_append, not_or]
  exact ⟨by decide, newline_not_mem_numeral _⟩

/-! ## Whole streams -/

/-- What the agent writes to the control channel: lines that say nothing to the host, and the exit line. -/
def exitStream (before : List Bytes) (code : Int32) : Bytes :=
  before.flatMap (fun line ↦ line ++ [newline]) ++ exitLine code

/-- What the host writes to it. -/
def resizeStream (sizes : List (UInt16 × UInt16)) : Bytes :=
  sizes.flatMap fun (width, height) ↦ resizeLine width.toNat height.toNat

section

variable {before : List Bytes} {code : Int32}

theorem exitStream_eq (before : List Bytes) (code : Int32) :
    exitStream before code = (before ++ [exitText code]).flatMap fun line ↦ line ++ [newline] := by
  rw [exitStream, exitLine_eq, List.flatMap_append, List.flatMap_singleton]

theorem lines_exitStream (hbefore : ∀ line ∈ before, newline ∉ line) (code : Int32) (rest : Bytes) :
    lines newline (exitStream before code ++ rest) =
      (before ++ [exitText code] ++ (lines newline rest).1, (lines newline rest).2) := by
  rw [exitStream_eq, lines_flatMap]
  intro line hline
  rcases List.mem_append.mp hline with hline | hline
  · exact hbefore line hline
  · rw [List.mem_singleton.mp hline]
    exact newline_not_mem_exitText code

theorem findSome?_before (hbefore : ∀ line ∈ before, parseExit line = none) : before.findSome? parseExit = none :=
  List.findSome?_eq_none_iff.mpr hbefore

/-- What has arrived before the exit line is complete are lines from before it. -/
theorem lines_of_prefix (hbefore : ∀ line ∈ before, newline ∉ line) {text : Bytes}
    (hbegun : text <+: exitStream before code) (hne : text ≠ exitStream before code) :
    (lines newline text).1 <+: before := by
  obtain ⟨rest, hrest⟩ := hbegun
  have hwhole := lines_exitStream hbefore code []
  rw [List.append_nil, ← hrest, lines_append] at hwhole
  have hlines : (lines newline text).1 <+: before ++ [exitText code] :=
    ⟨_, by simpa [lines] using congrArg Prod.fst hwhole⟩
  refine (List.prefix_concat_iff.mp hlines).resolve_left fun hall ↦ hne ?_
  -- all lines are there, and so is the whole stream
  have htext := flatMap_lines newline text
  rw [hall, ← exitStream_eq] at htext
  have hlength := congrArg List.length hrest
  rw [← htext, List.length_append, List.length_append] at hlength
  have hleft : (lines newline text).2 = [] := List.eq_nil_of_length_eq_zero (by omega)
  rw [hleft, List.append_nil] at htext
  exact htext.symm

theorem watchExit_exitStream (hbefore : ∀ line ∈ before, newline ∉ line ∧ parseExit line = none)
    {chunks : List Bytes} (hchunks : ∀ chunk ∈ chunks, chunk ≠ []) (rest : Bytes)
    (hstream : chunks.flatten = exitStream before code ++ rest) :
    watchExit (chunks.map .data) = .ended (some code.toInt) := by
  have hnone := findSome?_before fun line hline ↦ (hbefore line hline).2
  rw [Firecracker.watchExit_chunks hchunks, hstream]
  have hlines := lines_exitStream (fun line hline ↦ (hbefore line hline).1) code rest
  rw [verdict, show Firecracker.newline = newline from rfl, hlines, List.append_assoc, List.findSome?_append, hnone,
    Option.none_or, List.singleton_append, List.findSome?_cons, parseExit_exitText]

theorem watchExit_cut (hbefore : ∀ line ∈ before, newline ∉ line ∧ parseExit line = none)
    {chunks : List Bytes} (hchunks : ∀ chunk ∈ chunks, chunk ≠ []) {stop : Recv} (hstop : stop.isLast = true)
    (hbegun : chunks.flatten <+: exitStream before code) (hne : chunks.flatten ≠ exitStream before code) :
    watchExit (chunks.map .data ++ [stop]) = .ended none := by
  have hlines := lines_of_prefix (fun line hline ↦ (hbefore line hline).1) hbegun hne
  have hnone : (lines newline chunks.flatten).1.findSome? parseExit = none :=
    findSome?_before fun line hline ↦ (hbefore line (hlines.subset hline)).2
  have hverdict : verdict (lines Firecracker.newline chunks.flatten) =
      .receiving (lines newline chunks.flatten).2 := by
    rw [verdict, show Firecracker.newline = newline from rfl, hnone]
  rw [watchExit, List.foldl_append, ← watchExit, Firecracker.watchExit_chunks hchunks, hverdict]
  cases stop with
  | raised => rfl
  | data chunk =>
    cases chunk with
    | nil => rfl
    | cons b chunk => cases hstop

end

theorem receive_resizeStream {sizes : List (UInt16 × UInt16)} {segments : List Bytes}
    (hsegments : ∀ segment ∈ segments, segment ≠ []) (hstream : segments.flatten = resizeStream sizes) :
    (segments.map some).foldl CtrlReader.receive .start =
      ⟨[], sizes.map fun (width, height) ↦ some ⟨height, width⟩, false⟩ := by
  have hlines : lines newline (resizeStream sizes) =
      (sizes.map fun (width, height) ↦ ascii (resizeText width.toNat height.toNat), []) := by
    have htexts : resizeStream sizes = (sizes.map fun (width, height) ↦
        ascii (resizeText width.toNat height.toNat)).flatMap fun line ↦ line ++ [newline] := by
      rw [resizeStream, List.flatMap_map]
      exact List.flatMap_congr fun size _ ↦ resizeLine_eq _ _
    have hends : ∀ line ∈ sizes.map fun (width, height) ↦ ascii (resizeText width.toNat height.toNat),
        newline ∉ line := by
      intro line hline
      obtain ⟨size, -, rfl⟩ := List.mem_map.mp hline
      exact newline_not_mem_resizeText _ _
    have hall := lines_flatMap hends []
    rw [List.append_nil, ← htexts] at hall
    rw [hall]
    simp [lines]
  have hread := readLines_resizeText sizes
  have hfold := foldl_receive [] [] List.not_mem_nil hsegments (by
    rw [List.nil_append, hstream, hlines, hread])
  rw [CtrlReader.start, hfold, List.nil_append, hstream, hlines, hread, List.nil_append]

/-- The host does not take a size for a status. -/
theorem watchExit_resizeLine (width height : Int) : watchExit [.data (resizeLine width height)] = .receiving [] := by
  have hne : ∀ chunk ∈ [resizeLine width height], chunk ≠ [] := by
    simp [resizeLine_eq]
  have hlines := lines_line (newline_not_mem_resizeText width height) []
  have hwatch := Firecracker.watchExit_chunks hne
  rw [List.flatten_singleton, resizeLine_eq, show Firecracker.newline = newline from rfl, hlines, verdict,
    lines, List.findSome?_cons, parseExit_resizeText, List.findSome?_nil] at hwatch
  rw [resizeLine_eq]
  exact hwatch

/-- The agent does not take a status for a size. -/
theorem receive_exitLine (code : Int32) :
    CtrlReader.start.receive (some (exitLine code)) = ⟨[], [none], false⟩ := by
  have hlines := lines_line (newline_not_mem_exitText code) []
  have hne : ∀ chunk ∈ [exitLine code], chunk ≠ [] := by
    simp [exitLine_eq]
  have hlines' : lines newline ([] ++ [exitLine code].flatten) = ([exitText code], []) := by
    rw [List.nil_append, List.flatten_singleton, exitLine_eq, hlines]
    rfl
  have hfold := foldl_receive [] [] List.not_mem_nil hne (by rw [hlines', readLines_exitText])
  rw [hlines', readLines_exitText] at hfold
  exact hfold

/-- The two halves agree on the exit status and on the sizes, and neither takes the other's verb for its own. -/
theorem halves_agree {code : Int32} {before chunks segments : List Bytes} {sizes : List (UInt16 × UInt16)}
    (hbefore : ∀ line ∈ before, newline ∉ line ∧ parseExit line = none)
    (hchunks : ∀ chunk ∈ chunks, chunk ≠ []) (hsegments : ∀ segment ∈ segments, segment ≠ []) :
    (∀ rest, chunks.flatten = exitStream before code ++ rest →
        watchExit (chunks.map .data) = .ended (some code.toInt)) ∧
      (∀ stop : Recv, stop.isLast = true → chunks.flatten <+: exitStream before code →
        chunks.flatten ≠ exitStream before code → watchExit (chunks.map .data ++ [stop]) = .ended none) ∧
      (segments.flatten = resizeStream sizes → (segments.map some).foldl CtrlReader.receive .start =
        ⟨[], sizes.map fun (width, height) ↦ some ⟨height, width⟩, false⟩) ∧
      (∀ width height : Int, watchExit [.data (resizeLine width height)] = .receiving []) ∧
      ∀ code' : Int32, CtrlReader.start.receive (some (exitLine code')) = ⟨[], [none], false⟩ := by
  refine ⟨fun rest hstream ↦ watchExit_exitStream hbefore hchunks rest hstream,
    fun stop hstop hbegun hne ↦ watchExit_cut hbefore hchunks hstop hbegun hne,
    fun hstream ↦ receive_resizeStream hsegments hstream, watchExit_resizeLine, receive_exitLine⟩

/-- An unknown verb before the exit line, which arrives in two pieces; three sizes, of which the second is cut. -/
theorem halves_agree_in_pieces :
    watchExit [.data (ascii "ready\nex"), .data (ascii "it -1\n")] = .ended (some (-1)) ∧
      [some (ascii "resize 80 24\nresize 1"), some (ascii "00 30\nresize 0 65535\n")].foldl
        CtrlReader.receive .start = ⟨[], [some ⟨24, 80⟩, some ⟨30, 100⟩, some ⟨65535, 0⟩], false⟩ := by
  have hagree := @halves_agree (-1) [ascii "ready"] [ascii "ready\nex", ascii "it -1\n"]
    [ascii "resize 80 24\nresize 1", ascii "00 30\nresize 0 65535\n"] [(80, 24), (100, 30), (0, 65535)]
    (by decide) (by decide) (by decide)
  exact ⟨hagree.1 [] (by decide), hagree.2.2.1 (by decide)⟩

end Keycard.GuestAgent
