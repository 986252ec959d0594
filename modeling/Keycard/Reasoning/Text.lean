import Mathlib.Data.List.DropRight

/-!
# Texts on the wire

An ASCII text has one byte for each character, and decodes as UTF-8 to itself.  What `split` and `readline`
do in every language: a word is a maximal run of symbols that are no separators, and a line is complete when
its end has been read.  A reader that gets its input in pieces carries what is left of the last line over to
the next piece; `lines_append` says that it reads the same lines.
-/

namespace Reasoning

universe u

/-- Only the characters of the text are tried, not all that there are. -/
instance decidableForallMem (p : Char → Prop) [DecidablePred p] (text : List Char) : Decidable (∀ c ∈ text, p c) :=
  List.decidableBAll p text

/-! ## ASCII -/

/-- The bytes of an ASCII text. -/
def ascii (text : String) : List UInt8 :=
  text.toList.map fun c ↦ c.toUInt8

def isAscii (text : String) : Bool :=
  text.toList.all fun c ↦ c.toNat < 128

def encodeUtf8 (text : String) : List UInt8 :=
  text.toList.flatMap String.utf8EncodeChar

def decodeUtf8 (bytes : List UInt8) : Option String :=
  String.fromUTF8? bytes.toByteArray

theorem ascii_append (s t : String) : ascii (s ++ t) = ascii s ++ ascii t := by
  simp [ascii]

theorem isAscii_append (s t : String) : isAscii (s ++ t) = (isAscii s && isAscii t) := by
  simp [isAscii]

theorem utf8EncodeChar_ascii {c : Char} (h : c.toNat < 128) : String.utf8EncodeChar c = [c.toUInt8] := by
  have hsize : c.utf8Size = 1 := by
    rw [Char.utf8Size_eq_one_iff, UInt32.le_iff_toNat_le]
    exact Nat.le_of_lt_succ h
  rw [String.utf8EncodeChar_eq_singleton hsize]
  rfl

theorem decodeUtf8_encodeUtf8 (text : String) : decodeUtf8 (encodeUtf8 text) = some text := by
  have harray : (encodeUtf8 text).toByteArray = text.toByteArray := by
    conv_rhs => rw [← String.ofList_toList (s := text), String.toByteArray_ofList]
    rfl
  rw [decodeUtf8, harray, String.fromUTF8?, dif_pos text.isValidUTF8]
  rfl

theorem encodeUtf8_ascii {text : String} (h : isAscii text = true) : encodeUtf8 text = ascii text := by
  rw [encodeUtf8, ascii, List.map_eq_flatMap]
  exact List.flatMap_congr fun c hc ↦ utf8EncodeChar_ascii (by simpa using List.all_eq_true.mp h c hc)

theorem decodeUtf8_ascii {text : String} (h : isAscii text = true) : decodeUtf8 (ascii text) = some text := by
  rw [← encodeUtf8_ascii h, decodeUtf8_encodeUtf8]

/-- A character that is not ASCII has no byte below 128. -/
theorem le_of_mem_utf8EncodeChar {c : Char} {b : UInt8} (h : b ∈ String.utf8EncodeChar c) (hsize : c.utf8Size ≠ 1) :
    128 ≤ b.toNat := by
  have hor (x k : UInt8) (hk : 128 ≤ k.toNat) : 128 ≤ (x ||| k).toNat := by
    rw [UInt8.toNat_or]
    exact Nat.le_trans hk Nat.right_le_or
  have hfour : c.utf8Size = 2 ∨ c.utf8Size = 3 ∨ c.utf8Size = 4 := by
    have := c.utf8Size_pos
    have := c.utf8Size_le_four
    omega
  rcases hfour with htwo | hthree | hfour
  · rw [String.utf8EncodeChar_eq_cons_cons htwo] at h
    simp only [List.mem_cons, List.not_mem_nil, or_false] at h
    rcases h with rfl | rfl
    all_goals exact hor _ _ (by decide)
  · rw [String.utf8EncodeChar_eq_cons_cons_cons hthree] at h
    simp only [List.mem_cons, List.not_mem_nil, or_false] at h
    rcases h with rfl | rfl | rfl
    all_goals exact hor _ _ (by decide)
  · rw [String.utf8EncodeChar_eq_cons_cons_cons_cons hfour] at h
    simp only [List.mem_cons, List.not_mem_nil, or_false] at h
    rcases h with rfl | rfl | rfl | rfl
    all_goals exact hor _ _ (by decide)

theorem of_mem_utf8EncodeChar {c : Char} {b : UInt8} (h : b ∈ String.utf8EncodeChar c) (hb : b.toNat < 128) :
    c.toNat < 128 ∧ b = c.toUInt8 := by
  by_cases hsize : c.utf8Size = 1
  · rw [String.utf8EncodeChar_eq_singleton hsize] at h
    rw [Char.utf8Size_eq_one_iff, UInt32.le_iff_toNat_le] at hsize
    exact ⟨Nat.lt_succ_of_le hsize, List.mem_singleton.mp h⟩
  · exact absurd (le_of_mem_utf8EncodeChar h hsize) (by omega)

theorem of_mem_encodeUtf8 {text : String} {b : UInt8} (h : b ∈ encodeUtf8 text) (hb : b.toNat < 128) :
    ∃ c ∈ text.toList, c.toNat < 128 ∧ b = c.toUInt8 := by
  obtain ⟨c, hc, hmem⟩ := List.mem_flatMap.mp h
  exact ⟨c, hc, of_mem_utf8EncodeChar hmem hb⟩

variable {α : Type u}

/-! ## Decimals -/

theorem isDigit_of_mem_toDigits {n : Nat} {c : Char} (h : c ∈ Nat.toDigits 10 n) : c.isDigit = true :=
  Nat.isDigit_of_mem_toDigits (by decide) (by decide) h

/-- A decimal has no sign. -/
theorem toDigits_ne_cons {c : Char} (hc : c.isDigit = false) {n : Nat} {rest : List Char} :
    Nat.toDigits 10 n ≠ c :: rest := by
  intro h
  have hdigit : c.isDigit = true := isDigit_of_mem_toDigits (h ▸ List.mem_cons_self)
  rw [hc] at hdigit
  cases hdigit

/-! ## Words -/

/-- There is nothing to strip. -/
theorem strip_eq_self {p : α → Bool} {text : List α} (h : ∀ b ∈ text, p b = false) :
    (text.dropWhile p).rdropWhile p = text := by
  have hdrop : text.dropWhile p = text := by
    rw [List.dropWhile_eq_self_iff]
    intro hlength
    simp [h _ (List.getElem_mem hlength)]
  rw [hdrop, List.rdropWhile_eq_self_iff]
  intro hne
  simp [h _ (List.getLast_mem hne)]

section

variable (sep : α → Bool)

def wordsFrom (word : List α) : List α → List (List α)
  | [] => if word.isEmpty then [] else [word]
  | b :: rest =>
    if sep b then
      if word.isEmpty then wordsFrom [] rest else word :: wordsFrom [] rest
    else wordsFrom (word ++ [b]) rest

def words (text : List α) : List (List α) :=
  wordsFrom sep [] text

variable {sep} {word rest : List α} {b : α}

theorem noSep_of_all (h : (word.all fun b ↦ !sep b) = true) : ∀ b ∈ word, sep b = false := by
  simpa using h

theorem wordsFrom_append (hword : ∀ b ∈ word, sep b = false) (begun rest : List α) :
    wordsFrom sep begun (word ++ rest) = wordsFrom sep (begun ++ word) rest := by
  induction word generalizing begun with
  | nil => rw [List.append_nil, List.nil_append]
  | cons c word ih =>
    rw [List.cons_append, wordsFrom, hword c List.mem_cons_self, if_neg Bool.false_ne_true,
      ih fun b hb ↦ hword b (List.mem_cons_of_mem c hb), List.append_assoc]
    rfl

/-- A text without separators is one word. -/
theorem words_word (hne : word ≠ []) (hword : ∀ b ∈ word, sep b = false) : words sep word = [word] := by
  have h := wordsFrom_append hword [] []
  rw [List.append_nil, List.nil_append, wordsFrom, if_neg (by simpa using hne)] at h
  exact h

theorem words_append_sep (hne : word ≠ []) (hword : ∀ b ∈ word, sep b = false) (hb : sep b = true) :
    words sep (word ++ b :: rest) = word :: words sep rest := by
  rw [words, wordsFrom_append hword, List.nil_append, wordsFrom, if_pos hb, if_neg (by simpa using hne), words]

end

/-! ## Lines -/

section

variable [DecidableEq α] (nl : α)

/-- The first line without its end, and what comes after it. -/
def cut : List α → Option (List α × List α)
  | [] => none
  | b :: text => if b = nl then some ([], text) else (cut text).map fun (line, rest) ↦ (b :: line, rest)

/-- The complete lines of a text, and what is left behind the last of them. -/
def lines : List α → List (List α) × List α
  | [] => ([], [])
  | b :: text =>
    if b = nl then ([] :: (lines text).1, (lines text).2)
    else
      match (lines text).1 with
      | [] => ([], b :: (lines text).2)
      | line :: more => ((b :: line) :: more, (lines text).2)

variable {nl} {text rest line : List α}

theorem lines_of_not_mem (h : nl ∉ text) : lines nl text = ([], text) := by
  induction text with
  | nil => rfl
  | cons b text ih =>
    rw [lines, if_neg (Ne.symm (List.ne_of_not_mem_cons h)), ih (List.not_mem_of_not_mem_cons h)]

theorem lines_line (h : nl ∉ line) (rest : List α) :
    lines nl (line ++ nl :: rest) = (line :: (lines nl rest).1, (lines nl rest).2) := by
  induction line with
  | nil => rw [List.nil_append, lines, if_pos rfl]
  | cons b line ih =>
    rw [List.cons_append, lines, if_neg (Ne.symm (List.ne_of_not_mem_cons h)),
      ih (List.not_mem_of_not_mem_cons h)]

theorem not_mem_left (nl : α) (text : List α) : nl ∉ (lines nl text).2 := by
  induction text with
  | nil => exact List.not_mem_nil
  | cons b text ih =>
    rw [lines]
    split
    · exact ih
    · rename_i hb
      split
      · exact List.not_mem_cons_of_ne_of_not_mem (Ne.symm hb) ih
      · exact ih

theorem not_mem_of_mem_lines (nl : α) (text : List α) : ∀ line ∈ (lines nl text).1, nl ∉ line := by
  induction text with
  | nil => exact fun line hline ↦ absurd hline List.not_mem_nil
  | cons b text ih =>
    rw [lines]
    split
    · exact List.forall_mem_cons.mpr ⟨List.not_mem_nil, ih⟩
    · rename_i hb
      split
      · exact fun line hline ↦ absurd hline List.not_mem_nil
      · rename_i first more hlines
        rw [hlines] at ih
        obtain ⟨hfirst, hmore⟩ := List.forall_mem_cons.mp ih
        exact List.forall_mem_cons.mpr ⟨List.not_mem_cons_of_ne_of_not_mem (Ne.symm hb) hfirst, hmore⟩

/-- A text is its lines, each with its end, and what is left. -/
theorem flatMap_lines (nl : α) (text : List α) :
    (lines nl text).1.flatMap (fun line ↦ line ++ [nl]) ++ (lines nl text).2 = text := by
  induction text with
  | nil => rfl
  | cons b text ih =>
    rw [lines]
    split
    · rename_i hb
      simpa [hb] using ih
    · split
      · rename_i hlines
        simpa [hlines] using ih
      · rename_i first more hlines
        simpa [hlines] using ih

theorem lines_flatMap {ls : List (List α)} (h : ∀ line ∈ ls, nl ∉ line) (rest : List α) :
    lines nl (ls.flatMap (fun line ↦ line ++ [nl]) ++ rest) = (ls ++ (lines nl rest).1, (lines nl rest).2) := by
  induction ls with
  | nil => rfl
  | cons line ls ih =>
    obtain ⟨hline, hls⟩ := List.forall_mem_cons.mp h
    rw [List.flatMap_cons, List.append_assoc, List.append_assoc, List.singleton_append, lines_line hline, ih hls,
      List.cons_append]

/-- What is left of one piece is read together with the next. -/
theorem lines_append (text more : List α) : lines nl (text ++ more) =
    ((lines nl text).1 ++ (lines nl ((lines nl text).2 ++ more)).1,
      (lines nl ((lines nl text).2 ++ more)).2) := by
  have hsplit := flatMap_lines nl text
  have hall := lines_flatMap (not_mem_of_mem_lines nl text) ((lines nl text).2 ++ more)
  rw [← List.append_assoc, hsplit] at hall
  exact hall

theorem cut_eq_none (h : cut nl text = none) : nl ∉ text := by
  induction text with
  | nil => exact List.not_mem_nil
  | cons b text ih =>
    rw [cut] at h
    split at h
    · cases h
    · exact List.not_mem_cons_of_ne_of_not_mem (Ne.symm ‹_›) (ih (by simpa using h))

theorem cut_eq_some (h : cut nl text = some (line, rest)) : text = line ++ nl :: rest ∧ nl ∉ line := by
  induction text generalizing line with
  | nil => cases h
  | cons b text ih =>
    rw [cut] at h
    split at h
    · rename_i hb
      cases h
      exact ⟨by rw [hb, List.nil_append], List.not_mem_nil⟩
    · rename_i hb
      obtain ⟨⟨first, rest'⟩, hcut, heq⟩ := Option.map_eq_some_iff.mp h
      cases heq
      obtain ⟨rfl, hfirst⟩ := ih hcut
      exact ⟨rfl, List.not_mem_cons_of_ne_of_not_mem (Ne.symm hb) hfirst⟩

theorem cut_line (h : nl ∉ line) (rest : List α) : cut nl (line ++ nl :: rest) = some (line, rest) := by
  induction line with
  | nil => rw [List.nil_append, cut, if_pos rfl]
  | cons b line ih =>
    rw [List.cons_append, cut, if_neg (Ne.symm (List.ne_of_not_mem_cons h)), ih (List.not_mem_of_not_mem_cons h)]
    rfl

end

/-- What a text begins with is in its first line, if it has no end of a line in it. -/
theorem begins_line {nl : α} {start line rest : List α} (h : nl ∉ start) : start <+: line ++ nl :: rest ↔ start <+: line := by
  constructor
  · intro hstart
    rcases List.prefix_or_prefix_of_prefix hstart (List.prefix_append line (nl :: rest)) with hline | hshort
    · exact hline
    · obtain ⟨more, rfl⟩ := hshort
      cases more with
      | nil => exact ⟨[], by rw [List.append_nil, List.append_nil]⟩
      | cons b more =>
        have hmore : b :: more <+: nl :: rest := (List.prefix_append_right_inj line).mp hstart
        rw [(List.cons_prefix_cons.mp hmore).1] at h
        exact absurd (List.mem_append_right _ List.mem_cons_self) h
  · exact fun hstart ↦ hstart.trans (List.prefix_append line (nl :: rest))

end Reasoning
