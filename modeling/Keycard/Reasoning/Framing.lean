import Mathlib.Data.List.Basic

/-!
# Heads that end with an empty line

A head is some lines, each with the end `cr lf`, and an empty line behind them.  A reader that looks for the
first `cr lf cr lf` finds the end of the head, and splitting what it has read at every `cr lf` gives the lines
back, because no line is empty and none has a `cr` in it.
-/

namespace Reasoning

universe u

variable {α : Type u} [DecidableEq α]

/-! ## Looking for a separator -/

/-- What comes before the first `sep` and with it, and what comes after it. -/
def readUntil (sep : List α) : List α → Option (List α × List α)
  | [] => none
  | b :: text =>
    if sep.isPrefixOf (b :: text) then some (sep, (b :: text).drop sep.length)
    else (readUntil sep text).map fun (head, rest) ↦ (b :: head, rest)

/-- What is put in front of the first of some parts. -/
def consHead (b : α) : List (List α) → List (List α)
  | [] => [[b]]
  | part :: parts => (b :: part) :: parts

/-- The parts of a text, between one `cr lf` and the next. -/
def splitPair (cr lf : α) : List α → List (List α)
  | [] => [[]]
  | [b] => [[b]]
  | b :: c :: text =>
    if b = cr ∧ c = lf then [] :: splitPair cr lf text else consHead b (splitPair cr lf (c :: text))

/-! ## Lines -/

/-- Some lines with their ends. -/
def withEnds (cr lf : α) (lines : List (List α)) : List α :=
  lines.flatMap fun line ↦ line ++ [cr, lf]

/-- Lines that can be put into a head. -/
def AreLines (cr : α) (lines : List (List α)) : Prop :=
  ∀ line ∈ lines, line ≠ [] ∧ cr ∉ line

section

variable {cr lf : α} {line : List α} {lines : List (List α)}

omit [DecidableEq α] in
theorem withEnds_cons (line : List α) (lines : List (List α)) (text : List α) :
    withEnds cr lf (line :: lines) ++ text = line ++ cr :: lf :: (withEnds cr lf lines ++ text) := by
  rw [withEnds, List.flatMap_cons, List.append_assoc, List.append_assoc]
  rfl

omit [DecidableEq α] in
theorem of_mem_withEnds {b : α} (h : b ∈ withEnds cr lf lines) : (∃ line ∈ lines, b ∈ line) ∨ b = cr ∨ b = lf := by
  obtain ⟨line, hline, hb⟩ := List.mem_flatMap.mp h
  rcases List.mem_append.mp hb with hb | hb
  · exact .inl ⟨line, hline, hb⟩
  · exact .inr (by simpa using hb)

omit [DecidableEq α] in
theorem intercalate_end (hne : lines ≠ []) : [cr, lf].intercalate lines ++ [cr, lf] = withEnds cr lf lines := by
  induction lines with
  | nil => exact absurd rfl hne
  | cons line lines ih =>
    cases lines with
    | nil => simp [withEnds]
    | cons next lines =>
      rw [List.intercalate_cons_cons, List.append_assoc, ih (List.cons_ne_nil next lines)]
      rfl

omit [DecidableEq α] in
/-- An encoding that gives the two ends of a line one symbol each. -/
theorem flatMap_withEnds {β : Type u} (f : α → List β) {cr' lf' : β} (hcr : f cr = [cr']) (hlf : f lf = [lf'])
    (lines : List (List α)) :
    (withEnds cr lf lines).flatMap f = withEnds cr' lf' (lines.map fun line ↦ line.flatMap f) := by
  induction lines with
  | nil => rfl
  | cons line lines ih =>
    have hends : [cr, lf].flatMap f = [cr', lf'] := by
      rw [List.flatMap_cons, List.flatMap_cons, hcr, hlf]
      rfl
    rw [withEnds, List.flatMap_cons, List.flatMap_append, List.flatMap_append, hends]
    exact congrArg ((line.flatMap f ++ [cr', lf']) ++ ·) ih

omit [DecidableEq α] in
theorem AreLines.tail (h : AreLines cr (line :: lines)) : AreLines cr lines :=
  fun line hline ↦ h line (List.mem_cons_of_mem _ hline)

/-! ## Splitting at the ends of lines -/

theorem splitPair_cons_of_ne {b : α} (hb : b ≠ cr) (text : List α) :
    splitPair cr lf (b :: text) = consHead b (splitPair cr lf text) := by
  cases text with
  | nil => rfl
  | cons c text => rw [splitPair, if_neg fun h ↦ hb h.1]

theorem splitPair_line (hline : cr ∉ line) (text : List α) :
    splitPair cr lf (line ++ cr :: lf :: text) = line :: splitPair cr lf text := by
  induction line with
  | nil => rw [List.nil_append, splitPair, if_pos ⟨rfl, rfl⟩]
  | cons b line ih =>
    rw [List.cons_append, splitPair_cons_of_ne (List.ne_of_not_mem_cons hline).symm,
      ih (List.not_mem_of_not_mem_cons hline)]
    rfl

theorem splitPair_withEnds (h : AreLines cr lines) (text : List α) :
    splitPair cr lf (withEnds cr lf lines ++ text) = lines ++ splitPair cr lf text := by
  induction lines with
  | nil => rfl
  | cons line lines ih =>
    rw [withEnds_cons, splitPair_line (h line List.mem_cons_self).2, ih h.tail]
    rfl

/-! ## Finding the end of a head -/

theorem readUntil_cons {sep : List α} {b : α} {text : List α} (h : ¬ sep <+: b :: text) :
    readUntil sep (b :: text) = (readUntil sep text).map fun (head, rest) ↦ (b :: head, rest) := by
  rw [readUntil, if_neg]
  rwa [List.isPrefixOf_iff_prefix]

theorem readUntil_line {sep : List α} (hline : cr ∉ line) (text : List α) :
    readUntil (cr :: sep) (line ++ text) =
      (readUntil (cr :: sep) text).map fun (head, rest) ↦ (line ++ head, rest) := by
  induction line with
  | nil => exact (congrFun Option.map_id _).symm
  | cons b line ih =>
    have hb : ¬ cr :: sep <+: b :: (line ++ text) :=
      fun h ↦ List.ne_of_not_mem_cons hline (List.cons_prefix_cons.mp h).1
    rw [List.cons_append, readUntil_cons hb, ih (List.not_mem_of_not_mem_cons hline), Option.map_map]
    rfl

theorem readUntil_end (hne : lf ≠ cr) (h : AreLines cr lines) (rest : List α) :
    readUntil [cr, lf, cr, lf] (cr :: lf :: (withEnds cr lf lines ++ cr :: lf :: rest)) =
      some (cr :: lf :: (withEnds cr lf lines ++ [cr, lf]), rest) := by
  induction lines with
  | nil =>
    rw [readUntil, if_pos]
    · rfl
    · rw [List.isPrefixOf_iff_prefix]
      exact List.prefix_append [cr, lf, cr, lf] rest
  | cons line lines ih =>
    obtain ⟨hnil, hline⟩ := h line List.mem_cons_self
    obtain ⟨b, more, rfl⟩ := List.exists_cons_of_ne_nil hnil
    have hskip : ¬ [cr, lf, cr, lf] <+:
        cr :: lf :: (withEnds cr lf ((b :: more) :: lines) ++ cr :: lf :: rest) := by
      rw [withEnds_cons]
      intro hpre
      have hthird := (List.cons_prefix_cons.mp (List.cons_prefix_cons.mp hpre).2).2
      exact List.ne_of_not_mem_cons hline (List.cons_prefix_cons.mp hthird).1
    have hsecond (text : List α) : ¬ [cr, lf, cr, lf] <+: lf :: text :=
      fun hpre ↦ hne (List.cons_prefix_cons.mp hpre).1.symm
    rw [readUntil_cons hskip, readUntil_cons (hsecond _), withEnds_cons, readUntil_line hline,
      ih h.tail, withEnds_cons]
    rfl

/-- A reader that looks for the first empty line has read the whole head, and nothing of what is behind it. -/
theorem readUntil_head (hne : lf ≠ cr) (h : AreLines cr (line :: lines)) (rest : List α) :
    readUntil [cr, lf, cr, lf] (withEnds cr lf (line :: lines) ++ cr :: lf :: rest) =
      some (withEnds cr lf (line :: lines) ++ [cr, lf], rest) := by
  rw [withEnds_cons, readUntil_line (h line List.mem_cons_self).2, readUntil_end hne h.tail, withEnds_cons]
  rfl

theorem length_le_of_readUntil {sep text head rest : List α} (h : readUntil sep text = some (head, rest)) :
    sep.length ≤ text.length := by
  induction text generalizing head rest with
  | nil => cases h
  | cons b text ih =>
    rw [readUntil] at h
    split at h
    · exact (List.isPrefixOf_iff_prefix.mp ‹_›).length_le
    · obtain ⟨⟨head', rest'⟩, hread, -⟩ := Option.map_eq_some_iff.mp h
      exact Nat.le_succ_of_le (ih hread)

/-- What is behind the first separator does not matter. -/
theorem readUntil_append {sep text head rest : List α} (h : readUntil sep text = some (head, rest)) (more : List α) :
    readUntil sep (text ++ more) = some (head, rest ++ more) := by
  induction text generalizing head rest with
  | nil => cases h
  | cons b text ih =>
    have hlength := length_le_of_readUntil h
    rw [List.cons_append, readUntil]
    rw [readUntil] at h
    split at h
    · rename_i hprefix
      cases h
      have hmore : sep.isPrefixOf (b :: (text ++ more)) = true := by
        rw [List.isPrefixOf_iff_prefix] at hprefix ⊢
        exact hprefix.trans (List.prefix_append (b :: text) more)
      rw [if_pos hmore, ← List.cons_append, List.drop_append_of_le_length hlength]
    · rename_i hprefix
      obtain ⟨⟨head', rest'⟩, hread, heq⟩ := Option.map_eq_some_iff.mp h
      cases heq
      -- the text is long enough to have the separator at its front
      have hmore : ¬ sep.isPrefixOf (b :: (text ++ more)) = true := by
        rw [List.isPrefixOf_iff_prefix] at hprefix ⊢
        intro hfront
        exact hprefix (List.prefix_of_prefix_length_le hfront (List.prefix_append (b :: text) more) hlength)
      rw [if_neg hmore, ih hread]
      rfl

theorem splitPair_head (h : AreLines cr lines) :
    splitPair cr lf (withEnds cr lf lines ++ [cr, lf]) = lines ++ [[], []] := by
  rw [splitPair_withEnds h, splitPair, if_pos ⟨rfl, rfl⟩]
  rfl

end

end Reasoning
