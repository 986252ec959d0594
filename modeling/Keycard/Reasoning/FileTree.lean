import Keycard.Reasoning.Dict
import Mathlib.Data.List.Infix
import Mathlib.Data.List.DropRight
import Mathlib.Data.List.Sort

/-!
# Trees of files

A tree maps paths, read from the root, to nodes.  A symbolic link is given by the path it comes to in
the end, so that following a path takes one pass over it (`FileTree.real`).  Where a tree has no links,
following changes nothing (`FileTree.Linkless.real_eq`).
-/

namespace Reasoning

universe u

abbrev Path := List String

inductive Node (φ : Type u) where
  | dir
  | file (data : φ)
  | link (target : Path)
deriving DecidableEq, Repr

abbrev FileTree (φ : Type u) := Dict Path (Node φ)

/-- A path without `..`, where no link is on the way. -/
def normalize (p : Path) : Path :=
  p.foldl (fun at_ c ↦ if c = ".." then at_.dropLast else at_ ++ [c]) []

theorem normalize_append (p q : Path) (hq : ".." ∉ q) : normalize (p ++ q) = normalize p ++ q := by
  induction q using List.reverseRecOn with
  | nil => simp
  | append_singleton q c ih =>
    have hc : c ≠ ".." := fun hc ↦ hq (by simp [hc])
    have hrest : ".." ∉ q := fun hm ↦ hq (List.mem_append_left _ hm)
    rw [← List.append_assoc, normalize, List.foldl_append]
    change (if c = ".." then _ else normalize (p ++ q) ++ [c]) = _
    rw [if_neg hc, ih hrest, List.append_assoc]

theorem normalize_of_no_dots {p : Path} (hp : ".." ∉ p) : normalize p = p := by
  have happ := normalize_append [] p hp
  rwa [List.nil_append, show normalize [] = [] from rfl, List.nil_append] at happ

/-- A path that has been normalized has no `..` left. -/
theorem no_dots_normalize (p : Path) : ".." ∉ normalize p := by
  induction p using List.reverseRecOn with
  | nil => simp [normalize]
  | append_singleton p c ih =>
    rw [normalize, List.foldl_append]
    change ".." ∉ (if c = ".." then (normalize p).dropLast else normalize p ++ [c])
    split
    · exact fun hm ↦ ih (List.dropLast_subset _ hm)
    · rename_i hc
      simp only [List.mem_append, List.mem_singleton, not_or]
      exact ⟨ih, Ne.symm hc⟩

namespace FileTree

variable {φ : Type u}

def follow (t : FileTree φ) (p : Path) : Path :=
  match t.get? p with
  | some (.link target) => target
  | _ => p

/-- Where the operating system ends up when it follows `p`. -/
def real (t : FileTree φ) (p : Path) : Path :=
  p.foldl (fun at_ c ↦ if c = ".." then at_.dropLast else t.follow (at_ ++ [c])) []

def stat (t : FileTree φ) (p : Path) : Option (Node φ) :=
  t.get? (t.real p)

def isDir (t : FileTree φ) (p : Path) : Bool :=
  match t.stat p with
  | some .dir => true
  | _ => false

def read? (t : FileTree φ) (p : Path) : Option φ :=
  match t.stat p with
  | some (.file data) => some data
  | _ => none

/-- Something lies strictly below `p`. -/
def hasBelow (t : FileTree φ) (p : Path) : Bool :=
  t.items.any fun item ↦ p.isPrefixOf item.1 && item.1 ≠ p

/-- The names in the directory at `p`, in order. -/
def names (t : FileTree φ) (p : Path) : List String :=
  ((t.items.map Prod.fst).filterMap fun q ↦ if q.dropLast = p then q.getLast? else none).insertionSort
    (· ≤ ·)

/-- `p` and all that lies below it are removed, but what is `stuck` stays, and the directories it is
in. -/
def removeAll (t : FileTree φ) (stuck : Path → Bool) (p : Path) : FileTree φ :=
  t.filter fun q ↦ !p.isPrefixOf q || t.items.any fun item ↦ q.isPrefixOf item.1 && stuck item.1

/-- There are no links. -/
def Linkless (t : FileTree φ) : Prop :=
  ∀ p target, t.get? p ≠ some (.link target)

theorem Linkless.follow_eq {t : FileTree φ} (h : t.Linkless) (p : Path) : t.follow p = p := by
  unfold follow
  split
  · exact absurd ‹_› (h p _)
  · rfl

theorem Linkless.real_eq {t : FileTree φ} (h : t.Linkless) (p : Path) : t.real p = normalize p := by
  simp only [real, normalize, h.follow_eq]

theorem Linkless.stat_eq {t : FileTree φ} (h : t.Linkless) {p : Path} (hdots : ".." ∉ p) :
    t.stat p = t.get? p := by
  rw [stat, h.real_eq, normalize_of_no_dots hdots]

theorem mem_names {t : FileTree φ} {p : Path} {c : String} :
    c ∈ t.names p ↔ ∃ node, t.get? (p ++ [c]) = some node := by
  unfold names
  rw [List.mem_insertionSort, List.mem_filterMap]
  constructor
  · rintro ⟨q, hm, hq⟩
    obtain ⟨item, hitem, hkey⟩ := List.mem_map.mp hm
    split at hq
    · rename_i hp
      have hsplit : item.1 = p ++ [c] := by
        rw [hkey, ← List.dropLast_append_getLast? c hq, hp]
      exact ⟨item.2, Dict.mem_items_iff.mp (hsplit ▸ hitem)⟩
    · cases hq
  · rintro ⟨node, hnode⟩
    exact ⟨p ++ [c], List.mem_map_of_mem (Dict.mem_items_iff.mpr hnode), by simp⟩

theorem hasBelow_iff {t : FileTree φ} {p : Path} :
    t.hasBelow p = true ↔ ∃ q node, t.get? q = some node ∧ p <+: q ∧ q ≠ p := by
  unfold hasBelow
  simp only [List.any_eq_true, Bool.and_eq_true, List.isPrefixOf_iff_prefix, decide_eq_true_eq, Prod.exists,
    Dict.mem_items_iff, exists_and_right]

end FileTree

end Reasoning
