import Keycard.Backends.MachineConfig
import Mathlib.Algebra.Order.Floor.Ring

/-!
# A size under either backend

The spellings of a size that the Docker SDK takes, and what `parse_memory_mib` makes of them.  It knows one letter
behind the number, and none of them is `t`; where it does not know a spelling there is the default instead.
-/

open Reasoning

namespace Keycard.Firecracker

/-! ## Spellings -/

inductive SizeUnit where
  | b
  | k
  | m
  | g
  | t
deriving DecidableEq, Repr

namespace SizeUnit

def letter : SizeUnit → Char
  | b => 'b'
  | k => 'k'
  | m => 'm'
  | g => 'g'
  | t => 't'

def bytes : SizeUnit → ℚ
  | b => 1
  | k => 2 ^ 10
  | m => 2 ^ 20
  | g => 2 ^ 30
  | t => 2 ^ 40

end SizeUnit

/-- What is behind the number: nothing, or a unit, or a unit and a `b`, in either case. -/
inductive Suffix where
  | none
  | unit (u : SizeUnit) (capital : Bool)
  | unitB (u : SizeUnit) (capital capitalB : Bool)
deriving DecidableEq, Repr

def inCase (c : Char) (capital : Bool) : Char :=
  if capital then c.toUpper else c

namespace Suffix

def text : Suffix → List Char
  | none => []
  | unit u capital => [inCase u.letter capital]
  | unitB u capital capitalB => [inCase u.letter capital, inCase 'b' capitalB]

def bytes : Suffix → ℚ
  | none => 1
  | unit u _ => u.bytes
  | unitB u _ _ => u.bytes

end Suffix

/-- A size as the Docker SDK takes it. -/
structure Size where
  number : Decimal
  suffix : Suffix

namespace Size

def text (size : Size) : String :=
  String.ofList (size.number.text ++ size.suffix.text)

/-- What the Docker SDK takes the size for. -/
def bytes (size : Size) : ℚ :=
  size.number.value * size.suffix.bytes

end Size

namespace Suffix

/-- The suffixes that `parse_memory_mib` knows. -/
def IsKnown : Suffix → Prop
  | none => True
  | unit u _ => u ≠ .t
  | unitB _ _ _ => False

instance (suffix : Suffix) : Decidable suffix.IsKnown :=
  match suffix with
  | none => inferInstanceAs (Decidable True)
  | unit u _ => inferInstanceAs (Decidable (u ≠ .t))
  | unitB _ _ _ => inferInstanceAs (Decidable False)

def lower : Suffix → List Char
  | none => []
  | unit u _ => [u.letter]
  | unitB u _ _ => [u.letter, 'b']

theorem lower_eq (suffix : Suffix) : suffix.text.map Char.toLower = suffix.lower := by
  cases suffix with
  | none => rfl
  | unit u capital => cases u <;> cases capital <;> rfl
  | unitB u capital capitalB => cases u <;> cases capital <;> cases capitalB <;> rfl

theorem of_mem_text (suffix : Suffix) : ∀ c ∈ suffix.text, 46 ≤ c.toNat ∧ c.toNat ≤ 122 := by
  cases suffix with
  | none => nofun
  | unit u capital => cases u <;> cases capital <;> decide
  | unitB u capital capitalB => cases u <;> cases capital <;> cases capitalB <;> decide

end Suffix

/-! ## What is read -/

theorem lower_strip_text (db : Unicode) (size : Size) :
    db.lower (db.strip size.text.toList) = size.number.text ++ size.suffix.lower := by
  have hchars : ∀ c ∈ size.number.text ++ size.suffix.text, 46 ≤ c.toNat ∧ c.toNat ≤ 122 := by
    intro c hc
    rcases List.mem_append.mp hc with hnumber | hsuffix
    · have := toNat_of_isDigit (size.number.of_mem_text hnumber)
      omega
    · exact size.suffix.of_mem_text c hsuffix
  have hstrip : db.strip (size.number.text ++ size.suffix.text) = size.number.text ++ size.suffix.text :=
    db.strip_of_visible fun c hc ↦ by have := hchars c hc; omega
  have hnumber : size.number.text.map Char.toLower = size.number.text := by
    refine (List.map_congr_left fun c hc ↦ ?_).trans (List.map_id _)
    have := toNat_of_isDigit (size.number.of_mem_text hc)
    exact toLower_of_lt (by omega)
  rw [Size.text, String.toList_ofList, hstrip,
    db.lower_ascii _ fun c hc ↦ by have := hchars c hc; omega, List.map_append, hnumber, Suffix.lower_eq]

theorem memoryUnit_of_isDigit {c : Char} (hc : c.isDigit = true ∨ c = '.') : memoryUnit c = none := by
  have := toNat_of_isDigit hc
  unfold memoryUnit
  split
  all_goals first
    | rfl
    | exact absurd this (by decide)

theorem memoryUnit_letter {u : SizeUnit} (h : u ≠ .t) : memoryUnit u.letter = some (u.bytes / 2 ^ 20) := by
  cases u with
  | t => exact absurd rfl h
  | _ => norm_num [memoryUnit, SizeUnit.letter, SizeUnit.bytes]

theorem sizeParts_concat {db : Unicode} {spec : String} {text : List Char} {c : Char}
    (h : db.lower (db.strip spec.toList) = text ++ [c]) : sizeParts db spec =
      match memoryUnit c with
      | some unit => (text, unit)
      | none => (text ++ [c], 1 / (1024 * 1024)) := by
  unfold sizeParts
  cases hunit : memoryUnit c with
  | some unit => simp only [h, List.getLast?_concat, Option.bind_some, hunit, List.dropLast_concat]
  | none => simp only [h, List.getLast?_concat, Option.bind_some, hunit]

section

variable (db : Unicode) (size : Size)

/-- With a suffix that it knows, `parse_memory_mib` reads the number, and the unit in mebibytes. -/
theorem sizeParts_of_isKnown (h : size.suffix.IsKnown) :
    sizeParts db size.text = (size.number.text, size.suffix.bytes / 2 ^ 20) := by
  have hlower := lower_strip_text db size
  cases hsuffix : size.suffix with
  | none =>
    -- the last character is one of the number, and so it is not taken for a unit
    obtain ⟨text, c, htext⟩ := (List.eq_nil_or_concat' size.number.text).resolve_left size.number.text_ne_nil
    have hc : c ∈ size.number.text := htext ▸ List.mem_append_right text List.mem_cons_self
    rw [hsuffix, Suffix.lower, List.append_nil, htext] at hlower
    rw [sizeParts_concat hlower, memoryUnit_of_isDigit (size.number.of_mem_text hc), htext, Suffix.bytes]
    norm_num
  | unit u capital =>
    rw [hsuffix] at hlower h
    rw [sizeParts_concat hlower, memoryUnit_letter h]
    rfl
  | unitB u capital capitalB =>
    rw [hsuffix] at h
    exact h.elim

/-- With one that it does not know, it takes a letter for a part of the number. -/
theorem readLiteral_of_not_isKnown (h : ¬ size.suffix.IsKnown) :
    db.readLiteral (sizeParts db size.text).1 = none := by
  have hlower := lower_strip_text db size
  have hletter (u : SizeUnit) : db.readLiteral (size.number.text ++ [u.letter]) = none := by
    cases u <;> exact size.number.readLiteral_letter db (by decide) (by decide) (by decide) (by decide)
  cases hsuffix : size.suffix with
  | none =>
    rw [hsuffix] at h
    exact absurd trivial h
  | unit u capital =>
    rw [hsuffix] at hlower h
    have ht : u = .t := not_not.mp h
    rw [sizeParts_concat hlower, ht]
    exact hletter .t
  | unitB u capital capitalB =>
    rw [hsuffix] at hlower
    -- the `b` is taken for the unit, and the unit is left with the number
    have hlast : db.lower (db.strip size.text.toList) = (size.number.text ++ [u.letter]) ++ ['b'] := by
      rw [hlower, List.append_assoc]
      rfl
    rw [sizeParts_concat hlast]
    exact hletter u

theorem bytes_nonneg : 0 ≤ size.bytes := by
  have hsuffix : 0 ≤ size.suffix.bytes := by
    cases size.suffix with
    | none => exact zero_le_one
    | unit u capital => cases u <;> norm_num [Suffix.bytes, SizeUnit.bytes]
    | unitB u capital capitalB => cases u <;> norm_num [Suffix.bytes, SizeUnit.bytes]
  exact mul_nonneg size.number.value_nonneg hsuffix

theorem parseMemoryMib_of_isKnown (h : size.suffix.IsKnown) :
    parseMemoryMib db .fin size.text = some (max 16 ⌊size.bytes / 2 ^ 20⌋) := by
  have hnonneg : 0 ≤ size.bytes / 2 ^ 20 := div_nonneg (bytes_nonneg size) (by norm_num)
  rw [parseMemoryMib_eq, sizeParts_of_isKnown db size h, size.number.readLiteral_text]
  simp only [Literal.value, Extended.scale, ← mul_div_assoc]
  rw [show size.number.value * size.suffix.bytes = size.bytes from rfl, Extended.truncate, if_neg (not_lt.mpr hnonneg)]
  rfl

theorem parseMemoryMib_of_not_isKnown (h : ¬ size.suffix.IsKnown) :
    parseMemoryMib db .fin size.text = some 1024 := by
  rw [parseMemoryMib_eq, readLiteral_of_not_isKnown db size h]
  rfl

/-- A size is the same under either backend exactly if it has a suffix that `parse_memory_mib` knows, or comes to
the default in any case. -/
theorem parseMemoryMib_eq_iff : parseMemoryMib db .fin size.text = some (max 16 ⌊size.bytes / 2 ^ 20⌋) ↔
    size.suffix.IsKnown ∨ 1024 * 2 ^ 20 ≤ size.bytes ∧ size.bytes < 1025 * 2 ^ 20 := by
  by_cases hknown : size.suffix.IsKnown
  · exact iff_of_true (parseMemoryMib_of_isKnown db size hknown) (.inl hknown)
  · have hfloor : ⌊size.bytes / 2 ^ 20⌋ = 1024 ↔ 1024 * 2 ^ 20 ≤ size.bytes ∧ size.bytes < 1025 * 2 ^ 20 := by
      rw [Int.floor_eq_iff, le_div_iff₀ (by norm_num), div_lt_iff₀ (by norm_num)]
      norm_num
    -- what is left is the default, and it is right only where it happens to be the size
    rw [parseMemoryMib_of_not_isKnown db size hknown, Option.some_inj, or_iff_right hknown, ← hfloor]
    omega

end

/-- A whole number with a suffix. -/
def Size.of (whole : List Char) (suffix : Suffix) (hdigits : ∀ c ∈ whole, c.isDigit = true) (hne : whole ≠ []) :
    Size where
  number := {
    whole := whole
    part := []
    point := false
    isDigit := by rwa [List.append_nil]
    nonempty := by rwa [List.append_nil]
    part_eq := fun _ ↦ rfl }
  suffix := suffix

/-- Half a gibibyte, a tebibyte and five bytes, and all of them become a gibibyte. -/
def sizes : List Size :=
  [.of ['5', '1', '2'] (.unitB .m false false) (by decide) (by decide),
    .of ['1'] (.unit .t false) (by decide) (by decide),
    .of ['5'] (.unitB .b false false) (by decide) (by decide)]

theorem sizes_differ : sizes.map Size.text = ["512mb", "1t", "5bb"] ∧
    sizes.map (fun size ↦ max 16 ⌊size.bytes / 2 ^ 20⌋) = [512, 1048576, 16] ∧
    ∀ size ∈ sizes, parseMemoryMib .ofAscii .fin size.text = some 1024 := by
  decide +kernel

end Keycard.Firecracker
