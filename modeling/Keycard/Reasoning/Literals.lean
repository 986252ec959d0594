import Keycard.Reasoning.Doubles
import Keycard.Reasoning.Text

/-!
# Numbers in texts

What `float` of Python makes of a text.  The digits and the blanks of every script are put into ASCII, the blanks
around the text are taken off, and underscores between digits are left out; what is left is a number with or
without a fraction and an exponent, an infinity, or NaN, and the number is rounded.
-/

namespace Reasoning

/-- The character database. -/
structure Unicode where
  isSpace : Char → Bool
  /-- the value of a decimal digit -/
  decimal : Char → Option (Fin 10)
  lower : List Char → List Char
  isSpace_ascii : ∀ c, c.toNat < 128 →
    isSpace c = (c.toNat = 32 || 9 ≤ c.toNat && c.toNat ≤ 13 || 28 ≤ c.toNat && c.toNat ≤ 31)
  lower_ascii : ∀ text, (∀ c ∈ text, c.toNat < 128) → lower text = text.map Char.toLower

namespace Unicode

/-- `str.strip` -/
def strip (db : Unicode) (text : List Char) : List Char :=
  (text.dropWhile db.isSpace).rdropWhile db.isSpace

/-- There is nothing to strip of what can be seen. -/
theorem strip_of_visible (db : Unicode) {text : List Char} (h : ∀ c ∈ text, 32 < c.toNat ∧ c.toNat < 127) :
    db.strip text = text := by
  refine strip_eq_self fun c hc ↦ ?_
  have hvisible := h c hc
  rw [db.isSpace_ascii c (by omega)]
  simp only [Bool.or_eq_false_iff, Bool.and_eq_false_iff, decide_eq_false_iff_not]
  omega

/-- The digits and the blanks in ASCII, and `?` for whatever else is not ASCII. -/
def transform (db : Unicode) (text : List Char) : List Char :=
  text.map fun c ↦
    if c.toNat < 127 then c
    else if db.isSpace c then ' '
    else
      match db.decimal c with
      | some d => Char.ofNat (48 + d)
      | none => '?'

/-- The database as far as ASCII goes. -/
def ofAscii : Unicode where
  isSpace c := c.toNat = 32 || 9 ≤ c.toNat && c.toNat ≤ 13 || 28 ≤ c.toNat && c.toNat ≤ 31
  decimal _ := none
  lower text := text.map Char.toLower
  isSpace_ascii _ _ := rfl
  lower_ascii _ _ := rfl

end Unicode

/-! ## Literals -/

inductive Literal where
  | nan
  | inf (negative : Bool)
  | number (q : ℚ)
deriving DecidableEq, Repr

/-- The value of some digits. -/
def ofDigits (digits : List Char) : ℕ :=
  Nat.ofDigitChars 10 digits 0

def unsigned (digits : List Char) : Option ℤ :=
  if digits ≠ [] && digits.all Char.isDigit then some (ofDigits digits) else none

/-- What comes behind the digits of a number. -/
def exponent : List Char → Option ℤ
  | [] => some 0
  | e :: rest =>
    if e = 'e' || e = 'E' then
      match rest with
      | '-' :: digits => (unsigned digits).map fun n ↦ -n
      | '+' :: digits => unsigned digits
      | digits => unsigned digits
    else none

/-- The digits behind the point, if there is one, and what comes behind them. -/
def fraction : List Char → List Char × List Char
  | '.' :: rest => (rest.takeWhile Char.isDigit, rest.dropWhile Char.isDigit)
  | rest => ([], rest)

/-- A number without a sign. -/
def decimalLiteral (text : List Char) : Option ℚ :=
  let whole := text.takeWhile Char.isDigit
  let (part, rest) := fraction (text.dropWhile Char.isDigit)
  if whole = [] && part = [] then none
  else (exponent rest).map fun e : ℤ ↦ (ofDigits (whole ++ part) : ℚ) * 10 ^ (e - part.length)

def unsignedLiteral (negative : Bool) (text : List Char) : Option Literal :=
  let word := text.map Char.toLower
  if word = ['n', 'a', 'n'] then some .nan
  else if word = ['i', 'n', 'f'] || word = ['i', 'n', 'f', 'i', 'n', 'i', 't', 'y'] then some (.inf negative)
  else (decimalLiteral text).map fun q ↦ .number (if negative then -q else q)

def literal : List Char → Option Literal
  | '-' :: text => unsignedLiteral true text
  | '+' :: text => unsignedLiteral false text
  | text => unsignedLiteral false text

/-- A text without the underscores between its digits; any other underscore is one too many. -/
def ungroup (afterDigit : Bool) : List Char → Option (List Char)
  | [] => some []
  | c :: rest =>
    if c = '_' then
      if afterDigit && (rest.head?.any Char.isDigit) then ungroup false rest else none
    else (ungroup c.isDigit rest).map fun text ↦ c :: text

/-- `isspace` of C -/
def isSpaceC (c : Char) : Bool :=
  c.toNat = 32 || 9 ≤ c.toNat && c.toNat ≤ 13

namespace Unicode

/-- The literal that `float` finds in a text, with `none` for a `ValueError`. -/
def readLiteral (db : Unicode) (text : List Char) : Option Literal :=
  (ungroup false (((db.transform text).dropWhile isSpaceC).rdropWhile isSpaceC)).bind literal

end Unicode

example : Unicode.ofAscii.readLiteral "-1_0.50e1 ".toList = some (.number (-105)) := by decide +kernel

/-- The value of a literal. -/
def Literal.value (round : ℚ → Extended) : Literal → Extended
  | .nan => .nan
  | .inf negative => .inf negative
  | .number q => round q

theorem Literal.value_eq_nan_iff {round : ℚ → Extended} (hround : ∀ q, round q ≠ .nan) {literal : Literal} :
    literal.value round = .nan ↔ literal = .nan := by
  cases literal with
  | nan => exact iff_of_true rfl rfl
  | inf negative => exact iff_of_false nofun nofun
  | number q => exact iff_of_false (hround q) nofun

/-- `float(text)`, with `none` for a `ValueError`. -/
def Unicode.float (db : Unicode) (round : ℚ → Extended) (text : List Char) : Option Extended :=
  (db.readLiteral text).map (Literal.value round)

/-! ## Plain decimals -/

/-- A number without a sign, with or without a fraction. -/
structure Decimal where
  whole : List Char
  part : List Char
  point : Bool
  isDigit : ∀ c ∈ whole ++ part, c.isDigit = true
  nonempty : whole ++ part ≠ []
  part_eq : point = false → part = []

/-- A character that `float` leaves as it is. -/
def IsPlain (c : Char) : Prop :=
  c.toNat < 127 ∧ isSpaceC c = false ∧ c ≠ '_'

instance (c : Char) : Decidable (IsPlain c) :=
  inferInstanceAs (Decidable (_ ∧ _))

theorem isPlain_of_isDigit {c : Char} (h : c.isDigit = true) : IsPlain c := by
  obtain ⟨hlow, hhigh⟩ : 48 ≤ c.toNat ∧ c.toNat ≤ 57 := by
    simpa [Char.isDigit, UInt32.le_iff_toNat_le] using h
  refine ⟨by omega, ?_, ?_⟩
  · simp only [isSpaceC, Bool.or_eq_false_iff, Bool.and_eq_false_iff, decide_eq_false_iff_not]
    omega
  · rintro rfl
    exact absurd hhigh (by decide)

theorem ungroup_eq_self {text : List Char} (h : ∀ c ∈ text, c ≠ '_') (afterDigit : Bool) :
    ungroup afterDigit text = some text := by
  induction text generalizing afterDigit with
  | nil => rfl
  | cons c text ih =>
    obtain ⟨hc, htext⟩ := List.forall_mem_cons.mp h
    rw [ungroup, if_neg hc, ih htext]
    rfl

theorem readLiteral_of_isPlain (db : Unicode) {text : List Char} (h : ∀ c ∈ text, IsPlain c) :
    db.readLiteral text = literal text := by
  have htransform : db.transform text = text := by
    unfold Unicode.transform
    refine (List.map_congr_left fun c hc ↦ ?_).trans (List.map_id text)
    exact if_pos (h c hc).1
  rw [Unicode.readLiteral, htransform, strip_eq_self fun c hc ↦ (h c hc).2.1,
    ungroup_eq_self fun c hc ↦ (h c hc).2.2]
  rfl

theorem toLower_of_lt {c : Char} (h : c.toNat < 65) : c.toLower = c := by
  have hnot : ¬ (c.val ≥ 'A'.val ∧ c.val ≤ 'Z'.val) := by
    rintro ⟨hlow, -⟩
    exact absurd (UInt32.le_iff_toNat_le.mp hlow) (not_le.mpr h)
  exact dif_neg hnot

theorem toNat_of_isDigit {c : Char} (hc : c.isDigit = true ∨ c = '.') : 46 ≤ c.toNat ∧ c.toNat ≤ 57 := by
  rcases hc with hdigit | rfl
  · have hbounds : 48 ≤ c.toNat ∧ c.toNat ≤ 57 := by
      simpa [Char.isDigit, UInt32.le_iff_toNat_le] using hdigit
    omega
  · decide

/-- What begins like a number is none of the words. -/
theorem literal_cons {c : Char} (hc : c.isDigit = true ∨ c = '.') (rest : List Char) :
    literal (c :: rest) = (decimalLiteral (c :: rest)).map .number := by
  obtain ⟨hlow, hhigh⟩ := toNat_of_isDigit hc
  have hne (d : Char) (hd : d.toNat < 46 ∨ 57 < d.toNat) : c ≠ d := by
    rintro rfl
    omega
  have hword (d : Char) (hd : 57 < d.toNat) (word : List Char) : (c :: rest).map Char.toLower ≠ d :: word := by
    rw [List.map_cons, toLower_of_lt (by omega)]
    exact fun heq ↦ hne d (.inr hd) (List.cons.inj heq).1
  have hunsigned : unsignedLiteral false (c :: rest) = (decimalLiteral (c :: rest)).map .number := by
    simp only [unsignedLiteral, hword 'n' (by decide), hword 'i' (by decide), if_false, decide_false, Bool.or_self,
      Bool.false_eq_true]
  unfold literal
  split
  · rename_i heq
    exact absurd (List.cons.inj heq).1 (hne '-' (.inl (by decide)))
  · rename_i heq
    exact absurd (List.cons.inj heq).1 (hne '+' (.inl (by decide)))
  · exact hunsigned

theorem takeWhile_digits {digits rest : List Char} (h : ∀ c ∈ digits, c.isDigit = true)
    (hrest : ∀ c, rest.head? = some c → c.isDigit = false) :
    (digits ++ rest).takeWhile Char.isDigit = digits ∧ (digits ++ rest).dropWhile Char.isDigit = rest := by
  have hstop : rest.takeWhile Char.isDigit = [] ∧ rest.dropWhile Char.isDigit = rest := by
    cases rest with
    | nil => exact ⟨rfl, rfl⟩
    | cons c rest =>
      have hc := hrest c rfl
      exact ⟨by rw [List.takeWhile_cons, hc]; rfl, by rw [List.dropWhile_cons, hc]; rfl⟩
  constructor
  · rw [List.takeWhile_append_of_pos h, hstop.1, List.append_nil]
  · rw [List.dropWhile_append_of_pos h, hstop.2]

namespace Decimal

def text (number : Decimal) : List Char :=
  number.whole ++ if number.point then '.' :: number.part else []

def value (number : Decimal) : ℚ :=
  ofDigits (number.whole ++ number.part) * 10 ^ (-(number.part.length : ℤ))

variable (number : Decimal)

theorem of_mem_text {c : Char} (hc : c ∈ number.text) : c.isDigit = true ∨ c = '.' := by
  rcases List.mem_append.mp hc with hwhole | hpart
  · exact .inl (number.isDigit c (List.mem_append_left _ hwhole))
  · split at hpart
    · rcases List.mem_cons.mp hpart with rfl | hpart
      · exact .inr rfl
      · exact .inl (number.isDigit c (List.mem_append_right _ hpart))
    · cases hpart

theorem text_ne_nil : number.text ≠ [] := by
  intro hnil
  obtain ⟨hwhole, hpoint⟩ := List.append_eq_nil_iff.mp hnil
  split at hpoint
  · cases hpoint
  · rename_i hfalse
    exact number.nonempty (by rw [hwhole, number.part_eq (by simpa using hfalse)]; rfl)

theorem value_nonneg : 0 ≤ number.value :=
  mul_nonneg (Nat.cast_nonneg _) (zpow_nonneg (by norm_num) _)

/-- What comes behind a decimal is read as its exponent. -/
theorem decimalLiteral_append {rest : List Char} (hrest : ∀ c, rest.head? = some c → c.isDigit = false ∧ c ≠ '.') :
    decimalLiteral (number.text ++ rest) = (exponent rest).map fun e : ℤ ↦
      (ofDigits (number.whole ++ number.part) : ℚ) * 10 ^ (e - number.part.length) := by
  have hwhole : ∀ c ∈ number.whole, c.isDigit = true := fun c hc ↦ number.isDigit c (List.mem_append_left _ hc)
  have hpart : ∀ c ∈ number.part, c.isDigit = true := fun c hc ↦ number.isDigit c (List.mem_append_right _ hc)
  have hdigits : ¬ (number.whole = [] ∧ number.part = []) := fun h ↦ number.nonempty (List.append_eq_nil_iff.mpr h)
  have hstop : ∀ c, rest.head? = some c → c.isDigit = false := fun c hc ↦ (hrest c hc).1
  have hfraction : (number.text ++ rest).takeWhile Char.isDigit = number.whole ∧
      fraction ((number.text ++ rest).dropWhile Char.isDigit) = (number.part, rest) := by
    unfold text
    cases hpoint : number.point with
    | true =>
      rw [if_pos rfl, List.append_assoc]
      have hfirst : ∀ c, ('.' :: number.part ++ rest).head? = some c → c.isDigit = false := by
        rintro c ⟨⟩
        rfl
      obtain ⟨htake, hdrop⟩ := takeWhile_digits hwhole hfirst
      obtain ⟨htake', hdrop'⟩ := takeWhile_digits hpart hstop
      refine ⟨htake, ?_⟩
      rw [hdrop, List.cons_append, fraction, htake', hdrop']
    | false =>
      rw [if_neg Bool.false_ne_true, List.append_nil, number.part_eq hpoint]
      obtain ⟨htake, hdrop⟩ := takeWhile_digits hwhole hstop
      refine ⟨htake, ?_⟩
      rw [hdrop]
      unfold fraction
      split
      · exact absurd rfl (hrest '.' rfl).2
      · rfl
  unfold decimalLiteral
  simp only [hfraction.1, hfraction.2, Bool.and_eq_true, decide_eq_true_eq, if_neg hdigits]

theorem readLiteral_append (db : Unicode) {rest : List Char} (hplain : ∀ c ∈ rest, IsPlain c)
    (hrest : ∀ c, rest.head? = some c → c.isDigit = false ∧ c ≠ '.') :
    db.readLiteral (number.text ++ rest) = (exponent rest).map fun e : ℤ ↦
      .number ((ofDigits (number.whole ++ number.part) : ℚ) * 10 ^ (e - number.part.length)) := by
  have hall : ∀ c ∈ number.text ++ rest, IsPlain c := by
    intro c hc
    rcases List.mem_append.mp hc with hc | hc
    · rcases number.of_mem_text hc with hdigit | rfl
      · exact isPlain_of_isDigit hdigit
      · decide
    · exact hplain c hc
  rw [readLiteral_of_isPlain db hall]
  obtain ⟨c, text, htext⟩ := List.exists_cons_of_ne_nil number.text_ne_nil
  have hfirst := number.of_mem_text (htext ▸ List.mem_cons_self : c ∈ number.text)
  have hread := number.decimalLiteral_append hrest
  rw [htext, List.cons_append] at hread ⊢
  rw [literal_cons hfirst, hread, Option.map_map]
  rfl

/-- `float` reads a plain decimal as its value. -/
theorem readLiteral_text (db : Unicode) : db.readLiteral number.text = some (.number number.value) := by
  have hplain : ∀ c ∈ [], IsPlain c := nofun
  have hread := number.readLiteral_append db hplain nofun
  rw [List.append_nil] at hread
  rw [hread, exponent, Option.map_some, value, Int.zero_sub]

/-- A letter behind a decimal makes it no number. -/
theorem readLiteral_letter (db : Unicode) {c : Char} (hplain : IsPlain c) (hdigit : c.isDigit = false)
    (hpoint : c ≠ '.') (he : c ≠ 'e' ∧ c ≠ 'E') : db.readLiteral (number.text ++ [c]) = none := by
  have hnone : exponent [c] = none := by
    unfold exponent
    exact if_neg (by simpa using he)
  rw [number.readLiteral_append db (by simpa using hplain) (by simpa using ⟨hdigit, hpoint⟩), hnone]
  rfl

end Decimal

end Reasoning
