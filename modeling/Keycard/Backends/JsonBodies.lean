import Keycard.Backends.FcApi

/-!
# The bodies of the API calls

The bodies are objects of truth values, numbers and texts, one of them with another object in it.  `json.dumps`
writes them in ASCII: what is not printable is escaped, and beyond 65535 by a pair of surrogates.
-/

open Reasoning

namespace Keycard.FcApi

open Firecracker (signed isNumeral)

inductive Scalar where
  | truth (b : Bool)
  | number (n : Int)
  | text (s : String)
deriving DecidableEq, Repr

inductive Field where
  | scalar (value : Scalar)
  | object (members : List (String × Scalar))
deriving DecidableEq, Repr

/-- The members of an object, in their order. -/
abbrev Body := List (String × Field)

/-! ## `json.dumps` -/

def hexDigit (n : Nat) : Char :=
  if n < 10 then Char.ofNat (48 + n) else Char.ofNat (87 + n)

/-- `"\\u{0:04x}".format(n)` -/
def unicodeEscape (n : Nat) : List Char :=
  ['\\', 'u', hexDigit (n / 4096 % 16), hexDigit (n / 256 % 16), hexDigit (n / 16 % 16), hexDigit (n % 16)]

/-- What is written behind a backslash for the characters that have a short form. -/
def shortEscapes : List (Char × Char) :=
  [('"', '"'), ('\\', '\\'), ('\n', 'n'), ('\r', 'r'), ('\t', 't'), (Char.ofNat 8, 'b'), (Char.ofNat 12, 'f')]

/-- `py_encode_basestring_ascii`, of one character -/
def escapeChar (c : Char) : List Char :=
  match shortEscapes.lookup c with
  | some letter => ['\\', letter]
  | none =>
    if 32 ≤ c.toNat ∧ c.toNat ≤ 126 then [c]
    else if c.toNat < 65536 then unicodeEscape c.toNat
    else
      let n := c.toNat - 65536
      unicodeEscape (0xd800 + n / 1024) ++ unicodeEscape (0xdc00 + n % 1024)

def dumpText (s : String) : List Char :=
  '"' :: (s.toList.flatMap escapeChar ++ ['"'])

def dumpScalar : Scalar → List Char
  | .truth true => "true".toList
  | .truth false => "false".toList
  | .number n => (toString n).toList
  | .text s => dumpText s

section Members

variable {α : Type}

/-- The members of an object, and the brace behind them. -/
def dumpMembers (dump : α → List Char) : List (String × α) → List Char
  | [] => ['}']
  | [(name, value)] => dumpText name ++ ':' :: ' ' :: (dump value ++ ['}'])
  | (name, value) :: members => dumpText name ++ ':' :: ' ' :: (dump value ++ ',' :: ' ' :: dumpMembers dump members)

def dumpObject (dump : α → List Char) (members : List (String × α)) : List Char :=
  '{' :: dumpMembers dump members

end Members

def dumpField : Field → List Char
  | .scalar value => dumpScalar value
  | .object members => dumpObject dumpScalar members

/-- `json.dumps` -/
def dumps (body : Body) : String :=
  String.ofList (dumpObject dumpField body)

/-! ## `json.loads`, of what `json.dumps` writes -/

def hexValue (c : Char) : Option Nat :=
  if '0' ≤ c ∧ c ≤ '9' then some (c.toNat - 48)
  else if 'a' ≤ c ∧ c ≤ 'f' then some (c.toNat - 87)
  else none

/-- A number of four digits, and what is behind it. -/
def readUnicode : List Char → Option (Nat × List Char)
  | '\\' :: 'u' :: a :: b :: c :: d :: text => do
    let a ← hexValue a
    let b ← hexValue b
    let c ← hexValue c
    let d ← hexValue d
    return (a * 4096 + b * 256 + c * 16 + d, text)
  | _ => none

def readEscape (text : List Char) : Option (Char × List Char) := do
  let (high, text) ← readUnicode text
  if 0xd800 ≤ high ∧ high < 0xdc00 then
    let (low, text) ← readUnicode text
    return (Char.ofNat (65536 + (high - 0xd800) * 1024 + (low - 0xdc00)), text)
  else
    return (Char.ofNat high, text)

/-- A character of a text, as it is written. -/
def readChar : List Char → Option (Char × List Char)
  | [] => none
  | '\\' :: text =>
    match text with
    | [] => none
    | letter :: rest =>
      match shortEscapes.find? fun (_, short) ↦ short = letter with
      | some (c, _) => some (c, rest)
      | none => readEscape ('\\' :: text)
  | c :: text => some (c, text)

/-- The rest of a text, up to its quote, of at most as many characters. -/
def readText : Nat → List Char → Option (List Char × List Char)
  | _, '"' :: rest => some ([], rest)
  | 0, _ => none
  | n + 1, text => do
    let (c, text) ← readChar text
    let (s, text) ← readText n text
    return (c :: s, text)

def readScalar (text : List Char) : Option (Scalar × List Char) :=
  match text with
  | '"' :: text => (readText text.length text).map fun (s, rest) ↦ (.text (String.ofList s), rest)
  | 't' :: 'r' :: 'u' :: 'e' :: rest => some (.truth true, rest)
  | 'f' :: 'a' :: 'l' :: 's' :: 'e' :: rest => some (.truth false, rest)
  | text => (signed (text.takeWhile isNumeral)).map fun n ↦ (.number n, text.dropWhile isNumeral)

section Members

variable {α : Type}

/-- The members of an object, at most as many. -/
def readMembers (read : List Char → Option (α × List Char)) : Nat → List Char → Option (List (String × α) × List Char)
  | n + 1, '"' :: text => do
    let (name, text) ← readText text.length text
    match text with
    | ':' :: ' ' :: text =>
      let (value, text) ← read text
      match text with
      | '}' :: text => some ([(String.ofList name, value)], text)
      | ',' :: ' ' :: text => (readMembers read n text).map fun (members, text) ↦
          ((String.ofList name, value) :: members, text)
      | _ => none
    | _ => none
  | _, '}' :: text => some ([], text)
  | _, _ => none

def readObject (read : List Char → Option (α × List Char)) : List Char → Option (List (String × α) × List Char)
  | '{' :: text => readMembers read text.length text
  | _ => none

end Members

def readField (text : List Char) : Option (Field × List Char) :=
  match readObject readScalar text with
  | some (members, rest) => some (.object members, rest)
  | none => (readScalar text).map fun (value, rest) ↦ (.scalar value, rest)

/-- `json.loads` -/
def loads (text : String) : Option Body :=
  match readObject readField text.toList with
  | some (body, []) => some body
  | _ => none

/-! ## What was written is read -/

theorem hexValue_hexDigit {n : Nat} (h : n < 16) : hexValue (hexDigit n) = some n := by
  have hall : ∀ n : Fin 16, hexValue (hexDigit n) = some n.val := by decide
  exact hall ⟨n, h⟩

theorem readUnicode_escape {n : Nat} (h : n < 65536) (rest : List Char) :
    readUnicode (unicodeEscape n ++ rest) = some (n, rest) := by
  have hdigit (m : Nat) : hexValue (hexDigit (m % 16)) = some (m % 16) := hexValue_hexDigit (Nat.mod_lt _ (by decide))
  have hsum : n / 4096 % 16 * 4096 + n / 256 % 16 * 256 + n / 16 % 16 * 16 + n % 16 = n := by omega
  simp only [unicodeEscape, List.cons_append, List.nil_append, readUnicode, hdigit, bind, Option.bind, hsum]
  rfl

/-- A character is no surrogate. -/
theorem toNat_not_surrogate (c : Char) : c.toNat < 0xd800 ∨ 0xdfff < c.toNat ∧ c.toNat < 0x110000 :=
  c.valid

theorem readEscape_short {c : Char} (h : c.toNat < 65536) (rest : List Char) :
    readEscape (unicodeEscape c.toNat ++ rest) = some (c, rest) := by
  have hvalid := toNat_not_surrogate c
  unfold readEscape
  rw [readUnicode_escape h]
  simp only [bind, Option.bind]
  rw [if_neg (by omega), Char.ofNat_toNat]
  rfl

theorem readEscape_pair {high low : Nat} (hhigh : 0xd800 ≤ high ∧ high < 0xdc00) (hlow : low < 65536)
    (rest : List Char) : readEscape (unicodeEscape high ++ (unicodeEscape low ++ rest)) =
      some (Char.ofNat (65536 + (high - 0xd800) * 1024 + (low - 0xdc00)), rest) := by
  unfold readEscape
  rw [readUnicode_escape (by omega)]
  simp only [bind, Option.bind]
  rw [if_pos hhigh, readUnicode_escape hlow]
  rfl

theorem readEscape_long {c : Char} (h : 65536 ≤ c.toNat) (rest : List Char) :
    readEscape (unicodeEscape (0xd800 + (c.toNat - 65536) / 1024) ++
      (unicodeEscape (0xdc00 + (c.toNat - 65536) % 1024) ++ rest)) = some (c, rest) := by
  have hvalid := toNat_not_surrogate c
  have hsum : 65536 + (0xd800 + (c.toNat - 65536) / 1024 - 0xd800) * 1024 +
      (0xdc00 + (c.toNat - 65536) % 1024 - 0xdc00) = c.toNat := by omega
  rw [readEscape_pair (by omega) (by omega), hsum, Char.ofNat_toNat]

theorem readChar_short {c letter : Char} (h : (c, letter) ∈ shortEscapes) (rest : List Char) :
    readChar ('\\' :: letter :: rest) = some (c, rest) := by
  have hfind : ∀ pair ∈ shortEscapes, shortEscapes.find? (fun (_, short) ↦ short = pair.2) = some pair := by decide
  simp only [readChar, hfind _ h]

theorem readChar_unicode (n : Nat) (rest : List Char) :
    readChar (unicodeEscape n ++ rest) = readEscape (unicodeEscape n ++ rest) := by
  have hfind : shortEscapes.find? (fun (_, short) ↦ short = 'u') = none := by decide
  simp only [unicodeEscape, List.cons_append, readChar, hfind]

theorem readChar_escapeChar (c : Char) (rest : List Char) : readChar (escapeChar c ++ rest) = some (c, rest) := by
  unfold escapeChar
  split
  · rename_i letter hlookup
    obtain ⟨before, after, hpairs, -⟩ := List.lookup_eq_some_iff.mp hlookup
    exact readChar_short (by simp [hpairs]) rest
  · rename_i hlookup
    split
    · have hne : c ≠ '\\' := by
        rintro rfl
        exact absurd hlookup (by decide)
      rw [List.singleton_append, readChar]
      exact fun h ↦ hne h
    · split
      · rw [readChar_unicode]
        exact readEscape_short ‹_› rest
      · rw [List.append_assoc, readChar_unicode]
        exact readEscape_long (by omega) rest

theorem escapeChar_quote (c : Char) (rest : List Char) : ∀ text, escapeChar c ++ rest ≠ '"' :: text := by
  intro text htext
  have hread := readChar_escapeChar c rest
  rw [htext] at hread
  -- a quote that is not escaped is only itself
  have hquote : c = '"' := by
    have hself : readChar ('"' :: text) = some ('"', text) := rfl
    rw [hself] at hread
    exact (Prod.mk.inj (Option.some.inj hread)).1.symm
  subst hquote
  rw [show escapeChar '"' = ['\\', '"'] by decide] at htext
  exact absurd (List.cons.inj htext).1 (by decide)

theorem readText_dump (s : List Char) {n : Nat} (hn : s.length ≤ n) (rest : List Char) :
    readText n (s.flatMap escapeChar ++ '"' :: rest) = some (s, rest) := by
  induction s generalizing n with
  | nil =>
    cases n with
    | zero => rfl
    | succ n => rfl
  | cons c s ih =>
    cases n with
    | zero => cases hn
    | succ n =>
      have hchar := readChar_escapeChar c (s.flatMap escapeChar ++ '"' :: rest)
      have hquote := escapeChar_quote c (s.flatMap escapeChar ++ '"' :: rest)
      rw [List.flatMap_cons, List.append_assoc]
      rw [readText]
      · simp only [hchar, bind, Option.bind, ih (Nat.le_of_succ_le_succ hn)]
        rfl
      · exact hquote

theorem length_escapeChar (c : Char) : 0 < (escapeChar c).length := by
  by_contra hlength
  have hnil : escapeChar c = [] := List.eq_nil_of_length_eq_zero (by omega)
  have hread := readChar_escapeChar c []
  rw [hnil] at hread
  cases hread

theorem length_flatMap_escapeChar (s : List Char) : s.length ≤ (s.flatMap escapeChar).length := by
  induction s with
  | nil => exact Nat.le_refl 0
  | cons c s ih =>
    have hpos := length_escapeChar c
    rw [List.flatMap_cons, List.length_append, List.length_cons]
    omega

theorem readText_dumpText (s : String) (rest : List Char) :
    readText (s.toList.flatMap escapeChar ++ '"' :: rest).length (s.toList.flatMap escapeChar ++ '"' :: rest) =
      some (s.toList, rest) := by
  apply readText_dump
  have hlength := length_flatMap_escapeChar s.toList
  rw [List.length_append]
  omega

/-- What is behind a value: nothing that could belong to a number. -/
def Ends (rest : List Char) : Prop :=
  ∀ c text, rest = c :: text → isNumeral c = false

theorem readScalar_number {text : List Char} (h : ∀ c ∈ text, isNumeral c = true) (hne : text ≠ []) {rest : List Char}
    (hrest : Ends rest) :
    readScalar (text ++ rest) = (signed text).map fun n ↦ (.number n, rest) := by
  have htake : (text ++ rest).takeWhile isNumeral = text ∧ (text ++ rest).dropWhile isNumeral = rest := by
    rw [List.takeWhile_append_of_pos h, List.dropWhile_append_of_pos h]
    cases rest with
    | nil => exact ⟨List.append_nil _, rfl⟩
    | cons c rest =>
      have hc := hrest c rest rfl
      rw [List.takeWhile_cons_of_neg (by simp [hc]), List.dropWhile_cons_of_neg (by simp [hc])]
      exact ⟨List.append_nil _, rfl⟩
  obtain ⟨c, more, rfl⟩ := List.exists_cons_of_ne_nil hne
  have hc := h c List.mem_cons_self
  unfold readScalar
  split
  · rename_i heq
    obtain ⟨rfl, -⟩ := List.cons.inj heq
    cases hc
  · rename_i heq
    obtain ⟨rfl, -⟩ := List.cons.inj heq
    cases hc
  · rename_i heq
    obtain ⟨rfl, -⟩ := List.cons.inj heq
    cases hc
  · rw [htake.1, htake.2]

theorem readScalar_dumpScalar (value : Scalar) {rest : List Char} (hrest : Ends rest) :
    readScalar (dumpScalar value ++ rest) = some (value, rest) := by
  cases value with
  | truth b =>
    cases b with
    | true => rfl
    | false => rfl
  | number n =>
    have hne : (toString n).toList ≠ [] := by
      intro hnil
      have hsigned := Firecracker.signed_repr n
      rw [hnil] at hsigned
      cases hsigned
    have hnumeral : ∀ c ∈ (toString n).toList, isNumeral c = true :=
      fun _ hc ↦ Firecracker.isNumeral_of_mem_toString hc
    show readScalar ((toString n).toList ++ rest) = _
    rw [readScalar_number hnumeral hne hrest, Firecracker.signed_repr]
    rfl
  | text s =>
    show readScalar ('"' :: (s.toList.flatMap escapeChar ++ ['"'] ++ rest)) = _
    rw [List.append_assoc, List.singleton_append, readScalar, readText_dumpText, Option.map_some]
    simp only [String.ofList_toList]

section Members

variable {α : Type} {dump : α → List Char} {read : List Char → Option (α × List Char)}

/-- A reader of values reads what is dumped. -/
def Reads (dump : α → List Char) (read : List Char → Option (α × List Char)) : Prop :=
  ∀ value rest, Ends rest → read (dump value ++ rest) = some (value, rest)

theorem readMembers_dump (hread : Reads dump read) (members : List (String × α)) {n : Nat} (hn : members.length ≤ n)
    (rest : List Char) : readMembers read n (dumpMembers dump members ++ rest) = some (members, rest) := by
  induction members generalizing n with
  | nil =>
    cases n with
    | zero => rfl
    | succ n => rfl
  | cons member members ih =>
    obtain ⟨name, value⟩ := member
    cases n with
    | zero => cases hn
    | succ n =>
      have hbrace : Ends ('}' :: rest) := by
        intro c text h
        rw [← (List.cons.inj h).1]
        decide
      have hcomma (more : List Char) : Ends (',' :: more) := by
        intro c text h
        rw [← (List.cons.inj h).1]
        decide
      cases members with
      | nil =>
        simp only [dumpMembers, dumpText, List.cons_append, List.append_assoc, List.nil_append, readMembers,
          readText_dumpText, bind, Option.bind, hread value _ hbrace, String.ofList_toList]
      | cons next members =>
        simp only [dumpMembers, dumpText, List.cons_append, List.append_assoc, List.nil_append, readMembers,
          readText_dumpText, bind, Option.bind, hread value _ (hcomma _), String.ofList_toList,
          ih (Nat.le_of_succ_le_succ hn), Option.map_some]

theorem length_dumpMembers (dump : α → List Char) (members : List (String × α)) :
    members.length ≤ (dumpMembers dump members).length := by
  induction members with
  | nil => exact Nat.zero_le _
  | cons member members ih =>
    cases members with
    | nil =>
      simp [dumpMembers]
      omega
    | cons next members =>
      simp only [dumpMembers, List.length_append, List.length_cons] at ih ⊢
      omega

theorem readObject_dump (hread : Reads dump read) (members : List (String × α)) (rest : List Char) :
    readObject read (dumpObject dump members ++ rest) = some (members, rest) := by
  apply readMembers_dump hread
  have hlength := length_dumpMembers dump members
  show members.length ≤ (dumpMembers dump members ++ rest).length
  rw [List.length_append]
  omega

end Members

theorem readField_dumpField : Reads dumpField readField := by
  intro value rest hrest
  cases value with
  | object members =>
    have hobject := readObject_dump (fun value _ ↦ readScalar_dumpScalar value) members rest
    simp only [readField, dumpField, hobject]
  | scalar value =>
    have hscalar := readScalar_dumpScalar value hrest
    have hnone : readObject readScalar (dumpScalar value ++ rest) = none := by
      unfold readObject
      split
      -- a brace begins no scalar
      · rename_i text heq
        have hbrace : readScalar ('{' :: text) = none := rfl
        rw [heq, hbrace] at hscalar
        cases hscalar
      · rfl
    simp only [readField, dumpField, hnone, hscalar, Option.map_some]

theorem loads_dumps (body : Body) : loads (dumps body) = some body := by
  have hobject := readObject_dump readField_dumpField body []
  rw [List.append_nil] at hobject
  simp only [loads, dumps, String.toList_ofList, hobject]

/-- `json.dumps` and `json.loads`, of the bodies. -/
def jsonBody : Json Body where
  dumps := dumps
  loads := loads
  loads_dumps := loads_dumps
  loads_empty := by decide

end Keycard.FcApi
