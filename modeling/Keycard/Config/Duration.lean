import Keycard.Config.Load
import Keycard.Reasoning.Literals

/-!
# Durations

`parse_duration`, and the four properties that call it.  A duration is kept as it was written, and what `float`
finds in it may be NaN.
-/

open Reasoning

namespace Keycard

/-- `_DURATION_UNITS` -/
def durationUnit : Char → Option ℚ
  | 's' => some 1
  | 'm' => some 60
  | 'h' => some 3600
  | _ => none

/-- `parse_duration`, with `none` for a `ValueError` -/
def parseDuration (db : Unicode) (round : ℚ → Extended) (spec : String) : Option Extended :=
  let spec := db.strip spec.toList
  if spec = [] || spec = ['0'] then some (.fin 0)
  else
    match spec.getLast?.bind durationUnit with
    | some unit => (db.float round spec.dropLast).map (Extended.scale round unit)
    | none => db.float round spec

/-- `boot_timeout_seconds` -/
def FirecrackerConfig.bootTimeoutSeconds (db : Unicode) (fc : FirecrackerConfig) : Option Extended :=
  parseDuration db double fc.bootTimeout

namespace Config

/-- `idle_timeout_seconds` -/
def idleTimeoutSeconds (db : Unicode) (config : Config) : Option Extended :=
  parseDuration db double config.idleTimeout

/-- `shutdown_grace_seconds` -/
def shutdownGraceSeconds (db : Unicode) (config : Config) : Option Extended :=
  parseDuration db double config.shutdownGrace

/-- `keep_window_seconds` -/
def keepWindowSeconds (db : Unicode) (config : Config) : Option Extended :=
  parseDuration db double config.keepWindow

end Config

/-! ## What is written -/

def withoutUnit (text : List Char) : List Char :=
  if (text.getLast?.bind durationUnit).isSome then text.dropLast else text

/-- What there is in a duration besides the unit. -/
def durationNumber (db : Unicode) (spec : String) : List Char :=
  withoutUnit (db.strip spec.toList)

/-- A spelling of NaN, with or without a unit. -/
def SpellsNan (db : Unicode) (spec : String) : Prop :=
  db.readLiteral (durationNumber db spec) = some .nan

instance (db : Unicode) (spec : String) : Decidable (SpellsNan db spec) :=
  inferInstanceAs (Decidable (_ = _))

/-- Nothing at all, or a number or an infinity, with or without a unit. -/
def IsDuration (db : Unicode) (spec : String) : Prop :=
  db.strip spec.toList = [] ∨ ∃ literal, db.readLiteral (durationNumber db spec) = some literal ∧ literal ≠ .nan

variable {db : Unicode} {spec : String}

theorem readLiteral_zero (db : Unicode) : db.readLiteral ['0'] = some (.number 0) := by
  have hplain : ∀ c ∈ ['0'], IsPlain c := fun c hc ↦ isPlain_of_isDigit (by rw [List.mem_singleton.mp hc]; decide)
  rw [readLiteral_of_isPlain db hplain]
  decide +kernel

theorem durationNumber_zero (h : db.strip spec.toList = ['0']) : durationNumber db spec = ['0'] := by
  unfold durationNumber
  rw [h]
  rfl

/-- Neither the rounding nor the unit makes NaN of a literal that is not, or the other way round. -/
theorem parseDuration_of_ne (hempty : db.strip spec.toList ≠ []) (hzero : db.strip spec.toList ≠ ['0']) :
    ∃ value : Literal → Extended, (∀ literal, value literal = .nan ↔ literal = .nan) ∧
      parseDuration db double spec = (db.readLiteral (durationNumber db spec)).map value := by
  unfold parseDuration durationNumber withoutUnit
  simp only [hempty, hzero, decide_false, Bool.or_false, Bool.false_eq_true, ↓reduceIte]
  cases hunit : (db.strip spec.toList).getLast?.bind durationUnit with
  | none => exact ⟨Literal.value double, fun literal ↦ Literal.value_eq_nan_iff double_ne_nan, rfl⟩
  | some unit =>
    refine ⟨fun literal ↦ (literal.value double).scale double unit, fun literal ↦ ?_, ?_⟩
    · rw [Extended.scale_eq_nan_iff double_ne_nan, Literal.value_eq_nan_iff double_ne_nan]
    · exact Option.map_map _ _ _

theorem exists_parseDuration_iff :
    (∃ x, parseDuration db double spec = some x ∧ x ≠ .nan) ↔ IsDuration db spec := by
  -- what `parse_duration` does not give to `float` comes first
  by_cases hempty : db.strip spec.toList = []
  · have hparse : parseDuration db double spec = some (.fin 0) := by
      rw [parseDuration, hempty]
      rfl
    exact iff_of_true ⟨_, hparse, nofun⟩ (.inl hempty)
  by_cases hzero : db.strip spec.toList = ['0']
  · have hparse : parseDuration db double spec = some (.fin 0) := by
      rw [parseDuration, hzero]
      rfl
    refine iff_of_true ⟨_, hparse, nofun⟩ (.inr ⟨.number 0, ?_, nofun⟩)
    rw [durationNumber_zero hzero, readLiteral_zero]
  obtain ⟨value, hvalue, hparse⟩ := parseDuration_of_ne hempty hzero
  rw [hparse, IsDuration]
  constructor
  · rintro ⟨x, hx, hne⟩
    obtain ⟨literal, hliteral, rfl⟩ := Option.map_eq_some_iff.mp hx
    exact .inr ⟨literal, hliteral, fun hnan ↦ hne ((hvalue literal).mpr hnan)⟩
  · rintro (hnil | ⟨literal, hliteral, hne⟩)
    · exact absurd hnil hempty
    · exact ⟨value literal, by rw [hliteral]; rfl, fun hnan ↦ hne ((hvalue literal).mp hnan)⟩

/-- Where `parse_duration` returns, NaN is all that can be wrong. -/
theorem isDuration_iff_of_isSome (h : (parseDuration db double spec).isSome = true) :
    IsDuration db spec ↔ ¬ SpellsNan db spec := by
  by_cases hempty : db.strip spec.toList = []
  · refine iff_of_true (.inl hempty) fun hnan ↦ ?_
    have hnumber : durationNumber db spec = [] := by
      unfold durationNumber
      rw [hempty]
      rfl
    rw [SpellsNan, hnumber] at hnan
    cases hnan
  by_cases hzero : db.strip spec.toList = ['0']
  · rw [IsDuration, SpellsNan, durationNumber_zero hzero, readLiteral_zero]
    exact iff_of_true (.inr ⟨_, rfl, nofun⟩) nofun
  obtain ⟨value, -, hparse⟩ := parseDuration_of_ne hempty hzero
  rw [hparse, Option.isSome_map] at h
  obtain ⟨literal, hliteral⟩ := Option.isSome_iff_exists.mp h
  rw [IsDuration, SpellsNan, hliteral, Option.some.injEq]
  constructor
  · rintro (hnil | ⟨_, hsome, hne⟩)
    · exact absurd hnil hempty
    · rw [Option.some.inj hsome]
      exact hne
  · exact fun hne ↦ .inr ⟨literal, rfl, hne⟩

/-- What is written without blanks is not changed by anything before it is read. -/
theorem isDuration_of_isPlain (hplain : ∀ c ∈ spec.toList, 32 < c.toNat ∧ IsPlain c)
    (hliteral : ∃ value ∈ literal (withoutUnit spec.toList), value ≠ .nan) : IsDuration db spec := by
  obtain ⟨value, hvalue, hne⟩ := hliteral
  have hstrip : db.strip spec.toList = spec.toList :=
    db.strip_of_visible fun c hc ↦ ⟨(hplain c hc).1, (hplain c hc).2.1⟩
  have hnumber : ∀ c ∈ withoutUnit spec.toList, IsPlain c := by
    unfold withoutUnit
    split
    · exact fun c hc ↦ (hplain c (List.mem_of_mem_dropLast hc)).2
    · exact fun c hc ↦ (hplain c hc).2
  refine .inr ⟨value, ?_, hne⟩
  rw [durationNumber, hstrip, readLiteral_of_isPlain db hnumber]
  exact hvalue

/-- Every default is a duration. -/
theorem isDuration_default (db : Unicode) (env : Env) :
    ∀ spec ∈ [(Config.default env).idleTimeout, (Config.default env).shutdownGrace, (Config.default env).keepWindow,
      (FirecrackerConfig.default env).bootTimeout], IsDuration db spec := by
  have hplain : ∀ spec ∈ ["15m", "30s", "0", "30s"], (∀ c ∈ spec.toList, 32 < c.toNat ∧ IsPlain c) ∧
      ∃ value ∈ literal (withoutUnit spec.toList), value ≠ .nan := by decide +kernel
  intro spec hspec
  obtain ⟨hchars, hliteral⟩ := hplain spec hspec
  exact isDuration_of_isPlain hchars hliteral

end Keycard
