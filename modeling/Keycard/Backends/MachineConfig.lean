import Keycard.Config.Types
import Keycard.Reasoning.Literals

/-!
# The size of a machine

`parse_memory_mib` and `machine_config`.  `float` may find an infinity or NaN in a text, and a number may be too
large for a double; `int` raises on each of them, outside the `try` that catches what `float` raises.
-/

open Reasoning

namespace Keycard.Firecracker

/-- `DEFAULT_MEM_MIB` -/
def defaultMemMib : ℤ := 1024

/-- `MIN_MEM_MIB` -/
def minMemMib : ℤ := 16

/-- `MAX_VCPUS` -/
def maxVcpus : ℤ := 32

/-- `DEFAULT_VCPUS` -/
def defaultVcpus : ℤ := 1

/-- `_MEMORY_UNITS` -/
def memoryUnit : Char → Option ℚ
  | 'b' => some (1 / (1024 * 1024))
  | 'k' => some (1 / 1024)
  | 'm' => some 1
  | 'g' => some 1024
  | _ => none

/-- What `parse_memory_mib` takes for the number, and the unit it multiplies it with; a bare number is in bytes. -/
def sizeParts (db : Unicode) (spec : String) : List Char × ℚ :=
  let spec := db.lower (db.strip spec.toList)
  match spec.getLast?.bind memoryUnit with
  | some unit => (spec.dropLast, unit)
  | none => (spec, 1 / (1024 * 1024))

/-- `parse_memory_mib`, with `none` for what `int` raises -/
def parseMemoryMib (db : Unicode) (round : ℚ → Extended) (spec : String) : Option ℤ :=
  if db.lower (db.strip spec.toList) = [] then some defaultMemMib
  else
    match db.float round (sizeParts db spec).1 with
    | none => some defaultMemMib
    | some number => (number.scale round (sizeParts db spec).2).truncate.map fun value ↦ max minMemMib value

structure MachineConfig where
  vcpuCount : ℤ
  memSizeMib : ℤ
deriving DecidableEq, Repr

/-- `machine_config` -/
def machineConfig (db : Unicode) (round : ℚ → Extended) (room : RoomConfig) : Option MachineConfig :=
  (parseMemoryMib db round room.memory).map fun memory ↦ {
    vcpuCount := max 1 (min (if room.cpus = 0 then defaultVcpus else room.cpus) maxVcpus)
    memSizeMib := memory }

/-! ## What there is a machine for -/

/-- The text is a finite number, and a unit if it likes. -/
def DenotesSize (db : Unicode) (spec : String) : Prop :=
  ∃ q, db.readLiteral (sizeParts db spec).1 = some (.number q)

/-- There is a machine, and it is of the default size where the memory is not a number with a unit. -/
def HasMachine (db : Unicode) (room : RoomConfig) : Prop :=
  ∃ config, machineConfig db double room = some config ∧ 1 ≤ config.vcpuCount ∧ config.vcpuCount ≤ 32 ∧
    16 ≤ config.memSizeMib ∧ (¬ DenotesSize db room.memory → config.memSizeMib = defaultMemMib)

/-- The text is neither an infinity nor NaN, and no number that overflows, in bytes or in what `g` makes of it. -/
def IsBounded (db : Unicode) (spec : String) : Prop :=
  ∀ literal, db.readLiteral (sizeParts db spec).1 = some literal →
    ∃ q, literal = .number q ∧ |q| * max 1 (sizeParts db spec).2 < overflow

/-- An empty text needs no case of its own. -/
theorem parseMemoryMib_eq (db : Unicode) (round : ℚ → Extended) (spec : String) : parseMemoryMib db round spec =
    match db.readLiteral (sizeParts db spec).1 with
    | none => some defaultMemMib
    | some literal =>
      ((literal.value round).scale round (sizeParts db spec).2).truncate.map fun value ↦ max minMemMib value := by
  unfold parseMemoryMib
  split
  · rename_i hempty
    -- `float` finds nothing in an empty text, and the default is the same
    have hparts : (sizeParts db spec).1 = [] := by
      rw [sizeParts, hempty]
      rfl
    rw [hparts]
    rfl
  · rw [Unicode.float]
    cases db.readLiteral (sizeParts db spec).1 with
    | none => rfl
    | some literal => rfl

theorem memoryUnit_pos {c : Char} {unit : ℚ} (h : memoryUnit c = some unit) :
    unit = 1024 ∨ 0 < unit ∧ unit ≤ 1 := by
  unfold memoryUnit at h
  split at h
  all_goals cases h
  all_goals norm_num

/-- A unit is the gibibyte, or it makes the number no larger. -/
theorem sizeParts_unit (db : Unicode) (spec : String) :
    (sizeParts db spec).2 = 1024 ∨ 0 < (sizeParts db spec).2 ∧ (sizeParts db spec).2 ≤ 1 := by
  unfold sizeParts
  simp only []
  split
  · rename_i unit hunit
    obtain ⟨c, -, hc⟩ := Option.bind_eq_some_iff.mp hunit
    exact memoryUnit_pos hc
  · norm_num

/-- A literal times a unit is finite exactly if it is a number that does not overflow. -/
theorem scale_value_isFinite_iff (literal : Literal) {unit : ℚ} (hunit : unit = 1024 ∨ 0 < unit ∧ unit ≤ 1) :
    ((literal.value double).scale double unit).IsFinite ↔ ∃ q, literal = .number q ∧ |q| * max 1 unit < overflow := by
  cases literal with
  | nan => exact iff_of_false id nofun
  | inf negative => exact iff_of_false id nofun
  | number q =>
    have hnumber : (∃ q', Literal.number q = .number q' ∧ |q'| * max 1 unit < overflow) ↔
        |q| * max 1 unit < overflow := by
      simp
    rw [hnumber]
    -- only the gibibyte can make a number overflow that did not before
    rcases hunit with rfl | ⟨hpos, hone⟩
    · have hpow : (1024 : ℚ) = 2 ^ (10 : ℤ) := by norm_num
      rw [max_eq_right (by norm_num), hpow]
      exact scale_isFinite_iff (by omega)
    · rw [max_eq_left hone, mul_one]
      exact scale_isFinite_iff_of_le_one hpos.le hone

theorem parseMemoryMib_isSome_iff (db : Unicode) (spec : String) :
    (parseMemoryMib db double spec).isSome ↔ IsBounded db spec := by
  rw [parseMemoryMib_eq, IsBounded]
  cases db.readLiteral (sizeParts db spec).1 with
  | none => exact iff_of_true rfl nofun
  | some literal =>
    simp only [Option.isSome_map, Extended.truncate_isSome_iff, scale_value_isFinite_iff literal (sizeParts_unit db spec)]
    constructor
    · rintro hfinite _ ⟨⟩
      exact hfinite
    · exact fun hbounded ↦ hbounded literal rfl

/-- No size is below the least one. -/
theorem minMemMib_le {db : Unicode} {round : ℚ → Extended} {spec : String} {memory : ℤ}
    (h : parseMemoryMib db round spec = some memory) : minMemMib ≤ memory := by
  rw [parseMemoryMib_eq] at h
  split at h
  · cases h
    decide
  · obtain ⟨value, -, rfl⟩ := Option.map_eq_some_iff.mp h
    exact le_max_left _ _

/-- Where there is no number there is the default, unless there is an infinity or NaN. -/
theorem parseMemoryMib_default {db : Unicode} {spec : String} (hbounded : IsBounded db spec)
    (hsize : ¬ DenotesSize db spec) (round : ℚ → Extended) : parseMemoryMib db round spec = some defaultMemMib := by
  rw [parseMemoryMib_eq]
  cases hliteral : db.readLiteral (sizeParts db spec).1 with
  | none => rfl
  | some literal =>
    obtain ⟨q, rfl, -⟩ := hbounded literal hliteral
    exact absurd ⟨q, hliteral⟩ hsize

theorem vcpuCount_bounds (cpus : ℤ) : 1 ≤ max 1 (min cpus maxVcpus) ∧ max 1 (min cpus maxVcpus) ≤ 32 := by
  unfold maxVcpus
  omega

/-- There is a machine for a room exactly if its memory is bounded, whatever its cpus are. -/
theorem hasMachine_iff_isBounded (db : Unicode) (room : RoomConfig) :
    HasMachine db room ↔ IsBounded db room.memory := by
  constructor
  · rintro ⟨config, hconfig, -⟩
    obtain ⟨memory, hmemory, -⟩ := Option.map_eq_some_iff.mp hconfig
    rw [← parseMemoryMib_isSome_iff, hmemory]
    rfl
  · intro hbounded
    obtain ⟨memory, hmemory⟩ := Option.isSome_iff_exists.mp ((parseMemoryMib_isSome_iff db room.memory).mpr hbounded)
    obtain ⟨hlow, hhigh⟩ := vcpuCount_bounds (if room.cpus = 0 then defaultVcpus else room.cpus)
    refine ⟨_, by rw [machineConfig, hmemory]; rfl, hlow, hhigh, minMemMib_le hmemory, fun hsize ↦ ?_⟩
    rw [parseMemoryMib_default hbounded hsize] at hmemory
    exact (Option.some.inj hmemory).symm

abbrev roomWith (memory : String) : RoomConfig :=
  { RoomConfig.of "room" "image" with memory }

theorem not_hasMachine_of_none {db : Unicode} {room : RoomConfig} (h : machineConfig db double room = none) :
    ¬ HasMachine db room := by
  rintro ⟨config, hconfig, -⟩
  rw [h] at hconfig
  cases hconfig

/-- None of these is a number, and there is no machine for any of them. -/
theorem noMachine_inf_nan :
    (machineConfig .ofAscii double (roomWith "inf") = none ∧ ¬ HasMachine .ofAscii (roomWith "inf")) ∧
      (machineConfig .ofAscii double (roomWith "nan") = none ∧ ¬ HasMachine .ofAscii (roomWith "nan")) ∧
      (machineConfig .ofAscii double (roomWith "-Infinityg") = none ∧
        ¬ HasMachine .ofAscii (roomWith "-Infinityg")) := by
  have hinf : machineConfig .ofAscii double (roomWith "inf") = none := by decide +kernel
  have hnan : machineConfig .ofAscii double (roomWith "nan") = none := by decide +kernel
  have hunit : machineConfig .ofAscii double (roomWith "-Infinityg") = none := by decide +kernel
  exact ⟨⟨hinf, not_hasMachine_of_none hinf⟩, ⟨hnan, not_hasMachine_of_none hnan⟩,
    ⟨hunit, not_hasMachine_of_none hunit⟩⟩

end Keycard.Firecracker
