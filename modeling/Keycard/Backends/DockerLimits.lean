import Keycard.Config.Loaded
import Keycard.Reasoning.Doubles
import Mathlib.Data.Int.ConditionallyCompleteOrder

/-!
# The limits of a container

`_room_overrides`, and the arguments with which `DockerBackend.open` starts a container.  The cpus of a room are
a whole number by then: `int` of `_parse_rooms` has cut off the fraction, and a zero is as good as no number.
-/

open Reasoning

namespace Keycard

/-- What `int` makes of a number that a document holds, and `str`. -/
def Value.number (text : String) (v : ℚ) : Value :=
  .other text (Extended.fin v).truncate

namespace Docker

/-! ## The arguments of `containers.run` -/

inductive Arg where
  | text (s : String)
  | number (n : ℤ)
  | flag (b : Bool)
  | texts (ss : List String)
  | entries (items : List (String × String))
deriving DecidableEq, Repr

/-- `ROOM_DEFAULTS` -/
def roomDefaults : Dict String Arg where
  items := [
    ("entrypoint", .texts []),
    ("command", .texts ["/bin/bash", "--login"]),
    ("environment", .entries [("TERM", "xterm-256color"), ("PS1", "\\u@\\h:\\w# ")]),
    ("tty", .flag true),
    ("stdin_open", .flag true),
    ("detach", .flag true),
    ("network_disabled", .flag false),
    ("cap_drop", .texts ["ALL"]),
    ("security_opt", .texts ["no-new-privileges:true"]),
    ("mem_limit", .text "1g"),
    ("pids_limit", .number 512)]
  nodup := by decide

/-- `_room_overrides` -/
def roomOverrides (room : RoomConfig) : Dict String Arg :=
  let overrides := Dict.empty.set "pids_limit" (.number room.pidsLimit)
  let overrides := if room.memory = "" then overrides else overrides.set "mem_limit" (.text room.memory)
  let overrides := if room.cpus = 0 then overrides else overrides.set "nano_cpus" (.number (room.cpus * 1000000000))
  if room.network = "" then overrides else overrides.set "network_mode" (.text room.network)

/-- `run_kwargs` of `DockerBackend.open` -/
def runKwargs (room : RoomConfig) : Dict String Arg :=
  roomDefaults.update (roomOverrides room)

def nanoCpus (kwargs : Dict String Arg) : Option ℤ :=
  match kwargs.get? "nano_cpus" with
  | some (.number n) => some n
  | _ => none

/-- The nanoseconds of processor time in a second; without a number there is no end to them. -/
def cpuLimit (kwargs : Dict String Arg) : WithTop ℤ :=
  nanoCpus kwargs

theorem get?_set_of_ne {d : Dict String Arg} {key key' : String} (h : key' ≠ key) (value : Arg) :
    (d.set key value).get? key' = d.get? key' := by
  rw [Dict.get?_set, Function.update_of_ne h]

theorem roomOverrides_nanoCpus (room : RoomConfig) : (roomOverrides room).get? "nano_cpus" =
    if room.cpus = 0 then none else some (.number (room.cpus * 1000000000)) := by
  have hnetwork : "nano_cpus" ≠ "network_mode" := by decide
  have hmemory : "nano_cpus" ≠ "mem_limit" := by decide
  have hpids : "nano_cpus" ≠ "pids_limit" := by decide
  have hlast (overrides : Dict String Arg) :
      (if room.network = "" then overrides else overrides.set "network_mode" (.text room.network)).get? "nano_cpus" =
        overrides.get? "nano_cpus" := by
    split
    · rfl
    · exact get?_set_of_ne hnetwork _
  have hfirst (overrides : Dict String Arg) :
      (if room.memory = "" then overrides else overrides.set "mem_limit" (.text room.memory)).get? "nano_cpus" =
        overrides.get? "nano_cpus" := by
    split
    · rfl
    · exact get?_set_of_ne hmemory _
  unfold roomOverrides
  simp only [hlast]
  split
  · rw [hfirst, get?_set_of_ne hpids, Dict.get?_empty]
  · rw [Dict.get?_set, Function.update_self]

/-- A container is started with a number exactly if the cpus of the room are not zero. -/
theorem nanoCpus_runKwargs (room : RoomConfig) :
    nanoCpus (runKwargs room) = if room.cpus = 0 then none else some (room.cpus * 1000000000) := by
  have hdefaults : roomDefaults.get? "nano_cpus" = none := by decide
  rw [nanoCpus, runKwargs, Dict.get?_update, roomOverrides_nanoCpus, hdefaults, Option.or_none]
  by_cases hzero : room.cpus = 0
  · rw [if_pos hzero, if_pos hzero]
  · rw [if_neg hzero, if_neg hzero]

/-! ## What a document configures -/

/-- `load` accepts the document, and finds a number of cpus in it for the room. -/
structure Configures (env : Env) (raw : Table) (name : String) (v : ℚ) (config : Config) : Prop where
  entry : ∃ entries text table text' image number,
    raw.lookup "rooms" = some (.table entries text) ∧ (entries.map Prod.fst).Nodup ∧
      (name, .table table text') ∈ entries ∧ table.lookup "image" = some (.str image) ∧
      table.lookup "cpus" = some (.number number v)
  loads : load env (some raw) = some config

/-- The container of the room is capped at no more than `v` processors, and at no more than those for which a
document says `v` or more. -/
structure KeepsCap (config : Config) (name : String) (v : ℚ) : Prop where
  capped : ∃ room n, config.rooms.get? name = some room ∧ nanoCpus (runKwargs room) = some n ∧ 0 < n ∧
    n ≤ v * 1000000000
  monotone : ∀ env raw name' w config' room room', Configures env raw name' w config' → v ≤ w →
    config.rooms.get? name = some room → config'.rooms.get? name' = some room' →
      cpuLimit (runKwargs room) ≤ cpuLimit (runKwargs room')

variable {env : Env}

theorem parseEntries_of_not_mem {entries : Table} {rooms rooms' : Dict String RoomConfig} {name : String}
    (h : parseEntries env rooms entries = some rooms') (hname : name ∉ entries.map Prod.fst) :
    rooms'.get? name = rooms.get? name := by
  induction entries generalizing rooms with
  | nil =>
    cases h
    rfl
  | cons entry rest ih =>
    rw [parseEntries] at h
    rw [List.map_cons] at hname
    have hrest := List.not_mem_of_not_mem_cons hname
    split at h
    · cases h
    · exact ih h hrest
    · rw [ih h hrest, Dict.get?_set, Function.update_of_ne (List.ne_of_not_mem_cons hname)]

/-- The entry of a room is what becomes of it, since no name is there twice. -/
theorem parseEntries_of_mem {entries : Table} {rooms rooms' : Dict String RoomConfig} {name : String} {value : Value}
    (h : parseEntries env rooms entries = some rooms') (hnodup : (entries.map Prod.fst).Nodup)
    (hmem : (name, value) ∈ entries) : ∃ parsed, parseRoom env name value = some parsed ∧
      ∀ room, parsed = some room → rooms'.get? name = some room := by
  induction entries generalizing rooms with
  | nil => cases hmem
  | cons entry rest ih =>
    obtain ⟨hnot, hrest⟩ := List.nodup_cons.mp hnodup
    rw [parseEntries] at h
    rcases List.mem_cons.mp hmem with rfl | hmem
    · cases hparsed : parseRoom env name value with
      | none =>
        simp only [hparsed] at h
        cases h
      | some parsed =>
        refine ⟨parsed, rfl, ?_⟩
        rintro room rfl
        simp only [hparsed] at h
        -- what comes behind the entry has other names
        rw [parseEntries_of_not_mem h hnot, Dict.get?_set, Function.update_self]
    · split at h
      · cases h
      · exact ih h hrest hmem
      · exact ih h hrest hmem

theorem truncate_of_pos {v : ℚ} (hv : 0 < v) : (Extended.fin v).truncate = some ⌊v⌋ := by
  rw [Extended.truncate, if_neg (not_lt.mpr hv.le)]

theorem parseRoom_cpus {name text image number : String} {table : Table} {v : ℚ} {parsed : Option RoomConfig}
    (h : parseRoom env name (.table table text) = some parsed) (himage : table.lookup "image" = some (.str image))
    (hcpus : table.lookup "cpus" = some (.number number v)) (hv : 0 < v) :
    ∃ room, parsed = some room ∧ room.cpus = ⌊v⌋ := by
  have hkey : intKey env table "cpus" 0 = some ⌊v⌋ := by
    rw [intKey, hcpus]
    exact truncate_of_pos hv
  unfold parseRoom at h
  simp only [himage] at h
  obtain ⟨cpus, hread, h⟩ := Option.bind_eq_some_iff.mp h
  obtain ⟨pidsLimit, -, h⟩ := Option.bind_eq_some_iff.mp h
  cases h
  exact ⟨_, rfl, Option.some.inj (hread.symm.trans hkey)⟩

/-- The cpus of a room are the whole part of the number. -/
theorem Configures.cpus {raw : Table} {name : String} {v : ℚ} {config : Config}
    (h : Configures env raw name v config) (hv : 0 < v) :
    ∃ room, config.rooms.get? name = some room ∧ room.cpus = ⌊v⌋ := by
  obtain ⟨entries, text, table, text', image, number, hrooms, hnodup, hmem, himage, hcpus⟩ := h.entry
  obtain ⟨parsed, hparsed, hconfig, -⟩ := loadTable_cases h.loads
  rw [parseRooms, hrooms] at hparsed
  obtain ⟨result, hresult, hget⟩ := parseEntries_of_mem hparsed hnodup hmem
  obtain ⟨room, rfl, hroom⟩ := parseRoom_cpus hresult himage hcpus hv
  -- there is a room, so the built-in ones are not used
  have hitems : ¬ parsed.items.isEmpty := by
    intro hempty
    have hroom' := Dict.mem_items_iff.mpr (hget room rfl)
    rw [List.isEmpty_iff.mp hempty] at hroom'
    cases hroom'
  refine ⟨room, ?_, hroom⟩
  rw [hconfig, if_neg hitems]
  exact hget room rfl

/-- The cap of a room is kept exactly if it is a whole processor or more. -/
theorem keepsCap_iff {raw : Table} {name : String} {v : ℚ} {config : Config}
    (h : Configures env raw name v config) (hv : 0 < v) : KeepsCap config name v ↔ 1 ≤ v := by
  obtain ⟨room, hroom, hcpus⟩ := h.cpus hv
  have hnano := nanoCpus_runKwargs room
  constructor
  · rintro ⟨⟨room', n, hroom', hn, -⟩, -⟩
    by_contra hlt
    -- the whole part of less than a processor is zero, which stands for no limit
    have hzero : ⌊v⌋ = 0 := Int.floor_eq_zero_iff.mpr ⟨hv.le, not_le.mp hlt⟩
    cases hroom.symm.trans hroom'
    rw [hnano, hcpus, hzero] at hn
    cases hn
  · intro hone
    have hpos : 1 ≤ ⌊v⌋ := Int.le_floor.mpr (by exact_mod_cast hone)
    have hnonzero : room.cpus ≠ 0 := by omega
    rw [if_neg hnonzero, hcpus] at hnano
    have hle : ((⌊v⌋ * 1000000000 : ℤ) : ℚ) ≤ v * 1000000000 := by
      push_cast
      exact mul_le_mul_of_nonneg_right (Int.floor_le v) (by norm_num)
    refine ⟨⟨room, _, hroom, hnano, by omega, hle⟩, ?_⟩
    intro env' raw' name' w config' first room' h' hvw hfirst hroom'
    cases hroom.symm.trans hfirst
    obtain ⟨other, hother, hcpus'⟩ := h'.cpus (hv.trans_le hvw)
    cases hroom'.symm.trans hother
    have hfloor : ⌊v⌋ ≤ ⌊w⌋ := Int.floor_le_floor hvw
    have hnano' := nanoCpus_runKwargs room'
    rw [if_neg (by omega), hcpus'] at hnano'
    rw [cpuLimit, cpuLimit, hnano, hnano']
    exact WithTop.coe_le_coe.mpr (by omega)

/-! ## Two documents -/

/-- A document with one room. -/
def oneRoom (text : String) (v : ℚ) : Table :=
  [("rooms", .table [("small", .table [("image", .str "alpine:3.20"), ("cpus", .number text v)] "")] "")]

def emptyEnv : Env where
  home _ := none
  configDir := ⟨"/", ["etc", "keycard"]⟩
  tempDir := ⟨"/", ["tmp"]⟩
  int _ := none

/-- What a container of the one room is started with. -/
def nanoCpusOf (document : Table) : Option (Option ℤ) :=
  (load emptyEnv (some document)).bind fun config ↦ (config.rooms.get? "small").map fun room ↦ nanoCpus (runKwargs room)

theorem oneRoom_configures (text : String) (v : ℚ) {config : Config}
    (h : load emptyEnv (some (oneRoom text v)) = some config) :
    Configures emptyEnv (oneRoom text v) "small" v config :=
  ⟨⟨_, _, _, _, _, _, rfl, List.nodup_singleton _, List.mem_singleton_self _, rfl, rfl⟩, h⟩

theorem keepsCap_two : ∃ config, load emptyEnv (some (oneRoom "2.5" (5 / 2))) = some config ∧
    KeepsCap config "small" (5 / 2) := by
  have hload : (load emptyEnv (some (oneRoom "2.5" (5 / 2)))).isSome := by decide +kernel
  obtain ⟨config, hconfig⟩ := Option.isSome_iff_exists.mp hload
  exact ⟨config, hconfig, (keepsCap_iff (oneRoom_configures _ _ hconfig) (by norm_num)).mpr (by norm_num)⟩

/-- Half a processor becomes no limit at all, and a whole one is a limit. -/
theorem half_uncapped : nanoCpusOf (oneRoom "0.5" (1 / 2)) = some none ∧
    nanoCpusOf (oneRoom "1.0" 1) = some (some 1000000000) ∧
    ∀ config, load emptyEnv (some (oneRoom "0.5" (1 / 2))) = some config → ¬ KeepsCap config "small" (1 / 2) := by
  have hhalf : nanoCpusOf (oneRoom "0.5" (1 / 2)) = some none := by decide +kernel
  refine ⟨hhalf, by decide +kernel, ?_⟩
  rintro config hload ⟨⟨room, n, hroom, hn, -⟩, -⟩
  rw [nanoCpusOf, hload, Option.bind_some, hroom, Option.map_some, hn] at hhalf
  cases hhalf

end Docker

end Keycard
