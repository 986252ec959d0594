import Keycard.Config.Load
import Keycard.Backends.RoutingHistory
import Keycard.Backends.Sweep

/-!
# What is loaded is well formed

Every fallback of the loader ends in a configuration that serves every username, and none of them touches a
key it is not about.
-/

open Reasoning

namespace Keycard

/-- A configuration that `_valid_backend`, `_confinement` and the fallbacks of `load` have settled. -/
structure Config.WellFormed (config : Config) : Prop where
  rooms_ne : config.rooms.items ≠ []
  name : ∀ name room, config.rooms.get? name = some room → room.name = name
  default_mem : ∃ room, config.rooms.get? config.defaultRoom = some room
  backend : config.backend ∈ knownBackends
  roomBackend : ∀ name room, config.rooms.get? name = some room → room.backend = "" ∨ room.backend ∈ knownBackends
  confinement : config.firecracker.confinement ∈ confinementModes

variable {env : Env}

/-! ## Rooms -/

theorem validBackend_mem (name : String) : validBackend name = "" ∨ validBackend name ∈ knownBackends := by
  unfold validBackend
  split
  · rename_i h
    rw [Bool.or_eq_true, decide_eq_true_eq, decide_eq_true_eq] at h
    exact h
  · exact .inr (by decide)

/-- The rooms are under their own names, on backends that there are. -/
structure RoomsSettled (rooms : Dict String RoomConfig) : Prop where
  name : ∀ name room, rooms.get? name = some room → room.name = name
  backend : ∀ name room, rooms.get? name = some room → room.backend = "" ∨ room.backend ∈ knownBackends

theorem settled_empty : RoomsSettled .empty where
  name := fun _ _ h ↦ by cases h
  backend := fun _ _ h ↦ by cases h

theorem parseRoom_settled {name : String} {value : Value} {room : RoomConfig}
    (h : parseRoom env name value = some (some room)) :
    room.name = name ∧ (room.backend = "" ∨ room.backend ∈ knownBackends) := by
  unfold parseRoom at h
  split at h
  · split at h
    · obtain ⟨cpus, -, h⟩ := Option.bind_eq_some_iff.mp h
      obtain ⟨pidsLimit, -, h⟩ := Option.bind_eq_some_iff.mp h
      cases h
      exact ⟨rfl, validBackend_mem _⟩
    · cases h
  · cases h

theorem RoomsSettled.set {rooms : Dict String RoomConfig} (h : RoomsSettled rooms) {name : String} {room : RoomConfig}
    (hname : room.name = name) (hbackend : room.backend = "" ∨ room.backend ∈ knownBackends) :
    RoomsSettled (rooms.set name room) := by
  have hcases {name' : String} {room' : RoomConfig} (hget : (rooms.set name room).get? name' = some room') :
      name' = name ∧ room' = room ∨ rooms.get? name' = some room' := by
    rw [Dict.get?_set, Function.update_apply] at hget
    split at hget
    · exact .inl ⟨‹_›, (Option.some.inj hget).symm⟩
    · exact .inr hget
  constructor
  · intro name' room' hget
    rcases hcases hget with ⟨rfl, rfl⟩ | hget
    · exact hname
    · exact h.name name' room' hget
  · intro name' room' hget
    rcases hcases hget with ⟨rfl, rfl⟩ | hget
    · exact hbackend
    · exact h.backend name' room' hget

theorem parseEntries_settled {entries : Table} {rooms rooms' : Dict String RoomConfig} (hrooms : RoomsSettled rooms)
    (h : parseEntries env rooms entries = some rooms') : RoomsSettled rooms' := by
  induction entries generalizing rooms with
  | nil =>
    cases h
    exact hrooms
  | cons entry rest ih =>
    rw [parseEntries] at h
    split at h
    · cases h
    · exact ih hrooms h
    · rename_i room hroom
      obtain ⟨hname, hbackend⟩ := parseRoom_settled hroom
      exact ih (hrooms.set hname hbackend) h

theorem parseRooms_settled {raw : Table} {rooms : Dict String RoomConfig} (h : parseRooms env raw = some rooms) :
    RoomsSettled rooms := by
  unfold parseRooms at h
  split at h
  · exact parseEntries_settled settled_empty h
  · cases h
    exact settled_empty

theorem settled_builtinRooms : RoomsSettled builtinRooms := by
  have hall : ∀ item ∈ builtinRooms.items, item.2.name = item.1 ∧ item.2.backend = "" := by decide
  constructor
  · intro name room h
    exact (hall _ (Dict.mem_items_iff.mpr h)).1
  · intro name room h
    exact .inl (hall _ (Dict.mem_items_iff.mpr h)).2

/-- Where there are rooms, the default is one of them. -/
theorem settleDefault_mem {rooms : Dict String RoomConfig} (hne : rooms.items ≠ []) (name : String) :
    ∃ room, rooms.get? (settleDefault rooms name) = some room := by
  unfold settleDefault
  split
  · rename_i first room rest _ hitems
    exact ⟨room, Dict.mem_items_iff.mp (by rw [hitems]; exact List.mem_cons_self)⟩
  · rename_i hnot
    cases hget : rooms.get? name with
    | some room => exact ⟨room, rfl⟩
    | none =>
      obtain ⟨item, rest, hitems⟩ := List.exists_cons_of_ne_nil hne
      exact absurd hitems (hnot item.1 item.2 rest hget)

/-! ## The other keys -/

theorem topBackend_mem (raw : Table) : topBackend raw ∈ knownBackends := by
  rw [topBackend]
  split
  · decide
  · rename_i hne
    exact (validBackend_mem _).resolve_left hne

theorem confinement_mem (mode : String) : confinement mode ∈ confinementModes := by
  unfold confinement
  split
  · assumption
  · decide

theorem parseFirecracker_confinement {raw : Table} {fc : FirecrackerConfig}
    (h : parseFirecracker env raw = some fc) : fc.confinement ∈ confinementModes := by
  unfold parseFirecracker at h
  split at h
  · obtain ⟨kernel, -, h⟩ := Option.bind_eq_some_iff.mp h
    obtain ⟨rootfsDir, -, h⟩ := Option.bind_eq_some_iff.mp h
    obtain ⟨runtimeDir, -, h⟩ := Option.bind_eq_some_iff.mp h
    cases h
    exact confinement_mem _
  · cases h
    show defaultConfinement ∈ confinementModes
    decide

/-! ## What is kept -/

theorem strKey_of_lookup {table : Table} {key : String} {value : Value} (h : table.lookup key = some value)
    (default : String) : strKey table key default = value.toStr := by
  rw [strKey, h]

theorem toPath_of_lookup {table : Table} {key : String} {value : Value} {default path : PosixPath}
    (h : table.lookup key = some value) (hpath : pathKey env table key default = some path) :
    value.toPath env = some path := by
  rw [pathKey, h] at hpath
  exact hpath

theorem toPath_of_kernel {table : Table} {value : Value} {kernel : Option PosixPath}
    (h : table.lookup "kernel" = some value) (hkernel : kernelKey env table = some kernel) :
    value.toPath env = kernel := by
  rw [kernelKey, h] at hkernel
  obtain ⟨path, hpath, rfl⟩ := Option.map_eq_some_iff.mp hkernel
  exact hpath

/-- The texts of the top level. -/
def strFields : List (String × (Config → String)) :=
  [("listen", Config.listen), ("idle_timeout", Config.idleTimeout), ("shutdown_grace", Config.shutdownGrace),
    ("keep_window", Config.keepWindow)]

/-- The paths of the top level. -/
def pathFields : List (String × (Config → PosixPath)) :=
  [("authorized_keys", Config.authorizedKeys), ("host_key", Config.hostKey)]

/-- The texts of the `[firecracker]` table. -/
def firecrackerStrFields : List (String × (FirecrackerConfig → String)) :=
  [("binary", FirecrackerConfig.binary), ("boot_args", FirecrackerConfig.bootArgs),
    ("boot_timeout", FirecrackerConfig.bootTimeout)]

/-- The paths of the `[firecracker]` table. -/
def firecrackerPathFields : List (String × (FirecrackerConfig → Option PosixPath)) :=
  [("kernel", FirecrackerConfig.kernel), ("rootfs_dir", fun fc ↦ some fc.rootfsDir),
    ("runtime_dir", fun fc ↦ some fc.runtimeDir)]

/-- What a `[firecracker]` table says stays as it is, but for a mode that does not exist. -/
structure FirecrackerConfig.Keeps (env : Env) (table : Table) (fc : FirecrackerConfig) : Prop where
  strs : ∀ entry ∈ firecrackerStrFields, ∀ value, table.lookup entry.1 = some value → entry.2 fc = value.toStr
  paths : ∀ entry ∈ firecrackerPathFields, ∀ value, table.lookup entry.1 = some value →
    value.toPath env = entry.2 fc
  confinement : ∀ value, table.lookup "confinement" = some value → value.toStr ∈ confinementModes →
    fc.confinement = value.toStr

/-- What a document says stays as it is, but for a backend or a default room that does not exist. -/
structure Config.Keeps (env : Env) (raw : Table) (config : Config) : Prop where
  strs : ∀ entry ∈ strFields, ∀ value, raw.lookup entry.1 = some value → entry.2 config = value.toStr
  paths : ∀ entry ∈ pathFields, ∀ value, raw.lookup entry.1 = some value →
    value.toPath env = some (entry.2 config)
  firecracker : ∀ table text, raw.lookup "firecracker" = some (.table table text) →
    config.firecracker.Keeps env table
  backend : ∀ value, raw.lookup "backend" = some value → value.toStr ∈ knownBackends →
    config.backend = value.toStr
  defaultRoom : ∀ value room, raw.lookup "default_room" = some value →
    config.rooms.get? value.toStr = some room → config.defaultRoom = value.toStr

theorem parseFirecracker_keeps {raw table : Table} {text : String} {fc : FirecrackerConfig}
    (h : parseFirecracker env raw = some fc) (htable : raw.lookup "firecracker" = some (.table table text)) :
    fc.Keeps env table := by
  rw [parseFirecracker, htable] at h
  obtain ⟨kernel, hkernel, h⟩ := Option.bind_eq_some_iff.mp h
  obtain ⟨rootfsDir, hrootfs, h⟩ := Option.bind_eq_some_iff.mp h
  obtain ⟨runtimeDir, hruntime, h⟩ := Option.bind_eq_some_iff.mp h
  cases h
  refine ⟨?_, ?_, fun value hvalue hknown ↦ ?_⟩
  · simp only [firecrackerStrFields, List.forall_mem_cons, List.not_mem_nil, false_implies, implies_true, and_true]
    exact ⟨fun _ hv ↦ strKey_of_lookup hv _, fun _ hv ↦ strKey_of_lookup hv _, fun _ hv ↦ strKey_of_lookup hv _⟩
  · simp only [firecrackerPathFields, List.forall_mem_cons, List.not_mem_nil, false_implies, implies_true, and_true]
    exact ⟨fun _ hv ↦ toPath_of_kernel hv hkernel, fun _ hv ↦ toPath_of_lookup hv hrootfs,
      fun _ hv ↦ toPath_of_lookup hv hruntime⟩
  · show confinement (strKey table "confinement" _) = _
    rw [strKey_of_lookup hvalue, confinement, if_pos hknown]

theorem topBackend_of_known {raw : Table} {value : Value} (h : raw.lookup "backend" = some value)
    (hknown : value.toStr ∈ knownBackends) : topBackend raw = value.toStr := by
  have hne : value.toStr ≠ "" := by
    intro hempty
    rw [hempty] at hknown
    revert hknown
    decide
  have hvalid : validBackend (strKey raw "backend" defaultBackend) = value.toStr := by
    rw [strKey_of_lookup h, validBackend, if_pos]
    rw [Bool.or_eq_true]
    exact .inr (decide_eq_true hknown)
  rw [topBackend, hvalid, if_neg hne]

/-- What `load` has found where it returns. -/
theorem loadTable_cases {raw : Table} {config : Config} (h : loadTable env raw = some config) :
    ∃ parsed, parseRooms env raw = some parsed ∧
      config.rooms = (if parsed.items.isEmpty then builtinRooms else parsed) ∧
      pathKey env raw "authorized_keys" (env.configDir.join "authorized_keys") = some config.authorizedKeys ∧
      pathKey env raw "host_key" (env.configDir.join "host_key") = some config.hostKey ∧
      parseFirecracker env raw = some config.firecracker ∧ config.listen = strKey raw "listen" ":2222" ∧
      config.idleTimeout = strKey raw "idle_timeout" "15m" ∧
      config.shutdownGrace = strKey raw "shutdown_grace" "30s" ∧ config.keepWindow = strKey raw "keep_window" "0" ∧
      config.defaultRoom = settleDefault config.rooms (strKey raw "default_room" defaultRoom) ∧
      config.backend = topBackend raw := by
  obtain ⟨authorizedKeys, hauthorized, h⟩ := Option.bind_eq_some_iff.mp h
  obtain ⟨hostKey, hhost, h⟩ := Option.bind_eq_some_iff.mp h
  obtain ⟨firecracker, hfirecracker, h⟩ := Option.bind_eq_some_iff.mp h
  obtain ⟨parsed, hparsed, h⟩ := Option.bind_eq_some_iff.mp h
  cases h
  exact ⟨parsed, hparsed, rfl, hauthorized, hhost, hfirecracker, rfl, rfl, rfl, rfl, rfl, rfl⟩

theorem loadTable_keeps {raw : Table} {config : Config} (h : loadTable env raw = some config) :
    config.Keeps env raw := by
  obtain ⟨parsed, -, -, hauthorized, hhost, hfirecracker, hlisten, hidle, hgrace, hkeep, hdefault, hbackend⟩ :=
    loadTable_cases h
  refine ⟨?_, ?_, fun table text htable ↦ parseFirecracker_keeps hfirecracker htable, fun value hvalue hknown ↦ ?_,
    fun value room hvalue hroom ↦ ?_⟩
  · simp only [strFields, List.forall_mem_cons, List.not_mem_nil, false_implies, implies_true, and_true]
    exact ⟨fun _ hv ↦ hlisten.trans (strKey_of_lookup hv _), fun _ hv ↦ hidle.trans (strKey_of_lookup hv _),
      fun _ hv ↦ hgrace.trans (strKey_of_lookup hv _), fun _ hv ↦ hkeep.trans (strKey_of_lookup hv _)⟩
  · simp only [pathFields, List.forall_mem_cons, List.not_mem_nil, false_implies, implies_true, and_true]
    exact ⟨fun _ hv ↦ toPath_of_lookup hv hauthorized, fun _ hv ↦ toPath_of_lookup hv hhost⟩
  · rw [hbackend, topBackend_of_known hvalue hknown]
  · rw [hdefault, strKey_of_lookup hvalue, settleDefault, hroom]

/-! ## Every configuration -/

theorem wellFormed_default : Config.WellFormed { Config.default env with rooms := builtinRooms } where
  rooms_ne := by
    show builtinRooms.items ≠ []
    decide
  name := settled_builtinRooms.name
  default_mem := ⟨.of "ubuntu" "ubuntu:24.04", rfl⟩
  backend := by
    show defaultBackend ∈ knownBackends
    decide
  roomBackend := settled_builtinRooms.backend
  confinement := by
    show defaultConfinement ∈ confinementModes
    decide

theorem loadTable_wellFormed {raw : Table} {config : Config} (h : loadTable env raw = some config) :
    config.WellFormed := by
  obtain ⟨parsed, hparsed, hrooms, -, -, hfirecracker, -, -, -, -, hdefault, hbackend⟩ := loadTable_cases h
  have hsettled : RoomsSettled config.rooms := by
    rw [hrooms]
    split
    · exact settled_builtinRooms
    · exact parseRooms_settled hparsed
  have hne : config.rooms.items ≠ [] := by
    rw [hrooms]
    split
    · decide
    · rename_i hitems
      exact fun hnil ↦ hitems (by rw [hnil]; rfl)
  exact {
    rooms_ne := hne
    name := hsettled.name
    default_mem := by
      rw [hdefault]
      exact settleDefault_mem hne _
    backend := by
      rw [hbackend]
      exact topBackend_mem raw
    roomBackend := hsettled.backend
    confinement := parseFirecracker_confinement hfirecracker }

theorem load_wellFormed {document : Option Table} {config : Config} (h : load env document = some config) :
    config.WellFormed := by
  cases document with
  | none =>
    cases h
    exact wellFormed_default
  | some raw => exact loadTable_wellFormed h

/-- How `config.py` spells what `_check_confinement` distinguishes. -/
def Firecracker.Confinement.mode : Firecracker.Confinement → String
  | .off => "off"
  | .bestEffort => "best-effort"
  | .required => "required"

theorem Config.WellFormed.exists_mode {config : Config} (h : config.WellFormed) :
    ∃ mode : Firecracker.Confinement, config.firecracker.confinement = mode.mode := by
  have hmem := h.confinement
  simp only [confinementModes, List.mem_cons, List.not_mem_nil, or_false] at hmem
  rcases hmem with hmem | hmem | hmem
  · exact ⟨.bestEffort, hmem⟩
  · exact ⟨.off, hmem⟩
  · exact ⟨.required, hmem⟩

/-! ## The registry of a loaded configuration -/

namespace Registry

variable {β : Type} {s : Registry β}

theorem get_factories (s : Registry β) (name : String) : (s.get name).1.factories = s.factories := by
  have hgets := get_gets s name
  generalize s.get name = result at hgets
  obtain ⟨t, reply⟩ := result
  cases hgets <;> rfl

theorem get_ne_unknown {name : String} {factory : Config → Option β} (h : s.factories.get? name = some factory)
    (name' : String) (known : List String) : (s.get name).2 ≠ .error (.unknownBackend name' known) := by
  have hgets := get_gets s name
  generalize s.get name = result at hgets
  obtain ⟨t, reply⟩ := result
  cases hgets with
  | unknown _ hfactory =>
    rw [h] at hfactory
    cases hfactory
  | built | raises | builds => exact fun hreply ↦ by cases hreply

theorem getAll_ne_unknown {names : List String} (h : ∀ name ∈ names, ∃ factory, s.factories.get? name = some factory)
    (name' : String) (known : List String) : (s.getAll names).2 ≠ .error (.unknownBackend name' known) := by
  induction names generalizing s with
  | nil => exact fun hreply ↦ by cases hreply
  | cons name names ih =>
    obtain ⟨⟨factory, hfactory⟩, hrest⟩ := List.forall_mem_cons.mp h
    have hsame := get_factories s name
    have hknown := get_ne_unknown hfactory name' known
    rw [getAll]
    split
    · rename_i t backend hget
      rw [hget] at hsame
      exact ih fun name hmem ↦ hsame.symm ▸ hrest name hmem
    · rename_i t exc hget
      rw [hget] at hknown
      exact fun hreply ↦ hknown (congrArg Except.error (Except.error.inj hreply))

end Registry

/-- The two constructors are there for every name a well-formed configuration can use. -/
theorem Config.WellFormed.namesInUse_known {config : Config} (h : config.WellFormed) {name : String}
    (hname : name ∈ Registry.namesInUse config) : name ∈ knownBackends := by
  rcases List.mem_cons.mp hname with rfl | hname
  · exact h.backend
  · obtain ⟨hmem, hne⟩ := List.mem_filter.mp hname
    obtain ⟨item, hitem, rfl⟩ := List.mem_map.mp hmem
    exact (h.roomBackend item.1 item.2 (Dict.mem_items_iff.mp hitem)).resolve_left (of_decide_eq_true hne)

theorem factories_known {β : Type} (docker firecracker : Config → Option β) {name : String}
    (h : name ∈ knownBackends) : ∃ factory, (factories docker firecracker).get? name = some factory := by
  rw [knownBackends, List.mem_cons, List.mem_singleton] at h
  rcases h with rfl | rfl
  · exact ⟨docker, rfl⟩
  · exact ⟨firecracker, rfl⟩

theorem Config.WellFormed.new_ne_unknown {config : Config} (h : config.WellFormed) {β : Type}
    (docker firecracker : Config → Option β) (name : String) (known : List String) :
    (Registry.new (factories docker firecracker) config).2 ≠ .error (.unknownBackend name known) := by
  refine Registry.getAll_ne_unknown (fun name' hname ↦ factories_known docker firecracker ?_) name known
  exact h.namesInUse_known (List.mem_dedup.mp (Registry.mem_sorted.mp hname))

theorem Config.WellFormed.resolve_eq {config : Config} (h : config.WellFormed) (username : String) :
    ∃ room, config.resolve username = some room ∧
      (config.rooms.get? username = some room ∨
        config.rooms.get? username = none ∧ config.rooms.get? config.defaultRoom = some room) := by
  rw [Config.resolve]
  cases huser : config.rooms.get? username with
  | some room => exact ⟨room, rfl, .inl rfl⟩
  | none =>
    obtain ⟨room, hroom⟩ := h.default_mem
    exact ⟨room, by rw [hroom]; rfl, .inr ⟨rfl, hroom⟩⟩

/-- Whatever the document says, a configuration that is loaded is well formed and says what the document does;
every username comes to a room of it, and the registry has a backend for that room. -/
theorem loads_wellFormed (env : Env) (document : Option Table) (config : Config)
    (h : load env document = some config) :
    config.WellFormed ∧ (∀ raw, document = some raw → config.Keeps env raw) ∧
      (∀ username, ∃ room, config.resolve username = some room ∧
        (config.rooms.get? username = some room ∨
          config.rooms.get? username = none ∧ config.rooms.get? config.defaultRoom = some room)) ∧
      ∀ (β : Type) (docker firecracker : Config → Option β),
        (∀ name known,
          (Registry.new (factories docker firecracker) config).2 ≠ .error (.unknownBackend name known)) ∧
        ∀ registry, Registry.new (factories docker firecracker) config = (registry, .ok ()) →
          ∀ username, ∃ backend,
            registry.get (Registry.nameFor config (config.sessionRoom username)) = (registry, .ok backend) := by
  have hwf := load_wellFormed h
  refine ⟨hwf, fun raw hraw ↦ ?_, hwf.resolve_eq, fun β docker firecracker ↦
    ⟨hwf.new_ne_unknown docker firecracker, fun registry hnew username ↦ ?_⟩⟩
  · rw [hraw] at h
    exact loadTable_keeps h
  · obtain ⟨hready, hconfig, -⟩ := Registry.ready_new hnew
    obtain ⟨backend, hbackend⟩ := hready.sessionRoom username
    rw [hconfig] at hbackend
    exact ⟨backend, Registry.get_built hbackend⟩

/-! A document with a typing error in each of the keys that are checked. -/

def someEnv : Env where
  home _ := some ⟨"/", ["home"]⟩
  configDir := ⟨"/", ["home", ".config", "keycard"]⟩
  tempDir := ⟨"/", ["tmp"]⟩
  int text := Firecracker.int .ofAscii text.toList

def misspelt : Table :=
  [("listen", .str ":4444"), ("host_key", .str "~/key"), ("default_room", .str "ubunto"),
    ("backend", .str "podman"), ("keep_window", .other "120" (some 120)),
    ("rooms", .table [("vm", .table [("backend", .str "firecraker")] "…")] "…"),
    ("firecracker", .table [("confinement", .str "requird"), ("kernel", .str "/boot/vmlinux")] "…")]

theorem misspelt_wellFormed :
    ∃ config, load someEnv (some misspelt) = some config ∧ config.defaultRoom = "ubuntu" ∧
      config.hostKey = ⟨"/", ["home", "key"]⟩ ∧ config.WellFormed ∧ config.Keeps someEnv misspelt := by
  obtain ⟨hwf, hkeeps, -⟩ := loads_wellFormed someEnv (some misspelt) _ rfl
  exact ⟨_, rfl, rfl, rfl, hwf, hkeeps misspelt rfl⟩

end Keycard
