import Keycard.Config.Types
import Keycard.Backends.Instance

/-!
# Loading the configuration

`load` of `config.py`.  A document is what `tomllib` makes of the file: a table lists its keys in order, and
any value is known by what `str` and `int` make of it.  Where the source raises, the result is `none`.
-/

open Reasoning

namespace Keycard

inductive Value where
  | str (s : String)
  | table (entries : List (String × Value)) (text : String)
  /-- a number, a truth value, a date or an array -/
  | other (text : String) (int : Option Int)

abbrev Table := List (String × Value)

/-- What the loader takes from its surroundings. -/
structure Env where
  /-- the home directory that a leading `~` or `~user` stands for -/
  home : String → Option PosixPath
  /-- `CONFIG_DIR` -/
  configDir : PosixPath
  /-- `tempfile.gettempdir()` -/
  tempDir : PosixPath
  /-- `int` of a text -/
  int : String → Option Int

namespace PosixPath

/-- `Path(s)` -/
def ofString (s : String) : PosixPath where
  root :=
    match s.toList with
    | '/' :: '/' :: '/' :: _ => "/"
    | '/' :: '/' :: _ => "//"
    | '/' :: _ => "/"
    | _ => ""
  tail := Firecracker.parts s

/-- `path / name` -/
def join (path : PosixPath) (name : String) : PosixPath :=
  { path with tail := path.tail ++ [name] }

/-- `expanduser` -/
def expanduser (env : Env) (path : PosixPath) : Option PosixPath :=
  match path.tail with
  | first :: rest =>
    if path.root = "" && first.toList.head? = some '~' then
      (env.home first).map fun home ↦ { home with tail := home.tail ++ rest }
    else some path
  | [] => some path

end PosixPath

/-! ## Keys -/

/-- `str(value)` -/
def Value.toStr : Value → String
  | .str s => s
  | .table _ text => text
  | .other text _ => text

/-- `int(value)` -/
def Value.toInt (env : Env) : Value → Option Int
  | .str s => env.int s
  | .table _ _ => none
  | .other _ int => int

/-- `Path(str(value)).expanduser()` -/
def Value.toPath (env : Env) (value : Value) : Option PosixPath :=
  (PosixPath.ofString value.toStr).expanduser env

def strKey (table : Table) (key default : String) : String :=
  match table.lookup key with
  | some value => value.toStr
  | none => default

def pathKey (env : Env) (table : Table) (key : String) (default : PosixPath) : Option PosixPath :=
  match table.lookup key with
  | some value => value.toPath env
  | none => some default

def intKey (env : Env) (table : Table) (key : String) (default : Int) : Option Int :=
  match table.lookup key with
  | some value => value.toInt env
  | none => some default

/-! ## Rooms -/

/-- `_valid_backend` -/
def validBackend (name : String) : String :=
  if name = "" || name ∈ knownBackends then name else defaultBackend

/-- One entry of the rooms table; the inner `none` is one that is skipped. -/
def parseRoom (env : Env) (name : String) : Value → Option (Option RoomConfig)
  | .table entries _ =>
    match entries.lookup "image" with
    | some (.str image) => do
      let cpus ← intKey env entries "cpus" 0
      let pidsLimit ← intKey env entries "pids_limit" 512
      return some {
        name := name
        image := image
        memory := strKey entries "memory" ""
        cpus := cpus
        pidsLimit := pidsLimit
        network := strKey entries "network" ""
        backend := validBackend (strKey entries "backend" "")
        rootfs := strKey entries "rootfs" "" }
    | _ => some none
  | _ => some none

/-- The loop of `_parse_rooms`. -/
def parseEntries (env : Env) (rooms : Dict String RoomConfig) : Table → Option (Dict String RoomConfig)
  | [] => some rooms
  | (name, value) :: rest =>
    match parseRoom env name value with
    | none => none
    | some none => parseEntries env rooms rest
    | some (some room) => parseEntries env (rooms.set name room) rest

/-- `_parse_rooms` -/
def parseRooms (env : Env) (raw : Table) : Option (Dict String RoomConfig) :=
  match raw.lookup "rooms" with
  | some (.table entries _) => parseEntries env .empty entries
  | _ => some .empty

/-- `BUILTIN_ROOMS` -/
def builtinImages : List (String × String) :=
  [("ubuntu", "ubuntu:24.04"), ("python", "python:3.12-slim"), ("node", "node:22-slim")]

/-- `_builtin_rooms` -/
def builtinRooms : Dict String RoomConfig where
  items := builtinImages.map fun item ↦ (item.1, .of item.1 item.2)
  nodup := by decide

/-! ## The rest -/

/-- `_confinement` -/
def confinement (mode : String) : String :=
  if mode ∈ confinementModes then mode else defaultConfinement

namespace FirecrackerConfig

/-- `FirecrackerConfig()` -/
def default (env : Env) : FirecrackerConfig where
  binary := "firecracker"
  kernel := none
  rootfsDir := ⟨"/", ["var", "lib", "keycard", "rootfs"]⟩
  runtimeDir := env.tempDir.join "keycard"
  bootArgs := defaultBootArgs
  bootTimeout := "30s"
  confinement := defaultConfinement

end FirecrackerConfig

/-- `kernel`, the one path without a default -/
def kernelKey (env : Env) (table : Table) : Option (Option PosixPath) :=
  match table.lookup "kernel" with
  | some value => (value.toPath env).map some
  | none => some none

/-- `_parse_firecracker` -/
def parseFirecracker (env : Env) (raw : Table) : Option FirecrackerConfig :=
  let fc := FirecrackerConfig.default env
  match raw.lookup "firecracker" with
  | some (.table table _) => do
    let kernel ← kernelKey env table
    let rootfsDir ← pathKey env table "rootfs_dir" fc.rootfsDir
    let runtimeDir ← pathKey env table "runtime_dir" fc.runtimeDir
    return {
      binary := strKey table "binary" fc.binary
      kernel := kernel
      rootfsDir := rootfsDir
      runtimeDir := runtimeDir
      bootArgs := strKey table "boot_args" fc.bootArgs
      bootTimeout := strKey table "boot_timeout" fc.bootTimeout
      confinement := confinement (strKey table "confinement" fc.confinement) }
  | _ => some fc

/-- `Config()` -/
def Config.default (env : Env) : Config where
  listen := ":2222"
  authorizedKeys := env.configDir.join "authorized_keys"
  hostKey := env.configDir.join "host_key"
  idleTimeout := "15m"
  shutdownGrace := "30s"
  keepWindow := "0"
  defaultRoom := Keycard.defaultRoom
  backend := defaultBackend
  rooms := .empty
  firecracker := .default env

/-- The configured default room, or the first room there is. -/
def settleDefault (rooms : Dict String RoomConfig) (name : String) : String :=
  match rooms.get? name, rooms.items with
  | none, (first, _) :: _ => first
  | _, _ => name

/-- The backend of the top level; an empty one is as good as none. -/
def topBackend (raw : Table) : String :=
  let name := validBackend (strKey raw "backend" defaultBackend)
  if name = "" then defaultBackend else name

/-- `load`, once there is a document -/
def loadTable (env : Env) (raw : Table) : Option Config := do
  let cfg := Config.default env
  let authorizedKeys ← pathKey env raw "authorized_keys" cfg.authorizedKeys
  let hostKey ← pathKey env raw "host_key" cfg.hostKey
  let firecracker ← parseFirecracker env raw
  let parsed ← parseRooms env raw
  let rooms := if parsed.items.isEmpty then builtinRooms else parsed
  return {
    listen := strKey raw "listen" cfg.listen
    authorizedKeys := authorizedKeys
    hostKey := hostKey
    idleTimeout := strKey raw "idle_timeout" cfg.idleTimeout
    shutdownGrace := strKey raw "shutdown_grace" cfg.shutdownGrace
    keepWindow := strKey raw "keep_window" cfg.keepWindow
    defaultRoom := settleDefault rooms (strKey raw "default_room" cfg.defaultRoom)
    backend := topBackend raw
    rooms := rooms
    firecracker := firecracker }

/-- `load`; there is no document where the file does not exist -/
def load (env : Env) : Option Table → Option Config
  | none => some { Config.default env with rooms := builtinRooms }
  | some raw => loadTable env raw

end Keycard
