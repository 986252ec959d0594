import Keycard.Reasoning.Dict

/-!
# The resolved configuration

The records of `config.py` with their defaults, and the two places that choose a room for a username:
`Config.resolve`, and the fallback of `session_requested`.
-/

open Reasoning

namespace Keycard

/-- `KNOWN_BACKENDS` -/
def knownBackends : List String := ["docker", "firecracker"]

/-- `DEFAULT_BACKEND` -/
def defaultBackend : String := "docker"

/-- `DEFAULT_ROOM` -/
def defaultRoom : String := "ubuntu"

/-- `CONFINEMENT_MODES` -/
def confinementModes : List String := ["best-effort", "off", "required"]

/-- `DEFAULT_CONFINEMENT` -/
def defaultConfinement : String := "best-effort"

/-- `DEFAULT_BOOT_ARGS` -/
def defaultBootArgs : String := "init=/usr/sbin/keycard-init console=ttyS0 reboot=k panic=1 pci=off"

/-- A path as `pathlib` has it; the root is empty for a relative one. -/
structure PosixPath where
  root : String
  tail : List String
deriving DecidableEq, Repr

/-- One entry under `[rooms.*]`. -/
structure RoomConfig where
  name : String
  image : String
  memory : String
  cpus : Int
  pidsLimit : Int
  network : String
  /-- empty for the one of the server -/
  backend : String
  /-- firecracker only; empty to derive it from the name -/
  rootfs : String
deriving DecidableEq, Repr

/-- `RoomConfig(name=name, image=image)` -/
def RoomConfig.of (name image : String) : RoomConfig where
  name := name
  image := image
  memory := ""
  cpus := 0
  pidsLimit := 512
  network := ""
  backend := ""
  rootfs := ""

/-- The `[firecracker]` table. -/
structure FirecrackerConfig where
  binary : String
  kernel : Option PosixPath
  rootfsDir : PosixPath
  runtimeDir : PosixPath
  bootArgs : String
  bootTimeout : String
  confinement : String
deriving DecidableEq, Repr

structure Config where
  listen : String
  authorizedKeys : PosixPath
  hostKey : PosixPath
  idleTimeout : String
  shutdownGrace : String
  keepWindow : String
  defaultRoom : String
  backend : String
  rooms : Dict String RoomConfig
  firecracker : FirecrackerConfig

namespace Config

/-- `resolve` -/
def resolve (config : Config) (username : String) : Option RoomConfig :=
  (config.rooms.get? username).or (config.rooms.get? config.defaultRoom)

/-- The room `session_requested` gives to a session. -/
def sessionRoom (config : Config) (username : String) : RoomConfig :=
  (config.resolve username).getD (.of "fallback" "ubuntu:24.04")

end Config

end Keycard
