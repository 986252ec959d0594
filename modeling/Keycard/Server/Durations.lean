import Keycard.Backends.RoutingHistory
import Keycard.Backends.Sweep
import Keycard.Config.Duration

/-!
# Durations at startup and after it

What `serve` does before its server listens, and the durations that are evaluated after that.  Nothing at startup
looks at the boot timeout, and nothing that does look at a duration minds NaN.
-/

open Reasoning

namespace Keycard

/-! ## Startup -/

/-- The path as the kernel resolves it. -/
def PosixPath.absolute (cwd : Path) (path : PosixPath) : Path :=
  if path.root = "" then cwd ++ path.tail else path.tail

/-- What `_check_confinement` tells apart. -/
def Firecracker.Confinement.ofMode (mode : String) : Firecracker.Confinement :=
  if mode = "off" then .off else if mode = "required" then .required else .bestEffort

/-- The table, as far as `FirecrackerBackend.__init__` reads it. -/
def FirecrackerConfig.absolute (cwd : Path) (fc : FirecrackerConfig) : Firecracker.FirecrackerConfig where
  binary := fc.binary
  kernel := fc.kernel.map (PosixPath.absolute cwd)
  rootfsDir := fc.rootfsDir.absolute cwd
  runtimeDir := fc.runtimeDir.absolute cwd
  confinement := .ofMode fc.confinement

inductive AnyBackend where
  | docker
  | firecracker (backend : Firecracker.Backend)

/-- Where a server is started. -/
structure Site where
  host : Firecracker.Host
  /-- `docker.from_env` returns -/
  fromEnv : Bool
  /-- `ensure_host_key` returns -/
  hostKey : PosixPath → Bool

namespace Site

/-- `_docker` and `_firecracker` -/
def factories (site : Site) : Factories AnyBackend :=
  Keycard.factories (fun _ ↦ if site.fromEnv then some .docker else none) fun config ↦
    match Firecracker.init (config.firecracker.absolute site.host.cwd) site.host with
    | .ok backend => some (.firecracker backend)
    | .error _ => none

/-- `check_authorized_keys` -/
def authorizedKeys (site : Site) (path : PosixPath) : Bool :=
  (site.host.files.stat (path.absolute site.host.cwd)).isSome

/-- `create_server`, up to where it listens -/
def createServer (site : Site) (db : Unicode) (config : Config) : Option Unit :=
  if !site.authorizedKeys config.authorizedKeys then none
  else if !site.hostKey config.hostKey then none
  else do
    -- the arguments of `log.debug`
    let _ ← config.idleTimeoutSeconds db
    let _ ← config.shutdownGraceSeconds db
    let _ ← config.keepWindowSeconds db

/-- `serve`, up to where its server listens -/
def serve (site : Site) (db : Unicode) (config : Config) : Option (Registry AnyBackend) :=
  match Registry.new site.factories config with
  | (_, .error _) => none
  | (registry, .ok _) => do
    -- for `KeptRooms`
    let _ ← config.keepWindowSeconds db
    site.createServer db config
    return registry

end Site

/-! ## Later evaluations -/

/-- The comparisons with zero in the watchdog, the drain and `KeptRooms.enabled`, and the one with the deadline in
`connect_with_retry`, come out one way or the other. -/
structure Decides (x : Extended) : Prop where
  zero : x.le (.fin 0) = !(Extended.fin 0).lt x
  deadline : ∀ start now : ℚ, (x.shift double start).le (.fin now) = !(Extended.fin now).lt (x.shift double start)

/-- The evaluation returns a number that decides. -/
def Evaluates (duration : Option Extended) : Prop :=
  ∃ x, duration = some x ∧ x ≠ .nan ∧ Decides x

/-- There is a username whose room `_attach` is called for. -/
def Config.Attaches (config : Config) : Prop :=
  ∃ username, Registry.nameFor config (config.sessionRoom username) = "firecracker"

/-- No evaluation of a duration fails once the server listens. -/
structure Config.NeverLate (db : Unicode) (config : Config) : Prop where
  idle : Evaluates (config.idleTimeoutSeconds db)
  grace : Evaluates (config.shutdownGraceSeconds db)
  keep : Evaluates (config.keepWindowSeconds db)
  boot : config.Attaches → Evaluates (config.firecracker.bootTimeoutSeconds db)

theorem decides_of_ne_nan {x : Extended} (h : x ≠ .nan) : Decides x where
  zero := Extended.le_eq_not_lt h nofun
  deadline start _ := Extended.le_eq_not_lt (Extended.shift_ne_nan double_ne_nan start h) nofun

/-- `parse_duration` evaluates exactly the durations. -/
theorem evaluates_iff {db : Unicode} {spec : String} : Evaluates (parseDuration db double spec) ↔ IsDuration db spec := by
  rw [← exists_parseDuration_iff]
  constructor
  · rintro ⟨x, hx, hne, -⟩
    exact ⟨x, hx, hne⟩
  · rintro ⟨x, hx, hne⟩
    exact ⟨x, hx, hne, decides_of_ne_nan hne⟩

namespace Site

variable {site : Site} {db : Unicode} {config : Config} {registry : Registry AnyBackend}

/-- Each of the three durations has been parsed before the server listens. -/
theorem parses_of_createServer (h : site.createServer db config = some ()) :
    (parseDuration db double config.idleTimeout).isSome = true ∧
      (parseDuration db double config.shutdownGrace).isSome = true ∧
      (parseDuration db double config.keepWindow).isSome = true := by
  simp only [createServer] at h
  split at h
  · cases h
  split at h
  · cases h
  obtain ⟨idle, hidle, h⟩ := Option.bind_eq_some_iff.mp h
  obtain ⟨grace, hgrace, h⟩ := Option.bind_eq_some_iff.mp h
  obtain ⟨keep, hkeep, -⟩ := Option.bind_eq_some_iff.mp h
  exact ⟨Option.isSome_iff_exists.mpr ⟨idle, hidle⟩, Option.isSome_iff_exists.mpr ⟨grace, hgrace⟩,
    Option.isSome_iff_exists.mpr ⟨keep, hkeep⟩⟩

theorem createServer_of_serve (h : site.serve db config = some registry) :
    site.createServer db config = some () := by
  simp only [serve] at h
  split at h
  · cases h
  obtain ⟨_, -, h⟩ := Option.bind_eq_some_iff.mp h
  obtain ⟨_, hcreate, -⟩ := Option.bind_eq_some_iff.mp h
  exact hcreate

/-- Once the server listens, no duration fails exactly if none of those that were parsed is NaN, and the one that was
not is a duration wherever it is used. -/
theorem neverLate_iff (site : Site) (db : Unicode) (config : Config) (registry : Registry AnyBackend)
    (h : site.serve db config = some registry) :
    config.NeverLate db ↔
      ¬ SpellsNan db config.idleTimeout ∧ ¬ SpellsNan db config.shutdownGrace ∧ ¬ SpellsNan db config.keepWindow ∧
        (config.Attaches → IsDuration db config.firecracker.bootTimeout) := by
  obtain ⟨hidle, hgrace, hkeep⟩ := parses_of_createServer (createServer_of_serve h)
  rw [← isDuration_iff_of_isSome hidle, ← isDuration_iff_of_isSome hgrace, ← isDuration_iff_of_isSome hkeep,
    ← evaluates_iff, ← evaluates_iff, ← evaluates_iff, ← evaluates_iff]
  constructor
  · intro hnever
    exact ⟨hnever.idle, hnever.grace, hnever.keep, hnever.boot⟩
  · rintro ⟨hidle, hgrace, hkeep, hboot⟩
    exact ⟨hidle, hgrace, hkeep, hboot⟩

/-! A room of firecracker beside those of docker, on a host that has what it takes. -/

def readyFiles : Firecracker.Files where
  items := [([], .dir), (["dev"], .dir), (["dev", "kvm"], .file ⟨none, false⟩),
    (["firecracker"], .file ⟨none, true⟩), (["vmlinux"], .file ⟨none, false⟩), (["images"], .dir), (["run"], .dir),
    (["keys"], .file ⟨none, false⟩)]
  nodup := by decide

def readySite : Site where
  host := Firecracker.hostOf readyFiles
  fromEnv := true
  hostKey _ := true

def configWith (idleTimeout bootTimeout : String) : Config where
  listen := ":2222"
  authorizedKeys := ⟨"/", ["keys"]⟩
  hostKey := ⟨"/", ["host_key"]⟩
  idleTimeout := idleTimeout
  shutdownGrace := "30s"
  keepWindow := "0"
  defaultRoom := "ubuntu"
  backend := "docker"
  rooms := (Dict.empty.set "ubuntu" (.of "ubuntu" "ubuntu:24.04")).set "vm"
    { RoomConfig.of "vm" "" with backend := "firecracker" }
  firecracker := {
    binary := "/firecracker", kernel := some ⟨"/", ["vmlinux"]⟩, rootfsDir := ⟨"/", ["images"]⟩
    runtimeDir := ⟨"/", ["run"]⟩, bootArgs := defaultBootArgs, bootTimeout, confinement := defaultConfinement }

theorem defaults_neverLate : (configWith "15m" "30s").NeverLate .ofAscii := by
  obtain ⟨registry, hserve⟩ := Option.isSome_iff_exists.mp
    (show (readySite.serve .ofAscii (configWith "15m" "30s")).isSome = true by decide +kernel)
  refine (neverLate_iff readySite .ofAscii _ registry hserve).mpr
    ⟨by decide +kernel, by decide +kernel, by decide +kernel, fun _ ↦ isDuration_of_isPlain ?_ ?_⟩
  · decide +kernel
  · decide +kernel

/-- The server listens all the same with an idle timeout that is NaN, or with a boot timeout that is not a number. -/
theorem nan_soon_late :
    ((readySite.serve .ofAscii (configWith "nan" "30s")).isSome = true ∧
      (configWith "nan" "30s").idleTimeoutSeconds .ofAscii = some .nan) ∧
    ((readySite.serve .ofAscii (configWith "15m" "soon")).isSome = true ∧ (configWith "15m" "soon").Attaches ∧
      (configWith "15m" "soon").firecracker.bootTimeoutSeconds .ofAscii = none) ∧
    ¬ ∀ (site : Site) (db : Unicode) (config : Config) (registry : Registry AnyBackend),
      site.serve db config = some registry → config.NeverLate db := by
  have hserve : (readySite.serve .ofAscii (configWith "nan" "30s")).isSome = true := by decide +kernel
  have hnan : (configWith "nan" "30s").idleTimeoutSeconds .ofAscii = some .nan := by decide +kernel
  refine ⟨⟨hserve, hnan⟩, ⟨by decide +kernel, ⟨"vm", by decide +kernel⟩, by decide +kernel⟩, fun hnever ↦ ?_⟩
  obtain ⟨registry, hregistry⟩ := Option.isSome_iff_exists.mp hserve
  obtain ⟨x, hx, hne, -⟩ := (hnever readySite .ofAscii _ registry hregistry).idle
  rw [hnan] at hx
  exact hne (Option.some.inj hx).symm

end Site

end Keycard
