import Keycard.Config.Types
import Keycard.Backends.Base
import Keycard.Reasoning.Machine
import Mathlib.Data.List.Sort
import Mathlib.Data.List.Dedup

/-!
# The backend registry

`backends/routing.py`.  A backend, its rooms and what it keeps are objects of unknown types `β`, `ρ` and
`κ`, of which the registry only knows `can_pause`.  A factory is called with the configuration; that it was
called is recorded, whatever comes of it.
-/

open Reasoning

namespace Keycard

/-- `RoutedKept`: what a backend has kept, tagged with the backend. -/
structure RoutedKept (κ : Type) where
  backendName : String
  inner : κ
deriving DecidableEq, Repr

/-- `Backend.can_pause` -/
class PausingBackend (β : Type) where
  canPause : β → Bool

inductive RoutingError where
  /-- unknown backend `name` (known: `known`) -/
  | unknownBackend (name : String) (known : List String)
  /-- the factory of this name has raised -/
  | notBuilt (name : String)
  /-- kept room was not produced by this backend -/
  | notRouted
deriving DecidableEq, Repr

/-- What a factory makes of a configuration; `none` where it raises. -/
abbrev Factories (β : Type) := Dict String (Config → Option β)

/-- `FACTORIES`, whatever the two constructors do -/
def factories {β : Type} (docker firecracker : Config → Option β) : Factories β :=
  (Dict.empty.set "docker" docker).set "firecracker" firecracker

/-- `a <= b` on strings, by code points. -/
def codesLe : List Char → List Char → Bool
  | [], _ => true
  | _ :: _, [] => false
  | a :: as, b :: bs => a.toNat < b.toNat || a.toNat = b.toNat && codesLe as bs

/-- `sorted` of strings -/
def sorted (names : List String) : List String :=
  names.insertionSort fun a b ↦ codesLe a.toList b.toList = true

structure Registry (β : Type) where
  config : Config
  factories : Factories β
  backends : Dict String β
  /-- the names of the factories that were called -/
  runs : List String

namespace Registry

variable {β : Type}

/-- `_get` -/
def get (s : Registry β) (name : String) : Registry β × Except RoutingError β :=
  match s.backends.get? name with
  | some backend => (s, .ok backend)
  | none =>
    match s.factories.get? name with
    | none => (s, .error (.unknownBackend name (sorted (s.factories.items.map Prod.fst))))
    | some factory =>
      match factory s.config with
      | none => ({ s with runs := s.runs ++ [name] }, .error (.notBuilt name))
      | some backend => ({ s with runs := s.runs ++ [name], backends := s.backends.set name backend }, .ok backend)

/-- `_names_in_use` -/
def namesInUse (config : Config) : List String :=
  config.backend :: (config.rooms.items.map fun item ↦ item.2.backend).filter (· ≠ "")

/-- `_get` of one name after another, up to the first that raises. -/
def getAll (s : Registry β) : List String → Registry β × Except RoutingError Unit
  | [] => (s, .ok ())
  | name :: names =>
    match s.get name with
    | (t, .ok _) => t.getAll names
    | (t, .error exc) => (t, .error exc)

def empty (factories : Factories β) (config : Config) : Registry β where
  config := config
  factories := factories
  backends := .empty
  runs := []

/-- `__init__` -/
def new (factories : Factories β) (config : Config) : Registry β × Except RoutingError Unit :=
  (empty factories config).getAll (sorted (namesInUse config).dedup)

/-- `_name_for` -/
def nameFor (config : Config) (room : RoomConfig) : String :=
  if room.backend = "" then config.backend else room.backend

/-- The comprehension of `rooms_without_keep`, up to the first room that raises. -/
def roomsWithoutKeepOf [PausingBackend β] (s : Registry β) :
    List RoomConfig → Registry β × Except RoutingError (List String)
  | [] => (s, .ok [])
  | room :: rooms =>
    match s.get (nameFor s.config room) with
    | (t, .error exc) => (t, .error exc)
    | (t, .ok backend) =>
      match t.roomsWithoutKeepOf rooms with
      | (u, .error exc) => (u, .error exc)
      | (u, .ok names) => (u, .ok (if PausingBackend.canPause backend then names else room.name :: names))

/-- `rooms_without_keep` -/
def roomsWithoutKeep [PausingBackend β] (s : Registry β) : Registry β × Except RoutingError (List String) :=
  match s.roomsWithoutKeepOf (s.config.rooms.items.map Prod.snd) with
  | (t, .ok names) => (t, .ok (sorted names))
  | (t, .error exc) => (t, .error exc)

end Registry

/-! ## A registry at work -/

/-- A call that waits for the backend underneath. -/
inductive Routed (β ρ κ : Type) where
  | opening (name : String) (backend : β)
  | pausing (room : RoutedRoom ρ)
  | resuming (kept : RoutedKept κ) (backend : β)
  | destroying (kept : RoutedKept κ) (backend : β)

/-- How a call underneath comes back; a room or something kept is `none` where it raises. -/
inductive Answer (ρ κ : Type) where
  | room (inner : Option ρ)
  | kept (inner : Option κ)
  | destroyed

structure Routing (β ρ κ : Type) where
  registry : Registry β
  /-- the calls that are under way -/
  calls : List (Routed β ρ κ)
  /-- what `open` and `resume` have returned -/
  rooms : List (RoutedRoom ρ)
  /-- what `pause` has returned, and for which room -/
  paused : List (RoutedRoom ρ × RoutedKept κ)
  /-- what `resume` has returned, and for what -/
  resumed : List (RoutedKept κ × RoutedRoom ρ)
  /-- the rooms each backend has built -/
  built : List (β × ρ)
  /-- what each backend was given to resume or to destroy -/
  received : List (β × κ)

/-- Anything that may be handed back; only what `pause` has returned is a `RoutedKept`. -/
inductive AnyKept (κ : Type) where
  | routed (kept : RoutedKept κ)
  | foreign

inductive RoutingEvent (ρ κ : Type) where
  | opens (username : String)
  | pauses (room : RoutedRoom ρ)
  | resumes (kept : AnyKept κ)
  | destroysKept (kept : AnyKept κ)
  | roomsWithoutKeep
  /-- the call with this number comes back -/
  | returns (i : Nat) (answer : Answer ρ κ)

namespace Routing

variable {β ρ κ : Type}

def start (registry : Registry β) : Routing β ρ κ where
  registry := registry
  calls := []
  rooms := []
  paused := []
  resumed := []
  built := []
  received := []

/-- `open`, up to the call underneath. -/
def opens (s : Routing β ρ κ) (room : RoomConfig) : Routing β ρ κ :=
  let name := Registry.nameFor s.registry.config room
  match s.registry.get name with
  | (registry, .ok backend) => { s with registry := registry, calls := s.calls ++ [.opening name backend] }
  | (registry, .error _) => { s with registry := registry }

/-- What `resume` and `destroy_kept` have in common, up to the call underneath; `_routed` raises for
anything that is not a `RoutedKept`. -/
def handsBack (s : Routing β ρ κ) (call : RoutedKept κ → β → Routed β ρ κ) : AnyKept κ → Routing β ρ κ
  | .foreign => s
  | .routed kept =>
    match s.registry.get kept.backendName with
    | (registry, .ok backend) => { s with
      registry := registry, calls := s.calls ++ [call kept backend],
      received := s.received ++ [(backend, kept.inner)] }
    | (registry, .error _) => { s with registry := registry }

/-- The rest of a call once the one underneath has come back. -/
def returns (s : Routing β ρ κ) : Routed β ρ κ → Answer ρ κ → Option (Routing β ρ κ)
  | .opening name backend, .room (some inner) =>
    some { s with rooms := s.rooms ++ [⟨name, inner⟩], built := s.built ++ [(backend, inner)] }
  | .pausing room, .kept (some inner) =>
    some { s with paused := s.paused ++ [(room, ⟨room.backendName, inner⟩)] }
  | .resuming kept backend, .room (some inner) =>
    some { s with
      rooms := s.rooms ++ [⟨kept.backendName, inner⟩], built := s.built ++ [(backend, inner)],
      resumed := s.resumed ++ [(kept, ⟨kept.backendName, inner⟩)] }
  | .opening _ _, .room none => some s
  | .pausing _, .kept none => some s
  | .resuming _ _, .room none => some s
  | .destroying _ _, .destroyed => some s
  | _, _ => none

/-- Whoever hands something back has it from a `pause`, if it is a `RoutedKept` at all. -/
def has [DecidableEq κ] (s : Routing β ρ κ) : AnyKept κ → Bool
  | .foreign => true
  | .routed kept => kept ∈ s.paused.map Prod.snd

section

variable [PausingBackend β] [DecidableEq ρ] [DecidableEq κ]

def step (s : Routing β ρ κ) : RoutingEvent ρ κ → Option (Routing β ρ κ)
  | .opens username => some (s.opens (s.registry.config.sessionRoom username))
  | .pauses room => if room ∈ s.rooms then some { s with calls := s.calls ++ [.pausing room] } else none
  | .resumes kept => if s.has kept then some (s.handsBack .resuming kept) else none
  | .destroysKept kept => if s.has kept then some (s.handsBack .destroying kept) else none
  | .roomsWithoutKeep => some { s with registry := s.registry.roomsWithoutKeep.1 }
  | .returns i answer =>
    match s.calls[i]? with
    | none => none
    | some call => ({ s with calls := s.calls.eraseIdx i } : Routing β ρ κ).returns call answer

def machine (registry : Registry β) : Machine (Routing β ρ κ) (RoutingEvent ρ κ) where
  init := .start registry
  step := step

end

end Routing

end Keycard
