/-!
# Rooms as the session sees them

`backends/base.py` and the wrapper of `backends/routing.py`.  The session never looks inside a room;
the one thing it reads off it is `can_pause`.
-/

namespace Keycard

/-- `Room.can_pause`: whether `--keep` may pause this room instead of destroying it. -/
class Room (ρ : Type) where
  canPause : ρ → Bool

/-- `RoutedRoom`: a room tagged with the backend that built it. -/
structure RoutedRoom (ρ : Type) where
  backendName : String
  inner : ρ
deriving DecidableEq, Repr

/-- Pass-through: the wrapper claims no capability the room underneath refuses. -/
instance {ρ : Type} [Room ρ] : Room (RoutedRoom ρ) where
  canPause room := Room.canPause room.inner

/-- A room of one of the two backends there are. -/
inductive BuiltRoom where
  | docker (id : Nat)
  | firecracker (id : Nat)
deriving DecidableEq, Repr

/-- `DockerRoom` inherits `can_pause = True`, `FirecrackerRoom` sets it to `False`. -/
instance : Room BuiltRoom where
  canPause
    | .docker _ => true
    | .firecracker _ => false

end Keycard
