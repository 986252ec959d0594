import Keycard.Backends.Routing

/-!
# Everything goes home

The constructor has built every backend that a room can name, so the registry never changes again, and a tag
means the same backend at any time.  A room is tagged with the backend that built it, what its `pause` leaves
with the room's own tag, and so what comes back for that tag goes to the backend that built the room.
-/

open Reasoning

namespace Keycard

namespace Registry

variable {β : Type} {s t : Registry β}

/-! ## The constructor -/

theorem mem_sorted {names : List String} {name : String} : name ∈ sorted names ↔ name ∈ names :=
  List.mem_insertionSort _

theorem get_built {name : String} {backend : β} (h : s.backends.get? name = some backend) :
    s.get name = (s, .ok backend) := by
  rw [get, h]

/-- A factory is called for a name that has no backend yet, and has one afterwards if it returned. -/
structure Recorded (s : Registry β) : Prop where
  nodup : s.runs.Nodup
  built : ∀ name ∈ s.runs, ∃ backend, s.backends.get? name = some backend

/-- What the registry has does not change. -/
def Extends (s t : Registry β) : Prop :=
  t.config = s.config ∧ t.factories = s.factories ∧
    ∀ name backend, s.backends.get? name = some backend → t.backends.get? name = some backend

theorem Extends.refl (s : Registry β) : s.Extends s :=
  ⟨rfl, rfl, fun _ _ h ↦ h⟩

theorem Extends.trans {u : Registry β} (h : s.Extends t) (h' : t.Extends u) : s.Extends u :=
  ⟨h'.1.trans h.1, h'.2.1.trans h.2.1, fun name backend hname ↦ h'.2.2 name backend (h.2.2 name backend hname)⟩

/-- The cases of `_get`. -/
inductive Gets (s : Registry β) (name : String) : Registry β → Except RoutingError β → Prop
  | built {backend : β} (h : s.backends.get? name = some backend) : Gets s name s (.ok backend)
  | unknown {known : List String} (h : s.backends.get? name = none) (hfactory : s.factories.get? name = none) :
      Gets s name s (.error (.unknownBackend name known))
  | raises {factory : Config → Option β} (h : s.backends.get? name = none)
      (hfactory : s.factories.get? name = some factory) :
      Gets s name { s with runs := s.runs ++ [name] } (.error (.notBuilt name))
  | builds {factory : Config → Option β} {backend : β} (h : s.backends.get? name = none)
      (hfactory : s.factories.get? name = some factory) :
      Gets s name { s with runs := s.runs ++ [name], backends := s.backends.set name backend } (.ok backend)

theorem get_gets (s : Registry β) (name : String) : s.Gets name (s.get name).1 (s.get name).2 := by
  unfold get
  split
  · exact .built ‹_›
  · split
    · exact .unknown ‹_› ‹_›
    · split
      · exact .raises ‹_› ‹_›
      · exact .builds ‹_› ‹_›

theorem Recorded.nodup_append (h : s.Recorded) {name : String} (hnone : s.backends.get? name = none) :
    (s.runs ++ [name]).Nodup := by
  rw [← List.concat_eq_append, List.nodup_concat]
  refine ⟨fun hmem ↦ ?_, h.nodup⟩
  obtain ⟨backend, hbackend⟩ := h.built name hmem
  rw [hnone] at hbackend
  cases hbackend

theorem get_runs_nodup (h : s.Recorded) (name : String) : (s.get name).1.runs.Nodup := by
  have hgets := get_gets s name
  generalize s.get name = result at hgets
  obtain ⟨t, reply⟩ := result
  cases hgets with
  | built | unknown => exact h.nodup
  | raises hnone | builds hnone => exact h.nodup_append hnone

theorem Recorded.of_get (h : s.Recorded) {name : String} {backend : β} (hget : s.get name = (t, .ok backend)) :
    t.Recorded ∧ s.Extends t ∧ t.backends.get? name = some backend := by
  have hgets := get_gets s name
  rw [hget] at hgets
  cases hgets with
  | built hname => exact ⟨h, .refl _, hname⟩
  | builds hnone =>
    have hset (name' : String) := congrFun (s.backends.get?_set name backend) name'
    refine ⟨⟨h.nodup_append hnone, fun name' hmem ↦ ?_⟩, ⟨rfl, rfl, fun name' backend' hname ↦ ?_⟩, ?_⟩
    · rw [hset]
      by_cases hname : name' = name
      · exact ⟨backend, by rw [hname, Function.update_self]⟩
      · rw [Function.update_of_ne hname]
        rcases List.mem_append.mp hmem with hmem | hmem
        · exact h.built name' hmem
        · exact absurd (List.mem_singleton.mp hmem) hname
    · rw [hset, Function.update_of_ne]
      · exact hname
      · rintro rfl
        rw [hnone] at hname
        cases hname
    · rw [hset, Function.update_self]

theorem Recorded.getAll_runs_nodup (h : s.Recorded) (names : List String) : (s.getAll names).1.runs.Nodup := by
  induction names generalizing s with
  | nil => exact h.nodup
  | cons name names ih =>
    rw [getAll]
    split
    · rename_i t backend hget
      exact ih (h.of_get hget).1
    · rename_i t exc hget
      have hnodup := get_runs_nodup h name
      rw [hget] at hnodup
      exact hnodup

theorem Recorded.of_getAll (h : s.Recorded) {names : List String} (hget : s.getAll names = (t, .ok ())) :
    t.Recorded ∧ s.Extends t ∧ ∀ name ∈ names, ∃ backend, t.backends.get? name = some backend := by
  induction names generalizing s with
  | nil =>
    cases hget
    exact ⟨h, .refl _, fun name hmem ↦ absurd hmem List.not_mem_nil⟩
  | cons name names ih =>
    rw [Registry.getAll] at hget
    split at hget
    · rename_i u backend hfirst
      obtain ⟨hrecorded, hextends, hbuilt⟩ := h.of_get hfirst
      obtain ⟨hrecorded', hextends', hall⟩ := ih hrecorded hget
      refine ⟨hrecorded', hextends.trans hextends', List.forall_mem_cons.mpr ⟨⟨backend, ?_⟩, hall⟩⟩
      exact hextends'.2.2 name backend hbuilt
    · cases hget

theorem recorded_empty (factories : Factories β) (config : Config) : (empty factories config).Recorded :=
  ⟨List.nodup_nil, fun _ hmem ↦ absurd hmem List.not_mem_nil⟩

/-- The constructor has returned: every backend that is named anywhere has been built. -/
structure Ready (s : Registry β) : Prop where
  top : ∃ backend, s.backends.get? s.config.backend = some backend
  rooms : ∀ name room, s.config.rooms.get? name = some room → room.backend ≠ "" →
    ∃ backend, s.backends.get? room.backend = some backend

theorem ready_new {factories : Factories β} {config : Config} (h : new factories config = (s, .ok ())) :
    s.Ready ∧ s.config = config ∧ s.runs.Nodup := by
  obtain ⟨hrecorded, hextends, hall⟩ := (recorded_empty factories config).of_getAll h
  have hconfig : s.config = config := hextends.1
  refine ⟨⟨?_, fun name room hroom hne ↦ ?_⟩, hconfig, hrecorded.nodup⟩
  · rw [hconfig]
    exact hall _ (mem_sorted.mpr (List.mem_dedup.mpr List.mem_cons_self))
  · refine hall _ (mem_sorted.mpr (List.mem_dedup.mpr (List.mem_cons_of_mem _ ?_)))
    rw [hconfig, ← Dict.mem_items_iff] at hroom
    exact List.mem_filter.mpr ⟨List.mem_map_of_mem (f := fun item ↦ item.2.backend) hroom, by simpa using hne⟩

/-- The backend of any room of the configuration has been built, and so has that of the fallback. -/
theorem Ready.nameFor (h : s.Ready) {room : RoomConfig}
    (hroom : room.backend = "" ∨ ∃ name, s.config.rooms.get? name = some room) :
    ∃ backend, s.backends.get? (nameFor s.config room) = some backend := by
  rw [Registry.nameFor]
  split
  · exact h.top
  · rename_i hne
    obtain ⟨name, hname⟩ := hroom.resolve_left hne
    exact h.rooms name room hname hne

theorem Ready.sessionRoom (h : s.Ready) (username : String) :
    ∃ backend, s.backends.get? (Registry.nameFor s.config (s.config.sessionRoom username)) = some backend := by
  refine h.nameFor ?_
  rw [Config.sessionRoom, Config.resolve]
  cases huser : s.config.rooms.get? username with
  | some room => exact .inr ⟨username, huser⟩
  | none =>
    cases hdefault : s.config.rooms.get? s.config.defaultRoom with
    | some room => exact .inr ⟨_, hdefault⟩
    | none => exact .inl rfl

theorem Ready.roomsWithoutKeepOf [PausingBackend β] (h : s.Ready) (rooms : List RoomConfig)
    (hrooms : ∀ room ∈ rooms, ∃ name, s.config.rooms.get? name = some room) :
    ∃ names, s.roomsWithoutKeepOf rooms = (s, .ok names) := by
  induction rooms with
  | nil => exact ⟨[], rfl⟩
  | cons room rooms ih =>
    obtain ⟨hroom, hrest⟩ := List.forall_mem_cons.mp hrooms
    obtain ⟨backend, hbackend⟩ := h.nameFor (.inr hroom)
    obtain ⟨names, hnames⟩ := ih hrest
    rw [Registry.roomsWithoutKeepOf, get_built hbackend]
    simp only [hnames]
    exact ⟨_, rfl⟩

/-- `rooms_without_keep` builds nothing, and does not raise. -/
theorem Ready.roomsWithoutKeep [PausingBackend β] (h : s.Ready) :
    ∃ names, s.roomsWithoutKeep = (s, .ok names) := by
  obtain ⟨names, hnames⟩ := h.roomsWithoutKeepOf (s.config.rooms.items.map Prod.snd) fun room hroom ↦ by
    obtain ⟨item, hitem, rfl⟩ := List.mem_map.mp hroom
    exact ⟨item.1, Dict.mem_items_iff.mp hitem⟩
  exact ⟨sorted names, by rw [Registry.roomsWithoutKeep, hnames]⟩

end Registry

/-! ## Where everything comes from -/

namespace Routing

variable {β ρ κ : Type} {s t : Routing β ρ κ}

/-- Some backend has the tag of this room, and has built the room. -/
def HasBuilt (s : Routing β ρ κ) (room : RoutedRoom ρ) : Prop :=
  ∃ backend, s.registry.backends.get? room.backendName = some backend ∧ (backend, room.inner) ∈ s.built

/-- What a call underneath needs to be what its tag says. -/
def Tagged (s : Routing β ρ κ) : Routed β ρ κ → Prop
  | .opening name backend => s.registry.backends.get? name = some backend
  | .pausing room => room ∈ s.rooms
  | .resuming kept backend | .destroying kept backend =>
    kept ∈ s.paused.map Prod.snd ∧ s.registry.backends.get? kept.backendName = some backend

structure Home (s : Routing β ρ κ) : Prop where
  calls : ∀ call ∈ s.calls, s.Tagged call
  rooms : ∀ room ∈ s.rooms, s.HasBuilt room
  paused : ∀ room kept, (room, kept) ∈ s.paused → room ∈ s.rooms ∧ kept.backendName = room.backendName
  resumed : ∀ kept room, (kept, room) ∈ s.resumed → room ∈ s.rooms ∧ room.backendName = kept.backendName
  received : ∀ backend inner, (backend, inner) ∈ s.received →
    ∃ room kept, (room, kept) ∈ s.paused ∧ kept.inner = inner ∧
      s.registry.backends.get? kept.backendName = some backend

theorem home_start (registry : Registry β) : (start registry : Routing β ρ κ).Home where
  calls := fun _ hmem ↦ absurd hmem List.not_mem_nil
  rooms := fun _ hmem ↦ absurd hmem List.not_mem_nil
  paused := fun _ _ hmem ↦ absurd hmem List.not_mem_nil
  resumed := fun _ _ hmem ↦ absurd hmem List.not_mem_nil
  received := fun _ _ hmem ↦ absurd hmem List.not_mem_nil

/-- Nothing is forgotten, and the registry stays. -/
structure Grows (s t : Routing β ρ κ) : Prop where
  registry : t.registry = s.registry
  rooms : s.rooms ⊆ t.rooms
  paused : s.paused ⊆ t.paused
  built : s.built ⊆ t.built

theorem HasBuilt.grows {room : RoutedRoom ρ} (h : s.HasBuilt room) (hgrows : s.Grows t) : t.HasBuilt room := by
  obtain ⟨backend, hname, hbuilt⟩ := h
  exact ⟨backend, by rw [hgrows.registry, hname], hgrows.built hbuilt⟩

theorem Tagged.grows {call : Routed β ρ κ} (h : s.Tagged call) (hgrows : s.Grows t) : t.Tagged call := by
  cases call with
  | opening name backend => rw [Tagged, hgrows.registry]; exact h
  | pausing room => exact hgrows.rooms h
  | resuming kept backend | destroying kept backend =>
    rw [Tagged, hgrows.registry]
    exact ⟨List.map_subset _ hgrows.paused h.1, h.2⟩

theorem Home.calls_grow (h : s.Home) (hgrows : s.Grows t) : ∀ call ∈ s.calls, t.Tagged call :=
  fun call hmem ↦ (h.calls call hmem).grows hgrows

theorem Home.rooms_grow (h : s.Home) (hgrows : s.Grows t) : ∀ room ∈ s.rooms, t.HasBuilt room :=
  fun room hmem ↦ (h.rooms room hmem).grows hgrows

theorem Home.received_grow (h : s.Home) (hgrows : s.Grows t) {backend : β} {inner : κ}
    (hmem : (backend, inner) ∈ s.received) :
    ∃ room kept, (room, kept) ∈ t.paused ∧ kept.inner = inner ∧
      t.registry.backends.get? kept.backendName = some backend := by
  obtain ⟨room, kept, hpaused, hinner, hname⟩ := h.received backend inner hmem
  exact ⟨room, kept, hgrows.paused hpaused, hinner, by rw [hgrows.registry, hname]⟩

/-- The backend of what a `pause` has returned has been built, since the room it came from has it too. -/
theorem Home.backend_of_kept (h : s.Home) {kept : RoutedKept κ} (hkept : kept ∈ s.paused.map Prod.snd) :
    ∃ backend, s.registry.backends.get? kept.backendName = some backend := by
  obtain ⟨⟨room, _⟩, hpaused, rfl⟩ := List.mem_map.mp hkept
  obtain ⟨hroom, htag⟩ := h.paused room _ hpaused
  obtain ⟨backend, hname, -⟩ := h.rooms room hroom
  exact ⟨backend, by rw [htag, hname]⟩

theorem Home.erase_call (h : s.Home) (i : Nat) : ({ s with calls := s.calls.eraseIdx i } : Routing β ρ κ).Home where
  calls := fun call hmem ↦ (h.calls call (List.mem_of_mem_eraseIdx hmem)).grows ⟨rfl, .refl _, .refl _, .refl _⟩
  rooms := h.rooms
  paused := h.paused
  resumed := h.resumed
  received := h.received

/-- One more call, and nothing else. -/
theorem Home.add_call (h : s.Home) {call : Routed β ρ κ} (hcall : s.Tagged call) :
    ({ s with calls := s.calls ++ [call] } : Routing β ρ κ).Home where
  calls := by
    have hgrows : s.Grows { s with calls := s.calls ++ [call] } := ⟨rfl, .refl _, .refl _, .refl _⟩
    intro call' hmem
    rcases List.mem_append.mp hmem with hmem | hmem
    · exact (h.calls call' hmem).grows hgrows
    · rw [List.mem_singleton.mp hmem]
      exact hcall.grows hgrows
  rooms := h.rooms
  paused := h.paused
  resumed := h.resumed
  received := h.received

/-- One more room, from a backend with the tag of the room. -/
theorem Home.add_room (h : s.Home) {name : String} {backend : β} (inner : ρ)
    (hname : s.registry.backends.get? name = some backend) :
    ({ s with rooms := s.rooms ++ [⟨name, inner⟩], built := s.built ++ [(backend, inner)] } :
      Routing β ρ κ).Home := by
  have hgrows : s.Grows { s with
      rooms := s.rooms ++ [⟨name, inner⟩], built := s.built ++ [(backend, inner)] } :=
    ⟨rfl, List.subset_append_left _ _, .refl _, List.subset_append_left _ _⟩
  refine ⟨h.calls_grow hgrows, fun room hmem ↦ ?_, fun room kept hmem ↦ ?_, fun kept room hmem ↦ ?_,
    fun _ _ hmem ↦ h.received_grow hgrows hmem⟩
  · rcases List.mem_append.mp hmem with hmem | hmem
    · exact h.rooms_grow hgrows room hmem
    · rw [List.mem_singleton.mp hmem]
      exact ⟨backend, hname, List.mem_append_right _ (List.mem_singleton.mpr rfl)⟩
  · exact (h.paused room kept hmem).imp_left fun hroom ↦ hgrows.rooms hroom
  · exact (h.resumed kept room hmem).imp_left fun hroom ↦ hgrows.rooms hroom

theorem Home.add_paused (h : s.Home) {room : RoutedRoom ρ} (inner : κ) (hroom : room ∈ s.rooms) :
    ({ s with paused := s.paused ++ [(room, ⟨room.backendName, inner⟩)] } : Routing β ρ κ).Home := by
  have hgrows : s.Grows { s with paused := s.paused ++ [(room, ⟨room.backendName, inner⟩)] } :=
    ⟨rfl, .refl _, List.subset_append_left _ _, .refl _⟩
  refine ⟨h.calls_grow hgrows, h.rooms_grow hgrows, fun room' kept hmem ↦ ?_, h.resumed,
    fun _ _ hmem ↦ h.received_grow hgrows hmem⟩
  rcases List.mem_append.mp hmem with hmem | hmem
  · exact h.paused room' kept hmem
  · cases List.mem_singleton.mp hmem
    exact ⟨hroom, rfl⟩

theorem Home.add_resumed (h : s.Home) {kept : RoutedKept κ} {room : RoutedRoom ρ} (hroom : room ∈ s.rooms)
    (htag : room.backendName = kept.backendName) :
    ({ s with resumed := s.resumed ++ [(kept, room)] } : Routing β ρ κ).Home where
  calls := h.calls_grow ⟨rfl, .refl _, .refl _, .refl _⟩
  rooms := h.rooms
  paused := h.paused
  resumed := by
    intro kept' room' hmem
    rcases List.mem_append.mp hmem with hmem | hmem
    · exact h.resumed kept' room' hmem
    · cases List.mem_singleton.mp hmem
      exact ⟨hroom, htag⟩
  received := h.received

theorem Home.add_received (h : s.Home) {kept : RoutedKept κ} {backend : β} (hkept : kept ∈ s.paused.map Prod.snd)
    (hname : s.registry.backends.get? kept.backendName = some backend) :
    ({ s with received := s.received ++ [(backend, kept.inner)] } : Routing β ρ κ).Home where
  calls := h.calls_grow ⟨rfl, .refl _, .refl _, .refl _⟩
  rooms := h.rooms
  paused := h.paused
  resumed := h.resumed
  received := by
    intro backend' inner hmem
    rcases List.mem_append.mp hmem with hmem | hmem
    · exact h.received backend' inner hmem
    · cases List.mem_singleton.mp hmem
      obtain ⟨⟨room, _⟩, hpaused, rfl⟩ := List.mem_map.mp hkept
      exact ⟨room, _, hpaused, rfl, hname⟩

/-- What the seam promises of a registry: nothing is ever built again, a backend is given back what the
`pause` of a room it built has returned, and a room stays with its backend however often it is resumed. -/
structure SentHome (registry : Registry β) (s : Routing β ρ κ) : Prop where
  registry : s.registry = registry
  received : ∀ backend inner, (backend, inner) ∈ s.received →
    ∃ room kept, (room, kept) ∈ s.paused ∧ kept.inner = inner ∧ (backend, room.inner) ∈ s.built
  resumed : ∀ kept room kept', (kept, room) ∈ s.resumed → (room, kept') ∈ s.paused →
    kept'.backendName = kept.backendName

theorem Home.sentHome {registry : Registry β} (h : s.Home) (hsame : s.registry = registry) :
    s.SentHome registry := by
  refine ⟨hsame, fun backend inner hmem ↦ ?_, fun kept room kept' hresumed hpaused ↦ ?_⟩
  · obtain ⟨room, kept, hpaused, hinner, hname⟩ := h.received backend inner hmem
    obtain ⟨hroom, htag⟩ := h.paused room kept hpaused
    obtain ⟨backend', hname', hbuilt⟩ := h.rooms room hroom
    -- the tag of the room means one backend
    have hsame : backend' = backend := by
      rw [htag, hname'] at hname
      exact Option.some.inj hname
    exact ⟨room, kept, hpaused, hinner, hsame ▸ hbuilt⟩
  · rw [(h.paused room kept' hpaused).2, (h.resumed kept room hresumed).2]

/-! ## One step -/

theorem opens_eq {room : RoomConfig} {backend : β}
    (h : s.registry.backends.get? (Registry.nameFor s.registry.config room) = some backend) :
    s.opens room =
      { s with calls := s.calls ++ [.opening (Registry.nameFor s.registry.config room) backend] } := by
  simp only [opens, Registry.get_built h]

theorem Home.handsBack (h : s.Home) {call : RoutedKept κ → β → Routed β ρ κ} {kept : RoutedKept κ}
    (hkept : kept ∈ s.paused.map Prod.snd)
    (hcall : ∀ backend, s.registry.backends.get? kept.backendName = some backend → s.Tagged (call kept backend)) :
    (s.handsBack call (.routed kept)).registry = s.registry ∧ (s.handsBack call (.routed kept)).Home := by
  obtain ⟨backend, hname⟩ := h.backend_of_kept hkept
  have heq : s.handsBack call (.routed kept) = { s with
      calls := s.calls ++ [call kept backend], received := s.received ++ [(backend, kept.inner)] } := by
    simp only [Routing.handsBack, Registry.get_built hname]
  rw [heq]
  exact ⟨rfl, (h.add_received hkept hname).add_call ((hcall backend hname).grows ⟨rfl, .refl _, .refl _, .refl _⟩)⟩

/-- A call that comes back, one case for each kind of call. -/
theorem Home.returns (h : s.Home) {call : Routed β ρ κ} {answer : Answer ρ κ} (hcall : s.Tagged call)
    (hstep : s.returns call answer = some t) : t.registry = s.registry ∧ t.Home := by
  cases call with
  | opening name backend =>
    rcases answer with (_ | inner) | _ | _ <;> cases hstep
    · exact ⟨rfl, h⟩
    · exact ⟨rfl, h.add_room inner hcall⟩
  | pausing room =>
    rcases answer with _ | (_ | inner) | _ <;> cases hstep
    · exact ⟨rfl, h⟩
    · exact ⟨rfl, h.add_paused inner hcall⟩
  | resuming kept backend =>
    rcases answer with (_ | inner) | _ | _ <;> cases hstep
    · exact ⟨rfl, h⟩
    · have hroom := List.mem_append_right s.rooms (List.mem_singleton.mpr (rfl : (⟨kept.backendName, inner⟩ : RoutedRoom ρ) = _))
      exact ⟨rfl, (h.add_room inner hcall.2).add_resumed hroom rfl⟩
  | destroying kept backend =>
    rcases answer with _ | _ | _ <;> cases hstep
    exact ⟨rfl, h⟩

section

variable [PausingBackend β] [DecidableEq ρ] [DecidableEq κ]

theorem Home.step (h : s.Home) (hready : s.registry.Ready) {e : RoutingEvent ρ κ}
    (hstep : s.step e = some t) : t.registry = s.registry ∧ t.Home := by
  cases e with
  | opens username =>
    obtain ⟨backend, hname⟩ := hready.sessionRoom username
    cases (congrArg some (opens_eq hname).symm).trans hstep
    exact ⟨rfl, h.add_call hname⟩
  | pauses room =>
    simp only [Routing.step] at hstep
    split at hstep
    · cases hstep
      exact ⟨rfl, h.add_call ‹room ∈ s.rooms›⟩
    · cases hstep
  | resumes kept | destroysKept kept =>
    simp only [Routing.step] at hstep
    split at hstep
    · cases hstep
      cases kept with
      | foreign => exact ⟨rfl, h⟩
      | routed kept =>
        have hkept : kept ∈ s.paused.map Prod.snd := of_decide_eq_true ‹_›
        exact h.handsBack hkept fun backend hname ↦ ⟨hkept, hname⟩
    · cases hstep
  | roomsWithoutKeep =>
    obtain ⟨names, hnames⟩ := hready.roomsWithoutKeep
    simp only [Routing.step, hnames] at hstep
    cases hstep
    exact ⟨rfl, h⟩
  | returns i answer =>
    simp only [Routing.step] at hstep
    split at hstep
    · cases hstep
    · rename_i call hcall
      have htagged := (h.calls call (List.mem_of_getElem? hcall)).grows
        (t := { s with calls := s.calls.eraseIdx i }) ⟨rfl, .refl _, .refl _, .refl _⟩
      exact (h.erase_call i).returns htagged hstep

/-! ## Whole runs -/

theorem home_of_reachable {registry : Registry β} (hready : registry.Ready) (h : (machine registry).Reachable s) :
    s.registry = registry ∧ s.Home := by
  refine h.invariant (I := fun s ↦ s.registry = registry ∧ s.Home) ⟨rfl, home_start registry⟩ ?_
  intro s e t _ hs hstep
  obtain ⟨hsame, hhome⟩ := hs.2.step (hs.1 ▸ hready) hstep
  exact ⟨hsame.trans hs.1, hhome⟩

/-- However the constructor ends, it has called no factory twice; and once it has returned, every run of the
calls of all rooms builds nothing more and sends everything home. -/
theorem sends_everything_home (factories : Factories β) (config : Config) :
    (Registry.new factories config).1.runs.Nodup ∧
      ∀ registry, Registry.new factories config = (registry, .ok ()) →
        ∀ es (s : Routing β ρ κ), (machine registry).run (start registry) es = some s → s.SentHome registry := by
  refine ⟨(Registry.recorded_empty factories config).getAll_runs_nodup _, fun registry hnew es s hrun ↦ ?_⟩
  obtain ⟨hsame, hhome⟩ := home_of_reachable (Registry.ready_new hnew).1 (.of_run hrun)
  exact hhome.sentHome hsame

end

/-! The two backends there are, and a room for each of them. -/

inductive BuiltBackend where
  | docker
  | firecracker
deriving DecidableEq, Repr

instance : PausingBackend BuiltBackend where
  canPause
    | .docker => true
    | .firecracker => false

def builtFactories : Factories BuiltBackend :=
  factories (fun _ ↦ some .docker) fun _ ↦ some .firecracker

def twoRooms : Config where
  listen := "localhost:2222"
  authorizedKeys := ⟨"/", ["keys"]⟩
  hostKey := ⟨"/", ["host"]⟩
  idleTimeout := "0.0"
  shutdownGrace := "20.0"
  keepWindow := "0.0"
  defaultRoom := "ubuntu"
  backend := "docker"
  rooms := (Dict.empty.set "ubuntu" (.of "ubuntu" "ubuntu:24.04")).set "vm"
    { RoomConfig.of "vm" "" with backend := "firecracker" }
  firecracker := {
    binary := "firecracker", kernel := none, rootfsDir := ⟨"/", []⟩, runtimeDir := ⟨"/", []⟩
    bootArgs := defaultBootArgs, bootTimeout := "30.0", confinement := defaultConfinement }

/-- Two rooms with the same number, one from each backend, paused, resumed and paused again in between. -/
def takesTurns : List (RoutingEvent Nat Nat) :=
  [.opens "vm", .opens "ubuntu", .returns 1 (.room (some 1)), .returns 0 (.room (some 1)),
    .pauses ⟨"firecracker", 1⟩, .pauses ⟨"docker", 1⟩, .returns 0 (.kept (some 5)), .roomsWithoutKeep,
    .returns 0 (.kept (some 6)), .resumes (.routed ⟨"firecracker", 5⟩), .destroysKept (.routed ⟨"docker", 6⟩),
    .returns 0 (.room (some 2)), .resumes .foreign, .pauses ⟨"firecracker", 2⟩, .returns 0 .destroyed,
    .returns 0 (.kept (some 5)), .destroysKept (.routed ⟨"firecracker", 5⟩)]

theorem takesTurns_home :
    ∃ (registry : Registry BuiltBackend) (s : Routing BuiltBackend Nat Nat),
      Registry.new builtFactories twoRooms = (registry, .ok ()) ∧ registry.runs = ["docker", "firecracker"] ∧
        (machine registry).run (start registry) takesTurns = some s ∧
        s.received = [(.firecracker, 5), (.docker, 6), (.firecracker, 5)] ∧ s.SentHome registry := by
  have hnew : Registry.new builtFactories twoRooms = ((Registry.new builtFactories twoRooms).1, .ok ()) := rfl
  refine ⟨_, _, hnew, rfl, rfl, rfl, ?_⟩
  exact (sends_everything_home builtFactories twoRooms).2 _ hnew takesTurns _ rfl

end Routing

end Keycard
