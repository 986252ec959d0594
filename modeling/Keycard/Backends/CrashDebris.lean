import Keycard.Backends.Attribution

/-!
# What a crash has left

The other side of the sweep: of the instance directories that earlier keycards have made, those with
nobody left are gone when `__init__` returns.  An instance is followed from the moment both its owners
are dead until the sweep has come to its entry.
-/

open Reasoning

namespace Keycard.Firecracker

/-- The entries that a sweep has not begun to judge, while it runs. -/
def Reaping.ahead : Reaping → Option (List String)
  | .starting => none
  | .between rest => some rest
  | .looking name .testing rest => some (name :: rest)
  | .looking name .readingOwner rest => some (name :: rest)
  | .looking _ _ rest => some rest
  | .returned => none
  | .raised => none

namespace History

variable {root : RuntimeDir} {s t : History} {e : HostEvent}

/-- The instance lies at or below one of these entries. -/
def Among (root : RuntimeDir) (names : List String) (made : Creation) : Prop :=
  ∃ name ∈ names, root.path ++ [name] <+: made.dir

instance (root : RuntimeDir) (names : List String) (made : Creation) : Decidable (Among root names made) :=
  inferInstanceAs (Decidable (∃ _ ∈ _, _))

/-- The sweep of `k` has judged the entry of this older instance, or has not listed it. -/
def Passed (root : RuntimeDir) (s : History) (k : Nat) (made : Creation) : Prop :=
  made.keycard < k ∧ ∃ rest ∈ (s.reaping k).ahead, ¬ Among root rest made

instance (root : RuntimeDir) (s : History) (k : Nat) (made : Creation) : Decidable (Passed root s k made) :=
  inferInstanceAs (Decidable (_ ∧ _))

/-- The judgement on instance `n` rests on the process with this pid. -/
def RestsOn (root : RuntimeDir) (s : History) (n : Nat) (made : Creation) (pid : Pid) : Prop :=
  (s.processes.get? pid).map ProcEntry.role = some (.keycard made.keycard) ∨
    (s.processes.get? pid).map ProcEntry.role = some (.vmm n) ∨
    readPid root.unicode s.files (ownerPid made.dir) = some ((pid : Nat) : Int)

instance (root : RuntimeDir) (s : History) (n : Nat) (made : Creation) (pid : Pid) :
    Decidable (RestsOn root s n made pid) :=
  inferInstanceAs (Decidable (_ ∨ _))

/-- No sweep has passed an instance whose judgement rests on this process. -/
def MayExit (root : RuntimeDir) (s : History) (pid : Pid) : Prop :=
  ∀ k ∈ List.range s.keycards.length, ∀ n ∈ List.range s.instances.length, ∀ made ∈ s.instances[n]?,
    Passed root s k made → ¬ RestsOn root s n made pid

instance (root : RuntimeDir) (s : History) (pid : Pid) : Decidable (MayExit root s pid) :=
  inferInstanceAs (Decidable (∀ _ ∈ _, _))

/-- No other sweep has passed an instance and spared it for the file at `p`. -/
def MayRemove (root : RuntimeDir) (s : History) (k : Nat) (p : Path) : Prop :=
  ∀ k' ∈ List.range s.keycards.length, k' ≠ k → ∀ made ∈ s.instances, Passed root s k' made →
    p ≠ ownerPid made.dir

instance (root : RuntimeDir) (s : History) (k : Nat) (p : Path) : Decidable (MayRemove root s k p) :=
  inferInstanceAs (Decidable (∀ _ ∈ _, _))

/-- Neither owner of the instance is there any more. -/
def Deserted (s : History) (n : Nat) (made : Creation) : Prop :=
  s.keycardAlive made.keycard = false ∧ s.vmmAlive n = false

instance (s : History) (n : Nat) (made : Creation) : Decidable (s.Deserted n made) :=
  inferInstanceAs (Decidable (_ ∧ _))

/-- The pids a sweep checks are not mistaken for the living: that of the recorded owner is not the sweeping
keycard's, and neither a zombie's nor a thread's; that of the recorded firecracker of a deserted instance is
not another firecracker's. -/
def NotMistaken (root : RuntimeDir) (s : History) (k : Nat) : Prop :=
  match s.reaping k with
  | .looking _ (.checkingOwner pid) _ => (∀ keycard ∈ s.keycards[k]?, pid ≠ (keycard.pid : Nat)) ∧
      ∀ entry ∈ proc s.processes pid, entry.role.runs = true
  | .looking name (.checkingVmm pid) _ => ∀ n ∈ List.range s.instances.length, ∀ made ∈ s.instances[n]?,
      made.dir = root.path ++ [name] → s.Deserted n made → runs s.processes pid "firecracker" = false
  | _ => True

instance (root : RuntimeDir) (s : History) (k : Nat) : Decidable (NotMistaken root s k) := by
  unfold NotMistaken
  exact match s.reaping k with
    | .looking _ (.checkingOwner _) _ => inferInstanceAs (Decidable ((∀ _ ∈ _, _) ∧ ∀ _ ∈ _, _))
    | .looking _ (.checkingVmm _) _ => inferInstanceAs (Decidable (∀ _ ∈ _, _))
    | .looking _ .testing _ | .looking _ .readingOwner _ | .looking _ .readingVmm _ | .looking _ .removing _
    | .starting | .between _ | .returned | .raised => inferInstanceAs (Decidable True)

/-- `rmtree` has left nothing. -/
def RemovedAll (root : RuntimeDir) (s : History) (k : Nat) : Prop :=
  match s.reaping k with
  | .looking name .removing _ => ∀ item ∈ s.files.items, ¬ root.path ++ [name] <+: item.1
  | _ => True

instance (root : RuntimeDir) (s : History) (k : Nat) : Decidable (RemovedAll root s k) := by
  unfold RemovedAll
  exact match s.reaping k with
    | .looking _ .removing _ => inferInstanceAs (Decidable (∀ _ ∈ _, _))
    | .looking _ .testing _ | .looking _ .readingOwner _ | .looking _ (.checkingOwner _) _
    | .looking _ .readingVmm _ | .looking _ (.checkingVmm _) _
    | .starting | .between _ | .returned | .raised => inferInstanceAs (Decidable True)

/-- The condition under which crash debris goes: instances lie below `runtime_dir`, none below another,
nothing else is mistaken for one of its owners, nobody an instance rests on goes once it has been judged, and
`rmtree` succeeds. -/
def Reapable (root : RuntimeDir) (s : History) : HostEvent → Prop
  | .creates k roomName uuid => s.ApartFrom (creation root k roomName uuid) ∧
      root.path <+: (creation root k roomName uuid).dir ∧ (creation root k roomName uuid).dir ≠ root.path
  | .exits pid => MayExit root s pid
  | .removes k p => MayRemove root s k p
  | .sweeps k => NotMistaken root s k
  | .rmtreeEnds k => RemovedAll root s k
  | _ => True

instance (root : RuntimeDir) (s : History) (e : HostEvent) : Decidable (Reapable root s e) :=
  match e with
  | .creates _ _ _ => inferInstanceAs (Decidable (_ ∧ _))
  | .exits pid => inferInstanceAs (Decidable (MayExit root s pid))
  | .removes k p => inferInstanceAs (Decidable (MayRemove root s k p))
  | .sweeps k => inferInstanceAs (Decidable (NotMistaken root s k))
  | .rmtreeEnds k => inferInstanceAs (Decidable (RemovedAll root s k))
  | .starts _ _ _ | .otherStarts _ _ | .threadStarts _ _ | .threadEnds _ | .waits _ | .returns _
  | .makesParent _ _ | .makes _ | .opensOwner _ | .writesOwner _ | .puts _ _ | .spawns _ _ | .opensVmm _
  | .writesVmm _ | .discards _ _ => inferInstanceAs (Decidable True)

/-! ## The shape of the tree -/

structure Shaped (root : RuntimeDir) (s : History) : Prop where
  apart : s.Apart
  below : ∀ {n : Nat} {made : Creation}, s.instances[n]? = some made →
    root.path <+: made.dir ∧ made.dir ≠ root.path
  idle : ∀ {k : Nat}, s.keycards.length ≤ k → s.reaping k = .starting
  /-- what lies below an entry of `runtime_dir` lies in a directory -/
  closed : ∀ {q : Path} {node : Node File} {name : String}, s.files.get? q = some node →
    root.path ++ [name] <+: q → ∃ node', s.files.get? (root.path ++ [name]) = some node' ∧
      (q ≠ root.path ++ [name] → node' = .dir)
  filed : ∀ {q : Path} {file : File}, s.files.get? q = some (.file file) →
    ∃ (n : Nat) (made : Creation) (name : String), s.instances[n]? = some made ∧ q = made.dir ++ [name]

theorem shaped_initial (root : RuntimeDir) : (initial root).Shaped root where
  apart := apart_initial root
  below hn := by cases hn
  idle _ := rfl
  closed hq hbelow := by
    have hle := (hbelow.trans (initial_get? root hq).1).length_le
    rw [List.length_append] at hle
    exact absurd hle (Nat.not_succ_le_self _)
  filed hq := by cases (initial_get? root hq).2

/-- A directory on the way to an entry is not replaced by a file. -/
theorem Shaped.entry_kept (h : s.Shaped root) (hst : Effect root s e t) {name : String} {node : Node File}
    (hthere : s.files.get? (root.path ++ [name]) = some node) :
    t.files.get? (root.path ++ [name]) = some node ∨ Removes root s (root.path ++ [name]) e := by
  rcases hst.files_kept hthere with hkept | hremoves | ⟨file, hwrites⟩
  · exact .inl hkept
  · exact .inr hremoves
  · generalize hp : root.path ++ [name] = p at hwrites
    cases hwrites with
    | inside hn => exact absurd (List.append_inj' hp rfl).1.symm (h.below hn).2

theorem isDir_eq (hlinkless : s.files.Linkless) {p : Path} (hdots : ".." ∉ p) :
    s.files.isDir p = true ↔ s.files.get? p = some .dir := by
  rw [FileTree.isDir, hlinkless.stat_eq hdots]
  split
  · exact ⟨fun _ ↦ ‹_›, fun _ ↦ rfl⟩
  · exact ⟨fun hno ↦ (by cases hno), fun hdir ↦ absurd hdir ‹_›⟩

/-- A new node is in a directory that was there. -/
theorem Writes.parentDir (h : s.Apart) {p : Path} {node : Node File} (hwrites : Writes s t p node) :
    s.files.get? p ≠ none ∨ s.files.get? p.dropLast = some .dir := by
  cases hwrites with
  | @parent _ made _ _ hp _ hparent =>
    have hdots : ".." ∉ p.dropLast := fun hm ↦ made.parents_no_dots p hp (List.dropLast_subset _ hm)
    exact .inr ((isDir_eq h.linkless hdots).mp hparent)
  | @own _ made _ _ _ _ hparent =>
    have hdots : ".." ∉ made.dir.dropLast := fun hm ↦ made.no_dots (List.dropLast_subset _ hm)
    exact .inr ((isDir_eq h.linkless hdots).mp hparent)
  | @inside _ made name _ _ _ hparent =>
    rcases hparent with hdir | hthere
    · rw [List.dropLast_concat]
      exact .inr ((isDir_eq h.linkless made.no_dots).mp hdir)
    · exact .inl hthere

theorem Shaped.closed_step (h : s.Shaped root) (hst : Effect root s e t) {q : Path} {node : Node File}
    {name : String} (hq : t.files.get? q = some node) (hbelow : root.path ++ [name] <+: q) :
    ∃ node', t.files.get? (root.path ++ [name]) = some node' ∧ (q ≠ root.path ++ [name] → node' = .dir) := by
  -- an entry is removed last of all that lies below it
  have hold : ∀ node', s.files.get? q = some node' → ∃ node', t.files.get? (root.path ++ [name]) = some node' ∧
      (q ≠ root.path ++ [name] → node' = .dir) := by
    intro node' hbefore
    obtain ⟨entry, hentry, hdir⟩ := h.closed hbefore hbelow
    rcases h.entry_kept hst hentry with hkept | hremoves
    · exact ⟨entry, hkept, hdir⟩
    · have hne : q ≠ root.path ++ [name] := (get?_erase_cases (hremoves.files hst ▸ hq)).2
      rw [hdir hne] at hentry
      exact absurd (canRemove_dir hremoves.canRemove hentry hbefore hbelow) hne
  rcases hst.files hq with hbefore | hwrites
  · exact hold node hbefore
  · rcases hwrites.parentDir h.apart with hthere | hparent
    · obtain ⟨node', hbefore⟩ := Option.ne_none_iff_exists'.mp hthere
      exact hold node' hbefore
    · by_cases hself : q = root.path ++ [name]
      · exact ⟨node, hself ▸ hq, fun hne ↦ absurd hself hne⟩
      · have hbelow' : root.path ++ [name] <+: q.dropLast := by
          obtain ⟨more, hmore⟩ := hbelow
          have hne : more ≠ [] := by
            rintro rfl
            exact hself (hmore.symm.trans (List.append_nil _))
          exact ⟨more.dropLast, by rw [← hmore, List.dropLast_append_of_ne_nil hne]⟩
        have hentry : s.files.get? (root.path ++ [name]) = some .dir := by
          obtain ⟨entry, hentry, hdir⟩ := h.closed hparent hbelow'
          by_cases heq : q.dropLast = root.path ++ [name]
          · exact heq ▸ hparent
          · exact hdir heq ▸ hentry
        rcases h.entry_kept hst hentry with hkept | hremoves
        · exact ⟨.dir, hkept, fun _ ↦ rfl⟩
        · exact hold node (get?_erase_cases (hremoves.files hst ▸ hq)).1

theorem Shaped.step (h : s.Shaped root) (hok : Reapable root s e) (hst : Effect root s e t) :
    t.Shaped root where
  apart := h.apart.step hst fun k roomName uuid he ↦ by
    subst he
    exact hok.1
  below hn := by
    rcases hst.instances hn with hold | ⟨-, henters, -⟩
    · exact h.below hold
    · obtain ⟨k, roomName, uuid, he, hmade⟩ := henters.event
      subst he hmade
      exact hok.2
  idle {k} hk := by
    have hbefore := h.idle (hst.keycards.length_le.trans hk)
    rcases hst.reaping k with hsame | hadvances
    · exact hsame.trans hbefore
    · generalize t.reaping k = reaping at hadvances
      cases hadvances with
      | lists halive =>
        obtain ⟨keycard, entry, hkeycard, -⟩ := keycardAlive_iff.mp halive
        exact absurd (List.getElem?_eq_some_iff.mp hkeycard).1 (Nat.not_lt.mpr (hst.keycards.length_le.trans hk))
      | picks hat => cases hbefore.symm.trans hat
      | looks hat => cases hbefore.symm.trans hat
      | ends hat => cases hbefore.symm.trans hat
      | returns hat => cases hbefore.symm.trans hat
      | starts => rfl
  closed hq hbelow := h.closed_step hst hq hbelow
  filed hq := by
    rcases hst.files hq with hold | hwrites
    · obtain ⟨n, made, name, hn, hpath⟩ := h.filed hold
      exact ⟨n, made, name, hst.getElem?_instances hn, hpath⟩
    · cases hwrites with
      | inside hn => exact ⟨_, _, _, hst.getElem?_instances hn, rfl⟩

/-! ## The deserted instances -/

/-- Instance `n`, made by a keycard that started before `k`, is there, and neither of its owners is. -/
structure Left (s : History) (k n : Nat) (made : Creation) : Prop where
  instances : s.instances[n]? = some made
  earlier : made.keycard < k
  settled : s.creating n ≠ .making
  there : s.files.get? made.dir = some .dir
  deserted : s.Deserted n made

/-- Its recorded owner pid belongs to a live process other than keycard `k`. -/
def Exempt (root : RuntimeDir) (s : History) (k : Nat) (made : Creation) : Prop :=
  ∃ (pid : Int) (entry : ProcEntry) (keycard : KeycardProcess),
    readPid root.unicode s.files (ownerPid made.dir) = some pid ∧ proc s.processes pid = some entry ∧
      entry.role.runs = true ∧ s.keycards[k]? = some keycard ∧ pid ≠ (keycard.pid : Nat)

/-- What the sweep has found out that is at the entry of a deserted instance. -/
def Judging (root : RuntimeDir) (s : History) (made : Creation) (name : String) : Look → Prop
  | .checkingOwner pid => made.dir = root.path ++ [name] ∧ readPid root.unicode s.files (ownerPid made.dir) = some pid
  | .checkingVmm _ => made.dir = root.path ++ [name]
  | _ => True

theorem Shaped.lt_of_reaping (h : s.Shaped root) {k : Nat} (hat : s.reaping k ≠ .starting) :
    k < s.keycards.length := by
  by_contra hge
  exact hat (h.idle (Nat.not_lt.mp hge))

theorem Shaped.lt_of_passed (h : s.Shaped root) {k : Nat} {made : Creation} (hpassed : Passed root s k made) :
    k < s.keycards.length := by
  refine h.lt_of_reaping fun hat ↦ ?_
  obtain ⟨-, rest, hrest, -⟩ := hpassed
  rw [hat] at hrest
  cases hrest

/-- Where the sweep of `k` is with a deserted instance. -/
def Covered (root : RuntimeDir) (s : History) (k : Nat) (made : Creation) : Reaping → Prop
  | .between rest => Among root rest made ∨ Exempt root s k made
  | .looking name look rest => Among root rest made ∨ Exempt root s k made ∨
      root.path ++ [name] <+: made.dir ∧ Judging root s made name look
  | _ => True

structure Reaps (root : RuntimeDir) (s : History) : Prop where
  shaped : s.Shaped root
  covered : ∀ {k n : Nat} {made : Creation}, s.Left k n made → Covered root s k made (s.reaping k)

/-- What has not been passed is still to come. -/
theorem covered_of_not_passed {k : Nat} {made : Creation} (hearlier : made.keycard < k)
    (h : ¬ Passed root s k made) (s' : History) : Covered root s' k made (s.reaping k) := by
  have hahead : ∀ rest, (s.reaping k).ahead = some rest → Among root rest made := by
    intro rest hrest
    by_contra hno
    exact h ⟨hearlier, rest, hrest, hno⟩
  cases hat : s.reaping k with
  | starting => trivial
  | between rest => exact .inl (hahead rest (by rw [hat]; rfl))
  | looking name look rest =>
    cases look with
    | testing | readingOwner =>
      obtain ⟨other, hm, hbelow⟩ := hahead (name :: rest) (by rw [hat]; rfl)
      rcases List.mem_cons.mp hm with rfl | hm
      · exact .inr (.inr ⟨hbelow, trivial⟩)
      · exact .inl ⟨other, hm, hbelow⟩
    | _ => exact .inl (hahead rest (by rw [hat]; rfl))
  | returned | raised => trivial

/-- The files and processes that an exempted or half-judged instance depends on are still the same. -/
theorem Covered.mono {k : Nat} {made : Creation} {reaping : Reaping} (h : Covered root s k made reaping)
    (hread : readPid root.unicode t.files (ownerPid made.dir) = readPid root.unicode s.files (ownerPid made.dir))
    (hproc : ∀ pid entry, readPid root.unicode s.files (ownerPid made.dir) = some pid →
      proc s.processes pid = some entry → entry.role.runs = true → proc t.processes pid = some entry)
    (hkeycards : s.keycards <+: t.keycards) : Covered root t k made reaping := by
  have hexempt : Exempt root s k made → Exempt root t k made := by
    rintro ⟨pid, entry, keycard, hpid, hentry, hruns, hkeycard, hne⟩
    refine ⟨pid, entry, keycard, hread.trans hpid, hproc pid entry hpid hentry hruns, hruns, ?_, hne⟩
    obtain ⟨new, hnew⟩ := hkeycards
    rw [← hnew, List.getElem?_append_left (List.getElem?_eq_some_iff.mp hkeycard).1]
    exact hkeycard
  cases reaping with
  | starting => trivial
  | between rest => exact h.imp_right hexempt
  | looking name look rest =>
    refine h.imp_right (Or.imp hexempt fun hjudging ↦ ⟨hjudging.1, ?_⟩)
    cases look with
    | checkingOwner pid => exact ⟨hjudging.2.1, hread.trans hjudging.2.2⟩
    | checkingVmm => exact hjudging.2
    | _ => trivial
  | returned | raised => trivial

/-- An instance is deserted by the exit of one of its owners. -/
theorem Effect.deserted (hst : Effect root s e t) {n : Nat} {made : Creation}
    (hn : s.instances[n]? = some made) (h : t.Deserted n made) :
    s.Deserted n made ∨ ∃ pid, e = .exits pid ∧ RestsOn root s n made pid := by
  by_cases halive : s.keycardAlive made.keycard = true
  · rcases hst.keycardAlive_gone halive with halive' | ⟨keycard, hkc, he⟩
    · cases h.1.symm.trans halive'
    · obtain ⟨keycard', entry, hkc', hentry, hrole⟩ := keycardAlive_iff.mp halive
      cases hkc.symm.trans hkc'
      exact .inr ⟨keycard.pid, he, .inl (by rw [hentry, Option.map_some, hrole])⟩
  · by_cases halive' : s.vmmAlive n = true
    · rcases hst.vmmAlive_gone hn halive' with halive'' | ⟨vmm, hat, he⟩
      · cases h.2.symm.trans halive''
      · obtain ⟨vmm', entry, hat', hentry, hrole⟩ := vmmAlive_iff.mp halive'
        cases hat.symm.trans hat'
        exact .inr ⟨vmm.pid, he, .inr (.inl (by rw [hentry, Option.map_some, hrole]))⟩
    · exact .inl ⟨Bool.eq_false_of_not_eq_true halive, Bool.eq_false_of_not_eq_true halive'⟩

/-- A process exits: what has been judged does not rest on it, and what has not is still to come. -/
theorem Reaps.exits (h : s.Reaps root) {pid : Pid} (hok : MayExit root s pid)
    (hst : Effect root s (.exits pid) t) {k n : Nat} {made : Creation} (hleft : t.Left k n made) :
    Covered root t k made (t.reaping k) := by
  have heffect := hst
  cases hst
  by_cases hpassed : Passed root s k made
  · have hrests := hok k (List.mem_range.mpr (h.shaped.lt_of_passed hpassed)) n
      (List.mem_range.mpr (List.getElem?_eq_some_iff.mp hleft.instances).1) made hleft.instances hpassed
    rcases heffect.deserted hleft.instances hleft.deserted with hdeserted | ⟨pid', he, hrests'⟩
    · have hbefore : s.Left k n made :=
        ⟨hleft.instances, hleft.earlier, hleft.settled, hleft.there, hdeserted⟩
      refine (h.covered hbefore).mono rfl (fun pid' entry hread hentry hruns ↦ ?_) (List.prefix_refl _)
      obtain ⟨m, rfl, hm⟩ := proc_eq_some hentry
      have hne : m ≠ pid := by
        rintro rfl
        exact hrests (.inr (.inr hread))
      rw [proc_natCast, get?_setProcess_of_ne hne]
      exact hm
    · cases he
      exact absurd hrests' hrests
  · exact covered_of_not_passed hleft.earlier hpassed _

/-- Only its own keycard or firecracker writes into an instance directory. -/
theorem Shaped.not_inside (h : s.Shaped root) {n : Nat} {made : Creation} {name : String} {file : File}
    (hn : s.instances[n]? = some made) (hdeserted : s.Deserted n made) :
    ¬ Writes s t (made.dir ++ [name]) (.file file) := by
  intro hwrites
  generalize hp : made.dir ++ [name] = p at hwrites
  cases hwrites with
  | inside hm halive =>
    have hsame : n = _ := h.apart.nested hn hm ((List.append_inj' hp rfl).1 ▸ List.prefix_refl _)
    subst hsame
    cases hn.symm.trans hm
    rcases halive with halive | halive
    · cases hdeserted.1.symm.trans halive
    · cases hdeserted.2.symm.trans halive

/-- Apart from an exit no step deserts an instance. -/
theorem Reaps.left_before (h : s.Reaps root) (hst : Effect root s e t) (hexit : ∀ pid, e ≠ .exits pid)
    {k n : Nat} {made : Creation} (hleft : t.Left k n made) : s.Left k n made := by
  rcases hst.instances hleft.instances with hold | ⟨-, -, hmaking, -⟩
  · have hdeserted : s.Deserted n made := by
      rcases hst.deserted hold hleft.deserted with hdeserted | ⟨pid, he, -⟩
      · exact hdeserted
      · exact absurd he (hexit pid)
    refine ⟨hold, hleft.earlier, ?_, ?_, hdeserted⟩
    · rcases hst.creating_new hold hleft.settled with hsettled | ⟨halive, -⟩
      · exact hsettled
      · cases hdeserted.1.symm.trans halive
    · rcases hst.files hleft.there with hthere | hwrites
      · exact hthere
      · generalize hp : made.dir = p at hwrites
        generalize hnode : (Node.dir : Node File) = node at hwrites
        cases hwrites with
        | parent hm hparents => exact absurd (hp ▸ hparents) (h.shaped.apart.passed hold hm)
        | own hm halive =>
          have hsame : n = _ := h.shaped.apart.nested hold hm (hp ▸ List.prefix_refl _)
          subst hsame
          cases hold.symm.trans hm
          cases hdeserted.1.symm.trans halive
        | inside => cases hnode
  · exact absurd hmaking hleft.settled

theorem no_dots_ownerPid {dir : Path} (h : ".." ∉ dir) : ".." ∉ ownerPid dir := by
  simp [ownerPid, h]

theorem readPid_congr (hs : s.files.Linkless) (ht : t.files.Linkless) {p : Path} (hdots : ".." ∉ p)
    (h : t.files.get? p = s.files.get? p) : readPid root.unicode t.files p = readPid root.unicode s.files p := by
  rw [readPid, readPid, FileTree.read?, FileTree.read?, hs.stat_eq hdots, ht.stat_eq hdots, h]

theorem readPid_file (hs : s.files.Linkless) {p : Path} (hdots : ".." ∉ p) {pid : Int}
    (h : readPid root.unicode s.files p = some pid) : ∃ file, s.files.get? p = some (.file file) := by
  rw [readPid, FileTree.read?, hs.stat_eq hdots] at h
  cases hnode : s.files.get? p with
  | none =>
    rw [hnode] at h
    cases h
  | some node =>
    cases node with
    | file file => exact ⟨file, rfl⟩
    | dir =>
      rw [hnode] at h
      cases h
    | link =>
      rw [hnode] at h
      cases h

/-- What is recorded of the owner of a deserted instance changes only while it is removed. -/
theorem Reaps.owner_read (h : s.Reaps root) (hok : Reapable root s e) (hst : Effect root s e t)
    (hlinkless : t.files.Linkless) {k n : Nat} {made : Creation} (hleft : s.Left k n made) :
    readPid root.unicode t.files (ownerPid made.dir) = readPid root.unicode s.files (ownerPid made.dir) ∨
      (∃ name rest, s.reaping k = .looking name .removing rest ∧ root.path ++ [name] <+: made.dir) ∨
      ¬ Passed root s k made := by
  have hdots := no_dots_ownerPid made.no_dots
  cases hthere : s.files.get? (ownerPid made.dir) with
  | none =>
    refine .inl ?_
    cases hafter : t.files.get? (ownerPid made.dir) with
    | none => exact readPid_congr h.shaped.apart.linkless hlinkless hdots (hafter.trans hthere.symm)
    | some node =>
      have hnone : ∀ pid, readPid root.unicode s.files (ownerPid made.dir) ≠ some pid := by
        intro pid hread
        obtain ⟨file, hfile⟩ := readPid_file h.shaped.apart.linkless hdots hread
        cases hthere.symm.trans hfile
      have hnone' : ∀ pid, readPid root.unicode t.files (ownerPid made.dir) ≠ some pid := by
        intro pid hread
        obtain ⟨file, hfile⟩ := readPid_file hlinkless hdots hread
        rcases hst.files hfile with hbefore | hwrites
        · cases hthere.symm.trans hbefore
        · exact h.shaped.not_inside hleft.instances hleft.deserted hwrites
      rw [Option.eq_none_iff_forall_ne_some.mpr hnone, Option.eq_none_iff_forall_ne_some.mpr hnone']
  | some node =>
    rcases hst.files_kept hthere with hkept | hremoves | ⟨file, hwrites⟩
    · exact .inl (readPid_congr h.shaped.apart.linkless hlinkless hdots (hkept.trans hthere.symm))
    · cases hremoves with
      | @sweep k' name rest hat hbelow =>
        by_cases hsame : k = k'
        · subst hsame
          refine .inr (.inl ⟨name, rest, hat, ?_⟩)
          rcases List.prefix_concat_iff.mp hbelow with heq | hbelow
          · exact absurd (List.append_inj' heq rfl).1.symm (h.shaped.below hleft.instances).2
          · exact hbelow
        · refine .inr (.inr fun hpassed ↦ ?_)
          exact hok k (List.mem_range.mpr (h.shaped.lt_of_passed hpassed)) hsame made
            (List.mem_of_getElem? hleft.instances) hpassed rfl
      | keycard hm halive hbelow =>
        have hsame := h.shaped.apart.eq_of_below hleft.instances hm hbelow
        subst hsame
        cases hleft.instances.symm.trans hm
        cases hleft.deserted.1.symm.trans halive
    · exact absurd hwrites (h.shaped.not_inside hleft.instances hleft.deserted)

/-- The entry at or above an instance directory is a directory. -/
theorem Reaps.entry_dir (h : s.Reaps root) {k n : Nat} {made : Creation} {name : String}
    (hleft : s.Left k n made) (hbelow : root.path ++ [name] <+: made.dir) :
    s.files.isDir (root.path ++ [name]) = true := by
  have hdots : ".." ∉ root.path ++ [name] := fun hm ↦ made.no_dots (hbelow.subset hm)
  obtain ⟨entry, hentry, hdir⟩ := h.shaped.closed hleft.there hbelow
  rw [isDir_eq h.shaped.apart.linkless hdots]
  by_cases hself : made.dir = root.path ++ [name]
  · exact hself ▸ hleft.there
  · exact hdir hself ▸ hentry

/-- Where a pid file can be read in the entry above an instance, the entry is the instance. -/
theorem Reaps.eq_entry (h : s.Reaps root) {k n : Nat} {made : Creation} {name file : String} {pid : Int}
    (hleft : s.Left k n made) (hbelow : root.path ++ [name] <+: made.dir) (hfile : ".." ≠ file)
    (hread : readPid root.unicode s.files (root.path ++ [name] ++ [file]) = some pid) :
    made.dir = root.path ++ [name] := by
  have hdots : ".." ∉ root.path ++ [name] ++ [file] := by
    rw [List.mem_append, List.mem_singleton, not_or]
    exact ⟨fun hm ↦ made.no_dots (hbelow.subset hm), hfile⟩
  obtain ⟨data, hnode⟩ := readPid_file h.shaped.apart.linkless hdots hread
  obtain ⟨m, made', name', hm, hpath⟩ := h.shaped.filed hnode
  have hdir : root.path ++ [name] = made'.dir := (List.append_inj' hpath rfl).1
  have hsame := h.shaped.apart.nested hm hleft.instances (hdir ▸ hbelow)
  subst hsame
  cases hleft.instances.symm.trans hm
  exact hdir.symm

/-- The sweep lists a directory with everything in it. -/
theorem Reaps.lists (h : s.Reaps root) {k n : Nat} {made : Creation} (hleft : s.Left k n made) :
    Among root (s.files.names root.path) made := by
  obtain ⟨⟨more, hmore⟩, hne⟩ := h.shaped.below hleft.instances
  cases more with
  | nil => exact absurd (hmore.symm.trans (List.append_nil _)) hne
  | cons name rest =>
    have hbelow : root.path ++ [name] <+: made.dir := ⟨rest, by rw [← hmore, List.append_assoc]; rfl⟩
    obtain ⟨entry, hentry, -⟩ := h.shaped.closed hleft.there hbelow
    exact ⟨name, FileTree.mem_names.mpr ⟨entry, hentry⟩, hbelow⟩

/-- One look of a sweep at the entry of a deserted instance. -/
theorem Reaps.looks (h : s.Reaps root) {k n : Nat} {made : Creation} {name : String} {look : Look}
    {rest : List String} {reaping : Reaping} (hok : NotMistaken root s k) (hleft : s.Left k n made)
    (hat : s.reaping k = .looking name look rest)
    (hlooks : Looks root.unicode s (root.path ++ [name]) name rest look reaping)
    (hbelow : root.path ++ [name] <+: made.dir) (hjudging : Judging root s made name look) :
    Covered root s k made reaping := by
  rw [NotMistaken, hat] at hok
  cases hlooks with
  | passesBy hno => cases hno.symm.trans (h.entry_dir hleft hbelow)
  | tests | readsNoOwner | missesOwner | readsNoVmm | missesVmm => exact .inr (.inr ⟨hbelow, trivial⟩)
  | readsOwner hpid =>
    have hdir := h.eq_entry hleft hbelow (by decide) hpid
    exact .inr (.inr ⟨hbelow, hdir, hdir ▸ hpid⟩)
  | spares hproc =>
    have hk : k < s.keycards.length := h.shaped.lt_of_reaping (by rw [hat]; nofun)
    have hkeycard : s.keycards[k]? = some s.keycards[k] := List.getElem?_eq_getElem hk
    obtain ⟨entry, hentry⟩ := Option.isSome_iff_exists.mp hproc
    exact .inr ⟨_, entry, _, hjudging.2, hentry, hok.2 entry hentry, hkeycard, hok.1 _ hkeycard⟩
  | raises => trivial
  | readsVmm hpid => exact .inr (.inr ⟨hbelow, h.eq_entry hleft hbelow (by decide) hpid⟩)
  | sparesVmm hruns =>
    have hnot := hok n (List.mem_range.mpr (List.getElem?_eq_some_iff.mp hleft.instances).1) made
      hleft.instances hjudging hleft.deserted
    cases hnot.symm.trans hruns

theorem Looks.keeps {db : Unicode} {path : Path} {name : String} {rest : List String} {look : Look}
    {reaping : Reaping} {k : Nat} {made : Creation} (hlooks : Looks db s path name rest look reaping)
    (h : Among root rest made ∨ Exempt root s k made) : Covered root s k made reaping := by
  cases hlooks with
  | passesBy | spares | sparesVmm => exact h
  | raises => trivial
  | _ => exact h.elim .inl fun hexempt ↦ .inr (.inl hexempt)

/-- The sweep goes on. -/
theorem Reaps.advances (h : s.Reaps root) (hok : Reapable root s e) {k n : Nat} {made : Creation}
    {reaping : Reaping} (hleft : s.Left k n made) (hadvances : Advances root s k e reaping) :
    Covered root s k made reaping := by
  have hcovered := h.covered hleft
  cases hadvances with
  | lists => exact .inl (h.lists hleft)
  | @picks name rest hat =>
    rw [hat] at hcovered
    rcases hcovered with ⟨other, hm, hbelow⟩ | hexempt
    · rcases List.mem_cons.mp hm with rfl | hm
      · exact .inr (.inr ⟨hbelow, trivial⟩)
      · exact .inl ⟨other, hm, hbelow⟩
    · exact .inr (.inl hexempt)
  | looks hat hlooks =>
    rw [hat] at hcovered
    rcases hcovered with hamong | hexempt | ⟨hbelow, hjudging⟩
    · exact hlooks.keeps (.inl hamong)
    · exact hlooks.keeps (.inr hexempt)
    · exact h.looks hok hleft hat hlooks hbelow hjudging
  | @ends name rest hat =>
    rw [hat] at hcovered
    rcases hcovered with hamong | hexempt | ⟨hbelow, -⟩
    · exact .inl hamong
    · exact .inr hexempt
    · have hremoved : RemovedAll root s k := hok
      rw [RemovedAll, hat] at hremoved
      exact absurd hbelow (hremoved (made.dir, .dir) (Dict.mem_items_iff.mpr hleft.there))
  | returns => trivial
  | starts => trivial

theorem Reaps.covered_step (h : s.Reaps root) (hok : Reapable root s e) (hst : Effect root s e t)
    {k n : Nat} {made : Creation} (hleft : t.Left k n made) : Covered root t k made (t.reaping k) := by
  by_cases hexit : ∃ pid, e = .exits pid
  · obtain ⟨pid, rfl⟩ := hexit
    exact h.exits hok hst hleft
  · have hno : ∀ pid, e ≠ .exits pid := fun pid he ↦ hexit ⟨pid, he⟩
    have hbefore := h.left_before hst hno hleft
    have hlinkless : t.files.Linkless := (h.shaped.step hok hst).apart.linkless
    have hproc : ∀ pid entry, readPid root.unicode s.files (ownerPid made.dir) = some pid →
        proc s.processes pid = some entry → entry.role.runs = true → proc t.processes pid = some entry := by
      intro pid entry _ hentry hruns
      obtain ⟨m, rfl, hm⟩ := proc_eq_some hentry
      rcases hst.processes_gone hm with hstays | hends
      · exact (proc_natCast _ m).trans hstays
      · exact absurd (hends.exits hruns) (hno m)
    rcases hst.reaping k with hsame | hadvances
    · rw [hsame]
      rcases h.owner_read hok hst hlinkless hbefore with hread | ⟨name, rest, hat, hbelow⟩ | hpassed
      · exact (h.covered hbefore).mono hread hproc hst.keycards
      · rw [hat]
        exact .inr (.inr ⟨hbelow, trivial⟩)
      · exact covered_of_not_passed hleft.earlier hpassed t
    · have hread : readPid root.unicode t.files (ownerPid made.dir) =
          readPid root.unicode s.files (ownerPid made.dir) := by
        rw [hadvances.files hst]
      exact (h.advances hok hbefore hadvances).mono hread hproc hst.keycards

theorem Reaps.step (h : s.Reaps root) (hok : Reapable root s e) (hst : Effect root s e t) : t.Reaps root where
  shaped := h.shaped.step hok hst
  covered hleft := h.covered_step hok hst hleft

theorem reachedBy_reaps (h : (hostMachine root).ReachedBy (Reapable root) s) : s.Reaps root := by
  refine h.invariant ⟨shaped_initial root, fun hleft ↦ ?_⟩ fun _ _ _ _ hi hok hst ↦ hi.step hok (step_effect hst)
  cases hleft.instances

/-- Every instance directory that an earlier keycard has left, with both owners dead, is exempt. -/
def DebrisGone (root : RuntimeDir) (s : History) (k : Nat) : Prop :=
  ∀ n made, s.Left k n made → Exempt root s k made

/-- In a history whose steps all meet the condition, no crash debris survives the next start. -/
theorem debris_gone_on_return {k : Nat} (h : (hostMachine root).ReachedBy (Reapable root) s)
    (hst : (hostMachine root).step s (.returns k) = some t) : DebrisGone root t k := by
  intro n made hleft
  have heffect : Effect root s (.returns k) t := step_effect hst
  have hreaps := reachedBy_reaps h
  have hbefore := hreaps.left_before heffect (fun pid ↦ nofun) hleft
  have hcovered := hreaps.covered hbefore
  cases heffect with
  | returns hat =>
    rw [hat] at hcovered
    rcases hcovered with ⟨name, hm, -⟩ | hexempt
    · cases hm
    · exact hexempt

/-- A keycard is killed; the next one removes what it has left. -/
def killedAndReaped : List HostEvent :=
  [.starts 10 "keycard" "/bin/firecracker", .sweeps 0, .returns 0, .creates 0 "ubuntu" "0a1b2c3d4e5f",
    .makes 0, .opensOwner 0, .writesOwner 0, .exits 10, .waits 10, .starts 11 "keycard" "/bin/firecracker",
    .sweeps 1, .sweeps 1, .sweeps 1, .sweeps 1, .sweeps 1, .sweeps 1,
    .removes 1 ["run", "ubuntu-0a1b2c3d4e5f", "owner.pid"], .removes 1 ["run", "ubuntu-0a1b2c3d4e5f"],
    .rmtreeEnds 1]

/-- Nothing is exempt here, so nothing is left. -/
theorem killedAndReaped_debris_gone :
    ∃ s t, (hostMachine runDir).run (hostMachine runDir).init killedAndReaped = some s ∧
      (hostMachine runDir).step s (.returns 1) = some t ∧ DebrisGone runDir t 1 ∧
      t.files.get? ["run", "ubuntu-0a1b2c3d4e5f"] = none := by
  have hok : (hostMachine runDir).Follows (Reapable runDir) (hostMachine runDir).init killedAndReaped := by
    decide
  exact ⟨_, _, rfl, rfl, debris_gone_on_return (.run .init hok rfl) rfl, rfl⟩

/-- A container is restarted, and keycard has the same pid as before. -/
def restartedWithSamePid : List HostEvent :=
  [.starts 1 "keycard" "/bin/firecracker", .sweeps 0, .returns 0, .creates 0 "ubuntu" "0a1b2c3d4e5f",
    .makes 0, .opensOwner 0, .writesOwner 0, .exits 1, .waits 1, .starts 1 "keycard" "/bin/firecracker",
    .sweeps 1, .sweeps 1, .sweeps 1, .sweeps 1, .sweeps 1]

theorem debris_outlives_restart :
    ¬ ∀ (root : RuntimeDir) (s t : History) (k : Nat), (hostMachine root).Reachable s →
      (hostMachine root).step s (.returns k) = some t → DebrisGone root t k := by
  intro hall
  obtain ⟨s, hrun⟩ : ∃ s, (hostMachine runDir).run (hostMachine runDir).init restartedWithSamePid = some s :=
    ⟨_, rfl⟩
  have hreach : (hostMachine runDir).Reachable s := .of_run hrun
  cases hrun
  have hleft := hall runDir _ _ 1 hreach rfl 0 _ ⟨rfl, by decide, nofun, rfl, rfl, rfl⟩
  obtain ⟨pid, entry, keycard, hread, -, -, hkeycard, hne⟩ := hleft
  cases hkeycard
  have hpid : pid = 1 := Option.some.inj (hread.symm.trans rfl)
  exact hne hpid

end History

end Keycard.Firecracker
