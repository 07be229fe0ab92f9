import MiniContainer.Paths
import MiniContainer.Reread
import MiniContainer.Session

/-!
# Where the control groups of containers are

The directories of a container are named by paths in which its identifier is
the end of the last name. The kernel does not see where the identifier
begins: where there is a slash in it, what follows is walked as names of
their own, so that `a/` is where `a` is and `a/..` is the hierarchy itself.
Nothing in the program keeps a slash out of an identifier that is given.

Where none is given, no identifier ever has one, also none that is read from
a state file, whatever that says. `resolve_cgroupDir` then says where the
paths lead, cut off or not, and `slashFree_placed` that they lead to one child
of the hierarchy for each container.
-/

open CText Paths StateFile

/-- The directory a hierarchy is mounted at. -/
def mountPlace (root : CStr) : Place := (components root).filter (fun name => name ≠ [])

/-- The last name of the directories of a container, if it has no slash in
it. -/
def groupName (rm : ResourceManager) (containerId : CStr) : Name :=
  rm.cgroupPath ++ '_' :: containerId

/-- **Every container has a place of its own** in each hierarchy, where these
directories exist: its paths lead to children of the hierarchies, and those
of another container lead elsewhere. -/
structure Placed (isDir : Place → Bool) (rm : ResourceManager) (ids : List CStr) : Prop where
  child : ∀ id ∈ ids, ∀ root ∈ cgroupRoots rm.version, ∀ place,
    resolve isDir (cgroupDir root rm id) = some place → ∃ name, place = mountPlace root ++ [name]
  distinct : ∀ i ∈ ids, ∀ j ∈ ids, i ≠ j → ∀ d ∈ cgroupDirs rm i, ∀ d' ∈ cgroupDirs rm j,
    ∀ place, resolve isDir d = some place → resolve isDir d' ≠ some place

/-! ## Where a path leads -/

section

variable {isDir : Place → Bool} {rm : ResourceManager} {root containerId : CStr}
  {version : CgroupVersion}

/-- The paths of the hierarchies lead to them. -/
theorem eq_mountPlace (hroot : root ∈ cgroupRoots version) {place : Place}
    (h : resolve isDir root = some place) : place = mountPlace root := by
  have hmount : ∀ root ∈ cgroupRoots version,
      resolve (fun _ => true) root = some (mountPlace root) := by
    cases version <;> decide
  exact eq_of_walk h (hmount root hroot)

theorem length_cgroupRoots (hroot : root ∈ cgroupRoots version) : root.length ≤ 26 := by
  have hall : ∀ root ∈ cgroupRoots version, root.length ≤ 26 := by
    cases version <;> decide
  exact hall root hroot

/-- The name of a directory, cut off or not, is one name, where there is no
slash in the identifier. -/
theorem plain_take_groupName (hrm : rm.cgroupPath = basePath) (hid : '/' ∉ containerId) {n : ℕ}
    (hn : 3 ≤ n) : Plain ((groupName rm containerId).take n) := by
  have hlen : 3 ≤ ((groupName rm containerId).take n).length := by
    rw [List.length_take, groupName, hrm, List.length_append]
    have : basePath.length = 14 := by decide
    omega
  have hne : ∀ {name : Name}, name.length < 3 → (groupName rm containerId).take n ≠ name := by
    rintro name hshort rfl
    omega
  refine ⟨fun hmem => ?_, hne (by decide), hne (by decide), hne (by decide)⟩
  have hmem := List.mem_of_mem_take hmem
  rw [groupName, hrm, List.mem_append, List.mem_cons] at hmem
  rcases hmem with hmem | hmem | hmem
  · exact absurd hmem (by decide)
  · exact absurd hmem (by decide)
  · exact hid hmem

/-- **Where the path of a directory leads**, if there is no slash in the
identifier: to the child of the hierarchy that has its name, or nowhere. A
path that is cut off leads nowhere, since what is left of the name is still
too long for one. -/
theorem resolve_cgroupDir (hrm : rm.cgroupPath = basePath) (hid : '/' ∉ containerId)
    (hroot : root ∈ cgroupRoots version) :
    resolve isDir (cgroupDir root rm containerId) = (resolve isDir root).bind (fun place =>
      if (groupName rm containerId).length ≤ nameMax ∧
          isDir (place ++ [groupName rm containerId]) = true then
        some (place ++ [groupName rm containerId])
      else none) := by
  have hlen := length_cgroupRoots hroot
  obtain ⟨n, hn, hdir⟩ : ∃ n, nameMax < n ∧
      cgroupDir root rm containerId = root ++ '/' :: (groupName rm containerId).take n := by
    refine ⟨bufSize - 1 - root.length - 1, by unfold nameMax bufSize; omega, ?_⟩
    have hroom : bufSize - 1 - root.length = bufSize - 1 - root.length - 1 + 1 := by
      unfold bufSize
      omega
    rw [cgroupDir, cgroupName, snprintf, List.take_append, List.take_of_length_le (by
      unfold bufSize; omega), hroom, List.take_succ_cons]
    rfl
  rw [hdir, resolve_child _ (plain_take_groupName hrm hid (by unfold nameMax at hn; omega))]
  by_cases hfits : (groupName rm containerId).length ≤ n
  · rw [List.take_of_length_le hfits]
  · refine Option.bind_congr (fun place _ => ?_)
    rw [if_neg (fun h => absurd h.1 ?_), if_neg (fun h => absurd h.1 ?_)]
    · omega
    · rw [List.length_take]
      omega

/-- **Identifiers without slashes are placed.** -/
theorem placed_of_no_slash {ids : List CStr} (hrm : rm.cgroupPath = basePath)
    (hids : ∀ id ∈ ids, '/' ∉ id) : Placed isDir rm ids := by
  have hchild : ∀ id ∈ ids, ∀ root ∈ cgroupRoots rm.version, ∀ place,
      resolve isDir (cgroupDir root rm id) = some place →
        place = mountPlace root ++ [groupName rm id] := by
    intro id hid root hroot place h
    rw [resolve_cgroupDir hrm (hids id hid) hroot] at h
    obtain ⟨mount, hmount, h⟩ := Option.bind_eq_some_iff.mp h
    split at h
    · rw [← Option.some.inj h, eq_mountPlace hroot hmount]
    · cases h
  refine ⟨fun id hid root hroot place h => ⟨_, hchild id hid root hroot place h⟩, ?_⟩
  intro i hi j hj hne d hd d' hd' place h h'
  obtain ⟨root, hroot, rfl⟩ := List.mem_map.mp hd
  obtain ⟨root', hroot', rfl⟩ := List.mem_map.mp hd'
  -- whatever the hierarchies, the last names differ
  have hlast := (hchild i hi root hroot place h).symm.trans (hchild j hj root' hroot' place h')
  have hname := List.append_inj_right' hlast rfl
  have hsame := List.append_cancel_left (List.cons.inj hname).1
  exact hne (List.cons.inj hsame).2

end

/-! ## Over runs -/

/-- A call that is given no identifier with a slash in it. -/
def Call.SlashFree : Call → Prop
  | .create config | .run config => ∀ id, config.id = some id → '/' ∉ id
  | .start _ | .stop _ | .destroy _ => True

/-- A step in which no such identifier is given. -/
def SlashFreeStep (w : World) (a : HostEvent) (w' : World) : Prop :=
  (∀ env call, a = .calls env call → call.SlashFree) ∧ HostEvent.Step w a w'

/-- **Whatever a state file says**, no process starts with a slash in an
identifier. -/
theorem World.Started.no_slash {w : World} (h : w.Started) : ∀ id ∈ w.cm.ids, '/' ∉ id := by
  obtain ⟨env, maxContainers, file, hinit⟩ := h
  intro id hid
  cases file with
  | none =>
    rw [ContainerManager.ids, (containerManagerInit_none hinit).2.1] at hid
    cases hid
  | some text =>
    obtain ⟨fresh, hwf, hempty, -, hcm, -⟩ := containerManagerInit_some hinit
    have hread := (loadState_rereadable env.load.kill env.load.now text hwf hempty).fixed 0
    rw [← hcm, foldl_restore, List.nil_append] at hread
    rw [ContainerManager.ids, ← hread, map_id_reload] at hid
    rcases kept_or_numeral_of_mem_reloadIds hid with hkept | ⟨n, rfl⟩
    · exact hkept.not_mem (by decide) (by decide) (by decide) (by decide)
    · exact not_mem_printDecimal (by decide) (by decide) n

/-- A call that is given no slash brings none. -/
theorem no_slash_step {w w' : World} (hw : w.Sound) (hids : ∀ id ∈ w.cm.ids, '/' ∉ id) {env : Env}
    {call : Call} (hfree : call.SlashFree) (hstep : w.Step (env, call) w') :
    ∀ id ∈ w'.cm.ids, '/' ∉ id := by
  obtain ⟨r, hperform⟩ := hstep
  refine (Call.perform_spec hw.wf hperform).effect.forall_ids hids (fun config hcall => ?_)
  refine createdId_of (P := fun id => '/' ∉ id) ?_ (not_mem_printDecimal (by decide) (by decide) _)
  rcases hcall with rfl | rfl <;> exact hfree

/-- **Distinct containers have distinct directories**, each a child of its
hierarchy, in every run in which no identifier with a slash in it is given,
from any state file on and whichever directories exist. -/
theorem slashFree_placed {w₀ w : World} {acts : List HostEvent} (h₀ : w₀.Started)
    (hrun : Run SlashFreeStep w₀ acts w) (isDir : Place → Bool) :
    Placed isDir w.cm.rm w.cm.ids := by
  have hkeep : w.Sound ∧ ∀ id ∈ w.cm.ids, '/' ∉ id := by
    refine Run.invariant (I := fun w => w.Sound ∧ ∀ id ∈ w.cm.ids, '/' ∉ id) ?_
      ⟨h₀.sound, h₀.no_slash⟩ hrun
    rintro w a w' ⟨hsound, hids⟩ ⟨hfree, hstep⟩
    refine ⟨hsound.step hstep, ?_⟩
    cases a with
    | calls env call => exact no_slash_step hsound hids (hfree env call rfl) hstep
    | restarts env maxContainers => exact (started_of_restart hstep).no_slash
  exact placed_of_no_slash hkeep.1.cgroupPath hkeep.2

/-- A call that creates a container under an identifier. -/
def createUnder (containerId : CStr) : Env × Call :=
  (.willing (-1) 100, .create (.plain (some containerId) ["sh".toList]))

/-- Two containers, with plain names, -/
def World.named : World := ((World.empty 1).after (createUnder ['a'])).after (createUnder ['b'])

/-- and three, with slashes in two of them. -/
def World.slashed : World :=
  (((World.empty 1).after (createUnder ['a'])).after (createUnder ['a', '/'])).after
    (createUnder "a/..".toList)

theorem slashFree_createUnder {containerId : CStr} (h : '/' ∉ containerId) {env : Env}
    {call : Call} (hcall : HostEvent.calls (createUnder containerId).1 (createUnder containerId).2
      = .calls env call) : call.SlashFree := by
  cases hcall
  rintro id hid
  cases hid
  exact h

theorem run_named : Run SlashFreeStep (.empty 1)
    [.calls (createUnder ['a']).1 (createUnder ['a']).2,
      .calls (createUnder ['b']).1 (createUnder ['b']).2] .named :=
  Run.snoc (Run.snoc Run.nil
    ⟨fun _ _ => slashFree_createUnder (by decide), World.step_after rfl⟩)
    ⟨fun _ _ => slashFree_createUnder (by decide), World.step_after rfl⟩

/-- Plain names are placed. -/
theorem slashFree_placed_named :
    World.named.cm.ids = [['a'], ['b']] ∧
      Placed (fun _ => true) World.named.cm.rm World.named.cm.ids :=
  ⟨rfl, slashFree_placed started_empty run_named _⟩

/-- The place of the first of the three, -/
def placeOfA : Place := mountPlace cgroupRoot ++ ["mini_container_a".toList]

/-- and the directories there are when it has been created. -/
def dirsOfA (place : Place) : Bool := place ∈ (List.range 5).map (fun n => placeOfA.take n)

/-- **A slash in an identifier leads to the directory of another container**,
or to the hierarchy itself. -/
theorem slashed_not_placed :
    World.slashed.Reachable ∧
      World.slashed.cm.ids = [['a'], ['a', '/'], "a/..".toList] ∧
      World.slashed.cm.ids.map (fun id =>
          resolve dirsOfA (cgroupDir cgroupRoot World.slashed.cm.rm id))
        = [some placeOfA, some placeOfA, some (mountPlace cgroupRoot)] ∧
      ¬ Placed dirsOfA World.slashed.cm.rm World.slashed.cm.ids := by
  refine ⟨((started_empty.reachable.after rfl).after rfl).after rfl, rfl, by decide, fun h => ?_⟩
  exact h.distinct ['a'] (by decide) ['a', '/'] (by decide) (by decide)
    (cgroupDir cgroupRoot World.slashed.cm.rm ['a']) (by decide)
    (cgroupDir cgroupRoot World.slashed.cm.rm ['a', '/']) (by decide) placeOfA (by decide)
    (by decide)
