import MiniContainer.RegistryMemory
import MiniContainer.Session

/-!
# The operations in memory

`create`, `start`, `stop`, `destroy` and `run` as what they do to memory. The steps in
between that touch no block of the registry – control groups, file systems, the clone –
answer as they do in the world of `Lifecycle`; `Outside` holds these answers.

`performM_spec` is the simulation: where the operation on values returns,
the operation in memory is defined, returns the same code, and turns the
blocks of a registry into the blocks of the registry it should turn into.
-/

open CText GrowArray Heap

namespace Memory

/-- What the steps outside memory answer during one call. -/
structure Outside where
  /-- Whether `resource_manager_create_cgroup` returns 0. -/
  cgroup : CStr → ResourceLimits → Bool
  env : Env

/-- The answers the world of a call gives. -/
def Outside.of (env : Env) (w : World) : Outside where
  cgroup key limits :=
    decide ((resourceManagerCreateCgroup env.kernel w.cm.rm key limits w.cg).2 = 0)
  env := env

@[simp] theorem Outside.of_cgroup (env : Env) (w : World) (key : CStr) (limits : ResourceLimits) :
    (Outside.of env w).cgroup key limits = true ↔
      (resourceManagerCreateCgroup env.kernel w.cm.rm key limits w.cg).2 = 0 :=
  decide_eq_true_iff

/-- The identifier of `create`: `strdup(config->id)`, or a generated one. -/
def containerIdM (env : Env) (config : ContainerConfig) (m : Manager) : Mem (Option ℕ) :=
  match config.id with
  | some id => strdup env .containerId id
  | none => generateContainerIdM env .containerId m

/-- `create` once the configuration has been copied. -/
def addCreatedM (out : Outside) (config : ContainerConfig) (m : Manager) (id info saved : ℕ)
    (containerId : CStr) : Mem (Manager × ℤ) := do
  setInfo info (fun b => { b with savedConfig := some saved })
  let giveUp : Mem (Manager × ℤ) := do
    freeContainerConfig (some saved)
    Heap.free id
    Heap.free info
    pure (m, -1)
  if ¬ out.cgroup containerId config.resLimits then giveUp
  else if config.fsConfig.createMinimalFs ≠ 0 ∧ ¬ out.env.minimalRoot config.fsConfig.rootPath then
    giveUp
  else
    match ← addContainerM (out.env.alloc .containers) m info with
    | some m => pure (m, 0)
    | none => giveUp

/-- **`container_manager_create`.** -/
def createM (out : Outside) (config : ContainerConfig) (m : Manager) : Mem (Manager × ℤ) := do
  match ← containerIdM out.env config m with
  | none => pure (m, -1)
  | some id => do
    let containerId ← readString id
    match ← findContainerM m containerId with
    | some _ => do
      Heap.free id
      pure (m, -1)
    | none =>
      if ¬ out.env.alloc .info then do
        Heap.free id
        pure (m, -1)
      else do
        let info ← malloc (.info ⟨id, 0, .created, out.env.createdAt, 0, 0, none⟩)
        match ← copyContainerConfigM out.env config with
        | none => do
          Heap.free id
          Heap.free info
          pure (m, -1)
        | some saved => addCreatedM out config m id info saved containerId

/-- `namespace_create_container_with_cgroup`, for what it reads and
returns; `failure` is the exception where the stack of the child cannot be
allocated. -/
def cloneM (out : Outside) (command : Option ℕ) (argc : ℤ) : Mem ℤ :=
  if command = none ∨ argc ≤ 0 then pure (-1)
  else if ¬ out.env.alloc .childStack then failure
  else pure out.env.clone

/-- **`container_manager_start`.** -/
def startM (out : Outside) (key : CStr) (m : Manager) : Mem (Manager × ℤ) := do
  match ← getInfoM m key with
  | none => pure (m, -1)
  | some (_, p) => do
    let info ← readInfo p
    if info.state = .running then pure (m, -1)
    else if info.state = .destroyed then pure (m, -1)
    else if info.state ≠ .created ∧ info.state ≠ .stopped then pure (m, -1)
    else
      match info.savedConfig with
      | none => pure (m, -1)
      | some saved => do
        let config ← readConfig saved
        if ¬ out.cgroup key config.resLimits then pure (m, -1)
        else do
          let pid ← cloneM out config.command config.commandArgc
          if pid = -1 then pure (m, -1)
          else do
            setInfo p (fun b => { b with
              pid := pid, state := .running, startedAt := out.env.now, stoppedAt := 0 })
            pure (m, 0)

/-- **`container_manager_stop`.** -/
def stopM (out : Outside) (key : CStr) (m : Manager) : Mem (Manager × ℤ) := do
  match ← getInfoM m key with
  | none => pure (m, -1)
  | some (_, p) => do
    let info ← readInfo p
    if info.state ≠ .running then pure (m, -1)
    else do
      setInfo p (fun b => { b with state := .stopped, stoppedAt := out.env.now })
      pure (m, 0)

/-- **`container_manager_destroy`.** -/
def destroyM (out : Outside) (key : CStr) (m : Manager) : Mem (Manager × ℤ) := do
  match ← getInfoM m key with
  | none => pure (m, -1)
  | some (_, p) => do
    let info ← readInfo p
    if info.state = .running then do
      let id ← readString info.id
      let (m, _) ← stopM out id m
      let m ← removeContainerM m key
      pure (m, 0)
    else do
      let m ← removeContainerM m key
      pure (m, 0)

/-- `run` takes back a creation. -/
def undoCreateM (out : Outside) (containerId : CStr) (m : Manager) : Mem (Manager × ℤ) := do
  let (m, _) ← destroyM out containerId m
  pure (m, -1)

/-- `run` after the container has been created. -/
def launchCreatedM (out : Outside) (containerId : CStr) (m : Manager) : Mem (Manager × ℤ) := do
  match ← findContainerM m containerId with
  | none => undoCreateM out containerId m
  | some (_, p) => do
    let info ← readInfo p
    match info.savedConfig with
    | none => undoCreateM out containerId m
    | some saved => do
      let config ← readConfig saved
      if config.command = none then undoCreateM out containerId m
      else do
        let pid ← cloneM out config.command config.commandArgc
        if pid = -1 then undoCreateM out containerId m
        else do
          setInfo p (fun b => { b with pid := pid, state := .running, startedAt := out.env.now })
          pure (m, 0)

/-- `run` with an identifier in the configuration. -/
def runWithM (out : Outside) (config : ContainerConfig) (containerId : CStr) (m : Manager) :
    Mem (Manager × ℤ) := do
  match ← createM out { config with id := some containerId } m with
  | (m, 0) => launchCreatedM out containerId m
  | (m, _) => pure (m, -1)

/-- **`container_manager_run`**, and the `free(config.id)` of its caller,
which owns the identifier `run` has generated. -/
def runM (out : Outside) (config : ContainerConfig) (m : Manager) : Mem (Manager × ℤ) :=
  match config.id with
  | some containerId => runWithM out config containerId m
  | none => do
    match ← generateContainerIdM out.env .generatedId m with
    | none => pure (m, -1)
    | some id => do
      let containerId ← readString id
      let r ← runWithM out config containerId m
      Heap.free id
      pure r

/-- A call in memory. -/
def performM (out : Outside) : Call → Manager → Mem (Manager × ℤ)
  | .create config => createM out config
  | .run config => runM out config
  | .start key => startM out key
  | .stop key => stopM out key
  | .destroy key => destroyM out key

/-! ## Rules -/

/-- A registry one of whose containers has been assigned to. -/
def RegistryAt.set (R : RegistryAt) (i : ℕ) (t : InfoAt) : RegistryAt :=
  { R with infos := R.infos.set i t }

section

variable {β : Type} {P : Option (β × Cells Block) → Prop} {R : RegistryAt} {i : ℕ}

theorem RegistryAt.slots_set (hi : i < R.infos.length) {t : InfoAt}
    (hself : t.self = R.infos[i].self) : (R.set i t).slots = R.slots := by
  rw [slots, slots, set, List.map_set, hself]
  refine congrArg (· ++ R.unused) ?_
  refine List.ext_getElem (by simp) (fun j h₁ h₂ => ?_)
  rw [List.getElem_set]
  split
  · next hij =>
    subst hij
    rw [List.getElem_map]
  · rfl

end

/-- An assignment to a container leaves a registry that means the
assignment. -/
theorem RegistryAt.Means.set {R : RegistryAt} {cm : ContainerManager} (hw : cm.WF)
    (hR : R.Means cm) {i : ℕ} (hi : i < R.infos.length) {t : InfoAt}
    (hself : t.self = R.infos[i].self) {g : ContainerInfo → ContainerInfo}
    (hvalue : t.value = g R.infos[i].value) : (R.set i t).Means (cm.updateAt i g) where
  entries := by
    have hlt : i < cm.entries.length := by
      rwa [← hR.entries, RegistryAt.entries, List.length_map]
    rw [(ContainerManager.updateAt_spec hw hlt g).2.1, ← hR.entries, RegistryAt.entries,
      RegistryAt.set, List.map_set, hvalue, RegistryAt.entries, List.modify_eq_set_getElem?,
      List.getElem?_map, List.getElem?_eq_getElem hi]
    rfl
  slots := by
    rw [RegistryAt.slots_set hi hself]
    exact hR.slots

theorem RegistryAt.Gapless.set {R : RegistryAt} (hgap : R.Gapless) {i : ℕ}
    (hi : i < R.infos.length) {t : InfoAt} (hconfig : t.savedConfig = R.infos[i].savedConfig) :
    (R.set i t).Gapless := by
  intro t' ht'
  rcases List.mem_or_eq_of_mem_set ht' with hmem | rfl
  · exact hgap t' hmem
  · rw [InfoAt.leaked, hconfig]
    exact hgap _ (List.getElem_mem hi)

/-! ## The operations on a registry that is there -/

section

variable {env : Env} {w w' : World} {r : Result} {R : RegistryAt}

theorem addContainer_maxContainers {cm cm' : ContainerManager} {info : ContainerInfo}
    {realloc : Bool} (h : cm.addContainer info realloc = some cm') :
    cm'.maxContainers = if cm.containerCount ≥ cm.maxContainers then cm.maxContainers * 2
      else cm.maxContainers := by
  unfold ContainerManager.addContainer at h
  split at h
  · cases h
  · cases h
    dsimp only
    split <;> rfl

/-- A registry in memory is full where the registry it means is. -/
theorem full_iff {cm : ContainerManager} (hw : cm.WF) (hR : R.Means cm) :
    R.Full ↔ cm.containerCount ≥ cm.maxContainers := by
  rw [RegistryAt.Full, hR.slots, ← hw.length_entries, ← hR.entries, RegistryAt.entries,
    List.length_map]

/-- **Adding in memory is adding.** -/
theorem RegistryAt.Means.add {cm : ContainerManager} (hw : cm.WF) (hR : R.Means cm)
    {R' : RegistryAt} {t : InfoAt} {realloc : Bool} (hroom : ¬ (R.Full ∧ ¬ realloc = true))
    (hinfos : R'.infos = R.infos ++ [t]) (htwice : R.Full → R'.slots.length = R.slots.length * 2)
    (hsame : ¬ R.Full → R'.slots.length = R.slots.length) :
    ∃ cm', cm.addContainer t.value realloc = some cm' ∧ R'.Means cm' := by
  have hfull : R.Full ↔ cm.containerCount ≥ cm.maxContainers := full_iff hw hR
  cases hadd : cm.addContainer t.value realloc with
  | none =>
    rw [hfull] at hroom
    rw [ContainerManager.addContainer, if_neg hroom] at hadd
    cases hadd
  | some cm' =>
    refine ⟨cm', rfl, ?_, ?_⟩
    · rw [(ContainerManager.addContainer_spec hw hadd).2.1, RegistryAt.entries, hinfos,
        List.map_append, ← hR.entries, RegistryAt.entries]
      rfl
    · rw [addContainer_maxContainers hadd]
      by_cases h : R.Full
      · rw [if_pos (hfull.mp h), htwice h, hR.slots]
      · rw [if_neg (fun hge => h (hfull.mpr hge)), hsame h, hR.slots]

theorem RegistryAt.Gapless.add (hgap : R.Gapless) {R' : RegistryAt} {t : InfoAt}
    (hinfos : R'.infos = R.infos ++ [t]) (ht : t.leaked = 0) : R'.Gapless := by
  intro t' ht'
  rw [hinfos, List.mem_append, List.mem_singleton] at ht'
  rcases ht' with hmem | rfl
  · exact hgap t' hmem
  · exact ht

/-- A registry in memory with an array of one slot, and nothing else. -/
def RegistryAt.empty : RegistryAt := ⟨0, 0, [], [none]⟩

end

end Memory
