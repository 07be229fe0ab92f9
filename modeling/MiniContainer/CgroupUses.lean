import MiniContainer.Effect
import MiniContainer.Attachment

/-!
# What a call does with control groups

The container manager reaches a control group only through the functions of
the resource manager, and through the one file `stop` opens itself. Each of
them is given an identifier and builds its paths from that. `Call.uses`
lists, for a call and the world it is made in, which of these functions are
called and with which identifiers, in order.

The list is all a call does to the control groups: `Call.perform_cg` says
that the file system afterwards is what the functions of the list, one after
the other, make of the file system before. What holds of the control groups
over calls is therefore derived from the functions and from the list.
-/

open CText GrowArray StateFile

/-- **A use of a control group**, with the identifier its paths are built
from. -/
inductive CgroupUse
  /-- `resource_manager_create_cgroup`. -/
  | create (containerId : CStr) (limits : ResourceLimits)
  /-- `resource_manager_add_process`. -/
  | addProcess (containerId : CStr) (pid : ℤ)
  /-- The file `stop` reads processes from. -/
  | procs (containerId : CStr)
  /-- `resource_manager_get_stats`. -/
  | stats (containerId : CStr)
  /-- `resource_manager_destroy_cgroup`. -/
  | destroy (containerId : CStr)

namespace CgroupUse

/-- The identifier the paths are built from. -/
def containerId : CgroupUse → CStr
  | create containerId _ => containerId
  | addProcess containerId _ => containerId
  | procs containerId => containerId
  | stats containerId => containerId
  | destroy containerId => containerId

/-- What a use does to the file system of control groups. -/
def apply (k : Kernel) (rm : ResourceManager) : CgroupUse → CgroupFs → CgroupFs
  | create containerId limits, fs => (resourceManagerCreateCgroup k rm containerId limits fs).1
  | addProcess containerId pid, fs => (resourceManagerAddProcess k rm containerId pid fs).1
  | procs _, fs => fs
  | stats _, fs => fs
  | destroy containerId, fs => (resourceManagerDestroyCgroup k rm containerId fs).1

/-- Uses, one after the other. -/
def replay (k : Kernel) (rm : ResourceManager) (uses : List CgroupUse) (fs : CgroupFs) :
    CgroupFs :=
  uses.foldl (fun fs use => use.apply k rm fs) fs

variable {k : Kernel} {rm : ResourceManager} {fs : CgroupFs}

@[simp] theorem replay_nil : replay k rm [] fs = fs := rfl

@[simp] theorem replay_cons (use : CgroupUse) (uses : List CgroupUse) :
    replay k rm (use :: uses) fs = replay k rm uses (use.apply k rm fs) := rfl

theorem replay_append (uses uses' : List CgroupUse) :
    replay k rm (uses ++ uses') fs = replay k rm uses' (replay k rm uses fs) :=
  List.foldl_append

end CgroupUse

open CgroupUse

/-! ## The uses of each operation -/

/-- The uses of `namespace_create_container_with_cgroup`. -/
def cloneUses (env : Env) (command : Option (List (Option CStr))) (argc : ℤ) (containerId : CStr) :
    List CgroupUse :=
  match command with
  | none => []
  | some _ =>
    if argc ≤ 0 then []
    else if ¬ env.alloc .childStack then []
    else if env.clone > 0 then [.addProcess containerId env.clone]
    else []

/-- The uses of `create` from the control group on. -/
def addCreatedUses (env : Env) (config saved : ContainerConfig) (containerId : CStr) (w : World) :
    List CgroupUse :=
  .create containerId config.resLimits ::
    if (resourceManagerCreateCgroup env.kernel w.cm.rm containerId config.resLimits w.cg).2 ≠ 0 then
      []
    else if config.fsConfig.createMinimalFs ≠ 0 ∧ ¬ env.minimalRoot config.fsConfig.rootPath then
      [.destroy containerId]
    else
      match w.cm.addContainer (createdInfo containerId env.createdAt saved)
          (env.alloc .containers) with
      | some _ => []
      | none => [.destroy containerId]

/-- The uses of `create`. -/
def createUses (env : Env) (config : ContainerConfig) (w : World) : List CgroupUse :=
  if ¬ env.alloc .containerId then []
  else if (w.cm.findContainer (config.id.getD w.cm.generateContainerId)).isSome then []
  else if ¬ env.alloc .info then []
  else
    match copyContainerConfig env config with
    | .copied saved => addCreatedUses env config saved (config.id.getD w.cm.generateContainerId) w
    | .null => []
    | .freedTwice => []

/-- The uses of `start` once it has a configuration. -/
def startWithUses (env : Env) (config : ContainerConfig) (key : CStr) (w : World) :
    List CgroupUse :=
  .create key config.resLimits ::
    if (resourceManagerCreateCgroup env.kernel w.cm.rm key config.resLimits w.cg).2 ≠ 0 then []
    else cloneUses env config.command config.commandArgc key

/-- The uses of `start`. -/
def startUses (env : Env) (key : CStr) (w : World) : List CgroupUse :=
  match (w.cm.getInfo key).bind w.cm.infoAt with
  | none => []
  | some info =>
    if info.state ≠ .created ∧ info.state ≠ .stopped then []
    else
      match info.savedConfig with
      | none => []
      | some config => startWithUses env config key w

/-- The uses of `stop`. -/
def stopUses (key : CStr) (w : World) : List CgroupUse :=
  match (w.cm.getInfo key).bind w.cm.infoAt with
  | none => []
  | some info => if info.state ≠ .running then [] else [.procs info.id]

/-- The uses of `destroy`. -/
def destroyUses (key : CStr) (w : World) : List CgroupUse :=
  match (w.cm.getInfo key).bind w.cm.infoAt with
  | none => []
  | some info =>
    (if info.state = .running then stopUses info.id w else []) ++ [.destroy info.id]

/-- The uses of `run` after the container has been created. -/
def launchCreatedUses (env : Env) (containerId : CStr) (w : World) : List CgroupUse :=
  match (w.cm.findContainer containerId).bind w.cm.infoAt with
  | none => destroyUses containerId w
  | some info =>
    match info.savedConfig with
    | none => destroyUses containerId w
    | some saved =>
      if saved.command = none then destroyUses containerId w
      else
        cloneUses env saved.command saved.commandArgc containerId ++
          if saved.commandArgc ≤ 0 ∨ env.clone = -1 then destroyUses containerId w else []

/-- The uses of `run`. -/
def runUses (env : Env) (config : ContainerConfig) (w : World) : List CgroupUse :=
  match runId env w.cm config with
  | none => []
  | some containerId =>
    createUses env { config with id := some containerId } w ++
      match containerManagerCreate env { config with id := some containerId } w with
      | some (w, .ok ()) => launchCreatedUses env containerId w
      | _ => []

/-- **The uses of a call**, in the order they are made. -/
def Call.uses (env : Env) (w : World) : Call → List CgroupUse
  | .create config => createUses env config w
  | .run config => runUses env config w
  | .start key => startUses env key w
  | .stop key => stopUses key w
  | .destroy key => destroyUses key w

/-! ## They are all there is -/

section

variable {env : Env} {w w' : World} {r : Result}

@[simp] theorem World.save_cg (env : Env) (w : World) : (w.save env).cg = w.cg := by
  unfold save
  split <;> rfl

theorem cloneUses_cg {config : NamespaceConfig} {command : Option (List (Option CStr))}
    {argc pid : ℤ} {containerId : CStr}
    (h : namespaceCreateContainerWithCgroup env config command argc containerId w
      = some (w', pid)) :
    w'.cg = replay env.kernel w.cm.rm (cloneUses env command argc containerId) w.cg := by
  cases command with
  | none =>
    cases h
    rfl
  | some words =>
    rw [namespaceCreateContainerWithCgroup] at h
    rw [cloneUses]
    split at h
    · next hargc =>
      cases h
      rw [if_pos hargc]
      rfl
    · next hargc =>
      rw [if_neg hargc]
      split at h
      · cases h
      · next halloc =>
        rw [if_neg halloc]
        split at h
        · next hclone =>
          cases h
          rw [if_pos hclone]
          rfl
        · next hclone =>
          cases h
          rw [if_neg hclone]
          rfl

/-- A clone with a command is what `clone` returns. -/
theorem clone_of_eq {config : NamespaceConfig} {command : Option (List (Option CStr))}
    {argc pid : ℤ} {containerId : CStr}
    (h : namespaceCreateContainerWithCgroup env config command argc containerId w
      = some (w', pid)) (hcommand : command ≠ none) (hargc : 0 < argc) : pid = env.clone := by
  cases command with
  | none => exact absurd rfl hcommand
  | some words =>
    rw [namespaceCreateContainerWithCgroup, if_neg (not_le.mpr hargc)] at h
    split at h
    · cases h
    · split at h
      · exact (Prod.mk.inj (Option.some.inj h)).2.symm
      · exact (Prod.mk.inj (Option.some.inj h)).2.symm

theorem addCreated_cg (env : Env) (config saved : ContainerConfig) (containerId : CStr)
    (w : World) :
    (addCreated env config saved containerId w).1.cg
      = replay env.kernel w.cm.rm (addCreatedUses env config saved containerId w) w.cg := by
  unfold addCreated addCreatedUses
  dsimp only
  split
  · rfl
  · split
    · rfl
    · cases hadd : w.cm.addContainer (createdInfo containerId env.createdAt saved)
          (env.alloc .containers) with
      | some cm =>
        dsimp only
        rw [World.save_cg]
        rfl
      | none => rfl

theorem createUses_cg {config : ContainerConfig}
    (h : containerManagerCreate env config w = some (w', r)) :
    w'.cg = replay env.kernel w.cm.rm (createUses env config w) w.cg := by
  unfold containerManagerCreate at h
  unfold createUses
  split at h
  · next halloc =>
    cases h
    rw [if_pos halloc]
    rfl
  · next halloc =>
    rw [if_neg halloc]
    split at h
    · next hfound =>
      cases h
      rw [if_pos hfound]
      rfl
    · next hfound =>
      rw [if_neg hfound]
      split at h
      · next hinfo =>
        cases h
        rw [if_pos hinfo]
        rfl
      · next hinfo =>
        rw [if_neg hinfo]
        cases hcopy : copyContainerConfig env config with
        | copied saved =>
          rw [hcopy] at h
          dsimp only
          rw [← addCreated_cg, Option.some.inj h]
        | null =>
          rw [hcopy] at h
          cases h
          rfl
        | freedTwice =>
          rw [hcopy] at h
          cases h

theorem startWithUses_cg {config : ContainerConfig} {key : CStr} {i : ℕ}
    (h : startWith env config key i w = some (w', r)) :
    w'.cg = replay env.kernel w.cm.rm (startWithUses env config key w) w.cg := by
  unfold startWith at h
  unfold startWithUses
  dsimp only at h
  rw [replay_cons]
  split at h
  · next hcode =>
    cases h
    rw [if_pos hcode]
    rfl
  · next hcode =>
    rw [if_neg hcode]
    split at h
    · cases h
    · next w₁ pid hclone =>
      have hcg := cloneUses_cg hclone
      split at h
      · cases h
        exact hcg
      · cases h
        rw [World.save_cg]
        exact hcg

theorem startUses_cg {key : CStr} (h : containerManagerStart env key w = some (w', r)) :
    w'.cg = replay env.kernel w.cm.rm (startUses env key w) w.cg := by
  unfold containerManagerStart at h
  unfold startUses
  cases hi : w.cm.getInfo key with
  | none =>
    rw [hi] at h
    cases h
    rfl
  | some i =>
    rw [hi] at h
    rw [Option.bind_some]
    dsimp only at h
    cases hinfo : w.cm.infoAt i with
    | none =>
      rw [hinfo] at h
      cases h
    | some info =>
      rw [hinfo] at h
      dsimp only at h ⊢
      split at h
      · next hstate =>
        cases h
        rw [hstate, if_pos (by decide)]
        rfl
      · split at h
        · next hstate =>
          cases h
          rw [hstate, if_pos (by decide)]
          rfl
        · split at h
          · next hstate =>
            cases h
            rw [if_pos hstate]
            rfl
          · next hstate =>
            rw [if_neg hstate]
            cases hconfig : info.savedConfig with
            | none =>
              rw [hconfig] at h
              cases h
              rfl
            | some config =>
              rw [hconfig] at h
              exact startWithUses_cg h

/-- Reading the list of processes changes no control group. -/
theorem stop_cg {key : CStr} (h : containerManagerStop env key w = some (w', r)) :
    w'.cg = w.cg := by
  rcases containerManagerStop_cases h with ⟨rfl, -⟩ | ⟨i, info, -, -, -, -, rfl⟩
  · rfl
  · rw [World.save_cg]

theorem replay_stopUses (k : Kernel) (rm : ResourceManager) (key : CStr) (w : World)
    (fs : CgroupFs) : replay k rm (stopUses key w) fs = fs := by
  unfold stopUses
  split
  · rfl
  · split <;> rfl

theorem destroyUses_cg (hw : w.cm.WF) {key : CStr}
    (h : containerManagerDestroy env key w = some (w', r)) :
    w'.cg = replay env.kernel w.cm.rm (destroyUses key w) w.cg := by
  unfold containerManagerDestroy at h
  unfold destroyUses
  cases hi : w.cm.getInfo key with
  | none =>
    rw [hi] at h
    cases h
    rfl
  | some i =>
    rw [hi] at h
    rw [Option.bind_some]
    dsimp only at h
    cases hinfo : w.cm.infoAt i with
    | none =>
      rw [hinfo] at h
      cases h
    | some info =>
      rw [hinfo] at h
      dsimp only at h ⊢
      rw [replay_append]
      split at h
      · next hrun =>
        obtain ⟨⟨w₁, r₁⟩, hstop, hr⟩ := Option.map_eq_some_iff.mp h
        cases hr
        rw [if_pos hrun, replay_stopUses, World.save_cg, ← stop_cg hstop,
          ← (containerManagerStop_spec hw hstop).rm]
        rfl
      · next hrun =>
        cases h
        rw [if_neg hrun, World.save_cg]
        rfl

/-- Taking back a creation is destroying, with the registry as it is. -/
theorem undoCreate_cg (hw : w.cm.WF) {containerId : CStr} {e : Refusal}
    (h : undoCreate env containerId e w = some (w', r)) :
    w'.cg = replay env.kernel w.cm.rm (destroyUses containerId w) w.cg := by
  obtain ⟨⟨w₁, r₁⟩, hdestroy, hr⟩ := Option.map_eq_some_iff.mp h
  cases hr
  exact destroyUses_cg hw hdestroy

theorem destroyUses_congr (key : CStr) (h : w'.cm = w.cm) :
    destroyUses key w' = destroyUses key w := by
  unfold destroyUses stopUses
  rw [h]

theorem launchCreatedUses_cg (hw : w.cm.WF) {containerId : CStr}
    (h : launchCreated env containerId w = some (w', r)) :
    w'.cg = replay env.kernel w.cm.rm (launchCreatedUses env containerId w) w.cg := by
  unfold launchCreated at h
  unfold launchCreatedUses
  cases hi : w.cm.findContainer containerId with
  | none =>
    rw [hi] at h
    exact undoCreate_cg hw h
  | some i =>
    rw [hi] at h
    rw [Option.bind_some]
    dsimp only at h
    cases hinfo : w.cm.infoAt i with
    | none =>
      rw [hinfo] at h
      cases h
    | some info =>
      rw [hinfo] at h
      dsimp only at h ⊢
      cases hsaved : info.savedConfig with
      | none =>
        rw [hsaved] at h
        exact undoCreate_cg hw h
      | some saved =>
        rw [hsaved] at h
        dsimp only at h ⊢
        split at h
        · next hcommand =>
          rw [if_pos hcommand]
          exact undoCreate_cg hw h
        · next hcommand =>
          rw [if_neg hcommand, replay_append]
          split at h
          · cases h
          · next w₁ pid hclone =>
            have hcg := cloneUses_cg hclone
            obtain ⟨hcm, -, hpid⟩ := namespaceCreateContainerWithCgroup_spec hclone
            split at h
            · next hfailed =>
              have hrefused : saved.commandArgc ≤ 0 ∨ env.clone = -1 := by
                by_contra hn
                obtain ⟨hargc, hne⟩ := not_or.mp hn
                exact hne (clone_of_eq hclone hcommand (not_le.mp hargc) ▸ hfailed)
              rw [if_pos hrefused, ← hcg, ← hcm, ← destroyUses_congr containerId hcm]
              exact undoCreate_cg (by rwa [hcm]) h
            · next hne =>
              obtain ⟨-, hargc, rfl⟩ := hpid hne
              cases h
              rw [if_neg (not_or.mpr ⟨not_le.mpr hargc, hne⟩), World.save_cg]
              exact hcg

theorem runUses_cg (hw : w.cm.WF) {config : ContainerConfig}
    (h : containerManagerRun env config w = some (w', r)) :
    w'.cg = replay env.kernel w.cm.rm (runUses env config w) w.cg := by
  unfold containerManagerRun at h
  unfold runUses
  cases hid : runId env w.cm config with
  | none =>
    rw [hid] at h
    cases h
    rfl
  | some containerId =>
    rw [hid] at h
    dsimp only at h ⊢
    rw [replay_append]
    cases hcreate : containerManagerCreate env { config with id := some containerId } w with
    | none =>
      rw [hcreate] at h
      cases h
    | some r₁ =>
      obtain ⟨w₁, r₁⟩ := r₁
      have hspec := containerManagerCreate_spec hw hcreate
      rw [hcreate] at h
      rw [← createUses_cg hcreate]
      cases r₁ with
      | error e =>
        cases h
        rfl
      | ok u =>
        rw [← hspec.rm]
        exact launchCreatedUses_cg hspec.wf h

/-- **The uses of a call are all it does to the control groups.** -/
theorem Call.perform_cg (hw : w.cm.WF) {call : Call}
    (h : call.perform env w = some (w', r)) :
    w'.cg = replay env.kernel w.cm.rm (call.uses env w) w.cg := by
  cases call with
  | create config => exact createUses_cg h
  | run config => exact runUses_cg hw h
  | start key => exact startUses_cg h
  | stop key =>
    rw [stop_cg h]
    exact (replay_stopUses _ _ _ _ _).symm
  | destroy key => exact destroyUses_cg hw h

end

/-! ## Under which identifiers -/

section

variable {env : Env} {w : World} {use : CgroupUse}

/-- The uses of a clone are under the identifier it is given. -/
theorem containerId_of_mem_cloneUses {command : Option (List (Option CStr))} {argc : ℤ}
    {containerId : CStr} (h : use ∈ cloneUses env command argc containerId) :
    use.containerId = containerId := by
  unfold cloneUses at h
  split at h
  · cases h
  · split at h
    · cases h
    · split at h
      · cases h
      · split at h
        · rw [List.mem_singleton.mp h]
          rfl
        · cases h

/-- What is found is an entry. -/
theorem mem_entries_of_found (hw : w.cm.WF) {key : CStr} {info : ContainerInfo}
    (hfound : (w.cm.getInfo key).bind w.cm.infoAt = some info) : info ∈ w.cm.entries := by
  obtain ⟨i, hi, hinfo⟩ := Option.bind_eq_some_iff.mp hfound
  exact List.mem_of_getElem? (entry_of_getInfo hw hi hinfo).2

/-- A container is found under its identifier. -/
theorem found_of_mem_ids (hw : w.cm.WF) {containerId : CStr} (hmem : containerId ∈ w.cm.ids) :
    ∃ info, (w.cm.getInfo containerId).bind w.cm.infoAt = some info ∧ info.id = containerId := by
  obtain ⟨i, hi, hlt, hid⟩ := ContainerManager.resolve_of_mem hmem
  refine ⟨w.cm.entries[i], ?_, hid⟩
  rw [ContainerManager.getInfo_eq hw, hi, Option.bind_some, ContainerManager.infoAt_eq hw hlt]

/-- Looking for a container under its own identifier finds one with that
identifier. -/
theorem found_own_id (hw : w.cm.WF) {key : CStr} {info : ContainerInfo}
    (hfound : (w.cm.getInfo key).bind w.cm.infoAt = some info) :
    ∃ found, (w.cm.getInfo info.id).bind w.cm.infoAt = some found ∧ found.id = info.id :=
  found_of_mem_ids hw (List.mem_map_of_mem (mem_entries_of_found hw hfound))

/-- The processes `stop` looks for are those of the container it has
found. -/
theorem containerId_of_mem_stopUses {key : CStr} {info : ContainerInfo}
    (hfound : (w.cm.getInfo key).bind w.cm.infoAt = some info)
    (h : use ∈ stopUses key w) : use.containerId = info.id := by
  rw [stopUses, hfound] at h
  dsimp only at h
  split at h
  · cases h
  · rw [List.mem_singleton.mp h]
    rfl

theorem containerId_of_mem_startUses {key : CStr} (h : use ∈ startUses env key w) :
    use.containerId = key := by
  unfold startUses at h
  split at h
  · cases h
  · split at h
    · cases h
    · split at h
      · cases h
      · rw [startWithUses] at h
        rcases List.mem_cons.mp h with rfl | h
        · rfl
        · split at h
          · cases h
          · exact containerId_of_mem_cloneUses h

theorem containerId_of_mem_destroyUses (hw : w.cm.WF) {key : CStr} {info : ContainerInfo}
    (hfound : (w.cm.getInfo key).bind w.cm.infoAt = some info)
    (h : use ∈ destroyUses key w) : use.containerId = info.id := by
  rw [destroyUses, hfound] at h
  dsimp only at h
  rcases List.mem_append.mp h with h | h
  · split at h
    · -- `stop` looks for the container anew, under its own identifier
      obtain ⟨found, hid, hsame⟩ := found_own_id hw hfound
      exact (containerId_of_mem_stopUses hid h).trans hsame
    · cases h
  · rw [List.mem_singleton.mp h]
    rfl

theorem containerId_of_mem_addCreatedUses {config saved : ContainerConfig} {containerId : CStr}
    (h : use ∈ addCreatedUses env config saved containerId w) :
    use.containerId = containerId := by
  unfold addCreatedUses at h
  rcases List.mem_cons.mp h with rfl | h
  · rfl
  · split at h
    · cases h
    · split at h
      · rw [List.mem_singleton.mp h]
        rfl
      · split at h
        · cases h
        · rw [List.mem_singleton.mp h]
          rfl

/-- `create` uses control groups under an identifier no container has. -/
theorem containerId_of_mem_createUses (hw : w.cm.WF) {config : ContainerConfig}
    (h : use ∈ createUses env config w) :
    use.containerId = createdId w.cm.entries config ∧
      createdId w.cm.entries config ∉ w.cm.ids := by
  unfold createUses at h
  rw [getD_generateContainerId hw] at h
  split at h
  · cases h
  · split at h
    · cases h
    · next hfound =>
      rw [Option.not_isSome_iff_eq_none, ContainerManager.findContainer_eq_none_iff hw] at hfound
      split at h
      · cases h
      · split at h
        · exact ⟨containerId_of_mem_addCreatedUses h, hfound⟩
        · cases h
        · cases h

/-- `run` uses control groups under an identifier no container has. -/
theorem containerId_of_mem_runUses (hw : w.cm.WF) {config : ContainerConfig}
    (h : use ∈ runUses env config w) :
    use.containerId = createdId w.cm.entries config ∧
      createdId w.cm.entries config ∉ w.cm.ids := by
  unfold runUses at h
  split at h
  · cases h
  · next containerId hrunId =>
    obtain rfl := eq_createdId_of_runId hw hrunId
    rcases List.mem_append.mp h with h | h
    · have hown := containerId_of_mem_createUses hw h
      exact hown
    · split at h
      · next w₁ hcreate =>
        have hspec := containerManagerCreate_spec hw hcreate
        obtain ⟨saved, -, hfresh, hentries⟩ := containerManagerCreate_ok hw hcreate
        refine ⟨?_, hfresh⟩
        obtain ⟨info, hfound, hid⟩ := found_of_mem_ids hspec.wf
          (List.mem_map.mpr ⟨_, by rw [hentries]; exact List.mem_concat_self, rfl⟩)
        have hdestroy : ∀ {use}, use ∈ destroyUses (createdId w.cm.entries config) w₁ →
            use.containerId = createdId w.cm.entries config :=
          fun h => (containerId_of_mem_destroyUses hspec.wf hfound h).trans hid
        unfold launchCreatedUses at h
        split at h
        · exact hdestroy h
        · split at h
          · exact hdestroy h
          · split at h
            · exact hdestroy h
            · rcases List.mem_append.mp h with h | h
              · exact containerId_of_mem_cloneUses h
              · split at h
                · exact hdestroy h
                · cases h
      · cases h

/-- **Under which identifier a call uses control groups.** -/
def Call.ActsOn (w : World) (containerId : CStr) : Call → Prop
  | .create config | .run config =>
    containerId = createdId w.cm.entries config ∧ containerId ∉ w.cm.ids
  | .start key => containerId = key ∧ ((w.cm.getInfo key).bind w.cm.infoAt).isSome
  | .stop key | .destroy key =>
    ∃ info, (w.cm.getInfo key).bind w.cm.infoAt = some info ∧ containerId = info.id

theorem Call.actsOn_of_mem_uses (hw : w.cm.WF) {call : Call} (h : use ∈ call.uses env w) :
    call.ActsOn w use.containerId := by
  cases call with
  | create config =>
    obtain ⟨hid, hfresh⟩ := containerId_of_mem_createUses hw h
    exact ⟨hid, hid ▸ hfresh⟩
  | run config =>
    obtain ⟨hid, hfresh⟩ := containerId_of_mem_runUses hw h
    exact ⟨hid, hid ▸ hfresh⟩
  | start key =>
    refine ⟨containerId_of_mem_startUses h, ?_⟩
    rw [Call.uses, startUses] at h
    split at h
    · cases h
    · next hfound => rw [hfound]; rfl
  | stop key =>
    cases hfound : (w.cm.getInfo key).bind w.cm.infoAt with
    | none =>
      rw [Call.uses, stopUses, hfound] at h
      cases h
    | some info => exact ⟨info, hfound, containerId_of_mem_stopUses hfound h⟩
  | destroy key =>
    cases hfound : (w.cm.getInfo key).bind w.cm.infoAt with
    | none =>
      rw [Call.uses, destroyUses, hfound] at h
      cases h
    | some info => exact ⟨info, hfound, containerId_of_mem_destroyUses hw hfound h⟩

end

/-! ## Directories over uses -/

section

variable {k : Kernel} {rm : ResourceManager} {fs : CgroupFs} {d : CStr}

/-- A use makes no directory but those of the identifier it creates a
control group for. -/
theorem CgroupUse.mem_dirs_apply {use : CgroupUse} (h : d ∈ (use.apply k rm fs).dirs) :
    d ∈ fs.dirs ∨ ∃ containerId limits, use = .create containerId limits ∧
      d ∈ cgroupDirs rm containerId := by
  cases use with
  | create containerId limits =>
    exact (mem_dirs_of_create h).imp_right (fun hd => ⟨containerId, limits, rfl, hd⟩)
  | addProcess containerId pid =>
    refine Or.inl ?_
    rwa [apply, resourceManagerAddProcess_dirs] at h
  | procs containerId => exact Or.inl h
  | stats containerId => exact Or.inl h
  | destroy containerId =>
    by_cases hinit : rm.initialized = true
    · exact Or.inl ((mem_dirs_destroy hinit).mp h).1
    · rw [apply, resourceManagerDestroyCgroup, if_neg hinit] at h
      exact Or.inl h

/-- **Uses make no directories but those of the identifiers they create
control groups for.** -/
theorem CgroupUse.mem_dirs_replay {uses : List CgroupUse} (h : d ∈ (replay k rm uses fs).dirs) :
    d ∈ fs.dirs ∨ ∃ containerId limits, .create containerId limits ∈ uses ∧
      d ∈ cgroupDirs rm containerId := by
  induction uses generalizing fs with
  | nil => exact Or.inl h
  | cons use uses ih =>
    rw [replay_cons] at h
    rcases ih h with happly | ⟨containerId, limits, hmem, hd⟩
    · rcases mem_dirs_apply happly with hd | ⟨containerId, limits, rfl, hd⟩
      · exact Or.inl hd
      · exact Or.inr ⟨containerId, limits, List.mem_cons_self, hd⟩
    · exact Or.inr ⟨containerId, limits, List.mem_cons_of_mem _ hmem, hd⟩

end
