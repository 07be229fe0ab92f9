import MiniContainer.CgroupPlaces
import MiniContainer.Configuration
import MiniContainer.Restart

/-!
# To whom the control groups belong

A directory that was made for a container can be removed as long as the
registry has a container with its name in it: destroying that container
removes it. `Owned` says that there is one for every directory that was made
and is still there, and this is followed over whole runs, through the calls
that make and remove directories and through the restarts, which decide what
containers there are.

Calls keep the directories owned, but for one case on version 1, where a
creation is refused after its first directories have been made. A restart does
not: a container that has stopped is not read back, and one whose identifier
is no numeral is read back under another. `cgroups_owned` says that the
directories stay owned in every run in which neither happens to a container
that has any.
-/

open CText StateFile CgroupUse

/-! ## Creations that leave nothing behind -/

/-- **A creation that makes all its directories or none.** On version 1 the
directory for memory is made last, and where it cannot be made those for
processors are left. -/
def MakesAll (k : Kernel) (rm : ResourceManager) (containerId : CStr) (fs : CgroupFs) : Prop :=
  rm.version = .v1 →
    cgroupDir memoryCgroupPath rm containerId ∈ fs.dirs ∨
    k.mkdir (cgroupDir memoryCgroupPath rm containerId) = true ∨
    ∀ root ∈ [cpuCpuacctCgroupPath, cpuCgroupPath, cpuacctCgroupPath],
      cgroupDir root rm containerId ∈ fs.dirs ∨
        k.mkdir (cgroupDir root rm containerId) = false

/-- **The kernel removes the directories of containers.** They are empty when
this is tried: the processes have exited, and where identifiers have no
slashes in them no directory lies below another. -/
def Kernel.Removes (k : Kernel) (rm : ResourceManager) : Prop :=
  ∀ containerId, '/' ∉ containerId → ∀ d ∈ cgroupDirs rm containerId, k.rmdir d = true

section

variable {k : Kernel} {rm : ResourceManager} {containerId : CStr} {fs : CgroupFs} {d : CStr}

/-- A directory is there, or nothing is made. -/
theorem makeDir_cases (k : Kernel) (path : CStr) (fs : CgroupFs) :
    (makeDir k path fs).2 = 0 ∨ (makeDir k path fs).1 = fs := by
  unfold makeDir
  cases mkdirOrExist k path fs with
  | some fs₁ => exact Or.inl rfl
  | none => exact Or.inr rfl

/-- A directory for processors is there, and so is what was before, or nothing
is made. -/
theorem makeCpuDirs_cases (k : Kernel) (rm : ResourceManager) (containerId : CStr)
    (fs : CgroupFs) :
    ((makeCpuDirs k rm containerId fs).2 = 0 ∧
      ∀ d ∈ fs.dirs, d ∈ (makeCpuDirs k rm containerId fs).1.dirs) ∨
    (makeCpuDirs k rm containerId fs).1 = fs := by
  have hkeep : ∀ {path : CStr} {fs fs' : CgroupFs}, mkdirOrExist k path fs = some fs' →
      ∀ d ∈ fs.dirs, d ∈ fs'.dirs :=
    fun hmade d hd => (mem_dirs_of_mkdirOrExist hmade).mpr (Or.inr hd)
  have hcases := cpuDirs_makeCpuDirs k rm containerId fs
  generalize makeCpuDirs k rm containerId fs = r at hcases ⊢
  cases hcases with
  | combined hcombined => exact Or.inl ⟨rfl, hkeep hcombined⟩
  | refused => exact Or.inr rfl
  | only _ honly => exact Or.inl ⟨rfl, hkeep honly⟩
  | both _ honly hacct => exact Or.inl ⟨rfl, fun d hd => hkeep hacct d (hkeep honly d hd)⟩

/-- What is made where nothing can be. -/
theorem makeCgroupDirs_makes_none
    (h : ∀ root ∈ cgroupRoots rm.version, cgroupDir root rm containerId ∈ fs.dirs ∨
      k.mkdir (cgroupDir root rm containerId) = false) :
    ∀ d ∈ (makeCgroupDirs k rm containerId fs).1.dirs, d ∈ fs.dirs := by
  refine makeCgroupDirs_preserves (P := fun fs' => ∀ d ∈ fs'.dirs, d ∈ fs.dirs) ?_
    (fun _ hd => hd)
  intro root hroot fs' fs'' hfs' hmade d hd
  rcases (mem_dirs_of_mkdirOrExist hmade).mp hd with rfl | hd
  · by_contra hnew
    have hno := (h root hroot).resolve_left hnew
    have hnone := mkdirOrExist_eq_none_iff.mpr
      (not_or.mpr ⟨fun hmem => hnew (hfs' _ hmem), by rw [hno]; exact Bool.false_ne_true⟩)
    rw [hnone] at hmade
    cases hmade
  · exact hfs' d hd

/-- **All directories are made, or none is.** -/
theorem makeCgroupDirs_of_makesAll (h : MakesAll k rm containerId fs) :
    (makeCgroupDirs k rm containerId fs).2 = 0 ∨
      ∀ d ∈ (makeCgroupDirs k rm containerId fs).1.dirs, d ∈ fs.dirs := by
  cases hv : rm.version with
  | v2 =>
    unfold makeCgroupDirs
    rw [hv]
    exact (makeDir_cases k _ fs).imp_right (fun hfs d hd => by rwa [hfs] at hd)
  | v1 =>
    by_cases hmemory : cgroupDir memoryCgroupPath rm containerId ∈ fs.dirs ∨
        k.mkdir (cgroupDir memoryCgroupPath rm containerId) = true
    · unfold makeCgroupDirs
      rw [hv]
      dsimp only
      rcases makeCpuDirs_cases k rm containerId fs with ⟨hcode, hkeep⟩ | hfs
      · left
        rw [andThen, if_pos hcode, makeDir]
        cases hmade : mkdirOrExist k (cgroupDir memoryCgroupPath rm containerId)
            (makeCpuDirs k rm containerId fs).1 with
        | some fs₁ => rfl
        | none => exact absurd (hmemory.imp_left (hkeep _)) (mkdirOrExist_eq_none_iff.mp hmade)
      · rw [andThen, hfs]
        split
        · exact (makeDir_cases k _ fs).imp_right (fun hfs d hd => by rwa [hfs] at hd)
        · exact Or.inr (fun _ hd => hd)
    · obtain ⟨hnew, hno⟩ := not_or.mp hmemory
      have hothers := ((h hv).resolve_left hnew).resolve_left hno
      refine Or.inr (makeCgroupDirs_makes_none (fun root hroot => ?_))
      rw [hv] at hroot
      rcases List.mem_append.mp (show root ∈ [cpuCpuacctCgroupPath, cpuCgroupPath,
        cpuacctCgroupPath] ++ [memoryCgroupPath] from hroot) with hroot | hroot
      · exact hothers root hroot
      · rw [List.mem_singleton.mp hroot]
        exact Or.inr (Bool.eq_false_iff.mpr hno)

/-- A control group that could not be created has left nothing. -/
theorem create_dirs_of_makesAll (h : MakesAll k rm containerId fs) {limits : ResourceLimits}
    (hcode : (resourceManagerCreateCgroup k rm containerId limits fs).2 ≠ 0) :
    ∀ d ∈ (resourceManagerCreateCgroup k rm containerId limits fs).1.dirs, d ∈ fs.dirs := by
  unfold resourceManagerCreateCgroup at hcode ⊢
  split at hcode
  · next hinit =>
    rw [if_pos hinit, andThen_dirs rfl (fun _ => applyLimits_dirs _ _ _ _ _)]
    refine (makeCgroupDirs_of_makesAll h).resolve_left (fun hmade => hcode ?_)
    rw [andThen, if_pos hmade]
  · next hinit =>
    rw [if_neg hinit]
    exact fun _ hd => hd

end

/-! ## What calls make and remove -/

section

variable {env : Env} {w w' : World} {r : Result} {d : CStr} {call : Call}

/-- What `destroy` does to the control groups: it destroys that of the
container it finds. -/
theorem containerManagerDestroy_cg (hw : w.cm.WF) {key : CStr} {info : ContainerInfo}
    (hfound : (w.cm.getInfo key).bind w.cm.infoAt = some info)
    (h : containerManagerDestroy env key w = some (w', r)) :
    w'.cg = (resourceManagerDestroyCgroup env.kernel w.cm.rm info.id w.cg).1 := by
  rw [destroyUses_cg hw h, destroyUses, hfound]
  dsimp only
  rw [replay_append]
  split
  · rw [replay_stopUses]
    rfl
  · rfl

/-- A `destroy` that finds nothing does nothing. -/
theorem containerManagerDestroy_cg_of_none (hw : w.cm.WF) {key : CStr}
    (hfound : (w.cm.getInfo key).bind w.cm.infoAt = none)
    (h : containerManagerDestroy env key w = some (w', r)) : w'.cg = w.cg := by
  rw [destroyUses_cg hw h, destroyUses, hfound]
  rfl

/-- **A refused creation leaves nothing.** -/
theorem create_refused_dirs (hw : w.cm.WF) (hinit : w.cm.rm.initialized = true)
    {config : ContainerConfig} {e : Refusal}
    (hremoves : ∀ d ∈ cgroupDirs w.cm.rm (createdId w.cm.entries config),
      env.kernel.rmdir d = true)
    (hall : createdId w.cm.entries config ∉ w.cm.ids →
      MakesAll env.kernel w.cm.rm (createdId w.cm.entries config) w.cg)
    (h : containerManagerCreate env config w = some (w', .error e)) :
    ∀ d ∈ w'.cg.dirs, d ∈ w.cg.dirs := by
  rcases containerManagerCreate_cases hw h with ⟨rfl, -⟩ | ⟨saved, -, hfresh, hadded⟩
  · exact fun _ hd => hd
  · rcases addCreated_cases hadded with ⟨hcode, -, rfl⟩ | ⟨-, rfl⟩ | ⟨cm, -, -, hr, -⟩
    · exact create_dirs_of_makesAll (hall hfresh) hcode
    · -- what was made was in the directories that were destroyed
      intro d hd
      obtain ⟨hcreated, hleft⟩ := (mem_dirs_destroy hinit).mp hd
      exact (mem_dirs_of_create hcreated).resolve_right (fun hown => hleft ⟨hown, hremoves d hown⟩)
    · cases hr

/-- **A refused `run` leaves nothing.** -/
theorem run_refused_dirs (hw : w.cm.WF) (hinit : w.cm.rm.initialized = true)
    {config : ContainerConfig} {e : Refusal}
    (hremoves : ∀ d ∈ cgroupDirs w.cm.rm (createdId w.cm.entries config),
      env.kernel.rmdir d = true)
    (hall : createdId w.cm.entries config ∉ w.cm.ids →
      MakesAll env.kernel w.cm.rm (createdId w.cm.entries config) w.cg)
    (h : containerManagerRun env config w = some (w', .error e)) :
    ∀ d ∈ w'.cg.dirs, d ∈ w.cg.dirs := by
  unfold containerManagerRun at h
  split at h
  · cases h
    exact fun _ hd => hd
  · next containerId hrunId =>
    obtain rfl := eq_createdId_of_runId hw hrunId
    split at h
    · cases h
    · next w₁ e₁ hcreate =>
      cases h
      refine create_refused_dirs hw hinit ?_ ?_ hcreate
      · exact hremoves
      · exact hall
    · next w₁ hcreate =>
      have hspec := containerManagerCreate_spec hw hcreate
      obtain ⟨saved, -, -, hentries⟩ := containerManagerCreate_ok hw hcreate
      rcases launchCreated_cases h with ⟨w₂, e₂, hcm, -, hdirs, hundo⟩ |
        ⟨_, _, _, _, _, _, _, _, _, _, _, _, hr, _⟩
      · obtain ⟨⟨w₃, r₃⟩, hdestroy, hr⟩ := Option.map_eq_some_iff.mp hundo
        cases hr
        -- the container that is destroyed is the one that has just been created
        have hw₂ : w₂.cm.WF := by rw [hcm]; exact hspec.wf
        have hmem : createdId w.cm.entries config ∈ w₂.cm.ids :=
          List.mem_map.mpr ⟨_, by rw [hcm, hentries]; exact List.mem_concat_self, rfl⟩
        obtain ⟨info, hfound, hid⟩ := found_of_mem_ids hw₂ hmem
        intro d hd
        rw [containerManagerDestroy_cg hw₂ hfound hdestroy, hid] at hd
        have hrm : w₂.cm.rm = w.cm.rm := by rw [hcm, hspec.rm]
        rw [hrm] at hd
        obtain ⟨hd, hleft⟩ := (mem_dirs_destroy hinit).mp hd
        rw [hdirs, (containerManagerCreate_cgroup hw hcreate).2] at hd
        exact (mem_dirs_of_create hd).resolve_right
          (fun hown => hleft ⟨hown, hremoves d hown⟩)
      · cases hr

/-- What a creation has created is there. -/
theorem Effect.mem_created {l l' : List ContainerInfo} {config : ContainerConfig}
    (h : Effect env l call (.ok ()) l') (hcall : call = .create config ∨ call = .run config) :
    createdId l config ∈ l'.map ContainerInfo.id := by
  have hlast : ∀ info : ContainerInfo, info.id ∈ (l ++ [info]).map ContainerInfo.id :=
    fun info => List.mem_map_of_mem List.mem_concat_self
  rcases hcall with rfl | rfl
  · cases h with
    | created => exact hlast (createdInfo (createdId l config) _ _)
  · cases h with
    | ran => exact hlast (launchedInfo _ _ (createdInfo (createdId l config) _ _))

/-- **A call by identifier**: the key denotes no container that has another
one. -/
def Call.ById (w : World) : Call → Prop
  | .create _ | .run _ => True
  | .start key | .stop key | .destroy key =>
    ∀ info, (w.cm.getInfo key).bind w.cm.infoAt = some info → info.id = key

/-- **A call that leaves nothing behind** if it is refused. -/
def Call.Clean (env : Env) (w : World) : Call → Prop
  | .create config | .run config => createdId w.cm.entries config ∉ w.cm.ids →
    MakesAll env.kernel w.cm.rm (createdId w.cm.entries config) w.cg
  | .start _ | .stop _ | .destroy _ => True

/-- A directory belongs to a container that has its name in it. -/
def World.Owns (w : World) (d : CStr) : Prop :=
  ∃ containerId ∈ w.cm.ids, d ∈ cgroupDirs w.cm.rm containerId

/-- **A creation that is refused leaves nothing**, by `create` or by `run`. -/
theorem refused_dirs (hw : w.Sound) (hremoves : env.kernel.Removes w.cm.rm)
    {config : ContainerConfig} (hcall : call = .create config ∨ call = .run config)
    (hfree : call.SlashFree) (hclean : call.Clean env w) {e : Refusal}
    (h : call.perform env w = some (w', .error e)) : ∀ d ∈ w'.cg.dirs, d ∈ w.cg.dirs := by
  have hplain : (∀ id, config.id = some id → '/' ∉ id) →
      ∀ d ∈ cgroupDirs w.cm.rm (createdId w.cm.entries config), env.kernel.rmdir d = true :=
    fun hfree => hremoves _ (createdId_of (P := fun id => '/' ∉ id) hfree
      (not_mem_printDecimal (by decide) (by decide) _))
  rcases hcall with rfl | rfl
  · exact create_refused_dirs hw.wf hw.initialized (hplain hfree) hclean h
  · exact run_refused_dirs hw.wf hw.initialized (hplain hfree) hclean h

/-- **A directory that a call has made belongs to a container.** -/
theorem owns_of_made (hw : w.Sound) (hremoves : env.kernel.Removes w.cm.rm)
    (hbyid : call.ById w) (hfree : call.SlashFree) (hclean : call.Clean env w)
    (h : call.perform env w = some (w', r)) (hd : d ∈ w'.cg.dirs) (hnew : d ∉ w.cg.dirs) :
    w'.Owns d := by
  have hspec := Call.perform_spec hw.wf h
  have hmade := hd
  rw [Call.perform_cg hw.wf h] at hmade
  obtain ⟨containerId, limits, huse, hown⟩ := (mem_dirs_replay hmade).resolve_left hnew
  have hacts := Call.actsOn_of_mem_uses hw.wf huse
  rw [← hspec.rm] at hown
  have hcreation : ∀ config, (call = .create config ∨ call = .run config) →
      containerId = createdId w.cm.entries config → w'.Owns d := by
    rintro config hcall rfl
    cases r with
    | ok => exact ⟨_, hspec.effect.mem_created hcall, hown⟩
    | error e => exact absurd (refused_dirs hw hremoves hcall hfree hclean h d hd) hnew
  cases call with
  | create config => exact hcreation config (Or.inl rfl) hacts.1
  | run config => exact hcreation config (Or.inr rfl) hacts.1
  | start key =>
    obtain ⟨hkey, hfound⟩ := hacts
    obtain ⟨info, hfound⟩ := Option.isSome_iff_exists.mp hfound
    refine ⟨containerId, ?_, hown⟩
    have hmem : (info.id, info.savedConfig) ∈ idConfigs w.cm.entries :=
      List.mem_map.mpr ⟨info, mem_entries_of_found hw.wf hfound, rfl⟩
    have hkept := (hspec.effect.idConfigs_mem hmem).resolve_right (fun hc => nomatch hc)
    rw [ContainerManager.ids, ← fst_idConfigs]
    exact List.mem_map.mpr ⟨_, hkept, (hbyid info hfound).trans hkey.symm⟩
  | stop key =>
    rw [stop_cg h] at hd
    exact absurd hd hnew
  | destroy key =>
    cases hfound : (w.cm.getInfo key).bind w.cm.infoAt with
    | none =>
      rw [containerManagerDestroy_cg_of_none hw.wf hfound h] at hd
      exact absurd hd hnew
    | some info =>
      rw [containerManagerDestroy_cg hw.wf hfound h] at hd
      exact absurd ((mem_dirs_destroy hw.initialized).mp hd).1 hnew

/-- **A directory that belongs to a container** does so after a call, as long
as it is there. -/
theorem owns_of_owned (hw : w.Sound) (hids : ∀ id ∈ w.cm.ids, '/' ∉ id)
    (hremoves : env.kernel.Removes w.cm.rm) (h : call.perform env w = some (w', r))
    (hd : d ∈ w'.cg.dirs) (howns : w.Owns d) : w'.Owns d := by
  obtain ⟨containerId, hmem, hown⟩ := howns
  have hspec := Call.perform_spec hw.wf h
  obtain ⟨info, hinfo, rfl⟩ := List.mem_map.mp hmem
  have hconfig : (info.id, info.savedConfig) ∈ idConfigs w.cm.entries :=
    List.mem_map.mpr ⟨info, hinfo, rfl⟩
  rcases hspec.effect.idConfigs_mem hconfig with hkept | rfl
  · refine ⟨info.id, ?_, by rwa [hspec.rm]⟩
    rw [ContainerManager.ids, ← fst_idConfigs]
    exact List.mem_map_of_mem hkept
  · -- its container was destroyed, and so was the directory
    obtain ⟨found, hfound, hid⟩ := found_of_mem_ids hw.wf hmem
    rw [containerManagerDestroy_cg hw.wf hfound h, hid] at hd
    exact absurd ⟨hown, hremoves _ (hids _ hmem) d hown⟩
      ((mem_dirs_destroy hw.initialized).mp hd).2

/-- `stop` returns. -/
theorem containerManagerStop_returns (env : Env) (hw : w.cm.WF) (key : CStr) :
    ∃ w' r, containerManagerStop env key w = some (w', r) := by
  unfold containerManagerStop
  cases hi : w.cm.getInfo key with
  | none => exact ⟨_, _, rfl⟩
  | some i =>
    dsimp only
    rw [ContainerManager.infoAt_eq hw (ContainerManager.getInfo_lt hw hi)]
    dsimp only
    split
    · exact ⟨_, _, rfl⟩
    · exact ⟨_, _, rfl⟩

/-- `destroy` under an identifier succeeds. -/
theorem containerManagerDestroy_returns (env : Env) (hw : w.cm.WF) {key : CStr}
    (hmem : key ∈ w.cm.ids) : ∃ w', containerManagerDestroy env key w = some (w', .ok ()) := by
  obtain ⟨i, hi, hlt, -⟩ := ContainerManager.resolve_of_mem hmem
  unfold containerManagerDestroy
  rw [ContainerManager.getInfo_eq hw, hi]
  dsimp only
  rw [ContainerManager.infoAt_eq hw hlt]
  dsimp only
  split
  · obtain ⟨w₁, r₁, hstop⟩ := containerManagerStop_returns env hw w.cm.entries[i].id
    exact ⟨_, by rw [hstop]; rfl⟩
  · exact ⟨_, rfl⟩

/-- **A directory that belongs to a container can be removed**: destroying the
container does so. -/
theorem removed_of_owned (hw : w.Sound) (hids : ∀ id ∈ w.cm.ids, '/' ∉ id) (howns : w.Owns d) :
    ∃ key ∈ w.cm.ids, ∀ env, env.kernel.Removes w.cm.rm →
      ∃ w', containerManagerDestroy env key w = some (w', .ok ()) ∧ d ∉ w'.cg.dirs := by
  obtain ⟨key, hmem, hown⟩ := howns
  refine ⟨key, hmem, fun env hremoves => ?_⟩
  obtain ⟨w', hdestroy⟩ := containerManagerDestroy_returns env hw.wf hmem
  obtain ⟨found, hfound, hid⟩ := found_of_mem_ids hw.wf hmem
  refine ⟨w', hdestroy, fun hd => ?_⟩
  rw [containerManagerDestroy_cg hw.wf hfound hdestroy, hid] at hd
  exact ((mem_dirs_destroy hw.initialized).mp hd).2
    ⟨hown, hremoves _ (hids _ hmem) d hown⟩

end

/-! ## Over runs -/

/-- A world, and the directories that have been made and are still there. -/
structure Tracked where
  world : World
  made : List CStr

namespace Tracked

/-- A directory that is there after a step and was not before has been
made. -/
def Step (s : Tracked) (a : HostEvent) (s' : Tracked) : Prop :=
  HostEvent.Step s.world a s'.world ∧
    s'.made = s'.world.cg.dirs.filter (fun d => d ∈ s.made ∨ d ∉ s.world.cg.dirs)

/-- What is assumed of a step: a call is by identifier, and what is empty can
be removed. -/
def Assumed (s : Tracked) : HostEvent → Prop
  | .calls env call => env.kernel.Removes s.world.cm.rm ∧ call.ById s.world
  | .restarts _ _ => True

/-- **No directory is orphaned.** -/
def Owned (s : Tracked) : Prop := ∀ d ∈ s.made, s.world.Owns d

/-- **Every directory can still be removed**, by destroying a container. -/
def Removable (s : Tracked) : Prop :=
  ∀ d ∈ s.made, ∃ key ∈ s.world.cm.ids, ∀ env, env.kernel.Removes s.world.cm.rm →
    ∃ w', containerManagerDestroy env key s.world = some (w', .ok ()) ∧ d ∉ w'.cg.dirs

/-- **A step that keeps the owners**: no identifier with a slash in it is
given, no refused creation leaves anything behind, and a restart, as long as
there are directories, is on the same version, from a file that says what the
registry was, and reads the owner of each directory back under its
identifier. -/
def KeepsOwners (s : Tracked) : HostEvent → Prop
  | .calls env call => call.SlashFree ∧ call.Clean env s.world
  | .restarts env _ => ∀ d ∈ s.made,
    resourceManagerInit env.host basePath = some s.world.cm.rm ∧
    containerManagerCleanup env.stateFile s.world.cm s.world.file
      = some (saveState s.world.cm) ∧
    (∀ info ∈ s.world.cm.entries, Storable info) ∧
    ∃ info ∈ s.world.cm.entries, d ∈ cgroupDirs s.world.cm.rm info.id ∧
      Kept info.id ∧ survives env.load info = true

/-- A step as assumed that keeps the owners. -/
def KeepingStep (s : Tracked) (a : HostEvent) (s' : Tracked) : Prop :=
  s.Step a s' ∧ s.Assumed a ∧ s.KeepsOwners a

/-- What is known in every state. -/
structure Inv (s : Tracked) : Prop where
  sound : s.world.Sound
  no_slash : ∀ id ∈ s.world.cm.ids, '/' ∉ id
  owned : s.Owned

variable {s s' : Tracked}

theorem mem_made (h : s'.made = s'.world.cg.dirs.filter
    (fun d => d ∈ s.made ∨ d ∉ s.world.cg.dirs)) {d : CStr} :
    d ∈ s'.made ↔ d ∈ s'.world.cg.dirs ∧ (d ∈ s.made ∨ d ∉ s.world.cg.dirs) := by
  rw [h, List.mem_filter, decide_eq_true_iff]

/-- **A restart that reads the owners back** leaves the directories owned. -/
theorem owned_restart {env : InitEnv} {maxContainers : ℤ}
    (hstep : s.Step (.restarts env maxContainers) s')
    (hkeeps : s.KeepsOwners (.restarts env maxContainers)) : s'.Owned := by
  obtain ⟨hrestart, hmade⟩ := hstep
  have hinit := hrestart
  obtain ⟨⟨cm, file⟩, hinit, hworld⟩ := Option.map_eq_some_iff.mp hinit
  intro d hd
  obtain ⟨hdir, hd⟩ := (mem_made hmade).mp hd
  -- a restart makes no directory
  have hd : d ∈ s.made := hd.resolve_right (fun hnew => hnew (by rwa [← hworld] at hdir))
  obtain ⟨hhost, hfile, hsaved, info, hinfo, hown, hkept, hsurvives⟩ := hkeeps d hd
  obtain ⟨-, rm, hrm, hcm⟩ := containerManagerInit_sound hinit
  obtain rfl := Option.some.inj (hrm.symm.trans hhost)
  refine ⟨info.id, ?_, ?_⟩
  · rw [ContainerManager.ids, entries_restart_of_file hrestart hfile hsaved]
    exact List.mem_map.mpr
      ⟨_, mem_reload (List.mem_filter.mpr ⟨hinfo, hsurvives⟩) hkept 0, rfl⟩
  · rw [← hworld]
    show d ∈ cgroupDirs cm.rm info.id
    rwa [hcm]

/-- **A call leaves the directories owned**, those that are left and those it
has made. -/
theorem Inv.owned_call (h : s.Inv) {env : Env} {call : Call}
    (hstep : s.Step (.calls env call) s') (hassumed : s.Assumed (.calls env call))
    (hkeeps : s.KeepsOwners (.calls env call)) : s'.Owned := by
  obtain ⟨⟨r, hperform⟩, hmade⟩ := hstep
  obtain ⟨hremoves, hbyid⟩ := hassumed
  obtain ⟨hfree, hclean⟩ := hkeeps
  intro d hd
  obtain ⟨hdir, hd⟩ := (mem_made hmade).mp hd
  rcases hd with hd | hnew
  · exact owns_of_owned h.sound h.no_slash hremoves hperform hdir (h.owned d hd)
  · exact owns_of_made h.sound hremoves hbyid hfree hclean hperform hdir hnew

theorem Inv.step (h : s.Inv) {a : HostEvent} (hstep : s.KeepingStep a s') : s'.Inv := by
  obtain ⟨hstep, hassumed, hkeeps⟩ := hstep
  cases a with
  | calls env call =>
    exact ⟨h.sound.step hstep.1, no_slash_step h.sound h.no_slash hkeeps.1 hstep.1,
      h.owned_call hstep hassumed hkeeps⟩
  | restarts env maxContainers =>
    exact ⟨h.sound.step hstep.1, (started_of_restart hstep.1).no_slash,
      owned_restart hstep hkeeps⟩

end Tracked

/-- **No orphaned control groups.** In every run of calls by identifier and
restarts that keep the owners, from any state file on, every directory that
was made and is still there belongs to a container in the registry, and
destroying that container removes it. -/
theorem cgroups_owned {w₀ : World} {acts : List HostEvent} {s : Tracked} (h₀ : w₀.Started)
    (hrun : Run Tracked.KeepingStep ⟨w₀, []⟩ acts s) : s.Owned ∧ s.Removable := by
  have hinv₀ : (⟨w₀, []⟩ : Tracked).Inv :=
    ⟨h₀.sound, h₀.no_slash, fun _ hd => absurd hd List.not_mem_nil⟩
  have hinv : s.Inv :=
    Run.invariant (I := Tracked.Inv) (fun _ _ _ h hstep => h.step hstep) hinv₀ hrun
  exact ⟨hinv.owned, fun d hd => removed_of_owned hinv.sound hinv.no_slash (hinv.owned d hd)⟩

/-! ## Runs of one container -/

/-- A host whose processes are alive when the next process starts. -/
def InitEnv.alive : InitEnv := { InitEnv.willing 200 with load := ⟨fun _ => true, 200⟩ }

/-- The world of the next process. -/
def World.next (w : World) (env : InitEnv) : World := (restart env 0 w).getD w

theorem World.restart_next {w : World} {env : InitEnv} (h : (restart env 0 w).isSome = true) :
    restart env 0 w = some (w.next env) := by
  obtain ⟨w', hrestart⟩ := Option.isSome_iff_exists.mp h
  rw [World.next, hrestart]
  rfl

/-- A restart changes no control group. -/
theorem cg_of_restart {env : InitEnv} {maxContainers : ℤ} {w w' : World}
    (h : restart env maxContainers w = some w') : w'.cg = w.cg := by
  obtain ⟨_, -, rfl⟩ := Option.map_eq_some_iff.mp h
  rfl

/-- The container `1`, running, -/
def runningOne : ContainerInfo :=
  launchedInfo 42 100 (createdInfo ['1'] 100 (.plain (some ['1']) ["sh".toList]))

/-- its directory, -/
def dirOfOne : CStr := "/sys/fs/cgroup/mini_container_1".toList

/-- and the world in which it has been stopped. -/
def World.stoppedOne : World := World.ranOne.after (.willing (-1) 101, .stop ['1'])

theorem storable_runningOne : Storable runningOne := by
  refine ⟨plainId_printDecimal (n := 1) (by decide), ?_, ?_, ?_, ?_, ?_⟩ <;> decide

theorem step_ranOne_tracked :
    Tracked.Step ⟨.empty 1, []⟩ (.calls (.willing 42 100) (.run (.plain none ["sh".toList])))
      ⟨.ranOne, [dirOfOne]⟩ :=
  ⟨World.step_after rfl, by decide⟩

/-- The end of a process changes no directory. -/
theorem step_next {w : World} {env : InitEnv} (h : (restart env 0 w).isSome = true)
    (hdirs : w.cg.dirs = [dirOfOne, cgroupRoot]) :
    Tracked.Step ⟨w, [dirOfOne]⟩ (.restarts env 0) ⟨w.next env, [dirOfOne]⟩ := by
  have hrestart := World.restart_next h
  refine ⟨hrestart, ?_⟩
  dsimp only
  rw [cg_of_restart hrestart, hdirs]
  rfl

/-- A container that is running is read back by the next process, and owns its
directory there. -/
theorem cgroups_owned_alive :
    Tracked.Owned ⟨World.ranOne.next .alive, [dirOfOne]⟩ ∧
      Tracked.Removable ⟨World.ranOne.next .alive, [dirOfOne]⟩ := by
  have hentries : World.ranOne.cm.entries = [runningOne] := rfl
  have hkeeps : Tracked.KeepsOwners ⟨.ranOne, [dirOfOne]⟩ (.restarts .alive 0) := by
    intro d hd
    obtain rfl := List.mem_singleton.mp hd
    dsimp only
    rw [hentries, List.forall_mem_singleton]
    refine ⟨rfl, rfl, storable_runningOne, runningOne, List.mem_singleton_self _, ?_, ?_, ?_⟩ <;>
      decide
  have hrun : Run Tracked.KeepingStep ⟨.empty 1, []⟩
      [.calls (.willing 42 100) (.run (.plain none ["sh".toList])), .restarts .alive 0]
      ⟨World.ranOne.next .alive, [dirOfOne]⟩ := by
    refine Run.snoc (Run.snoc Run.nil ⟨step_ranOne_tracked, ?_, ?_⟩)
      ⟨step_next rfl rfl, trivial, hkeeps⟩
    · exact ⟨fun _ _ _ _ => rfl, trivial⟩
    · exact ⟨fun _ hid => (nomatch hid), fun _ hv => nomatch hv⟩
  exact cgroups_owned started_empty hrun

/-- **A container that has stopped leaves its directory behind**: the next
process does not know it. -/
theorem orphaned_after_restart :
    World.Started (.empty 1) ∧ ∃ s : Tracked,
      Run (fun s a s' => Tracked.Step s a s' ∧ s.Assumed a) ⟨.empty 1, []⟩
        [.calls (.willing 42 100) (.run (.plain none ["sh".toList])),
          .calls (.willing (-1) 101) (.stop ['1']), .restarts (.willing 200) 0] s ∧
      s.world.cm.ids = [] ∧ s.made = [dirOfOne] ∧ ¬ s.Owned ∧ ¬ s.Removable := by
  have hbyid : (Call.stop ['1']).ById .ranOne := by
    intro info hfound
    cases hfound
    rfl
  have hentries : World.stoppedOne.cm.entries = [stoppedInfo 101 runningOne] := rfl
  have hids : (World.stoppedOne.next (.willing 200)).cm.ids = [] := by
    rw [ContainerManager.ids, entries_restart (World.restart_next rfl) rfl (by
      rw [hentries, List.forall_mem_singleton]
      exact storable_stoppedInfo (by decide) storable_runningOne), hentries]
    decide
  refine ⟨started_empty, ⟨World.stoppedOne.next (.willing 200), [dirOfOne]⟩, ?_, hids, rfl, ?_, ?_⟩
  · refine Run.snoc (Run.snoc (Run.snoc Run.nil ⟨step_ranOne_tracked, ?_⟩)
      ⟨⟨World.step_after rfl, by decide⟩, ?_⟩) ⟨step_next rfl rfl, trivial⟩
    · exact ⟨fun _ _ _ _ => rfl, trivial⟩
    · exact ⟨fun _ _ _ _ => rfl, hbyid⟩
  · intro h
    obtain ⟨id, hid, -⟩ := h dirOfOne (List.mem_singleton_self _)
    rw [hids] at hid
    cases hid
  · intro h
    obtain ⟨key, hkey, -⟩ := h dirOfOne (List.mem_singleton_self _)
    rw [hids] at hkey
    cases hkey
