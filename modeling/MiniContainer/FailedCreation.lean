import MiniContainer.Ownership

/-!
# A control group that could not be created

On version 1 the directory for memory is made last. Where it cannot be made
`resource_manager_create_cgroup` returns -1, and what it made for processors
before stays: `container_manager_create`, which removes the control group where
a later step fails, does not remove it here.

Whether anything stays is decided by the directories there are and by what the
kernel lets be made. `failed_creation_iff` is the exact condition, for the call
itself and for the creation of a container that fails with it.
-/

open CText

section

variable {k : Kernel} {rm : ResourceManager} {containerId : CStr} {fs : CgroupFs}

/-- The directory of a container in a hierarchy is not there and can be made. -/
def Makes (k : Kernel) (rm : ResourceManager) (containerId : CStr) (fs : CgroupFs)
    (root : CStr) : Prop :=
  cgroupDir root rm containerId ∉ fs.dirs ∧ k.mkdir (cgroupDir root rm containerId) = true

/-- It is there or can be made. -/
def Usable (k : Kernel) (rm : ResourceManager) (containerId : CStr) (fs : CgroupFs)
    (root : CStr) : Prop :=
  cgroupDir root rm containerId ∈ fs.dirs ∨ k.mkdir (cgroupDir root rm containerId) = true

/-- **A directory for processors is made**: the one in `cpu,cpuacct`; or, where
that hierarchy cannot be used, the one in `cpu`; or else the one in `cpuacct`
beside one in `cpu` that was there. -/
def MakesCpuDir (k : Kernel) (rm : ResourceManager) (containerId : CStr) (fs : CgroupFs) : Prop :=
  Makes k rm containerId fs cpuCpuacctCgroupPath ∨
    (¬ Usable k rm containerId fs cpuCpuacctCgroupPath ∧
      (Makes k rm containerId fs cpuCgroupPath ∨
        (cgroupDir cpuCgroupPath rm containerId ∈ fs.dirs ∧
          Makes k rm containerId fs cpuacctCgroupPath)))

/-- `mkdir` finds the directory, makes it or fails. -/
theorem mkdirOrExist_cases (k : Kernel) (path : CStr) (fs : CgroupFs) :
    (path ∈ fs.dirs ∧ mkdirOrExist k path fs = some fs) ∨
    (path ∉ fs.dirs ∧ k.mkdir path = true ∧ mkdirOrExist k path fs = some (fs.make path)) ∨
    ((path ∉ fs.dirs ∧ ¬ k.mkdir path = true) ∧ mkdirOrExist k path fs = none) := by
  unfold mkdirOrExist
  by_cases hmem : path ∈ fs.dirs
  · exact Or.inl ⟨hmem, if_pos hmem⟩
  · rw [if_neg hmem]
    by_cases hk : k.mkdir path = true
    · exact Or.inr (Or.inl ⟨hmem, hk, if_pos hk⟩)
    · exact Or.inr (Or.inr ⟨⟨hmem, hk⟩, if_neg hk⟩)

/-! ## The directories for processors -/

/-- **What making the directories for processors does**: nothing is made, or one
that was not there. -/
theorem makeCpuDirs_makes (k : Kernel) (rm : ResourceManager) (containerId : CStr)
    (fs : CgroupFs) :
    (¬ MakesCpuDir k rm containerId fs ∧ (makeCpuDirs k rm containerId fs).1 = fs) ∨
    (MakesCpuDir k rm containerId fs ∧ (makeCpuDirs k rm containerId fs).2 = 0 ∧
      ∃ root ∈ [cpuCpuacctCgroupPath, cpuCgroupPath, cpuacctCgroupPath],
        cgroupDir root rm containerId ∉ fs.dirs ∧
        cgroupDir root rm containerId ∈ (makeCpuDirs k rm containerId fs).1.dirs) := by
  unfold makeCpuDirs
  rcases mkdirOrExist_cases k (cgroupDir cpuCpuacctCgroupPath rm containerId) fs with
    ⟨hmem, h⟩ | ⟨hmem, hk, h⟩ | ⟨⟨hmem, hk⟩, h⟩ <;> rw [h] <;> dsimp only
  · refine Or.inl ⟨?_, rfl⟩
    rintro (hmakes | ⟨hunusable, -⟩)
    · exact hmakes.1 hmem
    · exact hunusable (Or.inl hmem)
  · exact Or.inr ⟨Or.inl ⟨hmem, hk⟩, rfl, cpuCpuacctCgroupPath, by decide, hmem,
      List.mem_cons_self⟩
  · have hfallback : MakesCpuDir k rm containerId fs ↔
        Makes k rm containerId fs cpuCgroupPath ∨
          (cgroupDir cpuCgroupPath rm containerId ∈ fs.dirs ∧
            Makes k rm containerId fs cpuacctCgroupPath) := by
      unfold MakesCpuDir
      rw [or_iff_right (fun hmakes : Makes k rm containerId fs cpuCpuacctCgroupPath => hk hmakes.2)]
      exact and_iff_right (not_or.mpr ⟨hmem, hk⟩)
    rw [hfallback]
    rcases mkdirOrExist_cases k (cgroupDir cpuCgroupPath rm containerId) fs with
      ⟨hmem, h⟩ | ⟨hmem, hk, h⟩ | ⟨⟨hmem, hk⟩, h⟩ <;> rw [h] <;> dsimp only
    · -- the one in `cpu` was there, so the one in `cpuacct` decides
      rw [or_iff_right (fun hmakes : Makes k rm containerId fs cpuCgroupPath => hmakes.1 hmem),
        and_iff_right hmem]
      rcases mkdirOrExist_cases k (cgroupDir cpuacctCgroupPath rm containerId) fs with
        ⟨hmem, h⟩ | ⟨hmem, hk, h⟩ | ⟨⟨hmem, hk⟩, h⟩ <;> rw [h]
      · exact Or.inl ⟨fun hmakes => hmakes.1 hmem, rfl⟩
      · exact Or.inr ⟨⟨hmem, hk⟩, rfl, cpuacctCgroupPath, by decide, hmem, List.mem_cons_self⟩
      · exact Or.inl ⟨fun hmakes => hk hmakes.2, rfl⟩
    · refine Or.inr ⟨Or.inl ⟨hmem, hk⟩, rfl, cpuCgroupPath, by decide, hmem, ?_⟩
      cases hacct : mkdirOrExist k (cgroupDir cpuacctCgroupPath rm containerId)
          (fs.make (cgroupDir cpuCgroupPath rm containerId)) with
      | none => exact List.mem_cons_self
      | some fs₁ => exact (mem_dirs_of_mkdirOrExist hacct).mpr (Or.inr List.mem_cons_self)
    · refine Or.inl ⟨?_, rfl⟩
      rintro (hmakes | ⟨hcpu, -⟩)
      · exact hk hmakes.2
      · exact hmem hcpu

/-- The first directories for processors are not the one for memory, however
long the name of the container is. -/
theorem cgroupDir_memory_ne {root : CStr}
    (hroot : root ∈ [cpuCpuacctCgroupPath, cpuCgroupPath, cpuacctCgroupPath]) :
    cgroupDir memoryCgroupPath rm containerId ≠ cgroupDir root rm containerId := by
  have hstart : ∀ r ∈ [memoryCgroupPath, cpuCpuacctCgroupPath, cpuCgroupPath, cpuacctCgroupPath],
      16 ≤ r.length := by decide
  have htake : ∀ r ∈ [memoryCgroupPath, cpuCpuacctCgroupPath, cpuCgroupPath, cpuacctCgroupPath],
      (cgroupDir r rm containerId).take 16 = r.take 16 := by
    intro r hr
    unfold cgroupDir snprintf cgroupName bufSize
    rw [List.take_take, show min 16 (512 - 1) = 16 from rfl]
    exact List.take_append_of_le_length (hstart r hr)
  have hne : ∀ r ∈ [cpuCpuacctCgroupPath, cpuCgroupPath, cpuacctCgroupPath],
      memoryCgroupPath.take 16 ≠ r.take 16 := by decide
  intro h
  have h := congrArg (List.take 16) h
  rw [htake _ List.mem_cons_self, htake _ (List.mem_cons_of_mem _ hroot)] at h
  exact hne root hroot h

/-- What is there after the directories for processors were made. -/
theorem mem_memory_makeCpuDirs :
    cgroupDir memoryCgroupPath rm containerId ∈ (makeCpuDirs k rm containerId fs).1.dirs ↔
      cgroupDir memoryCgroupPath rm containerId ∈ fs.dirs := by
  refine makeCpuDirs_preserves (P := fun fs' => cgroupDir memoryCgroupPath rm containerId
    ∈ fs'.dirs ↔ cgroupDir memoryCgroupPath rm containerId ∈ fs.dirs) ?_ Iff.rfl
  intro root hroot fs' fs'' hsame hmade
  rw [mem_dirs_of_mkdirOrExist hmade, or_iff_right (cgroupDir_memory_ne hroot)]
  exact hsame

/-! ## All directories -/

/-- **Nothing stays behind**: no directory is made before the one for memory, or
that one can be had. -/
def LeavesNothing (k : Kernel) (rm : ResourceManager) (containerId : CStr) (fs : CgroupFs) :
    Prop :=
  rm.initialized = true → rm.version = .v1 → MakesCpuDir k rm containerId fs →
    Usable k rm containerId fs memoryCgroupPath

/-- A directory could not be made. -/
theorem makeDir_code_ne_zero_iff {path : CStr} :
    (makeDir k path fs).2 ≠ 0 ↔ ¬ (path ∈ fs.dirs ∨ k.mkdir path = true) := by
  rw [← mkdirOrExist_eq_none_iff, makeDir]
  cases mkdirOrExist k path fs <;> simp

/-- Setting limits does not change what a creation returns. -/
theorem create_code (hinit : rm.initialized = true) (limits : ResourceLimits) :
    (resourceManagerCreateCgroup k rm containerId limits fs).2 = -1 ↔
      (makeCgroupDirs k rm containerId fs).2 ≠ 0 := by
  unfold resourceManagerCreateCgroup andThen
  rw [if_pos hinit]
  split
  · next hcode => exact iff_of_false (by simp) (not_not.mpr hcode)
  · next hcode => exact iff_of_true rfl hcode

theorem create_code_of_ne_zero {limits : ResourceLimits}
    (h : (resourceManagerCreateCgroup k rm containerId limits fs).2 ≠ 0) :
    (resourceManagerCreateCgroup k rm containerId limits fs).2 = -1 := by
  by_cases hinit : rm.initialized = true
  · refine (create_code hinit limits).mpr (fun hmade => h ?_)
    rw [resourceManagerCreateCgroup, if_pos hinit, andThen, if_pos hmade]
  · rw [resourceManagerCreateCgroup, if_neg hinit]

theorem create_dirs (hinit : rm.initialized = true) (limits : ResourceLimits) :
    (resourceManagerCreateCgroup k rm containerId limits fs).1.dirs
      = (makeCgroupDirs k rm containerId fs).1.dirs := by
  unfold resourceManagerCreateCgroup
  rw [if_pos hinit, andThen_dirs rfl (fun _ => applyLimits_dirs _ _ _ _ _)]

/-- **When a control group that could not be created leaves no directory.** -/
theorem create_leaves_nothing_iff (limits : ResourceLimits) :
    ((resourceManagerCreateCgroup k rm containerId limits fs).2 = -1 →
        ∀ d, d ∈ (resourceManagerCreateCgroup k rm containerId limits fs).1.dirs ↔ d ∈ fs.dirs) ↔
      LeavesNothing k rm containerId fs := by
  by_cases hinit : rm.initialized = true
  swap
  · refine iff_of_true (fun _ d => ?_) (fun h => absurd h hinit)
    rw [resourceManagerCreateCgroup, if_neg hinit]
  rw [create_code hinit, create_dirs hinit, makeCgroupDirs]
  cases hv : rm.version with
  | v2 =>
    refine iff_of_true (fun hcode d => ?_) (fun _ h => absurd (hv.symm.trans h) (by decide))
    rw [(makeDir_cases k _ fs).resolve_left hcode]
  | v1 =>
    dsimp only
    rcases makeCpuDirs_makes k rm containerId fs with ⟨hnone, hsame⟩ |
      ⟨hmakes, hcode, root, hroot, hnew, hmade⟩
    · refine iff_of_true (fun hfails d => ?_) (fun _ _ h => absurd h hnone)
      unfold andThen at hfails ⊢
      split at hfails
      · next hcode =>
        rw [if_pos hcode, hsame] at *
        rw [(makeDir_cases k _ fs).resolve_left hfails]
      · next hcode => rw [if_neg hcode, hsame]
    · -- a directory was made, so the one for memory has to be had
      rw [andThen, if_pos hcode]
      constructor
      · intro hsame _ _ _
        by_contra hunusable
        rw [Usable, ← mem_memory_makeCpuDirs (k := k)] at hunusable
        have hfails := makeDir_code_ne_zero_iff.mpr hunusable
        have hstays := (makeDir_cases k _ _).resolve_left hfails
        refine hnew ((hsame hfails _).mp ?_)
        rwa [hstays]
      · intro h hfails
        rw [makeDir_code_ne_zero_iff, mem_memory_makeCpuDirs] at hfails
        exact absurd (h hinit hv hmakes) hfails

end

/-! ## The creation of a container -/

section

variable {env : Env} {config : ContainerConfig} {w w' : World}

/-- **A container that is not created for want of a control group**: nothing is
removed, and all else stays as it was. -/
theorem containerManagerCreate_noCgroup (hw : w.cm.WF)
    (h : containerManagerCreate env config w = some (w', .error .noCgroup)) :
    (resourceManagerCreateCgroup env.kernel w.cm.rm (createdId w.cm.entries config)
        config.resLimits w.cg).2 = -1 ∧
      w' = { w with
        cg := (resourceManagerCreateCgroup env.kernel w.cm.rm (createdId w.cm.entries config)
          config.resLimits w.cg).1 } := by
  unfold containerManagerCreate at h
  rw [getD_generateContainerId hw config] at h
  split at h
  · cases h
  split at h
  · cases h
  split at h
  · cases h
  split at h
  · have h := Option.some.inj h
    unfold addCreated at h
    dsimp only at h
    split at h
    · next hcode =>
      cases h
      exact ⟨create_code_of_ne_zero hcode, rfl⟩
    · split at h
      · cases h
      · split at h <;> cases h
  · cases h
  · cases h

/-- **When a creation that fails for want of a control group leaves no
directory of it**: exactly if nothing is made before the directory for memory,
or that one can be had. This is about `resource_manager_create_cgroup` alone,
and about `container_manager_create` where it fails with it. -/
theorem failed_creation_iff (hw : w.cm.WF) :
    (∀ k rm containerId limits fs,
      ((resourceManagerCreateCgroup k rm containerId limits fs).2 = -1 →
          ∀ d, d ∈ (resourceManagerCreateCgroup k rm containerId limits fs).1.dirs ↔
            d ∈ fs.dirs) ↔
        LeavesNothing k rm containerId fs) ∧
    (containerManagerCreate env config w = some (w', .error .noCgroup) →
      ((∀ d, d ∈ w'.cg.dirs ↔ d ∈ w.cg.dirs) ↔
        LeavesNothing env.kernel w.cm.rm (createdId w.cm.entries config) w.cg)) := by
  refine ⟨fun _ _ _ limits _ => create_leaves_nothing_iff limits, fun h => ?_⟩
  obtain ⟨hcode, rfl⟩ := containerManagerCreate_noCgroup hw h
  rw [← create_leaves_nothing_iff config.resLimits]
  exact ⟨fun hsame _ => hsame, fun hsame => hsame hcode⟩

end

/-- A host with both hierarchies of version 1, on which nothing can be made in
the one for memory. -/
def Env.noMemory : Env :=
  { Env.willing (-1) 100 with kernel := .mounted [cpuCpuacctCgroupPath] }

/-- A process without containers there. -/
def World.noMemory : World :=
  { World.separate with cg := ⟨[cpuCpuacctCgroupPath, memoryCgroupPath], fun _ => []⟩ }

/-- **A container is refused and its directory for processors stays.** -/
theorem refused_creation_leaves_directory :
    ∃ w', containerManagerCreate .noMemory (.plain (some ['c']) ["sh".toList]) .noMemory
        = some (w', .error .noCgroup) ∧
      cgroupDir cpuCpuacctCgroupPath World.noMemory.cm.rm ['c'] ∉ World.noMemory.cg.dirs ∧
      cgroupDir cpuCpuacctCgroupPath World.noMemory.cm.rm ['c'] ∈ w'.cg.dirs := by
  exact ⟨_, rfl, by decide, by decide⟩

/-- On a host with nothing mounted for processors either, nothing stays. -/
theorem failed_creation_iff_bare :
    ∃ w', containerManagerCreate { Env.noMemory with kernel := .mounted [] }
        (.plain (some ['c']) ["sh".toList]) .noMemory = some (w', .error .noCgroup) ∧
      ∀ d, d ∈ w'.cg.dirs ↔ d ∈ World.noMemory.cg.dirs := by
  have hwf : World.noMemory.cm.WF := ContainerManager.fresh_wf _ (by decide)
  have hcreate : containerManagerCreate { Env.noMemory with kernel := .mounted [] }
      (.plain (some ['c']) ["sh".toList]) .noMemory = some (_, .error .noCgroup) := rfl
  refine ⟨_, hcreate, ((failed_creation_iff hwf).2 hcreate).mpr ?_⟩
  have hnone : ∀ root, ¬ Makes (.mounted []) World.noMemory.cm.rm ['c'] World.noMemory.cg root :=
    fun root hmakes => absurd hmakes.2 (by simp [Kernel.mounted])
  rintro - - (hmakes | ⟨-, hmakes | ⟨-, hmakes⟩⟩)
  · exact absurd hmakes (hnone _)
  · exact absurd hmakes (hnone _)
  · exact absurd hmakes (hnone _)
