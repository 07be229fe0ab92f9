import MiniContainer.Reload

/-!
# Containers and their control groups across a restart

The name of a control group is made from the identifier of its container,
each time anew: when the group is created, when its processes are looked
for, when it is removed and when its statistics are read. A restart may
change the identifier. `Attached` says that under the identifier a
container has afterwards the paths lead to the directories its group was
made in before.

`attached_after_restart_iff` is the exact condition. The identifier has to
be one that reading the file keeps; and on version 1 the group has to be in
the hierarchy `cpu,cpuacct`, for `stop` looks into no other, although
`resource_manager_create_cgroup` falls back to `cpu` where that hierarchy
cannot be used.
-/

open CText StateFile

/-! ## Paths that fit -/

/-- An identifier that is a part of one path component. -/
structure Component (containerId : CStr) : Prop where
  no_slash : '/' ∉ containerId
  length_le : containerId.length ≤ 240

theorem component_printDecimal {n : ℤ} (hn : IsLong n) : Component (printDecimal n) :=
  ⟨not_mem_printDecimal (by decide) (by decide) n,
    (length_printDecimal_le hn).trans (by decide)⟩

/-- No hierarchy has a path longer than 26 characters. -/
theorem length_root_le {version : CgroupVersion} {root : CStr} (h : root ∈ cgroupRoots version) :
    root.length ≤ 26 := by
  have hall : ∀ version, ∀ root ∈ cgroupRoots version, root.length ≤ 26 := by
    intro version
    cases version <;> decide
  exact hall version root h

section

variable {rm : ResourceManager} {containerId root : CStr}

/-- Behind a directory in a hierarchy there is room for a name. -/
theorem length_cgroupName_add_lt (hrm : rm.cgroupPath = basePath) (hid : Component containerId)
    (hroot : root ∈ cgroupRoots rm.version) :
    (cgroupName root rm containerId).length + 28 < bufSize := by
  have hbase : rm.cgroupPath.length = 14 := by rw [hrm]; rfl
  have hlen := hid.length_le
  have hlen' := length_root_le hroot
  unfold cgroupName bufSize
  simp only [List.length_append, List.length_cons]
  omega

/-- **Paths in the hierarchies are not cut off.** -/
theorem length_cgroupFile_lt (hrm : rm.cgroupPath = basePath) (hid : Component containerId)
    (hroot : root ∈ cgroupRoots rm.version) {name : CStr} (hname : name.length ≤ 26) :
    (cgroupName root rm containerId ++ '/' :: name).length < bufSize := by
  have h := length_cgroupName_add_lt hrm hid hroot
  rw [List.length_append, List.length_cons]
  omega

theorem length_cgroupName_lt (hrm : rm.cgroupPath = basePath) (hid : Component containerId)
    (hroot : root ∈ cgroupRoots rm.version) :
    (cgroupName root rm containerId).length < bufSize := by
  have h := length_cgroupName_add_lt hrm hid hroot
  omega

/-- Directories of a manager name their container. -/
theorem eq_of_cgroupDir_eq (hrm : rm.cgroupPath = basePath) {root' containerId' : CStr}
    (hid : Component containerId) (hid' : Component containerId')
    (hroot : root ∈ cgroupRoots rm.version) (hroot' : root' ∈ cgroupRoots rm.version)
    (h : cgroupDir root rm containerId = cgroupDir root' rm containerId') :
    root = root' ∧ containerId = containerId' := by
  refine cgroupDir_injective ?_ hid.no_slash hid'.no_slash
    (length_cgroupName_lt hrm hid hroot) (length_cgroupName_lt hrm hid' hroot') h
  rw [hrm]
  decide

/-! ## Directories that were made -/

/-- The hierarchy `stop` looks for processes in. -/
def stopRoot : CgroupVersion → CStr
  | .v2 => cgroupRoot
  | .v1 => cpuCpuacctCgroupPath

/-- The hierarchy memory statistics are read from. -/
def memoryRoot : CgroupVersion → CStr
  | .v2 => cgroupRoot
  | .v1 => memoryCgroupPath

theorem stopRoot_mem (version : CgroupVersion) : stopRoot version ∈ cgroupRoots version := by
  cases version <;> decide

theorem memoryRoot_mem (version : CgroupVersion) : memoryRoot version ∈ cgroupRoots version := by
  cases version <;> decide

theorem dirOf_stopProcsPath (hrm : rm.cgroupPath = basePath) (hid : Component containerId) :
    dirOf (stopProcsPath rm containerId) = cgroupDir (stopRoot rm.version) rm containerId := by
  have hroot := stopRoot_mem rm.version
  unfold stopProcsPath
  cases hv : rm.version <;>
  · rw [hv] at hroot
    exact dirOf_cgroupFile (by decide)
      (length_cgroupFile_lt hrm hid (by rwa [hv]) (by decide))

theorem dirOf_memoryUsageFile (hrm : rm.cgroupPath = basePath) (hid : Component containerId) :
    dirOf (memoryUsageFile rm containerId) = cgroupDir (memoryRoot rm.version) rm containerId := by
  have hroot := memoryRoot_mem rm.version
  unfold memoryUsageFile
  cases hv : rm.version <;>
  · rw [hv] at hroot
    exact dirOf_cgroupFile (by decide)
      (length_cgroupFile_lt hrm hid (by rwa [hv]) (by decide))

/-- The file the processor time is read from is in a directory the container
can have. -/
theorem dirOf_cpuUsageFile (hrm : rm.cgroupPath = basePath) (hid : Component containerId)
    {reads : CgroupReads} {path : CStr} (h : cpuUsageFile reads rm containerId = some path) :
    dirOf path ∈ cgroupDirs rm containerId := by
  unfold cpuUsageFile at h
  cases hv : rm.version with
  | v2 =>
    rw [hv] at h
    cases h
    rw [dirOf_cgroupFile (by decide)
      (length_cgroupFile_lt hrm hid (by rw [hv]; decide) (by decide))]
    exact mem_cgroupDirs (by rw [hv]; decide)
  | v1 =>
    rw [hv] at h
    obtain ⟨root, hroot, rfl⟩ := List.mem_map.mp (List.mem_of_find?_eq_some h)
    have hroot : root ∈ cgroupRoots .v1 := by
      have hall : ∀ r ∈ [cpuCpuacctCgroupPath, cpuacctCgroupPath, cpuCgroupPath],
          r ∈ cgroupRoots .v1 := by decide
      exact hall root hroot
    rw [dirOf_cgroupFile (by decide) (length_cgroupFile_lt hrm hid (by rwa [hv]) (by decide))]
    exact mem_cgroupDirs (by rwa [hv])

variable {k : Kernel} {fs : CgroupFs}

/-- **The hierarchy `stop` looks into has the container's directory**, after
a creation, on version 2 and where version 1 lets it be made. -/
def StopFinds (k : Kernel) (rm : ResourceManager) (containerId : CStr) (fs : CgroupFs) : Prop :=
  rm.version = .v1 →
    cgroupDir cpuCpuacctCgroupPath rm containerId ∈ fs.dirs ∨
      k.mkdir (cgroupDir cpuCpuacctCgroupPath rm containerId) = true

/-- What was made of the directories of a container. -/
theorem mem_dirs_makeCgroupDirs (hrm : rm.cgroupPath = basePath) (hid : Component containerId)
    (hcode : (makeCgroupDirs k rm containerId fs).2 = 0) :
    cgroupDir (memoryRoot rm.version) rm containerId
        ∈ (makeCgroupDirs k rm containerId fs).1.dirs ∧
      (cgroupDir (stopRoot rm.version) rm containerId
        ∈ (makeCgroupDirs k rm containerId fs).1.dirs ↔ StopFinds k rm containerId fs) := by
  unfold makeCgroupDirs StopFinds at *
  cases hv : rm.version with
  | v2 =>
    rw [hv] at hcode
    have hmade := (mem_dirs_makeDir hcode).mpr (Or.inl rfl)
    exact ⟨hmade, iff_of_true hmade (fun h => nomatch h)⟩
  | v1 =>
    rw [hv] at hcode
    dsimp only at hcode ⊢
    obtain ⟨-, hnext⟩ := andThen_eq_of_code hcode
    rw [hnext] at hcode ⊢
    have hmem := fun d => mem_dirs_makeDir hcode (d := d)
    have hmade := mem_dirs_makeCpuDirs k rm containerId fs
    refine ⟨(hmem _).mpr (Or.inl rfl), ?_⟩
    show cgroupDir cpuCpuacctCgroupPath rm containerId ∈ _ ↔ _
    -- none of the other directories that were made has this path
    have hroots : ∀ root ∈ [cpuCgroupPath, cpuacctCgroupPath, memoryCgroupPath],
        cgroupDir cpuCpuacctCgroupPath rm containerId ≠ cgroupDir root rm containerId := by
      intro root hroot heq
      have hmem : root ∈ cgroupRoots rm.version := by
        rw [hv]
        exact List.mem_cons_of_mem _ hroot
      have := (eq_of_cgroupDir_eq hrm hid hid (by rw [hv]; decide) hmem heq).1
      subst this
      exact absurd hroot (by decide)
    split at hmade
    · next hfinds => exact iff_of_true ((hmem _).mpr (Or.inr hmade)) (fun _ => hfinds)
    · next hnot =>
      refine iff_of_false (fun hd => ?_) (fun h => hnot (h rfl))
      rcases (hmem _).mp hd with hd | hd
      · exact hroots memoryCgroupPath (by decide) hd
      · rcases hmade _ hd with hd | hd | hd
        · exact hnot (Or.inl hd)
        · exact hroots cpuCgroupPath (by decide) hd
        · exact hroots cpuacctCgroupPath (by decide) hd

end

/-! ## Attached -/

/-- The directories of a container's control group: those it can have that
exist. -/
def home (rm : ResourceManager) (fs : CgroupFs) (containerId : CStr) : List CStr :=
  (cgroupDirs rm containerId).filter (· ∈ fs.dirs)

/-- **Under an identifier the operations find a control group**, given by
its directories: `stop` reads its processes, `destroy` removes all of it,
and `resource_manager_get_stats` measures it. -/
structure Attached (rm : ResourceManager) (reads : CgroupReads) (dirs : List CStr)
    (containerId : CStr) : Prop where
  stop : dirOf (stopProcsPath rm containerId) ∈ dirs
  destroy : ∀ dir ∈ dirs, dir ∈ cgroupDirs rm containerId
  memory : dirOf (memoryUsageFile rm containerId) ∈ dirs
  cpu : ∀ path, cpuUsageFile reads rm containerId = some path → reads.access path = true →
    dirOf path ∈ dirs

/-- **When a container is attached under an identifier** to the group that
was created under its own: the two are the same, and the group is where
`stop` looks for it. -/
theorem attached_iff {rm : ResourceManager} {k : Kernel} {fs : CgroupFs}
    {limits : ResourceLimits} {reads : CgroupReads} {containerId containerId' : CStr}
    (hrm : rm.cgroupPath = basePath) (hid : Component containerId)
    (hid' : Component containerId')
    (hcode : (resourceManagerCreateCgroup k rm containerId limits fs).2 = 0)
    (hreads : ∀ path, reads.access path = true →
      dirOf path ∈ (resourceManagerCreateCgroup k rm containerId limits fs).1.dirs) :
    Attached rm reads
        (home rm (resourceManagerCreateCgroup k rm containerId limits fs).1 containerId)
        containerId' ↔
      containerId' = containerId ∧ StopFinds k rm containerId fs := by
  obtain ⟨hmade, hdirs⟩ := create_of_code hcode
  obtain ⟨hmemory, hstop⟩ := mem_dirs_makeCgroupDirs hrm hid hmade
  rw [← hdirs] at hmemory hstop
  generalize (resourceManagerCreateCgroup k rm containerId limits fs).1 = fs' at *
  have hhome : ∀ {d : CStr}, d ∈ home rm fs' containerId ↔
      d ∈ cgroupDirs rm containerId ∧ d ∈ fs'.dirs := by
    intro d
    rw [home, List.mem_filter, decide_eq_true_iff]
  have hroot : ∀ {root : CStr}, root ∈ cgroupRoots rm.version →
      cgroupDir root rm containerId ∈ cgroupDirs rm containerId :=
    fun hmem => List.mem_map.mpr ⟨_, hmem, rfl⟩
  constructor
  · intro h
    obtain ⟨hcan, hexists⟩ := hhome.mp h.stop
    rw [dirOf_stopProcsPath hrm hid'] at hcan hexists
    obtain ⟨root, hmem, heq⟩ := List.mem_map.mp hcan
    -- where `stop` looks, one of the directories has to be: that fixes the identifier
    obtain ⟨-, rfl⟩ := eq_of_cgroupDir_eq hrm hid hid' hmem (stopRoot_mem rm.version) heq
    exact ⟨rfl, hstop.mp hexists⟩
  · rintro ⟨rfl, hfinds⟩
    refine ⟨?_, fun dir hdir => (hhome.mp hdir).1, ?_, fun path hpath haccess => ?_⟩
    · rw [dirOf_stopProcsPath hrm hid]
      exact hhome.mpr ⟨hroot (stopRoot_mem _), hstop.mpr hfinds⟩
    · rw [dirOf_memoryUsageFile hrm hid]
      exact hhome.mpr ⟨hroot (memoryRoot_mem _), hmemory⟩
    · exact hhome.mpr ⟨dirOf_cpuUsageFile hrm hid hpath, hreads path haccess⟩

/-! ## After a restart -/

/-- The counter in front of a record. -/
def counterAt (ids : List CStr) (i : ℕ) : ℤ := (ids.take i).foldl countId 0

/-- **An identifier that a restart leaves as it is**: it denotes a number, or
it is the text that is given out behind the end of `int`. -/
def KeptAt (ids : List CStr) (i : ℕ) (containerId : CStr) : Prop :=
  Kept containerId ∨ (counterAt ids i = intMax ∧ containerId = printDecimal (-2 ^ 31))

theorem foldl_countId_bounds (ids : List CStr) {m : ℤ} (hm : 0 ≤ m) (hmax : m ≤ intMax) :
    0 ≤ ids.foldl countId m ∧ ids.foldl countId m ≤ intMax := by
  induction ids generalizing m with
  | nil => exact ⟨hm, hmax⟩
  | cons id ids ih => exact ih (hm.trans (le_countId hmax id)) (countId_le hmax id)

theorem loadedAs_eq_self_iff {m : ℤ} (hm : 0 ≤ m) (hmax : m ≤ intMax) (id : CStr) :
    loadedAs m id = id ↔ Kept id ∨ (m = intMax ∧ id = printDecimal (-2 ^ 31)) := by
  unfold loadedAs
  by_cases hkept : Kept id
  · rw [if_pos hkept]
    exact iff_of_true rfl (Or.inl hkept)
  · rw [if_neg hkept, or_iff_right hkept]
    by_cases hend : m = intMax
    · subst hend
      rw [and_iff_right rfl]
      exact eq_comm
    · refine iff_of_false (fun heq => hkept ?_) (fun h => hend h.1)
      rw [Kept, ← heq, extractNumericId_next hm hmax, if_neg hend]
      omega

/-- The entry at an index after reloading. -/
theorem getElem?_reload (m : ℤ) (l : List ContainerInfo) (i : ℕ) :
    (reload m l)[i]? = l[i]?.map (fun info =>
      { info with
        id := loadedAs (((l.map ContainerInfo.id).take i).foldl countId m) info.id
        savedConfig := none }) := by
  induction l generalizing m i with
  | nil => rfl
  | cons info rest ih =>
    cases i with
    | zero => rfl
    | succ i =>
      rw [reload, List.getElem?_cons_succ, ih]
      rfl

/-- **A restart leaves a container attached to its control group exactly if
it leaves it its identifier**, and the group is where `stop` looks for
it. For each container of a registry of live ones, the entry in its place
after the restart is the container, with the identifier it was loaded
under. -/
theorem attached_after_restart_iff {env : InitEnv} {maxContainers : ℤ}
    {saved cm : ContainerManager} {file : Option CStr}
    (hsaved : ∀ info ∈ saved.entries, Storable info ∧ Component info.id)
    (hlive : ∀ info ∈ saved.entries, info.state = .created ∨
      (info.state = .running ∧ isPidAlive env.load info.pid))
    (hrm : resourceManagerInit env.host basePath = some saved.rm)
    (hinit : containerManagerInit env maxContainers (some (saveState saved)) = some (cm, file))
    {i : ℕ} {info : ContainerInfo} (hinfo : saved.entries[i]? = some info)
    {k : Kernel} {fs : CgroupFs} {limits : ResourceLimits} {reads : CgroupReads}
    (hcode : (resourceManagerCreateCgroup k saved.rm info.id limits fs).2 = 0)
    (hreads : ∀ path, reads.access path = true →
      dirOf path ∈ (resourceManagerCreateCgroup k saved.rm info.id limits fs).1.dirs) :
    ∃ info', cm.entries[i]? = some info' ∧
      info' = { info with id := info'.id, savedConfig := none } ∧
      (Attached cm.rm reads
          (home saved.rm (resourceManagerCreateCgroup k saved.rm info.id limits fs).1 info.id)
          info'.id ↔
        KeptAt saved.ids i info.id ∧ StopFinds k saved.rm info.id fs) := by
  obtain ⟨fresh, hwf, hempty, hrm', rfl, -⟩ := containerManagerInit_some hinit
  have hpath := cgroupPath_of_resourceManagerInit hrm
  have hstorable := fun info hmem => (hsaved info hmem).1
  have hfilter : saved.entries.filter (fun info => survives env.load info) = saved.entries := by
    refine List.filter_eq_self.mpr (fun info hmem => ?_)
    rcases hlive info hmem with hstate | ⟨hstate, halive⟩
    · simp [survives, hstate]
    · simp [survives, hstate, halive]
  -- every container survives, so the entries keep their places
  have hentries := entries_loadState_saveState env.load hstorable hwf hempty
  rw [hfilter] at hentries
  have hloaded := congrArg (fun l => l[i]?) hentries
  rw [getElem?_reload, hinfo, Option.map_some] at hloaded
  have hcomp := (hsaved info (List.mem_of_getElem? hinfo)).2
  obtain ⟨hm, hmax⟩ := foldl_countId_bounds (saved.ids.take i) le_rfl
    (show (0 : ℤ) ≤ intMax by decide)
  have hcomp' : Component (loadedAs (counterAt saved.ids i) info.id) := by
    unfold loadedAs
    split
    · exact hcomp
    · exact component_printDecimal (isInt_wrap32 _).isLong
  have hsame : (loadState env.load (saveState saved) fresh).1.rm = saved.rm := by
    rw [(loadState_saveState env.load hstorable hwf).2.2]
    exact Option.some.inj (hrm'.symm.trans hrm)
  refine ⟨_, hloaded, rfl, ?_⟩
  rw [hsame]
  refine (attached_iff hpath hcomp hcomp' hcode hreads).trans (and_congr_left' ?_)
  exact loadedAs_eq_self_iff hm hmax info.id

/-- Limits that ask for nothing. -/
def noLimits : ResourceLimits := ⟨⟨0, 0, 0⟩, ⟨0, 0⟩, 0⟩

/-- Nothing can be read. -/
def noReads : CgroupReads := ⟨fun _ => false, fun _ => none⟩

/-- The control group of a container that was just created on an empty
file system. -/
def groupOf (containerId : CStr) : CgroupFs :=
  (resourceManagerCreateCgroup .willing (ContainerManager.ofList []).rm containerId noLimits
    ⟨[], fun _ => []⟩).1

/-- **A container called `web` is detached by a restart**: it comes back as
`1`, and under that name nothing leads to its control group. -/
theorem web_detached_after_restart :
    ∃ cm file info', containerManagerInit (.willing 200) 0
        (some (saveState (.ofList [createdInfo "web".toList 100 (.plain none [])])))
        = some (cm, file) ∧
      cm.entries = [info'] ∧ info'.id = ['1'] ∧
      ¬ Attached cm.rm noReads (home cm.rm (groupOf "web".toList) "web".toList) info'.id := by
  have hweb : PlainId "web".toList :=
    ⟨by decide, by decide, by decide, by decide, by decide, by decide⟩
  have hstorable : ∀ info ∈ (ContainerManager.ofList
      [createdInfo "web".toList 100 (.plain none [])]).entries, Storable info := by
    rw [ContainerManager.entries_ofList, List.forall_mem_singleton]
    exact storable_createdInfo hweb (by decide)
  have hinit : containerManagerInit (.willing 200) 0
      (some (saveState (.ofList [createdInfo "web".toList 100 (.plain none [])])))
      = some (_, _) := rfl
  obtain ⟨fresh, hwf, hempty, hrm, hcm, -⟩ := containerManagerInit_some hinit
  obtain ⟨-, hentries, hsame⟩ := loadState_saveState (InitEnv.willing 200).load hstorable hwf
  rw [hempty, ContainerManager.entries_ofList] at hentries
  rw [← hcm] at hentries hsame
  have hrm : fresh.rm = (ContainerManager.ofList []).rm :=
    (Option.some.inj (hrm.symm.trans (show resourceManagerInit (InitEnv.willing 200).host basePath
      = some (ContainerManager.ofList []).rm by decide)))
  refine ⟨_, _, _, hinit, hentries, by decide, ?_⟩
  rw [hsame, hrm, groupOf, attached_iff rfl ⟨by decide, by decide⟩ ⟨by decide, by decide⟩
    (by decide) (fun _ h => absurd h Bool.false_ne_true)]
  rintro ⟨hid, -⟩
  exact absurd hid (by decide)

/-- A container called `1` stays attached. -/
theorem attached_after_restart_one :
    ∃ cm file info', containerManagerInit (.willing 200) 0
        (some (saveState (.ofList [createdInfo ['1'] 100 (.plain none [])]))) = some (cm, file) ∧
      cm.entries[0]? = some info' ∧
      Attached cm.rm noReads (home (ContainerManager.ofList []).rm (groupOf ['1']) ['1'])
        info'.id := by
  have hinit : containerManagerInit (.willing 200) 0
      (some (saveState (.ofList [createdInfo ['1'] 100 (.plain none [])]))) = some (_, _) := rfl
  have hone : (ContainerManager.ofList [createdInfo ['1'] 100 (.plain none [])]).entries[0]?
      = some (createdInfo ['1'] 100 (.plain none [])) := by
    rw [ContainerManager.entries_ofList]
    rfl
  have hcode : (resourceManagerCreateCgroup .willing (ContainerManager.ofList []).rm ['1']
      noLimits ⟨[], fun _ => []⟩).2 = 0 := by decide
  have hreads : ∀ path, noReads.access path = true → dirOf path ∈ (groupOf ['1']).dirs :=
    fun _ h => absurd h Bool.false_ne_true
  obtain ⟨info', hentry, -, hattached⟩ := attached_after_restart_iff (by
      rw [ContainerManager.entries_ofList, List.forall_mem_singleton]
      exact ⟨storable_createdInfo (plainId_printDecimal (n := 1) (by decide)) (by decide),
        component_printDecimal (n := 1) (by decide)⟩)
    (by
      rw [ContainerManager.entries_ofList, List.forall_mem_singleton]
      exact Or.inl rfl)
    (by decide) hinit hone hcode hreads
  exact ⟨_, _, info', hinit, hentry,
    hattached.mpr ⟨Or.inl (by decide), fun h => nomatch h⟩⟩
