import MiniContainer.Attachment

/-!
# The control files of a container

What `resource_manager_create_cgroup` writes, as data: which directory, which
files in it and which values, in the order of the writes. `set_cpu_limits`
and `set_memory_limits` interleave the writes with tests of their codes; where
no write fails, and no path is cut off, all that remains of them is the list
(`applyLimits_eq`), and what a file holds afterwards is read off the list
(`latest_putAll`).
-/

open CText

/-! ## Writing a list of files -/

/-- A write that succeeds. -/
def CgroupFs.put (fs : CgroupFs) (path value : CStr) : CgroupFs :=
  { fs with files := Function.update fs.files path (value :: fs.files path) }

/-- Writes to files of one directory that succeed, in order. -/
def CgroupFs.putAll (fs : CgroupFs) (dir : CStr) (values : List (CStr × CStr)) : CgroupFs :=
  values.foldl (fun fs w => fs.put (dir ++ '/' :: w.1) w.2) fs

/-- What a file holds: the latest value written to it. -/
def CgroupFs.latest (fs : CgroupFs) (path : CStr) : Option CStr := (fs.files path).head?

@[simp] theorem CgroupFs.put_dirs (fs : CgroupFs) (path value : CStr) :
    (fs.put path value).dirs = fs.dirs := rfl

theorem CgroupFs.files_put_self (fs : CgroupFs) (path value : CStr) :
    (fs.put path value).files path = value :: fs.files path := Function.update_self _ _ _

theorem CgroupFs.files_put_of_ne (fs : CgroupFs) {path p : CStr} (h : p ≠ path)
    (value : CStr) : (fs.put path value).files p = fs.files p := Function.update_of_ne h _ _

@[simp] theorem CgroupFs.latest_put_self (fs : CgroupFs) (path value : CStr) :
    (fs.put path value).latest path = some value :=
  congrArg List.head? (fs.files_put_self path value)

theorem CgroupFs.latest_put_of_ne (fs : CgroupFs) {path p : CStr} (h : p ≠ path)
    (value : CStr) : (fs.put path value).latest p = fs.latest p :=
  congrArg List.head? (fs.files_put_of_ne h value)

/-- The last value a list writes to a name. -/
def lastValue (values : List (CStr × CStr)) (name : CStr) : Option CStr :=
  (values.reverse.find? (fun w => w.1 = name)).map Prod.snd

/-- The values a list writes to a name, the latest first. -/
def valuesOf (values : List (CStr × CStr)) (name : CStr) : List CStr :=
  ((values.filter (fun w => w.1 = name)).map Prod.snd).reverse

/-- The first of them is the last value. -/
theorem head?_valuesOf (values : List (CStr × CStr)) (name : CStr) :
    (valuesOf values name).head? = lastValue values name := by
  unfold valuesOf lastValue
  rw [← List.map_reverse, List.head?_map, ← List.filter_reverse, List.head?_filter]

theorem CgroupFs.putAll_dirs (fs : CgroupFs) (dir : CStr) (values : List (CStr × CStr)) :
    (fs.putAll dir values).dirs = fs.dirs := by
  unfold putAll
  induction values generalizing fs with
  | nil => rfl
  | cons w values ih => rw [List.foldl_cons, ih, put_dirs]

/-- What has been written to a file of the directory after the writes. -/
theorem CgroupFs.files_putAll (fs : CgroupFs) (dir : CStr) (values : List (CStr × CStr))
    (name : CStr) :
    (fs.putAll dir values).files (dir ++ '/' :: name)
      = valuesOf values name ++ fs.files (dir ++ '/' :: name) := by
  unfold putAll valuesOf
  induction values generalizing fs with
  | nil => rfl
  | cons w values ih =>
    rw [List.foldl_cons, ih]
    by_cases hw : w.1 = name
    · rw [List.filter_cons_of_pos (by simpa using hw), List.map_cons, List.reverse_cons,
        List.append_assoc, hw, files_put_self]
      rfl
    · have hne : dir ++ '/' :: name ≠ dir ++ '/' :: w.1 :=
        fun he => hw (List.cons.inj (List.append_cancel_left he)).2.symm
      rw [List.filter_cons_of_neg (by simpa using hw), files_put_of_ne _ hne]

/-- **What a file of the directory holds after the writes**: the last value
written to it, or what it held before. -/
theorem CgroupFs.latest_putAll (fs : CgroupFs) (dir : CStr) (values : List (CStr × CStr))
    (name : CStr) :
    (fs.putAll dir values).latest (dir ++ '/' :: name)
      = (lastValue values name).or (fs.latest (dir ++ '/' :: name)) := by
  unfold latest
  rw [files_putAll, List.head?_append, head?_valuesOf]

/-- Two paths to files name the same directory and the same file. -/
theorem eq_of_path_eq {dir dir' name name' : CStr} (hname : '/' ∉ name) (hname' : '/' ∉ name')
    (h : dir ++ '/' :: name = dir' ++ '/' :: name') : dir = dir' ∧ name = name' := by
  have hdir := congrArg dirOf h
  rw [dirOf_append hname, dirOf_append hname'] at hdir
  subst hdir
  exact ⟨rfl, (List.cons.inj (List.append_cancel_left h)).2⟩

/-- A file that is not one of those written to is left alone. -/
theorem CgroupFs.files_putAll_of_ne (fs : CgroupFs) {dir p : CStr}
    {values : List (CStr × CStr)} (hp : ∀ w ∈ values, p ≠ dir ++ '/' :: w.1) :
    (fs.putAll dir values).files p = fs.files p := by
  unfold putAll
  induction values generalizing fs with
  | nil => rfl
  | cons w values ih =>
    obtain ⟨hw, hp⟩ := List.forall_mem_cons.mp hp
    rw [List.foldl_cons, ih _ hp, files_put_of_ne _ hw]

theorem CgroupFs.latest_putAll_of_ne (fs : CgroupFs) {dir p : CStr}
    {values : List (CStr × CStr)} (hp : ∀ w ∈ values, p ≠ dir ++ '/' :: w.1) :
    (fs.putAll dir values).latest p = fs.latest p :=
  congrArg List.head? (fs.files_putAll_of_ne hp)

/-- What a list of writes leaves in any file does not depend on what was there
before, or is what was there. -/
theorem CgroupFs.exists_latest_putAll (dir p : CStr) (values : List (CStr × CStr)) :
    ∃ written : Option CStr, ∀ fs : CgroupFs,
      (fs.putAll dir values).latest p = written.or (fs.latest p) := by
  by_cases hp : ∀ w ∈ values, p ≠ dir ++ '/' :: w.1
  · exact ⟨none, fun fs => fs.latest_putAll_of_ne hp⟩
  · push Not at hp
    obtain ⟨w, -, rfl⟩ := hp
    exact ⟨lastValue values w.1, fun fs => fs.latest_putAll dir values w.1⟩

section

variable {k : Kernel} {rm : ResourceManager} {containerId : CStr} {fs : CgroupFs}

/-- A write to a file of an existing directory that the kernel takes. -/
theorem writeFile_eq_put {path value : CStr} (hdir : dirOf path ∈ fs.dirs)
    (hk : k.write path value = true) : writeFile k path value fs = (fs.put path value, 0) :=
  if_pos ⟨hdir, hk⟩

/-! ## The writes of the limits -/

/-- The directory `set_cpu_limits` writes to. -/
def cpuDir (rm : ResourceManager) (containerId : CStr) (fs : CgroupFs) : CStr :=
  match rm.version with
  | .v2 => cgroupDir cgroupRoot rm containerId
  | .v1 =>
    if cgroupDir cpuCpuacctCgroupPath rm containerId ∈ fs.dirs then
      cgroupDir cpuCpuacctCgroupPath rm containerId
    else cgroupDir cpuCgroupPath rm containerId

/-- The names and values `set_cpu_limits` writes. -/
def cpuValues (version : CgroupVersion) (limits : CpuLimits) : List (CStr × CStr) :=
  let periodUs := effectivePeriod limits
  let quotaUs := effectiveQuota limits
  match version with
  | .v2 =>
    [("cpu.max".toList,
      if quotaUs > 0 then printDecimal quotaUs ++ ' ' :: printDecimal periodUs
      else "max".toList)]
  | .v1 =>
    (if quotaUs > 0 then
      [("cpu.cfs_quota_us".toList, printDecimal quotaUs),
        ("cpu.cfs_period_us".toList, printDecimal periodUs)]
    else []) ++
    (if limits.shares > 0 then [("cpu.shares".toList, printDecimal limits.shares)] else [])

/-- The names and values `set_memory_limits` writes. -/
def memoryValues (version : CgroupVersion) (limits : MemoryLimits) : List (CStr × CStr) :=
  match version with
  | .v2 =>
    ("memory.max".toList,
      if limits.limitBytes > 0 then printDecimal limits.limitBytes else "max".toList) ::
    (if limits.swapLimitBytes > 0 then
      [("memory.swap.max".toList, printDecimal limits.swapLimitBytes)] else [])
  | .v1 =>
    (if limits.limitBytes > 0 then
      [("memory.limit_in_bytes".toList, printDecimal limits.limitBytes)] else []) ++
    (if limits.swapLimitBytes > 0 then
      [("memory.memsw.limit_in_bytes".toList, printDecimal limits.swapLimitBytes)] else [])

/-- The names and values of the processor limits, where any are set. -/
def cpuLimitValues (version : CgroupVersion) (limits : ResourceLimits) : List (CStr × CStr) :=
  if limits.cpu.shares > 0 ∨ limits.cpu.quotaUs > 0 then cpuValues version limits.cpu else []

/-- The names and values of the memory limits, where any are set. -/
def memoryLimitValues (version : CgroupVersion) (limits : ResourceLimits) :
    List (CStr × CStr) :=
  if limits.memory.limitBytes > 0 then memoryValues version limits.memory else []

/-- The files `set_cpu_limits` writes to. -/
def cpuFiles : List CStr :=
  ["cpu.max".toList, "cpu.cfs_quota_us".toList, "cpu.cfs_period_us".toList,
    "cpu.shares".toList]

/-- The files `set_memory_limits` writes to. -/
def memoryFiles : List CStr :=
  ["memory.max".toList, "memory.swap.max".toList, "memory.limit_in_bytes".toList,
    "memory.memsw.limit_in_bytes".toList]

theorem no_slash_of_mem_cpuFiles : ∀ name ∈ cpuFiles, '/' ∉ name := by decide

theorem no_slash_of_mem_memoryFiles : ∀ name ∈ memoryFiles, '/' ∉ name := by decide

theorem not_mem_memoryFiles : ∀ name ∈ cpuFiles, name ∉ memoryFiles := by decide

/-- The names in a list that is written under a condition. -/
theorem mem_of_mem_ite {names : List CStr} {values : List (CStr × CStr)} {p : Prop}
    [Decidable p] (hvalues : ∀ w ∈ values, w.1 ∈ names) :
    ∀ w ∈ if p then values else [], w.1 ∈ names := by
  intro w h
  split at h
  · exact hvalues w h
  · cases h

theorem mem_cpuFiles_of_mem_cpuValues (version : CgroupVersion) (limits : CpuLimits) :
    ∀ w ∈ cpuValues version limits, w.1 ∈ cpuFiles := by
  intro w h
  unfold cpuValues at h
  cases version with
  | v2 =>
    obtain rfl := List.mem_singleton.mp h
    exact List.mem_of_elem_eq_true rfl
  | v1 =>
    rcases List.mem_append.mp h with h | h
    · exact mem_of_mem_ite (by simp [cpuFiles]) w h
    · exact mem_of_mem_ite (by simp [cpuFiles]) w h

theorem mem_memoryFiles_of_mem_memoryValues (version : CgroupVersion) (limits : MemoryLimits) :
    ∀ w ∈ memoryValues version limits, w.1 ∈ memoryFiles := by
  intro w h
  unfold memoryValues at h
  cases version with
  | v2 =>
    rcases List.mem_cons.mp h with rfl | h
    · exact List.mem_of_elem_eq_true rfl
    · exact mem_of_mem_ite (by simp [memoryFiles]) w h
  | v1 =>
    rcases List.mem_append.mp h with h | h
    · exact mem_of_mem_ite (by simp [memoryFiles]) w h
    · exact mem_of_mem_ite (by simp [memoryFiles]) w h

theorem mem_cpuFiles_of_mem_cpuLimitValues (version : CgroupVersion)
    (limits : ResourceLimits) : ∀ w ∈ cpuLimitValues version limits, w.1 ∈ cpuFiles :=
  mem_of_mem_ite (mem_cpuFiles_of_mem_cpuValues version limits.cpu)

theorem mem_memoryFiles_of_mem_memoryLimitValues (version : CgroupVersion)
    (limits : ResourceLimits) : ∀ w ∈ memoryLimitValues version limits, w.1 ∈ memoryFiles :=
  mem_of_mem_ite (mem_memoryFiles_of_mem_memoryValues version limits.memory)

/-- The paths of a container's control files fit their buffer. -/
def PathsFit (rm : ResourceManager) (containerId : CStr) : Prop :=
  ∀ root ∈ cgroupRoots rm.version, (cgroupName root rm containerId).length + 28 < bufSize

/-- The paths of a part of one component fit. -/
theorem Component.pathsFit (hid : Component containerId) (hrm : rm.cgroupPath = basePath) :
    PathsFit rm containerId :=
  fun _ hroot => length_cgroupName_add_lt hrm hid hroot

/-- A control file is a name in a directory. -/
theorem PathsFit.cgroupFile_eq (hfit : PathsFit rm containerId) {root name : CStr}
    (hroot : root ∈ cgroupRoots rm.version) (hname : name.length ≤ 27) :
    cgroupFile root rm containerId name = cgroupDir root rm containerId ++ '/' :: name := by
  have h := hfit root hroot
  unfold cgroupFile cgroupDir
  rw [snprintf_of_lt, snprintf_of_lt (by omega)]
  rw [List.length_append, List.length_cons]
  omega

theorem PathsFit.length_cgroupDir (hfit : PathsFit rm containerId) {root : CStr}
    (hroot : root ∈ cgroupRoots rm.version) :
    (cgroupDir root rm containerId).length + 28 < bufSize := by
  have h := hfit root hroot
  unfold cgroupDir
  rwa [snprintf_of_lt (by omega)]

theorem cpuDir_mem (rm : ResourceManager) (containerId : CStr) (fs : CgroupFs) :
    ∃ root ∈ cgroupRoots rm.version, cpuDir rm containerId fs = cgroupDir root rm containerId := by
  unfold cpuDir
  cases rm.version with
  | v2 => exact ⟨cgroupRoot, by decide, rfl⟩
  | v1 =>
    dsimp only
    split
    · exact ⟨cpuCpuacctCgroupPath, by decide, rfl⟩
    · exact ⟨cpuCgroupPath, by decide, rfl⟩

theorem cpuDir_mem_cgroupDirs (rm : ResourceManager) (containerId : CStr) (fs : CgroupFs) :
    cpuDir rm containerId fs ∈ cgroupDirs rm containerId := by
  obtain ⟨root, hroot, hcpu⟩ := cpuDir_mem rm containerId fs
  rw [hcpu]
  exact mem_cgroupDirs hroot

theorem PathsFit.length_cpuDir {rm : ResourceManager} {containerId : CStr}
    (hfit : PathsFit rm containerId) (fs : CgroupFs) :
    (cpuDir rm containerId fs).length + 28 < bufSize := by
  obtain ⟨root, hroot, hcpu⟩ := cpuDir_mem rm containerId fs
  rw [hcpu]
  exact hfit.length_cgroupDir hroot

/-- A write in sequence behind writes that succeeded. -/
theorem andThen_putAll {dir : CStr} {ws vs : List (CStr × CStr)}
    {next : CgroupFs → CgroupFs × ℤ} {r : CgroupFs × ℤ} (hr : r = (fs.putAll dir ws, 0))
    (hnext : next (fs.putAll dir ws) = ((fs.putAll dir ws).putAll dir vs, 0)) :
    andThen r next = (fs.putAll dir (ws ++ vs), 0) := by
  unfold andThen
  rw [hr, if_pos rfl, hnext]
  unfold CgroupFs.putAll
  rw [List.foldl_append]

/-- **`set_cpu_limits` where no write fails.** -/
theorem setCpuLimits_eq (hfit : PathsFit rm containerId)
    (hwrite : ∀ path value, k.write path value = true)
    (hdir : cpuDir rm containerId fs ∈ fs.dirs) (limits : CpuLimits) :
    setCpuLimits k rm containerId limits fs
      = (fs.putAll (cpuDir rm containerId fs) (cpuValues rm.version limits), 0) := by
  have hput : ∀ {fs' : CgroupFs} {name : CStr} (value : CStr), fs'.dirs = fs.dirs →
      '/' ∉ name → name.length ≤ 27 →
      writeChecked k (cpuDir rm containerId fs) name value fs'
        = (fs'.putAll (cpuDir rm containerId fs) [(name, value)], 0) := by
    intro fs' name value hdirs hslash hname
    have hlen := hfit.length_cpuDir fs
    unfold writeChecked
    rw [if_pos (by rw [List.length_append, List.length_cons]; omega),
      writeFile_eq_put (by rw [dirOf_append hslash, hdirs]; exact hdir) (hwrite _ _)]
    rfl
  unfold setCpuLimits cpuValues
  cases hv : rm.version with
  | v2 =>
    have hcpu : cpuDir rm containerId fs = cgroupDir cgroupRoot rm containerId := by
      unfold cpuDir
      rw [hv]
    dsimp only
    rw [hfit.cgroupFile_eq (by rw [hv]; decide) (by decide), ← hcpu,
      writeFile_eq_put (by rw [dirOf_append (by decide)]; exact hdir) (hwrite _ _)]
    rfl
  | v1 =>
    have hcpu : (if cgroupDir cpuCpuacctCgroupPath rm containerId ∈ fs.dirs then
          cgroupDir cpuCpuacctCgroupPath rm containerId
        else cgroupDir cpuCgroupPath rm containerId) = cpuDir rm containerId fs := by
      unfold cpuDir
      rw [hv]
    dsimp only
    rw [hcpu]
    refine andThen_putAll ?_ ?_
    · split
      · rw [← List.singleton_append]
        exact andThen_putAll (hput _ rfl (by decide) (by decide))
          (hput _ (CgroupFs.putAll_dirs _ _ _) (by decide) (by decide))
      · rfl
    · split
      · exact hput _ (CgroupFs.putAll_dirs _ _ _) (by decide) (by decide)
      · rfl

/-- **`set_memory_limits` where no write fails.** -/
theorem setMemoryLimits_eq (hfit : PathsFit rm containerId)
    (hwrite : ∀ path value, k.write path value = true)
    (hdir : cgroupDir (memoryRoot rm.version) rm containerId ∈ fs.dirs)
    (limits : MemoryLimits) :
    setMemoryLimits k rm containerId limits fs
      = (fs.putAll (cgroupDir (memoryRoot rm.version) rm containerId)
          (memoryValues rm.version limits), 0) := by
  have hput : ∀ {fs' : CgroupFs} {name : CStr} (value : CStr), fs'.dirs = fs.dirs →
      '/' ∉ name → name.length ≤ 27 →
      writeFile k (cgroupFile (memoryRoot rm.version) rm containerId name) value fs'
        = (fs'.putAll (cgroupDir (memoryRoot rm.version) rm containerId) [(name, value)], 0) := by
    intro fs' name value hdirs hslash hname
    rw [hfit.cgroupFile_eq (memoryRoot_mem _) hname,
      writeFile_eq_put (by rw [dirOf_append hslash, hdirs]; exact hdir) (hwrite _ _)]
    rfl
  unfold setMemoryLimits memoryValues
  cases hv : rm.version with
  | v2 =>
    rw [hv] at hput
    rw [← List.singleton_append]
    refine andThen_putAll (hput _ rfl (by decide) (by decide)) ?_
    split
    · exact hput _ (CgroupFs.putAll_dirs _ _ _) (by decide) (by decide)
    · rfl
  | v1 =>
    rw [hv] at hput
    refine andThen_putAll ?_ ?_
    · split
      · exact hput _ rfl (by decide) (by decide)
      · rfl
    · split
      · exact hput _ (CgroupFs.putAll_dirs _ _ _) (by decide) (by decide)
      · rfl

/-- **Setting the limits where no write fails** is two lists of writes. -/
theorem applyLimits_eq (hfit : PathsFit rm containerId)
    (hwrite : ∀ path value, k.write path value = true)
    (hcpu : cpuDir rm containerId fs ∈ fs.dirs)
    (hmemory : cgroupDir (memoryRoot rm.version) rm containerId ∈ fs.dirs)
    (limits : ResourceLimits) :
    applyLimits k rm containerId limits fs
      = (fs.putAll (cpuDir rm containerId fs) (cpuLimitValues rm.version limits)).putAll
          (cgroupDir (memoryRoot rm.version) rm containerId)
          (memoryLimitValues rm.version limits) := by
  have hfs : (if limits.cpu.shares > 0 ∨ limits.cpu.quotaUs > 0 then
        (setCpuLimits k rm containerId limits.cpu fs).1 else fs)
      = fs.putAll (cpuDir rm containerId fs) (cpuLimitValues rm.version limits) := by
    unfold cpuLimitValues
    split
    · rw [setCpuLimits_eq hfit hwrite hcpu]
    · rfl
  unfold applyLimits memoryLimitValues
  dsimp only
  rw [hfs]
  split
  · rw [setMemoryLimits_eq hfit hwrite (by rw [CgroupFs.putAll_dirs]; exact hmemory)]
  · rfl

/-! ## The directories that are written to -/

/-- The directories for processors that `set_cpu_limits` can choose from. -/
theorem mem_dirs_of_makeCpuDirs (hcode : (makeCpuDirs k rm containerId fs).2 = 0) :
    cgroupDir cpuCpuacctCgroupPath rm containerId ∈ (makeCpuDirs k rm containerId fs).1.dirs ∨
      cgroupDir cpuCgroupPath rm containerId ∈ (makeCpuDirs k rm containerId fs).1.dirs := by
  have hcases := cpuDirs_makeCpuDirs k rm containerId fs
  generalize makeCpuDirs k rm containerId fs = r at hcases hcode ⊢
  cases hcases with
  | combined hcombined => exact Or.inl ((mem_dirs_of_mkdirOrExist hcombined).mpr (Or.inl rfl))
  | refused => exact absurd hcode (by simp)
  | only _ honly => exact Or.inr ((mem_dirs_of_mkdirOrExist honly).mpr (Or.inl rfl))
  | both _ honly hacct =>
    have hcpu := (mem_dirs_of_mkdirOrExist honly).mpr (Or.inl rfl)
    exact Or.inr ((mem_dirs_of_mkdirOrExist hacct).mpr (Or.inr hcpu))

/-- The directory `set_cpu_limits` chooses is one that exists, where one of
those it chooses from does. -/
theorem cpuDir_mem_dirs
    (hdirs : match rm.version with
      | .v2 => cgroupDir cgroupRoot rm containerId ∈ fs.dirs
      | .v1 => cgroupDir cpuCpuacctCgroupPath rm containerId ∈ fs.dirs ∨
          cgroupDir cpuCgroupPath rm containerId ∈ fs.dirs) :
    cpuDir rm containerId fs ∈ fs.dirs := by
  unfold cpuDir
  cases hv : rm.version with
  | v2 =>
    rw [hv] at hdirs
    exact hdirs
  | v1 =>
    rw [hv] at hdirs
    dsimp only at hdirs ⊢
    split
    · next hcombined => exact hcombined
    · next hnot => exact hdirs.resolve_left hnot

/-- **The directories that are written to exist** once they have been
made. -/
theorem mem_dirs_of_makeCgroupDirs (hcode : (makeCgroupDirs k rm containerId fs).2 = 0) :
    cpuDir rm containerId (makeCgroupDirs k rm containerId fs).1
        ∈ (makeCgroupDirs k rm containerId fs).1.dirs ∧
      cgroupDir (memoryRoot rm.version) rm containerId
        ∈ (makeCgroupDirs k rm containerId fs).1.dirs := by
  unfold makeCgroupDirs at hcode ⊢
  cases hv : rm.version with
  | v2 =>
    rw [hv] at hcode
    have hmade := (mem_dirs_makeDir hcode).mpr (Or.inl rfl)
    exact ⟨cpuDir_mem_dirs (by rw [hv]; exact hmade), hmade⟩
  | v1 =>
    rw [hv] at hcode
    dsimp only at hcode ⊢
    obtain ⟨hcpu, hnext⟩ := andThen_eq_of_code hcode
    rw [hnext] at hcode ⊢
    refine ⟨cpuDir_mem_dirs ?_, (mem_dirs_makeDir hcode).mpr (Or.inl rfl)⟩
    rw [hv]
    exact (mem_dirs_of_makeCpuDirs hcpu).imp
      (fun hd => (mem_dirs_makeDir hcode).mpr (Or.inr hd))
      (fun hd => (mem_dirs_makeDir hcode).mpr (Or.inr hd))

/-- **A creation where no write fails** is the making of the directories and
two lists of writes. -/
theorem createCgroup_eq (hfit : PathsFit rm containerId)
    (hwrite : ∀ path value, k.write path value = true) {limits : ResourceLimits}
    (hcode : (resourceManagerCreateCgroup k rm containerId limits fs).2 = 0) :
    (resourceManagerCreateCgroup k rm containerId limits fs).1
      = ((makeCgroupDirs k rm containerId fs).1.putAll
            (cpuDir rm containerId (makeCgroupDirs k rm containerId fs).1)
            (cpuLimitValues rm.version limits)).putAll
          (cgroupDir (memoryRoot rm.version) rm containerId)
          (memoryLimitValues rm.version limits) := by
  obtain ⟨hmade, -⟩ := create_of_code hcode
  obtain ⟨hcpu, hmemory⟩ := mem_dirs_of_makeCgroupDirs hmade
  unfold resourceManagerCreateCgroup at hcode ⊢
  split at hcode
  · next hinit =>
    rw [if_pos hinit, (andThen_eq_of_code hcode).2]
    exact applyLimits_eq hfit hwrite hcpu hmemory limits
  · exact absurd hcode (by simp)

/-- The choice of the directory depends on which directories of the container
exist. -/
theorem cpuDir_congr {fs' : CgroupFs}
    (h : ∀ d ∈ cgroupDirs rm containerId, d ∈ fs'.dirs ↔ d ∈ fs.dirs) :
    cpuDir rm containerId fs' = cpuDir rm containerId fs := by
  unfold cpuDir
  cases hv : rm.version with
  | v2 => rfl
  | v1 =>
    have hcombined := h (cgroupDir cpuCpuacctCgroupPath rm containerId)
      (List.mem_map.mpr ⟨cpuCpuacctCgroupPath, by rw [hv]; decide, rfl⟩)
    simp only [hcombined]

theorem cpuDir_create {limits : ResourceLimits}
    (hcode : (resourceManagerCreateCgroup k rm containerId limits fs).2 = 0) :
    cpuDir rm containerId (resourceManagerCreateCgroup k rm containerId limits fs).1
      = cpuDir rm containerId (makeCgroupDirs k rm containerId fs).1 :=
  cpuDir_congr (fun _ _ => by rw [(create_of_code hcode).2])

/-- **The processor limits after a creation**: the values written, or what
the files held when the directories had been made. -/
theorem latest_create_cpu (hfit : PathsFit rm containerId)
    (hwrite : ∀ path value, k.write path value = true) {limits : ResourceLimits}
    (hcode : (resourceManagerCreateCgroup k rm containerId limits fs).2 = 0) {name : CStr}
    (hname : name ∈ cpuFiles) :
    (resourceManagerCreateCgroup k rm containerId limits fs).1.latest
        (cpuDir rm containerId (resourceManagerCreateCgroup k rm containerId limits fs).1
          ++ '/' :: name)
      = (lastValue (cpuLimitValues rm.version limits) name).or
          ((makeCgroupDirs k rm containerId fs).1.latest
            (cpuDir rm containerId (resourceManagerCreateCgroup k rm containerId limits fs).1
              ++ '/' :: name)) := by
  rw [cpuDir_create hcode, createCgroup_eq hfit hwrite hcode,
    CgroupFs.latest_putAll_of_ne, CgroupFs.latest_putAll]
  intro w hw he
  have hw := mem_memoryFiles_of_mem_memoryLimitValues _ _ w hw
  have hslash := no_slash_of_mem_cpuFiles name hname
  obtain rfl := (eq_of_path_eq hslash (no_slash_of_mem_memoryFiles _ hw) he).2
  exact not_mem_memoryFiles _ hname hw

/-- **The memory limits after a creation.** -/
theorem latest_create_memory (hfit : PathsFit rm containerId)
    (hwrite : ∀ path value, k.write path value = true) {limits : ResourceLimits}
    (hcode : (resourceManagerCreateCgroup k rm containerId limits fs).2 = 0) {name : CStr}
    (hname : name ∈ memoryFiles) :
    (resourceManagerCreateCgroup k rm containerId limits fs).1.latest
        (cgroupDir (memoryRoot rm.version) rm containerId ++ '/' :: name)
      = (lastValue (memoryLimitValues rm.version limits) name).or
          ((makeCgroupDirs k rm containerId fs).1.latest
            (cgroupDir (memoryRoot rm.version) rm containerId ++ '/' :: name)) := by
  rw [createCgroup_eq hfit hwrite hcode, CgroupFs.latest_putAll, CgroupFs.latest_putAll_of_ne]
  intro w hw he
  have hw := mem_cpuFiles_of_mem_cpuLimitValues _ _ w hw
  have hslash := no_slash_of_mem_memoryFiles name hname
  obtain rfl := (eq_of_path_eq hslash (no_slash_of_mem_cpuFiles _ hw) he).2
  exact not_mem_memoryFiles _ hw hname

/-! ## New directories -/

/-- Of these directories, nothing has been written to the files of those
that exist. -/
def CgroupFs.Unwritten (fs : CgroupFs) (dirs : List CStr) : Prop :=
  ∀ d ∈ dirs, d ∈ fs.dirs → ∀ name, fs.files (d ++ '/' :: name) = []

/-- A directory that is made has nothing in its files. -/
theorem files_eq_nil_of_mkdirOrExist {dirs : List CStr} {name : CStr}
    (h : ∀ d ∈ dirs, d ∈ fs.dirs → fs.files (d ++ '/' :: name) = []) {path : CStr}
    {fs' : CgroupFs} (hmade : mkdirOrExist k path fs = some fs') :
    ∀ d ∈ dirs, d ∈ fs'.dirs → fs'.files (d ++ '/' :: name) = [] := by
  intro d hd hmem
  unfold mkdirOrExist at hmade
  split at hmade
  · cases hmade
    exact h d hd hmem
  · split at hmade
    · cases hmade
      unfold CgroupFs.make
      dsimp only
      split
      · rfl
      · next hnot =>
        rcases List.mem_cons.mp hmem with rfl | hmem
        · exact absurd (List.isPrefixOf_iff_prefix.mpr ⟨name, by simp⟩) hnot
        · exact h d hd hmem
    · cases hmade

/-- **Directories that were not there are new**: nothing is in their files
when they have been made. -/
theorem CgroupFs.Unwritten.of_makeCgroupDirs {dirs : List CStr} (h : fs.Unwritten dirs) :
    (makeCgroupDirs k rm containerId fs).1.Unwritten dirs :=
  makeCgroupDirs_preserves (P := fun fs => fs.Unwritten dirs)
    (fun _ _ _ _ h hmade d hd hmem name =>
      files_eq_nil_of_mkdirOrExist (fun d hd hmem => h d hd hmem name) hmade d hd hmem) h

/-- **The processor limits of a new control group** are those written. -/
theorem latest_create_cpu_of_new (hfit : PathsFit rm containerId)
    (hnew : ∀ d ∈ cgroupDirs rm containerId, d ∉ fs.dirs)
    (hwrite : ∀ path value, k.write path value = true) {limits : ResourceLimits}
    (hcode : (resourceManagerCreateCgroup k rm containerId limits fs).2 = 0) {name : CStr}
    (hname : name ∈ cpuFiles) :
    (resourceManagerCreateCgroup k rm containerId limits fs).1.latest
        (cpuDir rm containerId (resourceManagerCreateCgroup k rm containerId limits fs).1
          ++ '/' :: name)
      = lastValue (cpuLimitValues rm.version limits) name := by
  obtain ⟨hmade, hdirs⟩ := create_of_code hcode
  have hunwritten : (makeCgroupDirs k rm containerId fs).1.Unwritten
      (cgroupDirs rm containerId) :=
    CgroupFs.Unwritten.of_makeCgroupDirs (fun d hd hmem => absurd hmem (hnew d hd))
  have hempty := hunwritten _ (cpuDir_mem_cgroupDirs rm containerId _)
    (mem_dirs_of_makeCgroupDirs hmade).1 name
  rw [latest_create_cpu hfit hwrite hcode hname, cpuDir_create hcode]
  unfold CgroupFs.latest
  rw [hempty, List.head?_nil, Option.or_none]

end
