import MiniContainer.Container

/-!
# The resource manager

Every container has a control group: a directory per hierarchy under
`/sys/fs/cgroup`, named after the container, whose files set its limits and
list its processes. The resource manager makes these directories, writes
the limits, moves processes in and removes the directories again, on
version 1 of the interface (several hierarchies, chosen by a chain of
fallbacks) and on version 2 (one).

The state is the file system of control groups, `CgroupFs`: which
directories exist, and what has been written to each file since its
directory was made. What the kernel decides – whether a directory can be
made or removed, whether a write goes through, which threads a process has
– is a `Kernel`, read by the functions and changed by none, so a statement
over every `Kernel` is a statement over every outcome.

Paths are built with `snprintf` into buffers of `bufSize` bytes, one
function for the directory (`cgroupDir`) and one for a file in it
(`cgroupFile`); `dirOf_cgroupFile` says that the second lies in the first
as long as neither is cut off.
-/

open CText

/-- `cgroup_version_t`. -/
inductive CgroupVersion
  | v1
  | v2
  deriving DecidableEq, Repr

/-- `resource_manager_t`, without the logging callback. -/
structure ResourceManager where
  cgroupPath : CStr
  initialized : Bool
  version : CgroupVersion
  deriving DecidableEq, Repr

/-! ## Paths -/

/-- `BUF_SIZE`. -/
def bufSize : ℕ := 512

/-- `CGROUP_ROOT`. -/
def cgroupRoot : CStr := "/sys/fs/cgroup".toList

/-- `CPU_CGROUP_PATH`. -/
def cpuCgroupPath : CStr := "/sys/fs/cgroup/cpu".toList

/-- `CPUACCT_CGROUP_PATH`. -/
def cpuacctCgroupPath : CStr := "/sys/fs/cgroup/cpuacct".toList

/-- `CPU_CPUACCT_CGROUP_PATH`. -/
def cpuCpuacctCgroupPath : CStr := "/sys/fs/cgroup/cpu,cpuacct".toList

/-- `MEMORY_CGROUP_PATH`. -/
def memoryCgroupPath : CStr := "/sys/fs/cgroup/memory".toList

/-- `CGROUP_V2_CONTROLLERS`. -/
def cgroupV2Controllers : CStr := "/sys/fs/cgroup/cgroup.controllers".toList

/-- The text of `"%s/%s_%s"` for a hierarchy, the manager's prefix and a
container. -/
def cgroupName (root : CStr) (rm : ResourceManager) (containerId : CStr) : CStr :=
  root ++ '/' :: (rm.cgroupPath ++ '_' :: containerId)

/-- `snprintf(path, sizeof(path), "%s/%s_%s", …)`: the directory of a
container in a hierarchy. -/
def cgroupDir (root : CStr) (rm : ResourceManager) (containerId : CStr) : CStr :=
  snprintf bufSize (cgroupName root rm containerId)

/-- `snprintf(path, sizeof(path), "%s/%s_%s/<name>", …)`: a control file of
a container in a hierarchy. -/
def cgroupFile (root : CStr) (rm : ResourceManager) (containerId name : CStr) : CStr :=
  snprintf bufSize (cgroupName root rm containerId ++ '/' :: name)

/-- The directory a path names a file of: what stands before its last
slash. -/
def dirOf (path : CStr) : CStr :=
  ((path.reverse.dropWhile (· ≠ '/')).drop 1).reverse

/-- A file name without a slash is the last component of its path. -/
theorem dirOf_append {name : CStr} (hname : '/' ∉ name) (dir : CStr) :
    dirOf (dir ++ '/' :: name) = dir := by
  have hall : ∀ c ∈ name.reverse, decide (c ≠ '/') = true :=
    fun c hc => decide_eq_true (fun he => hname (he ▸ List.mem_reverse.mp hc))
  unfold dirOf
  rw [List.reverse_append, List.reverse_cons, List.append_assoc,
    List.dropWhile_append_of_pos hall]
  simp

/-- **A control file lies in the directory of its container**, as long as
its path fits the buffer. -/
theorem dirOf_cgroupFile {root : CStr} {rm : ResourceManager} {containerId name : CStr}
    (hname : '/' ∉ name)
    (hlen : (cgroupName root rm containerId ++ '/' :: name).length < bufSize) :
    dirOf (cgroupFile root rm containerId name) = cgroupDir root rm containerId := by
  unfold cgroupFile cgroupDir
  rw [snprintf_of_lt hlen, dirOf_append hname, snprintf_of_lt]
  rw [List.length_append] at hlen
  omega

/-- **A directory says which hierarchy and which container it is for**, as
long as neither path is cut off and no name has a slash in it. -/
theorem cgroupDir_injective {root root' : CStr} {rm : ResourceManager} {i j : CStr}
    (hrm : '/' ∉ rm.cgroupPath) (hi : '/' ∉ i) (hj : '/' ∉ j)
    (hilen : (cgroupName root rm i).length < bufSize)
    (hjlen : (cgroupName root' rm j).length < bufSize)
    (h : cgroupDir root rm i = cgroupDir root' rm j) : root = root' ∧ i = j := by
  have hname : ∀ {id : CStr}, '/' ∉ id → '/' ∉ rm.cgroupPath ++ '_' :: id := by
    intro id hid
    rw [List.mem_append, List.mem_cons]
    rintro (hmem | hmem | hmem)
    · exact hrm hmem
    · exact absurd hmem (by decide)
    · exact hid hmem
  unfold cgroupDir at h
  rw [snprintf_of_lt hilen, snprintf_of_lt hjlen, cgroupName, cgroupName] at h
  have hroot := congrArg dirOf h
  rw [dirOf_append (hname hi), dirOf_append (hname hj)] at hroot
  subst hroot
  have h := List.append_cancel_left (List.cons.inj (List.append_cancel_left h)).2
  exact ⟨rfl, (List.cons.inj h).2⟩

/-! ## The file system of control groups -/

/-- The directories that exist, and what has been written to each file
since its directory was made, the latest first. -/
structure CgroupFs where
  dirs : List CStr
  files : CStr → List CStr

/-- What the kernel answers. -/
structure Kernel where
  /-- Whether `mkdir` of a path that does not exist makes it. -/
  mkdir : CStr → Bool
  /-- Whether `rmdir` of an existing directory removes it. -/
  rmdir : CStr → Bool
  /-- Whether opening a file of an existing directory and writing a value to
  it succeeds. -/
  write : CStr → CStr → Bool
  /-- The names under `/proc/<pid>/task`, or `none` where it cannot be
  opened. -/
  tasks : ℤ → Option (List CStr)

/-- A new directory is empty: nothing has been written to its files. -/
def CgroupFs.make (fs : CgroupFs) (path : CStr) : CgroupFs where
  dirs := path :: fs.dirs
  files := fun p => if (path ++ ['/']).isPrefixOf p then [] else fs.files p

/-- `mkdir(path, 0755) == -1 && errno != EEXIST` is `none`; otherwise the
directory is there. -/
def mkdirOrExist (k : Kernel) (path : CStr) (fs : CgroupFs) : Option CgroupFs :=
  if path ∈ fs.dirs then some fs
  else if k.mkdir path then some (fs.make path)
  else none

/-- `rmdir(path)`, whose result nobody looks at. -/
def rmdir (k : Kernel) (path : CStr) (fs : CgroupFs) : CgroupFs :=
  if k.rmdir path then { fs with dirs := fs.dirs.filter (· ≠ path) } else fs

/-- `write_file`: opens an existing file and writes to it. -/
def writeFile (k : Kernel) (path value : CStr) (fs : CgroupFs) : CgroupFs × ℤ :=
  if dirOf path ∈ fs.dirs ∧ k.write path value then
    ({ fs with files := Function.update fs.files path (value :: fs.files path) }, 0)
  else (fs, -1)

/-- Statements in sequence, `return -1` where one of them fails. -/
def andThen (r : CgroupFs × ℤ) (next : CgroupFs → CgroupFs × ℤ) : CgroupFs × ℤ :=
  if r.2 = 0 then next r.1 else (r.1, -1)

/-! ## Limits -/

/-- The period `set_cpu_limits` works with. -/
def effectivePeriod (limits : CpuLimits) : ℤ :=
  if limits.periodUs > 0 then limits.periodUs else 100000

/-- The quota `set_cpu_limits` works with: the one given, or else the share
of the period, computed in `int` and not less than a millisecond. -/
def effectiveQuota (limits : CpuLimits) : ℤ :=
  if limits.quotaUs ≤ 0 ∧ limits.shares > 0 then
    let quota := (wrap32 (limits.shares * effectivePeriod limits)).tdiv 1024
    if quota < 1000 then 1000 else quota
  else limits.quotaUs

/-- A write to `"%s/<name>"` under a directory, refused where the path does
not fit the buffer. -/
def writeChecked (k : Kernel) (dir name value : CStr) (fs : CgroupFs) : CgroupFs × ℤ :=
  if (dir ++ '/' :: name).length < bufSize then writeFile k (dir ++ '/' :: name) value fs
  else (fs, -1)

/-- `set_cpu_limits`. -/
def setCpuLimits (k : Kernel) (rm : ResourceManager) (containerId : CStr)
    (limits : CpuLimits) (fs : CgroupFs) : CgroupFs × ℤ :=
  let periodUs := effectivePeriod limits
  let quotaUs := effectiveQuota limits
  match rm.version with
  | .v2 =>
    writeFile k (cgroupFile cgroupRoot rm containerId "cpu.max".toList)
      (if quotaUs > 0 then printDecimal quotaUs ++ ' ' :: printDecimal periodUs
        else "max".toList) fs
  | .v1 =>
    let cpuPath :=
      if cgroupDir cpuCpuacctCgroupPath rm containerId ∈ fs.dirs then
        cgroupDir cpuCpuacctCgroupPath rm containerId
      else cgroupDir cpuCgroupPath rm containerId
    andThen
      (if quotaUs > 0 then
        andThen (writeChecked k cpuPath "cpu.cfs_quota_us".toList (printDecimal quotaUs) fs)
          (writeChecked k cpuPath "cpu.cfs_period_us".toList (printDecimal periodUs))
      else (fs, 0))
      (fun fs =>
        if limits.shares > 0 then
          writeChecked k cpuPath "cpu.shares".toList (printDecimal limits.shares) fs
        else (fs, 0))

/-- `set_memory_limits`. -/
def setMemoryLimits (k : Kernel) (rm : ResourceManager) (containerId : CStr)
    (limits : MemoryLimits) (fs : CgroupFs) : CgroupFs × ℤ :=
  match rm.version with
  | .v2 =>
    andThen
      (writeFile k (cgroupFile cgroupRoot rm containerId "memory.max".toList)
        (if limits.limitBytes > 0 then printDecimal limits.limitBytes else "max".toList) fs)
      (fun fs =>
        if limits.swapLimitBytes > 0 then
          writeFile k (cgroupFile cgroupRoot rm containerId "memory.swap.max".toList)
            (printDecimal limits.swapLimitBytes) fs
        else (fs, 0))
  | .v1 =>
    andThen
      (if limits.limitBytes > 0 then
        writeFile k (cgroupFile memoryCgroupPath rm containerId "memory.limit_in_bytes".toList)
          (printDecimal limits.limitBytes) fs
      else (fs, 0))
      (fun fs =>
        if limits.swapLimitBytes > 0 then
          writeFile k
            (cgroupFile memoryCgroupPath rm containerId "memory.memsw.limit_in_bytes".toList)
            (printDecimal limits.swapLimitBytes) fs
        else (fs, 0))

/-! ## The operations -/

/-- What `resource_manager_init` finds out about the host: which paths
exist, and what `cgroup.controllers` says where it can be read. -/
structure CgroupHost where
  access : CStr → Bool
  controllers : Option CStr

/-- `detect_cgroup_version`. Both branches behind the first test return
version 1. -/
def detectCgroupVersion (host : CgroupHost) : CgroupVersion :=
  if host.access cgroupV2Controllers then .v2 else .v1

/-- `resource_manager_init`, where `none` is its `-1`. -/
def resourceManagerInit (host : CgroupHost) (basePath : CStr) : Option ResourceManager :=
  if ¬ host.access cgroupRoot then none
  else
    match detectCgroupVersion host with
    | .v2 =>
      match host.controllers with
      | some buffer =>
        if strstr buffer "cpu".toList ∧ strstr buffer "memory".toList then
          some ⟨basePath, true, .v2⟩
        else none
      | none => some ⟨basePath, true, .v2⟩
    | .v1 =>
      if host.access cpuCgroupPath ∧ host.access memoryCgroupPath then
        some ⟨basePath, true, .v1⟩
      else none

/-- A resource manager that was made has the prefix it was given, and is
initialized. -/
theorem eq_of_resourceManagerInit {host : CgroupHost} {path : CStr} {rm : ResourceManager}
    (h : resourceManagerInit host path = some rm) : rm = ⟨path, true, rm.version⟩ := by
  unfold resourceManagerInit at h
  split at h
  · cases h
  · split at h
    · split at h
      · split at h
        · cases h
          rfl
        · cases h
      · cases h
        rfl
    · split at h
      · cases h
        rfl
      · cases h

theorem cgroupPath_of_resourceManagerInit {host : CgroupHost} {path : CStr}
    {rm : ResourceManager} (h : resourceManagerInit host path = some rm) :
    rm.cgroupPath = path := by
  rw [eq_of_resourceManagerInit h]

/-- A directory has to be there: its code is `-1` where it cannot be
made. -/
def makeDir (k : Kernel) (path : CStr) (fs : CgroupFs) : CgroupFs × ℤ :=
  match mkdirOrExist k path fs with
  | some fs => (fs, 0)
  | none => (fs, -1)

/-- The directories for processors on version 1: the one in `cpu,cpuacct`,
or else the one in `cpu`, with the one in `cpuacct` on the side. -/
def makeCpuDirs (k : Kernel) (rm : ResourceManager) (containerId : CStr) (fs : CgroupFs) :
    CgroupFs × ℤ :=
  match mkdirOrExist k (cgroupDir cpuCpuacctCgroupPath rm containerId) fs with
  | some fs => (fs, 0)
  | none =>
    match mkdirOrExist k (cgroupDir cpuCgroupPath rm containerId) fs with
    -- that the `cpuacct` directory cannot be made is ignored
    | some fs => ((mkdirOrExist k (cgroupDir cpuacctCgroupPath rm containerId) fs).getD fs, 0)
    | none => (fs, -1)

/-- The directories `resource_manager_create_cgroup` makes, with the file
system as far as it got and the code it returns where one is missing. -/
def makeCgroupDirs (k : Kernel) (rm : ResourceManager) (containerId : CStr)
    (fs : CgroupFs) : CgroupFs × ℤ :=
  match rm.version with
  | .v2 => makeDir k (cgroupDir cgroupRoot rm containerId) fs
  | .v1 =>
    andThen (makeCpuDirs k rm containerId fs)
      (makeDir k (cgroupDir memoryCgroupPath rm containerId))

/-- The limits `resource_manager_create_cgroup` sets. A limit that cannot
be set is a warning. -/
def applyLimits (k : Kernel) (rm : ResourceManager) (containerId : CStr)
    (limits : ResourceLimits) (fs : CgroupFs) : CgroupFs :=
  let fs :=
    if limits.cpu.shares > 0 ∨ limits.cpu.quotaUs > 0 then
      (setCpuLimits k rm containerId limits.cpu fs).1
    else fs
  if limits.memory.limitBytes > 0 then
    (setMemoryLimits k rm containerId limits.memory fs).1
  else fs

/-- `resource_manager_create_cgroup`. -/
def resourceManagerCreateCgroup (k : Kernel) (rm : ResourceManager) (containerId : CStr)
    (limits : ResourceLimits) (fs : CgroupFs) : CgroupFs × ℤ :=
  if rm.initialized then
    andThen (makeCgroupDirs k rm containerId fs)
      (fun fs => (applyLimits k rm containerId limits fs, 0))
  else (fs, -1)

/-- One write of `add_all_threads_to_cgroup`'s loop over the names of a
directory; entries that start with a dot are skipped and names are copied
into 32 bytes. -/
def addThread (k : Kernel) (cgroupPath : CStr) (r : CgroupFs × Bool) (name : CStr) :
    CgroupFs × Bool :=
  if name.head? = some '.' then r
  else
    let w := writeFile k cgroupPath (snprintf 32 name) r.1
    (w.1, r.2 || w.2 == 0)

/-- `add_all_threads_to_cgroup`: one thread that could be added is enough. -/
def addAllThreadsToCgroup (k : Kernel) (pid : ℤ) (cgroupPath : CStr) (fs : CgroupFs) :
    CgroupFs × ℤ :=
  match k.tasks pid with
  | none => writeFile k cgroupPath (printDecimal pid) fs
  | some names =>
    let r := names.foldl (addThread k cgroupPath) (fs, false)
    (r.1, if r.2 then 0 else -1)

/-- `resource_manager_add_process`. -/
def resourceManagerAddProcess (k : Kernel) (rm : ResourceManager) (containerId : CStr)
    (pid : ℤ) (fs : CgroupFs) : CgroupFs × ℤ :=
  if rm.initialized ∧ pid > 0 then
    match rm.version with
    | .v2 => writeFile k (cgroupFile cgroupRoot rm containerId "cgroup.procs".toList)
        (printDecimal pid) fs
    | .v1 =>
      let add := fun root fs =>
        addAllThreadsToCgroup k pid (cgroupFile root rm containerId "tasks".toList) fs
      let both := add cpuCpuacctCgroupPath fs
      let cpu :=
        if both.2 = 0 then both
        else
          let c := add cpuCgroupPath both.1
          let a := add cpuacctCgroupPath c.1
          (a.1, if c.2 = 0 ∨ a.2 = 0 then 0 else -1)
      andThen cpu (add memoryCgroupPath)
  else (fs, -1)

/-- `resource_manager_destroy_cgroup`. -/
def resourceManagerDestroyCgroup (k : Kernel) (rm : ResourceManager) (containerId : CStr)
    (fs : CgroupFs) : CgroupFs × ℤ :=
  if rm.initialized then
    match rm.version with
    | .v2 => (rmdir k (cgroupDir cgroupRoot rm containerId) fs, 0)
    | .v1 =>
      let fs := rmdir k (cgroupDir cpuCpuacctCgroupPath rm containerId) fs
      let fs := rmdir k (cgroupDir cpuCgroupPath rm containerId) fs
      let fs := rmdir k (cgroupDir cpuacctCgroupPath rm containerId) fs
      (rmdir k (cgroupDir memoryCgroupPath rm containerId) fs, 0)
  else (fs, -1)

/-! ## Directories

What the operations do to the set of directories. Writing changes none of
them. -/

/-- The hierarchies a container can have a directory in. -/
def cgroupRoots (version : CgroupVersion) : List CStr :=
  match version with
  | .v2 => [cgroupRoot]
  | .v1 => [cpuCpuacctCgroupPath, cpuCgroupPath, cpuacctCgroupPath, memoryCgroupPath]

/-- The directories a container can have. -/
def cgroupDirs (rm : ResourceManager) (containerId : CStr) : List CStr :=
  (cgroupRoots rm.version).map (fun root => cgroupDir root rm containerId)

theorem mem_cgroupDirs {rm : ResourceManager} {containerId root : CStr}
    (hroot : root ∈ cgroupRoots rm.version) :
    cgroupDir root rm containerId ∈ cgroupDirs rm containerId := List.mem_map_of_mem hroot

/-- **Destroying a control group** removes every directory the container can
have, in turn. -/
theorem resourceManagerDestroyCgroup_eq (k : Kernel) {rm : ResourceManager}
    (h : rm.initialized = true) (containerId : CStr) (fs : CgroupFs) :
    resourceManagerDestroyCgroup k rm containerId fs
      = ((cgroupDirs rm containerId).foldl (fun fs path => rmdir k path fs) fs, 0) := by
  unfold resourceManagerDestroyCgroup cgroupDirs
  rw [if_pos h]
  cases rm.version <;> rfl

section

variable {k : Kernel} {fs fs' : CgroupFs} {path : CStr}

/-- A directory is there, or made, unless the kernel refuses. -/
theorem mkdirOrExist_eq_none_iff :
    mkdirOrExist k path fs = none ↔ ¬ (path ∈ fs.dirs ∨ k.mkdir path = true) := by
  unfold mkdirOrExist
  split
  · next h => exact iff_of_false (fun hn => nomatch hn) (not_not.mpr (Or.inl h))
  · next h =>
    split
    · next hk => exact iff_of_false (fun hn => nomatch hn) (not_not.mpr (Or.inr hk))
    · next hk => exact iff_of_true rfl (fun ho => ho.elim h hk)

/-- Making a directory adds it and no other. -/
theorem mem_dirs_of_mkdirOrExist (h : mkdirOrExist k path fs = some fs') {d : CStr} :
    d ∈ fs'.dirs ↔ d = path ∨ d ∈ fs.dirs := by
  unfold mkdirOrExist at h
  split at h
  · next hmem =>
    cases h
    exact ⟨Or.inr, fun ho => ho.elim (fun he => he ▸ hmem) id⟩
  · split at h
    · cases h
      exact List.mem_cons
    · cases h

theorem writeFile_dirs (k : Kernel) (path value : CStr) (fs : CgroupFs) :
    (writeFile k path value fs).1.dirs = fs.dirs := by
  unfold writeFile
  split <;> rfl

theorem writeChecked_dirs (k : Kernel) (dir name value : CStr) (fs : CgroupFs) :
    (writeChecked k dir name value fs).1.dirs = fs.dirs := by
  unfold writeChecked
  split
  · exact writeFile_dirs _ _ _ _
  · rfl

theorem andThen_dirs {r : CgroupFs × ℤ} {next : CgroupFs → CgroupFs × ℤ} {dirs : List CStr}
    (hr : r.1.dirs = dirs) (hnext : ∀ fs, (next fs).1.dirs = fs.dirs) :
    (andThen r next).1.dirs = dirs := by
  unfold andThen
  split
  · rw [hnext, hr]
  · exact hr

theorem setCpuLimits_dirs (k : Kernel) (rm : ResourceManager) (containerId : CStr)
    (limits : CpuLimits) (fs : CgroupFs) :
    (setCpuLimits k rm containerId limits fs).1.dirs = fs.dirs := by
  unfold setCpuLimits
  cases rm.version with
  | v2 => exact writeFile_dirs _ _ _ _
  | v1 =>
    refine andThen_dirs ?_ (fun fs => ?_)
    · split
      · exact andThen_dirs (writeChecked_dirs _ _ _ _ _) (writeChecked_dirs _ _ _ _)
      · rfl
    · split
      · exact writeChecked_dirs _ _ _ _ _
      · rfl

theorem setMemoryLimits_dirs (k : Kernel) (rm : ResourceManager) (containerId : CStr)
    (limits : MemoryLimits) (fs : CgroupFs) :
    (setMemoryLimits k rm containerId limits fs).1.dirs = fs.dirs := by
  unfold setMemoryLimits
  cases rm.version with
  | v2 =>
    refine andThen_dirs (writeFile_dirs _ _ _ _) (fun fs => ?_)
    split
    · exact writeFile_dirs _ _ _ _
    · rfl
  | v1 =>
    refine andThen_dirs ?_ (fun fs => ?_)
    · split
      · exact writeFile_dirs _ _ _ _
      · rfl
    · split
      · exact writeFile_dirs _ _ _ _
      · rfl

/-- **Setting limits changes no directory.** -/
theorem applyLimits_dirs (k : Kernel) (rm : ResourceManager) (containerId : CStr)
    (limits : ResourceLimits) (fs : CgroupFs) :
    (applyLimits k rm containerId limits fs).dirs = fs.dirs := by
  unfold applyLimits
  dsimp only
  split
  · split
    · rw [setMemoryLimits_dirs, setCpuLimits_dirs]
    · exact setMemoryLimits_dirs _ _ _ _ _
  · split
    · exact setCpuLimits_dirs _ _ _ _ _
    · rfl

/-- Statements in sequence that succeed have each succeeded. -/
theorem andThen_eq_of_code {r : CgroupFs × ℤ} {next : CgroupFs → CgroupFs × ℤ}
    (h : (andThen r next).2 = 0) : r.2 = 0 ∧ andThen r next = next r.1 := by
  unfold andThen at h ⊢
  split at h
  · next hr => exact ⟨hr, if_pos hr⟩
  · exact absurd h (by simp)

theorem mem_dirs_makeDir (h : (makeDir k path fs).2 = 0) {d : CStr} :
    d ∈ (makeDir k path fs).1.dirs ↔ d = path ∨ d ∈ fs.dirs := by
  unfold makeDir at h ⊢
  cases hmade : mkdirOrExist k path fs with
  | none =>
    rw [hmade] at h
    exact absurd h (by simp)
  | some fs' => exact mem_dirs_of_mkdirOrExist hmade

/-- **What making the directories for processors comes to**: the one in
`cpu,cpuacct`, or none, or the one in `cpu`, with or without the one in
`cpuacct`. -/
inductive CpuDirs (k : Kernel) (rm : ResourceManager) (containerId : CStr) (fs : CgroupFs) :
    CgroupFs × ℤ → Prop
  | combined {fs₁ : CgroupFs}
      (hcombined : mkdirOrExist k (cgroupDir cpuCpuacctCgroupPath rm containerId) fs = some fs₁) :
      CpuDirs k rm containerId fs (fs₁, 0)
  | refused
      (hcombined : mkdirOrExist k (cgroupDir cpuCpuacctCgroupPath rm containerId) fs = none)
      (honly : mkdirOrExist k (cgroupDir cpuCgroupPath rm containerId) fs = none) :
      CpuDirs k rm containerId fs (fs, -1)
  | only {fs₁ : CgroupFs}
      (hcombined : mkdirOrExist k (cgroupDir cpuCpuacctCgroupPath rm containerId) fs = none)
      (honly : mkdirOrExist k (cgroupDir cpuCgroupPath rm containerId) fs = some fs₁)
      (hacct : mkdirOrExist k (cgroupDir cpuacctCgroupPath rm containerId) fs₁ = none) :
      CpuDirs k rm containerId fs (fs₁, 0)
  | both {fs₁ fs₂ : CgroupFs}
      (hcombined : mkdirOrExist k (cgroupDir cpuCpuacctCgroupPath rm containerId) fs = none)
      (honly : mkdirOrExist k (cgroupDir cpuCgroupPath rm containerId) fs = some fs₁)
      (hacct : mkdirOrExist k (cgroupDir cpuacctCgroupPath rm containerId) fs₁ = some fs₂) :
      CpuDirs k rm containerId fs (fs₂, 0)

theorem cpuDirs_makeCpuDirs (k : Kernel) (rm : ResourceManager) (containerId : CStr)
    (fs : CgroupFs) : CpuDirs k rm containerId fs (makeCpuDirs k rm containerId fs) := by
  unfold makeCpuDirs
  cases hcombined : mkdirOrExist k (cgroupDir cpuCpuacctCgroupPath rm containerId) fs with
  | some fs₁ => exact .combined hcombined
  | none =>
    cases honly : mkdirOrExist k (cgroupDir cpuCgroupPath rm containerId) fs with
    | none => exact .refused hcombined honly
    | some fs₁ =>
      dsimp only
      cases hacct : mkdirOrExist k (cgroupDir cpuacctCgroupPath rm containerId) fs₁ with
      | none => exact .only hcombined honly hacct
      | some fs₂ => exact .both hcombined honly hacct

/-- **The directories for processors**: the one in `cpu,cpuacct` if it can be
made; if not, what is there was there before or is in one of the other
hierarchies. -/
theorem mem_dirs_makeCpuDirs (k : Kernel) (rm : ResourceManager) (containerId : CStr)
    (fs : CgroupFs) :
    if cgroupDir cpuCpuacctCgroupPath rm containerId ∈ fs.dirs ∨
        k.mkdir (cgroupDir cpuCpuacctCgroupPath rm containerId) = true then
      cgroupDir cpuCpuacctCgroupPath rm containerId ∈ (makeCpuDirs k rm containerId fs).1.dirs
    else
      ∀ d ∈ (makeCpuDirs k rm containerId fs).1.dirs, d ∈ fs.dirs ∨
        d = cgroupDir cpuCgroupPath rm containerId ∨
        d = cgroupDir cpuacctCgroupPath rm containerId := by
  have hcases := cpuDirs_makeCpuDirs k rm containerId fs
  generalize makeCpuDirs k rm containerId fs = r at hcases ⊢
  cases hcases with
  | combined hcombined =>
    rw [if_pos (not_not.mp (fun hn =>
      absurd (mkdirOrExist_eq_none_iff.mpr hn) (by simp [hcombined])))]
    exact (mem_dirs_of_mkdirOrExist hcombined).mpr (Or.inl rfl)
  | refused hcombined =>
    rw [if_neg (mkdirOrExist_eq_none_iff.mp hcombined)]
    exact fun d hd => Or.inl hd
  | only hcombined honly =>
    rw [if_neg (mkdirOrExist_eq_none_iff.mp hcombined)]
    exact fun d hd => ((mem_dirs_of_mkdirOrExist honly).mp hd).elim
      (fun he => Or.inr (Or.inl he)) Or.inl
  | both hcombined honly hacct =>
    rw [if_neg (mkdirOrExist_eq_none_iff.mp hcombined)]
    intro d hd
    rcases (mem_dirs_of_mkdirOrExist hacct).mp hd with he | hd
    · exact Or.inr (Or.inr he)
    · exact ((mem_dirs_of_mkdirOrExist honly).mp hd).elim (fun he => Or.inr (Or.inl he)) Or.inl

/-- What holds through every directory made holds of those for processors. -/
theorem makeCpuDirs_preserves {rm : ResourceManager} {containerId : CStr} {P : CgroupFs → Prop}
    (hstep : ∀ root ∈ [cpuCpuacctCgroupPath, cpuCgroupPath, cpuacctCgroupPath], ∀ fs fs', P fs →
      mkdirOrExist k (cgroupDir root rm containerId) fs = some fs' → P fs')
    (h : P fs) : P (makeCpuDirs k rm containerId fs).1 := by
  have hcases := cpuDirs_makeCpuDirs k rm containerId fs
  generalize makeCpuDirs k rm containerId fs = r at hcases ⊢
  cases hcases with
  | combined hcombined => exact hstep _ (by decide) _ _ h hcombined
  | refused => exact h
  | only _ honly => exact hstep _ (by decide) _ _ h honly
  | both _ honly hacct =>
    exact hstep _ (by decide) _ _ (hstep _ (by decide) _ _ h honly) hacct

/-- **What holds through every directory made** holds of a creation's
directories. -/
theorem makeCgroupDirs_preserves {rm : ResourceManager} {containerId : CStr}
    {P : CgroupFs → Prop}
    (hstep : ∀ root ∈ cgroupRoots rm.version, ∀ fs fs', P fs →
      mkdirOrExist k (cgroupDir root rm containerId) fs = some fs' → P fs')
    (h : P fs) : P (makeCgroupDirs k rm containerId fs).1 := by
  have hdir : ∀ root ∈ cgroupRoots rm.version, ∀ fs, P fs →
      P (makeDir k (cgroupDir root rm containerId) fs).1 := by
    intro root hroot fs h
    unfold makeDir
    cases hmade : mkdirOrExist k (cgroupDir root rm containerId) fs with
    | none => exact h
    | some fs' => exact hstep root hroot fs fs' h hmade
  unfold makeCgroupDirs
  cases hv : rm.version with
  | v2 => exact hdir cgroupRoot (by rw [hv]; decide) fs h
  | v1 =>
    rw [hv] at hstep hdir
    have hcpu : P (makeCpuDirs k rm containerId fs).1 :=
      makeCpuDirs_preserves (fun root hroot =>
        hstep root (List.mem_append_left [memoryCgroupPath] hroot)) h
    unfold andThen
    dsimp only
    split
    · exact hdir memoryCgroupPath (by decide) _ hcpu
    · exact hcpu

/-- What a creation makes are directories the container can have. -/
theorem mem_dirs_of_create {rm : ResourceManager} {containerId : CStr} {limits : ResourceLimits}
    {d : CStr} (h : d ∈ (resourceManagerCreateCgroup k rm containerId limits fs).1.dirs) :
    d ∈ fs.dirs ∨ d ∈ cgroupDirs rm containerId := by
  unfold resourceManagerCreateCgroup at h
  split at h
  · rw [andThen_dirs rfl (fun _ => applyLimits_dirs _ _ _ _ _)] at h
    refine makeCgroupDirs_preserves (P := fun fs' => d ∈ fs'.dirs → d ∈ fs.dirs ∨
      d ∈ cgroupDirs rm containerId) ?_ Or.inl h
    intro root hroot fs' fs'' hprev hmade hd
    rcases (mem_dirs_of_mkdirOrExist hmade).mp hd with rfl | hd
    · exact Or.inr (mem_cgroupDirs hroot)
    · exact hprev hd
  · exact Or.inl h

/-- Adding a process changes no directory. -/
theorem addAllThreadsToCgroup_dirs (pid : ℤ) (path : CStr) (fs : CgroupFs) :
    (addAllThreadsToCgroup k pid path fs).1.dirs = fs.dirs := by
  unfold addAllThreadsToCgroup
  split
  · exact writeFile_dirs _ _ _ _
  · next names _ =>
    have hfold : ∀ (names : List CStr) (r : CgroupFs × Bool),
        (names.foldl (addThread k path) r).1.dirs = r.1.dirs := by
      intro names
      induction names with
      | nil => exact fun _ => rfl
      | cons name names ih =>
        intro r
        rw [List.foldl_cons, ih]
        unfold addThread
        split
        · rfl
        · exact writeFile_dirs _ _ _ _
    exact hfold names _

theorem resourceManagerAddProcess_dirs (rm : ResourceManager) (containerId : CStr) (pid : ℤ)
    (fs : CgroupFs) : (resourceManagerAddProcess k rm containerId pid fs).1.dirs = fs.dirs := by
  unfold resourceManagerAddProcess
  split
  · cases rm.version with
    | v2 => exact writeFile_dirs _ _ _ _
    | v1 =>
      refine andThen_dirs ?_ (fun _ => addAllThreadsToCgroup_dirs _ _ _)
      dsimp only
      split
      · exact addAllThreadsToCgroup_dirs _ _ _
      · rw [addAllThreadsToCgroup_dirs, addAllThreadsToCgroup_dirs, addAllThreadsToCgroup_dirs]
  · rfl

theorem mem_dirs_rmdir {d : CStr} :
    d ∈ (rmdir k path fs).dirs ↔ d ∈ fs.dirs ∧ ¬ (d = path ∧ k.rmdir path = true) := by
  unfold rmdir
  split
  · next h =>
    rw [List.mem_filter, decide_eq_true_iff]
    exact and_congr_right (fun _ => not_congr (by simp [h]))
  · next h => exact ⟨fun hd => ⟨hd, fun hp => h hp.2⟩, And.left⟩

/-- **What is left when a control group has been destroyed**: every other
directory, and those that could not be removed. -/
theorem mem_dirs_destroy {rm : ResourceManager} (hinit : rm.initialized = true)
    {containerId d : CStr} :
    d ∈ (resourceManagerDestroyCgroup k rm containerId fs).1.dirs ↔
      d ∈ fs.dirs ∧ ¬ (d ∈ cgroupDirs rm containerId ∧ k.rmdir d = true) := by
  rw [resourceManagerDestroyCgroup_eq k hinit]
  generalize cgroupDirs rm containerId = paths
  induction paths generalizing fs with
  | nil => simp
  | cons path paths ih =>
    rw [List.foldl_cons, ih, mem_dirs_rmdir, List.mem_cons]
    by_cases hd : d = path
    · subst hd
      by_cases hk : k.rmdir d = true <;> simp [hk]
    · simp [hd]

/-- A control group that was created has the directories that were made. -/
theorem create_of_code {rm : ResourceManager} {containerId : CStr} {limits : ResourceLimits}
    (h : (resourceManagerCreateCgroup k rm containerId limits fs).2 = 0) :
    (makeCgroupDirs k rm containerId fs).2 = 0 ∧
      (resourceManagerCreateCgroup k rm containerId limits fs).1.dirs
        = (makeCgroupDirs k rm containerId fs).1.dirs := by
  unfold resourceManagerCreateCgroup at h ⊢
  split at h
  · next hinit =>
    obtain ⟨hmade, hnext⟩ := andThen_eq_of_code h
    rw [if_pos hinit, hnext]
    exact ⟨hmade, applyLimits_dirs _ _ _ _ _⟩
  · exact absurd h (by simp)

end

/-! ## Statistics -/

/-- What `access` and `read_file` answer while statistics are taken. -/
structure CgroupReads where
  access : CStr → Bool
  read : CStr → Option CStr

/-- `find_cpuacct_usage_path`. -/
def findCpuacctUsagePath (reads : CgroupReads) (rm : ResourceManager) (containerId : CStr) :
    Option CStr :=
  [cpuCpuacctCgroupPath, cpuacctCgroupPath, cpuCgroupPath].map
    (fun root => cgroupFile root rm containerId "cpuacct.usage".toList) |>.find? reads.access

/-- A counter file: one number, up to a NUL, a newline or a blank. -/
def parseCounter (buffer : CStr) : ℕ :=
  let r := strtoul buffer
  if r.2 ≠ buffer ∧ (r.2.head? = none ∨ r.2.head? = some '\n' ∨ r.2.head? = some ' ') then r.1
  else 0

/-- The `usage_usec` line of `cpu.stat`, in nanoseconds. -/
def parseUsageUsec (buffer : CStr) : ℕ :=
  match strstrFrom buffer "usage_usec".toList with
  | none => 0
  | some line =>
    let value := (line.dropWhile (fun c => c ≠ ' ' ∧ c ≠ '\t')).dropWhile
      (fun c => c = ' ' ∨ c = '\t')
    let r := strtoul value
    if r.2 ≠ value then r.1 * 1000 % 2 ^ 64 else 0

/-- The file `resource_manager_get_stats` takes the CPU usage from. -/
def cpuUsageFile (reads : CgroupReads) (rm : ResourceManager) (containerId : CStr) :
    Option CStr :=
  match rm.version with
  | .v2 => some (cgroupFile cgroupRoot rm containerId "cpu.stat".toList)
  | .v1 => findCpuacctUsagePath reads rm containerId

/-- The file `resource_manager_get_stats` takes the memory usage from. -/
def memoryUsageFile (rm : ResourceManager) (containerId : CStr) : CStr :=
  match rm.version with
  | .v2 => cgroupFile cgroupRoot rm containerId "memory.current".toList
  | .v1 => cgroupFile memoryCgroupPath rm containerId "memory.usage_in_bytes".toList

/-- `resource_manager_get_stats`: the CPU usage and the memory usage, zero
where the file cannot be read, and the code returned. -/
def resourceManagerGetStats (reads : CgroupReads) (rm : ResourceManager)
    (containerId : CStr) : (ℕ × ℕ) × ℤ :=
  if rm.initialized then
    let cpu :=
      match (cpuUsageFile reads rm containerId).bind reads.read with
      | none => 0
      | some buffer =>
        match rm.version with
        | .v2 => parseUsageUsec buffer
        | .v1 => parseCounter buffer
    let memory := ((reads.read (memoryUsageFile rm containerId)).map parseCounter).getD 0
    ((cpu, memory), 0)
  else ((0, 0), -1)
