import MiniContainer.AppliedLimits
import MiniContainer.Attachment
import MiniContainer.Configuration
import MiniContainer.Confinement
import MiniContainer.Shutdown

/-!
# The processes of a container

`resource_manager_add_process` puts one process into the control group of a
container, and what that process forks is in it as well. `stop`, and the
handler of the signals that end the program, read the processes from a file of
the group, in a hierarchy that is fixed for each version of the interface.

On version 1 the process may have been put elsewhere: where the hierarchy
`cpu,cpuacct` does not take it, `cpu` and `cpuacct` are tried, and the readers
do not try them. `stop_sees_iff` says that the list they read has all processes
of the group exactly where the first hierarchy took the process.
-/

open CText

/-- The file of a directory that lists its processes. -/
def procsName : CgroupVersion → CStr
  | .v2 => "cgroup.procs".toList
  | .v1 => "tasks".toList

/-- **The processes in a directory**: those that were put there and what they
have forked since. `forks p q` says that `p` has forked `q`. -/
inductive Member (fs : CgroupFs) (version : CgroupVersion) (forks : ℤ → ℤ → Prop) (dir : CStr) :
    ℤ → Prop
  | joined {p : ℤ} (h : printDecimal p ∈ fs.files (dir ++ '/' :: procsName version)) :
      Member fs version forks dir p
  | forked {p q : ℤ} (h : Member fs version forks dir p) (hfork : forks p q) :
      Member fs version forks dir q

/-- What `stop` and `signal_handler` read: the pids in the file that lists the
processes of a container. -/
def readProcs (procs : CStr → Option (List ℤ)) (rm : ResourceManager) (containerId : CStr) :
    List ℤ := (procs (stopProcsPath rm containerId)).getD []

/-- What `stop` kills. -/
theorem stopTargets_eq (env : Env) (rm : ResourceManager) (info : ContainerInfo) :
    stopTargets env rm info = (readProcs env.procs rm info.id ++ [info.pid]).filter (0 < ·) := rfl

/-- What `signal_handler` signals. -/
theorem signals_signalProcs (signal : Signal) (procs : CStr → Option (List ℤ))
    (info : ContainerInfo) (s : Shutdown) :
    (signalProcs signal procs info s).signals = s.signals ++
      ((readProcs procs s.world.cm.rm info.id).filter (0 < ·)).map (signal, ·) := rfl

/-- **The kernel lists the processes of the directories there are.** -/
structure ShowsProcs (procs : CStr → Option (List ℤ)) (fs : CgroupFs) (version : CgroupVersion)
    (forks : ℤ → ℤ → Prop) (dir : CStr) : Prop where
  opens : (procs (dir ++ '/' :: procsName version)).isSome = true ↔ dir ∈ fs.dirs
  lists : ∀ l, procs (dir ++ '/' :: procsName version) = some l →
    ∀ p, p ∈ l ↔ Member fs version forks dir p

section

variable {k : Kernel} {rm : ResourceManager} {containerId : CStr} {fs : CgroupFs} {pid : ℤ}
  {forks : ℤ → ℤ → Prop}

/-- Where no process was put there are none. -/
theorem not_member {version : CgroupVersion} {dir : CStr}
    (h : fs.files (dir ++ '/' :: procsName version) = []) (p : ℤ) :
    ¬ Member fs version forks dir p := by
  intro hp
  induction hp with
  | joined hjoined =>
    rw [h] at hjoined
    cases hjoined
  | forked _ _ ih => exact ih

/-- Where the same processes were put there are the same. -/
theorem Member.of_joined {version : CgroupVersion} {dir dir' : CStr}
    (h : ∀ p, printDecimal p ∈ fs.files (dir ++ '/' :: procsName version) →
      printDecimal p ∈ fs.files (dir' ++ '/' :: procsName version)) {p : ℤ}
    (hp : Member fs version forks dir p) : Member fs version forks dir' p := by
  induction hp with
  | joined hjoined => exact .joined (h _ hjoined)
  | forked _ hfork ih => exact .forked ih hfork

/-- Names that start with a dot are passed over. -/
theorem foldl_addThread_filter (path : CStr) (names : List CStr) (r : CgroupFs × Bool) :
    names.foldl (addThread k path) r
      = (names.filter (fun name => name.head? ≠ some '.')).foldl (addThread k path) r := by
  rw [List.foldl_filter]
  congr 1
  funext r name
  unfold addThread
  by_cases hdot : name.head? = some '.'
  · rw [if_pos hdot, if_neg (by simpa using hdot)]
  · rw [if_neg hdot, if_pos (by simpa using hdot)]

/-- **A process with one thread is written to a file once.** -/
theorem addAllThreadsToCgroup_eq (hpid : IsInt pid) (hthread : ListsThread pid (k.tasks pid))
    (path : CStr) (fs : CgroupFs) :
    addAllThreadsToCgroup k pid path fs = writeFile k path (printDecimal pid) fs := by
  unfold addAllThreadsToCgroup
  cases htasks : k.tasks pid with
  | none => rfl
  | some names =>
    rw [htasks] at hthread
    have hdot : (printDecimal pid).head? ≠ some '.' := fun h =>
      not_mem_printDecimal (by decide) (by decide) pid (List.mem_of_head? h)
    have hlen := length_printDecimal_le hpid.isLong
    dsimp only
    rw [foldl_addThread_filter, hthread, List.foldl_cons, List.foldl_nil, addThread, if_neg hdot,
      snprintf_of_lt (by omega)]
    rcases writeFile_cases k path (printDecimal pid) fs with h | h <;> rw [h] <;> rfl

/-! ## What a creation leaves alone -/

theorem files_writeFile_of_ne {path p value : CStr} (h : p ≠ path) :
    (writeFile k path value fs).1.files p = fs.files p := by
  rcases writeFile_cases k path value fs with hw | hw <;> rw [hw]
  exact fs.files_put_of_ne h value

theorem mem_files_put {path value p x : CStr} :
    x ∈ (fs.put path value).files p ↔ (p = path ∧ x = value) ∨ x ∈ fs.files p := by
  by_cases hp : p = path
  · subst hp
    rw [fs.files_put_self, List.mem_cons, and_iff_right rfl]
  · rw [fs.files_put_of_ne hp]
    exact (or_iff_right (fun h => hp h.1)).symm

theorem writeFile_of_code {path value : CStr} (h : (writeFile k path value fs).2 = 0) :
    writeFile k path value fs = (fs.put path value, 0) := by
  rcases writeFile_cases k path value fs with hw | hw
  · exact hw
  · exact absurd (congrArg Prod.snd hw) (by rw [h]; simp)

/-- The control files of a container. -/
def controlPaths (rm : ResourceManager) (containerId : CStr) : List CStr :=
  (cgroupDirs rm containerId).flatMap fun d =>
    (cpuFiles ++ memoryFiles).map fun name => d ++ '/' :: name

theorem mem_controlPaths {root name : CStr} (hroot : root ∈ cgroupRoots rm.version)
    (hname : name ∈ cpuFiles ++ memoryFiles) :
    cgroupDir root rm containerId ++ '/' :: name ∈ controlPaths rm containerId :=
  List.mem_flatMap.mpr
    ⟨_, mem_cgroupDirs hroot, List.mem_map.mpr ⟨name, hname, rfl⟩⟩

/-- The files that list processes are no control files. -/
theorem procs_not_mem_controlPaths (version : CgroupVersion) (d : CStr) :
    d ++ '/' :: procsName version ∉ controlPaths rm containerId := by
  have hnames : ∀ name ∈ cpuFiles ++ memoryFiles, '/' ∉ name ∧ name ≠ procsName version := by
    cases version <;> decide
  have hslash : '/' ∉ procsName version := by
    cases version <;> decide
  intro h
  obtain ⟨d', -, h⟩ := List.mem_flatMap.mp h
  obtain ⟨name, hname, h⟩ := List.mem_map.mp h
  exact (hnames name hname).2 (eq_of_path_eq (hnames name hname).1 hslash h).2

section

variable {p : CStr} (hfit : PathsFit rm containerId) (hp : p ∉ controlPaths rm containerId)
include hfit hp

theorem files_controlFile {root name value : CStr} (hroot : root ∈ cgroupRoots rm.version)
    (hname : name ∈ cpuFiles ++ memoryFiles) :
    (writeFile k (cgroupFile root rm containerId name) value fs).1.files p = fs.files p := by
  have hlen : ∀ name ∈ cpuFiles ++ memoryFiles, name.length ≤ 27 := by decide
  rw [hfit.cgroupFile_eq hroot (hlen name hname)]
  exact files_writeFile_of_ne (fun h => hp (h ▸ mem_controlPaths hroot hname))

omit hfit in
theorem files_writeChecked {root name value : CStr} (hroot : root ∈ cgroupRoots rm.version)
    (hname : name ∈ cpuFiles ++ memoryFiles) :
    (writeChecked k (cgroupDir root rm containerId) name value fs).1.files p = fs.files p := by
  rcases writeChecked_cases k (cgroupDir root rm containerId) name value fs with hw | hw <;> rw [hw]
  exact fs.files_put_of_ne (fun h : p = _ => hp (h ▸ mem_controlPaths hroot hname)) value

theorem files_setCpuLimits (limits : CpuLimits) :
    (setCpuLimits k rm containerId limits fs).1.files p = fs.files p := by
  unfold setCpuLimits
  cases hv : rm.version with
  | v2 => exact files_controlFile hfit hp (by rw [hv]; decide) (by decide)
  | v1 =>
    dsimp only
    have hcpu : ∀ {name value : CStr} {fs' : CgroupFs}, name ∈ cpuFiles ++ memoryFiles →
        (writeChecked k (if cgroupDir cpuCpuacctCgroupPath rm containerId ∈ fs.dirs then
            cgroupDir cpuCpuacctCgroupPath rm containerId
          else cgroupDir cpuCgroupPath rm containerId) name value fs').1.files p
          = fs'.files p := by
      intro name value fs' hname
      split
      · exact files_writeChecked hp (by rw [hv]; decide) hname
      · exact files_writeChecked hp (by rw [hv]; decide) hname
    rw [files_andThen]
    · split
      · rw [files_andThen (fun fs' => hcpu (by decide)), hcpu (by decide)]
      · rfl
    · intro fs'
      split
      · exact hcpu (by decide)
      · rfl

theorem files_setMemoryLimits (limits : MemoryLimits) :
    (setMemoryLimits k rm containerId limits fs).1.files p = fs.files p := by
  unfold setMemoryLimits
  cases hv : rm.version with
  | v2 =>
    dsimp only
    rw [files_andThen]
    · exact files_controlFile hfit hp (by rw [hv]; decide) (by decide)
    · intro fs'
      split
      · exact files_controlFile hfit hp (by rw [hv]; decide) (by decide)
      · rfl
  | v1 =>
    dsimp only
    rw [files_andThen]
    · split
      · exact files_controlFile hfit hp (by rw [hv]; decide) (by decide)
      · rfl
    · intro fs'
      split
      · exact files_controlFile hfit hp (by rw [hv]; decide) (by decide)
      · rfl

/-- **Setting limits writes to control files only.** -/
theorem files_applyLimits (limits : ResourceLimits) :
    (applyLimits k rm containerId limits fs).files p = fs.files p := by
  unfold applyLimits
  dsimp only
  split
  · rw [files_setMemoryLimits hfit hp]
    split
    · exact files_setCpuLimits hfit hp _
    · rfl
  · split
    · exact files_setCpuLimits hfit hp _
    · rfl

end

/-- **No process is in the control group of a container**, of which
directories may be there. -/
def NoProcs (rm : ResourceManager) (containerId : CStr) (fs : CgroupFs) : Prop :=
  ∀ d ∈ cgroupDirs rm containerId, d ∈ fs.dirs →
    fs.files (d ++ '/' :: procsName rm.version) = []

/-- **Creating a control group puts no process into it.** -/
theorem NoProcs.create (hfit : PathsFit rm containerId) (hempty : NoProcs rm containerId fs)
    {limits : ResourceLimits}
    (hcode : (resourceManagerCreateCgroup k rm containerId limits fs).2 = 0) :
    NoProcs rm containerId (resourceManagerCreateCgroup k rm containerId limits fs).1 := by
  intro d hd hmem
  rw [(create_of_code hcode).2] at hmem
  unfold resourceManagerCreateCgroup at hcode ⊢
  split at hcode
  · next hinit =>
    rw [if_pos hinit, (andThen_eq_of_code hcode).2]
    dsimp only
    rw [files_applyLimits hfit (procs_not_mem_controlPaths _ _)]
    exact makeCgroupDirs_preserves (P := NoProcs rm containerId)
      (fun _ _ _ _ h hmade => files_eq_nil_of_mkdirOrExist h hmade) hempty d hd hmem
  · exact absurd hcode (by simp)

/-! ## Where a process is put -/

/-- **Adding a process on version 1**, which has one thread, puts it into the
first hierarchy for processors that takes it, or into the two others, and then
into the one for memory. -/
theorem add_v1 (hv : rm.version = .v1) (hfit : PathsFit rm containerId) (hpid : IsInt pid)
    (hthread : ListsThread pid (k.tasks pid))
    (hcode : (resourceManagerAddProcess k rm containerId pid fs).2 = 0) :
    ∃ fs', (resourceManagerAddProcess k rm containerId pid fs).1
        = fs'.put (cgroupDir memoryCgroupPath rm containerId ++ '/' :: "tasks".toList)
          (printDecimal pid) ∧
      if cgroupDir cpuCpuacctCgroupPath rm containerId ∈ fs.dirs ∧
          k.write (cgroupDir cpuCpuacctCgroupPath rm containerId ++ '/' :: "tasks".toList)
            (printDecimal pid) = true then
        fs' = fs.put (cgroupDir cpuCpuacctCgroupPath rm containerId ++ '/' :: "tasks".toList)
          (printDecimal pid)
      else
        ∀ p, p ≠ cgroupDir cpuCgroupPath rm containerId ++ '/' :: "tasks".toList →
          p ≠ cgroupDir cpuacctCgroupPath rm containerId ++ '/' :: "tasks".toList →
          fs'.files p = fs.files p := by
  have hfile : ∀ root ∈ cgroupRoots .v1, cgroupFile root rm containerId "tasks".toList
      = cgroupDir root rm containerId ++ '/' :: "tasks".toList :=
    fun root hroot => hfit.cgroupFile_eq (by rwa [hv]) (by decide)
  have hdir := dirOf_append (show '/' ∉ "tasks".toList by decide)
    (cgroupDir cpuCpuacctCgroupPath rm containerId)
  unfold resourceManagerAddProcess at hcode ⊢
  split at hcode
  · next hinit =>
    rw [if_pos hinit]
    simp only [hv, addAllThreadsToCgroup_eq hpid hthread,
      hfile cpuCpuacctCgroupPath (by decide), hfile cpuCgroupPath (by decide),
      hfile cpuacctCgroupPath (by decide), hfile memoryCgroupPath (by decide)] at hcode ⊢
    obtain ⟨-, hnext⟩ := andThen_eq_of_code hcode
    rw [hnext] at hcode ⊢
    refine ⟨_, (congrArg Prod.fst (writeFile_of_code hcode)), ?_⟩
    by_cases htakes : cgroupDir cpuCpuacctCgroupPath rm containerId ∈ fs.dirs ∧
        k.write (cgroupDir cpuCpuacctCgroupPath rm containerId ++ '/' :: "tasks".toList)
          (printDecimal pid) = true
    · have hboth := writeFile_eq_put (k := k) (by rw [hdir]; exact htakes.1) htakes.2
      rw [if_pos htakes, hboth]
      rfl
    · have hboth : writeFile k
          (cgroupDir cpuCpuacctCgroupPath rm containerId ++ '/' :: "tasks".toList)
          (printDecimal pid) fs = (fs, -1) := if_neg (by rwa [hdir])
      rw [if_neg htakes, hboth]
      exact fun p hcpu hacct => (files_writeFile_of_ne hacct).trans (files_writeFile_of_ne hcpu)
  · exact absurd hcode (by simp)

/-- The file `stop` reads is in the hierarchy of its version. -/
theorem stopProcsPath_eq (hfit : PathsFit rm containerId) :
    stopProcsPath rm containerId
      = cgroupDir (stopRoot rm.version) rm containerId ++ '/' :: procsName rm.version := by
  unfold stopProcsPath
  cases hv : rm.version <;> exact hfit.cgroupFile_eq (by rw [hv]; decide) (by decide)

/-! ## What `stop` sees -/

/-- **`stop` sees every process of the container**: the pids it reads are all
those in the directories of the control group. -/
def StopSees (procs : CStr → Option (List ℤ)) (rm : ResourceManager) (containerId : CStr)
    (fs : CgroupFs) (forks : ℤ → ℤ → Prop) : Prop :=
  ∀ d ∈ cgroupDirs rm containerId, d ∈ fs.dirs → ∀ p, Member fs rm.version forks d p →
    p ∈ readProcs procs rm containerId

/-- It sees those of the hierarchy it looks into. -/
theorem mem_readProcs_of_member {procs : CStr → Option (List ℤ)} (hfit : PathsFit rm containerId)
    (hshows : ShowsProcs procs fs rm.version forks (cgroupDir (stopRoot rm.version) rm containerId))
    (hdir : cgroupDir (stopRoot rm.version) rm containerId ∈ fs.dirs) {p : ℤ}
    (hp : Member fs rm.version forks (cgroupDir (stopRoot rm.version) rm containerId) p) :
    p ∈ readProcs procs rm containerId := by
  obtain ⟨l, hl⟩ := Option.isSome_iff_exists.mp (hshows.opens.mpr hdir)
  unfold readProcs
  rw [stopProcsPath_eq hfit, hl]
  exact (hshows.lists l hl p).mpr hp

/-- It sees no others. -/
theorem member_of_mem_readProcs {procs : CStr → Option (List ℤ)} (hfit : PathsFit rm containerId)
    (hshows : ShowsProcs procs fs rm.version forks (cgroupDir (stopRoot rm.version) rm containerId))
    {p : ℤ} (hp : p ∈ readProcs procs rm containerId) :
    cgroupDir (stopRoot rm.version) rm containerId ∈ fs.dirs ∧
      Member fs rm.version forks (cgroupDir (stopRoot rm.version) rm containerId) p := by
  unfold readProcs at hp
  rw [stopProcsPath_eq hfit] at hp
  cases hl : procs (cgroupDir (stopRoot rm.version) rm containerId ++
      '/' :: procsName rm.version) with
  | none =>
    rw [hl] at hp
    cases hp
  | some l =>
    rw [hl] at hp
    exact ⟨hshows.opens.mp (by rw [hl]; rfl), (hshows.lists l hl p).mp hp⟩

/-- It sees every process if each one that was put anywhere was put there too. -/
theorem stopSees_of_joined {procs : CStr → Option (List ℤ)} (hfit : PathsFit rm containerId)
    (hshows : ShowsProcs procs fs rm.version forks (cgroupDir (stopRoot rm.version) rm containerId))
    (hdir : cgroupDir (stopRoot rm.version) rm containerId ∈ fs.dirs)
    (hjoined : ∀ d ∈ cgroupDirs rm containerId, d ∈ fs.dirs → ∀ p,
      printDecimal p ∈ fs.files (d ++ '/' :: procsName rm.version) →
      printDecimal p ∈ fs.files
        (cgroupDir (stopRoot rm.version) rm containerId ++ '/' :: procsName rm.version)) :
    StopSees procs rm containerId fs forks :=
  fun d hd hin _ hp =>
    mem_readProcs_of_member hfit hshows hdir (hp.of_joined (hjoined d hd hin))

/-- It misses a process that is elsewhere where none was put there. -/
theorem not_stopSees_of_nil {procs : CStr → Option (List ℤ)} (hfit : PathsFit rm containerId)
    (hshows : ShowsProcs procs fs rm.version forks (cgroupDir (stopRoot rm.version) rm containerId))
    {d : CStr} (hd : d ∈ cgroupDirs rm containerId) (hin : d ∈ fs.dirs)
    (hmember : Member fs rm.version forks d pid)
    (hnone : cgroupDir (stopRoot rm.version) rm containerId ∈ fs.dirs →
      fs.files (cgroupDir (stopRoot rm.version) rm containerId ++ '/' :: procsName rm.version)
        = []) : ¬ StopSees procs rm containerId fs forks := by
  intro hsees
  obtain ⟨hdir, hstopped⟩ := member_of_mem_readProcs hfit hshows (hsees d hd hin pid hmember)
  exact not_member (hnone hdir) pid hstopped

/-- On version 2 there is one directory. -/
theorem stopSees_v2 {procs : CStr → Option (List ℤ)} (hv : rm.version = .v2)
    (hfit : PathsFit rm containerId)
    (hshows : ShowsProcs procs fs rm.version forks
      (cgroupDir (stopRoot rm.version) rm containerId)) :
    StopSees procs rm containerId fs forks := by
  have hone : ∀ d ∈ cgroupDirs rm containerId,
      d = cgroupDir (stopRoot rm.version) rm containerId := by
    intro d hd
    rw [cgroupDirs, hv] at hd
    rw [hv]
    exact List.mem_singleton.mp hd
  intro d hd hin p hp
  rw [hone d hd] at hin hp
  exact mem_readProcs_of_member hfit hshows hin hp

/-- **On version 1**, where no process was in the control group, `stop` sees the
one that joins it, and what it forks, exactly if it joins the hierarchy
`cpu,cpuacct`. -/
theorem stopSees_add_iff_v1 {procs : CStr → Option (List ℤ)} (hv : rm.version = .v1)
    (hpath : rm.cgroupPath = basePath) (hid : Component containerId)
    (hempty : NoProcs rm containerId fs)
    (hmemdir : cgroupDir memoryCgroupPath rm containerId ∈ fs.dirs)
    (hpid : IsInt pid) (hthread : ListsThread pid (k.tasks pid))
    (hadd : (resourceManagerAddProcess k rm containerId pid fs).2 = 0)
    (hshows : ShowsProcs procs (resourceManagerAddProcess k rm containerId pid fs).1
      rm.version forks (cgroupDir (stopRoot rm.version) rm containerId)) :
    StopSees procs rm containerId (resourceManagerAddProcess k rm containerId pid fs).1 forks ↔
      cgroupDir cpuCpuacctCgroupPath rm containerId ∈ fs.dirs ∧
        k.write (cgroupDir cpuCpuacctCgroupPath rm containerId ++ '/' :: "tasks".toList)
          (printDecimal pid) = true := by
  have hfit := hid.pathsFit hpath
  have hdirs := resourceManagerAddProcess_dirs (k := k) rm containerId pid fs
  obtain ⟨fs', hafter, hput⟩ := add_v1 hv hfit hpid hthread hadd
  rw [hafter] at hdirs hshows ⊢
  unfold NoProcs at hempty
  rw [hv] at hempty
  have hne : ∀ root ∈ cgroupRoots .v1, root ≠ cpuCpuacctCgroupPath →
      cgroupDir cpuCpuacctCgroupPath rm containerId ++ '/' :: "tasks".toList
        ≠ cgroupDir root rm containerId ++ '/' :: "tasks".toList := by
    intro root hroot hother h
    exact hother (eq_of_cgroupDir_eq hpath hid hid (by rw [hv]; decide) (by rwa [hv])
      (List.append_cancel_right h)).1.symm
  have hroots : ∀ root ∈ cgroupRoots .v1, cgroupDir root rm containerId
      ∈ cgroupDirs rm containerId := fun _ hroot => mem_cgroupDirs (by rwa [hv])
  split at hput
  · next htakes =>
    subst hput
    refine iff_of_true ?_ htakes
    refine stopSees_of_joined hfit hshows (by rw [hdirs, hv]; exact htakes.1) ?_
    intro d hd hin p hjoined
    rw [hdirs] at hin
    rw [hv] at hjoined ⊢
    -- one process was put anywhere
    have hone : printDecimal p = printDecimal pid := by
      rcases mem_files_put.mp hjoined with ⟨-, h⟩ | hjoined
      · exact h
      rcases mem_files_put.mp hjoined with ⟨-, h⟩ | hjoined
      · exact h
      rw [hempty d hd hin] at hjoined
      cases hjoined
    exact mem_files_put.mpr (Or.inr (mem_files_put.mpr (Or.inl ⟨rfl, hone⟩)))
  · next hnot =>
    refine iff_of_false ?_ hnot
    -- the process is in the hierarchy for memory, the one `stop` looks into is as it was
    have hmember : Member (fs'.put (cgroupDir memoryCgroupPath rm containerId ++
        '/' :: "tasks".toList) (printDecimal pid)) rm.version forks
        (cgroupDir memoryCgroupPath rm containerId) pid := by
      rw [hv]
      exact .joined (mem_files_put.mpr (Or.inl ⟨rfl, rfl⟩))
    refine not_stopSees_of_nil hfit hshows (hroots memoryCgroupPath (by decide))
      (by rw [hdirs]; exact hmemdir) hmember ?_
    rw [hdirs, hv]
    intro hin
    have hsame := hput _ (hne cpuCgroupPath (by decide) (by decide))
      (hne cpuacctCgroupPath (by decide) (by decide))
    have hnone := hempty _ (hroots cpuCpuacctCgroupPath (by decide)) hin
    exact (CgroupFs.files_put_of_ne _ (hne memoryCgroupPath (by decide) (by decide)) _).trans
      (hsame.trans hnone)

/-- **When the list that `stop` reads has all processes of the control group**
of a container that has been created, and joined by a process that was just
cloned: always on version 2, and on version 1 exactly if the directory in the
hierarchy `cpu,cpuacct` was there or could be made, and took the process. -/
theorem stop_sees_iff {host : CgroupHost} {k₀ : Kernel} {limits : ResourceLimits}
    {procs : CStr → Option (List ℤ)}
    (hrm : resourceManagerInit host basePath = some rm) (hid : Component containerId)
    (hempty : NoProcs rm containerId fs)
    (hcreate : (resourceManagerCreateCgroup k₀ rm containerId limits fs).2 = 0)
    (hpid : IsInt pid) (hthread : ListsThread pid (k.tasks pid))
    (hadd : (resourceManagerAddProcess k rm containerId pid
      (resourceManagerCreateCgroup k₀ rm containerId limits fs).1).2 = 0)
    (hshows : ShowsProcs procs
      (resourceManagerAddProcess k rm containerId pid
        (resourceManagerCreateCgroup k₀ rm containerId limits fs).1).1
      rm.version forks (cgroupDir (stopRoot rm.version) rm containerId)) :
    StopSees procs rm containerId
        (resourceManagerAddProcess k rm containerId pid
          (resourceManagerCreateCgroup k₀ rm containerId limits fs).1).1 forks ↔
      (rm.version = .v1 →
        (cgroupDir cpuCpuacctCgroupPath rm containerId ∈ fs.dirs ∨
          k₀.mkdir (cgroupDir cpuCpuacctCgroupPath rm containerId) = true) ∧
        k.write (cgroupDir cpuCpuacctCgroupPath rm containerId ++ '/' :: "tasks".toList)
          (printDecimal pid) = true) := by
  have hpath := cgroupPath_of_resourceManagerInit hrm
  have hfit := hid.pathsFit hpath
  obtain ⟨hmade, hdirs⟩ := create_of_code hcreate
  obtain ⟨hmemdir, hstop⟩ := mem_dirs_makeCgroupDirs hpath hid hmade
  rw [← hdirs] at hmemdir hstop
  cases hv : rm.version with
  | v2 => exact iff_of_true (stopSees_v2 hv hfit hshows) (fun h => nomatch h)
  | v1 =>
    rw [hv] at hmemdir hstop
    rw [stopSees_add_iff_v1 hv hpath hid (hempty.create hfit hcreate) hmemdir hpid hthread hadd
      hshows]
    exact ⟨fun h _ => ⟨hstop.mp h.1 hv, h.2⟩, fun h => ⟨hstop.mpr (fun _ => (h rfl).1), (h rfl).2⟩⟩

end

/-- Version 1 with these hierarchies, on which nothing fails: the control
group of a container called `c`, joined by the process 42. -/
def joinedGroup (hierarchies : List CStr) : CgroupFs :=
  (resourceManagerAddProcess (.mounted hierarchies) ⟨basePath, true, .v1⟩ ['c'] 42
    (resourceManagerCreateCgroup (.mounted hierarchies) ⟨basePath, true, .v1⟩ ['c'] noLimits
      ⟨hierarchies, fun _ => []⟩).1).1

/-- The process 42 has forked 43. -/
def forks42 (p q : ℤ) : Prop := p = 42 ∧ q = 43

theorem stop_sees_iff_combined :
    StopSees (fun path => if path = stopProcsPath ⟨basePath, true, .v1⟩ ['c'] then some [42, 43]
        else none) ⟨basePath, true, .v1⟩ ['c']
      (joinedGroup [cpuCpuacctCgroupPath, memoryCgroupPath]) forks42 := by
  have hpath : cgroupDir cpuCpuacctCgroupPath ⟨basePath, true, .v1⟩ ['c'] ++ '/' :: "tasks".toList
      = stopProcsPath ⟨basePath, true, .v1⟩ ['c'] := by decide
  have hfiles : (joinedGroup [cpuCpuacctCgroupPath, memoryCgroupPath]).files
      (stopProcsPath ⟨basePath, true, .v1⟩ ['c']) = [printDecimal 42] := by decide
  have hrm : resourceManagerInit ⟨fun path => path ≠ cgroupV2Controllers, none⟩ basePath
      = some ⟨basePath, true, .v1⟩ := by decide
  have hcreate : (resourceManagerCreateCgroup (.mounted [cpuCpuacctCgroupPath, memoryCgroupPath])
      ⟨basePath, true, .v1⟩ ['c'] noLimits
      ⟨[cpuCpuacctCgroupPath, memoryCgroupPath], fun _ => []⟩).2 = 0 := by decide
  refine (stop_sees_iff (k := .mounted [cpuCpuacctCgroupPath, memoryCgroupPath]) hrm
    ⟨by decide, by decide⟩ (fun _ _ _ => rfl) hcreate (by decide) trivial (by decide)
    ⟨?_, ?_⟩).mpr (fun _ => ⟨by decide, rfl⟩)
  · exact iff_of_true (by decide) (by decide)
  · intro l hl p
    have hl : [42, 43] = l := Option.some.inj ((if_pos hpath).symm.trans hl)
    subst hl
    constructor
    · intro hp
      have hjoined : Member (joinedGroup [cpuCpuacctCgroupPath, memoryCgroupPath]) .v1 forks42
          (cgroupDir cpuCpuacctCgroupPath ⟨basePath, true, .v1⟩ ['c']) 42 :=
        .joined (by decide)
      rcases List.mem_pair.mp hp with rfl | rfl
      · exact hjoined
      · exact .forked hjoined ⟨rfl, rfl⟩
    · intro hp
      induction hp with
      | joined hjoined =>
        have h := printDecimal_injective (List.mem_singleton.mp (hfiles ▸ hjoined))
        exact List.mem_pair.mpr (Or.inl h)
      | forked _ hfork => exact List.mem_pair.mpr (Or.inr hfork.2)

/-- **Where `cpu` and `cpuacct` are hierarchies of their own, `stop` sees no
process at all**: the file it reads is in a hierarchy that is not there. -/
theorem separate_hierarchies_hide :
    ∃ host : CgroupHost, resourceManagerInit host basePath = some ⟨basePath, true, .v1⟩ ∧
      Member (joinedGroup separateHierarchies) .v1 forks42
        (cgroupDir memoryCgroupPath ⟨basePath, true, .v1⟩ ['c']) 43 ∧
      ShowsProcs (fun _ => none) (joinedGroup separateHierarchies) .v1 forks42
        (cgroupDir cpuCpuacctCgroupPath ⟨basePath, true, .v1⟩ ['c']) ∧
      ¬ StopSees (fun _ => none) ⟨basePath, true, .v1⟩ ['c'] (joinedGroup separateHierarchies)
        forks42 := by
  have hmember : Member (joinedGroup separateHierarchies) .v1 forks42
      (cgroupDir memoryCgroupPath ⟨basePath, true, .v1⟩ ['c']) 43 :=
    .forked (.joined (p := 42) (by decide)) ⟨rfl, rfl⟩
  refine ⟨⟨fun path => path ≠ cgroupV2Controllers, none⟩, by decide, hmember,
    ⟨by decide, fun _ h => nomatch h⟩, fun hsees => ?_⟩
  exact absurd (hsees _ (by decide) (by decide) 43 hmember) List.not_mem_nil
