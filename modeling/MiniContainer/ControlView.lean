import MiniContainer.CgroupUses
import MiniContainer.ControlFiles

/-!
# What a container's control files show

Two file systems of control groups are `Alike` for a container where they
have the same of its directories and its control files hold the same values;
the files that list processes are not counted among them.

Whatever is done under another identifier leaves them alike
(`Alike.of_replay`), and creating the control group of the container a second
time with the same limits does too (`Alike.create_again`): the directories
are found, by the same chain of fallbacks, and the same values are written
over themselves.
-/

open CText

/-- The files of a control group that list its processes. -/
def processFiles : List CStr := ["cgroup.procs".toList, "tasks".toList]

/-- A control file of a container, other than a list of processes. -/
def ControlFile (rm : ResourceManager) (containerId path : CStr) : Prop :=
  ∃ d ∈ cgroupDirs rm containerId, ∃ name, path = d ++ '/' :: name ∧ '/' ∉ name ∧
    name ∉ processFiles

/-- **Alike for a container.** -/
structure Alike (rm : ResourceManager) (containerId : CStr) (fs fs' : CgroupFs) : Prop where
  dirs : ∀ d ∈ cgroupDirs rm containerId, d ∈ fs'.dirs ↔ d ∈ fs.dirs
  files : ∀ path, ControlFile rm containerId path → fs'.latest path = fs.latest path

namespace Alike

variable {rm : ResourceManager} {containerId : CStr} {fs fs' fs'' : CgroupFs}

theorem refl (fs : CgroupFs) : Alike rm containerId fs fs :=
  ⟨fun _ _ => Iff.rfl, fun _ _ => rfl⟩

theorem trans (h : Alike rm containerId fs fs') (h' : Alike rm containerId fs' fs'') :
    Alike rm containerId fs fs'' :=
  ⟨fun d hd => (h'.dirs d hd).trans (h.dirs d hd),
    fun path hpath => (h'.files path hpath).trans (h.files path hpath)⟩

end Alike

/-! ## Paths of other containers -/

/-- How many slashes a hierarchy has. -/
def slashes : CgroupVersion → ℕ
  | .v1 => 4
  | .v2 => 3

section

variable {rm : ResourceManager} {containerId other : CStr}

/-- All directories of a version are equally deep. -/
theorem count_slash_cgroupDir (hrm : rm.cgroupPath = basePath) (hid : Component containerId)
    {d : CStr} (hd : d ∈ cgroupDirs rm containerId) : d.count '/' = slashes rm.version + 1 := by
  obtain ⟨root, hroot, rfl⟩ := List.mem_map.mp hd
  have hcount : root.count '/' = slashes rm.version := by
    have hall : ∀ version, ∀ root ∈ cgroupRoots version, root.count '/' = slashes version := by
      intro version
      cases version <;> decide
    exact hall _ root hroot
  have hbase : basePath.count '/' = 0 := by decide
  have hzero : containerId.count '/' = 0 := List.count_eq_zero.mpr hid.no_slash
  unfold cgroupDir
  rw [snprintf_of_lt (length_cgroupName_lt hrm hid hroot), cgroupName, hrm, List.count_append,
    List.count_cons_self, List.count_append, List.count_cons_of_ne (by decide), hcount, hbase,
    hzero]

/-- **Different containers have different directories.** -/
theorem ne_of_mem_cgroupDirs (hrm : rm.cgroupPath = basePath) (hid : Component containerId)
    (hother : Component other) (hne : other ≠ containerId) {d d' : CStr}
    (hd : d ∈ cgroupDirs rm containerId) (hd' : d' ∈ cgroupDirs rm other) : d' ≠ d := by
  obtain ⟨root, hroot, rfl⟩ := List.mem_map.mp hd
  obtain ⟨root', hroot', rfl⟩ := List.mem_map.mp hd'
  exact fun he => hne (eq_of_cgroupDir_eq hrm hother hid hroot' hroot he).2

/-- No file of a container lies below a directory of another. -/
theorem not_below (hrm : rm.cgroupPath = basePath) (hid : Component containerId)
    (hother : Component other) (hne : other ≠ containerId) {d d' name : CStr}
    (hd : d ∈ cgroupDirs rm containerId) (hd' : d' ∈ cgroupDirs rm other) (hname : '/' ∉ name) :
    ¬ d' ++ ['/'] <+: d ++ '/' :: name := by
  rintro ⟨t, ht⟩
  rw [List.append_assoc, List.singleton_append] at ht
  -- the directories are equally deep, so there is no slash behind the prefix
  have hcount := congrArg (List.count '/') ht
  rw [List.count_append, List.count_cons_self, List.count_append, List.count_cons_self,
    count_slash_cgroupDir hrm hid hd, count_slash_cgroupDir hrm hother hd',
    List.count_eq_zero.mpr hname] at hcount
  have hslash : '/' ∉ t := List.count_eq_zero.mp (by omega)
  exact ne_of_mem_cgroupDirs hrm hid hother hne hd hd' (eq_of_path_eq hslash hname ht).1

end

/-! ## Kernels that refuse nothing they could do -/

/-- **A reliable kernel**: a directory is made where its hierarchy exists,
and a value is written where the directory does. -/
structure Kernel.Reliable (k : Kernel) (hierarchies : List CStr) : Prop where
  mkdir : ∀ path, k.mkdir path = true ↔ dirOf path ∈ hierarchies
  write : ∀ path value, k.write path value = true

theorem Kernel.Reliable.mkdir_eq {k k' : Kernel} {hierarchies : List CStr}
    (h : k.Reliable hierarchies) (h' : k'.Reliable hierarchies) (path : CStr) :
    k'.mkdir path = k.mkdir path :=
  Bool.eq_iff_iff.mpr ((h'.mkdir path).trans (h.mkdir path).symm)

/-! ## Uses under other identifiers -/

section

variable {k : Kernel} {rm : ResourceManager} {containerId other : CStr} {fs fs' : CgroupFs}

/-- A write to another file changes nothing. -/
theorem latest_writeFile_of_ne {path p : CStr} (h : p ≠ path) (value : CStr) :
    (writeFile k path value fs).1.latest p = fs.latest p := by
  unfold writeFile
  split
  · exact CgroupFs.latest_put_of_ne fs h value
  · rfl

theorem andThen_latest {r : CgroupFs × ℤ} {next : CgroupFs → CgroupFs × ℤ} {p : CStr}
    {value : Option CStr} (hr : r.1.latest p = value)
    (hnext : ∀ fs, (next fs).1.latest p = fs.latest p) : (andThen r next).1.latest p = value := by
  unfold andThen
  split
  · rw [hnext, hr]
  · exact hr

theorem latest_addAllThreadsToCgroup_of_ne {pid : ℤ} {path p : CStr} (h : p ≠ path) :
    (addAllThreadsToCgroup k pid path fs).1.latest p = fs.latest p := by
  unfold addAllThreadsToCgroup
  split
  · exact latest_writeFile_of_ne h _
  · next names _ =>
    have hfold : ∀ (names : List CStr) (r : CgroupFs × Bool),
        (names.foldl (addThread k path) r).1.latest p = r.1.latest p := by
      intro names
      induction names with
      | nil => exact fun _ => rfl
      | cons name names ih =>
        intro r
        rw [List.foldl_cons, ih]
        unfold addThread
        split
        · rfl
        · exact latest_writeFile_of_ne h _
    exact hfold names _

/-- **Adding a process writes to lists of processes only.** -/
theorem latest_addProcess {p : CStr} (pid : ℤ)
    (hp : ∀ root ∈ cgroupRoots rm.version, ∀ name ∈ processFiles,
      p ≠ cgroupFile root rm other name) :
    (resourceManagerAddProcess k rm other pid fs).1.latest p = fs.latest p := by
  unfold resourceManagerAddProcess
  split
  · cases hv : rm.version with
    | v2 => exact latest_writeFile_of_ne (hp _ (by rw [hv]; decide) _ (by decide)) _
    | v1 =>
      rw [hv] at hp
      have hadd : ∀ root ∈ cgroupRoots .v1, ∀ fs,
          (addAllThreadsToCgroup k pid (cgroupFile root rm other "tasks".toList) fs).1.latest p
            = fs.latest p :=
        fun root hroot fs => latest_addAllThreadsToCgroup_of_ne (hp root hroot _ (by decide))
      refine andThen_latest ?_ (hadd memoryCgroupPath (by decide))
      dsimp only
      split
      · exact hadd cpuCpuacctCgroupPath (by decide) fs
      · dsimp only
        rw [hadd cpuacctCgroupPath (by decide), hadd cpuCgroupPath (by decide),
          hadd cpuCpuacctCgroupPath (by decide)]
  · rfl

/-- Destroying a control group changes no file of another. -/
theorem latest_destroy (rm : ResourceManager) (other : CStr) (p : CStr) :
    (resourceManagerDestroyCgroup k rm other fs).1.latest p = fs.latest p := by
  have hfold : ∀ (paths : List CStr) (fs : CgroupFs),
      (paths.foldl (fun fs path => rmdir k path fs) fs).latest p = fs.latest p := by
    intro paths
    induction paths with
    | nil => exact fun _ => rfl
    | cons path paths ih =>
      intro fs
      rw [List.foldl_cons, ih]
      unfold rmdir
      split <;> rfl
  by_cases hinit : rm.initialized = true
  · rw [resourceManagerDestroyCgroup_eq k hinit]
    exact hfold _ _
  · rw [resourceManagerDestroyCgroup, if_neg hinit]

/-- Adding a process, under any identifier. -/
theorem Alike.of_addProcess (hfit : PathsFit rm other) (pid : ℤ) :
    Alike rm containerId fs (resourceManagerAddProcess k rm other pid fs).1 where
  dirs _ _ := by rw [resourceManagerAddProcess_dirs]
  files := by
    rintro _ ⟨d, -, name, rfl, hname, hlist⟩
    refine latest_addProcess pid (fun root hroot name' hname' he => ?_)
    have hshort : ∀ name ∈ processFiles, name.length ≤ 27 ∧ '/' ∉ name := by decide
    rw [hfit.cgroupFile_eq hroot (hshort name' hname').1] at he
    obtain rfl := (eq_of_path_eq hname (hshort name' hname').2 he).2
    exact hlist hname'

/-- Destroying the control group of another container. -/
theorem Alike.of_destroy (hinit : rm.initialized = true) (hrm : rm.cgroupPath = basePath)
    (hid : Component containerId) (hother : Component other) (hne : other ≠ containerId) :
    Alike rm containerId fs (resourceManagerDestroyCgroup k rm other fs).1 where
  dirs d hd := by
    rw [mem_dirs_destroy hinit]
    exact and_iff_left
      (fun h => ne_of_mem_cgroupDirs hrm hid hother hne hd h.1 rfl)
  files path _ := latest_destroy rm other path

/-- Making a directory of another container. -/
theorem Alike.of_mkdirOrExist (hrm : rm.cgroupPath = basePath) (hid : Component containerId)
    (hother : Component other) (hne : other ≠ containerId) {path : CStr}
    (hpath : path ∈ cgroupDirs rm other) (hmade : mkdirOrExist k path fs = some fs') :
    Alike rm containerId fs fs' where
  dirs d hd := by
    rw [mem_dirs_of_mkdirOrExist hmade]
    exact or_iff_right (ne_of_mem_cgroupDirs hrm hid hother hne hd hpath).symm
  files := by
    rintro _ ⟨d, hd, name, rfl, hname, -⟩
    unfold mkdirOrExist at hmade
    split at hmade
    · cases hmade
      rfl
    · split at hmade
      · cases hmade
        have hbelow := not_below hrm hid hother hne hd hpath hname
        unfold CgroupFs.latest CgroupFs.make
        dsimp only
        rw [if_neg (fun h => hbelow (List.isPrefixOf_iff_prefix.mp h))]
      · cases hmade

/-- Where a creation fails, directories have been made at most. -/
theorem create_of_code_ne {limits : ResourceLimits}
    (h : (resourceManagerCreateCgroup k rm containerId limits fs).2 ≠ 0) :
    (resourceManagerCreateCgroup k rm containerId limits fs).1 = fs ∨
      (resourceManagerCreateCgroup k rm containerId limits fs).1
        = (makeCgroupDirs k rm containerId fs).1 := by
  unfold resourceManagerCreateCgroup at h ⊢
  split
  · next hinit =>
    rw [if_pos hinit] at h
    unfold andThen at h ⊢
    split
    · next hcode =>
      rw [if_pos hcode] at h
      exact absurd rfl h
    · exact Or.inr rfl
  · exact Or.inl rfl

/-- Creating the control group of another container. -/
theorem Alike.of_create (hrm : rm.cgroupPath = basePath)
    (hid : Component containerId) (hother : Component other) (hne : other ≠ containerId)
    (hwrite : ∀ path value, k.write path value = true) (limits : ResourceLimits) :
    Alike rm containerId fs (resourceManagerCreateCgroup k rm other limits fs).1 := by
  have hmade : Alike rm containerId fs (makeCgroupDirs k rm other fs).1 :=
    makeCgroupDirs_preserves (P := Alike rm containerId fs)
      (fun root hroot _ _ h hstep => h.trans
        (Alike.of_mkdirOrExist hrm hid hother hne (mem_cgroupDirs hroot) hstep))
      (Alike.refl fs)
  by_cases hcode : (resourceManagerCreateCgroup k rm other limits fs).2 = 0
  · rw [createCgroup_eq (hother.pathsFit hrm) hwrite hcode]
    refine hmade.trans ⟨fun d _ => ?_, ?_⟩
    · rw [CgroupFs.putAll_dirs, CgroupFs.putAll_dirs]
    · rintro _ ⟨d, hd, name, rfl, hname, -⟩
      rw [CgroupFs.latest_putAll_of_ne, CgroupFs.latest_putAll_of_ne]
      · intro w hw he
        have hw := no_slash_of_mem_cpuFiles _ (mem_cpuFiles_of_mem_cpuLimitValues _ _ w hw)
        exact ne_of_mem_cgroupDirs hrm hid hother hne hd
          (cpuDir_mem_cgroupDirs rm other _) (eq_of_path_eq hname hw he).1.symm
      · intro w hw he
        have hw := no_slash_of_mem_memoryFiles _ (mem_memoryFiles_of_mem_memoryLimitValues _ _ w hw)
        exact ne_of_mem_cgroupDirs hrm hid hother hne hd
          (mem_cgroupDirs (memoryRoot_mem _)) (eq_of_path_eq hname hw he).1.symm
  · rcases create_of_code_ne hcode with h | h <;> rw [h]
    · exact Alike.refl fs
    · exact hmade

/-- **What is done under another identifier leaves a container's control files
as they are.** -/
theorem Alike.of_replay (hinit : rm.initialized = true) (hrm : rm.cgroupPath = basePath)
    (hid : Component containerId) (hwrite : ∀ path value, k.write path value = true)
    {uses : List CgroupUse}
    (huses : ∀ use ∈ uses, Component use.containerId ∧ use.containerId ≠ containerId) :
    Alike rm containerId fs (CgroupUse.replay k rm uses fs) := by
  induction uses generalizing fs with
  | nil => exact Alike.refl fs
  | cons use uses ih =>
    obtain ⟨⟨hother, hne⟩, huses⟩ := List.forall_mem_cons.mp huses
    refine Alike.trans ?_ (ih huses)
    cases use with
    | create other limits => exact Alike.of_create hrm hid hother hne hwrite limits
    | addProcess other pid => exact Alike.of_addProcess (hother.pathsFit hrm) pid
    | procs other => exact Alike.refl fs
    | stats other => exact Alike.refl fs
    | destroy other => exact Alike.of_destroy hinit hrm hid hother hne

/-! ## Creating a control group a second time -/

/-- The directories `resource_manager_create_cgroup` looks for are there, or
cannot be made. -/
def DirsMade (k : Kernel) (rm : ResourceManager) (containerId : CStr) (fs : CgroupFs) : Prop :=
  match rm.version with
  | .v2 => cgroupDir cgroupRoot rm containerId ∈ fs.dirs
  | .v1 =>
    (cgroupDir cpuCpuacctCgroupPath rm containerId ∈ fs.dirs ∨
      ¬ k.mkdir (cgroupDir cpuCpuacctCgroupPath rm containerId) = true ∧
        cgroupDir cpuCgroupPath rm containerId ∈ fs.dirs ∧
        (cgroupDir cpuacctCgroupPath rm containerId ∈ fs.dirs ∨
          ¬ k.mkdir (cgroupDir cpuacctCgroupPath rm containerId) = true)) ∧
    cgroupDir memoryCgroupPath rm containerId ∈ fs.dirs

theorem mkdirOrExist_of_mem {path : CStr} (h : path ∈ fs.dirs) :
    mkdirOrExist k path fs = some fs := if_pos h

/-- Then nothing is made. -/
theorem makeCgroupDirs_of_dirsMade (h : DirsMade k rm containerId fs) :
    makeCgroupDirs k rm containerId fs = (fs, 0) := by
  unfold DirsMade at h
  unfold makeCgroupDirs makeDir
  cases hv : rm.version with
  | v2 =>
    rw [hv] at h
    dsimp only at h ⊢
    rw [mkdirOrExist_of_mem h]
  | v1 =>
    rw [hv] at h
    dsimp only at h ⊢
    obtain ⟨hcpu, hmemory⟩ := h
    have hcpus : makeCpuDirs k rm containerId fs = (fs, 0) := by
      unfold makeCpuDirs
      by_cases hcombined : cgroupDir cpuCpuacctCgroupPath rm containerId ∈ fs.dirs
      · rw [mkdirOrExist_of_mem hcombined]
      · obtain ⟨hno, hcpu, hacct⟩ := hcpu.resolve_left hcombined
        rw [mkdirOrExist_eq_none_iff.mpr (not_or.mpr ⟨hcombined, hno⟩)]
        dsimp only
        rw [mkdirOrExist_of_mem hcpu]
        dsimp only
        by_cases hmem : cgroupDir cpuacctCgroupPath rm containerId ∈ fs.dirs
        · rw [mkdirOrExist_of_mem hmem]
          rfl
        · rw [mkdirOrExist_eq_none_iff.mpr (not_or.mpr ⟨hmem, hacct.resolve_left hmem⟩)]
          rfl
    rw [hcpus]
    unfold andThen
    rw [if_pos rfl]
    dsimp only
    rw [mkdirOrExist_of_mem hmemory]

/-- **A creation that succeeds has made them.** -/
theorem dirsMade_of_code (hcode : (makeCgroupDirs k rm containerId fs).2 = 0) :
    DirsMade k rm containerId (makeCgroupDirs k rm containerId fs).1 := by
  unfold makeCgroupDirs at hcode ⊢
  unfold DirsMade
  cases hv : rm.version with
  | v2 =>
    rw [hv] at hcode
    exact (mem_dirs_makeDir hcode).mpr (Or.inl rfl)
  | v1 =>
    rw [hv] at hcode
    dsimp only at hcode ⊢
    obtain ⟨hcpu, hnext⟩ := andThen_eq_of_code hcode
    rw [hnext] at hcode ⊢
    have hmem : ∀ {d}, d ∈ (makeCpuDirs k rm containerId fs).1.dirs →
        d ∈ (makeDir k (cgroupDir memoryCgroupPath rm containerId)
          (makeCpuDirs k rm containerId fs).1).1.dirs :=
      fun hd => (mem_dirs_makeDir hcode).mpr (Or.inr hd)
    refine ⟨?_, (mem_dirs_makeDir hcode).mpr (Or.inl rfl)⟩
    have hcases := cpuDirs_makeCpuDirs k rm containerId fs
    generalize makeCpuDirs k rm containerId fs = r at hcases hcpu hmem ⊢
    cases hcases with
    | combined hcombined =>
      exact Or.inl (hmem ((mem_dirs_of_mkdirOrExist hcombined).mpr (Or.inl rfl)))
    | refused => exact absurd hcpu (by simp)
    | only hcombined honly hacct =>
      exact Or.inr ⟨(not_or.mp (mkdirOrExist_eq_none_iff.mp hcombined)).2,
        hmem ((mem_dirs_of_mkdirOrExist honly).mpr (Or.inl rfl)),
        Or.inr (not_or.mp (mkdirOrExist_eq_none_iff.mp hacct)).2⟩
    | both hcombined honly hacct =>
      have hfs₁ := (mem_dirs_of_mkdirOrExist honly).mpr (Or.inl rfl)
      exact Or.inr ⟨(not_or.mp (mkdirOrExist_eq_none_iff.mp hcombined)).2,
        hmem ((mem_dirs_of_mkdirOrExist hacct).mpr (Or.inr hfs₁)),
        Or.inl (hmem ((mem_dirs_of_mkdirOrExist hacct).mpr (Or.inl rfl)))⟩

/-- Whether they are there can be seen from which directories the container
has. -/
theorem DirsMade.congr {k' : Kernel} (h : DirsMade k rm containerId fs)
    (hmkdir : ∀ path, k'.mkdir path = k.mkdir path)
    (hsame : ∀ d ∈ cgroupDirs rm containerId, d ∈ fs'.dirs ↔ d ∈ fs.dirs) :
    DirsMade k' rm containerId fs' := by
  unfold DirsMade at h ⊢
  have hdirs : ∀ root ∈ cgroupRoots rm.version,
      (cgroupDir root rm containerId ∈ fs'.dirs ↔ cgroupDir root rm containerId ∈ fs.dirs) :=
    fun root hroot => hsame _ (mem_cgroupDirs hroot)
  cases hv : rm.version with
  | v2 =>
    rw [hv] at h hdirs
    exact (hdirs cgroupRoot (by decide)).mpr h
  | v1 =>
    rw [hv] at h hdirs
    dsimp only at h ⊢
    rw [hdirs _ (by decide), hdirs _ (by decide), hdirs _ (by decide), hdirs _ (by decide),
      hmkdir, hmkdir]
    exact h

/-- A creation that makes nothing is two lists of writes. -/
theorem create_of_dirsMade (hinit : rm.initialized = true) (hfit : PathsFit rm containerId)
    (hwrite : ∀ path value, k.write path value = true) (h : DirsMade k rm containerId fs)
    (limits : ResourceLimits) :
    resourceManagerCreateCgroup k rm containerId limits fs
      = ((fs.putAll (cpuDir rm containerId fs) (cpuLimitValues rm.version limits)).putAll
          (cgroupDir (memoryRoot rm.version) rm containerId)
          (memoryLimitValues rm.version limits), 0) := by
  have hmade := makeCgroupDirs_of_dirsMade h
  have hcode : (resourceManagerCreateCgroup k rm containerId limits fs).2 = 0 := by
    unfold resourceManagerCreateCgroup andThen
    rw [if_pos hinit, hmade, if_pos rfl]
  refine Prod.ext ?_ hcode
  rw [createCgroup_eq hfit hwrite hcode, hmade]

/-- **A second creation with the same limits** succeeds, and leaves a
container's control files as they were after the first. -/
theorem Alike.create_again {k' : Kernel} {hierarchies : List CStr}
    (hk : k.Reliable hierarchies) (hk' : k'.Reliable hierarchies)
    (hinit : rm.initialized = true) (hfit : PathsFit rm containerId) {limits : ResourceLimits}
    (hcode : (resourceManagerCreateCgroup k rm containerId limits fs).2 = 0)
    (halike : Alike rm containerId (resourceManagerCreateCgroup k rm containerId limits fs).1
      fs') :
    (resourceManagerCreateCgroup k' rm containerId limits fs').2 = 0 ∧
      Alike rm containerId fs' (resourceManagerCreateCgroup k' rm containerId limits fs').1 := by
  obtain ⟨hmade, hdirs⟩ := create_of_code hcode
  have hsame : ∀ d ∈ cgroupDirs rm containerId,
      d ∈ fs'.dirs ↔ d ∈ (makeCgroupDirs k rm containerId fs).1.dirs := by
    intro d hd
    rw [halike.dirs d hd, hdirs]
  have hagain := create_of_dirsMade hinit hfit hk'.write
    ((dirsMade_of_code hmade).congr (hk.mkdir_eq hk') hsame) limits
  rw [hagain]
  refine ⟨rfl, fun d _ => by rw [CgroupFs.putAll_dirs, CgroupFs.putAll_dirs], fun path hpath => ?_⟩
  -- the same lists are written to the same directories
  obtain ⟨cpu, hcpu⟩ := CgroupFs.exists_latest_putAll (cpuDir rm containerId fs') path
    (cpuLimitValues rm.version limits)
  obtain ⟨memory, hmemory⟩ := CgroupFs.exists_latest_putAll
    (cgroupDir (memoryRoot rm.version) rm containerId) path (memoryLimitValues rm.version limits)
  have hfirst := halike.files path hpath
  rw [createCgroup_eq hfit hk.write hcode, ← cpuDir_congr hsame, hmemory, hcpu] at hfirst
  rw [hmemory, hcpu, hfirst]
  cases memory with
  | some value => rfl
  | none =>
    cases cpu with
    | some value => rfl
    | none => rfl

end
