import MiniContainer.ControlFiles

/-!
# The limits the monitor reads

`SimpleWebServer::getContainerListJSON` reads the limits of a running
container back from its control files. On version 2 it takes the line of
`cpu.max` apart with `std::stoul`, which throws where there is no numeral; on
version 1 it reads each file with `read_cgroup_limit`, whose word for no limit
is `max`.

`set_cpu_limits` is called only where a limit was asked for. The kernel's word
for no quota is `max` with a period behind it on version 2 and `-1` on
version 1, and the monitor knows neither: `monitorCpuLimits_iff` says that it
obtains what was asked for exactly where something was.
-/

open CText

/-! ## Parsing -/

/-- `read_cgroup_limit`, of what the file shows or `none` where it cannot be
opened. The first line is read into 256 bytes. -/
def readCgroupLimit (file : Option CStr) : ℕ :=
  match file with
  | none => 0
  | some contents =>
    let buffer := cstring ((contents.takeWhile (· ≠ '\n')).take 255)
    if buffer = "max".toList then 0
    else
      let r := strtoul buffer
      if r.2.head? = none ∨ r.2.head? = some '\n' ∨ r.2.head? = some ' ' then r.1 else 0

/-- `std::stoul`, where `none` is an exception: there is no numeral, or it is
out of range. -/
def stoul (s : CStr) : Option ℕ :=
  match readDecimal (cstring s) with
  | none => none
  | some (n, _) => if n.natAbs < 2 ^ 64 then some (n % 2 ^ 64).toNat else none

/-- The quota and the period taken from a line of `cpu.max`. -/
def parseCpuMax (line : CStr) : Option (ℕ × ℕ) :=
  if line ≠ "max".toList ∧ ' ' ∈ line then
    (stoul (line.takeWhile (· ≠ ' '))).bind fun quota =>
      (stoul ((line.dropWhile (· ≠ ' ')).drop 1)).map fun period => (quota, period)
  else some (0, 100000)

/-- `snprintf(path, sizeof(path), …)` of the monitor's buffer. -/
def monitorFile (root : CStr) (rm : ResourceManager) (containerId name : CStr) : CStr :=
  snprintf 1024 (cgroupName root rm containerId ++ '/' :: name)

/-- A limit of a directory on version 1. -/
def readLimitIn (reads : CgroupReads) (dir name : CStr) : ℕ :=
  if (dir ++ '/' :: name).length < 1024 then readCgroupLimit (reads.read (dir ++ '/' :: name))
  else 0

/-- The quota and the period the monitor works with, or `none` where an
exception leaves `getContainerListJSON`. -/
def monitorCpuLimits (reads : CgroupReads) (rm : ResourceManager) (containerId : CStr) :
    Option (ℕ × ℕ) :=
  match rm.version with
  | .v2 =>
    match reads.read (monitorFile cgroupRoot rm containerId "cpu.max".toList) with
    | none => some (0, 100000)
    | some contents => parseCpuMax (contents.takeWhile (· ≠ '\n'))
  | .v1 =>
    let cpuPath :=
      if reads.access (cgroupDir cpuCpuacctCgroupPath rm containerId) then
        cgroupDir cpuCpuacctCgroupPath rm containerId
      else cgroupDir cpuCgroupPath rm containerId
    let period := readLimitIn reads cpuPath "cpu.cfs_period_us".toList
    some (readLimitIn reads cpuPath "cpu.cfs_quota_us".toList,
      if period > 0 then period else 100000)

/-- The memory limit the monitor works with. -/
def monitorMemoryLimit (reads : CgroupReads) (rm : ResourceManager) (containerId : CStr) : ℕ :=
  match rm.version with
  | .v2 => readCgroupLimit (reads.read (monitorFile cgroupRoot rm containerId "memory.max".toList))
  | .v1 => readCgroupLimit
      (reads.read (monitorFile memoryCgroupPath rm containerId "memory.limit_in_bytes".toList))

/-- A printed number fits the buffer of `read_cgroup_limit` and is read
back. -/
theorem readCgroupLimit_printDecimal {n : ℤ} (hpos : 0 < n) (hn : IsInt n) :
    readCgroupLimit (some (printDecimal n ++ ['\n'])) = n.toNat := by
  have hlen := length_printDecimal_le hn.isLong
  have hline : cstring (((printDecimal n ++ ['\n']).takeWhile (· ≠ '\n')).take 255)
      = printDecimal n := by
    rw [takeWhile_ne_append (not_mem_printDecimal (by decide) (by decide) n),
      List.take_of_length_le (by omega),
      cstring_of_not_mem (not_mem_printDecimal (by decide) (by decide) n)]
  have hmax : printDecimal n ≠ "max".toList := by
    intro he
    exact not_mem_printDecimal (c := 'm') (by decide) (by decide) n (by rw [he]; decide)
  have hread : strtoul (printDecimal n) = (n.toNat, []) := by
    have h := strtoul_printDecimal hpos.le (hn.2.trans (by decide)) (s := [])
      (fun _ hc => absurd hc (by simp))
    rwa [List.append_nil] at h
  unfold readCgroupLimit
  dsimp only
  rw [hline, if_neg hmax, hread]
  exact if_pos (Or.inl rfl)

theorem stoul_printDecimal {n : ℤ} (hpos : 0 < n) (hn : IsInt n) :
    stoul (printDecimal n) = some n.toNat := by
  obtain ⟨-, hhi⟩ := hn
  unfold stoul
  rw [cstring_of_not_mem (not_mem_printDecimal (by decide) (by decide) n), readDecimal_numeral]
  dsimp only
  rw [if_pos (by omega), Int.emod_eq_of_lt hpos.le (by omega)]

/-- A line of `cpu.max` with a quota. -/
theorem cpuMax_ne_max (quota period : ℤ) :
    printDecimal quota ++ ' ' :: printDecimal period ≠ "max".toList := by
  intro he
  have hmem : ' ' ∈ "max".toList := by
    rw [← he]
    simp
  exact absurd hmem (by decide)

/-- **A line of `cpu.max` with a quota is read back.** -/
theorem parseCpuMax_printDecimal {quota period : ℤ} (hq : 0 < quota) (hp : 0 < period)
    (hquota : IsInt quota) (hperiod : IsInt period) :
    parseCpuMax (printDecimal quota ++ ' ' :: printDecimal period)
      = some (quota.toNat, period.toNat) := by
  have hblank : ' ' ∉ printDecimal quota := not_mem_printDecimal (by decide) (by decide) quota
  have hdrop : (printDecimal quota ++ ' ' :: printDecimal period).dropWhile (· ≠ ' ')
      = ' ' :: printDecimal period := by
    have hall : ∀ c ∈ printDecimal quota, decide (c ≠ ' ') = true :=
      fun c hc => decide_eq_true (fun he => hblank (he ▸ hc))
    rw [List.dropWhile_append_of_pos hall]
    simp
  unfold parseCpuMax
  rw [if_pos ⟨cpuMax_ne_max _ _, by simp⟩, takeWhile_ne_append hblank, hdrop,
    stoul_printDecimal hq hquota]
  rw [Option.bind_some, List.drop_succ_cons, List.drop_zero, stoul_printDecimal hp hperiod]
  rfl

/-! ## The quota is never without a value -/

theorem isInt_effectivePeriod {limits : CpuLimits} (h : IsInt limits.periodUs) :
    IsInt (effectivePeriod limits) := by
  unfold effectivePeriod
  split
  · exact h
  · decide

theorem effectivePeriod_pos (limits : CpuLimits) : 0 < effectivePeriod limits := by
  unfold effectivePeriod
  split
  · assumption
  · decide

theorem isInt_effectiveQuota {limits : CpuLimits} (h : IsInt limits.quotaUs) :
    IsInt (effectiveQuota limits) := by
  unfold effectiveQuota
  dsimp only
  split
  · split
    · decide
    · next hge =>
      obtain ⟨hlo, hhi⟩ := isInt_wrap32 (limits.shares * effectivePeriod limits)
      have habs : ((wrap32 (limits.shares * effectivePeriod limits)).tdiv 1024).natAbs
          = (wrap32 (limits.shares * effectivePeriod limits)).natAbs / 1024 :=
        Int.natAbs_tdiv _ _
      constructor <;> omega
  · exact h

/-- **Where a limit is set there is a quota.** -/
theorem effectiveQuota_pos {limits : CpuLimits} (h : limits.shares > 0 ∨ limits.quotaUs > 0) :
    0 < effectiveQuota limits := by
  unfold effectiveQuota
  dsimp only
  split
  · split <;> omega
  · next hnot => exact h.elim (fun hs => lt_of_not_ge (fun hq => hnot ⟨hq, hs⟩)) id

/-! ## What the monitor obtains -/

/-- What `cpu.max` shows when this was written to it last. -/
def cpuMaxShown : Option CStr → CStr
  | none => "max 100000".toList
  | some value => if value = "max".toList then "max 100000".toList else value

theorem takeWhile_cpuMaxShown (quota period : ℤ) :
    ((cpuMaxShown (some (printDecimal quota ++ ' ' :: printDecimal period)))
        ++ ['\n']).takeWhile (· ≠ '\n')
      = printDecimal quota ++ ' ' :: printDecimal period := by
  have hline : '\n' ∉ printDecimal quota ++ ' ' :: printDecimal period := by
    rw [List.mem_append, List.mem_cons]
    rintro (h | h | h)
    · exact not_mem_printDecimal (by decide) (by decide) _ h
    · exact absurd h (by decide)
    · exact not_mem_printDecimal (by decide) (by decide) _ h
  unfold cpuMaxShown
  dsimp only
  rw [if_neg (cpuMax_ne_max _ _), takeWhile_ne_append hline]

/-- **The kernel shows the processor limits of a container** that are in
force, with its own words for those that were never set. -/
structure ShowsCpuLimits (reads : CgroupReads) (rm : ResourceManager) (containerId : CStr)
    (fs : CgroupFs) : Prop where
  access : ∀ d ∈ cgroupDirs rm containerId, reads.access d = true ↔ d ∈ fs.dirs
  max : rm.version = .v2 → ∀ d ∈ fs.dirs, reads.read (d ++ '/' :: "cpu.max".toList)
    = some (cpuMaxShown (fs.latest (d ++ '/' :: "cpu.max".toList)) ++ ['\n'])
  quota : rm.version = .v1 → ∀ d ∈ fs.dirs, reads.read (d ++ '/' :: "cpu.cfs_quota_us".toList)
    = some ((fs.latest (d ++ '/' :: "cpu.cfs_quota_us".toList)).getD "-1".toList ++ ['\n'])
  period : rm.version = .v1 → ∀ d ∈ fs.dirs, reads.read (d ++ '/' :: "cpu.cfs_period_us".toList)
    = some ((fs.latest (d ++ '/' :: "cpu.cfs_period_us".toList)).getD "100000".toList ++ ['\n'])

/-- **What was asked for is what was obtained**: the quota and the period
`set_cpu_limits` works with where a limit was set, and no quota where none
was. -/
def Obtained (limits : CpuLimits) (parsed : Option (ℕ × ℕ)) : Prop :=
  if limits.shares > 0 ∨ limits.quotaUs > 0 then
    parsed = some ((effectiveQuota limits).toNat, (effectivePeriod limits).toNat)
  else ∃ period, parsed = some (0, period)

section

variable {reads : CgroupReads} {rm : ResourceManager} {containerId : CStr} {fs : CgroupFs}

/-- The paths the monitor builds are those `set_cpu_limits` built. -/
theorem monitorFile_eq (hfit : PathsFit rm containerId) {root name : CStr}
    (hroot : root ∈ cgroupRoots rm.version) (hname : name.length ≤ 27) :
    monitorFile root rm containerId name = cgroupDir root rm containerId ++ '/' :: name := by
  have h := hfit root hroot
  unfold bufSize at h
  unfold monitorFile cgroupDir
  rw [snprintf_of_lt, snprintf_of_lt (by unfold bufSize; omega)]
  rw [List.length_append, List.length_cons]
  omega

theorem readLimitIn_eq (hfit : PathsFit rm containerId) {name : CStr}
    (hname : name.length ≤ 27) :
    readLimitIn reads (cpuDir rm containerId fs) name
      = readCgroupLimit (reads.read (cpuDir rm containerId fs ++ '/' :: name)) := by
  have hlen := hfit.length_cpuDir fs
  unfold bufSize at hlen
  refine if_pos ?_
  rw [List.length_append, List.length_cons]
  omega

/-- On version 1 the monitor looks where `set_cpu_limits` writes. -/
theorem cpuPath_eq (hshows : ShowsCpuLimits reads rm containerId fs) (hv : rm.version = .v1) :
    (if reads.access (cgroupDir cpuCpuacctCgroupPath rm containerId) then
        cgroupDir cpuCpuacctCgroupPath rm containerId
      else cgroupDir cpuCgroupPath rm containerId) = cpuDir rm containerId fs := by
  have haccess := hshows.access (cgroupDir cpuCpuacctCgroupPath rm containerId)
    (List.mem_map.mpr ⟨cpuCpuacctCgroupPath, by rw [hv]; decide, rfl⟩)
  unfold cpuDir
  rw [hv]
  simp only [haccess]

/-- The quota and the period the monitor works with, of what was written to
the files last. -/
theorem monitorCpuLimits_eq (hfit : PathsFit rm containerId)
    (hshows : ShowsCpuLimits reads rm containerId fs)
    (hdir : cpuDir rm containerId fs ∈ fs.dirs) :
    monitorCpuLimits reads rm containerId =
      match rm.version with
      | .v2 => parseCpuMax
          ((cpuMaxShown (fs.latest (cpuDir rm containerId fs ++ '/' :: "cpu.max".toList))
            ++ ['\n']).takeWhile (· ≠ '\n'))
      | .v1 =>
        let period := readCgroupLimit (some ((fs.latest (cpuDir rm containerId fs
          ++ '/' :: "cpu.cfs_period_us".toList)).getD "100000".toList ++ ['\n']))
        some (readCgroupLimit (some ((fs.latest (cpuDir rm containerId fs
          ++ '/' :: "cpu.cfs_quota_us".toList)).getD "-1".toList ++ ['\n'])),
          if period > 0 then period else 100000) := by
  unfold monitorCpuLimits
  cases hv : rm.version with
  | v2 =>
    have hfile : monitorFile cgroupRoot rm containerId "cpu.max".toList
        = cpuDir rm containerId fs ++ '/' :: "cpu.max".toList := by
      rw [monitorFile_eq hfit (by rw [hv]; decide) (by decide)]
      unfold cpuDir
      rw [hv]
    dsimp only
    rw [hfile, hshows.max hv _ hdir]
  | v1 =>
    dsimp only
    rw [cpuPath_eq hshows hv, readLimitIn_eq hfit (by decide), readLimitIn_eq hfit (by decide),
      hshows.quota hv _ hdir, hshows.period hv _ hdir]

/-! ## What is written where a limit is set -/

section

variable {limits : ResourceLimits} (h : limits.cpu.shares > 0 ∨ limits.cpu.quotaUs > 0)
include h

theorem lastValue_cpuMax :
    lastValue (cpuLimitValues .v2 limits) "cpu.max".toList
      = some (printDecimal (effectiveQuota limits.cpu) ++
          ' ' :: printDecimal (effectivePeriod limits.cpu)) := by
  unfold cpuLimitValues cpuValues
  dsimp only
  rw [if_pos h, if_pos (effectiveQuota_pos h)]
  rfl

theorem lastValue_quota :
    lastValue (cpuLimitValues .v1 limits) "cpu.cfs_quota_us".toList
      = some (printDecimal (effectiveQuota limits.cpu)) := by
  unfold cpuLimitValues cpuValues
  dsimp only
  rw [if_pos h, if_pos (effectiveQuota_pos h)]
  split <;> rfl

theorem lastValue_period :
    lastValue (cpuLimitValues .v1 limits) "cpu.cfs_period_us".toList
      = some (printDecimal (effectivePeriod limits.cpu)) := by
  unfold cpuLimitValues cpuValues
  dsimp only
  rw [if_pos h, if_pos (effectiveQuota_pos h)]
  split <;> rfl

end

/-- **The monitor obtains the limits that were asked for exactly where some
were**: for every cgroup that is new and every limits, on both versions. -/
theorem monitorCpuLimits_iff {k : Kernel} {limits : ResourceLimits}
    (hquota : IsInt limits.cpu.quotaUs) (hperiod : IsInt limits.cpu.periodUs)
    (hfit : PathsFit rm containerId) (hnew : ∀ d ∈ cgroupDirs rm containerId, d ∉ fs.dirs)
    (hwrite : ∀ path value, k.write path value = true)
    (hcode : (resourceManagerCreateCgroup k rm containerId limits fs).2 = 0)
    (hshows : ShowsCpuLimits reads rm containerId
      (resourceManagerCreateCgroup k rm containerId limits fs).1) :
    Obtained limits.cpu (monitorCpuLimits reads rm containerId) ↔
      limits.cpu.shares > 0 ∨ limits.cpu.quotaUs > 0 := by
  obtain ⟨hmade, hdirs⟩ := create_of_code hcode
  have hdir : cpuDir rm containerId (resourceManagerCreateCgroup k rm containerId limits fs).1
      ∈ (resourceManagerCreateCgroup k rm containerId limits fs).1.dirs := by
    rw [cpuDir_create hcode, hdirs]
    exact (mem_dirs_of_makeCgroupDirs hmade).1
  have hlatest : ∀ name ∈ cpuFiles, _ = lastValue (cpuLimitValues rm.version limits) name :=
    fun _ hname => latest_create_cpu_of_new hfit hnew hwrite hcode hname
  unfold Obtained
  rw [monitorCpuLimits_eq hfit hshows hdir]
  by_cases hlimited : limits.cpu.shares > 0 ∨ limits.cpu.quotaUs > 0
  · -- the values are in the files, and are read back
    have hquota := isInt_effectiveQuota hquota
    have hperiod := isInt_effectivePeriod hperiod
    have hpos := effectivePeriod_pos limits.cpu
    refine iff_of_true ?_ hlimited
    rw [if_pos hlimited]
    cases hv : rm.version with
    | v2 =>
      dsimp only
      rw [hlatest _ (by decide), hv, lastValue_cpuMax hlimited, takeWhile_cpuMaxShown,
        parseCpuMax_printDecimal (effectiveQuota_pos hlimited) hpos hquota hperiod]
    | v1 =>
      dsimp only
      rw [hlatest _ (by decide), hlatest _ (by decide), hv, lastValue_quota hlimited,
        lastValue_period hlimited, Option.getD_some, Option.getD_some,
        readCgroupLimit_printDecimal (effectiveQuota_pos hlimited) hquota,
        readCgroupLimit_printDecimal hpos hperiod, if_pos (by omega)]
  · -- nothing was written, and the words of the kernel are not understood
    refine iff_of_false ?_ hlimited
    rw [if_neg hlimited]
    have hnone : cpuLimitValues rm.version limits = [] := if_neg hlimited
    rintro ⟨period, hparsed⟩
    cases hv : rm.version with
    | v2 =>
      rw [hv] at hparsed
      dsimp only at hparsed
      have hthrows : parseCpuMax ((cpuMaxShown (lastValue [] "cpu.max".toList)
          ++ ['\n']).takeWhile (· ≠ '\n')) = none := by decide
      rw [hlatest _ (by decide), hnone, hthrows] at hparsed
      cases hparsed
    | v1 =>
      rw [hv] at hparsed
      dsimp only at hparsed
      rw [hlatest _ (by decide), hnone] at hparsed
      exact absurd (Prod.mk.inj (Option.some.inj hparsed)).1 (by decide)

end

/-! ## Version 1 and version 2 -/

/-- A host whose kernel shows its files as documented. -/
def CgroupFs.shown (fs : CgroupFs) : CgroupReads where
  access d := d ∈ fs.dirs
  read p :=
    if dirOf p ∉ fs.dirs then none
    else if p = dirOf p ++ '/' :: "cpu.max".toList then some (cpuMaxShown (fs.latest p) ++ ['\n'])
    else if p = dirOf p ++ '/' :: "cpu.cfs_quota_us".toList then
      some ((fs.latest p).getD "-1".toList ++ ['\n'])
    else some ((fs.latest p).getD "100000".toList ++ ['\n'])

theorem showsCpuLimits_shown (rm : ResourceManager) (containerId : CStr) (fs : CgroupFs) :
    ShowsCpuLimits fs.shown rm containerId fs := by
  have hne : ∀ {d name name' : CStr}, name ≠ name' → d ++ '/' :: name ≠ d ++ '/' :: name' :=
    fun hname he => hname (List.cons.inj (List.append_cancel_left he)).2
  refine ⟨fun d _ => decide_eq_true_iff, fun _ d hd => ?_, fun _ d hd => ?_, fun _ d hd => ?_⟩ <;>
    dsimp only [CgroupFs.shown] <;>
    rw [dirOf_append (by decide), if_neg (not_not.mpr hd)]
  · rw [if_pos rfl]
  · rw [if_neg (hne (by decide)), if_pos rfl]
  · rw [if_neg (hne (by decide)), if_neg (hne (by decide))]

/-- Control groups before any container was created. -/
def CgroupFs.bare : CgroupFs := ⟨cgroupRoot :: cgroupRoots .v1, fun _ => []⟩

/-- The creation of a container `c` with processor limits and no others. -/
def createCapped (version : CgroupVersion) (limits : CpuLimits) : CgroupFs × ℤ :=
  resourceManagerCreateCgroup .willing ⟨basePath, true, version⟩ ['c'] ⟨limits, ⟨0, 0⟩, 1⟩ .bare

/-- What the monitor then works with. -/
def monitorCapped (version : CgroupVersion) (limits : CpuLimits) : Option (ℕ × ℕ) :=
  monitorCpuLimits (createCapped version limits).1.shown ⟨basePath, true, version⟩ ['c']

/-- A container that asks for half a processor on version 2. -/
theorem monitorCpuLimits_iff_half :
    Obtained ⟨512, 0, 0⟩ (monitorCapped .v2 ⟨512, 0, 0⟩) ∧
      (effectiveQuota ⟨512, 0, 0⟩, effectivePeriod ⟨512, 0, 0⟩) = (50000, 100000) :=
  have hid : Component ['c'] := ⟨by decide, by decide⟩
  have hcode : (createCapped .v2 ⟨512, 0, 0⟩).2 = 0 := rfl
  ⟨(monitorCpuLimits_iff (by decide) (by decide) (hid.pathsFit rfl) (by decide)
    (fun _ _ => rfl) hcode (showsCpuLimits_shown _ _ _)).mpr (Or.inl (by decide)), by decide⟩

/-- **A container without a processor limit**: on version 2 an exception
leaves the monitor, and on version 1 it works with a quota of `2^64 - 1`. -/
theorem unlimited_not_obtained :
    ((createCapped .v2 ⟨0, 0, 0⟩).2 = 0 ∧ monitorCapped .v2 ⟨0, 0, 0⟩ = none ∧
        ¬ Obtained ⟨0, 0, 0⟩ (monitorCapped .v2 ⟨0, 0, 0⟩)) ∧
      ((createCapped .v1 ⟨0, 0, 0⟩).2 = 0 ∧
        monitorCapped .v1 ⟨0, 0, 0⟩ = some (2 ^ 64 - 1, 100000) ∧
        ¬ Obtained ⟨0, 0, 0⟩ (monitorCapped .v1 ⟨0, 0, 0⟩)) := by
  have hunlimited : ¬ ((0 : ℤ) > 0 ∨ (0 : ℤ) > 0) := by decide
  have hv2 : monitorCapped .v2 ⟨0, 0, 0⟩ = none := by decide
  have hv1 : monitorCapped .v1 ⟨0, 0, 0⟩ = some (2 ^ 64 - 1, 100000) := by decide
  refine ⟨⟨rfl, hv2, ?_⟩, ⟨rfl, hv1, ?_⟩⟩
  · rw [hv2]
    unfold Obtained
    rw [if_neg hunlimited]
    rintro ⟨_, h⟩
    cases h
  · rw [hv1]
    unfold Obtained
    rw [if_neg hunlimited]
    rintro ⟨_, h⟩
    exact absurd (Prod.mk.inj (Option.some.inj h)).1 (by decide)
