import MiniContainer.ControlView
import MiniContainer.Monitor

/-!
# The limits that are applied

A container asks for limits in the units of a command line – shares of a
processor, bytes of memory and of swap space – and gets what is in the
control files when `resource_manager_create_cgroup` is done. This module
compares the two.

Shares become a quota by a product in `int`, and `written_quota_iff` says that
the quota in the file is the share of the period exactly where the product is
one. `EnforcedLimits` is what the control files hold the container to, and two
theorems about it compare pairs of creations. The limits do not depend on what
an earlier group of the same name left behind exactly where all three were
asked for (`enforced_independent_iff`), for a limit that was not asked for is
not reset. The two versions of the interface enforce the same limits exactly
where no swap space was asked for (`enforced_agree_iff`), for the file version
1 puts the number into counts the memory as well.
-/

open CText

/-! ## Shares and quotas -/

/-- The share of a period, in exact integers, and not less than a
millisecond. -/
def exactQuota (limits : CpuLimits) : ℤ :=
  max 1000 (limits.shares * effectivePeriod limits / 1024)

section

variable {limits : CpuLimits}

/-- **The quota is the share of the period where the product is an `int`**,
and only there: a product that wraps around is less by four seconds of quota
or more. -/
theorem effectiveQuota_eq_exactQuota_iff (hquota : limits.quotaUs ≤ 0)
    (hshares : 0 < limits.shares) :
    effectiveQuota limits = exactQuota limits ↔
      limits.shares * effectivePeriod limits < 2 ^ 31 := by
  have hproduct : 0 < limits.shares * effectivePeriod limits :=
    mul_pos hshares (effectivePeriod_pos limits)
  unfold effectiveQuota exactQuota
  rw [if_pos ⟨hquota, hshares⟩]
  generalize limits.shares * effectivePeriod limits = n at hproduct ⊢
  dsimp only
  constructor
  · intro heq
    by_contra hge
    -- a wrapped product is another multiple of the modulus away
    have hwrap : wrap32 n ≤ n - 2 ^ 32 := by
      obtain ⟨c, hc⟩ : ((2 ^ 32 : ℕ) : ℤ) ∣ n - wrap32 n := Int.dvd_self_sub_bmod
      have := (isInt_wrap32 n).2
      omega
    split at heq
    · omega
    · next hquota =>
      have hpos : 0 ≤ wrap32 n := by
        by_contra hneg
        have := Int.tdiv_le_tdiv (show (0 : ℤ) < 1024 by decide) (not_le.mp hneg).le
        rw [Int.zero_tdiv] at this
        omega
      rw [Int.tdiv_eq_ediv_of_nonneg hpos] at heq
      omega
  · intro hlt
    rw [wrap32_of_isInt ⟨by omega, hlt⟩, Int.tdiv_eq_ediv_of_nonneg hproduct.le]
    split <;> omega

/-- **A larger share never yields a smaller quota** where its product is an
`int`. -/
theorem effectiveQuota_mono {limits' : CpuLimits} (hquota : limits.quotaUs ≤ 0)
    (hquota' : limits'.quotaUs ≤ 0) (hshares : 0 < limits.shares)
    (hle : limits.shares ≤ limits'.shares)
    (hperiod : effectivePeriod limits = effectivePeriod limits')
    (hproduct : limits'.shares * effectivePeriod limits' < 2 ^ 31) :
    effectiveQuota limits ≤ effectiveQuota limits' := by
  have hproducts : limits.shares * effectivePeriod limits
      ≤ limits'.shares * effectivePeriod limits' := by
    rw [hperiod]
    exact mul_le_mul_of_nonneg_right hle (effectivePeriod_pos limits').le
  rw [(effectiveQuota_eq_exactQuota_iff hquota hshares).mpr (hproducts.trans_lt hproduct),
    (effectiveQuota_eq_exactQuota_iff hquota' (hshares.trans_le hle)).mpr hproduct]
  exact max_le_max_left _ (Int.ediv_le_ediv (by decide) hproducts)

end

/-- The file `set_cpu_limits` writes a quota to. -/
def quotaFile (rm : ResourceManager) (containerId : CStr) (fs : CgroupFs) : CStr :=
  match rm.version with
  | .v2 => cgroupFile cgroupRoot rm containerId "cpu.max".toList
  | .v1 => cpuDir rm containerId fs ++ '/' :: "cpu.cfs_quota_us".toList

/-- What a quota looks like there. -/
def quotaText (version : CgroupVersion) (quotaUs periodUs : ℤ) : CStr :=
  match version with
  | .v2 => printDecimal quotaUs ++ ' ' :: printDecimal periodUs
  | .v1 => printDecimal quotaUs

theorem quotaText_inj {version : CgroupVersion} {quotaUs quotaUs' periodUs : ℤ} :
    quotaText version quotaUs periodUs = quotaText version quotaUs' periodUs ↔
      quotaUs = quotaUs' := by
  refine ⟨fun h => ?_, fun h => by rw [h]⟩
  cases version with
  | v2 => exact printDecimal_injective (List.append_cancel_right h)
  | v1 => exact printDecimal_injective h

section

variable {k : Kernel} {rm : ResourceManager} {containerId : CStr} {fs : CgroupFs}

/-- A write changes one file, if any. -/
theorem writeFile_cases (k : Kernel) (path value : CStr) (fs : CgroupFs) :
    writeFile k path value fs = (fs.put path value, 0) ∨ writeFile k path value fs = (fs, -1) := by
  unfold writeFile
  split
  · exact Or.inl rfl
  · exact Or.inr rfl

theorem writeChecked_cases (k : Kernel) (dir name value : CStr) (fs : CgroupFs) :
    writeChecked k dir name value fs = (fs.put (dir ++ '/' :: name) value, 0) ∨
      writeChecked k dir name value fs = (fs, -1) := by
  unfold writeChecked
  split
  · exact writeFile_cases k _ value fs
  · exact Or.inr rfl

/-- A write to another file of the directory. -/
theorem files_writeChecked_of_ne {dir name name' value : CStr} (hne : name ≠ name') :
    (writeChecked k dir name value fs).1.files (dir ++ '/' :: name')
      = fs.files (dir ++ '/' :: name') := by
  rcases writeChecked_cases k dir name value fs with h | h <;> rw [h]
  have hpath : dir ++ '/' :: name' ≠ dir ++ '/' :: name :=
    fun he => hne (List.cons.inj (List.append_cancel_left he)).2.symm
  exact Function.update_of_ne hpath _ _

/-- What a step behind another leaves alone, and the step before it too. -/
theorem files_andThen {r : CgroupFs × ℤ} {next : CgroupFs → CgroupFs × ℤ} {path : CStr}
    (hnext : ∀ fs, (next fs).1.files path = fs.files path) :
    (andThen r next).1.files path = r.1.files path := by
  unfold andThen
  split
  · exact hnext r.1
  · rfl

/-- **What `set_cpu_limits` writes as a quota**, where it writes one. -/
theorem files_quotaFile {limits : CpuLimits}
    (hwritten : (setCpuLimits k rm containerId limits fs).1.files (quotaFile rm containerId fs)
      ≠ fs.files (quotaFile rm containerId fs)) (hpos : 0 < effectiveQuota limits) :
    (setCpuLimits k rm containerId limits fs).1.latest (quotaFile rm containerId fs)
      = some (quotaText rm.version (effectiveQuota limits) (effectivePeriod limits)) := by
  unfold setCpuLimits quotaFile quotaText at *
  cases hv : rm.version with
  | v2 =>
    rw [hv] at hwritten
    dsimp only at hwritten ⊢
    rw [if_pos hpos] at hwritten ⊢
    rcases writeFile_cases k (cgroupFile cgroupRoot rm containerId "cpu.max".toList) _ fs
      with h | h
    · rw [h, CgroupFs.latest_put_self]
    · exact absurd (by rw [h]) hwritten
  | v1 =>
    rw [hv] at hwritten
    have hcpu : (if cgroupDir cpuCpuacctCgroupPath rm containerId ∈ fs.dirs then
          cgroupDir cpuCpuacctCgroupPath rm containerId
        else cgroupDir cpuCgroupPath rm containerId) = cpuDir rm containerId fs := by
      unfold cpuDir
      rw [hv]
    dsimp only at hwritten ⊢
    rw [hcpu, if_pos hpos] at hwritten ⊢
    -- behind the quota stand the period and the shares, in files of their own
    have hshares : ∀ fs' : CgroupFs, (if limits.shares > 0 then
          writeChecked k (cpuDir rm containerId fs) "cpu.shares".toList
            (printDecimal limits.shares) fs'
        else (fs', 0)).1.files (cpuDir rm containerId fs ++ '/' :: "cpu.cfs_quota_us".toList)
        = fs'.files (cpuDir rm containerId fs ++ '/' :: "cpu.cfs_quota_us".toList) := by
      intro fs'
      split
      · exact files_writeChecked_of_ne (by decide)
      · rfl
    unfold CgroupFs.latest at *
    rw [files_andThen hshares, files_andThen (fun _ => files_writeChecked_of_ne (by decide))]
      at hwritten ⊢
    rcases writeChecked_cases k (cpuDir rm containerId fs) "cpu.cfs_quota_us".toList
      (printDecimal (effectiveQuota limits)) fs with h | h
    · rw [h]
      exact CgroupFs.latest_put_self _ _ _
    · exact absurd (by rw [h]) hwritten

/-- **The quota in the file is the share of the period exactly where the
product of the two is an `int`**: for every number of shares and every period,
on both versions, whenever a quota is written. Below a request with such a
product no smaller one gets a larger quota. -/
theorem written_quota_iff {limits : CpuLimits} (hquota : limits.quotaUs ≤ 0)
    (hshares : 0 < limits.shares)
    (hwritten : (setCpuLimits k rm containerId limits fs).1.files (quotaFile rm containerId fs)
      ≠ fs.files (quotaFile rm containerId fs)) :
    ((setCpuLimits k rm containerId limits fs).1.latest (quotaFile rm containerId fs)
        = some (quotaText rm.version (exactQuota limits) (effectivePeriod limits)) ↔
      limits.shares * effectivePeriod limits < 2 ^ 31) ∧
    (limits.shares * effectivePeriod limits < 2 ^ 31 →
      ∀ smaller : CpuLimits, smaller.quotaUs ≤ 0 → 0 < smaller.shares →
        smaller.shares ≤ limits.shares → effectivePeriod smaller = effectivePeriod limits →
        effectiveQuota smaller ≤ effectiveQuota limits) := by
  refine ⟨?_, fun hproduct smaller hquota' hshares' hle hperiod =>
    effectiveQuota_mono hquota' hquota hshares' hle hperiod hproduct⟩
  rw [files_quotaFile hwritten (effectiveQuota_pos (Or.inl hshares)), Option.some_inj,
    quotaText_inj, effectiveQuota_eq_exactQuota_iff hquota hshares]

end

/-- A control group `c` of which all directories have just been made. -/
def CgroupFs.fresh (version : CgroupVersion) : CgroupFs :=
  ⟨cgroupDirs ⟨basePath, true, version⟩ ['c'], fun _ => []⟩

/-- What `set_cpu_limits` writes there as a quota. -/
def quotaWritten (version : CgroupVersion) (limits : CpuLimits) : Option CStr :=
  (setCpuLimits .willing ⟨basePath, true, version⟩ ['c'] limits (.fresh version)).1.latest
    (quotaFile ⟨basePath, true, version⟩ ['c'] (.fresh version))

/-- A request for half a processor. -/
theorem written_quota_iff_half :
    quotaWritten .v1 ⟨512, 0, 0⟩ = some (quotaText .v1 (exactQuota ⟨512, 0, 0⟩) 100000) ∧
      exactQuota ⟨512, 0, 0⟩ = 50000 :=
  ⟨(written_quota_iff (by decide) (by decide) (by decide)).1.mpr (by decide), by decide⟩

/-- **A share of almost thirty processors** gets a hundredth of one on both
versions, and a share of one processor gets more. -/
theorem thirty_processors_throttled :
    exactQuota ⟨30000, 0, 100000⟩ = 2929687 ∧
      quotaWritten .v1 ⟨30000, 0, 100000⟩ = some "1000".toList ∧
      quotaWritten .v2 ⟨30000, 0, 100000⟩ = some "1000 100000".toList ∧
      quotaWritten .v1 ⟨1024, 0, 100000⟩ = some "100000".toList ∧
      quotaWritten .v1 ⟨30000, 0, 100000⟩
        ≠ some (quotaText .v1 (exactQuota ⟨30000, 0, 100000⟩) 100000) ∧
      quotaWritten .v2 ⟨30000, 0, 100000⟩
        ≠ some (quotaText .v2 (exactQuota ⟨30000, 0, 100000⟩) 100000) := by
  decide

/-! ## Limits in force -/

/-- **What control files hold a container to.** Where nothing was asked for
there is no bound. -/
structure EnforcedLimits where
  /-- The quota and the period of processor time. -/
  cpu : Option (ℤ × ℤ)
  /-- The bound of the memory. -/
  memory : Option ℤ
  /-- The bound that is there for the sake of swap space. -/
  swap : Option ℤ
  deriving DecidableEq, Repr

/-- The bound a control file states. Nothing has been written to a file that
has its default, and the kernel's words for no bound are `max` and `-1`. -/
def bound (value : Option CStr) : Option ℤ :=
  ((value.bind readDecimal).map Prod.fst).filter (0 ≤ ·)

/-- The quota and the period `cpu.max` states. -/
def cpuMaxBound (value : Option CStr) : Option (ℤ × ℤ) :=
  (value.bind readDecimal).map fun quota =>
    (quota.1, ((readDecimal quota.2).map Prod.fst).getD 100000)

/-- The file that bounds the memory. -/
def memoryLimitFile : CgroupVersion → CStr
  | .v2 => "memory.max".toList
  | .v1 => "memory.limit_in_bytes".toList

/-- The file that is there for the sake of swap space. -/
def swapLimitFile : CgroupVersion → CStr
  | .v2 => "memory.swap.max".toList
  | .v1 => "memory.memsw.limit_in_bytes".toList

/-- The files that bound the processor time. -/
def cpuLimitFiles : CgroupVersion → List CStr
  | .v2 => ["cpu.max".toList]
  | .v1 => ["cpu.cfs_quota_us".toList, "cpu.cfs_period_us".toList]

/-- The limits the control files state, of their contents by name. -/
def statedLimits (version : CgroupVersion) (cpu memory : CStr → Option CStr) :
    EnforcedLimits where
  cpu :=
    match version with
    | .v2 => cpuMaxBound (cpu "cpu.max".toList)
    | .v1 => (bound (cpu "cpu.cfs_quota_us".toList)).map fun quota =>
        (quota, (bound (cpu "cpu.cfs_period_us".toList)).getD 100000)
  memory := bound (memory (memoryLimitFile version))
  swap := bound (memory (swapLimitFile version))

/-- **The limits in force** in the control group of a container. -/
def enforced (rm : ResourceManager) (containerId : CStr) (fs : CgroupFs) : EnforcedLimits :=
  statedLimits rm.version (fun name => fs.latest (cpuDir rm containerId fs ++ '/' :: name))
    (fun name => fs.latest (cgroupDir (memoryRoot rm.version) rm containerId ++ '/' :: name))

/-- The files that matter. -/
theorem statedLimits_congr {version : CgroupVersion} {cpu cpu' memory memory' : CStr → Option CStr}
    (hcpu : ∀ name ∈ cpuLimitFiles version, cpu name = cpu' name)
    (hmemory : memory (memoryLimitFile version) = memory' (memoryLimitFile version))
    (hswap : memory (swapLimitFile version) = memory' (swapLimitFile version)) :
    statedLimits version cpu memory = statedLimits version cpu' memory' := by
  unfold statedLimits
  rw [hmemory, hswap]
  congr 1
  cases version with
  | v2 => rw [hcpu "cpu.max".toList (by decide)]
  | v1 =>
    rw [hcpu "cpu.cfs_quota_us".toList (by decide), hcpu "cpu.cfs_period_us".toList (by decide)]

theorem mem_cpuFiles_of_mem_cpuLimitFiles {version : CgroupVersion} :
    ∀ name ∈ cpuLimitFiles version, name ∈ cpuFiles := by
  cases version <;> decide

theorem memoryLimitFile_mem (version : CgroupVersion) : memoryLimitFile version ∈ memoryFiles := by
  cases version <;> decide

theorem swapLimitFile_mem (version : CgroupVersion) : swapLimitFile version ∈ memoryFiles := by
  cases version <;> decide

/-- A printed bound is the bound. -/
theorem bound_printDecimal {n : ℤ} (hpos : 0 ≤ n) : bound (some (printDecimal n)) = some n := by
  unfold bound
  rw [Option.bind_some, readDecimal_numeral, Option.map_some, Option.filter_some]
  exact if_pos (decide_eq_true hpos)

theorem cpuMaxBound_printDecimal (quota period : ℤ) :
    cpuMaxBound (some (printDecimal quota ++ ' ' :: printDecimal period))
      = some (quota, period) := by
  have hblank : NotDigit (' ' :: printDecimal period) := by
    rintro c hc
    obtain rfl := Option.mem_some.mp hc
    decide
  have hperiod : readDecimal (' ' :: printDecimal period) = some (period, []) :=
    readDecimal_numeral period
  unfold cpuMaxBound
  rw [Option.bind_some, readDecimal_printDecimal quota hblank, Option.map_some, hperiod]
  rfl

/-- **The limits a request stands for.** Swap space is asked for together with
memory or not at all, and the number is the same on both versions. -/
def requested (limits : ResourceLimits) : EnforcedLimits where
  cpu :=
    if limits.cpu.shares > 0 ∨ limits.cpu.quotaUs > 0 then
      some (effectiveQuota limits.cpu, effectivePeriod limits.cpu)
    else none
  memory := if limits.memory.limitBytes > 0 then some limits.memory.limitBytes else none
  swap :=
    if limits.memory.limitBytes > 0 ∧ limits.memory.swapLimitBytes > 0 then
      some limits.memory.swapLimitBytes
    else none

section

variable (version : CgroupVersion) (limits : ResourceLimits)

/-- What is written to bound the memory is written once. -/
theorem valuesOf_memoryLimitFile :
    valuesOf (memoryLimitValues version limits) (memoryLimitFile version)
      = if limits.memory.limitBytes > 0 then [printDecimal limits.memory.limitBytes] else [] := by
  unfold memoryLimitValues
  by_cases hlimit : limits.memory.limitBytes > 0
  · rw [if_pos hlimit, if_pos hlimit]
    unfold memoryValues
    cases version <;> dsimp only <;> rw [if_pos hlimit] <;> split <;> rfl
  · rw [if_neg hlimit, if_neg hlimit]
    rfl

theorem lastValue_memoryLimitFile :
    lastValue (memoryLimitValues version limits) (memoryLimitFile version)
      = if limits.memory.limitBytes > 0 then some (printDecimal limits.memory.limitBytes)
        else none := by
  rw [← head?_valuesOf, valuesOf_memoryLimitFile]
  split <;> rfl

/-- What is written for the sake of swap space. -/
theorem lastValue_swapLimitFile :
    lastValue (memoryLimitValues version limits) (swapLimitFile version)
      = if limits.memory.limitBytes > 0 ∧ limits.memory.swapLimitBytes > 0 then
          some (printDecimal limits.memory.swapLimitBytes)
        else none := by
  unfold memoryLimitValues
  by_cases hlimit : limits.memory.limitBytes > 0
  · unfold memoryValues
    by_cases hswap : limits.memory.swapLimitBytes > 0
    · have hboth := And.intro hlimit hswap
      cases version <;> dsimp only <;>
        rw [if_pos hlimit, if_pos hlimit, if_pos hswap, if_pos hboth] <;> rfl
    · rw [if_neg (fun h : _ ∧ _ => hswap h.2)]
      cases version <;> dsimp only <;> rw [if_pos hlimit, if_pos hlimit, if_neg hswap] <;> rfl
  · rw [if_neg hlimit, if_neg (fun h : _ ∧ _ => hlimit h.1)]
    rfl

/-- **What is written states what was requested**, on both versions. -/
theorem statedLimits_values :
    statedLimits version (lastValue (cpuLimitValues version limits))
      (lastValue (memoryLimitValues version limits)) = requested limits := by
  unfold statedLimits requested
  rw [lastValue_memoryLimitFile, lastValue_swapLimitFile]
  congr 1
  · by_cases hcpu : limits.cpu.shares > 0 ∨ limits.cpu.quotaUs > 0
    · rw [if_pos hcpu]
      cases version with
      | v2 =>
        dsimp only
        rw [lastValue_cpuMax hcpu, cpuMaxBound_printDecimal]
      | v1 =>
        dsimp only
        rw [lastValue_quota hcpu, lastValue_period hcpu,
          bound_printDecimal (effectiveQuota_pos hcpu).le,
          bound_printDecimal (effectivePeriod_pos _).le]
        rfl
    · have hnone : cpuLimitValues version limits = [] := if_neg hcpu
      rw [if_neg hcpu, hnone]
      cases version <;> rfl
  · split
    · exact bound_printDecimal (Int.natCast_nonneg _)
    · rfl
  · split
    · exact bound_printDecimal (Int.natCast_nonneg _)
    · rfl

end

section

variable {k : Kernel} {rm : ResourceManager} {containerId : CStr} {fs : CgroupFs}
variable (hfit : PathsFit rm containerId) (hwrite : ∀ path value, k.write path value = true)
variable {limits : ResourceLimits}
include hfit hwrite

/-- **The limits in force after a creation**: of each file what was written
to it, or else what it held when the directories had been made. -/
theorem enforced_create
    (hcode : (resourceManagerCreateCgroup k rm containerId limits fs).2 = 0) :
    enforced rm containerId (resourceManagerCreateCgroup k rm containerId limits fs).1
      = statedLimits rm.version
          (fun name => (lastValue (cpuLimitValues rm.version limits) name).or
            ((makeCgroupDirs k rm containerId fs).1.latest
              (cpuDir rm containerId (makeCgroupDirs k rm containerId fs).1 ++ '/' :: name)))
          (fun name => (lastValue (memoryLimitValues rm.version limits) name).or
            ((makeCgroupDirs k rm containerId fs).1.latest
              (cgroupDir (memoryRoot rm.version) rm containerId ++ '/' :: name))) := by
  refine statedLimits_congr (fun name hname => ?_) ?_ ?_
  · rw [latest_create_cpu hfit hwrite hcode (mem_cpuFiles_of_mem_cpuLimitFiles name hname),
      cpuDir_create hcode]
  · exact latest_create_memory hfit hwrite hcode (memoryLimitFile_mem _)
  · exact latest_create_memory hfit hwrite hcode (swapLimitFile_mem _)

/-- **In new directories the limits in force are those requested.** -/
theorem enforced_create_of_unwritten (hunwritten : fs.Unwritten (cgroupDirs rm containerId))
    (hcode : (resourceManagerCreateCgroup k rm containerId limits fs).2 = 0) :
    enforced rm containerId (resourceManagerCreateCgroup k rm containerId limits fs).1
      = requested limits := by
  have hmade := mem_dirs_of_makeCgroupDirs (create_of_code hcode).1
  have hempty : ∀ d ∈ cgroupDirs rm containerId,
      d ∈ (makeCgroupDirs k rm containerId fs).1.dirs → ∀ name,
      (makeCgroupDirs k rm containerId fs).1.latest (d ++ '/' :: name) = none := by
    intro d hd hmem name
    unfold CgroupFs.latest
    rw [hunwritten.of_makeCgroupDirs d hd hmem name]
    rfl
  rw [enforced_create hfit hwrite hcode, ← statedLimits_values rm.version limits]
  refine statedLimits_congr (fun name _ => ?_) ?_ ?_
  · rw [hempty _ (cpuDir_mem_cgroupDirs rm containerId _) hmade.1, Option.or_none]
  · rw [hempty _ (mem_cgroupDirs (memoryRoot_mem _)) hmade.2, Option.or_none]
  · rw [hempty _ (mem_cgroupDirs (memoryRoot_mem _)) hmade.2, Option.or_none]

/-- **Where all three limits are requested they are in force**, whatever the
directories held. -/
theorem enforced_create_of_all (hcpu : limits.cpu.shares > 0 ∨ limits.cpu.quotaUs > 0)
    (hmemory : limits.memory.limitBytes > 0) (hswap : limits.memory.swapLimitBytes > 0)
    (hcode : (resourceManagerCreateCgroup k rm containerId limits fs).2 = 0) :
    enforced rm containerId (resourceManagerCreateCgroup k rm containerId limits fs).1
      = requested limits := by
  rw [enforced_create hfit hwrite hcode, ← statedLimits_values rm.version limits]
  refine statedLimits_congr (fun name hname => ?_) ?_ ?_
  · cases hv : rm.version with
    | v2 =>
      rw [hv] at hname
      obtain rfl := List.mem_singleton.mp hname
      rw [lastValue_cpuMax hcpu, Option.some_or]
    | v1 =>
      rw [hv] at hname
      rcases List.mem_pair.mp hname with rfl | rfl
      · rw [lastValue_quota hcpu, Option.some_or]
      · rw [lastValue_period hcpu, Option.some_or]
  · rw [lastValue_memoryLimitFile, if_pos hmemory, Option.some_or]
  · rw [lastValue_swapLimitFile, if_pos ⟨hmemory, hswap⟩, Option.some_or]

omit hfit hwrite

/-- The directories of a container, with these values in every file. -/
def CgroupFs.holding (rm : ResourceManager) (containerId : CStr) (values : List CStr) :
    CgroupFs := ⟨cgroupDirs rm containerId, fun _ => values⟩

theorem makeCgroupDirs_holding (values : List CStr) :
    makeCgroupDirs k rm containerId (.holding rm containerId values)
      = (.holding rm containerId values, 0) := by
  have hmem : ∀ root ∈ cgroupRoots rm.version,
      cgroupDir root rm containerId ∈ (CgroupFs.holding rm containerId values).dirs :=
    fun _ => mem_cgroupDirs
  refine makeCgroupDirs_of_dirsMade ?_
  unfold DirsMade
  cases hv : rm.version with
  | v2 => exact hmem _ (by rw [hv]; decide)
  | v1 => exact ⟨Or.inl (hmem _ (by rw [hv]; decide)), hmem _ (by rw [hv]; decide)⟩

theorem code_create_holding (hinit : rm.initialized = true) (values : List CStr) :
    (resourceManagerCreateCgroup k rm containerId limits (.holding rm containerId values)).2
      = 0 := by
  unfold resourceManagerCreateCgroup andThen
  rw [if_pos hinit, makeCgroupDirs_holding, if_pos rfl]

/-- **The limits in force depend on nothing but the request exactly where it
asks for all three**: for every request, of any two control groups that were
there before. -/
theorem enforced_independent_iff (hinit : rm.initialized = true)
    (hfit : PathsFit rm containerId) (hwrite : ∀ path value, k.write path value = true) :
    (∀ fs fs' : CgroupFs,
      (resourceManagerCreateCgroup k rm containerId limits fs).2 = 0 →
      (resourceManagerCreateCgroup k rm containerId limits fs').2 = 0 →
      enforced rm containerId (resourceManagerCreateCgroup k rm containerId limits fs).1
        = enforced rm containerId (resourceManagerCreateCgroup k rm containerId limits fs').1) ↔
    (limits.cpu.shares > 0 ∨ limits.cpu.quotaUs > 0) ∧ limits.memory.limitBytes > 0 ∧
      limits.memory.swapLimitBytes > 0 := by
  constructor
  · intro hsame
    -- directories that are new to the kernel, and directories that hold a bound
    have h := hsame (.holding rm containerId []) (.holding rm containerId ["7".toList])
      (code_create_holding hinit _) (code_create_holding hinit _)
    rw [enforced_create_of_unwritten hfit hwrite (fun _ _ _ _ => rfl)
      (code_create_holding hinit _), enforced_create hfit hwrite (code_create_holding hinit _),
      makeCgroupDirs_holding] at h
    refine ⟨?_, ?_, ?_⟩
    · by_contra hcpu
      have hnone : cpuLimitValues rm.version limits = [] := if_neg hcpu
      have h := congrArg EnforcedLimits.cpu h
      rw [hnone, requested, if_neg hcpu] at h
      revert h
      cases rm.version <;> exact fun h => nomatch h
    · by_contra hmemory
      have h := congrArg EnforcedLimits.memory h
      unfold requested statedLimits at h
      dsimp only at h
      rw [if_neg hmemory, lastValue_memoryLimitFile, if_neg hmemory] at h
      exact nomatch h
    · by_contra hswap
      have hboth : ¬ (limits.memory.limitBytes > 0 ∧ limits.memory.swapLimitBytes > 0) :=
        fun hboth => hswap hboth.2
      have h := congrArg EnforcedLimits.swap h
      unfold requested statedLimits at h
      dsimp only at h
      rw [if_neg hboth, lastValue_swapLimitFile, if_neg hboth] at h
      exact nomatch h
  · rintro ⟨hcpu, hmemory, hswap⟩ fs fs' hcode hcode'
    rw [enforced_create_of_all hfit hwrite hcpu hmemory hswap hcode,
      enforced_create_of_all hfit hwrite hcpu hmemory hswap hcode']

end

/-- A creation of a container `c` where the kernel takes everything. -/
def createIn (version : CgroupVersion) (limits : ResourceLimits) (fs : CgroupFs) : CgroupFs × ℤ :=
  resourceManagerCreateCgroup .willing ⟨basePath, true, version⟩ ['c'] limits fs

/-- The limits in force in its control group. -/
def enforcedIn (version : CgroupVersion) (fs : CgroupFs) : EnforcedLimits :=
  enforced ⟨basePath, true, version⟩ ['c'] fs

/-- A container with all three limits, in directories that hold others. -/
theorem enforced_independent_iff_all :
    enforcedIn .v1 (createIn .v1 ⟨⟨1024, -1, 100000⟩, ⟨2 ^ 27, 2 ^ 28⟩, 1⟩
        (.holding ⟨basePath, true, .v1⟩ ['c'] ["7".toList])).1
      = enforcedIn .v1 (createIn .v1 ⟨⟨1024, -1, 100000⟩, ⟨2 ^ 27, 2 ^ 28⟩, 1⟩ .bare).1 :=
  have hid : Component ['c'] := ⟨by decide, by decide⟩
  (@enforced_independent_iff .willing ⟨basePath, true, .v1⟩ ['c']
    ⟨⟨1024, -1, 100000⟩, ⟨2 ^ 27, 2 ^ 28⟩, 1⟩ rfl (hid.pathsFit rfl) (fun _ _ => rfl)).mpr
      ⟨Or.inl (by decide), by decide, by decide⟩ _ _ rfl rfl

/-- **The default limits behind a container that had asked for swap space**:
its bound stays in force. -/
theorem stale_swap_in_force :
    (createIn .v2 resourceLimitsInit .bare).2 = 0 ∧
      enforcedIn .v2 (createIn .v2 resourceLimitsInit .bare).1
        = ⟨some (100000, 100000), some 134217728, none⟩ ∧
      (createIn .v2 resourceLimitsInit
        (createIn .v2 ⟨⟨0, 0, 0⟩, ⟨2 ^ 27, 2 ^ 26⟩, 1⟩ .bare).1).2 = 0 ∧
      enforcedIn .v2 (createIn .v2 resourceLimitsInit
        (createIn .v2 ⟨⟨0, 0, 0⟩, ⟨2 ^ 27, 2 ^ 26⟩, 1⟩ .bare).1).1
        = ⟨some (100000, 100000), some 134217728, some 67108864⟩ := by
  decide

/-! ## Version 1 and version 2 -/

/-- **The amounts of memory and of swap space that may be in use.** The file
of version 1 bounds the two together, and that of version 2 swap space
alone. -/
def EnforcedLimits.Allows (limits : EnforcedLimits) (version : CgroupVersion)
    (memory swap : ℕ) : Prop :=
  (∀ most ∈ limits.memory, memory ≤ most) ∧
    ∀ most ∈ limits.swap,
      match version with
      | .v1 => (memory : ℤ) + swap ≤ most
      | .v2 => (swap : ℤ) ≤ most

/-- **The two versions enforce the same limits exactly where no swap space is
asked for**: for every request that bounds the memory, in new control groups,
the processor time and the memory are bounded alike, and the same amounts of
memory and swap space may be in use. -/
theorem enforced_agree_iff {k k' : Kernel} {rm rm' : ResourceManager}
    {containerId containerId' : CStr} {fs fs' : CgroupFs} {limits : ResourceLimits}
    (hv : rm.version = .v1) (hv' : rm'.version = .v2)
    (hfit : PathsFit rm containerId) (hfit' : PathsFit rm' containerId')
    (hwrite : ∀ path value, k.write path value = true)
    (hwrite' : ∀ path value, k'.write path value = true)
    (hnew : fs.Unwritten (cgroupDirs rm containerId))
    (hnew' : fs'.Unwritten (cgroupDirs rm' containerId'))
    (hcode : (resourceManagerCreateCgroup k rm containerId limits fs).2 = 0)
    (hcode' : (resourceManagerCreateCgroup k' rm' containerId' limits fs').2 = 0)
    (hlimit : limits.memory.limitBytes > 0) :
    ((enforced rm containerId (resourceManagerCreateCgroup k rm containerId limits fs).1).cpu
        = (enforced rm' containerId'
            (resourceManagerCreateCgroup k' rm' containerId' limits fs').1).cpu ∧
      (enforced rm containerId (resourceManagerCreateCgroup k rm containerId limits fs).1).memory
        = (enforced rm' containerId'
            (resourceManagerCreateCgroup k' rm' containerId' limits fs').1).memory ∧
      ∀ memory swap,
        (enforced rm containerId
            (resourceManagerCreateCgroup k rm containerId limits fs).1).Allows
              rm.version memory swap ↔
          (enforced rm' containerId'
            (resourceManagerCreateCgroup k' rm' containerId' limits fs').1).Allows
              rm'.version memory swap) ↔
    limits.memory.swapLimitBytes = 0 := by
  rw [enforced_create_of_unwritten hfit hwrite hnew hcode,
    enforced_create_of_unwritten hfit' hwrite' hnew' hcode', hv, hv']
  constructor
  · rintro ⟨-, -, hallows⟩
    by_contra hswap
    -- all of the memory and all of the swap space that was asked for
    have h := (hallows limits.memory.limitBytes limits.memory.swapLimitBytes).mpr
    unfold EnforcedLimits.Allows requested at h
    dsimp only at h
    rw [if_pos hlimit, if_pos ⟨hlimit, Nat.pos_of_ne_zero hswap⟩] at h
    have := (h ⟨by simp, by simp⟩).2 _ rfl
    omega
  · intro hswap
    have hnone : (requested limits).swap = none := if_neg (fun h => by omega)
    refine ⟨rfl, rfl, fun memory swap => ?_⟩
    unfold EnforcedLimits.Allows
    rw [hnone]
    exact and_congr_right (fun _ => iff_of_true (fun _ h => nomatch h) (fun _ h => nomatch h))

/-- The default limits on both versions. -/
theorem enforced_agree_iff_default :
    (enforcedIn .v1 (createIn .v1 resourceLimitsInit .bare).1).cpu
        = (enforcedIn .v2 (createIn .v2 resourceLimitsInit .bare).1).cpu ∧
      (enforcedIn .v1 (createIn .v1 resourceLimitsInit .bare).1).memory
        = (enforcedIn .v2 (createIn .v2 resourceLimitsInit .bare).1).memory ∧
      ∀ memory swap,
        (enforcedIn .v1 (createIn .v1 resourceLimitsInit .bare).1).Allows .v1 memory swap ↔
          (enforcedIn .v2 (createIn .v2 resourceLimitsInit .bare).1).Allows .v2 memory swap :=
  have hid : Component ['c'] := ⟨by decide, by decide⟩
  (@enforced_agree_iff .willing .willing ⟨basePath, true, .v1⟩ ⟨basePath, true, .v2⟩ ['c'] ['c']
    .bare .bare resourceLimitsInit rfl rfl (hid.pathsFit rfl) (hid.pathsFit rfl)
    (fun _ _ => rfl) (fun _ _ => rfl) (fun _ _ _ _ => rfl) (fun _ _ _ _ => rfl) rfl rfl
    (by decide)).mpr rfl

/-- **A container that asks for as much swap space as memory**: on version 2
it can use both, and on version 1 it has no swap space once its memory is
full. -/
theorem no_swap_beside_memory :
    (enforcedIn .v2 (createIn .v2 ⟨⟨0, 0, 0⟩, ⟨2 ^ 27, 2 ^ 27⟩, 1⟩ .bare).1).Allows .v2
        (2 ^ 27) (2 ^ 27) ∧
      ¬ (enforcedIn .v1 (createIn .v1 ⟨⟨0, 0, 0⟩, ⟨2 ^ 27, 2 ^ 27⟩, 1⟩ .bare).1).Allows .v1
        (2 ^ 27) 1 := by
  have hv2 : enforcedIn .v2 (createIn .v2 ⟨⟨0, 0, 0⟩, ⟨2 ^ 27, 2 ^ 27⟩, 1⟩ .bare).1
      = ⟨none, some (2 ^ 27), some (2 ^ 27)⟩ := by decide
  have hv1 : enforcedIn .v1 (createIn .v1 ⟨⟨0, 0, 0⟩, ⟨2 ^ 27, 2 ^ 27⟩, 1⟩ .bare).1
      = ⟨none, some (2 ^ 27), some (2 ^ 27)⟩ := by decide
  rw [hv2, hv1]
  refine ⟨⟨by simp, by simp⟩, fun h => ?_⟩
  have := h.2 _ rfl
  omega
