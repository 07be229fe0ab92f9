import MiniContainer.CgroupUses
import MiniContainer.Monitor
import MiniContainer.Session

/-!
# The processor time the monitor accounts for

Each time the list of containers is asked for, `getContainerListJSON`
subtracts from the processor time a running container has used what it had
used the last time, which two static maps keep under its identifier. The
subtraction is one of `unsigned long`s: it is right where the time kept is not
more than the time used now.

The time used is counted by the kernel for each directory, and starts anew
with it, while the maps are keyed by identifiers and an identifier comes back
after its container was destroyed. `cpuDiff_of_spares` is about all runs of
calls and polls in which no control group is made anew under an identifier
with a time kept for it; `cpuDiff_wraps` is a run of four steps in which one
is.
-/

open CText

/-! ## The list of containers -/

/-- `prev_cpu_usage` and `prev_time`. -/
structure Baselines where
  usage : CStr → Option ℕ
  time : CStr → Option ℤ

/-- The maps of a process that has just started. -/
def Baselines.empty : Baselines := ⟨fun _ => none, fun _ => none⟩

/-- Both maps assigned to, or with `none` erased from. -/
def Baselines.set (b : Baselines) (containerId : CStr) (entry : Option (ℕ × ℤ)) : Baselines where
  usage := Function.update b.usage containerId (entry.map Prod.fst)
  time := Function.update b.time containerId (entry.map Prod.snd)

@[simp] theorem Baselines.usage_set_self (b : Baselines) (containerId : CStr)
    (entry : Option (ℕ × ℤ)) : (b.set containerId entry).usage containerId = entry.map Prod.fst :=
  Function.update_self _ _ _

theorem Baselines.usage_set_of_ne (b : Baselines) {containerId id : CStr} (h : id ≠ containerId)
    (entry : Option (ℕ × ℤ)) : (b.set containerId entry).usage id = b.usage id :=
  Function.update_of_ne h _ _

/-- The difference of two `unsigned long`s. -/
def subUnsigned (a b : ℕ) : ℕ := (a + (2 ^ 64 - b)) % 2 ^ 64

theorem subUnsigned_of_le {a b : ℕ} (h : b ≤ a) (ha : a < 2 ^ 64) : subUnsigned a b = a - b := by
  unfold subUnsigned
  omega

/-- `cpu_diff` and `time_diff`, with what they were computed from. -/
structure CpuDiff where
  baseline : ℕ
  usage : ℕ
  cpuDiff : ℕ
  timeDiff : ℤ
  deriving DecidableEq, Repr

/-- The difference computed where both maps have an entry. -/
def cpuDiffOf (b : Baselines) (containerId : CStr) (usage : ℕ) (now : ℤ) : Option CpuDiff :=
  match b.usage containerId, b.time containerId with
  | some baseline, some earlier =>
    some ⟨baseline, usage, subUnsigned usage baseline, now - earlier⟩
  | _, _ => none

/-- The figures of a running container, without the percentages computed from
them in floating point. -/
structure Figures where
  cpuUsage : ℕ
  memoryUsage : ℕ
  quotaUs : ℕ
  periodUs : ℕ
  memoryLimit : ℕ
  diff : Option CpuDiff
  deriving DecidableEq, Repr

/-- An element of the list, with the figures of a running container. -/
structure Listed where
  info : ContainerInfo
  figures : Option Figures

/-- What `getContainerListJSON` does about one container, or `none` where an
exception leaves it. -/
def listContainer (reads : CgroupReads) (rm : ResourceManager) (now : ℤ) (info : ContainerInfo)
    (b : Baselines) : Option (Baselines × Listed) :=
  if info.state = .running then
    let stats := (resourceManagerGetStats reads rm info.id).1
    (monitorCpuLimits reads rm info.id).map fun limits =>
      (b.set info.id (some (stats.1, now)),
        ⟨info, some
          { cpuUsage := stats.1
            memoryUsage := stats.2
            quotaUs := limits.1
            periodUs := limits.2
            memoryLimit := monitorMemoryLimit reads rm info.id
            diff := cpuDiffOf b info.id stats.1 now }⟩)
  else some (b.set info.id none, ⟨info, none⟩)

/-- The loop over the containers: the maps, the elements and whether the loop
came to its end. -/
def listContainers (reads : CgroupReads) (rm : ResourceManager) (now : ℤ) :
    List ContainerInfo → Baselines → Baselines × List Listed × Bool
  | [], b => (b, [], true)
  | info :: rest, b =>
    match listContainer reads rm now info b with
    | none => (b, [], false)
    | some (b, listed) =>
      let r := listContainers reads rm now rest b
      (r.1, listed :: r.2.1, r.2.2)

/-- `getContainerListJSON`, before the text is put together. -/
def getContainerList (reads : CgroupReads) (now : ℤ) (cm : ContainerManager) (b : Baselines) :
    Baselines × List Listed × Bool :=
  listContainers reads cm.rm now (cm.entries.filter (fun c => c.state ≠ .destroyed)) b

/-! ## What the kernel counts -/

/-- The file a control group shows its processor time in. -/
def usageName : CgroupVersion → CStr
  | .v1 => "cpuacct.usage".toList
  | .v2 => "cpu.stat".toList

/-- How many nanoseconds it counts in. -/
def usageUnit : CgroupVersion → ℕ
  | .v1 => 1
  | .v2 => 1000

/-- What the file shows. -/
def shownUsage (version : CgroupVersion) (count : ℕ) (rest : CStr) : CStr :=
  match version with
  | .v1 => printDecimal count ++ ['\n']
  | .v2 => "usage_usec ".toList ++ (printDecimal count ++ '\n' :: rest)

/-- **The processor time of a container is read.** Processor time is
accounted in one hierarchy, `usageRoot`: the container has a directory there,
its file is the one that is found, and it shows what has been counted. -/
structure ReadsUsage (usageRoot : CStr) (reads : CgroupReads) (rm : ResourceManager)
    (fs : CgroupFs) (counter : CStr → ℕ) (containerId : CStr) : Prop where
  dir_mem : cgroupDir usageRoot rm containerId ∈ fs.dirs
  file : cpuUsageFile reads rm containerId
    = some (cgroupFile usageRoot rm containerId (usageName rm.version))
  contents : ∃ rest, reads.read (cgroupFile usageRoot rm containerId (usageName rm.version))
    = some (shownUsage rm.version (counter (cgroupDir usageRoot rm containerId)) rest)
  lt : counter (cgroupDir usageRoot rm containerId) * usageUnit rm.version < 2 ^ 64

/-- A counter file is read back. -/
theorem parseCounter_printDecimal {n : ℕ} (h : n < 2 ^ 64) :
    parseCounter (printDecimal n ++ ['\n']) = n := by
  have hne : ['\n'] ≠ printDecimal (n : ℤ) ++ ['\n'] :=
    fun he => printDecimal_ne_nil n (List.self_eq_append_left.mp he)
  unfold parseCounter
  dsimp only
  rw [strtoul_printDecimal (by omega) (by omega) (by simp [NotDigit]), Int.toNat_natCast]
  exact if_pos ⟨hne, Or.inr (Or.inl rfl)⟩

/-- The line of `cpu.stat` is read back. -/
theorem parseUsageUsec_shown {n : ℕ} (h : n * 1000 < 2 ^ 64) (rest : CStr) :
    parseUsageUsec ("usage_usec ".toList ++ (printDecimal n ++ '\n' :: rest)) = n * 1000 := by
  have hfind : strstrFrom ("usage_usec ".toList ++ (printDecimal n ++ '\n' :: rest))
      "usage_usec".toList = some ("usage_usec ".toList ++ (printDecimal n ++ '\n' :: rest)) := rfl
  have hvalue : ((("usage_usec ".toList ++ (printDecimal n ++ '\n' :: rest)).dropWhile
        (fun c => c ≠ ' ' ∧ c ≠ '\t')).dropWhile (fun c => c = ' ' ∨ c = '\t'))
      = printDecimal n ++ '\n' :: rest := by
    obtain ⟨c, t, hct, hc⟩ := printDecimal_eq_cons n
    have hblank : ¬ decide (c = ' ' ∨ c = '\t') = true := by
      rw [decide_eq_true_iff]
      rintro (rfl | rfl) <;> exact absurd hc (by decide)
    show ((' ' :: (printDecimal n ++ '\n' :: rest)).dropWhile (fun c => c = ' ' ∨ c = '\t')) = _
    rw [List.dropWhile_cons_of_pos (by decide), hct, List.cons_append]
    exact List.dropWhile_cons_of_neg hblank
  unfold parseUsageUsec
  rw [hfind]
  dsimp only
  rw [hvalue, strtoul_printDecimal (by omega) (by omega) (by simp [NotDigit])]
  dsimp only
  rw [if_pos (fun he => printDecimal_ne_nil n (List.self_eq_append_left.mp he)),
    Int.toNat_natCast, Nat.mod_eq_of_lt h]

/-- **The time used is the time counted**, where it is read. -/
theorem ReadsUsage.usage_eq {usageRoot : CStr} {reads : CgroupReads} {rm : ResourceManager}
    {fs : CgroupFs} {counter : CStr → ℕ} {containerId : CStr}
    (h : ReadsUsage usageRoot reads rm fs counter containerId) (hinit : rm.initialized = true) :
    (resourceManagerGetStats reads rm containerId).1.1
      = counter (cgroupDir usageRoot rm containerId) * usageUnit rm.version := by
  obtain ⟨rest, hcontents⟩ := h.contents
  have hlt := h.lt
  unfold resourceManagerGetStats
  rw [if_pos hinit]
  dsimp only
  rw [h.file, Option.bind_some, hcontents]
  unfold usageUnit at hlt ⊢
  cases hv : rm.version with
  | v1 =>
    rw [hv] at hlt
    rw [Nat.mul_one] at hlt ⊢
    exact parseCounter_printDecimal hlt
  | v2 =>
    rw [hv] at hlt
    exact parseUsageUsec_shown hlt rest

/-! ## Calls and polls -/

/-- The container manager with the monitor beside it, and what the kernel has
counted for each directory. -/
structure Monitored where
  world : World
  baselines : Baselines
  counter : CStr → ℕ

/-- A call, or a request for the list of containers. -/
inductive MonitorEvent
  | calls (env : Env) (call : Call)
  | polls (reads : CgroupReads) (now : ℤ)

/-- **Reads succeed**: the processor time of every running container is
read. -/
def Monitored.Reads (usageRoot : CStr) (reads : CgroupReads) (s : Monitored) : Prop :=
  ∀ info ∈ s.world.cm.entries, info.state = .running →
    ReadsUsage usageRoot reads s.world.cm.rm s.world.cg s.counter info.id

/-- What happens. Meanwhile what has been counted for a directory that stays
grows. -/
def MonitorEvent.Step (usageRoot : CStr) (s : Monitored) (a : MonitorEvent) (s' : Monitored) :
    Prop :=
  (∀ d ∈ s.world.cg.dirs, d ∈ s'.world.cg.dirs → s.counter d ≤ s'.counter d) ∧
    match a with
    | .calls env call => s.world.Step (env, call) s'.world ∧ s'.baselines = s.baselines
    | .polls reads now => s.Reads usageRoot reads ∧ s'.world = s.world ∧
        s'.baselines = (getContainerList reads now s.world.cm s.baselines).1

/-- **No control group is made anew under an identifier with a time kept for
it**: where a call creates one, and processor time is counted in its
directory for such an identifier, the directory is still there. -/
def MonitorEvent.Spares (usageRoot : CStr) (s : Monitored) : MonitorEvent → Prop
  | .polls _ _ => True
  | .calls env call => ∀ containerId limits, .create containerId limits ∈ call.uses env s.world →
      ∀ id baseline, s.baselines.usage id = some baseline → baseline ≠ 0 →
        cgroupDir usageRoot s.world.cm.rm id ∈ cgroupDirs s.world.cm.rm containerId →
        cgroupDir usageRoot s.world.cm.rm id ∈ s.world.cg.dirs

/-- **What is kept is behind what is counted.** -/
def Behind (usageRoot : CStr) (rm : ResourceManager) (fs : CgroupFs) (counter : CStr → ℕ)
    (b : Baselines) : Prop :=
  ∀ id baseline, b.usage id = some baseline → cgroupDir usageRoot rm id ∈ fs.dirs →
    baseline ≤ counter (cgroupDir usageRoot rm id) * usageUnit rm.version

/-- A difference that did not wrap. -/
def CpuDiff.Exact (diff : CpuDiff) : Prop :=
  diff.baseline ≤ diff.usage ∧ diff.cpuDiff = diff.usage - diff.baseline

/-- Every difference of a list is exact. -/
def ExactDiffs (list : List Listed) : Prop :=
  ∀ listed ∈ list, ∀ figures, listed.figures = some figures →
    ∀ diff, figures.diff = some diff → diff.Exact

section

variable {usageRoot : CStr} {reads : CgroupReads} {rm : ResourceManager} {fs : CgroupFs}
  {counter : CStr → ℕ} {now : ℤ} {b b' : Baselines}

theorem cpuDiffOf_exact {id : CStr} {usage : ℕ} (hb : ∀ u, b.usage id = some u → u ≤ usage)
    (hlt : usage < 2 ^ 64) {diff : CpuDiff} (h : cpuDiffOf b id usage now = some diff) :
    diff.Exact := by
  unfold cpuDiffOf at h
  split at h
  · next baseline earlier hbaseline _ =>
    cases h
    exact ⟨hb baseline hbaseline, subUnsigned_of_le (hb baseline hbaseline) hlt⟩
  · cases h

/-- What is kept for one container is replaced by what was used now. -/
theorem Behind.set (hb : Behind usageRoot rm fs counter b) (id : CStr) {entry : Option (ℕ × ℤ)}
    (hentry : ∀ usage ∈ entry.map Prod.fst,
      usage = counter (cgroupDir usageRoot rm id) * usageUnit rm.version) :
    Behind usageRoot rm fs counter (b.set id entry) := by
  intro id' baseline hbaseline hdir
  by_cases hid : id' = id
  · subst hid
    rw [Baselines.usage_set_self] at hbaseline
    exact (hentry baseline hbaseline).le
  · rw [Baselines.usage_set_of_ne _ hid] at hbaseline
    exact hb id' baseline hbaseline hdir

/-- **One container**: its difference is exact, and what is kept stays behind
what is counted. -/
theorem Behind.of_listContainer (hb : Behind usageRoot rm fs counter b)
    (hinit : rm.initialized = true) {info : ContainerInfo}
    (hreads : info.state = .running → ReadsUsage usageRoot reads rm fs counter info.id)
    {listed : Listed} (h : listContainer reads rm now info b = some (b', listed)) :
    Behind usageRoot rm fs counter b' ∧ ExactDiffs [listed] := by
  unfold listContainer at h
  by_cases hrunning : info.state = .running
  · rw [if_pos hrunning] at h
    obtain ⟨limits, -, hlisted⟩ := Option.map_eq_some_iff.mp h
    obtain ⟨rfl, rfl⟩ := Prod.mk.inj hlisted
    have hread := hreads hrunning
    have husage := hread.usage_eq hinit
    constructor
    · refine hb.set info.id (fun usage hmem => ?_)
      rw [← Option.some.inj hmem, husage]
    · intro listed hmem figures hfigures diff hdiff
      obtain rfl := List.mem_singleton.mp hmem
      cases hfigures
      refine cpuDiffOf_exact (fun u hu => ?_) ?_ hdiff
      · rw [husage]
        exact hb info.id u hu hread.dir_mem
      · rw [husage]
        exact hread.lt
  · rw [if_neg hrunning] at h
    cases h
    constructor
    · exact hb.set info.id (fun _ hmem => nomatch hmem)
    · intro listed hmem figures hfigures
      obtain rfl := List.mem_singleton.mp hmem
      cases hfigures

theorem Behind.of_listContainers (hb : Behind usageRoot rm fs counter b)
    (hinit : rm.initialized = true) {l : List ContainerInfo}
    (hreads : ∀ info ∈ l, info.state = .running →
      ReadsUsage usageRoot reads rm fs counter info.id) :
    Behind usageRoot rm fs counter (listContainers reads rm now l b).1 ∧
      ExactDiffs (listContainers reads rm now l b).2.1 := by
  induction l generalizing b with
  | nil => exact ⟨hb, fun _ h => absurd h List.not_mem_nil⟩
  | cons info rest ih =>
    obtain ⟨hinfo, hrest⟩ := List.forall_mem_cons.mp hreads
    unfold listContainers
    cases hone : listContainer reads rm now info b with
    | none => exact ⟨hb, fun _ h => absurd h List.not_mem_nil⟩
    | some r =>
      obtain ⟨b', listed⟩ := r
      obtain ⟨hb', hexact⟩ := hb.of_listContainer hinit hinfo hone
      obtain ⟨hlast, hexacts⟩ := ih hb' hrest
      refine ⟨hlast, fun listed' hmem => ?_⟩
      rcases List.mem_cons.mp hmem with rfl | hmem
      · exact hexact _ (List.mem_singleton_self _)
      · exact hexacts listed' hmem

end

/-! ## Runs of calls and polls -/

section

variable {usageRoot : CStr} {s s' : Monitored}

/-- The state of a process the monitor may run in. -/
structure Monitored.Ordered (usageRoot : CStr) (s : Monitored) : Prop where
  sound : s.world.Sound
  behind : Behind usageRoot s.world.cm.rm s.world.cg s.counter s.baselines

/-- **A list of containers**: every difference in it is exact. -/
theorem Monitored.Ordered.getContainerList (h : s.Ordered usageRoot) {reads : CgroupReads}
    (hreads : s.Reads usageRoot reads) (now : ℤ) :
    Behind usageRoot s.world.cm.rm s.world.cg s.counter
        (getContainerList reads now s.world.cm s.baselines).1 ∧
      ExactDiffs (getContainerList reads now s.world.cm s.baselines).2.1 :=
  h.behind.of_listContainers h.sound.initialized
    (fun info hmem hrunning => hreads info (List.mem_of_mem_filter hmem) hrunning)

/-- **No step that spares the identifiers with a time kept for them puts what
is kept ahead of what is counted.** -/
theorem Monitored.Ordered.step (h : s.Ordered usageRoot) {a : MonitorEvent}
    (hspares : a.Spares usageRoot s) (hstep : a.Step usageRoot s s') : s'.Ordered usageRoot := by
  obtain ⟨hcounts, hstep⟩ := hstep
  cases a with
  | calls env call =>
    obtain ⟨⟨r, hperform⟩, hbaselines⟩ := hstep
    have hspec := Call.perform_spec h.sound.wf hperform
    refine ⟨h.sound.step (a := .calls env call) ⟨r, hperform⟩, ?_⟩
    rw [hspec.rm, hbaselines]
    intro id baseline hbaseline hdir
    by_cases hzero : baseline = 0
    · omega
    -- the directory was there before the call
    have hbefore : cgroupDir usageRoot s.world.cm.rm id ∈ s.world.cg.dirs := by
      have hafter := hdir
      rw [Call.perform_cg h.sound.wf hperform] at hafter
      rcases CgroupUse.mem_dirs_replay hafter with hold | ⟨containerId, limits, hmem, hcreated⟩
      · exact hold
      · exact hspares containerId limits hmem id baseline hbaseline hzero hcreated
    exact (h.behind id baseline hbaseline hbefore).trans
      (Nat.mul_le_mul_right _ (hcounts _ hbefore hdir))
  | polls reads now =>
    obtain ⟨hreads, hworld, hbaselines⟩ := hstep
    refine ⟨by rw [hworld]; exact h.sound, ?_⟩
    rw [hworld, hbaselines]
    intro id baseline hbaseline hdir
    refine ((h.getContainerList hreads now).1 id baseline hbaseline hdir).trans
      (Nat.mul_le_mul_right _ (hcounts _ hdir ?_))
    rwa [hworld]

/-- **Processor time never goes backwards** over a run of calls and polls in
which no control group is made anew under an identifier with a time kept for
it: every difference that is then computed is exact. -/
theorem cpuDiff_of_spares {s₀ : Monitored} {acts : List MonitorEvent}
    (hstart : s₀.world.Reachable) (hempty : s₀.baselines = .empty)
    (hrun : Run (fun s a s' => MonitorEvent.Spares usageRoot s a ∧ a.Step usageRoot s s')
      s₀ acts s)
    {reads : CgroupReads} (hreads : s.Reads usageRoot reads) (now : ℤ) :
    ExactDiffs (getContainerList reads now s.world.cm s.baselines).2.1 := by
  have hs₀ : s₀.Ordered usageRoot := by
    refine ⟨hstart.sound, fun id baseline hbaseline _ => ?_⟩
    rw [hempty] at hbaseline
    cases hbaseline
  have hs : s.Ordered usageRoot :=
    Run.invariant (I := fun s => s.Ordered usageRoot)
      (fun _ _ _ h hstep => h.step hstep.1 hstep.2) hs₀ hrun
  exact (hs.getContainerList hreads now).2

end

/-! ## An identifier that comes back -/

/-- What a host shows of a container `1` that asks for one processor. -/
def shownOfOne (count : ℕ) : CgroupReads where
  access _ := true
  read p :=
    if p = cgroupFile cgroupRoot ⟨basePath, true, .v2⟩ ['1'] (usageName .v2) then
      some (shownUsage .v2 count [])
    else some "100000 100000\n".toList

/-- A process with one container, and what has been counted. -/
def Monitored.ranOne (count : ℕ) : Monitored := ⟨.ranOne, .empty, fun _ => count⟩

/-- The same after a list of its containers was asked for. -/
def Monitored.listedOne (count count' : ℕ) : Monitored :=
  ⟨.ranOne, (getContainerList (shownOfOne count) 101 World.ranOne.cm .empty).1, fun _ => count'⟩

/-- The container is destroyed. -/
def Monitored.destroyedOne : Monitored :=
  ⟨World.ranOne.after (.willing (-1) 102, .destroy ['1']), (listedOne 5000 5000).baselines,
    fun _ => 5000⟩

/-- Another one is run, under the same identifier, whose directory is new. -/
def Monitored.ranAgain : Monitored :=
  ⟨destroyedOne.world.after (.willing 43 103, .run (.plain none ["sh".toList])),
    destroyedOne.baselines, fun d => if d = cgroupRoot then 5000 else 0⟩

theorem reads_shownOfOne {s : Monitored} {count : ℕ}
    (hids : ∀ info ∈ s.world.cm.entries, info.id = ['1'])
    (hrm : s.world.cm.rm = ⟨basePath, true, .v2⟩)
    (hdir : cgroupDir cgroupRoot ⟨basePath, true, .v2⟩ ['1'] ∈ s.world.cg.dirs)
    (hcount : s.counter (cgroupDir cgroupRoot ⟨basePath, true, .v2⟩ ['1']) = count)
    (hlt : count * 1000 < 2 ^ 64) : s.Reads cgroupRoot (shownOfOne count) := by
  intro info hmem _
  rw [hids info hmem, hrm]
  refine ⟨hdir, rfl, ⟨[], ?_⟩, ?_⟩
  · rw [hcount]
    unfold shownOfOne
    dsimp only
    rw [if_pos rfl]
  · rw [hcount]
    exact hlt

theorem ids_ranOne : ∀ info ∈ World.ranOne.cm.entries, info.id = ['1'] := by
  intro info hmem
  obtain rfl := List.mem_singleton.mp hmem
  rfl

/-- The steps up to the first list. -/
theorem step_ranOne :
    MonitorEvent.Step cgroupRoot ⟨.empty 1, .empty, fun _ => 0⟩
      (.calls (.willing 42 100) (.run (.plain none ["sh".toList]))) (.ranOne 5000) :=
  ⟨fun _ _ _ => Nat.zero_le _, World.step_after rfl, rfl⟩

theorem step_listedOne {count' : ℕ} (h : 5000 ≤ count') :
    MonitorEvent.Step cgroupRoot (.ranOne 5000) (.polls (shownOfOne 5000) 101)
      (.listedOne 5000 count') :=
  ⟨fun _ _ _ => h,
    reads_shownOfOne ids_ranOne rfl (by decide) rfl (by decide), rfl, rfl⟩

/-- A container that is listed twice. -/
theorem cpuDiff_of_spares_twice :
    ExactDiffs (getContainerList (shownOfOne 7000) 102 (Monitored.listedOne 5000 7000).world.cm
        (Monitored.listedOne 5000 7000).baselines).2.1 ∧
      (getContainerList (shownOfOne 7000) 102 (Monitored.listedOne 5000 7000).world.cm
        (Monitored.listedOne 5000 7000).baselines).2.1.map (fun l => l.figures.bind (·.diff))
        = [some ⟨5000000, 7000000, 2000000, 1⟩] := by
  have hspares : MonitorEvent.Spares cgroupRoot ⟨.empty 1, .empty, fun _ => 0⟩
      (.calls (.willing 42 100) (.run (.plain none ["sh".toList]))) := by
    intro containerId limits _ id baseline hbaseline
    cases hbaseline
  have hspares' : MonitorEvent.Spares cgroupRoot (.ranOne 5000)
      (.polls (shownOfOne 5000) 101) := trivial
  have hstep : MonitorEvent.Step cgroupRoot (.ranOne 5000) (.polls (shownOfOne 5000) 101)
      (.listedOne 5000 7000) := step_listedOne (by decide)
  exact ⟨cpuDiff_of_spares started_empty.reachable rfl
    (Run.snoc (Run.snoc Run.nil ⟨hspares, step_ranOne⟩) ⟨hspares', hstep⟩)
    (reads_shownOfOne ids_ranOne rfl (by decide) rfl (by decide)) 102, by decide⟩

/-- **Processor time goes backwards**: run, list, destroy, run again. -/
theorem cpuDiff_wraps :
    (World.empty 1).Reachable ∧
      Run (MonitorEvent.Step cgroupRoot) ⟨.empty 1, .empty, fun _ => 0⟩
        [.calls (.willing 42 100) (.run (.plain none ["sh".toList])),
          .polls (shownOfOne 5000) 101,
          .calls (.willing (-1) 102) (.destroy ['1']),
          .calls (.willing 43 103) (.run (.plain none ["sh".toList]))] .ranAgain ∧
      Monitored.ranAgain.Reads cgroupRoot (shownOfOne 0) ∧
      (getContainerList (shownOfOne 0) 104 Monitored.ranAgain.world.cm
        Monitored.ranAgain.baselines).2.1.map (fun l => l.figures.bind (·.diff))
        = [some ⟨5000000, 0, 2 ^ 64 - 5000000, 3⟩] := by
  refine ⟨started_empty.reachable, ?_, ?_, by decide⟩
  · have hdestroy : MonitorEvent.Step cgroupRoot (.listedOne 5000 5000)
        (.calls (.willing (-1) 102) (.destroy ['1'])) .destroyedOne :=
      ⟨fun _ _ _ => le_rfl, World.step_after rfl, rfl⟩
    have hagain : MonitorEvent.Step cgroupRoot .destroyedOne
        (.calls (.willing 43 103) (.run (.plain none ["sh".toList]))) .ranAgain := by
      refine ⟨fun d hd _ => ?_, World.step_after rfl, rfl⟩
      obtain rfl := List.mem_singleton.mp hd
      decide
    exact Run.snoc (Run.snoc (Run.snoc (Run.snoc Run.nil step_ranOne)
      (step_listedOne le_rfl)) hdestroy) hagain
  · refine reads_shownOfOne ?_ rfl (by decide) (by decide) (by decide)
    intro info hmem
    obtain rfl := List.mem_singleton.mp hmem
    rfl
