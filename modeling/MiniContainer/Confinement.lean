import MiniContainer.ResourceManager
import MiniContainer.Program
import MiniContainer.Run

/-!
# Who gets into a control group

`run` and `start` clone a process and then, after a millisecond, write its
pid to the control group of the container. Meanwhile the process mounts what
it needs, executes the command, and from then on does what the command does.
Nothing but the millisecond orders the two.

A process that forks hands on the control group it is in. So what the cloned
process has forked before it is moved stays outside, with all that comes of
it: `confined_iff` says that the processes of a container are in its control
group exactly if none of them was forked before the write.
-/

open CText

/-! ## The parent, call by call -/

/-- The calls of `resource_manager_add_process`. -/
inductive SysCall
  /-- `write_file(path, value)`. -/
  | write (path value : CStr)
  /-- Reading `/proc/<pid>/task`. -/
  | tasks (pid : ℤ)

/-- What they answer: whether a value could be written, and the names in the
directory, where it can be opened. -/
def SysCall.Answer : SysCall → Type
  | write _ _ => Bool
  | tasks _ => Option (List CStr)

/-- A program of the resource manager: it succeeds or fails. -/
abbrev AddProgram := Program SysCall SysCall.Answer Bool

/-- `write_file`. -/
def writeProgram (path value : CStr) : AddProgram :=
  .call (.write path value) (fun (ok : Bool) => .ret ok)

/-- The loop of `add_all_threads_to_cgroup`. -/
def addThreadsProgram (cgroupPath : CStr) : Bool → List CStr → AddProgram
  | added, [] => .ret added
  | added, name :: names =>
    -- `.` and `..`
    if name.head? = some '.' then addThreadsProgram cgroupPath added names
    else
      .call (.write cgroupPath (snprintf 32 name))
        (fun (ok : Bool) => addThreadsProgram cgroupPath (added || ok) names)

/-- `add_all_threads_to_cgroup` once it has tried to open the directory. -/
def addListedProgram (pid : ℤ) (cgroupPath : CStr) : Option (List CStr) → AddProgram
  | none => writeProgram cgroupPath (printDecimal pid)
  | some names => addThreadsProgram cgroupPath false names

/-- `add_all_threads_to_cgroup`, call by call. -/
def addAllThreadsProgram (pid : ℤ) (cgroupPath : CStr) : AddProgram :=
  .call (.tasks pid) (addListedProgram pid cgroupPath)

/-- The file of a hierarchy that pids are written to. -/
def joinPath (root : CStr) (rm : ResourceManager) (containerId : CStr) : CStr :=
  match rm.version with
  | .v2 => cgroupFile root rm containerId "cgroup.procs".toList
  | .v1 => cgroupFile root rm containerId "tasks".toList

/-- The hierarchies of the CPU on v1: where the first one does not take the
process, the other two are tried. -/
def addCpuProgram (rm : ResourceManager) (containerId : CStr) (pid : ℤ) : AddProgram :=
  (addAllThreadsProgram pid (joinPath cpuCpuacctCgroupPath rm containerId)).bind (fun added =>
    if added then .ret true
    else
      (addAllThreadsProgram pid (joinPath cpuCgroupPath rm containerId)).bind (fun cpu =>
        (addAllThreadsProgram pid (joinPath cpuacctCgroupPath rm containerId)).bind
          (fun cpuacct => .ret (cpu || cpuacct))))

/-- `resource_manager_add_process`, call by call. -/
def addProcessProgram (rm : ResourceManager) (containerId : CStr) (pid : ℤ) : AddProgram :=
  if rm.initialized ∧ pid > 0 then
    match rm.version with
    | .v2 => writeProgram (joinPath cgroupRoot rm containerId) (printDecimal pid)
    | .v1 =>
      (addCpuProgram rm containerId pid).bind (fun added =>
        if added then addAllThreadsProgram pid (joinPath memoryCgroupPath rm containerId)
        else .ret false)
  else .ret false

/-- The calls, where a kernel answers them. -/
def SysCall.handle (k : Kernel) : (op : SysCall) → CgroupFs → CgroupFs × op.Answer
  | .write path value, fs => ((writeFile k path value fs).1, (writeFile k path value fs).2 == 0)
  | .tasks pid, fs => (fs, k.tasks pid)

theorem run_addThreadsProgram (k : Kernel) (cgroupPath : CStr) (names : List CStr)
    (added : Bool) (fs : CgroupFs) :
    (addThreadsProgram cgroupPath added names).run (SysCall.handle k) fs
      = names.foldl (addThread k cgroupPath) (fs, added) := by
  induction names generalizing added fs with
  | nil => rfl
  | cons name names ih =>
    rw [addThreadsProgram, List.foldl_cons, addThread]
    split
    · exact ih added fs
    · exact ih _ _

theorem run_addAllThreadsProgram (k : Kernel) (pid : ℤ) (cgroupPath : CStr) (fs : CgroupFs) :
    (addAllThreadsProgram pid cgroupPath).run (SysCall.handle k) fs
      = ((addAllThreadsToCgroup k pid cgroupPath fs).1,
        (addAllThreadsToCgroup k pid cgroupPath fs).2 == 0) := by
  show (addListedProgram pid cgroupPath (k.tasks pid)).run (SysCall.handle k) fs = _
  unfold addAllThreadsToCgroup
  cases k.tasks pid with
  | none => rfl
  | some names =>
    refine (run_addThreadsProgram k cgroupPath names false fs).trans (Prod.ext rfl ?_)
    show _ = ((if (names.foldl (addThread k cgroupPath) (fs, false)).2 then (0 : ℤ) else -1) == 0)
    cases (names.foldl (addThread k cgroupPath) (fs, false)).2 <;> rfl

/-- The program, uninterrupted, is the function. It says by its result what
the function says by returning zero. -/
def Computes (k : Kernel) (p : AddProgram) (f : CgroupFs → CgroupFs × ℤ) : Prop :=
  ∀ fs, p.run (SysCall.handle k) fs = ((f fs).1, (f fs).2 == 0)

section

variable {k : Kernel} {p q : AddProgram} {f g : CgroupFs → CgroupFs × ℤ}

/-- The second where the first succeeds. -/
theorem computes_andThen (hp : Computes k p f) (hq : Computes k q g) :
    Computes k (p.bind (fun added => if added then q else .ret false))
      (fun fs => andThen (f fs) g) := by
  intro fs
  show _ = ((andThen (f fs) g).1, (andThen (f fs) g).2 == 0)
  rw [Program.run_bind, hp, andThen]
  dsimp only
  by_cases h : (f fs).2 = 0
  · rw [if_pos (beq_iff_eq.mpr h), if_pos h, hq]
  · rw [if_neg (mt beq_iff_eq.mp h), if_neg h]
    rfl

/-- The second where the first fails. -/
theorem computes_orElse (hp : Computes k p f) (hq : Computes k q g) :
    Computes k (p.bind (fun added => if added then .ret true else q))
      (fun fs => if (f fs).2 = 0 then f fs else g (f fs).1) := by
  intro fs
  rw [Program.run_bind, hp]
  dsimp only
  by_cases h : (f fs).2 = 0
  · rw [if_pos (beq_iff_eq.mpr h), if_pos h]
    exact Prod.ext rfl (beq_iff_eq.mpr h).symm
  · rw [if_neg (mt beq_iff_eq.mp h), if_neg h, hq]

/-- Both, of which one has to succeed. -/
theorem computes_either (hp : Computes k p f) (hq : Computes k q g) :
    Computes k (p.bind (fun a => q.bind (fun b => .ret (a || b))))
      (fun fs => ((g (f fs).1).1, if (f fs).2 = 0 ∨ (g (f fs).1).2 = 0 then 0 else -1)) := by
  intro fs
  rw [Program.run_bind, hp, Program.run_bind, hq]
  refine Prod.ext rfl ?_
  show ((f fs).2 == 0 || (g (f fs).1).2 == 0)
    = ((if (f fs).2 = 0 ∨ (g (f fs).1).2 = 0 then (0 : ℤ) else -1) == 0)
  split
  · next h => simpa using h
  · next h => simpa using h

end

/-- **`resource_manager_add_process`, uninterrupted.** -/
theorem computes_addProcessProgram (k : Kernel) (rm : ResourceManager) (containerId : CStr)
    (pid : ℤ) :
    Computes k (addProcessProgram rm containerId pid)
      (resourceManagerAddProcess k rm containerId pid) := by
  intro fs
  unfold addProcessProgram resourceManagerAddProcess
  by_cases h : rm.initialized = true ∧ pid > 0
  · rw [if_pos h, if_pos h]
    have hadd : ∀ root, Computes k (addAllThreadsProgram pid (joinPath root rm containerId))
        (addAllThreadsToCgroup k pid (joinPath root rm containerId)) :=
      fun root fs => run_addAllThreadsProgram k pid _ fs
    obtain ⟨cgroupPath, initialized, version⟩ := rm
    cases version with
    | v2 => rfl
    | v1 =>
      exact computes_andThen
        (computes_orElse (hadd cpuCpuacctCgroupPath)
          (computes_either (hadd cpuCgroupPath) (hadd cpuacctCgroupPath)))
        (hadd memoryCgroupPath) fs
  · rw [if_neg h, if_neg h]
    rfl

/-! ## The child, call by call -/

/-- What `mount` does: it mounts, or fails, with `EBUSY` or otherwise. -/
inductive MountResult
  | mounted
  | busy
  | failed
  deriving DecidableEq, Repr

/-- The calls of `container_child`. -/
inductive ChildCall
  | mount (source : Option CStr) (target : CStr) (fstype : Option CStr) (flags : ℕ)
  | execvp (command : List (Option CStr))

/-- What they answer; `execvp` answers whether the command is executed. -/
def ChildCall.Answer : ChildCall → Type
  | mount _ _ _ _ => MountResult
  | execvp _ => Bool

/-- The part of a program that runs in the child. -/
abbrev ChildProgram := Program ChildCall ChildCall.Answer

/-- `MS_REC | MS_PRIVATE`. -/
def privateFlags : ℕ := 16384 + 262144

/-- `MS_NOSUID | MS_NOEXEC | MS_NODEV`. -/
def sysfsFlags : ℕ := 2 + 8 + 4

/-- The `mount_or_ignore_ebusy` of `setup_container_filesystem`. -/
def mountOrIgnoreEbusy (source target fstype : CStr) (flags : ℕ) : ChildProgram Bool :=
  .call (.mount (some source) target (some fstype) flags)
    (fun (answer : MountResult) => .ret (answer ≠ .failed))

/-- `setup_container_filesystem`. -/
def setupContainerFilesystem : ChildProgram Bool :=
  .call (.mount none ['/'] none privateFlags) (fun (answer : MountResult) =>
    if answer ≠ .mounted then .ret false
    else
      (mountOrIgnoreEbusy "proc".toList "/proc".toList "proc".toList 0).bind (fun ok =>
        if !ok then .ret false
        else (mountOrIgnoreEbusy "sysfs".toList "/sys".toList "sysfs".toList sysfsFlags).bind
          (fun ok =>
            if !ok then .ret false
            else (mountOrIgnoreEbusy "tmpfs".toList "/tmp".toList "tmpfs".toList 0).bind
              (fun ok =>
                if !ok then .ret false
                else mountOrIgnoreEbusy "dev".toList "/dev".toList "devtmpfs".toList 0))))

/-- How `container_child` ends: the command takes over, or the child exits. -/
inductive ChildEnd
  | executed
  | exited
  deriving DecidableEq, Repr

/-- `container_child`. -/
def containerChild (command : List (Option CStr)) : ChildProgram ChildEnd :=
  setupContainerFilesystem.bind (fun ok =>
    if ok then
      .call (.execvp command) (fun (ok : Bool) => .ret (if ok then .executed else .exited))
    else .ret .exited)

/-! ## Both of them -/

/-- The parent behind `clone`: in `usleep`, in the callback, or back from
`run` or `start`. -/
inductive Parent
  | waiting
  | adding (p : AddProgram)
  | returned

/-- What the parent and the processes of a container share. -/
structure Race where
  parent : Parent
  child : ChildProgram ChildEnd
  /-- The cloned process and its descendants. -/
  processes : List ℤ
  /-- The control group of each process in each hierarchy. -/
  cgroup : ℤ → CStr → CStr

/-- What can happen next. -/
inductive Act
  /-- `usleep` is over. -/
  | wake
  /-- The parent reads a directory of threads. -/
  | list
  /-- The parent writes a pid to a file. -/
  | join (path : CStr)
  /-- The parent returns. -/
  | finish
  /-- The child makes one of its calls. -/
  | child
  /-- A process forks another one. -/
  | fork (p q : ℤ)
  deriving DecidableEq, Repr

/-- The hierarchy a directory belongs to: on v2 there is one, on v1 it is
the one mounted above the directory. -/
def hierarchyOf (version : CgroupVersion) (dir : CStr) : CStr :=
  match version with
  | .v2 => cgroupRoot
  | .v1 =>
    ((cgroupRoots .v1).find? (fun root => (root ++ ['/']).isPrefixOf (dir ++ ['/']))).getD []

/-- **Writing a pid to a file moves that process**, and no other one, to the
control group of the file, in its hierarchy. -/
def moveTo (version : CgroupVersion) (path value : CStr) (cgroup : ℤ → CStr → CStr) :
    ℤ → CStr → CStr :=
  fun p =>
    if printDecimal p = value then
      Function.update (cgroup p) (hierarchyOf version (dirOf path)) (dirOf path)
    else cgroup p

/-- What the directory of threads lists for a process that has only forked:
its one thread. -/
def ListsThread (pid : ℤ) : Option (List CStr) → Prop
  | none => True
  | some names => names.filter (fun name => name.head? ≠ some '.') = [printDecimal pid]

/-- The process has just been cloned, into the control groups of its
parent. -/
def Race.cloned (home : CStr → CStr) (pid : ℤ) (command : List (Option CStr)) : Race where
  parent := .waiting
  child := containerChild command
  processes := [pid]
  cgroup := fun _ => home

/-- **A step of the parent or of a process of the container.** Every write
succeeds. The cloned process forks once it executes the command, and what is
forked has the control groups of what forked it. -/
inductive Race.Step (rm : ResourceManager) (key : CStr) (pid : ℤ) (s : Race) : Act → Race → Prop
  | wake (h : s.parent = .waiting) :
      Step rm key pid s .wake { s with parent := .adding (addProcessProgram rm key pid) }
  | list {p : ℤ} {next : SysCall.Answer (.tasks p) → AddProgram}
      (h : s.parent = .adding (.call (.tasks p) next)) {names : Option (List CStr)}
      (hnames : ListsThread p names) :
      Step rm key pid s .list { s with parent := .adding (next names) }
  | join {path value : CStr} {next : SysCall.Answer (.write path value) → AddProgram}
      (h : s.parent = .adding (.call (.write path value) next)) :
      Step rm key pid s (.join path)
        { s with
          parent := .adding (next true)
          cgroup := moveTo rm.version path value s.cgroup }
  | finish {added : Bool} (h : s.parent = .adding (.ret added)) :
      Step rm key pid s .finish { s with parent := .returned }
  | child {op : ChildCall} {next : op.Answer → ChildProgram ChildEnd}
      (h : s.child = .call op next) (answer : op.Answer) :
      Step rm key pid s .child { s with child := next answer }
  | fork {p q : ℤ} (hp : p ∈ s.processes) (hexec : p = pid → s.child = .ret .executed)
      (hq : q ∉ s.processes) :
      Step rm key pid s (.fork p q)
        { s with
          processes := s.processes ++ [q]
          cgroup := Function.update s.cgroup q (s.cgroup p) }

/-- A process forks before the parent has written to a file. -/
def ForkBefore (path : CStr) (es : List Act) : Prop :=
  ∃ p q, Act.fork p q ∈ es.takeWhile (· ≠ .join path)

/-- The hierarchies the parent writes to while every write succeeds. -/
def joinRoots (version : CgroupVersion) : List CStr :=
  match version with
  | .v2 => [cgroupRoot]
  | .v1 => [cpuCpuacctCgroupPath, memoryCgroupPath]

/-- The files it writes to. -/
def joinPaths (rm : ResourceManager) (key : CStr) : List CStr :=
  (joinRoots rm.version).map (fun root => joinPath root rm key)

/-! ## What the parent has yet to write -/

/-- **What is left of the parent's program**: as long as every write
succeeds, it writes a pid to the files of a list, one after the other, and
then succeeds. -/
def Joins (pid : ℤ) : AddProgram → List CStr → Prop
  | .ret added, paths => added = true ∧ paths = []
  | .call (.write path value) next, paths =>
    value = printDecimal pid ∧ ∃ rest, paths = path :: rest ∧ Joins pid (next true) rest
  | .call (.tasks p) next, paths =>
    p = pid ∧ ∀ names, ListsThread pid names → Joins pid (next names) paths

theorem Joins.bind {pid : ℤ} {p : AddProgram} {f : Bool → AddProgram} {paths paths' : List CStr}
    (hp : Joins pid p paths) (hf : Joins pid (f true) paths') :
    Joins pid (p.bind f) (paths ++ paths') := by
  induction p generalizing paths with
  | ret added =>
    obtain ⟨rfl, rfl⟩ := hp
    exact hf
  | call op next ih =>
    cases op with
    | write path value =>
      obtain ⟨hvalue, rest, rfl, hnext⟩ := hp
      exact ⟨hvalue, rest ++ paths', rfl, ih true hnext⟩
    | tasks p =>
      obtain ⟨hpid, hnext⟩ := hp
      exact ⟨hpid, fun names hnames => ih names (hnext names hnames)⟩

theorem joins_writeProgram (pid : ℤ) (path : CStr) :
    Joins pid (writeProgram path (printDecimal pid)) [path] :=
  ⟨rfl, [], rfl, rfl, rfl⟩

/-- Names that all start with a dot are passed over. -/
theorem joins_addThreadsProgram_nil {pid : ℤ} {path : CStr} {names : List CStr}
    (h : names.filter (fun name => name.head? ≠ some '.') = []) :
    Joins pid (addThreadsProgram path true names) [] := by
  induction names with
  | nil => exact ⟨rfl, rfl⟩
  | cons name names ih =>
    rw [List.filter_eq_nil_iff] at h
    have hname : name.head? = some '.' := by
      have := h name List.mem_cons_self
      simpa using this
    rw [addThreadsProgram, if_pos hname]
    exact ih (List.filter_eq_nil_iff.mpr (fun n hn => h n (List.mem_cons_of_mem _ hn)))

theorem joins_addThreadsProgram {pid : ℤ} (hpid : IsInt pid) {path : CStr} {names : List CStr}
    (h : names.filter (fun name => name.head? ≠ some '.') = [printDecimal pid]) :
    Joins pid (addThreadsProgram path false names) [path] := by
  induction names with
  | nil => cases h
  | cons name names ih =>
    rw [addThreadsProgram]
    by_cases hname : name.head? = some '.'
    · rw [if_pos hname]
      rw [List.filter_cons_of_neg (by simpa using hname)] at h
      exact ih h
    · rw [if_neg hname]
      rw [List.filter_cons_of_pos (by simpa using hname)] at h
      obtain ⟨rfl, hnames⟩ := List.cons.inj h
      have hlen := length_printDecimal_le hpid.isLong
      refine ⟨snprintf_of_lt (by omega), [], rfl, ?_⟩
      exact joins_addThreadsProgram_nil hnames

theorem joins_addAllThreadsProgram {pid : ℤ} (hpid : IsInt pid) (path : CStr) :
    Joins pid (addAllThreadsProgram pid path) [path] := by
  refine ⟨rfl, fun names hnames => ?_⟩
  cases names with
  | none => exact joins_writeProgram pid path
  | some names => exact joins_addThreadsProgram hpid hnames

/-- **What the parent writes** when nothing fails: the pid, once to each of
its files. -/
theorem joins_addProcessProgram {rm : ResourceManager} (hrm : rm.initialized = true) {pid : ℤ}
    (hpos : 0 < pid) (hpid : IsInt pid) (key : CStr) :
    Joins pid (addProcessProgram rm key pid) (joinPaths rm key) := by
  rw [addProcessProgram, if_pos ⟨hrm, hpos⟩, joinPaths]
  cases rm.version with
  | v2 => exact joins_writeProgram pid _
  | v1 =>
    have hcpu : Joins pid (addCpuProgram rm key pid) [joinPath cpuCpuacctCgroupPath rm key] :=
      (joins_addAllThreadsProgram hpid _).bind ⟨rfl, rfl⟩
    exact hcpu.bind (joins_addAllThreadsProgram hpid _)

/-- What the parent has yet to write. -/
def Parent.Remains (paths : List CStr) (pid : ℤ) : Parent → List CStr → Prop
  | waiting, todo => todo = paths
  | adding p, todo => Joins pid p todo
  | returned, todo => todo = []

/-! ## Hierarchies -/

/-- A path below a directory names a file that is not above it. -/
theorem dirOf_below (dir s : CStr) : ∃ t, dirOf (dir ++ '/' :: s) ++ ['/'] = dir ++ '/' :: t := by
  by_cases h : '/' ∈ s
  · obtain ⟨b, a, hsplit, hb⟩ := List.eq_append_cons_of_mem (List.mem_reverse.mpr h)
    have hs : s = a.reverse ++ '/' :: b.reverse := by
      rw [← List.reverse_reverse s, hsplit]
      simp
    refine ⟨a.reverse ++ ['/'], ?_⟩
    have hb : '/' ∉ b.reverse := by rwa [List.mem_reverse]
    have hdir := dirOf_append hb (dir ++ '/' :: a.reverse)
    rw [hs, show dir ++ '/' :: (a.reverse ++ '/' :: b.reverse)
      = (dir ++ '/' :: a.reverse) ++ '/' :: b.reverse by simp, hdir]
    simp
  · exact ⟨[], by rw [dirOf_append h]⟩

/-- The file of a hierarchy lies below its root, even where its path is cut
off. -/
theorem joinPath_below {root : CStr} (hroot : root ∈ cgroupRoots .v1) (rm : ResourceManager)
    (key : CStr) : ∃ s, joinPath root rm key = root ++ '/' :: s := by
  have hlen : root.length < bufSize - 1 := by
    revert root
    decide
  have hfile : ∀ name, ∃ s, cgroupFile root rm key name = root ++ '/' :: s := by
    intro name
    obtain ⟨n, hn⟩ : ∃ n, bufSize - 1 = root.length + (n + 1) :=
      ⟨bufSize - 1 - root.length - 1, by omega⟩
    unfold cgroupFile cgroupName snprintf
    rw [List.append_assoc, hn, List.take_length_add_append, List.cons_append]
    exact ⟨_, rfl⟩
  unfold joinPath
  cases rm.version with
  | v1 => exact hfile _
  | v2 => exact hfile _

/-- **The control group the parent writes to** is in the hierarchy it is
meant for. -/
theorem hierarchyOf_joinPath {rm : ResourceManager} {root : CStr}
    (hroot : root ∈ joinRoots rm.version) (key : CStr) :
    hierarchyOf rm.version (dirOf (joinPath root rm key)) = root := by
  cases hversion : rm.version with
  | v2 =>
    rw [hversion] at hroot
    exact (List.mem_singleton.mp hroot).symm
  | v1 =>
    rw [hversion] at hroot
    have hmem : root ∈ cgroupRoots .v1 := by
      revert root
      decide
    obtain ⟨s, hs⟩ := joinPath_below hmem rm key
    obtain ⟨t, ht⟩ := dirOf_below root s
    rw [hs, hierarchyOf, ht]
    rcases List.mem_pair.mp hroot with rfl | rfl
    · rfl
    · rfl

theorem joinPaths_nodup (rm : ResourceManager) (key : CStr) : (joinPaths rm key).Nodup := by
  have hroots : (joinRoots rm.version).Nodup := by
    cases rm.version <;> decide
  refine hroots.map_on (fun root hroot root' hroot' heq => ?_)
  rw [← hierarchyOf_joinPath hroot key, heq, hierarchyOf_joinPath hroot' key]

/-! ## One hierarchy -/

theorem forkBefore_append {path : CStr} {es : List Act} {e : Act} :
    ForkBefore path (es ++ [e]) ↔
      ForkBefore path es ∨ (Act.join path ∉ es ∧ ∃ p q, e = .fork p q) := by
  unfold ForkBefore
  by_cases hmem : Act.join path ∈ es
  · -- what happens behind the write does not count
    have htake : (es ++ [e]).takeWhile (· ≠ .join path) = es.takeWhile (· ≠ .join path) := by
      obtain ⟨a, b, hsplit, ha⟩ := List.eq_append_cons_of_mem hmem
      have hall : ∀ x ∈ a, decide (x ≠ Act.join path) = true :=
        fun x hx => decide_eq_true (fun he => ha (he ▸ hx))
      rw [hsplit, List.append_assoc, List.takeWhile_append_of_pos hall,
        List.takeWhile_append_of_pos hall, List.cons_append,
        List.takeWhile_cons_of_neg (by simp), List.takeWhile_cons_of_neg (by simp)]
    rw [htake]
    exact (or_iff_left (fun h => h.1 hmem)).symm
  · have hall : ∀ x ∈ es, decide (x ≠ Act.join path) = true :=
      fun x hx => decide_eq_true (fun he => hmem (he ▸ hx))
    have hes : es.takeWhile (· ≠ .join path) = es := by
      rw [List.takeWhile_eq_self_iff]
      exact hall
    rw [List.takeWhile_append_of_pos hall, hes]
    constructor
    · rintro ⟨p, q, hpq⟩
      rcases List.mem_append.mp hpq with hpq | hpq
      · exact Or.inl ⟨p, q, hpq⟩
      · have hlast := (List.takeWhile_subset _ hpq)
        exact Or.inr ⟨hmem, p, q, (List.mem_singleton.mp hlast).symm⟩
    · rintro (⟨p, q, hpq⟩ | ⟨-, p, q, rfl⟩)
      · exact ⟨p, q, List.mem_append_left _ hpq⟩
      · exact ⟨p, q, List.mem_append_right _ (by simp)⟩

/-- **What happens in one hierarchy**, where the parent writes to one
file. -/
structure Hierarchy (home : CStr → CStr) (pid : ℤ) (root path : CStr) (es : List Act) (s : Race) :
    Prop where
  /-- Before the write everything is where the parent is. -/
  before : Act.join path ∉ es → ∀ p ∈ s.processes, s.cgroup p root = home root
  /-- Nothing has been forked by then, or it stays there. -/
  alone : Act.join path ∉ es → ¬ ForkBefore path es → ∀ p ∈ s.processes, p = pid
  outside : ForkBefore path es → ∃ p ∈ s.processes, p ≠ pid ∧ s.cgroup p root = home root
  /-- The write moves the cloned process, and with it all that it forks. -/
  moved : Act.join path ∈ es → s.cgroup pid root = dirOf path
  inside : Act.join path ∈ es → ¬ ForkBefore path es →
    ∀ p ∈ s.processes, s.cgroup p root = dirOf path
  /-- There is no third place. -/
  either : ∀ p ∈ s.processes, s.cgroup p root = home root ∨ s.cgroup p root = dirOf path

section

variable {home : CStr → CStr} {pid : ℤ} {root path : CStr} {es : List Act} {e : Act} {s s' : Race}

/-- A step that is neither the write nor a fork. -/
theorem Hierarchy.same (h : Hierarchy home pid root path es s) (hjoin : e ≠ .join path)
    (hfork : ∀ p q, e ≠ .fork p q) (hprocesses : s'.processes = s.processes)
    (hcgroup : ∀ p, s'.cgroup p root = s.cgroup p root) :
    Hierarchy home pid root path (es ++ [e]) s' := by
  have hmem : Act.join path ∈ es ++ [e] ↔ Act.join path ∈ es := by
    rw [List.mem_append, List.mem_singleton]
    exact or_iff_left (fun he => hjoin he.symm)
  have hbefore : ForkBefore path (es ++ [e]) ↔ ForkBefore path es := by
    rw [forkBefore_append]
    exact or_iff_left (fun h => h.2.elim fun p hp => hp.elim fun q hq => hfork p q hq)
  constructor
  all_goals
    simp only [hmem, hbefore, hprocesses, hcgroup]
  · exact h.before
  · exact h.alone
  · exact h.outside
  · exact h.moved
  · exact h.inside
  · exact h.either

/-- The write. -/
theorem Hierarchy.join (h : Hierarchy home pid root path es s) (hes : Act.join path ∉ es)
    (hprocesses : s'.processes = s.processes) (hpid : s'.cgroup pid root = dirOf path)
    (hcgroup : ∀ p, p ≠ pid → s'.cgroup p root = s.cgroup p root) :
    Hierarchy home pid root path (es ++ [.join path]) s' := by
  have hmem : Act.join path ∈ es ++ [Act.join path] := List.mem_append_right _ (by simp)
  have hbefore : ForkBefore path (es ++ [.join path]) ↔ ForkBefore path es := by
    rw [forkBefore_append]
    exact or_iff_left (fun h => h.2.elim fun p hp => hp.elim fun q hq => nomatch hq)
  refine ⟨fun hn => absurd hmem hn, fun hn => absurd hmem hn, ?_, fun _ => hpid, ?_, ?_⟩
  · intro hfork
    obtain ⟨p, hp, hne, hhome⟩ := h.outside (hbefore.mp hfork)
    exact ⟨p, hprocesses ▸ hp, hne, (hcgroup p hne).trans hhome⟩
  · intro _ hfork p hp
    rw [h.alone hes (fun hf => hfork (hbefore.mpr hf)) p (hprocesses ▸ hp), hpid]
  · intro p hp
    by_cases hne : p = pid
    · rw [hne]
      exact Or.inr hpid
    · rw [hcgroup p hne]
      exact h.either p (hprocesses ▸ hp)

/-- A fork: the new process is where the one is that forked it. -/
theorem Hierarchy.fork (h : Hierarchy home pid root path es s) {p q : ℤ} (hp : p ∈ s.processes)
    (hpid : pid ∈ s.processes) (hq : q ∉ s.processes)
    (hprocesses : s'.processes = s.processes ++ [q])
    (hcgroup : s'.cgroup = Function.update s.cgroup q (s.cgroup p)) :
    Hierarchy home pid root path (es ++ [.fork p q]) s' := by
  have hmem : Act.join path ∈ es ++ [.fork p q] ↔ Act.join path ∈ es := by
    rw [List.mem_append, List.mem_singleton]
    exact or_iff_left (fun he => nomatch he)
  have hbefore : ForkBefore path (es ++ [.fork p q]) ↔ ForkBefore path es ∨ Act.join path ∉ es := by
    rw [forkBefore_append]
    exact or_congr_right (and_iff_left ⟨p, q, rfl⟩)
  have hold : ∀ x ∈ s.processes, s'.cgroup x root = s.cgroup x root := by
    intro x hx
    have hne : x ≠ q := fun he => hq (he ▸ hx)
    rw [hcgroup, Function.update_of_ne hne]
  have hnew : s'.cgroup q root = s.cgroup p root := by
    rw [hcgroup, Function.update_self]
  -- a control group that has a new process in it had an old one
  have hall : ∀ {P : CStr → Prop}, (∀ x ∈ s.processes, P (s.cgroup x root)) →
      ∀ x ∈ s'.processes, P (s'.cgroup x root) := by
    intro P hP x hx
    rw [hprocesses, List.mem_append, List.mem_singleton] at hx
    rcases hx with hx | rfl
    · rw [hold x hx]
      exact hP x hx
    · rw [hnew]
      exact hP p hp
  refine ⟨fun hn => hall (P := fun c => c = home root) (h.before (mt hmem.mpr hn)), ?_, ?_, ?_,
    ?_, hall (P := fun c => c = home root ∨ c = dirOf path) h.either⟩
  · exact fun hn hfork => absurd (hbefore.mpr (Or.inr (mt hmem.mpr hn))) hfork
  · intro hfork
    by_cases hjoin : Act.join path ∈ es
    · obtain ⟨x, hx, hne, hhome⟩ :=
        h.outside ((or_iff_left (not_not.mpr hjoin)).mp (hbefore.mp hfork))
      exact ⟨x, hprocesses ▸ List.mem_append_left _ hx, hne, (hold x hx).trans hhome⟩
    · -- the fork is the first one, and it is the new process that stays outside
      refine ⟨q, hprocesses ▸ List.mem_append_right _ (by simp), fun he => hq (by rwa [he]), ?_⟩
      rw [hnew]
      exact h.before hjoin p hp
  · intro hjoin
    rw [hold pid hpid]
    exact h.moved (hmem.mp hjoin)
  · intro hjoin hfork
    exact hall (P := fun c => c = dirOf path)
      (h.inside (hmem.mp hjoin) (fun hf => hfork (hbefore.mpr (Or.inl hf))))

end

/-! ## All of them -/

/-- **What holds at any time**: the parent has written to the files it does
not have to write to any more, and in each hierarchy things are as the
writes and the forks so far have left them. -/
structure Race.Inv (rm : ResourceManager) (key : CStr) (home : CStr → CStr) (pid : ℤ)
    (es : List Act) (s : Race) : Prop where
  child_mem : pid ∈ s.processes
  todo : ∃ todo, s.parent.Remains (joinPaths rm key) pid todo ∧ todo <:+ joinPaths rm key ∧
    ∀ path ∈ joinPaths rm key, path ∈ todo ↔ Act.join path ∉ es
  hierarchy : ∀ root ∈ joinRoots rm.version,
    Hierarchy home pid root (joinPath root rm key) es s

section

variable {rm : ResourceManager} {key : CStr} {home : CStr → CStr} {pid : ℤ} {es : List Act}
  {e : Act} {s s' : Race}

theorem Race.inv_cloned (command : List (Option CStr)) :
    Race.Inv rm key home pid [] (Race.cloned home pid command) where
  child_mem := List.mem_singleton_self pid
  todo := ⟨joinPaths rm key, rfl, List.suffix_refl _,
    fun _ hpath => iff_of_true hpath List.not_mem_nil⟩
  hierarchy _ _ :=
    { before := fun _ _ _ => rfl
      alone := fun _ _ _ hp => List.mem_singleton.mp hp
      outside := fun ⟨_, _, hfork⟩ => absurd hfork List.not_mem_nil
      moved := fun h => absurd h List.not_mem_nil
      inside := fun h => absurd h List.not_mem_nil
      either := fun _ _ => Or.inl rfl }

/-- A step of the parent or the child that moves nothing. -/
theorem Race.Inv.same (h : Race.Inv rm key home pid es s) (hjoin : ∀ path, e ≠ .join path)
    (hfork : ∀ p q, e ≠ .fork p q) (hprocesses : s'.processes = s.processes)
    (hcgroup : s'.cgroup = s.cgroup)
    (hparent : ∀ todo, s.parent.Remains (joinPaths rm key) pid todo →
      s'.parent.Remains (joinPaths rm key) pid todo) :
    Race.Inv rm key home pid (es ++ [e]) s' where
  child_mem := hprocesses ▸ h.child_mem
  todo := by
    obtain ⟨todo, hremains, hsuffix, hmem⟩ := h.todo
    refine ⟨todo, hparent todo hremains, hsuffix, fun path hpath => (hmem path hpath).trans ?_⟩
    rw [List.mem_append, List.mem_singleton]
    exact not_congr (or_iff_left (fun he => hjoin path he.symm)).symm
  hierarchy root hroot :=
    (h.hierarchy root hroot).same (hjoin _) hfork hprocesses (fun p => by rw [hcgroup])

/-- The parent writes the pid to the next file. -/
theorem Race.Inv.join (h : Race.Inv rm key home pid es s) {path : CStr} {rest : List CStr}
    {next : AddProgram} (hsuffix : path :: rest <:+ joinPaths rm key)
    (hmem : ∀ path' ∈ joinPaths rm key, path' ∈ path :: rest ↔ Act.join path' ∉ es)
    (hnext : Joins pid next rest) :
    Race.Inv rm key home pid (es ++ [.join path])
      { s with
        parent := .adding next
        cgroup := moveTo rm.version path (printDecimal pid) s.cgroup } := by
  have hpath : path ∈ joinPaths rm key := hsuffix.subset List.mem_cons_self
  have hnodup : path ∉ rest :=
    (List.nodup_cons.mp ((joinPaths_nodup rm key).sublist hsuffix.sublist)).1
  refine ⟨h.child_mem, ⟨rest, hnext, (List.suffix_cons _ _).trans hsuffix, ?_⟩, ?_⟩
  · intro path' hpath'
    rw [List.mem_append, List.mem_singleton, not_or, ← hmem path' hpath', List.mem_cons]
    constructor
    · exact fun hrest => ⟨Or.inr hrest, fun he => hnodup (Act.join.inj he ▸ hrest)⟩
    · rintro ⟨rfl | hrest, hne⟩
      · exact absurd rfl hne
      · exact hrest
  · intro root hroot
    obtain ⟨root', hroot', rfl⟩ := List.mem_map.mp hpath
    have hother : ∀ p, p ≠ pid →
        moveTo rm.version (joinPath root' rm key) (printDecimal pid) s.cgroup p = s.cgroup p :=
      fun p hp => if_neg (fun he => hp (printDecimal_injective he))
    have hchild : moveTo rm.version (joinPath root' rm key) (printDecimal pid) s.cgroup pid
        = Function.update (s.cgroup pid) root' (dirOf (joinPath root' rm key)) := by
      rw [moveTo, if_pos rfl, hierarchyOf_joinPath hroot']
    by_cases heq : root = root'
    · subst heq
      refine (h.hierarchy root hroot).join
        ((hmem _ hpath).mp List.mem_cons_self) rfl ?_ (fun p hp => congrFun (hother p hp) root)
      exact (congrFun hchild root).trans (Function.update_self _ _ _)
    · -- the write is in another hierarchy and moves nothing in this one
      refine (h.hierarchy root hroot).same ?_ (fun p q he => nomatch he) rfl (fun p => ?_)
      · intro he
        have hdir := congrArg (fun path => hierarchyOf rm.version (dirOf path)) (Act.join.inj he)
        rw [hierarchyOf_joinPath hroot', hierarchyOf_joinPath hroot] at hdir
        exact heq hdir.symm
      · by_cases hp : p = pid
        · subst hp
          exact (congrFun hchild root).trans (Function.update_of_ne heq _ _)
        · exact congrFun (hother p hp) root

/-- **Every step keeps what holds at any time.** -/
theorem Race.inv_step (hrm : rm.initialized = true) (hpos : 0 < pid) (hpid : IsInt pid)
    (h : Race.Inv rm key home pid es s) (hstep : Race.Step rm key pid s e s') :
    Race.Inv rm key home pid (es ++ [e]) s' := by
  cases hstep with
  | wake hparent =>
    refine h.same (fun _ he => nomatch he) (fun _ _ he => nomatch he) rfl rfl ?_
    intro todo hremains
    rw [hparent] at hremains
    subst hremains
    exact joins_addProcessProgram hrm hpos hpid key
  | list hparent hnames =>
    refine h.same (fun _ he => nomatch he) (fun _ _ he => nomatch he) rfl rfl ?_
    intro todo hremains
    rw [hparent] at hremains
    obtain ⟨rfl, hnext⟩ := hremains
    exact hnext _ hnames
  | join hparent =>
    obtain ⟨todo, hremains, hsuffix, hmem⟩ := h.todo
    rw [hparent] at hremains
    obtain ⟨rfl, rest, rfl, hnext⟩ := hremains
    exact h.join hsuffix hmem hnext
  | finish hparent =>
    refine h.same (fun _ he => nomatch he) (fun _ _ he => nomatch he) rfl rfl ?_
    intro todo hremains
    rw [hparent] at hremains
    exact hremains.2
  | child hchild answer =>
    exact h.same (fun _ he => nomatch he) (fun _ _ he => nomatch he) rfl rfl (fun _ ht => ht)
  | @fork p q hp hexec hq =>
    refine ⟨List.mem_append_left _ h.child_mem, ?_, ?_⟩
    · obtain ⟨todo, hremains, hsuffix, hmem⟩ := h.todo
      refine ⟨todo, hremains, hsuffix, fun path hpath => (hmem path hpath).trans ?_⟩
      rw [List.mem_append, List.mem_singleton]
      exact not_congr (or_iff_left (fun he => nomatch he)).symm
    · exact fun root hroot => (h.hierarchy root hroot).fork hp h.child_mem hq rfl rfl

/-- **The processes of a container are in its control group exactly if none
of them was forked too early.** In every run from `clone` on, whatever the
order of its steps, once the parent has returned: all processes that descend
from the cloned one are, in every hierarchy, in the directory of the
container if and only if the parent has written to a file of that directory,
and either that directory is where the parent itself is, or no process was
forked before the write. -/
theorem confined_iff (hrm : rm.initialized = true) (hpos : 0 < pid) (hpid : IsInt pid)
    {command : List (Option CStr)}
    (hrun : Run (Race.Step rm key pid) (Race.cloned home pid command) es s)
    (hreturned : s.parent = .returned) (containerId : CStr) :
    (∀ p ∈ s.processes, ∀ root ∈ joinRoots rm.version,
        s.cgroup p root = cgroupDir root rm containerId) ↔
      ∀ root ∈ joinRoots rm.version,
        dirOf (joinPath root rm key) = cgroupDir root rm containerId ∧
          (home root = cgroupDir root rm containerId ∨
            ¬ ForkBefore (joinPath root rm key) es) := by
  have hinv : Race.Inv rm key home pid es s :=
    hrun.invariant_labels (I := Race.Inv rm key home pid)
      (fun _ _ _ _ h hstep => Race.inv_step hrm hpos hpid h hstep) (Race.inv_cloned command)
  -- a parent that has returned has nothing left to write
  have hwritten : ∀ root ∈ joinRoots rm.version, Act.join (joinPath root rm key) ∈ es := by
    intro root hroot
    obtain ⟨todo, hremains, -, hmem⟩ := hinv.todo
    rw [hreturned] at hremains
    cases hremains
    exact not_not.mp (mt (hmem _ (List.mem_map.mpr ⟨root, hroot, rfl⟩)).mpr List.not_mem_nil)
  constructor
  · intro hall root hroot
    have h := hinv.hierarchy root hroot
    refine ⟨(h.moved (hwritten root hroot)).symm.trans (hall pid hinv.child_mem root hroot), ?_⟩
    by_cases hfork : ForkBefore (joinPath root rm key) es
    · obtain ⟨p, hp, -, hhome⟩ := h.outside hfork
      exact Or.inl (hhome.symm.trans (hall p hp root hroot))
    · exact Or.inr hfork
  · intro hall p hp root hroot
    have h := hinv.hierarchy root hroot
    obtain ⟨hdir, hhome | hfork⟩ := hall root hroot
    · exact (h.either p hp).elim (fun he => he.trans hhome) (fun he => he.trans hdir)
    · exact (h.inside (hwritten root hroot) hfork p hp).trans hdir

end

/-- A manager on a host with the unified hierarchy. -/
def unifiedManager : ResourceManager := ⟨"mini_container".toList, true, .v2⟩

/-- A child whose calls all succeed executes its command. -/
theorem Race.run_child {rm : ResourceManager} {key : CStr} {pid : ℤ} {s : Race}
    {command : List (Option CStr)} (h : s.child = containerChild command) :
    Run (Race.Step rm key pid) s (List.replicate 6 .child) { s with child := .ret .executed } := by
  have hmounted : ∀ {s : Race} {source target fstype flags}
      {next : MountResult → ChildProgram ChildEnd},
      s.child = .call (.mount source target fstype flags) next →
      Race.Step rm key pid s .child { s with child := next .mounted } :=
    fun h => .child h MountResult.mounted
  have hexecuted : ∀ {s : Race} {next : Bool → ChildProgram ChildEnd},
      s.child = .call (.execvp command) next →
      Race.Step rm key pid s .child { s with child := next true } :=
    fun h => .child h true
  exact .cons (hmounted h) <| .cons (hmounted rfl) <| .cons (hmounted rfl) <|
    .cons (hmounted rfl) <| .cons (hmounted rfl) <| .cons (hexecuted rfl) .nil

/-- **What is forked in that millisecond escapes**: the child executes its
command and forks before it is moved. -/
theorem forked_process_escapes :
    ∃ es s, Run (Race.Step unifiedManager ['1'] 7)
        (Race.cloned (fun _ => []) 7 [some "sh".toList]) es s ∧
      s.parent = .returned ∧ s.processes = [7, 8] ∧
      s.cgroup 7 cgroupRoot = cgroupDir cgroupRoot unifiedManager ['1'] ∧
      s.cgroup 8 cgroupRoot ≠ cgroupDir cgroupRoot unifiedManager ['1'] := by
  refine ⟨_, _, (Race.run_child rfl).append <|
    .cons (.fork (p := 7) (q := 8) (by decide) (fun _ => rfl) (by decide)) <|
    .cons (.wake rfl) <| .cons (.join rfl) <| .cons (.finish rfl) .nil, rfl, rfl, ?_, ?_⟩
  · decide
  · decide

/-- What is forked after it does not. -/
theorem forked_process_confined :
    ∃ es s, Run (Race.Step unifiedManager ['1'] 7)
        (Race.cloned (fun _ => []) 7 [some "sh".toList]) es s ∧
      s.processes = [7, 8] ∧
      ∀ p ∈ s.processes, ∀ root ∈ joinRoots unifiedManager.version,
        s.cgroup p root = cgroupDir root unifiedManager ['1'] := by
  have hrun : Run (Race.Step unifiedManager ['1'] 7)
      (Race.cloned (fun _ => []) 7 [some "sh".toList]) _ _ :=
    .cons (.wake rfl) <| .cons (.join rfl) <| .cons (.finish rfl) <|
    (Race.run_child rfl).append <|
    .cons (.fork (p := 7) (q := 8) (by decide) (fun _ => rfl) (by decide)) .nil
  have hconfined := (confined_iff rfl (by decide) (by decide) hrun rfl ['1']).mpr (by
    intro root hroot
    cases List.mem_singleton.mp hroot
    refine ⟨by decide, Or.inr ?_⟩
    rintro ⟨p, q, hfork⟩
    have hforks : Act.fork p q ∈ [Act.wake] := hfork
    exact nomatch List.mem_singleton.mp hforks)
  exact ⟨_, _, hrun, rfl, hconfined⟩
