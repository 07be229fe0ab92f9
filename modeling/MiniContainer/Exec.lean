import MiniContainer.Confinement
import MiniContainer.Session

/-!
# A command in a container that is running

`container_manager_exec` forks a child that joins two namespaces of the first
process of a container and then executes a command. A process that joins a
namespace of pids stays in the one it is in; what it joins is where the
processes go that it forks. And nothing writes the child to a control group.

So the processes of one command are not all where the container is:
`exec_processes` says where each of them is, at every moment of every run. The
command itself sees the files of the container and keeps the pid it has outside,
all that it forks is inside, and none of them is held by the limits of the
container.
-/

open CText

/-! ## The child, call by call -/

/-- `CLONE_NEWPID`. -/
def cloneNewpid : ℤ := 0x20000000

/-- `CLONE_NEWNS`. -/
def cloneNewns : ℤ := 0x00020000

/-- The calls of the child. -/
inductive JoinCall
  | openFile (path : CStr)
  | setns (fd : ℕ) (nsType : ℤ)
  | close (fd : ℕ)
  | execvp (command : List (Option CStr))

/-- What they answer: a descriptor, whether the namespace is joined, nothing, and
whether the command is executed. -/
def JoinCall.Answer : JoinCall → Type
  | openFile _ => Option ℕ
  | setns _ _ => Bool
  | close _ => Unit
  | execvp _ => Bool

/-- A part of the program that runs in the child. -/
abbrev JoinProgram := Program JoinCall JoinCall.Answer

/-- The file that stands for a namespace of a process. -/
def nsPath (targetPid nsType : ℤ) : CStr :=
  snprintf 256 ("/proc/".toList ++ printDecimal targetPid ++ "/ns/".toList ++
    (if nsType = cloneNewpid then "pid".toList
    else if nsType = cloneNewns then "mnt".toList
    else "unknown".toList))

/-- `namespace_join`. -/
def namespaceJoin (targetPid nsType : ℤ) : JoinProgram Bool :=
  .call (.openFile (nsPath targetPid nsType)) (fun (fd : Option ℕ) =>
    match fd with
    | none => .ret false
    | some fd =>
      .call (.setns fd nsType) (fun (joined : Bool) =>
        .call (.close fd) (fun _ => .ret joined)))

/-- The child of `container_manager_exec`. -/
def execChild (targetPid : ℤ) (command : List (Option CStr)) : JoinProgram ChildEnd :=
  (namespaceJoin targetPid cloneNewpid).bind (fun ok =>
    if !ok then .ret .exited
    else
      (namespaceJoin targetPid cloneNewns).bind (fun ok =>
        if !ok then .ret .exited
        else
          .call (.execvp command) (fun (ok : Bool) => .ret (if ok then .executed else .exited))))

/-- What the host answers while `container_manager_exec` runs: what `fork` returns, and
the status `waitpid` gives, where it gives one. -/
structure ExecEnv where
  fork : ℤ
  waitpid : Option ℕ

/-- The process whose namespaces are joined: a container is found by its identifier
only, and has to run. -/
def ContainerManager.execTarget (cm : ContainerManager) (containerId : CStr) : Option ℤ :=
  match (cm.findContainer containerId).bind cm.infoAt with
  | none => none
  | some info => if info.state = .running then some info.pid else none

/-- Where a process is: its namespaces, that of the processes it will fork, and
its control group in each hierarchy. -/
@[ext] structure Whereabouts where
  pidNs : ℕ
  pidNsForChildren : ℕ
  mntNs : ℕ
  cgroup : CStr → CStr

/-- Where a process is that it forks. -/
def Whereabouts.forked (p : Whereabouts) : Whereabouts := { p with pidNs := p.pidNsForChildren }

/-- What a descriptor of a namespace stands for. -/
inductive NsFile
  | pid (ns : ℕ)
  | mnt (ns : ℕ)
  deriving DecidableEq, Repr

/-- The files of the namespaces of a process. -/
def nsFile (targetPid : ℤ) (target : Whereabouts) (path : CStr) : Option NsFile :=
  if path = nsPath targetPid cloneNewpid then some (.pid target.pidNs)
  else if path = nsPath targetPid cloneNewns then some (.mnt target.mntNs)
  else none

/-- What the calls change: where the child is, and what it has open. -/
structure Joining where
  place : Whereabouts
  fds : ℕ → Option NsFile

/-- **The answers of the kernel**, while the process whose namespaces are joined
is where it is. A call that opens, joins or executes may fail. -/
inductive JoinCall.Answers (targetPid : ℤ) (target : Whereabouts) :
    (op : JoinCall) → Joining → op.Answer → Joining → Prop
  | notOpened {path : CStr} {s : Joining} :
      Answers targetPid target (.openFile path) s (none : Option ℕ) s
  | opened {path : CStr} {s : Joining} {fd : ℕ} {file : NsFile}
      (hfile : nsFile targetPid target path = some file) (hfd : s.fds fd = none) :
      Answers targetPid target (.openFile path) s (some fd)
        { s with fds := Function.update s.fds fd (some file) }
  | notJoined {fd : ℕ} {nsType : ℤ} {s : Joining} :
      Answers targetPid target (.setns fd nsType) s false s
  /-- A namespace of pids is joined for the processes to come. -/
  | joinedPid {fd ns : ℕ} {s : Joining} (hfd : s.fds fd = some (.pid ns)) :
      Answers targetPid target (.setns fd cloneNewpid) s true
        { s with place := { s.place with pidNsForChildren := ns } }
  | joinedMnt {fd ns : ℕ} {s : Joining} (hfd : s.fds fd = some (.mnt ns)) :
      Answers targetPid target (.setns fd cloneNewns) s true
        { s with place := { s.place with mntNs := ns } }
  | closed {fd : ℕ} {s : Joining} :
      Answers targetPid target (.close fd) s () { s with fds := Function.update s.fds fd none }
  | notExecuted {command : List (Option CStr)} {s : Joining} :
      Answers targetPid target (.execvp command) s false s
  | executed {command : List (Option CStr)} {s : Joining} :
      Answers targetPid target (.execvp command) s true s

/-! ## Joining -/

section

variable {targetPid : ℤ} {target : Whereabouts} {s : Joining}

theorem cloneNewns_ne : cloneNewns ≠ cloneNewpid := by decide

/-- The two files have two names. -/
theorem nsPath_ne (h : IsInt targetPid) :
    nsPath targetPid cloneNewns ≠ nsPath targetPid cloneNewpid := by
  have hlen := length_printDecimal_le h.isLong
  have hroom : ∀ kind : CStr, kind.length ≤ 7 →
      snprintf 256 ("/proc/".toList ++ printDecimal targetPid ++ "/ns/".toList ++ kind)
        = "/proc/".toList ++ printDecimal targetPid ++ "/ns/".toList ++ kind := by
    intro kind hkind
    refine snprintf_of_lt ?_
    simp only [List.length_append, String.reduceToList, List.length_cons, List.length_nil]
    omega
  rw [nsPath, nsPath, if_neg cloneNewns_ne, if_pos rfl, if_pos rfl, hroom _ (by decide),
    hroom _ (by decide)]
  exact fun heq => absurd (List.append_cancel_left heq) (by decide)

/-- A descriptor that was opened and closed is free again. -/
theorem update_closed {fds : ℕ → Option NsFile} {fd : ℕ} (hfd : fds fd = none)
    (file : NsFile) :
    Function.update (Function.update fds fd (some file)) fd none = fds := by
  rw [Function.update_idem, ← hfd, Function.update_eq_self]

/-- **Joining a namespace of pids** leaves the process where it is; what it
forks from then on is there. -/
theorem ensures_namespaceJoin_pid :
    (namespaceJoin targetPid cloneNewpid).Ensures (JoinCall.Answers targetPid target)
      (fun joined s' => s'.fds = s.fds ∧
        (joined = true → s'.place = { s.place with pidNsForChildren := target.pidNs })) s := by
  intro answer s₁ hopen
  cases hopen with
  | notOpened => exact ⟨rfl, nofun⟩
  | opened hfile hfd =>
    rw [nsFile, if_pos rfl] at hfile
    cases hfile
    intro joined s₂ hset
    cases hset with
    | notJoined =>
      intro _ s₃ hclose
      cases hclose
      exact ⟨update_closed hfd _, nofun⟩
    | joinedPid hopened =>
      intro _ s₃ hclose
      cases hclose
      refine ⟨update_closed hfd _, fun _ => ?_⟩
      dsimp only at hopened
      rw [Function.update_self] at hopened
      cases hopened
      rfl

/-- **Joining a namespace of files** moves the process. -/
theorem ensures_namespaceJoin_mnt (hpid : IsInt targetPid) :
    (namespaceJoin targetPid cloneNewns).Ensures (JoinCall.Answers targetPid target)
      (fun joined s' => s'.fds = s.fds ∧
        (joined = true → s'.place = { s.place with mntNs := target.mntNs })) s := by
  intro answer s₁ hopen
  cases hopen with
  | notOpened => exact ⟨rfl, nofun⟩
  | opened hfile hfd =>
    rw [nsFile, if_neg (nsPath_ne hpid), if_pos rfl] at hfile
    cases hfile
    intro joined s₂ hset
    cases hset with
    | notJoined =>
      intro _ s₃ hclose
      cases hclose
      exact ⟨update_closed hfd _, nofun⟩
    | joinedMnt hopened =>
      intro _ s₃ hclose
      cases hclose
      refine ⟨update_closed hfd _, fun _ => ?_⟩
      dsimp only at hopened
      rw [Function.update_self] at hopened
      cases hopened
      rfl

/-- Where the command is, seen from the process that called `exec`. -/
def Whereabouts.joined (manager target : Whereabouts) : Whereabouts :=
  { manager with pidNsForChildren := target.pidNs, mntNs := target.mntNs }

/-- **The child executes the command where it has joined both namespaces**, and
nowhere else. However it ends, it has closed what it opened. -/
theorem ensures_execChild (hpid : IsInt targetPid) (command : List (Option CStr)) :
    (execChild targetPid command).Ensures (JoinCall.Answers targetPid target)
      (fun ended s' => s'.fds = s.fds ∧
        (ended = .executed → s'.place = s.place.joined target)) s := by
  refine Program.ensures_bind.mpr (ensures_namespaceJoin_pid.mono ?_)
  rintro (_ | _) s₁ ⟨hfds₁, hplace₁⟩
  · exact ⟨hfds₁, nofun⟩
  refine Program.ensures_bind.mpr ((ensures_namespaceJoin_mnt hpid).mono ?_)
  rintro (_ | _) s₂ ⟨hfds₂, hplace₂⟩
  · exact ⟨hfds₂.trans hfds₁, nofun⟩
  intro answer s₃ hexec
  cases hexec with
  | notExecuted => exact ⟨hfds₂.trans hfds₁, nofun⟩
  | executed =>
    refine ⟨hfds₂.trans hfds₁, fun _ => ?_⟩
    rw [hplace₂ rfl, hplace₁ rfl]
    rfl

end

/-! ## All processes of one command -/

/-- The child, and what the command has forked. -/
structure ExecSession where
  program : JoinProgram ChildEnd
  child : Joining
  forked : List Whereabouts

/-- The child has just been forked by a process that has some files open. -/
def ExecSession.started (manager : Whereabouts) (fds : ℕ → Option NsFile) (targetPid : ℤ)
    (command : List (Option CStr)) : ExecSession where
  program := execChild targetPid command
  child := ⟨manager.forked, fds⟩
  forked := []

/-- What can happen next: the child makes a call, or a process forks. -/
inductive ExecAct
  | child
  | fork
  deriving DecidableEq, Repr

/-- **A step of one of the processes.** The command forks once it is executed,
and so does what it has forked. -/
inductive ExecSession.Step (targetPid : ℤ) (target : Whereabouts) (s : ExecSession) :
    ExecAct → ExecSession → Prop
  | child {op : JoinCall} {next : op.Answer → JoinProgram ChildEnd}
      (h : s.program = .call op next) {answer : op.Answer} {child : Joining}
      (hanswer : JoinCall.Answers targetPid target op s.child answer child) :
      Step targetPid target s .child { s with program := next answer, child := child }
  | forks (h : s.program = .ret .executed) :
      Step targetPid target s .fork { s with forked := s.forked ++ [s.child.place.forked] }
  | forksAgain {p : Whereabouts} (hp : p ∈ s.forked) :
      Step targetPid target s .fork { s with forked := s.forked ++ [p.forked] }

section

variable {targetPid : ℤ} {manager target : Whereabouts} {fds : ℕ → Option NsFile}
  {s s' : ExecSession} {act : ExecAct}

/-- **What is so at every moment**: however the child goes on, it ends where it
should, and what has been forked is where the children of the command are. -/
structure ExecSession.Held (targetPid : ℤ) (manager target : Whereabouts)
    (fds : ℕ → Option NsFile) (s : ExecSession) : Prop where
  child : s.program.Ensures (JoinCall.Answers targetPid target)
    (fun ended child => child.fds = fds ∧
      (ended = .executed → child.place = manager.forked.joined target)) s.child
  executed : s.forked ≠ [] → s.program = .ret .executed
  forked : ∀ p ∈ s.forked, p = (manager.joined target).forked

theorem ExecSession.held_started (hpid : IsInt targetPid) (command : List (Option CStr)) :
    (ExecSession.started manager fds targetPid command).Held targetPid manager target fds where
  child := ensures_execChild hpid command
  executed h := absurd rfl h
  forked _ hp := absurd hp List.not_mem_nil

theorem ExecSession.Held.step (h : s.Held targetPid manager target fds)
    (hstep : ExecSession.Step targetPid target s act s') :
    s'.Held targetPid manager target fds := by
  cases hstep with
  | @child op next hprogram answer child hanswer =>
    have hnone : s.forked = [] := by
      by_contra hne
      rw [h.executed hne] at hprogram
      cases hprogram
    have hchild := h.child
    rw [hprogram] at hchild
    exact ⟨hchild answer child hanswer, fun hne => absurd hnone hne,
      fun p hp => absurd (hnone ▸ hp) List.not_mem_nil⟩
  | forks hprogram =>
    have hchild := h.child
    rw [hprogram] at hchild
    refine ⟨h.child, fun _ => hprogram, fun p hp => ?_⟩
    rcases List.mem_append.mp hp with hp | hp
    · exact h.forked p hp
    · rw [List.mem_singleton.mp hp, hchild.2 rfl]
      rfl
  | @forksAgain p hmem =>
    refine ⟨h.child, fun _ => h.executed (List.ne_nil_of_mem hmem), fun q hq => ?_⟩
    rcases List.mem_append.mp hq with hq | hq
    · exact h.forked q hq
    · rw [List.mem_singleton.mp hq, h.forked p hmem]
      rfl

end

/-- What can have happened in a session of `exec` with a container. -/
def ContainerManager.ExecRun (cm : ContainerManager) (containerId : CStr)
    (command : List (Option CStr)) (manager target : Whereabouts) (fds : ℕ → Option NsFile)
    (acts : List ExecAct) (s : ExecSession) : Prop :=
  ∃ targetPid, cm.execTarget containerId = some targetPid ∧
    Run (ExecSession.Step targetPid target) (.started manager fds targetPid command) acts s

/-- A process that can be joined is that of an entry. -/
theorem ContainerManager.mem_of_execTarget {cm : ContainerManager} (hcm : cm.WF)
    {containerId : CStr} {targetPid : ℤ} (h : cm.execTarget containerId = some targetPid) :
    ∃ info ∈ cm.entries, info.id = containerId ∧ info.state = .running ∧
      info.pid = targetPid := by
  unfold execTarget at h
  cases hfind : cm.findContainer containerId with
  | none =>
    rw [hfind] at h
    cases h
  | some i =>
    obtain ⟨hi, hid⟩ := findContainer_spec hcm hfind
    rw [hfind, Option.bind_some, infoAt_eq hcm hi] at h
    dsimp only at h
    split at h
    · next hrunning =>
      cases h
      exact ⟨_, List.getElem_mem hi, hid, hrunning, rfl⟩
    · cases h

/-- **Where the processes of an `exec` are.** At every moment, whatever the calls
answer and whatever is forked: a command that is executed sees the files of the
container, in the namespace of pids the manager forks into; what it has forked is in
both namespaces of the container; all of it is in the control groups of the manager;
nothing is forked unless the command is executed; and a child that is through has
closed every descriptor it opened. -/
theorem exec_processes {cm : ContainerManager} (hcm : cm.WF)
    (hpids : ∀ info ∈ cm.entries, IsInt info.pid) {containerId : CStr}
    {command : List (Option CStr)} {manager target : Whereabouts} {fds : ℕ → Option NsFile}
    {acts : List ExecAct} {s : ExecSession}
    (hrun : cm.ExecRun containerId command manager target fds acts s) :
    (s.program = .ret .executed →
      s.child.place.pidNs = manager.pidNsForChildren ∧ s.child.place.mntNs = target.mntNs ∧
        s.child.place.cgroup = manager.cgroup) ∧
      (∀ p ∈ s.forked, p.pidNs = target.pidNs ∧ p.mntNs = target.mntNs ∧
        p.cgroup = manager.cgroup) ∧
      (s.forked ≠ [] → s.program = .ret .executed) ∧
      (∀ ended, s.program = .ret ended → s.child.fds = fds) := by
  obtain ⟨targetPid, htarget, hrun⟩ := hrun
  obtain ⟨info, hmem, -, -, hpid⟩ := ContainerManager.mem_of_execTarget hcm htarget
  have hint : IsInt targetPid := hpid ▸ hpids info hmem
  have hheld := Run.invariant (I := ExecSession.Held targetPid manager target fds)
    (fun _ _ _ h hstep => h.step hstep) (ExecSession.held_started hint command) hrun
  have hchild := hheld.child
  refine ⟨fun hexecuted => ?_, fun p hp => ?_, hheld.executed, fun ended hended => ?_⟩
  · rw [hexecuted] at hchild
    rw [hchild.2 rfl]
    exact ⟨rfl, rfl, rfl⟩
  · rw [hheld.forked p hp]
    exact ⟨rfl, rfl, rfl⟩
  · rw [hended] at hchild
    exact hchild.1

/-- A process with all its namespaces alike. -/
def Whereabouts.of (ns : ℕ) : Whereabouts := ⟨ns, ns, ns, fun _ => []⟩

/-- The container of a process that has run one, with a command that forks. -/
theorem exec_processes_ran :
    ∃ s, World.ranOne.cm.ExecRun ['1'] [some "ps".toList] (.of 0) (.of 1) (fun _ => none)
        [.child, .child, .child, .child, .child, .child, .child, .fork, .fork] s ∧
      s.program = .ret .executed ∧ s.child.place.pidNs = 0 ∧
      s.forked.map Whereabouts.pidNs = [1, 1] ∧ ∀ p ∈ s.forked, p.pidNs = 1 := by
  have htarget : World.ranOne.cm.execTarget ['1'] = some 42 := rfl
  have hpid : nsFile 42 (.of 1) (nsPath 42 cloneNewpid) = some (.pid 1) := by
    rw [nsFile, if_pos rfl]
    rfl
  have hmnt : nsFile 42 (.of 1) (nsPath 42 cloneNewns) = some (.mnt 1) := by
    rw [nsFile, if_neg (nsPath_ne (by decide)), if_pos rfl]
    rfl
  obtain ⟨s, hs, hrun⟩ : ∃ s : ExecSession,
      (s.program = .ret .executed ∧ s.child.place.pidNs = 0 ∧
        s.forked.map Whereabouts.pidNs = [1, 1]) ∧
      Run (ExecSession.Step 42 (.of 1)) (.started (.of 0) (fun _ => none) 42 [some "ps".toList])
        [.child, .child, .child, .child, .child, .child, .child, .fork, .fork] s := by
    refine ⟨_, ?_, Run.snoc (Run.snoc (Run.snoc (Run.snoc (Run.snoc (Run.snoc (Run.snoc
      (Run.snoc (Run.snoc Run.nil (.child rfl (@JoinCall.Answers.opened _ _ _ _ 3 _ hpid rfl)))
      (.child rfl (.joinedPid rfl))) (.child rfl .closed))
      (.child rfl (@JoinCall.Answers.opened _ _ _ _ 3 _ hmnt rfl)))
      (.child rfl (.joinedMnt rfl))) (.child rfl .closed)) (.child rfl .executed))
      (.forks rfl)) (.forksAgain List.mem_cons_self)⟩
    exact ⟨rfl, rfl, rfl⟩
  have hall := exec_processes reachable_ranOne.sound.wf (by decide) ⟨42, htarget, hrun⟩
  exact ⟨s, ⟨42, htarget, hrun⟩, hs.1, hs.2.1, hs.2.2, fun p hp => (hall.2.1 p hp).1⟩
