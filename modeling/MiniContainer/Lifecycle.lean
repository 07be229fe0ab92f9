import MiniContainer.StateFile

/-!
# The lifecycle of containers

`create`, `start`, `stop`, `destroy` and `run`, the five operations of the
container manager. Each of them works through a chain of steps that can
fail – an allocation, a control group, a file system, the clone – and on
each failure takes back what it has done so far. What these steps answer
during one call is an `Env`; a statement over every `Env` is a statement
over every combination of outcomes.

A call takes the `World` to another one and returns a `Result`, unless it
does not return: an exception leaves `start` and `run` where the stack of
the child cannot be allocated, and where a word of a command cannot be
copied the array of words is freed twice. Such calls are `none`.

What the operations do to the containers, and to nothing else, is
`Effect`, a relation between lists of entries with one constructor for each
way a call can end. `Call.perform_spec` is the theorem that connects the
two: on a well-formed registry every call that returns is an `Effect`, and
it leaves the state file as it was or writes it anew.
-/

open CText GrowArray StateFile

/-- The allocations of a call, each under the place that makes it. -/
inductive AllocSite
  /-- `generate_container_id` in `run`. -/
  | generatedId
  /-- The identifier in `create`, copied or generated. -/
  | containerId
  /-- The `container_info_t`. -/
  | info
  /-- The copy of the configuration and its parts. -/
  | config
  | configId
  | configRootPath
  | configFsRootPath
  | configCommand
  | configWord (i : ℕ)
  /-- The array of containers, when it is doubled. -/
  | containers
  /-- The stack of the child. -/
  | childStack
  deriving DecidableEq, Repr

/-- What the host answers during one call. -/
structure Env where
  alloc : AllocSite → Bool
  kernel : Kernel
  /-- Whether `fs_create_minimal_root` succeeds under a path. -/
  minimalRoot : Option CStr → Bool
  /-- What `clone` returns. -/
  clone : ℤ
  /-- The time while a container is created. -/
  createdAt : ℤ
  /-- The time when a container is started or stopped. -/
  now : ℤ
  /-- Whether the state file can be opened for writing. -/
  stateFile : Bool
  /-- The numbers in a file that lists processes, where it can be opened. -/
  procs : CStr → Option (List ℤ)

/-- A process started for a container: its pid, and what it was cloned and
executed with. -/
structure Launch where
  pid : ℤ
  nsConfig : NamespaceConfig
  command : List (Option CStr)
  deriving DecidableEq, Repr

/-- What the operations change: the registry of the process, the state
file, the control groups, and the processes they have started and the pids
they have called `kill_process_tree` on. -/
structure World where
  cm : ContainerManager
  file : Option CStr
  cg : CgroupFs
  launches : List Launch
  killed : List ℤ

/-- The reasons for which an operation returns `-1`. -/
inductive Refusal
  | noId
  | alreadyExists
  | noInfo
  | configNotCopied
  | noCgroup
  | noMinimalRoot
  | notAdded
  | notFound
  | alreadyRunning
  | alreadyDestroyed
  | invalidState
  | configNotSaved
  | noCommand
  | notLaunched
  | notRunning
  deriving DecidableEq, Repr

/-- What an operation returns. -/
abbrev Result := Except Refusal Unit

/-- The code of a result. -/
def Result.code : Result → ℤ
  | .ok () => 0
  | .error _ => -1

/-- The call of `save_state` at the end of an operation: nothing happens
where the file cannot be opened. -/
def World.save (env : Env) (w : World) : World :=
  if env.stateFile then { w with file := some (saveState w.cm) } else w

/-! ## Configurations -/

/-- What `copy_container_config` returns. -/
inductive CopyResult
  | copied (config : ContainerConfig)
  | null
  /-- It frees the array of words, and frees it again with the rest. -/
  | freedTwice

/-- The loop that copies the words of a command, `none` where `strdup`
fails for one of them. -/
def copyWords (env : Env) (command : List (Option CStr)) (argc : ℕ) :
    Option (List (Option CStr)) :=
  (List.range argc).mapM (fun i =>
    match at? command i with
    | some word => if env.alloc (.configWord i) then some (some word) else none
    | none => some none)

/-- `copy_container_config`. -/
def copyContainerConfig (env : Env) (src : ContainerConfig) : CopyResult :=
  if ¬ env.alloc .config then .null
  else if src.id.isSome ∧ ¬ env.alloc .configId then .null
  else if src.rootPath.isSome ∧ ¬ env.alloc .configRootPath then .null
  else if src.fsConfig.rootPath.isSome ∧ ¬ env.alloc .configFsRootPath then .null
  else
    match src.command with
    | some command =>
      if src.commandArgc > 0 then
        if ¬ env.alloc .configCommand then .null
        else
          match copyWords env command src.commandArgc.toNat with
          | some words => .copied { src with command := some words }
          | none => .freedTwice
      -- words that are not counted are not copied
      else .copied { src with command := none, commandArgc := 0 }
    | none => .copied { src with command := none, commandArgc := 0 }

/-! ## Changes of an entry -/

/-- The `container_info_t` `create` adds. -/
def createdInfo (containerId : CStr) (createdAt : ℤ) (config : ContainerConfig) :
    ContainerInfo where
  id := containerId
  pid := 0
  state := .created
  createdAt := createdAt
  startedAt := 0
  stoppedAt := 0
  savedConfig := some config

/-- The assignments of `run` once the process exists. -/
def launchedInfo (pid now : ℤ) (info : ContainerInfo) : ContainerInfo :=
  { info with pid := pid, state := .running, startedAt := now }

/-- The assignments of `start` once the process exists. -/
def startedInfo (pid now : ℤ) (info : ContainerInfo) : ContainerInfo :=
  { info with pid := pid, state := .running, startedAt := now, stoppedAt := 0 }

/-- The assignments of `stop`. -/
def stoppedInfo (now : ℤ) (info : ContainerInfo) : ContainerInfo :=
  { info with state := .stopped, stoppedAt := now }

/-! ## The operations -/

/-- `create` from the control group on, for an identifier that is not taken
and a configuration that has been copied. -/
def addCreated (env : Env) (config saved : ContainerConfig) (containerId : CStr) (w : World) :
    World × Result :=
  let cgroup :=
    resourceManagerCreateCgroup env.kernel w.cm.rm containerId config.resLimits w.cg
  let destroyed := (resourceManagerDestroyCgroup env.kernel w.cm.rm containerId cgroup.1).1
  if cgroup.2 ≠ 0 then ({ w with cg := cgroup.1 }, .error .noCgroup)
  else if config.fsConfig.createMinimalFs ≠ 0 ∧ ¬ env.minimalRoot config.fsConfig.rootPath then
    ({ w with cg := destroyed }, .error .noMinimalRoot)
  else
    match w.cm.addContainer (createdInfo containerId env.createdAt saved)
        (env.alloc .containers) with
    | some cm => ({ w with cm := cm, cg := cgroup.1 }.save env, .ok ())
    | none => ({ w with cg := destroyed }, .error .notAdded)

/-- **`container_manager_create`.** -/
def containerManagerCreate (env : Env) (config : ContainerConfig) (w : World) :
    Option (World × Result) :=
  if ¬ env.alloc .containerId then some (w, .error .noId)
  else if (w.cm.findContainer (config.id.getD w.cm.generateContainerId)).isSome then
    some (w, .error .alreadyExists)
  else if ¬ env.alloc .info then some (w, .error .noInfo)
  else
    match copyContainerConfig env config with
    | .copied saved =>
      some (addCreated env config saved (config.id.getD w.cm.generateContainerId) w)
    | .null => some (w, .error .configNotCopied)
    | .freedTwice => none

/-- `namespace_create_container_with_cgroup`, with the callback that adds
the new process to the control group of a container. -/
def namespaceCreateContainerWithCgroup (env : Env) (config : NamespaceConfig)
    (command : Option (List (Option CStr))) (argc : ℤ) (containerId : CStr) (w : World) :
    Option (World × ℤ) :=
  match command with
  | none => some (w, -1)
  | some words =>
    if argc ≤ 0 then some (w, -1)
    else if ¬ env.alloc .childStack then none
    else if env.clone > 0 then
      -- the callback is called in the parent, and drops the code it gets
      some ({ w with
        cg := (resourceManagerAddProcess env.kernel w.cm.rm containerId env.clone w.cg).1
        launches := w.launches ++ [⟨env.clone, config, words⟩] }, env.clone)
    else some (w, env.clone)

/-- `start` once it has a configuration: the control group is made again,
under the key it was called with, and the process is cloned. -/
def startWith (env : Env) (config : ContainerConfig) (key : CStr) (i : ℕ) (w : World) :
    Option (World × Result) :=
  let cgroup := resourceManagerCreateCgroup env.kernel w.cm.rm key config.resLimits w.cg
  if cgroup.2 ≠ 0 then some ({ w with cg := cgroup.1 }, .error .noCgroup)
  else
    match namespaceCreateContainerWithCgroup env config.nsConfig config.command
        config.commandArgc key { w with cg := cgroup.1 } with
    | none => none
    | some (w, pid) =>
      if pid = -1 then some (w, .error .notLaunched)
      else some ({ w with cm := w.cm.updateAt i (startedInfo pid env.now) }.save env, .ok ())

/-- **`container_manager_start`.** -/
def containerManagerStart (env : Env) (key : CStr) (w : World) : Option (World × Result) :=
  match w.cm.getInfo key with
  | none => some (w, .error .notFound)
  | some i =>
    match w.cm.infoAt i with
    | none => none
    | some info =>
      if info.state = .running then some (w, .error .alreadyRunning)
      else if info.state = .destroyed then some (w, .error .alreadyDestroyed)
      else if info.state ≠ .created ∧ info.state ≠ .stopped then
        some (w, .error .invalidState)
      else
        match info.savedConfig with
        | none => some (w, .error .configNotSaved)
        | some config => startWith env config key i w

/-- The file `stop` reads the processes of a container from. -/
def stopProcsPath (rm : ResourceManager) (containerId : CStr) : CStr :=
  match rm.version with
  | .v2 => cgroupFile cgroupRoot rm containerId "cgroup.procs".toList
  | .v1 => cgroupFile cpuCpuacctCgroupPath rm containerId "tasks".toList

/-- The pids `stop` calls `kill_process_tree` on. A pid that is not
positive is passed over. -/
def stopTargets (env : Env) (rm : ResourceManager) (info : ContainerInfo) : List ℤ :=
  (((env.procs (stopProcsPath rm info.id)).getD []) ++ [info.pid]).filter (0 < ·)

/-- **`container_manager_stop`.** -/
def containerManagerStop (env : Env) (key : CStr) (w : World) : Option (World × Result) :=
  match w.cm.getInfo key with
  | none => some (w, .error .notFound)
  | some i =>
    match w.cm.infoAt i with
    | none => none
    | some info =>
      if info.state ≠ .running then some (w, .error .notRunning)
      else
        some ({ w with
          cm := w.cm.updateAt i (stoppedInfo env.now)
          killed := w.killed ++ stopTargets env w.cm.rm info }.save env, .ok ())

/-- The end of `destroy`: the control group goes under the container's own
identifier, the entry under the key. -/
def removeDestroyed (env : Env) (key containerId : CStr) (w : World) : World × Result :=
  ({ w with
    cm := w.cm.removeContainer key
    cg := (resourceManagerDestroyCgroup env.kernel w.cm.rm containerId w.cg).1 }.save env,
    .ok ())

/-- **`container_manager_destroy`.** A running container is stopped first,
and destroyed also where that fails. -/
def containerManagerDestroy (env : Env) (key : CStr) (w : World) : Option (World × Result) :=
  match w.cm.getInfo key with
  | none => some (w, .error .notFound)
  | some i =>
    match w.cm.infoAt i with
    | none => none
    | some info =>
      if info.state = .running then
        -- the code of `stop` is dropped
        (containerManagerStop env info.id w).map (fun r => removeDestroyed env key info.id r.1)
      else some (removeDestroyed env key info.id w)

/-- `run` takes back a creation. -/
def undoCreate (env : Env) (containerId : CStr) (e : Refusal) (w : World) :
    Option (World × Result) :=
  (containerManagerDestroy env containerId w).map (fun r => (r.1, .error e))

/-- `run` after the container has been created. -/
def launchCreated (env : Env) (containerId : CStr) (w : World) : Option (World × Result) :=
  match w.cm.findContainer containerId with
  | none => undoCreate env containerId .configNotSaved w
  | some i =>
    match w.cm.infoAt i with
    | none => none
    | some info =>
      match info.savedConfig with
      | none => undoCreate env containerId .configNotSaved w
      | some saved =>
        if saved.command = none then undoCreate env containerId .noCommand w
        else
          match namespaceCreateContainerWithCgroup env saved.nsConfig saved.command
              saved.commandArgc containerId w with
          | none => none
          | some (w, pid) =>
            if pid = -1 then undoCreate env containerId .notLaunched w
            else
              some ({ w with cm := w.cm.updateAt i (launchedInfo pid env.now) }.save env, .ok ())

/-- The identifier `run` puts into a configuration that has none. -/
def runId (env : Env) (cm : ContainerManager) (config : ContainerConfig) : Option CStr :=
  match config.id with
  | some containerId => some containerId
  | none => if env.alloc .generatedId then some cm.generateContainerId else none

/-- **`container_manager_run`.** -/
def containerManagerRun (env : Env) (config : ContainerConfig) (w : World) :
    Option (World × Result) :=
  match runId env w.cm config with
  | none => some (w, .error .noId)
  | some containerId =>
    match containerManagerCreate env { config with id := some containerId } w with
    | none => none
    | some (w, .error e) => some (w, .error e)
    | some (w, .ok ()) => launchCreated env containerId w

/-! ## Processes -/

/-- What the host answers while a process starts. -/
structure InitEnv where
  /-- Whether the resource manager and the array can be allocated. -/
  alloc : Bool
  host : CgroupHost
  load : LoadEnv
  stateFile : Bool

/-- The prefix `init` gives the resource manager. -/
def basePath : CStr := "mini_container".toList

/-- `DEFAULT_MAX_CONTAINERS`. -/
def defaultMaxContainers : ℕ := 10

/-- The capacity `init` starts with. -/
def initialCapacity (maxContainers : ℤ) : ℕ :=
  if maxContainers > 0 then maxContainers.toNat else defaultMaxContainers

/-- **`container_manager_init`**: the registry and the state file, or
`none` for its `-1`. -/
def containerManagerInit (env : InitEnv) (maxContainers : ℤ) (file : Option CStr) :
    Option (ContainerManager × Option CStr) :=
  if ¬ env.alloc then none
  else
    match resourceManagerInit env.host basePath with
    | none => none
    | some rm =>
      let fresh := ContainerManager.fresh rm (initialCapacity maxContainers)
      match file with
      | none => some (fresh, none)
      | some text =>
        let loaded := loadState env.load text fresh
        some (loaded.1,
          if loaded.2 > 0 ∧ env.stateFile then some (saveState loaded.1) else some text)

theorem initialCapacity_pos (maxContainers : ℤ) : 0 < initialCapacity maxContainers := by
  unfold initialCapacity
  split
  · omega
  · decide

/-- `init` without a state file starts an empty registry. -/
theorem containerManagerInit_none {env : InitEnv} {maxContainers : ℤ} {cm : ContainerManager}
    {file : Option CStr} (h : containerManagerInit env maxContainers none = some (cm, file)) :
    cm.WF ∧ cm.entries = [] ∧ resourceManagerInit env.host basePath = some cm.rm := by
  unfold containerManagerInit at h
  split at h
  · cases h
  · split at h
    · cases h
    · next rm hrm =>
      cases h
      exact ⟨ContainerManager.fresh_wf _ (initialCapacity_pos maxContainers), rfl, hrm⟩

/-- What `init` makes of a state file it can read. -/
theorem containerManagerInit_some {env : InitEnv} {maxContainers : ℤ} {text : CStr}
    {cm : ContainerManager} {file : Option CStr}
    (h : containerManagerInit env maxContainers (some text) = some (cm, file)) :
    ∃ fresh : ContainerManager, fresh.WF ∧ fresh.entries = [] ∧
      resourceManagerInit env.host basePath = some fresh.rm ∧
      cm = (loadState env.load text fresh).1 ∧
      file = some (if (loadState env.load text fresh).2 > 0 ∧ env.stateFile
        then saveState cm else text) := by
  unfold containerManagerInit at h
  split at h
  · cases h
  · split at h
    · cases h
    · next rm hrm =>
      refine ⟨.fresh rm (initialCapacity maxContainers),
        ContainerManager.fresh_wf rm (initialCapacity_pos maxContainers), rfl, hrm, ?_⟩
      obtain ⟨rfl, hfile⟩ := Prod.mk.inj (Option.some.inj h)
      refine ⟨rfl, ?_⟩
      rw [← hfile]
      split <;> rfl

/-- **`container_manager_cleanup`**, which ends a process: what it leaves is
the state file. -/
def containerManagerCleanup (stateFile : Bool) (cm : ContainerManager) (file : Option CStr) :
    Option CStr :=
  if stateFile then some (saveState cm) else file

/-- A process ends and another one starts. -/
def restart (env : InitEnv) (maxContainers : ℤ) (w : World) : Option World :=
  (containerManagerInit env maxContainers
    (containerManagerCleanup env.stateFile w.cm w.file)).map
      (fun r => { w with cm := r.1, file := r.2 })

/-! ## A host on which nothing fails -/

/-- A kernel that refuses nothing and lists no threads. -/
def Kernel.willing : Kernel where
  mkdir _ := true
  rmdir _ := true
  write _ _ := true
  tasks _ := none

/-- An environment in which every step of a call succeeds. -/
def Env.willing (clone now : ℤ) : Env where
  alloc _ := true
  kernel := .willing
  minimalRoot _ := true
  clone := clone
  createdAt := now
  now := now
  stateFile := true
  procs _ := none

/-- A world without containers, on version 2 of control groups. -/
def World.empty (maxContainers : ℕ) : World where
  cm := .fresh ⟨basePath, true, .v2⟩ maxContainers
  file := none
  cg := ⟨[cgroupRoot], fun _ => []⟩
  launches := []
  killed := []

/-- A configuration that asks for an identifier, if any, and a command. -/
def ContainerConfig.plain (containerId : Option CStr) (command : List CStr) :
    ContainerConfig where
  id := containerId
  rootPath := none
  nsConfig := namespaceConfigInit
  resLimits := resourceLimitsInit
  fsConfig := fsConfigInit
  command := some (command.map some)
  commandArgc := command.length

/-- A registry with given containers and room for one more. -/
def ContainerManager.ofList (l : List ContainerInfo) : ContainerManager where
  rm := ⟨basePath, true, .v2⟩
  containers := l.map some ++ [none]
  containerCount := l.length
  maxContainers := l.length + 1

@[simp] theorem ContainerManager.entries_ofList (l : List ContainerInfo) :
    (ofList l).entries = l := by
  show ((l.map some ++ [none]).take l.length).reduceOption = l
  rw [List.take_left' (List.length_map _), List.reduceOption, List.filterMap_map]
  exact List.filterMap_some

theorem ContainerManager.ofList_wf (l : List ContainerInfo) : (ofList l).WF where
  alloc := by
    show (l.map some ++ [none]).length = l.length + 1
    rw [List.length_append, List.length_map, List.length_singleton]
  max_pos := Nat.succ_pos _
  holds := by
    rw [entries_ofList]
    exact List.prefix_append _ _
  length_entries := by
    rw [entries_ofList]
    rfl

/-- A world with given containers, which the state file holds. -/
def World.ofList (l : List ContainerInfo) : World :=
  { World.empty 1 with
    cm := .ofList l
    file := some (saveState (.ofList l)) }

/-- A host on which a process starts and no container's process is
alive. -/
def InitEnv.willing (now : ℤ) : InitEnv where
  alloc := true
  host := ⟨fun _ => true, some "cpu memory".toList⟩
  load := ⟨fun _ => false, now⟩
  stateFile := true
