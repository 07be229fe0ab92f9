import MiniContainer.Lifecycle

/-!
# What the operations do

`Effect` says in one place what a call of the container manager does to the
containers: a list of entries goes to a list of entries, with one
constructor for each way a call can return. A refused call changes nothing,
whatever it had done before it was refused.

`Call.perform_spec` connects it with the operations as they are programmed:
on a well-formed registry, every call that returns keeps the registry
well-formed, has an `Effect` on its entries, and either leaves the state
file and the entries as they were or writes the file anew. What follows
about the operations, over single calls and over runs of calls, is derived
from `Effect` by its cases.
-/

open CText GrowArray StateFile

/-- A call of the container manager. -/
inductive Call
  | create (config : ContainerConfig)
  | run (config : ContainerConfig)
  | start (key : CStr)
  | stop (key : CStr)
  | destroy (key : CStr)

/-- A call is performed by the function of its name; `none` where that does
not return. -/
def Call.perform (env : Env) : Call → World → Option (World × Result)
  | .create config => containerManagerCreate env config
  | .run config => containerManagerRun env config
  | .start key => containerManagerStart env key
  | .stop key => containerManagerStop env key
  | .destroy key => containerManagerDestroy env key

/-- A step of a world: a call that returns, with what the host answers
during it. -/
def World.Step (w : World) (e : Env × Call) (w' : World) : Prop :=
  ∃ r, e.2.perform e.1 w = some (w', r)

/-- The identifier a container is created under. -/
def createdId (l : List ContainerInfo) (config : ContainerConfig) : CStr :=
  config.id.getD (printDecimal (ContainerManager.nextNumber (l.map ContainerInfo.id)))

/-- A call that can be refused: `destroy` is not where its key denotes a
container. -/
def Call.Refusable (l : List ContainerInfo) : Call → Prop
  | .destroy key => ContainerManager.resolve l key = none
  | _ => True

/-- **What a call does to the entries**, with what it returns. -/
inductive Effect (env : Env) (l : List ContainerInfo) :
    Call → Result → List ContainerInfo → Prop
  /-- Nothing. -/
  | refused {call : Call} (hcall : call.Refusable l) (e : Refusal) :
      Effect env l call (.error e) l
  /-- A created container is appended. -/
  | created {config saved : ContainerConfig}
      (hfresh : createdId l config ∉ l.map ContainerInfo.id)
      (hsaved : copyContainerConfig env config = .copied saved) :
      Effect env l (.create config) (.ok ())
        (l ++ [createdInfo (createdId l config) env.createdAt saved])
  /-- A created and launched container is appended. -/
  | ran {config saved : ContainerConfig}
      (hfresh : createdId l config ∉ l.map ContainerInfo.id)
      (hsaved : copyContainerConfig env { config with id := some (createdId l config) }
        = .copied saved)
      (hcommand : saved.command ≠ none) (hargc : 0 < saved.commandArgc)
      (hclone : env.clone ≠ -1) :
      Effect env l (.run config) (.ok ())
        (l ++ [launchedInfo env.clone env.now
          (createdInfo (createdId l config) env.createdAt saved)])
  /-- A container that is created or stopped, and has a configuration, is
  running. -/
  | started {key : CStr} {i : ℕ} {info : ContainerInfo} {config : ContainerConfig}
      (hi : ContainerManager.resolve l key = some i) (hinfo : l[i]? = some info)
      (hstate : info.state = .created ∨ info.state = .stopped)
      (hconfig : info.savedConfig = some config)
      (hcommand : config.command ≠ none) (hargc : 0 < config.commandArgc)
      (hclone : env.clone ≠ -1) :
      Effect env l (.start key) (.ok ()) (l.modify i (startedInfo env.clone env.now))
  /-- A container that is running is stopped. -/
  | stopped {key : CStr} {i : ℕ} {info : ContainerInfo}
      (hi : ContainerManager.resolve l key = some i) (hinfo : l[i]? = some info)
      (hstate : info.state = .running) :
      Effect env l (.stop key) (.ok ()) (l.modify i (stoppedInfo env.now))
  /-- A container that is not running is removed, if the key is an
  identifier. -/
  | destroyed {key : CStr} {i : ℕ} {info : ContainerInfo}
      (hi : ContainerManager.resolve l key = some i) (hinfo : l[i]? = some info)
      (hstate : info.state ≠ .running) :
      Effect env l (.destroy key) (.ok ()) (l.eraseP (fun c => c.id = key))
  /-- A container that is running is first stopped. -/
  | destroyedRunning {key : CStr} {i : ℕ} {info : ContainerInfo} {r : Result}
      {l' : List ContainerInfo}
      (hi : ContainerManager.resolve l key = some i) (hinfo : l[i]? = some info)
      (hstate : info.state = .running) (hstop : Effect env l (.stop info.id) r l') :
      Effect env l (.destroy key) (.ok ()) (l'.eraseP (fun c => c.id = key))

/-- **What is known of a call that returns.** -/
structure Performs (env : Env) (call : Call) (w w' : World) (r : Result) : Prop where
  wf : w'.cm.WF
  rm : w'.cm.rm = w.cm.rm
  effect : Effect env w.cm.entries call r w'.cm.entries
  file : (w'.file = w.file ∧ (env.stateFile = true → w'.cm.entries = w.cm.entries)) ∨
    (env.stateFile = true ∧ w'.file = some (saveState w'.cm))

section

variable {env : Env} {call : Call} {w w' w'' : World} {r : Result}

@[simp] theorem World.save_cm (env : Env) (w : World) : (w.save env).cm = w.cm := by
  unfold save
  split <;> rfl

theorem World.save_file (w : World) (h : env.stateFile = true) :
    (w.save env).file = some (saveState w.cm) := by
  rw [save, if_pos h]

/-- A state file that cannot be opened for writing stays as it is. -/
theorem World.save_of_not (w : World) (h : ¬ env.stateFile = true) : w.save env = w := by
  rw [save, if_neg h]

/-- The written file depends on the entries alone. -/
theorem StateFile.saveState_congr {cm cm' : ContainerManager} (h : cm.entries = cm'.entries) :
    saveState cm = saveState cm' := by
  rw [saveState, saveState, h]

/-- Where the file cannot be written, it stays as it was. -/
theorem Performs.file_of_not (h : Performs env call w w' r) (hn : ¬ env.stateFile = true) :
    w'.file = w.file := by
  rcases h.file with ⟨hfile, -⟩ | ⟨hwritable, -⟩
  · exact hfile
  · exact absurd hwritable hn

/-- A call that is refused before it touches the registry. -/
theorem Performs.of_refused (hw : w.cm.WF) (hcall : call.Refusable w.cm.entries)
    (hcm : w'.cm = w.cm) (hfile : w'.file = w.file) {e : Refusal} :
    Performs env call w w' (.error e) where
  wf := by rwa [hcm]
  rm := by rw [hcm]
  effect := by
    rw [hcm]
    exact Effect.refused hcall e
  file := Or.inl ⟨hfile, fun _ => by rw [hcm]⟩

/-- A call that is refused after it has tried to make a control group. -/
theorem Performs.of_cgroup (hw : w.cm.WF) (hcall : call.Refusable w.cm.entries) {cg : CgroupFs}
    {e : Refusal} : Performs env call w { w with cg := cg } (.error e) where
  wf := hw
  rm := rfl
  effect := Effect.refused hcall e
  file := Or.inl ⟨rfl, fun _ => rfl⟩

/-- A call that ends with `save_state`. -/
theorem Performs.of_save (hwf : w'.cm.WF) (hrm : w'.cm.rm = w.cm.rm)
    (hfile : ¬ env.stateFile = true → w'.file = w.file)
    (heffect : Effect env w.cm.entries call r w'.cm.entries) :
    Performs env call w (w'.save env) r where
  wf := by rwa [World.save_cm]
  rm := by rwa [World.save_cm]
  effect := by rwa [World.save_cm]
  file := by
    by_cases hwritable : env.stateFile = true
    · exact Or.inr ⟨hwritable, by rw [World.save_file w' hwritable, World.save_cm]⟩
    · rw [World.save_of_not w' hwritable]
      exact Or.inl ⟨hfile hwritable, fun h => absurd h hwritable⟩

/-! ## Creating -/

/-- The identifier `create` chooses. -/
theorem getD_generateContainerId (hw : w.cm.WF) (config : ContainerConfig) :
    config.id.getD w.cm.generateContainerId = createdId w.cm.entries config := by
  rw [ContainerManager.generateContainerId_eq hw]
  rfl

/-- **How far `create` gets**: it is refused and has done nothing, or it has
copied the configuration and goes on under an identifier no container has. -/
theorem containerManagerCreate_cases (hw : w.cm.WF) {config : ContainerConfig}
    (h : containerManagerCreate env config w = some (w', r)) :
    (w' = w ∧ ∃ e, r = .error e) ∨
    ∃ saved, copyContainerConfig env config = .copied saved ∧
      createdId w.cm.entries config ∉ w.cm.ids ∧
      addCreated env config saved (createdId w.cm.entries config) w = (w', r) := by
  unfold containerManagerCreate at h
  rw [getD_generateContainerId hw config] at h
  split at h
  · cases h
    exact Or.inl ⟨rfl, _, rfl⟩
  · split at h
    · cases h
      exact Or.inl ⟨rfl, _, rfl⟩
    · next hfound =>
      rw [Option.not_isSome_iff_eq_none, ContainerManager.findContainer_eq_none_iff hw] at hfound
      split at h
      · cases h
        exact Or.inl ⟨rfl, _, rfl⟩
      · cases hcopy : copyContainerConfig env config with
        | copied saved =>
          rw [hcopy] at h
          exact Or.inr ⟨saved, rfl, hfound, Option.some.inj h⟩
        | null =>
          rw [hcopy] at h
          cases h
          exact Or.inl ⟨rfl, _, rfl⟩
        | freedTwice =>
          rw [hcopy] at h
          cases h

/-- **What `create` does from the control group on**: it is refused without
one, it is refused and destroys it again, or it adds the container. -/
theorem addCreated_cases {config saved : ContainerConfig} {containerId : CStr}
    (h : addCreated env config saved containerId w = (w', r)) :
    ((resourceManagerCreateCgroup env.kernel w.cm.rm containerId config.resLimits w.cg).2 ≠ 0 ∧
      (∃ e, r = .error e) ∧
      w' = { w with
        cg := (resourceManagerCreateCgroup env.kernel w.cm.rm containerId config.resLimits
          w.cg).1 }) ∨
    ((∃ e, r = .error e) ∧
      w' = { w with
        cg := (resourceManagerDestroyCgroup env.kernel w.cm.rm containerId
          (resourceManagerCreateCgroup env.kernel w.cm.rm containerId config.resLimits
            w.cg).1).1 }) ∨
    ∃ cm,
      (resourceManagerCreateCgroup env.kernel w.cm.rm containerId config.resLimits w.cg).2 = 0 ∧
      w.cm.addContainer (createdInfo containerId env.createdAt saved) (env.alloc .containers)
        = some cm ∧
      r = .ok () ∧
      w' = World.save env { w with
        cm := cm
        cg := (resourceManagerCreateCgroup env.kernel w.cm.rm containerId config.resLimits
          w.cg).1 } := by
  unfold addCreated at h
  dsimp only at h
  split at h
  · next hcode =>
    cases h
    exact Or.inl ⟨hcode, ⟨_, rfl⟩, rfl⟩
  · next hcode =>
    split at h
    · cases h
      exact Or.inr (Or.inl ⟨⟨_, rfl⟩, rfl⟩)
    · split at h
      · next cm hadd =>
        cases h
        exact Or.inr (Or.inr ⟨cm, not_not.mp hcode, hadd, rfl, rfl⟩)
      · cases h
        exact Or.inr (Or.inl ⟨⟨_, rfl⟩, rfl⟩)

/-- **`create`** refuses or appends a created container. -/
theorem containerManagerCreate_spec (hw : w.cm.WF) {config : ContainerConfig}
    (h : containerManagerCreate env config w = some (w', r)) :
    Performs env (.create config) w w' r := by
  rcases containerManagerCreate_cases hw h with ⟨rfl, e, rfl⟩ | ⟨saved, hsaved, hfresh, hadded⟩
  · exact Performs.of_refused hw (by trivial) rfl rfl
  · rcases addCreated_cases hadded with ⟨-, ⟨e, rfl⟩, rfl⟩ | ⟨⟨e, rfl⟩, rfl⟩ |
      ⟨cm, -, hadd, rfl, rfl⟩
    · exact Performs.of_cgroup hw (by trivial)
    · exact Performs.of_cgroup hw (by trivial)
    · obtain ⟨hwf, hentries, hrm⟩ := ContainerManager.addContainer_spec hw hadd
      refine Performs.of_save hwf hrm (fun _ => rfl) ?_
      show Effect env w.cm.entries _ _ cm.entries
      rw [hentries]
      exact Effect.created hfresh hsaved

/-! ## Starting -/

/-- Cloning changes no registry and no file, and where it returns a pid
there is a command. -/
theorem namespaceCreateContainerWithCgroup_spec {config : NamespaceConfig}
    {command : Option (List (Option CStr))} {argc : ℤ} {containerId : CStr} {pid : ℤ}
    (h : namespaceCreateContainerWithCgroup env config command argc containerId w
      = some (w', pid)) :
    w'.cm = w.cm ∧ w'.file = w.file ∧
      (pid ≠ -1 → command ≠ none ∧ 0 < argc ∧ pid = env.clone) := by
  cases command with
  | none =>
    cases h
    exact ⟨rfl, rfl, fun h => absurd rfl h⟩
  | some words =>
    rw [namespaceCreateContainerWithCgroup] at h
    split at h
    · cases h
      exact ⟨rfl, rfl, fun h => absurd rfl h⟩
    · next hargc =>
      split at h
      · cases h
      · split at h <;>
        · cases h
          exact ⟨rfl, rfl, fun _ => ⟨by simp, not_le.mp hargc, rfl⟩⟩

/-- Cloning makes and removes no control group. -/
theorem namespaceCreateContainerWithCgroup_dirs {config : NamespaceConfig}
    {command : Option (List (Option CStr))} {argc : ℤ} {containerId : CStr} {pid : ℤ}
    (h : namespaceCreateContainerWithCgroup env config command argc containerId w
      = some (w', pid)) : w'.cg.dirs = w.cg.dirs := by
  cases command with
  | none =>
    cases h
    rfl
  | some words =>
    rw [namespaceCreateContainerWithCgroup] at h
    split at h
    · cases h
      rfl
    · split at h
      · cases h
      · split at h
        · cases h
          exact resourceManagerAddProcess_dirs _ _ _ _
        · cases h
          rfl

/-- **How `start` with a configuration ends**: it is refused, without a control
group or without a process, or it has cloned a process and saves that it
runs. -/
theorem startWith_cases {config : ContainerConfig} {key : CStr} {i : ℕ}
    (h : startWith env config key i w = some (w', r)) :
    ((r = .error .noCgroup ∨ r = .error .notLaunched) ∧ w'.cm = w.cm ∧ w'.file = w.file) ∨
    ∃ w₁ pid, namespaceCreateContainerWithCgroup env config.nsConfig config.command
        config.commandArgc key { w with
          cg := (resourceManagerCreateCgroup env.kernel w.cm.rm key config.resLimits w.cg).1 }
        = some (w₁, pid) ∧
      pid ≠ -1 ∧ r = .ok () ∧
      w' = World.save env { w₁ with cm := w₁.cm.updateAt i (startedInfo pid env.now) } := by
  unfold startWith at h
  dsimp only at h
  split at h
  · cases h
    exact Or.inl ⟨Or.inl rfl, rfl, rfl⟩
  · split at h
    · cases h
    · next w₁ pid hclone =>
      split at h
      · cases h
        obtain ⟨hcm, hfile, -⟩ := namespaceCreateContainerWithCgroup_spec hclone
        exact Or.inl ⟨Or.inr rfl, hcm, hfile⟩
      · next hpid =>
        cases h
        exact Or.inr ⟨w₁, pid, hclone, hpid, rfl, rfl⟩

theorem startWith_spec (hw : w.cm.WF) {key : CStr} {i : ℕ} {info : ContainerInfo}
    {config : ContainerConfig} (hi : ContainerManager.resolve w.cm.entries key = some i)
    (hinfo : w.cm.entries[i]? = some info)
    (hstate : info.state = .created ∨ info.state = .stopped)
    (hconfig : info.savedConfig = some config)
    (h : startWith env config key i w = some (w', r)) :
    Performs env (.start key) w w' r := by
  rcases startWith_cases h with ⟨hr, hcm, hfile⟩ | ⟨w₁, pid, hclone, hne, rfl, rfl⟩
  · rcases hr with rfl | rfl
    · exact Performs.of_refused hw (by trivial) hcm hfile
    · exact Performs.of_refused hw (by trivial) hcm hfile
  · obtain ⟨hcm, hfile, hpid⟩ := namespaceCreateContainerWithCgroup_spec hclone
    dsimp only at hcm hfile
    obtain ⟨hcommand, hargc, rfl⟩ := hpid hne
    have hlt := ContainerManager.resolve_lt hi
    obtain ⟨hwf, hentries, hrm⟩ :=
      ContainerManager.updateAt_spec hw hlt (startedInfo env.clone env.now)
    refine Performs.of_save ?_ ?_ (fun _ => hfile) ?_
    · show (w₁.cm.updateAt i _).WF
      rwa [hcm]
    · show (w₁.cm.updateAt i _).rm = _
      rwa [hcm]
    · show Effect env _ _ _ (w₁.cm.updateAt i _).entries
      rw [hcm, hentries]
      exact Effect.started hi hinfo hstate hconfig hcommand hargc hne

/-- What a key points at is what it denotes among the entries. -/
theorem entry_of_getInfo (hw : w.cm.WF) {key : CStr} {i : ℕ} {info : ContainerInfo}
    (hi : w.cm.getInfo key = some i) (hinfo : w.cm.infoAt i = some info) :
    ContainerManager.resolve w.cm.entries key = some i ∧ w.cm.entries[i]? = some info := by
  have hlt := ContainerManager.getInfo_lt hw hi
  rw [ContainerManager.infoAt_eq hw hlt] at hinfo
  rw [ContainerManager.getInfo_eq hw] at hi
  exact ⟨hi, by rw [List.getElem?_eq_getElem hlt, hinfo]⟩

/-- **How far `start` gets**: it is refused and has done nothing, or it has
found a created or stopped container and goes on with its configuration. -/
theorem containerManagerStart_cases {key : CStr}
    (h : containerManagerStart env key w = some (w', r)) :
    (w' = w ∧ ∃ e, r = .error e) ∨
    ∃ i info config, w.cm.getInfo key = some i ∧ w.cm.infoAt i = some info ∧
      (info.state = .created ∨ info.state = .stopped) ∧ info.savedConfig = some config ∧
      startWith env config key i w = some (w', r) := by
  unfold containerManagerStart at h
  split at h
  · cases h
    exact Or.inl ⟨rfl, _, rfl⟩
  · next i hi =>
    split at h
    · cases h
    · next info hinfo =>
      split at h
      · cases h
        exact Or.inl ⟨rfl, _, rfl⟩
      · split at h
        · cases h
          exact Or.inl ⟨rfl, _, rfl⟩
        · split at h
          · cases h
            exact Or.inl ⟨rfl, _, rfl⟩
          · next hstate =>
            rw [not_and_or, not_not, not_not] at hstate
            split at h
            · cases h
              exact Or.inl ⟨rfl, _, rfl⟩
            · next config hconfig =>
              exact Or.inr ⟨i, info, config, hi, hinfo, hstate, hconfig, h⟩

/-- **`start`** refuses or sets a created or stopped container running. -/
theorem containerManagerStart_spec (hw : w.cm.WF) {key : CStr}
    (h : containerManagerStart env key w = some (w', r)) :
    Performs env (.start key) w w' r := by
  rcases containerManagerStart_cases h with ⟨rfl, e, rfl⟩ |
    ⟨i, info, config, hi, hinfo, hstate, hconfig, hstart⟩
  · exact Performs.of_refused hw (by trivial) rfl rfl
  · obtain ⟨hres, hget⟩ := entry_of_getInfo hw hi hinfo
    exact startWith_spec hw hres hget hstate hconfig hstart

/-! ## Stopping and destroying -/

/-- **What `stop` does**: nothing, or it stops the running container it has
found. -/
theorem containerManagerStop_cases {key : CStr}
    (h : containerManagerStop env key w = some (w', r)) :
    (w' = w ∧ ∃ e, r = .error e) ∨
    ∃ i info, w.cm.getInfo key = some i ∧ w.cm.infoAt i = some info ∧ info.state = .running ∧
      r = .ok () ∧
      w' = World.save env { w with
        cm := w.cm.updateAt i (stoppedInfo env.now)
        killed := w.killed ++ stopTargets env w.cm.rm info } := by
  unfold containerManagerStop at h
  split at h
  · cases h
    exact Or.inl ⟨rfl, _, rfl⟩
  · next i hi =>
    split at h
    · cases h
    · next info hinfo =>
      split at h
      · cases h
        exact Or.inl ⟨rfl, _, rfl⟩
      · next hstate =>
        cases h
        exact Or.inr ⟨i, info, hi, hinfo, not_not.mp hstate, rfl, rfl⟩

/-- **`stop`** refuses or stops a running container. -/
theorem containerManagerStop_spec (hw : w.cm.WF) {key : CStr}
    (h : containerManagerStop env key w = some (w', r)) :
    Performs env (.stop key) w w' r := by
  rcases containerManagerStop_cases h with ⟨rfl, e, rfl⟩ |
    ⟨i, info, hi, hinfo, hstate, rfl, rfl⟩
  · exact Performs.of_refused hw (by trivial) rfl rfl
  · obtain ⟨hres, hget⟩ := entry_of_getInfo hw hi hinfo
    obtain ⟨hwf, hentries, hrm⟩ :=
      ContainerManager.updateAt_spec hw (ContainerManager.resolve_lt hres) (stoppedInfo env.now)
    refine Performs.of_save hwf hrm (fun _ => rfl) ?_
    show Effect env _ _ _ (w.cm.updateAt i _).entries
    rw [hentries]
    exact Effect.stopped hres hget hstate

/-- The end of `destroy` on a registry whose entries have changed. -/
theorem removeDestroyed_spec (hw : w'.cm.WF) (hrm : w'.cm.rm = w.cm.rm)
    (hfile : ¬ env.stateFile = true → w'.file = w.file) {key containerId : CStr}
    (heffect : Effect env w.cm.entries (.destroy key) (.ok ())
      (w'.cm.entries.eraseP (fun c => c.id = key))) :
    Performs env (.destroy key) w (removeDestroyed env key containerId w').1 (.ok ()) := by
  obtain ⟨hwf, hentries, hrm'⟩ := ContainerManager.removeContainer_spec hw key
  refine Performs.of_save hwf (hrm'.trans hrm) hfile ?_
  show Effect env _ _ _ (w'.cm.removeContainer key).entries
  rwa [hentries]

/-- **`destroy`** refuses, or stops and removes. -/
theorem containerManagerDestroy_spec (hw : w.cm.WF) {key : CStr}
    (h : containerManagerDestroy env key w = some (w', r)) :
    Performs env (.destroy key) w w' r := by
  unfold containerManagerDestroy at h
  split at h
  · next hi =>
    cases h
    rw [ContainerManager.getInfo_eq hw] at hi
    exact Performs.of_refused hw (by exact hi) rfl rfl
  · next i hi =>
    split at h
    · cases h
    · next info hinfo =>
      obtain ⟨hres, hget⟩ := entry_of_getInfo hw hi hinfo
      split at h
      · next hstate =>
        obtain ⟨⟨w₁, r₁⟩, hstop, hr⟩ := Option.map_eq_some_iff.mp h
        have hspec := containerManagerStop_spec hw hstop
        cases hr
        exact removeDestroyed_spec hspec.wf hspec.rm hspec.file_of_not
          (Effect.destroyedRunning hres hget hstate hspec.effect)
      · next hstate =>
        cases h
        exact removeDestroyed_spec hw rfl (fun _ => rfl) (Effect.destroyed hres hget hstate)

/-! ## Running -/

/-- An index behind a list is found exactly if nothing in the list is. -/
theorem findIdx?_concat_eq_length_iff {α : Type} {p : α → Bool} {l : List α} {a : α} :
    (l ++ [a]).findIdx? p = some l.length ↔ (∀ b ∈ l, p b = false) ∧ p a = true := by
  rw [List.findIdx?_append]
  cases h : l.findIdx? p with
  | some i =>
    obtain ⟨hlt, hi, -⟩ := List.findIdx?_eq_some_iff_getElem.mp h
    refine iff_of_false (fun heq => ?_) (fun hnone => ?_)
    · rw [Option.some_or] at heq
      have := Option.some.inj heq
      omega
    · exact absurd hi (by rw [hnone.1 _ (List.getElem_mem hlt)]; decide)
  | none =>
    rw [List.findIdx?_eq_none_iff] at h
    rw [Option.none_or, and_iff_right h]
    cases hp : p a <;> simp [hp]

/-- The entry a creation appends is the one its identifier denotes. -/
theorem resolve_appended {l : List ContainerInfo} {info : ContainerInfo}
    (hfresh : info.id ∉ l.map ContainerInfo.id) :
    (l ++ [info]).findIdx? (fun c => c.id = info.id) = some l.length := by
  refine findIdx?_concat_eq_length_iff.mpr ⟨fun c hc => ?_, decide_eq_true rfl⟩
  exact decide_eq_false (fun he => hfresh (List.mem_map.mpr ⟨c, hc, he⟩))

/-- Removing the identifier of the last entry takes that entry out. -/
theorem eraseP_appended {l : List ContainerInfo} {info : ContainerInfo}
    (hfresh : info.id ∉ l.map ContainerInfo.id) :
    (l ++ [info]).eraseP (fun c => c.id = info.id) = l := by
  rw [List.eraseP_append_right, List.eraseP_cons_of_pos (by simp), List.append_nil]
  intro c hc he
  exact hfresh (List.mem_map.mpr ⟨c, hc, of_decide_eq_true he⟩)

/-- What `destroy` does to a container that is not running. -/
theorem containerManagerDestroy_of_idle {key : CStr} {i : ℕ} {info : ContainerInfo}
    (hi : w.cm.getInfo key = some i) (hinfo : w.cm.infoAt i = some info)
    (hstate : info.state ≠ .running) :
    containerManagerDestroy env key w = some (removeDestroyed env key info.id w) := by
  rw [containerManagerDestroy, hi]
  dsimp only
  rw [hinfo]
  exact if_neg hstate

/-- **Taking back a creation** leaves the entries there were before it. -/
theorem undoCreate_spec {config : ContainerConfig} (hw : w'.cm.WF) (hrm : w'.cm.rm = w.cm.rm)
    (hfile : ¬ env.stateFile = true → w'.file = w.file) {info : ContainerInfo}
    (hfresh : info.id ∉ w.cm.ids)
    (hentries : w'.cm.entries = w.cm.entries ++ [info]) (hstate : info.state ≠ .running)
    {e : Refusal} (h : undoCreate env info.id e w' = some (w'', r)) :
    Performs env (.run config) w w'' r := by
  have hres : w'.cm.getInfo info.id = some w.cm.entries.length := by
    rw [ContainerManager.getInfo_eq hw, ContainerManager.resolve, hentries,
      resolve_appended hfresh]
  have hinfo : w'.cm.infoAt w.cm.entries.length = some info := by
    rw [ContainerManager.infoAt_eq hw (ContainerManager.getInfo_lt hw hres)]
    simp only [hentries, List.getElem_concat_length]
  obtain ⟨hwf, hremoved, hrm'⟩ := ContainerManager.removeContainer_spec hw info.id
  rw [undoCreate, containerManagerDestroy_of_idle hres hinfo hstate] at h
  cases h
  refine Performs.of_save hwf (hrm'.trans hrm) hfile ?_
  show Effect env w.cm.entries _ _ (w'.cm.removeContainer info.id).entries
  rw [hremoved, hentries, eraseP_appended hfresh]
  exact Effect.refused (by trivial) _

/-- A creation that is not refused has appended its container. -/
theorem containerManagerCreate_ok (hw : w.cm.WF) {config : ContainerConfig}
    (h : containerManagerCreate env config w = some (w', .ok ())) :
    ∃ saved, copyContainerConfig env config = .copied saved ∧
      createdId w.cm.entries config ∉ w.cm.ids ∧
      w'.cm.entries = w.cm.entries
        ++ [createdInfo (createdId w.cm.entries config) env.createdAt saved] := by
  have hspec := (containerManagerCreate_spec hw h).effect
  generalize hl' : w'.cm.entries = l' at hspec
  cases hspec with
  | created hfresh hsaved => exact ⟨_, hsaved, hfresh, rfl⟩

/-- **`run` behind the creation of its container** takes the creation back,
or sets the container running. -/
theorem launchCreated_cases {containerId : CStr}
    (h : launchCreated env containerId w = some (w', r)) :
    (∃ (w₁ : World) (e : Refusal), w₁.cm = w.cm ∧ w₁.file = w.file ∧
      w₁.cg.dirs = w.cg.dirs ∧ undoCreate env containerId e w₁ = some (w', r)) ∨
    ∃ (w₁ : World) (i : ℕ) (info : ContainerInfo) (saved : ContainerConfig),
      w₁.cm = w.cm ∧ w₁.file = w.file ∧
      w.cm.findContainer containerId = some i ∧ w.cm.infoAt i = some info ∧
      info.savedConfig = some saved ∧ saved.command ≠ none ∧ 0 < saved.commandArgc ∧
      env.clone ≠ -1 ∧ r = .ok () ∧
      w' = ({ w₁ with cm := w₁.cm.updateAt i (launchedInfo env.clone env.now) } : World).save
        env := by
  unfold launchCreated at h
  split at h
  · exact Or.inl ⟨w, _, rfl, rfl, rfl, h⟩
  · next i hi =>
    split at h
    · cases h
    · next info hinfo =>
      split at h
      · exact Or.inl ⟨w, _, rfl, rfl, rfl, h⟩
      · next saved hsaved =>
        split at h
        · exact Or.inl ⟨w, _, rfl, rfl, rfl, h⟩
        · next hcommand =>
          split at h
          · cases h
          · next w₁ pid hclone =>
            obtain ⟨hcm, hfile, hpid⟩ := namespaceCreateContainerWithCgroup_spec hclone
            split at h
            · exact Or.inl ⟨w₁, _, hcm, hfile,
                namespaceCreateContainerWithCgroup_dirs hclone, h⟩
            · next hne =>
              obtain ⟨-, hargc, rfl⟩ := hpid hne
              cases h
              exact Or.inr ⟨w₁, i, info, saved, hcm, hfile, hi, hinfo, hsaved, hcommand, hargc,
                hne, rfl, rfl⟩

/-- Changing the last entry. -/
theorem modify_appended (l : List ContainerInfo) (info : ContainerInfo)
    (f : ContainerInfo → ContainerInfo) :
    (l ++ [info]).modify l.length f = l ++ [f info] := by
  rw [List.modify_eq_take_cons_drop (by simp)]
  simp

/-- What the rest of `run` does to a registry to which its container has just
been added. -/
theorem launchCreated_spec {config saved : ContainerConfig} (hw : w'.cm.WF)
    (hrm : w'.cm.rm = w.cm.rm) (hfile : ¬ env.stateFile = true → w'.file = w.file)
    (hfresh : createdId w.cm.entries config ∉ w.cm.ids)
    (hsaved : copyContainerConfig env { config with id := some (createdId w.cm.entries config) }
      = .copied saved)
    (hentries : w'.cm.entries = w.cm.entries
      ++ [createdInfo (createdId w.cm.entries config) env.createdAt saved])
    (h : launchCreated env (createdId w.cm.entries config) w' = some (w'', r)) :
    Performs env (.run config) w w'' r := by
  set info := createdInfo (createdId w.cm.entries config) env.createdAt saved with hdef
  have hres : w'.cm.findContainer info.id = some w.cm.entries.length := by
    rw [ContainerManager.findContainer_eq hw, hentries, resolve_appended hfresh]
  have hlt : w.cm.entries.length < w'.cm.entries.length := by
    rw [hentries, List.length_append, List.length_singleton]
    exact Nat.lt_succ_self _
  have hinfo : w'.cm.infoAt w.cm.entries.length = some info := by
    rw [ContainerManager.infoAt_eq hw hlt]
    simp only [hentries, List.getElem_concat_length]
  rcases launchCreated_cases h with ⟨w₁, e, hcm, hfile₁, -, hundo⟩ |
    ⟨w₁, i, info', saved', hcm, hfile₁, hi, hinfo', hconfig, hcommand, hargc, hne, rfl, rfl⟩
  · have hidle : info.state ≠ .running := by simp [hdef, createdInfo]
    exact undoCreate_spec (by rwa [hcm]) (by rwa [hcm]) (fun hn => hfile₁.trans (hfile hn)) hfresh
      (by rwa [hcm]) hidle hundo
  · -- what `find_container` points at is the entry that has just been added
    cases hres.symm.trans hi
    cases hinfo.symm.trans hinfo'
    cases hconfig
    obtain ⟨hwf, hmod, hrm'⟩ :=
      ContainerManager.updateAt_spec hw hlt (launchedInfo env.clone env.now)
    refine Performs.of_save ?_ ?_ (fun hn => hfile₁.trans (hfile hn)) ?_
    · show (w₁.cm.updateAt _ _).WF
      rwa [hcm]
    · show (w₁.cm.updateAt _ _).rm = _
      rw [hcm]
      exact hrm'.trans hrm
    · show Effect env _ _ _ (w₁.cm.updateAt _ _).entries
      rw [hcm, hmod, hentries, modify_appended]
      exact Effect.ran hfresh hsaved hcommand hargc hne

/-- `run` creates under the identifier `create` would choose. -/
theorem eq_createdId_of_runId (hw : w.cm.WF) {config : ContainerConfig} {containerId : CStr}
    (h : runId env w.cm config = some containerId) :
    containerId = createdId w.cm.entries config := by
  unfold runId at h
  unfold createdId
  cases hc : config.id with
  | some id =>
    rw [hc] at h
    exact (Option.some.inj h).symm
  | none =>
    rw [hc] at h
    dsimp only at h
    split at h
    · rw [← Option.some.inj h, ContainerManager.generateContainerId_eq hw]
      rfl
    · cases h

/-- **`run`** refuses or appends a running container. -/
theorem containerManagerRun_spec (hw : w.cm.WF) {config : ContainerConfig}
    (h : containerManagerRun env config w = some (w', r)) :
    Performs env (.run config) w w' r := by
  unfold containerManagerRun at h
  split at h
  · cases h
    exact Performs.of_refused hw (by trivial) rfl rfl
  · next containerId hrunId =>
    obtain rfl := eq_createdId_of_runId hw hrunId
    split at h
    · cases h
    · next w₁ e hcreate =>
      cases h
      have hspec := containerManagerCreate_spec hw hcreate
      refine ⟨hspec.wf, hspec.rm, ?_, hspec.file⟩
      -- a creation that is refused has changed nothing
      have heffect := hspec.effect
      generalize w'.cm.entries = l' at heffect ⊢
      cases heffect
      exact Effect.refused (by trivial) _
    · next w₁ hcreate =>
      have hspec := containerManagerCreate_spec hw hcreate
      obtain ⟨saved, hsaved, hfresh, hentries⟩ := containerManagerCreate_ok hw hcreate
      exact launchCreated_spec hspec.wf hspec.rm hspec.file_of_not hfresh hsaved hentries h

/-- **Every call that returns is an `Effect`** on the entries, and keeps the
registry well-formed. -/
theorem Call.perform_spec (hw : w.cm.WF) (h : call.perform env w = some (w', r)) :
    Performs env call w w' r := by
  cases call with
  | create config => exact containerManagerCreate_spec hw h
  | run config => exact containerManagerRun_spec hw h
  | start key => exact containerManagerStart_spec hw h
  | stop key => exact containerManagerStop_spec hw h
  | destroy key => exact containerManagerDestroy_spec hw h

/-! ## Atomicity -/

/-- A refused call changes no entry. -/
theorem Effect.eq_of_error {l l' : List ContainerInfo} {e : Refusal}
    (h : Effect env l call (.error e) l') : l' = l := by
  cases h with
  | refused => rfl

/-- **Failed operations are atomic, and the state file never drifts.** A
call that returns `-1` leaves the entries as they were, and where the file
held what is written for the registry before a call, it does so afterwards,
whatever the call returns. -/
theorem call_atomic (hw : w.cm.WF) (hwritable : env.stateFile = true)
    (h : call.perform env w = some (w', r)) :
    (r.code = -1 → w'.cm.entries = w.cm.entries) ∧
      (w.file = some (saveState w.cm) → w'.file = some (saveState w'.cm)) := by
  have hspec := Call.perform_spec hw h
  constructor
  · intro hr
    cases r with
    | ok u => exact absurd hr (by cases u; decide)
    | error e => exact hspec.effect.eq_of_error
  · intro hsaved
    rcases hspec.file with ⟨hfile, hentries⟩ | ⟨-, hfile⟩
    · rw [hfile, hsaved, saveState_congr (hentries hwritable)]
    · exact hfile

end

/-- `run` whose clone fails, beside a created container. -/
theorem call_atomic_clone_fails :
    ∃ w', (Call.run (.plain none ["sh".toList])).perform (.willing (-1) 101)
        (World.ofList [createdInfo ['a'] 100 (.plain none ["ls".toList])])
        = some (w', .error .notLaunched) ∧
      w'.cm.ids = [['a']] ∧ w'.file = some (saveState w'.cm) := by
  have hfails : (Call.run (.plain none ["sh".toList])).perform (.willing (-1) 101)
      (World.ofList [createdInfo ['a'] 100 (.plain none ["ls".toList])])
      = some (_, .error .notLaunched) := rfl
  have h := call_atomic (ContainerManager.ofList_wf _) rfl hfails
  exact ⟨_, hfails, congrArg (List.map ContainerInfo.id) (h.1 rfl), h.2 rfl⟩

/-! ## Identifiers and their configurations -/

/-- The entries, as far as they are identifiers and configurations. -/
def idConfigs (l : List ContainerInfo) : List (CStr × Option ContainerConfig) :=
  l.map (fun c => (c.id, c.savedConfig))

theorem fst_idConfigs (l : List ContainerInfo) :
    (idConfigs l).map Prod.fst = l.map ContainerInfo.id := by
  rw [idConfigs, List.map_map]
  rfl

section

variable {env : Env} {l l' : List ContainerInfo} {call : Call} {r : Result}
  {p : CStr × Option ContainerConfig}

/-- What holds of the identifiers that are given, and of numerals, holds of
those of creations. -/
theorem createdId_of {P : CStr → Prop} {config : ContainerConfig}
    (h : ∀ id, config.id = some id → P id)
    (hn : P (printDecimal (ContainerManager.nextNumber (l.map ContainerInfo.id)))) :
    P (createdId l config) := by
  unfold createdId
  cases hid : config.id with
  | some id => exact h id hid
  | none => exact hn

/-- Starting and stopping change neither. -/
theorem idConfigs_started (pid now : ℤ) (i : ℕ) :
    idConfigs (l.modify i (startedInfo pid now)) = idConfigs l :=
  map_modify (f := startedInfo pid now) (fun _ => rfl) l i

theorem idConfigs_stopped (now : ℤ) (i : ℕ) :
    idConfigs (l.modify i (stoppedInfo now)) = idConfigs l :=
  map_modify (f := stoppedInfo now) (fun _ => rfl) l i

/-- **What is new is under the identifier of a creation**, which no container
had. -/
theorem Effect.mem_idConfigs (h : Effect env l call r l') (hp : p ∈ idConfigs l') :
    p ∈ idConfigs l ∨ (p.1 ∉ l.map ContainerInfo.id ∧
      ∃ config, (call = .create config ∨ call = .run config) ∧ p.1 = createdId l config) := by
  have herase : ∀ {l : List ContainerInfo} {key : CStr},
      p ∈ idConfigs (l.eraseP (fun c => c.id = key)) → p ∈ idConfigs l :=
    fun hp => ((List.eraseP_sublist).map _).subset hp
  have happend : ∀ {info : ContainerInfo}, p ∈ idConfigs (l ++ [info]) →
      p ∈ idConfigs l ∨ p = (info.id, info.savedConfig) := by
    intro info hp
    rw [idConfigs, List.map_append, List.mem_append] at hp
    exact hp.imp_right List.mem_singleton.mp
  cases h with
  | refused => exact Or.inl hp
  | created hfresh =>
    rcases happend hp with hp | rfl
    · exact Or.inl hp
    · exact Or.inr ⟨hfresh, _, Or.inl rfl, rfl⟩
  | ran hfresh =>
    rcases happend hp with hp | rfl
    · exact Or.inl hp
    · exact Or.inr ⟨hfresh, _, Or.inr rfl, rfl⟩
  | started =>
    rw [idConfigs_started] at hp
    exact Or.inl hp
  | stopped =>
    rw [idConfigs_stopped] at hp
    exact Or.inl hp
  | destroyed => exact Or.inl (herase hp)
  | destroyedRunning hi hinfo hstate hstop =>
    have hp := herase hp
    cases hstop with
    | refused => exact Or.inl hp
    | stopped =>
      rw [idConfigs_stopped] at hp
      exact Or.inl hp

/-- What holds of the identifiers there are, and of those of creations, holds
of the identifiers after a call. -/
theorem Effect.forall_ids {P : CStr → Prop} (h : Effect env l call r l')
    (hl : ∀ id ∈ l.map ContainerInfo.id, P id)
    (hcall : ∀ config, (call = .create config ∨ call = .run config) → P (createdId l config)) :
    ∀ id ∈ l'.map ContainerInfo.id, P id := by
  intro id hid
  rw [← fst_idConfigs] at hid
  obtain ⟨p, hp, rfl⟩ := List.mem_map.mp hid
  rcases h.mem_idConfigs hp with hp | ⟨-, config, hcreated, hp⟩
  · refine hl p.1 ?_
    rw [← fst_idConfigs]
    exact List.mem_map_of_mem hp
  · rw [hp]
    exact hcall config hcreated

/-- **What is gone was destroyed**, under its identifier. -/
theorem Effect.idConfigs_mem (h : Effect env l call r l') (hp : p ∈ idConfigs l) :
    p ∈ idConfigs l' ∨ call = .destroy p.1 := by
  have happend : ∀ {info : ContainerInfo}, p ∈ idConfigs (l ++ [info]) := by
    intro info
    rw [idConfigs, List.map_append]
    exact List.mem_append_left _ hp
  have herase : ∀ {l : List ContainerInfo} {key : CStr}, p ∈ idConfigs l →
      p ∈ idConfigs (l.eraseP (fun c => c.id = key)) ∨ Call.destroy key = .destroy p.1 := by
    intro l key hp
    obtain ⟨c, hc, rfl⟩ := List.mem_map.mp hp
    by_cases hkey : c.id = key
    · exact Or.inr (by rw [hkey])
    · exact Or.inl (List.mem_map.mpr
        ⟨c, (List.mem_eraseP_of_neg (by simpa using hkey)).mpr hc, rfl⟩)
  cases h with
  | refused => exact Or.inl hp
  | created => exact Or.inl happend
  | ran => exact Or.inl happend
  | started =>
    rw [idConfigs_started]
    exact Or.inl hp
  | stopped =>
    rw [idConfigs_stopped]
    exact Or.inl hp
  | destroyed => exact herase hp
  | destroyedRunning hi hinfo hstate hstop =>
    refine herase ?_
    cases hstop with
    | refused => exact hp
    | stopped =>
      rw [idConfigs_stopped]
      exact hp

end
