import MiniContainer.Effect
import MiniContainer.Run
import MiniContainer.Reload

/-!
# Processes that share a state file

The state file is read once, when a process starts, and from then on only
written: whole, by every operation, when a process ends, and when it has
just started and found something. Nothing keeps two processes apart. A
process that writes does not know what another one has created since it
read, and its write takes the record of that container away.

`Shared.Step` is a step of one of any number of processes, one access to the
file at a time. `record_kept` says what it takes for a container to keep its
record: in every run in which no process writes unless it has created the
container itself, or has read the file since and the identifier of the
container denotes a number, there is a record of it all along, for as long
as nobody stops or destroys it.
-/

open CText StateFile

/-! ## Calls, one access at a time

`run` writes the file when it has created its container and again when that
is launched, and `destroy` when it has stopped a running container and again
when that is removed. Between the two other processes have their turn. -/

/-- What is left of a call. -/
inductive Pending
  | done
  /-- `run` has yet to launch a container. -/
  | launch (containerId : CStr)
  /-- `destroy` has yet to remove one. -/
  | remove (key containerId : CStr)
  deriving DecidableEq, Repr

/-- A call up to the first time it writes the state file. -/
def Call.first (env : Env) : Call → World → Option (World × Pending)
  | .create config, w => (containerManagerCreate env config w).map (fun r => (r.1, .done))
  | .start key, w => (containerManagerStart env key w).map (fun r => (r.1, .done))
  | .stop key, w => (containerManagerStop env key w).map (fun r => (r.1, .done))
  | .run config, w =>
    match runId env w.cm config with
    | none => some (w, .done)
    | some containerId =>
      match containerManagerCreate env { config with id := some containerId } w with
      | none => none
      | some (w, .error _) => some (w, .done)
      | some (w, .ok ()) => some (w, .launch containerId)
  | .destroy key, w =>
    match w.cm.getInfo key with
    | none => some (w, .done)
    | some i =>
      match w.cm.infoAt i with
      | none => none
      | some info =>
        if info.state = .running then
          -- also where `stop` is refused and nothing has been written
          (containerManagerStop env info.id w).map (fun r => (r.1, .remove key info.id))
        else some ((removeDestroyed env key info.id w).1, .done)

/-- The rest of a call. -/
def Pending.resume (env : Env) : Pending → World → Option World
  | .done, w => some w
  | .launch containerId, w => (launchCreated env containerId w).map Prod.fst
  | .remove key containerId, w => some (removeDestroyed env key containerId w).1

/-- **The two parts make the call.** -/
theorem Call.perform_eq (env : Env) (call : Call) (w : World) :
    (call.perform env w).map Prod.fst
      = (call.first env w).bind (fun r => r.2.resume env r.1) := by
  cases call with
  | create config =>
    show (containerManagerCreate env config w).map Prod.fst = _
    rw [Call.first]
    cases containerManagerCreate env config w <;> rfl
  | start key =>
    show (containerManagerStart env key w).map Prod.fst = _
    rw [Call.first]
    cases containerManagerStart env key w <;> rfl
  | stop key =>
    show (containerManagerStop env key w).map Prod.fst = _
    rw [Call.first]
    cases containerManagerStop env key w <;> rfl
  | run config =>
    show (containerManagerRun env config w).map Prod.fst = _
    rw [Call.first, containerManagerRun]
    cases runId env w.cm config with
    | none => rfl
    | some containerId =>
      dsimp only
      rcases containerManagerCreate env { config with id := some containerId } w with
        _ | ⟨w₁, e | ⟨⟩⟩
      · rfl
      · rfl
      · rfl
  | destroy key =>
    show (containerManagerDestroy env key w).map Prod.fst = _
    rw [Call.first, containerManagerDestroy]
    cases w.cm.getInfo key with
    | none => rfl
    | some i =>
      dsimp only
      cases w.cm.infoAt i with
      | none => rfl
      | some info =>
        dsimp only
        split
        · cases containerManagerStop env info.id w <;> rfl
        · rfl

/-- **What a part of a call does to the file**: nothing, or it writes the
registry it leaves. -/
def Saves (env : Env) (w w' : World) : Prop :=
  w'.file = w.file ∨ (env.stateFile = true ∧ w'.file = some (saveState w'.cm))

/-- **A key denotes a container** with an identifier. -/
def Denotes (l : List ContainerInfo) (key containerId : CStr) : Prop :=
  ∃ i info, ContainerManager.resolve l key = some i ∧ l[i]? = some info ∧ info.id = containerId

/-- **A call that ends a container**: it stops or destroys it. -/
def Call.Ends (l : List ContainerInfo) (containerId : CStr) : Call → Prop
  | .stop key => Denotes l key containerId
  | .destroy key => Denotes l key containerId
  | _ => False

/-- A call that launches a container there is. -/
def Call.Launches (l : List ContainerInfo) (containerId : CStr) : Call → Prop
  | .start key => Denotes l key containerId
  | _ => False

/-- **The rest of a call that ends a container**: `destroy` removes it, or
`run` takes it back. -/
def Pending.Ends (env : Env) (w : World) (containerId : CStr) : Pending → Prop
  | .done => False
  | .launch key => Denotes w.cm.entries key containerId ∧
      ∃ w' e, launchCreated env key w = some (w', .error e)
  | .remove key _ => key = containerId

/-- The rest of a call that launches a container. -/
def Pending.Launches (l : List ContainerInfo) (containerId : CStr) : Pending → Prop
  | .launch key => Denotes l key containerId
  | _ => False

/-- **A container that is in use**: it waits to be started, or it is running
and its process is alive. -/
def InUse (alive : ℤ → Prop) (info : ContainerInfo) : Prop :=
  info.state = .created ∨ (info.state = .running ∧ alive info.pid)

/-- A container that is in use, among others. -/
def Lives (alive : ℤ → Prop) (containerId : CStr) (l : List ContainerInfo) : Prop :=
  ∃ info ∈ l, info.id = containerId ∧ InUse alive info

section

variable {env : Env} {w w' : World} {alive : ℤ → Prop} {containerId : CStr}
  {l : List ContainerInfo}

theorem Performs.saves {call : Call} {r : Result} (h : Performs env call w w' r) :
    Saves env w w' := by
  rcases h.file with ⟨hfile, -⟩ | hfile
  · exact Or.inl hfile
  · exact Or.inr hfile

theorem Saves.save (h : w'.file = w.file) : Saves env w (w'.save env) := by
  by_cases hwritable : env.stateFile = true
  · refine Or.inr ⟨hwritable, ?_⟩
    rw [World.save_file w' hwritable, World.save_cm]
  · exact Or.inl (by rw [World.save_of_not w' hwritable, h])

/-- The identifier of a container denotes it, or one of the same
identifier. -/
theorem Denotes.eq_of_id {i : ℕ} {info : ContainerInfo} (hinfo : l[i]? = some info)
    (h : Denotes l info.id containerId) : info.id = containerId := by
  obtain ⟨j, info', hj, hinfo', rfl⟩ := h
  obtain ⟨j', hj', hlt, hid⟩ := ContainerManager.resolve_of_mem
    (List.mem_map.mpr ⟨info, List.mem_of_getElem? hinfo, rfl⟩)
  cases hj.symm.trans hj'
  rw [List.getElem?_eq_getElem hlt] at hinfo'
  cases hinfo'
  exact hid.symm

theorem Lives.denotes (h : Lives alive containerId l) : Denotes l containerId containerId := by
  obtain ⟨info, hmem, rfl, -⟩ := h
  obtain ⟨i, hi, hlt, hid⟩ :=
    ContainerManager.resolve_of_mem (List.mem_map.mpr ⟨info, hmem, rfl⟩)
  exact ⟨i, l[i], hi, List.getElem?_eq_getElem hlt, hid⟩

theorem Lives.append (h : Lives alive containerId l) (l' : List ContainerInfo) :
    Lives alive containerId (l ++ l') := by
  obtain ⟨info, hmem, hid, huse⟩ := h
  exact ⟨info, List.mem_append_left _ hmem, hid, huse⟩

/-- A change at one index matters if the container is there. -/
theorem Lives.modify (h : Lives alive containerId l) {i : ℕ} {f : ContainerInfo → ContainerInfo}
    (hf : ∀ info, l[i]? = some info → info.id = containerId → InUse alive info →
      (f info).id = containerId ∧ InUse alive (f info)) :
    Lives alive containerId (l.modify i f) := by
  obtain ⟨info, hmem, hid, huse⟩ := h
  obtain ⟨j, hj, rfl⟩ := List.mem_iff_getElem.mp hmem
  have hj' : j < (l.modify i f).length := by rwa [List.length_modify]
  refine ⟨(l.modify i f)[j], List.getElem_mem hj', ?_⟩
  rw [List.getElem_modify]
  split
  · next hij =>
    subst hij
    exact hf _ (List.getElem?_eq_getElem hj) hid huse
  · exact ⟨hid, huse⟩

theorem Lives.eraseP (h : Lives alive containerId l) {key : CStr} (hkey : key ≠ containerId) :
    Lives alive containerId (l.eraseP (fun c => c.id = key)) := by
  obtain ⟨info, hmem, rfl, huse⟩ := h
  refine ⟨info, (List.mem_eraseP_of_neg ?_).mpr hmem, rfl, huse⟩
  rw [decide_eq_true_iff]
  exact hkey.symm

/-- **A call leaves a container in use** unless it ends it. A container it
launches has to live. -/
theorem Effect.lives {call : Call} {r : Result} {l' : List ContainerInfo}
    (h : Effect env l call r l') (hends : ¬ call.Ends l containerId)
    (hlaunch : call.Launches l containerId → env.clone ≠ -1 → alive env.clone)
    (hl : Lives alive containerId l) : Lives alive containerId l' := by
  induction h with
  | refused => exact hl
  | created => exact hl.append _
  | ran => exact hl.append _
  | started hi hinfo hstate hconfig hcommand hargc hclone =>
    refine hl.modify (fun info hinfo hid _ => ⟨hid, Or.inr ⟨rfl, ?_⟩⟩)
    exact hlaunch ⟨_, info, hi, hinfo, hid⟩ hclone
  | stopped hi hinfo hstate =>
    exact hl.modify (fun info hinfo hid _ => absurd ⟨_, info, hi, hinfo, hid⟩ hends)
  | destroyed hi hinfo hstate =>
    refine hl.eraseP ?_
    rintro rfl
    exact hends hl.denotes
  | destroyedRunning hi hinfo hstate hstop ih =>
    -- the key denotes another container, and so does that one's identifier
    have hother := ih (fun hd => hends ⟨_, _, hi, hinfo, hd.eq_of_id hinfo⟩) (fun h => h.elim)
    refine hother.eraseP ?_
    rintro rfl
    exact hends hl.denotes

/-- **The first part of a call** does what some call does, and ends or
launches no container but those the whole call does. -/
theorem Call.first_spec {call : Call} {next : Pending} (hw : w.cm.WF)
    (h : call.first env w = some (w', next)) :
    ∃ call' r, Performs env call' w w' r ∧
      ∀ containerId, (call'.Ends w.cm.entries containerId → call.Ends w.cm.entries containerId) ∧
        (call'.Launches w.cm.entries containerId → call.Launches w.cm.entries containerId) := by
  cases call with
  | create config =>
    obtain ⟨⟨w₁, r⟩, hcreate, hr⟩ := Option.map_eq_some_iff.mp h
    cases hr
    exact ⟨_, r, containerManagerCreate_spec hw hcreate, fun _ => ⟨id, id⟩⟩
  | start key =>
    obtain ⟨⟨w₁, r⟩, hstart, hr⟩ := Option.map_eq_some_iff.mp h
    cases hr
    exact ⟨_, r, containerManagerStart_spec hw hstart, fun _ => ⟨id, id⟩⟩
  | stop key =>
    obtain ⟨⟨w₁, r⟩, hstop, hr⟩ := Option.map_eq_some_iff.mp h
    cases hr
    exact ⟨_, r, containerManagerStop_spec hw hstop, fun _ => ⟨id, id⟩⟩
  | run config =>
    rw [Call.first] at h
    split at h
    · cases h
      exact ⟨.run config, .error .noId, Performs.of_refused hw (by trivial) rfl rfl,
        fun _ => ⟨id, id⟩⟩
    · split at h
      · cases h
      · next hcreate =>
        cases h
        exact ⟨_, _, containerManagerCreate_spec hw hcreate, fun _ => ⟨id, id⟩⟩
      · next hcreate =>
        cases h
        exact ⟨_, _, containerManagerCreate_spec hw hcreate, fun _ => ⟨id, id⟩⟩
  | destroy key =>
    rw [Call.first] at h
    split at h
    · next hi =>
      cases h
      rw [ContainerManager.getInfo_eq hw] at hi
      exact ⟨.destroy key, .error .notFound, Performs.of_refused hw (by exact hi) rfl rfl,
        fun _ => ⟨id, id⟩⟩
    · next i hi =>
      split at h
      · cases h
      · next info hinfo =>
        obtain ⟨hres, hget⟩ := entry_of_getInfo hw hi hinfo
        split at h
        · obtain ⟨⟨w₁, r⟩, hstop, hr⟩ := Option.map_eq_some_iff.mp h
          cases hr
          refine ⟨_, r, containerManagerStop_spec hw hstop, fun containerId => ⟨?_, id⟩⟩
          exact fun hends => ⟨i, info, hres, hget, hends.eq_of_id hget⟩
        · next hstate =>
          cases h
          exact ⟨_, _, removeDestroyed_spec hw rfl (fun _ => rfl)
            (Effect.destroyed hres hget hstate), fun _ => ⟨id, id⟩⟩

/-- **The rest of a call** keeps the registry well-formed, writes what it
leaves or nothing, and leaves a container in use unless it ends it. -/
theorem Pending.resume_spec {next : Pending} (hw : w.cm.WF) (h : next.resume env w = some w') :
    w'.cm.WF ∧ Saves env w w' ∧
      ∀ (alive : ℤ → Prop) (containerId : CStr), ¬ next.Ends env w containerId →
        (next.Launches w.cm.entries containerId → env.clone ≠ -1 → alive env.clone) →
        Lives alive containerId w.cm.entries → Lives alive containerId w'.cm.entries := by
  cases next with
  | done =>
    cases h
    exact ⟨hw, Or.inl rfl, fun _ _ _ _ hl => hl⟩
  | remove key containerId' =>
    cases h
    obtain ⟨hwf, hentries, -⟩ := ContainerManager.removeContainer_spec hw key
    refine ⟨?_, Saves.save rfl, fun alive containerId hends _ hl => ?_⟩
    · rw [removeDestroyed, World.save_cm]
      exact hwf
    · rw [removeDestroyed, World.save_cm]
      show Lives alive containerId (w.cm.removeContainer key).entries
      rw [hentries]
      exact hl.eraseP hends
  | launch key =>
    obtain ⟨⟨w₁, r⟩, hlaunched, hr⟩ := Option.map_eq_some_iff.mp h
    cases hr
    rcases launchCreated_cases hlaunched with ⟨w₂, e, hcm, hfile, -, hundo⟩ |
      ⟨w₂, i, info, saved, hcm, hfile, hi, hinfo, -, -, -, hclone, rfl, rfl⟩
    · obtain ⟨⟨w₃, r₃⟩, hdestroy, hr⟩ := Option.map_eq_some_iff.mp hundo
      cases hr
      have hspec := containerManagerDestroy_spec (by rwa [hcm]) hdestroy
      have hsaves := hspec.saves
      have heffect := hspec.effect
      rw [Saves, hfile] at hsaves
      rw [hcm] at heffect
      refine ⟨hspec.wf, hsaves, fun alive containerId hends _ hl => ?_⟩
      exact heffect.lives (fun hd => hends ⟨hd, w₃, e, hlaunched⟩) (fun h => h.elim) hl
    · obtain ⟨hlt, -⟩ := ContainerManager.findContainer_spec hw hi
      obtain ⟨hwf, hentries, -⟩ :=
        ContainerManager.updateAt_spec hw hlt (launchedInfo env.clone env.now)
      refine ⟨?_, Saves.save hfile, fun alive containerId _ hlaunch hl => ?_⟩
      · rw [World.save_cm]
        show (w₂.cm.updateAt i _).WF
        rwa [hcm]
      · rw [World.save_cm]
        show Lives alive containerId (w₂.cm.updateAt i _).entries
        rw [hcm, hentries]
        refine hl.modify (fun info' hinfo' hid _ => ⟨hid, Or.inr ⟨rfl, ?_⟩⟩)
        have hres : ContainerManager.resolve w.cm.entries key = some i := by
          rw [ContainerManager.findContainer_eq hw] at hi
          rw [ContainerManager.resolve, hi]
        exact hlaunch ⟨i, info', hres, hinfo', hid⟩ hclone

end

/-! ## Processes -/

/-- A process: its registry, what `save_state` is about to write, and what
is left of the call it is in. -/
structure Proc where
  cm : ContainerManager
  out : Option CStr
  next : Pending

/-- The part of `container_manager_init` up to `save_state`. -/
def initLoad (env : InitEnv) (maxContainers : ℤ) (file : Option CStr) : Option Proc :=
  if ¬ env.alloc then none
  else
    match resourceManagerInit env.host basePath with
    | none => none
    | some rm =>
      let fresh := ContainerManager.fresh rm (initialCapacity maxContainers)
      match file with
      | none => some ⟨fresh, none, .done⟩
      | some text =>
        let loaded := loadState env.load text fresh
        some ⟨loaded.1, if loaded.2 > 0 ∧ env.stateFile then some (saveState loaded.1) else none,
          .done⟩

/-- Where nothing comes between them, reading and writing are `init`. -/
theorem containerManagerInit_eq (env : InitEnv) (maxContainers : ℤ) (file : Option CStr) :
    containerManagerInit env maxContainers file
      = (initLoad env maxContainers file).map (fun p => (p.cm, p.out <|> file)) := by
  unfold containerManagerInit initLoad
  split
  · rfl
  · cases resourceManagerInit env.host basePath with
    | none => rfl
    | some rm =>
      cases file with
      | none => rfl
      | some text =>
        dsimp only
        split <;> rfl

/-- What is read, and what is then about to be written. -/
theorem initLoad_spec {env : InitEnv} {maxContainers : ℤ} {file : Option CStr} {proc : Proc}
    (h : initLoad env maxContainers file = some proc) :
    (proc.cm.WF ∧ ∀ text, proc.out = some text → text = saveState proc.cm) ∧
      ∀ text, file = some text → ∃ fresh : ContainerManager, fresh.WF ∧ fresh.entries = [] ∧
        proc.cm = (loadState env.load text fresh).1 := by
  unfold initLoad at h
  split at h
  · cases h
  · split at h
    · cases h
    · next rm hrm =>
      split at h
      · cases h
        exact ⟨⟨ContainerManager.fresh_wf rm (initialCapacity_pos maxContainers),
          (fun _ ht => nomatch ht)⟩, (fun _ ht => nomatch ht)⟩
      · next text =>
        cases h
        have hwf := ContainerManager.fresh_wf rm (initialCapacity_pos maxContainers)
        refine ⟨⟨(loadState_loaded env.load text hwf rfl).1, ?_⟩, ?_⟩
        · intro text' ht
          dsimp only at ht
          split at ht
          · exact (Option.some.inj ht).symm
          · cases ht
        · intro text' ht
          cases ht
          exact ⟨.fresh rm (initialCapacity maxContainers), hwf, rfl, rfl⟩

/-- What a process does next. -/
inductive Shared.Act
  /-- It starts, and reads the state file. -/
  | load (env : InitEnv) (maxContainers : ℤ)
  /-- It begins a call. -/
  | call (env : Env) (call : Call)
  /-- It goes on with it. -/
  | resume (env : Env)
  /-- It writes the state file. -/
  | write
  /-- It ends with `container_manager_cleanup`. -/
  | cleanup (stateFile : Bool)
  /-- It ends without. -/
  | quit

/-- **Processes on a host**: the state file and the control groups they
share, and those of them that are running. -/
structure Shared (ι : Type) where
  file : Option CStr
  cg : CgroupFs
  procs : ι → Option Proc

namespace Shared

variable {ι : Type} [DecidableEq ι]

/-- What a process works on. What is written stays with it until its turn
to write comes. -/
def world (s : Shared ι) (proc : Proc) : World where
  cm := proc.cm
  file := none
  cg := s.cg
  launches := []
  killed := []

/-- No process is running. -/
def start (file : Option CStr) (cg : CgroupFs) : Shared ι where
  file := file
  cg := cg
  procs := fun _ => none

/-- **A step of one process.** It does one thing at a time: as long as it
has something to write, it writes. -/
inductive Step (s : Shared ι) : ι × Act → Shared ι → Prop
  | load {p : ι} {env : InitEnv} {maxContainers : ℤ} {proc : Proc} (hp : s.procs p = none)
      (h : initLoad env maxContainers s.file = some proc) :
      Step s (p, .load env maxContainers)
        { s with procs := Function.update s.procs p (some proc) }
  | call {p : ι} {env : Env} {call : Call} {proc : Proc} {w : World} {next : Pending}
      (hp : s.procs p = some proc) (hout : proc.out = none) (hnext : proc.next = .done)
      (h : call.first env (s.world proc) = some (w, next)) :
      Step s (p, .call env call)
        { s with
          cg := w.cg
          procs := Function.update s.procs p (some ⟨w.cm, w.file, next⟩) }
  | resume {p : ι} {env : Env} {proc : Proc} {w : World}
      (hp : s.procs p = some proc) (hout : proc.out = none) (hnext : proc.next ≠ .done)
      (h : proc.next.resume env (s.world proc) = some w) :
      Step s (p, .resume env)
        { s with
          cg := w.cg
          procs := Function.update s.procs p (some ⟨w.cm, w.file, .done⟩) }
  | write {p : ι} {proc : Proc} {text : CStr} (hp : s.procs p = some proc)
      (hout : proc.out = some text) :
      Step s (p, .write)
        { s with
          file := some text
          procs := Function.update s.procs p (some { proc with out := none }) }
  | cleanup {p : ι} {stateFile : Bool} {proc : Proc} (hp : s.procs p = some proc)
      (hout : proc.out = none) (hnext : proc.next = .done) :
      Step s (p, .cleanup stateFile)
        { s with
          file := containerManagerCleanup stateFile proc.cm s.file
          procs := Function.update s.procs p none }
  | quit {p : ι} {proc : Proc} (hp : s.procs p = some proc) (hout : proc.out = none)
      (hnext : proc.next = .done) :
      Step s (p, .quit) { s with procs := Function.update s.procs p none }

/-- **Registries are well-formed**, and what is about to be written is the
registry of the process. -/
def Sound (s : Shared ι) : Prop :=
  ∀ p proc, s.procs p = some proc →
    proc.cm.WF ∧ ∀ text, proc.out = some text → text = saveState proc.cm

variable {s s' : Shared ι} {p : ι} {a : Act}

theorem sound_update {cg : CgroupFs} {file : Option CStr} (h : s.Sound) {proc : Option Proc}
    (hproc : ∀ proc', proc = some proc' →
      proc'.cm.WF ∧ ∀ text, proc'.out = some text → text = saveState proc'.cm) :
    ({ file := file, cg := cg, procs := Function.update s.procs p proc } : Shared ι).Sound := by
  intro q proc' hq
  dsimp only at hq
  by_cases hqp : q = p
  · subst hqp
    rw [Function.update_self] at hq
    exact hproc proc' hq
  · rw [Function.update_of_ne hqp] at hq
    exact h q proc' hq

omit [DecidableEq ι] in
/-- A part of a call on a file of its own. -/
theorem out_eq_of_saves {env : Env} {proc : Proc} {w : World}
    (h : Saves env (s.world proc) w) {text : CStr} (hout : w.file = some text) :
    text = saveState w.cm := by
  rcases h with h | ⟨-, h⟩
  · rw [hout] at h
    cases h
  · exact Option.some.inj (hout.symm.trans h)

theorem Sound.step (h : s.Sound) (hstep : Step s (p, a) s') : s'.Sound := by
  cases hstep with
  | load hp hload =>
    refine sound_update h (fun proc' he => ?_)
    cases he
    exact (initLoad_spec hload).1
  | @call _ _ _ proc _ _ hp hout hnext hfirst =>
    refine sound_update h (fun proc' he => ?_)
    cases he
    obtain ⟨call', r, hspec, -⟩ := Call.first_spec (w := s.world proc) (h p proc hp).1 hfirst
    exact ⟨hspec.wf, fun _ => out_eq_of_saves hspec.saves⟩
  | @resume _ _ proc _ hp hout hnext hresume =>
    refine sound_update h (fun proc' he => ?_)
    cases he
    obtain ⟨hwf, hsaves, -⟩ := Pending.resume_spec (w := s.world proc) (h p proc hp).1 hresume
    exact ⟨hwf, fun _ => out_eq_of_saves hsaves⟩
  | write hp hout =>
    refine sound_update h (fun proc' he => ?_)
    cases he
    exact ⟨(h p _ hp).1, (fun _ he => nomatch he)⟩
  | cleanup hp hout hnext => exact sound_update h (fun _ he => nomatch he)
  | quit hp hout hnext => exact sound_update h (fun _ he => nomatch he)

/-! ## The record of a container -/

/-- **A record in the file**, under an identifier. -/
def HasRecord (file : Option CStr) (containerId : CStr) : Prop :=
  ∃ text info, file = some text ∧ info.id = containerId ∧ recordBody info ++ ['}'] <:+: text

theorem hasRecord_of_mem {cm : ContainerManager} {info : ContainerInfo} (h : info ∈ cm.entries) :
    HasRecord (some (saveState cm)) info.id := by
  have hrecords : ∀ l : List ContainerInfo, info ∈ l →
      recordBody info ++ ['}'] <:+: recordsText l := by
    intro l hl
    induction l with
    | nil => exact absurd hl List.not_mem_nil
    | cons info' rest ih =>
      rw [recordsText, List.append_cons (recordBody info')]
      rcases List.mem_cons.mp hl with rfl | hl
      · exact (List.prefix_append _ _).isInfix
      · exact (ih hl).trans ((List.suffix_append_of_suffix (List.suffix_append_of_suffix
          (List.suffix_cons _ _))).isInfix)
  refine ⟨_, info, rfl, rfl, (hrecords _ h).trans ?_⟩
  exact List.infix_append' _ _ _

/-- **A step that ends a container**: a process stops or destroys it. -/
def Ends (containerId : CStr) (s : Shared ι) : ι × Act → Prop
  | (p, .call _ call) => ∃ proc, s.procs p = some proc ∧ call.Ends proc.cm.entries containerId
  | (p, .resume env) =>
    ∃ proc, s.procs p = some proc ∧ proc.next.Ends env (s.world proc) containerId
  | _ => False

/-- A step that launches a container, with the pid `clone` returns. -/
def Launches (containerId : CStr) (s : Shared ι) : ι × Act → ℤ → Prop
  | (p, .call env call), pid =>
    ∃ proc, s.procs p = some proc ∧ call.Launches proc.cm.entries containerId ∧ env.clone = pid
  | (p, .resume env), pid =>
    ∃ proc, s.procs p = some proc ∧ proc.next.Launches proc.cm.entries containerId ∧
      env.clone = pid
  | _, _ => False

/-- **Nobody disturbs the container**: no process stops or destroys it, its
process lives once it is launched, and a process that starts finds it
alive. -/
structure Undisturbed (alive : ℤ → Prop) (containerId : CStr) (s : Shared ι) (e : ι × Act) :
    Prop where
  ends : ¬ Ends containerId s e
  launches : ∀ pid, Launches containerId s e pid → pid ≠ -1 → alive pid
  found : ∀ env maxContainers, e.2 = .load env maxContainers →
    ∀ pid, alive pid → isPidAlive env.load pid = true

/-- A step that writes the state file. -/
def Act.Writes : Act → Prop
  | .write => True
  | .cleanup stateFile => stateFile = true
  | _ => False

/-- **The processes that know of a container**: those that did, without one
that starts, which knows of it exactly if its identifier denotes a
number. -/
def knows (containerId : CStr) (known : ι → Prop) : ι × Act → ι → Prop
  | (p, .load _ _) => Function.update known p (Kept containerId)
  | _ => known

/-- **A step that is taken with care**: a process writes only if it knows of
the container, and only what can be read back. -/
structure Careful (known : ι → Prop) (s : Shared ι) (e : ι × Act) : Prop where
  known : e.2.Writes → known e.1
  storable : e.2.Writes → ∀ proc, s.procs e.1 = some proc →
    ∀ info ∈ proc.cm.entries, Storable info

/-- A step with care, of a container that nobody disturbs. -/
def CarefulStep (alive : ℤ → Prop) (containerId : CStr) (σ : Shared ι × (ι → Prop))
    (e : ι × Act) (σ' : Shared ι × (ι → Prop)) : Prop :=
  Step σ.1 e σ'.1 ∧ Undisturbed alive containerId σ.1 e ∧ Careful σ.2 σ.1 e ∧
    σ'.2 = knows containerId σ.2 e

section

variable {alive : ℤ → Prop} {containerId : CStr}

/-- **A process that starts finds a container that is in use**, if its
identifier denotes a number. -/
theorem Lives.load {env : LoadEnv} {saved fresh : ContainerManager}
    (h : Lives alive containerId saved.entries) (hsaved : ∀ info ∈ saved.entries, Storable info)
    (hwf : fresh.WF) (hempty : fresh.entries = []) (hkept : Kept containerId)
    (halive : ∀ pid, alive pid → isPidAlive env pid = true) :
    Lives alive containerId (loadState env (saveState saved) fresh).1.entries := by
  obtain ⟨info, hmem, rfl, huse⟩ := h
  have hsurvives : survives env info = true := by
    rcases huse with hstate | ⟨hstate, hpid⟩
    · simp [survives, hstate]
    · simp [survives, hstate, halive info.pid hpid]
  refine ⟨{ info with savedConfig := none }, ?_, rfl, huse⟩
  rw [entries_loadState_saveState env hsaved hwf hempty]
  exact mem_reload (List.mem_filter.mpr ⟨hmem, hsurvives⟩) hkept 0

/-- **What holds all along**: the file was written for a registry in which
the container is in use, and it is in use in every process that knows of
it. -/
structure Inv (alive : ℤ → Prop) (containerId : CStr) (σ : Shared ι × (ι → Prop)) : Prop where
  sound : σ.1.Sound
  file : ∃ cm, σ.1.file = some (saveState cm) ∧ (∀ info ∈ cm.entries, Storable info) ∧
    Lives alive containerId cm.entries
  procs : ∀ p, σ.2 p → ∀ proc, σ.1.procs p = some proc →
    Lives alive containerId proc.cm.entries

/-- Only one process changes in a step. -/
theorem lives_update {procs : ι → Option Proc} {known known' : ι → Prop}
    (h : ∀ q, known q → ∀ proc, procs q = some proc → Lives alive containerId proc.cm.entries)
    {p : ι}
    (hknown : ∀ q, q ≠ p → known' q → known q) {proc : Option Proc}
    (hproc : known' p → ∀ proc', proc = some proc' → Lives alive containerId proc'.cm.entries) :
    ∀ q, known' q → ∀ proc', Function.update procs p proc q = some proc' →
      Lives alive containerId proc'.cm.entries := by
  intro q hq proc' he
  by_cases hqp : q = p
  · subst hqp
    rw [Function.update_self] at he
    exact hproc hq proc' he
  · rw [Function.update_of_ne hqp] at he
    exact h q (hknown q hqp hq) proc' he

variable {σ σ' : Shared ι × (ι → Prop)} {e : ι × Act}

/-- **The file**: a process that writes has the container in use, and the
others leave the file as it is. -/
theorem Inv.file_step {s s' : Shared ι} {known : ι → Prop} {p : ι} {a : Act}
    (h : Inv alive containerId (s, known)) (hstep : Step s (p, a) s')
    (hcareful : Careful known s (p, a)) :
    ∃ cm, s'.file = some (saveState cm) ∧ (∀ info ∈ cm.entries, Storable info) ∧
      Lives alive containerId cm.entries := by
  cases hstep with
  | load hp hload => exact h.file
  | call hp hout hnext hfirst => exact h.file
  | resume hp hout hnext hresume => exact h.file
  | quit hp hout hnext => exact h.file
  | @write _ proc text hp hout =>
    refine ⟨proc.cm, congrArg some ((h.sound p proc hp).2 text hout), ?_, ?_⟩
    · exact hcareful.storable trivial proc hp
    · exact h.procs p (hcareful.known trivial) proc hp
  | @cleanup _ stateFile proc hp hout hnext =>
    show ∃ cm, containerManagerCleanup stateFile proc.cm s.file = some (saveState cm) ∧ _
    by_cases hwrites : stateFile = true
    · rw [containerManagerCleanup, if_pos hwrites]
      exact ⟨proc.cm, rfl, hcareful.storable hwrites proc hp,
        h.procs p (hcareful.known hwrites) proc hp⟩
    · rw [containerManagerCleanup, if_neg hwrites]
      exact h.file

/-- **The processes**: one that starts finds the container in the file, and
what the others do leaves it in use. -/
theorem Inv.procs_step {s s' : Shared ι} {known : ι → Prop} {p : ι} {a : Act}
    (h : Inv alive containerId (s, known)) (hstep : Step s (p, a) s')
    (hundisturbed : Undisturbed alive containerId s (p, a)) :
    ∀ q, knows containerId known (p, a) q → ∀ proc, s'.procs q = some proc →
      Lives alive containerId proc.cm.entries := by
  cases hstep with
  | @load _ env maxContainers proc hp hload =>
    have hsame : ∀ q, q ≠ p → knows containerId known (p, .load env maxContainers) q →
        known q := by
      intro q hqp hq
      rwa [knows, Function.update_of_ne hqp] at hq
    refine lives_update h.procs hsame (fun hkept proc' he => ?_)
    cases he
    rw [knows, Function.update_self] at hkept
    obtain ⟨cm, hfile, hstorable, hlives⟩ := h.file
    obtain ⟨fresh, hwf, hempty, hcm⟩ := (initLoad_spec hload).2 _ hfile
    rw [hcm]
    exact Lives.load hlives hstorable hwf hempty hkept (hundisturbed.found env maxContainers rfl)
  | @call _ env call proc w next hp hout hnext hfirst =>
    refine lives_update h.procs (fun _ _ hq => hq) (fun hq proc' he => ?_)
    cases he
    obtain ⟨call', r, hspec, hsame⟩ :=
      Call.first_spec (w := s.world proc) (h.sound p proc hp).1 hfirst
    refine hspec.effect.lives (fun hends => ?_) (fun hlaunch => ?_) (h.procs p hq proc hp)
    · exact hundisturbed.ends ⟨proc, hp, (hsame containerId).1 hends⟩
    · exact hundisturbed.launches env.clone ⟨proc, hp, (hsame containerId).2 hlaunch, rfl⟩
  | @resume _ env proc w hp hout hnext hresume =>
    refine lives_update h.procs (fun _ _ hq => hq) (fun hq proc' he => ?_)
    cases he
    obtain ⟨-, -, hlives⟩ := Pending.resume_spec (w := s.world proc) (h.sound p proc hp).1 hresume
    refine hlives alive containerId (fun hends => ?_) (fun hlaunch => ?_) (h.procs p hq proc hp)
    · exact hundisturbed.ends ⟨proc, hp, hends⟩
    · exact hundisturbed.launches env.clone ⟨proc, hp, hlaunch, rfl⟩
  | @write _ proc text hp hout =>
    refine lives_update h.procs (fun _ _ hq => hq) (fun hq proc' he => ?_)
    cases he
    exact h.procs p hq proc hp
  | cleanup hp hout hnext =>
    exact lives_update h.procs (fun _ _ hq => hq) (fun _ _ he => nomatch he)
  | quit hp hout hnext =>
    exact lives_update h.procs (fun _ _ hq => hq) (fun _ _ he => nomatch he)

/-- **Every step with care keeps it.** -/
theorem Inv.step (h : Inv alive containerId σ) (hstep : CarefulStep alive containerId σ e σ') :
    Inv alive containerId σ' := by
  obtain ⟨s, known⟩ := σ
  obtain ⟨s', known'⟩ := σ'
  obtain ⟨p, a⟩ := e
  obtain ⟨hstep, hundisturbed, hcareful, hknown⟩ := hstep
  dsimp only at hstep hundisturbed hcareful hknown
  subst hknown
  exact ⟨h.sound.step hstep, h.file_step hstep hcareful, h.procs_step hstep hundisturbed⟩

/-- **A container keeps its record as long as every process that writes
knows of it.** A process has created the container and written the state
file. From then on there is a record of the container after every step, in
every run of any processes in which nobody stops or destroys it, nobody
writes an identifier that cannot be read back, and nobody writes at all who
has not created the container himself, or read the file since and its
identifier denotes a number. -/
theorem record_kept {file : Option CStr} {cg : CgroupFs} {es₁ es : List (ι × Act)}
    {s₁ s₂ s : Shared ι} {known : ι → Prop} {creator : ι} {proc : Proc}
    (hrun₁ : Run Step (start file cg) es₁ s₁)
    (hcreator : s₁.procs creator = some proc) (hlives : Lives alive containerId proc.cm.entries)
    (hstorable : ∀ info ∈ proc.cm.entries, Storable info)
    (hwrite : Step s₁ (creator, .write) s₂)
    (hrun : Run (CarefulStep alive containerId) (s₂, (· = creator)) es (s, known)) :
    HasRecord s.file containerId := by
  have hstart : (start file cg : Shared ι).Sound := by
    intro q proc' hq
    cases hq
  have hsound : s₁.Sound := hrun₁.invariant (fun _ _ _ h hstep => h.step hstep) hstart
  have hinv : Inv alive containerId (s₂, (· = creator)) := by
    refine ⟨hsound.step hwrite, ?_, ?_⟩
    · cases hwrite with
      | @write _ proc' text hp hout =>
        cases hcreator.symm.trans hp
        exact ⟨proc.cm, congrArg some ((hsound creator proc hp).2 text hout), hstorable, hlives⟩
    · rintro q rfl proc' hq
      cases hwrite with
      | @write _ proc'' text hp hout =>
        cases hcreator.symm.trans hp
        cases (Function.update_self _ _ _).symm.trans hq
        exact hlives
  obtain ⟨cm, hfile, -, info, hmem, rfl, -⟩ :=
    (hrun.invariant (fun _ _ _ h hstep => h.step hstep) hinv).file
  dsimp only at hfile
  rw [hfile]
  exact hasRecord_of_mem hmem

end

/-- **A process that ends takes the records of others with it.** Both
processes start before there is a state file; one of them creates a
container, and the other one ends. -/
theorem record_lost :
    ∃ s : Shared Bool, Run Step (start none ⟨[], fun _ => []⟩)
        [(false, .load (.willing 200) 0), (true, .load (.willing 200) 0),
          (false, .call (.willing 7 100) (.create (.plain (some ['1']) []))), (false, .write),
          (true, .cleanup true)] s ∧
      (∃ proc, s.procs false = some proc ∧ Lives (fun _ => False) ['1'] proc.cm.entries) ∧
      ¬ HasRecord s.file ['1'] := by
  refine ⟨_, .cons (.load rfl rfl) <| .cons (.load rfl rfl) <|
    .cons (.call rfl rfl rfl rfl) <| .cons (.write rfl rfl) <|
    .cons (.cleanup rfl rfl rfl) .nil, ⟨_, rfl, ?_⟩, ?_⟩
  · exact ⟨_, List.mem_singleton_self _, rfl, Or.inl rfl⟩
  · rintro ⟨text, info, hfile, -, hrecord⟩
    have htext : text = header ++ footer := (Option.some.inj hfile).symm
    -- a record has a letter in it that a file without records has not
    have hkey : 'd' ∈ quoted "id".toList := by decide
    have hd : 'd' ∈ recordBody info ++ ['}'] := by
      rw [recordBody_eq, fprintField_eq]
      exact List.mem_append_left _ (List.mem_append_right _ (List.mem_append_left _
        (List.mem_append_right _ (List.mem_append_left _ hkey))))
    rw [htext] at hrecord
    exact absurd (hrecord.subset hd) (by decide)

/-- Only a call disturbs a container whose process does not live. -/
theorem undisturbed_of_not_call {ι : Type} {s : Shared ι} {e : ι × Act}
    (hcall : ∀ env call, e.2 ≠ .call env call) (hresume : ∀ env, e.2 ≠ .resume env)
    (containerId : CStr) : Undisturbed (fun _ => False) containerId s e := by
  obtain ⟨p, a⟩ := e
  refine ⟨fun hends => ?_, fun pid hlaunches => ?_, fun _ _ _ _ halive => halive.elim⟩
  · cases a with
    | call env call => exact absurd rfl (hcall env call)
    | resume env => exact absurd rfl (hresume env)
    | _ => exact hends
  · cases a with
    | call env call => exact absurd rfl (hcall env call)
    | resume env => exact absurd rfl (hresume env)
    | _ => exact hlaunches.elim

/-- A container called `1` that waits to be started. -/
def waitingOne (savedConfig : Option ContainerConfig) : ContainerInfo :=
  ⟨['1'], 0, .created, 100, 0, 0, savedConfig⟩

/-- A process that has read the file leaves the record there when it
ends. -/
theorem record_kept_one :
    ∃ s : Shared Bool, Run Step (start none ⟨[], fun _ => []⟩)
        [(false, .load (.willing 200) 0),
          (false, .call (.willing 7 100) (.create (.plain (some ['1']) []))), (false, .write),
          (true, .load (.willing 200) 0), (true, .write), (true, .cleanup true)] s ∧
      HasRecord s.file ['1'] := by
  have hrun₁ : Run Step (start none ⟨[], fun _ => []⟩ : Shared Bool)
      [(false, .load (.willing 200) 0),
        (false, .call (.willing 7 100) (.create (.plain (some ['1']) [])))] _ :=
    .cons (.load rfl rfl) <| .cons (.call rfl rfl rfl rfl) .nil
  have hlives : ∀ {cm : ContainerManager} {savedConfig}, cm.entries = [waitingOne savedConfig] →
      Lives (fun _ => False) ['1'] cm.entries :=
    fun hentries => ⟨_, hentries ▸ List.mem_singleton_self _, rfl, Or.inl rfl⟩
  have hstorable : ∀ {cm : ContainerManager} {savedConfig},
      cm.entries = [waitingOne savedConfig] → ∀ info ∈ cm.entries, Storable info := by
    intro cm savedConfig hentries info hmem
    rw [hentries] at hmem
    rw [List.mem_singleton.mp hmem]
    have hid : PlainId ['1'] := plainId_printDecimal (n := 1) (by decide)
    have hint : IsInt 0 := by decide
    exact ⟨hid, hint, hint, (by decide : IsLong 100), hint.isLong, hint.isLong⟩
  have hstep : ∀ {s s' : Shared Bool} {known : Bool → Prop} {e : Bool × Act},
      Step s e s' → (∀ env call, e.2 ≠ .call env call) → (∀ env, e.2 ≠ .resume env) →
      Careful known s e →
      CarefulStep (fun _ => False) ['1'] (s, known) e (s', knows ['1'] known e) :=
    fun hstep hcall hresume hcareful =>
      ⟨hstep, undisturbed_of_not_call hcall hresume ['1'], hcareful, rfl⟩
  have hkept := record_kept hrun₁ (show procs _ false = _ from rfl) (hlives rfl) (hstorable rfl)
    (.write rfl rfl)
    (show Run _ _ [(true, .load (.willing 200) 0), (true, .write), (true, .cleanup true)] _ from
      .cons (hstep (.load rfl rfl) (by simp) (by simp) ?_) <|
      .cons (hstep (.write rfl rfl) (by simp) (by simp) ?_) <|
      .cons (hstep (.cleanup rfl rfl rfl) (by simp) (by simp) ?_) .nil)
  · exact ⟨_, hrun₁.append <| .cons (.write rfl rfl) <| .cons (.load rfl rfl) <|
      .cons (.write rfl rfl) <| .cons (.cleanup rfl rfl rfl) .nil, hkept⟩
  · exact ⟨fun h => absurd h id, fun h => absurd h id⟩
  · refine ⟨fun _ => (show Kept ['1'] by decide), fun _ proc hproc => ?_⟩
    cases hproc
    exact hstorable rfl
  · refine ⟨fun _ => (show Kept ['1'] by decide), fun _ proc hproc => ?_⟩
    cases hproc
    exact hstorable rfl

end Shared
