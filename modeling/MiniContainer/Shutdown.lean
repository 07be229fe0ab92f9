import MiniContainer.Effect
import MiniContainer.Reload

/-!
# Shutting down

The handler of the signals that end the program goes over the containers
four times before it writes the state file for the last time: it asks the
processes of the running ones to end, it stops those that are running, it
kills what is left and stops again, and it marks the ones that were never
started as stopped. Each time `stop` is called with the identifier of the
container at hand, and looks for it from the beginning.

Where identifiers are distinct, the search finds the container it was called
for, whatever pids there are, since a pid is looked for only where no
identifier matches. Each pass then changes every entry once and on its own
(`Sweeps`), and four of them in a row send an entry to `shutdownInfo`. What
is left has stopped or been destroyed, and the next process reads nothing.
-/

open CText GrowArray StateFile

/-- The signals that are sent. -/
inductive Signal
  | sigterm
  | sigkill
  deriving DecidableEq, Repr

/-- What the handler changes: the world, and the signals it has sent
itself. -/
structure Shutdown where
  world : World
  signals : List (Signal × ℤ)

/-- What the host answers while the program shuts down, for each container
of each pass. -/
structure ShutdownEnv where
  /-- The processes that are asked to end. -/
  terminated : ℕ → CStr → Option (List ℤ)
  stop : ℕ → Env
  /-- The processes that are killed. -/
  killed : ℕ → CStr → Option (List ℤ)
  stopAgain : ℕ → Env
  /-- The time a created container is marked at. -/
  now : ℕ → ℤ
  stopLast : ℕ → Env
  /-- Whether the state file can be opened at the end. -/
  stateFile : Bool

/-- `while (fscanf(fp, "%d", &pid) == 1) if (pid > 0) kill(pid, signal);`
over the file that lists the processes of a container. -/
def signalProcs (signal : Signal) (procs : CStr → Option (List ℤ)) (info : ContainerInfo)
    (s : Shutdown) : Shutdown :=
  { s with
    signals := s.signals ++
      (((procs (stopProcsPath s.world.cm.rm info.id)).getD []).filter (0 < ·)).map (signal, ·) }

/-- `container_manager_stop(&cm, containers[i]->id);` -/
def stopListed (env : Env) (info : ContainerInfo) (s : Shutdown) : Option Shutdown :=
  (containerManagerStop env info.id s.world).map (fun r => { s with world := r.1 })

/-- The first pass at a container. -/
def terminateAt (env : ShutdownEnv) (i : ℕ) (s : Shutdown) : Option Shutdown :=
  match s.world.cm.infoAt i with
  | none => none
  | some info =>
    if info.state = .running then some (signalProcs .sigterm (env.terminated i) info s) else some s

/-- The second pass at a container. -/
def stopAt (env : ShutdownEnv) (i : ℕ) (s : Shutdown) : Option Shutdown :=
  match s.world.cm.infoAt i with
  | none => none
  | some info => if info.state = .running then stopListed (env.stop i) info s else some s

/-- The third pass at a container. -/
def killAt (env : ShutdownEnv) (i : ℕ) (s : Shutdown) : Option Shutdown :=
  match s.world.cm.infoAt i with
  | none => none
  | some info =>
    if info.state = .running ∨ info.pid > 0 then
      let s := signalProcs .sigkill (env.killed i) info s
      if info.state = .running then stopListed (env.stopAgain i) info s else some s
    else some s

/-- The fourth pass at a container. -/
def markAt (env : ShutdownEnv) (i : ℕ) (s : Shutdown) : Option Shutdown :=
  match s.world.cm.infoAt i with
  | none => none
  | some info =>
    if info.state = .created ∨ info.state = .running then
      if info.state = .created then
        some { s with world := { s.world with
          cm := s.world.cm.updateAt i (stoppedInfo (env.now i)) } }
      else if info.state = .running then stopListed (env.stopLast i) info s
      else some s
    else some s

/-- `for (int i = 0; i < count; i++)`. -/
def pass (round : ℕ → Shutdown → Option Shutdown) (count : ℕ) (s : Shutdown) : Option Shutdown :=
  (List.range count).foldlM (fun s i => round i s) s

/-- **`signal_handler`**, up to the `exit`: the containers are freed, and
what is left is the state file. -/
def signalHandler (env : ShutdownEnv) (w : World) : Option Shutdown := do
  let count := w.cm.containerCount
  let s ← pass (terminateAt env) count ⟨w, []⟩
  let s ← pass (stopAt env) count s
  let s ← pass (killAt env) count s
  -- the list is taken anew
  let s ← pass (markAt env) s.world.cm.containerCount s
  some { s with world := { s.world with
    file := containerManagerCleanup env.stateFile s.world.cm s.world.file } }

/-! ## One pass -/

/-- A registry without repeated identifiers, for which a resource manager
answers. -/
def Shutdown.Distinct (s : Shutdown) : Prop := s.world.cm.WF ∧ s.world.cm.ids.Nodup

/-- **A pass that changes every container once and on its own.** -/
def Sweeps (round : ℕ → Shutdown → Option Shutdown) (g : ℕ → ContainerInfo → ContainerInfo) :
    Prop :=
  ∀ s i, s.Distinct → i < s.world.cm.entries.length →
    ∃ s', round i s = some s' ∧ s'.Distinct ∧
      s'.world.cm.entries = s.world.cm.entries.modify i (g i)

theorem Sweeps.pass {round : ℕ → Shutdown → Option Shutdown}
    {g : ℕ → ContainerInfo → ContainerInfo} (h : Sweeps round g) {s : Shutdown}
    (hs : s.Distinct) :
    ∃ s', pass round s.world.cm.containerCount s = some s' ∧ s'.Distinct ∧
      s'.world.cm.entries = s.world.cm.entries.mapIdx g := by
  rw [← hs.1.length_entries]
  exact foldlM_range_sweep h hs

/-- Assignments that leave the identifier keep identifiers distinct. -/
theorem Shutdown.Distinct.modify {s s' : Shutdown} (hs : s.Distinct) {i : ℕ}
    {f : ContainerInfo → ContainerInfo} (hf : ∀ info, (f info).id = info.id)
    (hwf : s'.world.cm.WF)
    (hentries : s'.world.cm.entries = s.world.cm.entries.modify i f) : s'.Distinct := by
  refine ⟨hwf, ?_⟩
  have hids : s'.world.cm.ids = s.world.cm.ids := by
    rw [ContainerManager.ids, hentries, map_modify hf, ContainerManager.ids]
  rw [hids]
  exact hs.2

/-- **Calling `stop` with the identifier of a running container stops that
container**, where identifiers are distinct. -/
theorem stopListed_running (env : Env) {s : Shutdown} (hs : s.Distinct) {i : ℕ}
    (hi : i < s.world.cm.entries.length) (hrun : s.world.cm.entries[i].state = .running) :
    ∃ s', stopListed env s.world.cm.entries[i] s = some s' ∧ s'.Distinct ∧
      s'.world.cm.entries = s.world.cm.entries.modify i (stoppedInfo env.now) := by
  obtain ⟨hwf, hids⟩ := hs
  have hget : s.world.cm.getInfo s.world.cm.entries[i].id = some i := by
    rw [ContainerManager.getInfo_eq hwf, ContainerManager.resolve_getElem hids hi]
  obtain ⟨hwf', hentries, -⟩ := ContainerManager.updateAt_spec hwf hi (stoppedInfo env.now)
  have hstop : stopListed env s.world.cm.entries[i] s
      = some { s with
          world := World.save env { s.world with
            cm := s.world.cm.updateAt i (stoppedInfo env.now)
            killed := s.world.killed
              ++ stopTargets env s.world.cm.rm s.world.cm.entries[i] } } := by
    rw [stopListed, containerManagerStop, hget]
    dsimp only
    rw [ContainerManager.infoAt_eq hwf hi]
    dsimp only
    rw [if_neg (not_not.mpr hrun)]
    rfl
  refine ⟨_, hstop, Shutdown.Distinct.modify ⟨hwf, hids⟩ (f := stoppedInfo env.now) (i := i)
    (fun _ => rfl) ?_ ?_, ?_⟩
  · rwa [World.save_cm]
  · rw [World.save_cm, hentries]
  · rw [World.save_cm, hentries]

/-- Only what the functions make of the entry at the index matters. -/
theorem modify_congr {l : List ContainerInfo} {i : ℕ} (hi : i < l.length)
    {f g : ContainerInfo → ContainerInfo} (hfg : f l[i] = g l[i]) :
    l.modify i f = l.modify i g := by
  refine List.ext_getElem (by simp) (fun j h₁ h₂ => ?_)
  rw [List.getElem_modify, List.getElem_modify]
  split
  · next hij =>
    subst hij
    exact hfg
  · rfl

/-- A round that leaves the registry alone. -/
theorem entries_unchanged {l : List ContainerInfo} {i : ℕ} (hi : i < l.length)
    {g : ContainerInfo → ContainerInfo} (hg : g l[i] = l[i]) : l = l.modify i g := by
  rw [modify_congr hi (f := g) (g := id) hg, List.modify_id]

/-- The first pass changes no container. -/
theorem sweeps_terminateAt (env : ShutdownEnv) : Sweeps (terminateAt env) (fun _ info => info) := by
  intro s i hs hi
  rw [terminateAt, ContainerManager.infoAt_eq hs.1 hi]
  dsimp only
  split
  · exact ⟨_, rfl, hs, entries_unchanged hi rfl⟩
  · exact ⟨_, rfl, hs, entries_unchanged hi rfl⟩

/-- What a pass that stops the running containers does to each of them. -/
def stopRunning (now : ℕ → ℤ) (i : ℕ) (info : ContainerInfo) : ContainerInfo :=
  if info.state = .running then stoppedInfo (now i) info else info

/-- The second pass stops the running containers. -/
theorem sweeps_stopAt (env : ShutdownEnv) :
    Sweeps (stopAt env) (stopRunning (fun i => (env.stop i).now)) := by
  intro s i hs hi
  rw [stopAt, ContainerManager.infoAt_eq hs.1 hi]
  dsimp only
  by_cases hrun : s.world.cm.entries[i].state = .running
  · have hg : stopRunning (fun i => (env.stop i).now) i s.world.cm.entries[i]
        = stoppedInfo (env.stop i).now s.world.cm.entries[i] := if_pos hrun
    rw [if_pos hrun, modify_congr hi hg]
    exact stopListed_running (env.stop i) hs hi hrun
  · rw [if_neg hrun]
    exact ⟨s, rfl, hs, entries_unchanged hi (if_neg hrun)⟩

/-- The third pass stops what is running, where there is any. -/
theorem sweeps_killAt (env : ShutdownEnv) :
    Sweeps (killAt env) (stopRunning (fun i => (env.stopAgain i).now)) := by
  intro s i hs hi
  rw [killAt, ContainerManager.infoAt_eq hs.1 hi]
  dsimp only
  by_cases hrun : s.world.cm.entries[i].state = .running
  · have hg : stopRunning (fun i => (env.stopAgain i).now) i s.world.cm.entries[i]
        = stoppedInfo (env.stopAgain i).now s.world.cm.entries[i] := if_pos hrun
    rw [if_pos (Or.inl hrun), if_pos hrun, modify_congr hi hg]
    exact stopListed_running (env.stopAgain i) (s := signalProcs _ _ _ s) hs hi hrun
  · rw [if_neg hrun]
    split
    · exact ⟨_, rfl, hs, entries_unchanged hi (if_neg hrun)⟩
    · exact ⟨s, rfl, hs, entries_unchanged hi (if_neg hrun)⟩

/-- What the fourth pass does to a container. -/
def markStopped (env : ShutdownEnv) (i : ℕ) (info : ContainerInfo) : ContainerInfo :=
  if info.state = .created then stoppedInfo (env.now i) info
  else stopRunning (fun i => (env.stopLast i).now) i info

/-- The fourth pass stops what was never started as well. -/
theorem sweeps_markAt (env : ShutdownEnv) : Sweeps (markAt env) (markStopped env) := by
  intro s i hs hi
  rw [markAt, ContainerManager.infoAt_eq hs.1 hi]
  dsimp only
  by_cases hcreated : s.world.cm.entries[i].state = .created
  · obtain ⟨hwf, hentries, -⟩ :=
      ContainerManager.updateAt_spec hs.1 hi (stoppedInfo (env.now i))
    have hg : markStopped env i s.world.cm.entries[i]
        = stoppedInfo (env.now i) s.world.cm.entries[i] := if_pos hcreated
    rw [if_pos (Or.inl hcreated), if_pos hcreated, modify_congr hi hg]
    exact ⟨_, rfl, hs.modify (f := stoppedInfo (env.now i)) (fun _ => rfl) hwf hentries, hentries⟩
  · rw [if_neg hcreated]
    by_cases hrun : s.world.cm.entries[i].state = .running
    · have hg : markStopped env i s.world.cm.entries[i]
          = stoppedInfo (env.stopLast i).now s.world.cm.entries[i] :=
        (if_neg hcreated).trans (if_pos hrun)
      rw [if_pos (Or.inr hrun), if_pos hrun, modify_congr hi hg]
      exact stopListed_running (env.stopLast i) hs hi hrun
    · rw [if_neg (not_or.mpr ⟨hcreated, hrun⟩)]
      exact ⟨s, rfl, hs, entries_unchanged hi ((if_neg hcreated).trans (if_neg hrun))⟩

/-! ## All of them -/

/-- **What shutting down makes of a container**: one that is running or was
never started has stopped. -/
def shutdownInfo (env : ShutdownEnv) (i : ℕ) (info : ContainerInfo) : ContainerInfo :=
  match info.state with
  | .running => stoppedInfo (env.stop i).now info
  | .created => stoppedInfo (env.now i) info
  | _ => info

/-- Four passes in a row: a container that was stopped in one of them is
passed over by the next ones. -/
theorem markStopped_stopRunning (env : ShutdownEnv) (i : ℕ) (info : ContainerInfo) :
    markStopped env i (stopRunning (fun i => (env.stopAgain i).now) i
      (stopRunning (fun i => (env.stop i).now) i info)) = shutdownInfo env i info := by
  cases hstate : info.state <;>
    simp [shutdownInfo, markStopped, stopRunning, stoppedInfo, hstate]

/-- **The handler returns, and every container has been shut down** on its
own. -/
theorem signalHandler_spec (env : ShutdownEnv) {w : World} (hw : w.cm.WF) (hids : w.cm.ids.Nodup) :
    ∃ s, signalHandler env w = some s ∧ s.world.cm.WF ∧
      s.world.cm.entries = w.cm.entries.mapIdx (shutdownInfo env) ∧
      (env.stateFile = true → s.world.file = some (saveState s.world.cm)) := by
  have hcount : ∀ {s s' : Shutdown} {g : ℕ → ContainerInfo → ContainerInfo}, s.Distinct →
      s'.Distinct → s'.world.cm.entries = s.world.cm.entries.mapIdx g →
      s'.world.cm.containerCount = s.world.cm.containerCount := by
    intro s s' g hs hs' hentries
    rw [← hs.1.length_entries, ← hs'.1.length_entries, hentries, List.length_mapIdx]
  have h₀ : Shutdown.Distinct ⟨w, []⟩ := ⟨hw, hids⟩
  obtain ⟨s₁, hrun₁, h₁, hentries₁⟩ := (sweeps_terminateAt env).pass h₀
  obtain ⟨s₂, hrun₂, h₂, hentries₂⟩ := (sweeps_stopAt env).pass h₁
  obtain ⟨s₃, hrun₃, h₃, hentries₃⟩ := (sweeps_killAt env).pass h₂
  obtain ⟨s₄, hrun₄, h₄, hentries₄⟩ := (sweeps_markAt env).pass h₃
  have hcount₁ := hcount h₀ h₁ hentries₁
  have hcount₂ := hcount h₁ h₂ hentries₂
  rw [hcount₂, hcount₁] at hrun₃
  rw [hcount₁] at hrun₂
  have hrun : signalHandler env w = some { s₄ with world := { s₄.world with
      file := containerManagerCleanup env.stateFile s₄.world.cm s₄.world.file } } := by
    simp only [signalHandler, hrun₁, hrun₂, hrun₃, hrun₄, Option.bind_eq_bind, Option.bind_some]
  refine ⟨_, hrun, h₄.1, ?_, fun hfile => if_pos hfile⟩
  show s₄.world.cm.entries = _
  rw [hentries₄, hentries₃, hentries₂, hentries₁, List.mapIdx_mapIdx, List.mapIdx_mapIdx,
    List.mapIdx_mapIdx]
  refine congrArg (fun g => List.mapIdx g _) (funext fun i => funext fun info => ?_)
  exact markStopped_stopRunning env i info

/-- A container that has been shut down is stopped or destroyed. -/
theorem shutdownInfo_state (env : ShutdownEnv) (i : ℕ) {info : ContainerInfo}
    (h : info.state.Named) :
    (shutdownInfo env i info).state = .stopped ∨ (shutdownInfo env i info).state = .destroyed := by
  cases hstate : info.state with
  | created => exact Or.inl (by simp [shutdownInfo, stoppedInfo, hstate])
  | running => exact Or.inl (by simp [shutdownInfo, stoppedInfo, hstate])
  | stopped => exact Or.inl (by simp [shutdownInfo, hstate])
  | destroyed => exact Or.inr (by simp [shutdownInfo, hstate])
  | invalid code hcode =>
    rw [hstate] at h
    obtain ⟨hlo, hhi⟩ : 0 ≤ code ∧ code ≤ 3 := h
    omega

theorem shutdownInfo_id (env : ShutdownEnv) (i : ℕ) (info : ContainerInfo) :
    (shutdownInfo env i info).id = info.id := by
  unfold shutdownInfo
  split <;> rfl

theorem storable_shutdownInfo {env : ShutdownEnv}
    (henv : ∀ i, IsLong (env.stop i).now ∧ IsLong (env.now i)) (i : ℕ) {info : ContainerInfo}
    (h : Storable info) : Storable (shutdownInfo env i info) := by
  unfold shutdownInfo
  split
  · exact storable_stoppedInfo (henv i).1 h
  · exact storable_stoppedInfo (henv i).2 h
  · exact h

/-- Entries that have stopped or been destroyed are not restored. -/
theorem foldl_restore_of_ended (env : LoadEnv) {l : List ContainerInfo}
    (hl : ∀ info ∈ l, info.state = .stopped ∨ info.state = .destroyed) :
    l.foldl (restore env) [] = [] := by
  have hnone : l.filter (fun info => survives env info) = [] := by
    rw [List.filter_eq_nil_iff]
    intro info hmem
    rcases hl info hmem with h | h <;> simp [survives, h]
  rw [foldl_restore, hnone]
  rfl

/-- **Shutting down leaves nothing marked as running.** Whatever the
containers of a registry without repeated identifiers are doing, and
whatever their pids are, the handler returns, every container has then
stopped or been destroyed, the state file records just that, and whoever
reads it loads no container. -/
theorem signalHandler_leaves_none (env : ShutdownEnv) (hfile : env.stateFile = true)
    (henv : ∀ i, IsLong (env.stop i).now ∧ IsLong (env.now i)) {w : World} (hw : w.cm.WF)
    (hids : w.cm.ids.Nodup) (hentries : ∀ info ∈ w.cm.entries, Storable info ∧ info.state.Named) :
    ∃ s, signalHandler env w = some s ∧ s.world.cm.ids = w.cm.ids ∧
      (∀ info ∈ s.world.cm.entries, info.state = .stopped ∨ info.state = .destroyed) ∧
      s.world.file = some (saveState s.world.cm) ∧
      ∀ (load : LoadEnv) (cm : ContainerManager), cm.WF → cm.entries = [] →
        (loadState load (saveState s.world.cm) cm).1.entries = [] := by
  obtain ⟨s, hrun, -, hshut, hsaved⟩ := signalHandler_spec env hw hids
  have hended : ∀ info ∈ s.world.cm.entries, (info.state = .stopped ∨ info.state = .destroyed) ∧
      Storable info := by
    rw [hshut]
    intro info hmem
    obtain ⟨i, hi, rfl⟩ := List.mem_mapIdx.mp hmem
    obtain ⟨hstorable, hnamed⟩ := hentries _ (List.getElem_mem hi)
    exact ⟨shutdownInfo_state env i hnamed, storable_shutdownInfo henv i hstorable⟩
  refine ⟨s, hrun, ?_, fun info hmem => (hended info hmem).1, hsaved hfile, ?_⟩
  · rw [ContainerManager.ids, hshut, ContainerManager.ids]
    refine List.ext_getElem (by simp) (fun i h₁ h₂ => ?_)
    rw [List.getElem_map, List.getElem_mapIdx, shutdownInfo_id, List.getElem_map]
  · intro load cm hcm hempty
    rw [(loadState_saveState load (fun info hmem => (hended info hmem).2) hcm).2.1, hempty]
    exact foldl_restore_of_ended load (fun info hmem => (hended info hmem).1)

/-- Two running containers, the second of which has the pid of the first
and is named by it, and one that was never started. -/
def mixedThree : List ContainerInfo :=
  [launchedInfo 42 100 (createdInfo ['1'] 100 (.plain none [])),
    launchedInfo 42 100 (createdInfo "42".toList 100 (.plain none [])),
    createdInfo ['3'] 100 (.plain none [])]

/-- A host on which every stop succeeds. -/
def ShutdownEnv.willing (now : ℤ) : ShutdownEnv where
  terminated _ _ := none
  stop _ := .willing 1 now
  killed _ _ := none
  stopAgain _ := .willing 1 now
  now _ := now
  stopLast _ := .willing 1 now
  stateFile := true

/-- They are all stopped. -/
theorem signalHandler_leaves_none_mixed :
    ∃ s, signalHandler (.willing 200) (.ofList mixedThree) = some s ∧
      s.world.cm.ids = [['1'], "42".toList, ['3']] ∧
      ∀ info ∈ s.world.cm.entries, info.state = .stopped ∨ info.state = .destroyed := by
  have hids : (World.ofList mixedThree).cm.ids = [['1'], "42".toList, ['3']] := by
    show (ContainerManager.ofList mixedThree).ids = _
    rw [ContainerManager.ids, ContainerManager.entries_ofList]
    rfl
  have hplain : ∀ info ∈ mixedThree, Storable info ∧ info.state.Named := by
    have hid : ∀ info ∈ mixedThree, PlainId info.id := by
      intro info hmem
      have hmem := List.mem_map_of_mem (f := ContainerInfo.id) hmem
      have hall : ∀ id ∈ [['1'], "42".toList, ['3']], PlainId id := by
        rw [List.forall_mem_cons, List.forall_mem_cons, List.forall_mem_singleton]
        exact ⟨plainId_printDecimal (n := 1) (by decide),
          plainId_printDecimal (n := 42) (by decide), plainId_printDecimal (n := 3) (by decide)⟩
      exact hall _ hmem
    have hfields : ∀ info ∈ mixedThree, IsInt info.pid ∧ IsInt info.state.toInt ∧
        IsLong info.createdAt ∧ IsLong info.startedAt ∧ IsLong info.stoppedAt ∧
        info.state.Named := by
      unfold ContainerState.Named
      decide
    intro info hmem
    obtain ⟨hpid, hstate, hcreated, hstarted, hstopped, hnamed⟩ := hfields info hmem
    exact ⟨⟨hid info hmem, hpid, hstate, hcreated, hstarted, hstopped⟩, hnamed⟩
  have htime : IsLong 200 := by decide
  obtain ⟨s, hrun, hsame, hended, -⟩ := signalHandler_leaves_none (.willing 200) rfl
    (fun _ => ⟨htime, htime⟩) (ContainerManager.ofList_wf mixedThree)
    (by rw [show ContainerManager.ids _ = _ from hids]; decide)
    (by rwa [show (World.ofList mixedThree).cm.entries = mixedThree from
      ContainerManager.entries_ofList _])
  exact ⟨s, hrun, hsame.trans hids, hended⟩
