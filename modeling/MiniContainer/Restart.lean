import MiniContainer.Effect
import MiniContainer.Run
import MiniContainer.Reload

/-!
# Starting a container in a later process

A process ends, which writes the registry to the state file, and another
one starts, which reads it back. The file holds no configuration, and a
container that has stopped is not read back at all. So while a process can
start a container it has stopped, no later process can start any: this is
`start_after_restart`, for whatever the file holds.
-/

open CText GrowArray StateFile

section

variable {env : InitEnv} {maxContainers : ℤ} {w w' : World}

/-- **What a later process starts with** has been read from a file. -/
theorem restart_loaded (h : restart env maxContainers w = some w') :
    w'.cm.WF ∧ ∀ info ∈ w'.cm.entries, Loaded info := by
  obtain ⟨⟨cm, file⟩, hinit, hw'⟩ := Option.map_eq_some_iff.mp h
  cases hw'
  show cm.WF ∧ ∀ info ∈ cm.entries, Loaded info
  cases hfile : containerManagerCleanup env.stateFile w.cm w.file with
  | none =>
    rw [hfile] at hinit
    obtain ⟨hwf, hempty, -⟩ := containerManagerInit_none hinit
    rw [hempty]
    exact ⟨hwf, fun _ hmem => absurd hmem List.not_mem_nil⟩
  | some text =>
    rw [hfile] at hinit
    obtain ⟨fresh, hwf, hempty, -, rfl, -⟩ := containerManagerInit_some hinit
    exact loadState_loaded env.load text hwf hempty

/-- The entries of a later process, where the file says what the registry
was and the identifiers are plain. -/
theorem entries_restart_of_file (h : restart env maxContainers w = some w')
    (hfile : containerManagerCleanup env.stateFile w.cm w.file = some (saveState w.cm))
    (hsaved : ∀ info ∈ w.cm.entries, Storable info) :
    w'.cm.entries = reload 0 (w.cm.entries.filter (fun info => survives env.load info)) := by
  obtain ⟨⟨cm, file⟩, hinit, hw'⟩ := Option.map_eq_some_iff.mp h
  cases hw'
  rw [hfile] at hinit
  obtain ⟨fresh, hwf, hempty, -, rfl, -⟩ := containerManagerInit_some hinit
  exact entries_loadState_saveState env.load hsaved hwf hempty

/-- In particular where the file could be written. -/
theorem entries_restart (h : restart env maxContainers w = some w')
    (hwritable : env.stateFile = true) (hsaved : ∀ info ∈ w.cm.entries, Storable info) :
    w'.cm.entries = reload 0 (w.cm.entries.filter (fun info => survives env.load info)) :=
  entries_restart_of_file h (by rw [containerManagerCleanup, if_pos hwritable]) hsaved

/-- **An identifier that is taken**: it denotes a container, and one that is
not waiting to be started. -/
def Taken (cm : ContainerManager) (containerId : CStr) : Prop :=
  ∃ i info, cm.getInfo containerId = some i ∧ cm.infoAt i = some info ∧ info.state ≠ .created

/-- A start that is refused because the container is unknown or has no
configuration. -/
def Refusal.Forgotten (e : Refusal) : Prop := e = .notFound ∨ e = .configNotSaved

/-- **No later process can start a container.** Whatever the registry and
the state file were when a process ended, in the next one every start is
refused and changes nothing. It is refused because the container is unknown
or has no configuration, except where the identifier denotes another
container by then, one that is already running. Where the file could be
written and the identifiers are plain, the containers an identifier can
denote by then are those that had not stopped, under the identifiers they
are loaded under. -/
theorem start_after_restart (h : restart env maxContainers w = some w') (env' : Env)
    (containerId : CStr) :
    (∃ e, containerManagerStart env' containerId w' = some (w', .error e) ∧
      (¬ e.Forgotten ↔ Taken w'.cm containerId)) ∧
      (env.stateFile = true → (∀ info ∈ w.cm.entries, Storable info) →
        w'.cm.entries = reload 0 (w.cm.entries.filter (fun info => survives env.load info))) := by
  refine ⟨?_, fun hwritable hsaved => entries_restart h hwritable hsaved⟩
  obtain ⟨hwf, hloaded⟩ := restart_loaded h
  unfold containerManagerStart Taken
  cases hi : w'.cm.getInfo containerId with
  | none =>
    refine ⟨.notFound, rfl, iff_of_false (not_not.mpr (Or.inl rfl)) ?_⟩
    rintro ⟨i, info, hsome, -⟩
    cases hsome
  | some i =>
    have hlt := ContainerManager.getInfo_lt hwf hi
    have hinfo := ContainerManager.infoAt_eq hwf hlt
    have hlo := hloaded _ (List.getElem_mem hlt)
    -- of the entry it matters only that it was read from a file
    generalize w'.cm.entries[i] = info at hinfo hlo
    have htaken : (∃ i' info', some i = some i' ∧ w'.cm.infoAt i' = some info' ∧
        info'.state ≠ .created) ↔ info.state ≠ .created := by
      refine ⟨?_, fun hne => ⟨i, info, rfl, hinfo, hne⟩⟩
      rintro ⟨i', info', hi', hinfo', hne⟩
      cases hi'
      rw [hinfo] at hinfo'
      cases hinfo'
      exact hne
    dsimp only
    rw [hinfo, htaken]
    dsimp only
    by_cases hrunning : info.state = .running
    · refine ⟨.alreadyRunning, by rw [if_pos hrunning], iff_of_true ?_ ?_⟩
      · rintro (hf | hf) <;> cases hf
      · rw [hrunning]
        exact fun hc => nomatch hc
    · rw [if_neg hrunning, if_neg hlo.ne_destroyed]
      by_cases hcreated : info.state = .created
      · rw [if_neg (fun hn => hn.1 hcreated), hlo.savedConfig]
        exact ⟨.configNotSaved, rfl,
          iff_of_false (not_not.mpr (Or.inr rfl)) (not_not.mpr hcreated)⟩
      · refine ⟨.invalidState, by rw [if_pos ⟨hcreated, hlo.ne_stopped⟩], iff_of_true ?_ hcreated⟩
        rintro (hf | hf) <;> cases hf

/-- `start` that has reached a configuration is refused for other
reasons. -/
theorem startWith_not_forgotten {config : ContainerConfig} {key : CStr} {i : ℕ} {env' : Env}
    {e : Refusal} (h : startWith env' config key i w = some (w', .error e)) : ¬ e.Forgotten := by
  rcases startWith_cases h with ⟨hr | hr, -⟩ | ⟨_, _, _, _, hr, _⟩
  · cases hr
    rintro (hf | hf) <;> cases hf
  · cases hr
    rintro (hf | hf) <;> cases hf
  · cases hr

/-- **In the process that stopped it**, a container with a configuration is
not refused as unknown or for want of one. -/
theorem start_before_restart (hw : w.cm.WF) (hids : w.cm.ids.Nodup) {info : ContainerInfo}
    (hmem : info ∈ w.cm.entries) (hstate : info.state = .stopped) {config : ContainerConfig}
    (hconfig : info.savedConfig = some config) {env' : Env} {e : Refusal}
    (h : containerManagerStart env' info.id w = some (w', .error e)) : ¬ e.Forgotten := by
  obtain ⟨i, hi, hlt, hid⟩ :=
    ContainerManager.resolve_of_mem (List.mem_map.mpr ⟨info, hmem, rfl⟩)
  have hget : w.cm.infoAt i = some info := by
    rw [ContainerManager.infoAt_eq hw hlt,
      List.inj_on_of_nodup_map hids (List.getElem_mem hlt) hmem hid]
  unfold containerManagerStart at h
  rw [ContainerManager.getInfo_eq hw, hi] at h
  dsimp only at h
  rw [hget] at h
  dsimp only at h
  rw [if_neg (by simp [hstate]), if_neg (by simp [hstate]), if_neg (by simp [hstate]),
    hconfig] at h
  exact startWith_not_forgotten h

end

/-- A created container is known in the next process, but not its
configuration. -/
theorem start_after_restart_created :
    ∃ w' e, restart (.willing 200) 0 (World.ofList oneAndTwo) = some w' ∧
      containerManagerStart (.willing 9 300) ['1'] w' = some (w', .error e) ∧
      (¬ e.Forgotten ↔ Taken w'.cm ['1']) := by
  have hrestart : restart (.willing 200) 0 (World.ofList oneAndTwo) = some _ := rfl
  obtain ⟨⟨e, hstart⟩, -⟩ := start_after_restart hrestart (.willing 9 300) ['1']
  exact ⟨_, e, hrestart, hstart⟩

/-- Where every container has stopped, the next process knows none. -/
theorem start_unknown_of_stopped {env : InitEnv} {maxContainers : ℤ} {w w' : World}
    (h : restart env maxContainers w = some w') (hwritable : env.stateFile = true)
    (hsaved : ∀ info ∈ w.cm.entries, Storable info)
    (hstopped : ∀ info ∈ w.cm.entries, info.state = .stopped) (env' : Env) (key : CStr) :
    containerManagerStart env' key w' = some (w', .error .notFound) := by
  have hfilter : w.cm.entries.filter (fun info => survives env.load info) = [] := by
    rw [List.filter_eq_nil_iff]
    intro info hmem
    simp [survives, hstopped info hmem]
  have hempty := entries_restart h hwritable hsaved
  rw [hfilter, reload] at hempty
  have hnone : w'.cm.getInfo key = none := by
    rw [ContainerManager.getInfo_eq (restart_loaded h).1, hempty, ContainerManager.resolve]
    simp
  rw [containerManagerStart, hnone]

/-- A container that has run and been stopped, with its configuration. -/
def stoppedOne : ContainerInfo :=
  stoppedInfo 101 (launchedInfo 7 100 (createdInfo ['1'] 100 (.plain (some ['1']) ["sh".toList])))

theorem storable_stoppedOne : Storable stoppedOne := by
  refine ⟨plainId_printDecimal (n := 1) (by decide), ?_, ?_, ?_, ?_, ?_⟩ <;> decide

/-- **A stopped container is unknown in the next process.** -/
theorem stopped_unknown_after_restart :
    ∃ w, Run World.Step (World.empty 1)
        [(.willing 7 100, .run (.plain none ["sh".toList])), (.willing (-1) 101, .stop ['1'])] w ∧
      w.cm.entries = [stoppedOne] ∧ stoppedOne.state = .stopped ∧
      stoppedOne.savedConfig ≠ none ∧
      ∃ w', restart (.willing 200) 0 w = some w' ∧
        containerManagerStart (.willing 9 300) ['1'] w' = some (w', .error .notFound) := by
  obtain ⟨w, hrun, hentries⟩ : ∃ w, Run World.Step (World.empty 1)
      [(.willing 7 100, .run (.plain none ["sh".toList])), (.willing (-1) 101, .stop ['1'])] w ∧
        w.cm.entries = [stoppedOne] :=
    ⟨_, Run.cons ⟨_, rfl⟩ (Run.cons ⟨_, rfl⟩ Run.nil), rfl⟩
  have hrestart : restart (.willing 200) 0 w = some _ := rfl
  refine ⟨w, hrun, hentries, rfl, by decide, _, hrestart,
    start_unknown_of_stopped hrestart rfl ?_ ?_ _ _⟩
  · rw [hentries, List.forall_mem_singleton]
    exact storable_stoppedOne
  · rw [hentries, List.forall_mem_singleton]
    rfl
