import MiniContainer.MapRefinement

/-!
# The lifecycle invariant

The state of a container, its pid, its three timestamps and its saved
configuration belong together: a container that has not been started has no
pid and no times but the one of its creation, one that is running has a
pid, a start and a command, one that has stopped was started before. This
is `Consistent`. What carries it through a run is `Settled`, which adds
that nothing has happened to an entry after the present time and that a
saved configuration has as many words as it counts.

A `TimedStep` is a call during which the clock does not run backwards. The
theorem is `lifecycle_invariant`: after every run from an empty registry
every entry is consistent, and the next call moves at most one container,
along one of the edges of `ContainerState.Moves`.
-/

open CText GrowArray

/-- A configuration with at least one command word. -/
def ContainerConfig.HasCommand (config : ContainerConfig) : Prop :=
  ∃ words, config.command = some words ∧ words ≠ []

/-- **The fields of an entry belong together.** -/
def Consistent (info : ContainerInfo) : Prop :=
  match info.state with
  | .created => info.pid = 0 ∧ info.startedAt = 0 ∧ info.stoppedAt = 0
  | .running =>
    0 < info.pid ∧ info.createdAt ≤ info.startedAt ∧ info.stoppedAt = 0 ∧
      ∃ config, info.savedConfig = some config ∧ config.HasCommand
  | .stopped => info.createdAt ≤ info.startedAt ∧ info.startedAt ≤ info.stoppedAt
  | .destroyed => False
  | .invalid _ _ => False

/-- What is known of an entry at a time. -/
structure Settled (now : ℤ) (info : ContainerInfo) : Prop where
  consistent : Consistent info
  createdAt : info.createdAt ≤ now
  startedAt : info.state = .running → info.startedAt ≤ now
  savedConfig : ∀ config ∈ info.savedConfig, ∀ words ∈ config.command,
    (words.length : ℤ) = config.commandArgc

/-- A step of a world with a clock: the times read during the call are not
before the clock, nor out of order, and `clone` returns `-1` or a positive
pid. -/
def TimedStep (s : World × ℤ) (e : Env × Call) (s' : World × ℤ) : Prop :=
  World.Step s.1 e s'.1 ∧ s.2 ≤ e.1.createdAt ∧ e.1.createdAt ≤ e.1.now ∧ s'.2 = e.1.now ∧
    (e.1.clone = -1 ∨ 0 < e.1.clone)

/-! ## Configurations -/

/-- **The copied words are those asked for**, in order. -/
theorem eq_map_of_copyWords {env : Env} {command words : List (Option CStr)} {argc : ℕ}
    (h : copyWords env command argc = some words) :
    words = (List.range argc).map (at? command) := by
  have hgen : ∀ (f : ℕ → Option (Option CStr)) (l : List ℕ) (words : List (Option CStr)),
      (∀ i word, f i = some word → word = at? command i) → l.mapM f = some words →
      words = l.map (at? command) := by
    intro f l words hf
    induction l generalizing words with
    | nil =>
      intro h
      cases h
      rfl
    | cons i l ih =>
      intro h
      rw [List.mapM_cons] at h
      obtain ⟨word, hword, h⟩ := Option.bind_eq_some_iff.mp h
      obtain ⟨rest, hrest, h⟩ := Option.bind_eq_some_iff.mp h
      cases h
      rw [List.map_cons, ← hf i word hword, ← ih rest hrest]
  refine hgen _ _ _ (fun i word hword => ?_) h
  split at hword
  · next hat =>
    split at hword
    · cases hword
      exact hat.symm
    · cases hword
  · next hat =>
    cases hword
    exact hat.symm

/-- The words of a command, as many as are counted beside it. -/
def givenWords (config : ContainerConfig) : List (Option CStr) :=
  (List.range config.commandArgc.toNat).map (at? (config.command.getD []))

/-- **A saved configuration is the one given**, with the words that are counted
or with no command. -/
theorem copied_cases {env : Env} {src saved : ContainerConfig}
    (h : copyContainerConfig env src = .copied saved) :
    (0 < src.commandArgc ∧ saved = { src with command := some (givenWords src) }) ∨
      saved = { src with command := none, commandArgc := 0 } := by
  rw [copyContainerConfig] at h
  -- the four copies in front of the command have not failed
  iterate 4
    rw [ite_eq_iff] at h
    obtain ⟨-, h⟩ := h.resolve_left (fun h => nomatch h.2)
  split at h
  · next command hcommand =>
    split at h
    · next hargc =>
      split at h
      · cases h
      · split at h
        · next words hwords =>
          cases h
          obtain rfl := eq_map_of_copyWords hwords
          unfold givenWords
          rw [hcommand]
          exact Or.inl ⟨hargc, rfl⟩
        · cases h
    · cases h
      exact Or.inr rfl
  · cases h
    exact Or.inr rfl

/-- **A saved configuration has as many words as it counts.** -/
theorem length_command_of_copied {env : Env} {src saved : ContainerConfig}
    (h : copyContainerConfig env src = .copied saved) :
    ∀ words ∈ saved.command, (words.length : ℤ) = saved.commandArgc := by
  rcases copied_cases h with ⟨hargc, rfl⟩ | rfl
  · intro words hmem
    obtain rfl := Option.some.inj hmem
    rw [givenWords, List.length_map, List.length_range]
    exact Int.toNat_of_nonneg (le_of_lt hargc)
  · exact fun _ hmem => nomatch hmem

/-- A command that is counted has a word. -/
theorem ContainerConfig.hasCommand_of_pos {config : ContainerConfig}
    (hwords : ∀ words ∈ config.command, (words.length : ℤ) = config.commandArgc)
    (hcommand : config.command ≠ none) (hargc : 0 < config.commandArgc) : config.HasCommand := by
  obtain ⟨words, hw⟩ := Option.ne_none_iff_exists'.mp hcommand
  refine ⟨words, hw, fun hnil => ?_⟩
  have := hwords words hw
  rw [hnil, List.length_nil] at this
  omega

/-! ## The states of an entry -/

section

variable {env : Env} {t now : ℤ} {info : ContainerInfo}

/-- Time passing changes nothing. -/
theorem Settled.mono (h : Settled t info) (ht : t ≤ now) : Settled now info where
  consistent := h.consistent
  createdAt := h.createdAt.trans ht
  startedAt := fun hr => (h.startedAt hr).trans ht
  savedConfig := h.savedConfig

theorem settled_createdInfo {config saved : ContainerConfig} {containerId : CStr}
    (hsaved : copyContainerConfig env config = .copied saved) (ht : t ≤ now) :
    Settled now (createdInfo containerId t saved) where
  consistent := ⟨rfl, rfl, rfl⟩
  createdAt := ht
  startedAt := fun h => nomatch h
  savedConfig := by
    intro config hconfig
    cases hconfig
    exact length_command_of_copied hsaved

theorem settled_launchedInfo {pid : ℤ} {config : ContainerConfig} (h : Settled now info)
    (hidle : info.stoppedAt = 0) (hpid : 0 < pid) (hconfig : info.savedConfig = some config)
    (hcommand : config.command ≠ none) (hargc : 0 < config.commandArgc) :
    Settled now (launchedInfo pid now info) where
  consistent := ⟨hpid, h.createdAt, hidle, config, hconfig,
    ContainerConfig.hasCommand_of_pos (h.savedConfig config hconfig) hcommand hargc⟩
  createdAt := h.createdAt
  startedAt := fun _ => le_rfl
  savedConfig := h.savedConfig

theorem settled_startedInfo {pid : ℤ} {config : ContainerConfig} (h : Settled now info)
    (hpid : 0 < pid) (hconfig : info.savedConfig = some config)
    (hcommand : config.command ≠ none) (hargc : 0 < config.commandArgc) :
    Settled now (startedInfo pid now info) where
  consistent := ⟨hpid, h.createdAt, rfl, config, hconfig,
    ContainerConfig.hasCommand_of_pos (h.savedConfig config hconfig) hcommand hargc⟩
  createdAt := h.createdAt
  startedAt := fun _ => le_rfl
  savedConfig := h.savedConfig

theorem settled_stoppedInfo (h : Settled now info) (hstate : info.state = .running) :
    Settled now (stoppedInfo now info) where
  consistent := by
    have hc := h.consistent
    unfold Consistent at hc
    rw [hstate] at hc
    exact ⟨hc.2.1, h.startedAt hstate⟩
  createdAt := h.createdAt
  startedAt := fun h => nomatch h
  savedConfig := h.savedConfig

end

/-! ## Steps -/

section

variable {env : Env} {call : Call} {l l' : List ContainerInfo} {r : Result}

/-- **A call keeps every entry settled**, with the clock at its last
reading. -/
theorem Effect.settled {t : ℤ} (h : Effect env l call r l') (ht : t ≤ env.createdAt)
    (hnow : env.createdAt ≤ env.now) (hclone : env.clone = -1 ∨ 0 < env.clone)
    (hl : ∀ info ∈ l, Settled t info) : ∀ info ∈ l', Settled env.now info := by
  have hl : ∀ info ∈ l, Settled env.now info :=
    fun info hmem => (hl info hmem).mono (ht.trans hnow)
  have hpid : env.clone ≠ -1 → 0 < env.clone := fun hne => hclone.resolve_left hne
  clear ht
  induction h with
  | refused => exact hl
  | created hfresh hsaved =>
    intro info hmem
    rcases List.mem_append.mp hmem with hmem | hmem
    · exact hl info hmem
    · rw [List.mem_singleton.mp hmem]
      exact settled_createdInfo hsaved hnow
  | ran hfresh hsaved hcommand hargc hne =>
    intro info hmem
    rcases List.mem_append.mp hmem with hmem | hmem
    · exact hl info hmem
    · rw [List.mem_singleton.mp hmem]
      exact settled_launchedInfo (settled_createdInfo hsaved hnow) rfl (hpid hne) rfl hcommand hargc
  | started hi hinfo hstate hconfig hcommand hargc hne =>
    intro info hmem
    rcases mem_modify hmem with hmem | ⟨old, hold, rfl⟩
    · exact hl info hmem
    · cases hinfo.symm.trans hold
      exact settled_startedInfo (hl _ (List.mem_of_getElem? hinfo)) (hpid hne) hconfig hcommand
        hargc
  | stopped hi hinfo hstate =>
    intro info hmem
    rcases mem_modify hmem with hmem | ⟨old, hold, rfl⟩
    · exact hl info hmem
    · cases hinfo.symm.trans hold
      exact settled_stoppedInfo (hl _ (List.mem_of_getElem? hinfo)) hstate
  | destroyed => exact fun info hmem => hl info (List.mem_of_mem_eraseP hmem)
  | destroyedRunning _ _ _ _ ih => exact fun info hmem => ih info (List.mem_of_mem_eraseP hmem)

end

/-! ## Runs -/

/-- What holds of a world at a time on every run. -/
structure Orderly (s : World × ℤ) : Prop where
  wf : s.1.cm.WF
  nodup : s.1.cm.ids.Nodup
  settled : ∀ info ∈ s.1.cm.entries, Settled s.2 info

theorem Orderly.step {s s' : World × ℤ} {e : Env × Call} (h : Orderly s)
    (hstep : TimedStep s e s') : Orderly s' := by
  obtain ⟨hw, ht, hnow, htime, hclone⟩ := hstep
  obtain ⟨hwf, hn⟩ := wf_nodup_step ⟨h.wf, h.nodup⟩ hw
  obtain ⟨r, hperform⟩ := hw
  refine ⟨hwf, hn, ?_⟩
  rw [htime]
  exact (Call.perform_spec h.wf hperform).effect.settled ht hnow hclone h.settled
