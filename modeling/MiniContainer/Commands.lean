import MiniContainer.Exec
import MiniContainer.Keys
import MiniContainer.RunOptions

/-!
# Commands

Each command of the program has a handler, which takes its words from the command
line, makes at most one call of the container manager and turns what the call
returns into the status the process exits with. The handler of `run` is the one
that does not come back from a call that succeeds: it waits, and a process that
waits ends with a signal.

Whatever a handler does is a run of calls (`World.Reaches`). So what is kept by
every call is kept by the program, and `Effect.inherits` is one such property: an
entry without a configuration, as they are read from the state file, is left as
it was read, or stopped, or removed; there is no way to start it.
-/

open CText GrowArray

/-! ## The handlers -/

/-- `EXIT_SUCCESS`. -/
def exitSuccess : ℤ := 0

/-- `EXIT_FAILURE`. -/
def exitFailure : ℤ := 1

/-- How a command ends: the process exits with a status, or waits until a signal
ends it. -/
inductive Ending
  | exits (status : ℤ)
  | waits
  deriving DecidableEq, Repr

/-- **`handle_run`**, on a configuration of which nothing is set. -/
def handleRun (strdup : Bool) (config : ContainerConfig) (env : Env) (argv : List CStr)
    (w : World) : Option (World × Ending) :=
  match parseRunOptions strdup argv.tail config with
  | none => some (w, .exits exitFailure)
  | some (config, detach) =>
    match containerManagerRun env config w with
    | none => none
    | some (w', .error _) => some (w', .exits exitFailure)
    | some (w', .ok ()) =>
      -- `run` has put an identifier into the configuration where there was none
      match runId env w.cm config with
      | none => none
      | some containerId =>
        match (w'.cm.getInfo containerId).bind w'.cm.infoAt with
        | none => some (w', .exits exitSuccess)
        | some info =>
          if detach then some (w', .waits)
          else if info.pid > 0 then some (w', .waits)
          else some (w', .exits exitSuccess)

/-- `handle_list`: the containers it lists, or none where it says that there are
none. -/
def handleList (w : World) : List ContainerInfo :=
  w.cm.entries.filter (fun info => info.state ≠ .destroyed)

/-- **What calls can lead to**, in one process. -/
def World.Reaches (w w' : World) : Prop := ∃ es, Run World.Step w es w'

section

variable {env : Env} {w w' w'' : World}

theorem World.Reaches.refl (w : World) : w.Reaches w := ⟨[], Run.nil⟩

theorem World.Reaches.trans (h : w.Reaches w') (h' : w'.Reaches w'') : w.Reaches w'' := by
  obtain ⟨es, hrun⟩ := h
  obtain ⟨es', hrun'⟩ := h'
  exact ⟨es ++ es', hrun.append hrun'⟩

theorem World.Reaches.call (call : Call) {r : Result} (h : call.perform env w = some (w', r)) :
    w.Reaches w' :=
  ⟨[] ++ [(env, call)], Run.snoc Run.nil ⟨r, h⟩⟩

/-- A property that every call keeps, on well-formed registries. -/
theorem World.Reaches.invariant {I : List ContainerInfo → Prop}
    (hI : ∀ {env call l r l'}, Effect env l call r l' → I l → I l') (hw : w.cm.WF)
    (hstart : I w.cm.entries) (h : w.Reaches w') : w'.cm.WF ∧ I w'.cm.entries := by
  obtain ⟨es, hrun⟩ := h
  refine Run.invariant (I := fun w : World => w.cm.WF ∧ I w.cm.entries) ?_ ⟨hw, hstart⟩ hrun
  rintro v e v' ⟨hv, hIv⟩ ⟨r, hperform⟩
  have hspec := Call.perform_spec hv hperform
  exact ⟨hspec.wf, hI hspec.effect hIv⟩

theorem World.Reaches.wf (hw : w.cm.WF) (h : w.Reaches w') : w'.cm.WF :=
  (h.invariant (I := fun _ => True) (fun _ _ => trivial) hw trivial).1

/-- **How `handle_run` ends**: it has not called `run`, or `run` was refused, or it
succeeded. -/
theorem handleRun_cases {strdup : Bool} {config : ContainerConfig} {argv : List CStr}
    {ending : Ending} (h : handleRun strdup config env argv w = some (w', ending)) :
    (w' = w ∧ ending = .exits exitFailure) ∨
    ∃ config' r, containerManagerRun env config' w = some (w', r) ∧
      (∀ e, r = .error e → ending = .exits exitFailure) ∧
      (r = .ok () → ∃ containerId, runId env w.cm config' = some containerId ∧
        (ending = .waits ∨
          ∀ info, (w'.cm.getInfo containerId).bind w'.cm.infoAt = some info →
            ¬ info.pid > 0)) := by
  unfold handleRun at h
  split at h
  · cases h
    exact Or.inl ⟨rfl, rfl⟩
  · next config' detach hparse =>
    refine Or.inr ⟨config', ?_⟩
    split at h
    · cases h
    · next v e hrun =>
      cases h
      exact ⟨_, hrun, fun _ _ => rfl, nofun⟩
    · next v hrun =>
      split at h
      · cases h
      · next containerId hid =>
        refine ⟨.ok (), ?_⟩
        split at h
        · next hnone =>
          cases h
          refine ⟨hrun, nofun, fun _ => ⟨containerId, hid, Or.inr (fun info hinfo => ?_)⟩⟩
          rw [hnone] at hinfo
          cases hinfo
        · next info hinfo =>
          split at h
          · cases h
            exact ⟨hrun, nofun, fun _ => ⟨containerId, hid, Or.inl rfl⟩⟩
          · split at h
            · cases h
              exact ⟨hrun, nofun, fun _ => ⟨containerId, hid, Or.inl rfl⟩⟩
            · next hpid =>
              cases h
              refine ⟨hrun, nofun, fun _ => ⟨containerId, hid, Or.inr (fun info' hinfo' => ?_)⟩⟩
              rw [hinfo] at hinfo'
              cases hinfo'
              exact hpid

theorem handleRun_reaches {strdup : Bool} {config : ContainerConfig} {argv : List CStr}
    {ending : Ending} (h : handleRun strdup config env argv w = some (w', ending)) :
    w.Reaches w' := by
  rcases handleRun_cases h with ⟨rfl, -⟩ | ⟨config', r, hrun, -, -⟩
  · exact World.Reaches.refl w'
  · exact World.Reaches.call (.run config') hrun

end

/-! ## What was read from the state file -/
