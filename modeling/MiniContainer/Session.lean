import MiniContainer.Effect
import MiniContainer.Run

/-!
# What can have happened

A registry comes about in one way: a process starts, with whatever the state
file holds, and makes calls; it ends, and another one starts from the file
it has left. `World.Reachable` is what such a history can lead to, for any
file at the beginning, any answers of the host on the way and any control
groups that are there already.

Little holds of every reachable registry, since any file is read and a
restart may repeat an identifier. What does is `World.Sound`: the array is
in order, and the resource manager is the one `init` makes.
-/

open CText StateFile

/-- Something that happens: a call, or the end of a process and the start of
the next one. -/
inductive HostEvent
  | calls (env : Env) (call : Call)
  | restarts (env : InitEnv) (maxContainers : ℤ)

/-- What it leads to. -/
def HostEvent.Step (w : World) (a : HostEvent) (w' : World) : Prop :=
  match a with
  | .calls env call => w.Step (env, call) w'
  | .restarts env maxContainers => restart env maxContainers w = some w'

/-- A process that has just started, on any state file. -/
def World.Started (w : World) : Prop :=
  ∃ env maxContainers file, containerManagerInit env maxContainers file = some (w.cm, w.file)

/-- **A world that can come about.** -/
def World.Reachable (w : World) : Prop := ∃ w₀ acts, w₀.Started ∧ Run HostEvent.Step w₀ acts w

/-- **What holds of every world that can come about.** -/
structure World.Sound (w : World) : Prop where
  wf : w.cm.WF
  cgroupPath : w.cm.rm.cgroupPath = basePath
  initialized : w.cm.rm.initialized = true

theorem initialized_of_resourceManagerInit {host : CgroupHost} {path : CStr}
    {rm : ResourceManager} (h : resourceManagerInit host path = some rm) :
    rm.initialized = true := by
  rw [eq_of_resourceManagerInit h]

/-- Whatever file it reads, `init` makes a sound registry. -/
theorem containerManagerInit_sound {env : InitEnv} {maxContainers : ℤ}
    {file file' : Option CStr} {cm : ContainerManager}
    (h : containerManagerInit env maxContainers file = some (cm, file')) :
    cm.WF ∧ ∃ rm, resourceManagerInit env.host basePath = some rm ∧ cm.rm = rm := by
  cases file with
  | none =>
    obtain ⟨hwf, -, hrm⟩ := containerManagerInit_none h
    exact ⟨hwf, cm.rm, hrm, rfl⟩
  | some text =>
    obtain ⟨fresh, hwf, hempty, hrm, rfl, -⟩ := containerManagerInit_some h
    refine ⟨(loadState_loaded env.load text hwf hempty).1, fresh.rm, hrm, ?_⟩
    exact loadState_rm env.load text fresh

theorem World.Started.sound {w : World} (h : w.Started) : w.Sound := by
  obtain ⟨env, maxContainers, file, hinit⟩ := h
  obtain ⟨hwf, rm, hrm, hcm⟩ := containerManagerInit_sound hinit
  refine ⟨hwf, ?_, ?_⟩
  · rw [hcm]
    exact cgroupPath_of_resourceManagerInit hrm
  · rw [hcm]
    exact initialized_of_resourceManagerInit hrm

/-- A process that starts after another one has just started. -/
theorem started_of_restart {env : InitEnv} {maxContainers : ℤ} {w w' : World}
    (h : restart env maxContainers w = some w') : w'.Started := by
  obtain ⟨⟨cm, file⟩, hinit, rfl⟩ := Option.map_eq_some_iff.mp h
  exact ⟨env, maxContainers, _, hinit⟩

/-- **Nothing that happens leaves the sound worlds.** -/
theorem World.Sound.step {w w' : World} {a : HostEvent} (h : w.Sound)
    (hstep : HostEvent.Step w a w') : w'.Sound := by
  cases a with
  | calls env call =>
    obtain ⟨r, hperform⟩ := hstep
    have hspec := Call.perform_spec h.wf hperform
    exact ⟨hspec.wf, by rw [hspec.rm]; exact h.cgroupPath, by rw [hspec.rm]; exact h.initialized⟩
  | restarts env maxContainers => exact (started_of_restart hstep).sound

theorem World.Reachable.sound {w : World} (h : w.Reachable) : w.Sound := by
  obtain ⟨w₀, acts, hstart, hrun⟩ := h
  exact Run.invariant (I := World.Sound) (fun _ _ _ => World.Sound.step) hstart.sound hrun

theorem World.Reachable.step {w w' : World} {a : HostEvent} (h : w.Reachable)
    (hstep : HostEvent.Step w a w') : w'.Reachable := by
  obtain ⟨w₀, acts, hstart, hrun⟩ := h
  exact ⟨w₀, acts ++ [a], hstart, Run.snoc hrun hstep⟩

theorem World.Started.reachable {w : World} (h : w.Started) : w.Reachable :=
  ⟨w, [], h, Run.nil⟩

/-- The world a call leads to, or the one it was made in where it does not
return. -/
def World.after (w : World) (e : Env × Call) : World :=
  ((e.2.perform e.1 w).map Prod.fst).getD w

theorem World.step_after {w : World} {e : Env × Call} (h : (e.2.perform e.1 w).isSome = true) :
    w.Step e (w.after e) := by
  obtain ⟨⟨w', r⟩, hperform⟩ := Option.isSome_iff_exists.mp h
  refine ⟨r, ?_⟩
  rw [World.after, hperform]
  rfl

theorem World.Reachable.after {w : World} (h : w.Reachable) {e : Env × Call}
    (he : (e.2.perform e.1 w).isSome = true) : (w.after e).Reachable :=
  h.step (a := .calls e.1 e.2) (World.step_after he)

/-- A process without a state file on a host on which nothing fails. -/
theorem started_empty : (World.empty 1).Started := ⟨.willing 0, 1, none, rfl⟩

/-- A process that has run one container, with the pid 42. -/
def World.ranOne : World :=
  (World.empty 1).after (.willing 42 100, .run (.plain none ["sh".toList]))

theorem reachable_ranOne : World.ranOne.Reachable := started_empty.reachable.after rfl
