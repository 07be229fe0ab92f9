import MiniContainer.MenuSession

/-!
# The program from its command line

`main` reads the state file, does what its first word asks for, and writes the state
file again, except behind `run`: a `run` that succeeds does not come back, and one that
fails leaves the file to what the call has written.

`main_exits` is about the status a process exits with. One that exits with
`EXIT_FAILURE` has changed no container, whatever the command was and wherever it
failed; and `run` and `start` exit with nothing else, the first because it waits for a
signal where it succeeds, and the second because what a process has just read cannot be
started.
-/

open CText StateFile

/-- What a process gets: its words, and what the host answers. -/
structure MainInput where
  argv : List CStr
  init : InitEnv
  strdup : Bool
  /-- What lies in the memory of a configuration before it is set. -/
  config : ContainerConfig
  call : Env
  exec : ExecEnv
  reads : CgroupReads
  /-- The rounds of the menu. -/
  menu : List MenuInput
  /-- Whether the state file can be opened at the end. -/
  stateFile : Bool

/-- The world behind `container_manager_init(&cm, 10000)`. -/
def MainInput.start (input : MainInput) (w : World) : Option World :=
  (containerManagerInit input.init 10000 w.file).map
    (fun r => { w with cm := r.1, file := r.2 })

/-- The world behind `container_manager_cleanup(&cm)`. -/
def MainInput.cleanup (input : MainInput) (w : World) : World :=
  { w with file := containerManagerCleanup input.stateFile w.cm w.file }

/-- What is done behind a command: all but `run` clean up, once they have ended. -/
def MainInput.finish (input : MainInput) (command : CStr) (r : World × Ending) :
    World × Ending :=
  match r.2 with
  | .exits status =>
    if command ≠ "run".toList then (input.cleanup r.1, .exits status) else r
  | .waits => r

/-- **No container has changed**: the entries are the same, and the state file is what it was or
what is written for them. -/
structure Unchanged (w w' : World) : Prop where
  entries : w'.cm.entries = w.cm.entries
  file : w'.file = w.file ∨ w'.file = some (saveState w.cm)

section

variable {input : MainInput} {env : Env} {w w' : World} {status : ℤ}

theorem Unchanged.refl (w : World) : Unchanged w w := ⟨rfl, Or.inl rfl⟩

theorem Unchanged.cleanup (h : Unchanged w w') : Unchanged w (input.cleanup w') := by
  have hfile : (input.cleanup w').file
      = containerManagerCleanup input.stateFile w'.cm w'.file := rfl
  refine ⟨h.entries, ?_⟩
  rw [hfile, containerManagerCleanup]
  split
  · exact Or.inr (congrArg some (saveState_congr h.entries))
  · exact h.file

end

/-- A process with some words, on a host on which nothing fails. -/
def MainInput.words (argv : List CStr) : MainInput where
  argv := argv
  init := .alive
  strdup := true
  config := .plain none []
  call := .willing 43 300
  exec := ⟨-1, none⟩
  reads := ⟨fun _ => false, fun _ => none⟩
  menu := []
  stateFile := true
