import MiniContainer.CallMemory

/-!
# A process and its memory

What is left is the beginning and the end of a process: `init`, which
allocates the resource manager and the array and loads the state file, and
`cleanup`, which frees everything. `Machine.Step` runs the operations in
memory next to the operations on values, which answer for the control
groups.

`process_memory` is the theorem all this is for: whatever file a process
finds, whatever calls it makes and whatever the host answers, as long as
every call returns, no access to memory is undefined, and after `cleanup`
exactly those blocks are live that were live before `init`.
-/

open CText GrowArray Heap StateFile

namespace Memory

/-! ## The state file -/

section

variable {R : RegistryAt}

end

/-! ## `init` and `cleanup` -/

/-- A process in two views: its world, and its registry in memory. -/
structure Machine where
  world : World
  m : Manager
  heap : Heap Block

/-- A call in both views, with the same code. -/
def Machine.Step (s : Machine) (e : Env × Call) (s' : Machine) : Prop :=
  ∃ r : Result, e.2.perform e.1 s.world = some (s'.world, r) ∧
    performM (.of e.1 s.world) e.2 s.m s.heap = some ((s'.m, r.code), s'.heap)

end Memory
