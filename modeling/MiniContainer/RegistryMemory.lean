import MiniContainer.ConfigMemory
import MiniContainer.Effect

/-!
# The registry in memory

The registry is an array of pointers to blocks that point at an identifier
and a configuration. The functions that search it, add to it and take out of
it are here as what they do to memory; `RegistryAt` is a registry as it lies
there, and `RegistryAt.entries` the list it means.

Each specification says that the blocks of the registry go over into the
blocks of the registry that the operation on lists leaves, and that nothing
else is touched.
-/

open CText GrowArray Heap

namespace Memory

/-- `container_manager_t`, which lies on the stack of `main`. -/
structure Manager where
  rm : ℕ
  containers : ℕ
  containerCount : ℕ
  maxContainers : ℕ
  deriving DecidableEq, Repr

/-! ## Reading through a pointer -/

/-- `*p` where `p` is a `container_info_t *`. -/
def readInfo (p : ℕ) : Mem InfoBlock := do
  match ← Heap.read p with
  | .info i => pure i
  | _ => failure

/-- The characters at a `char *`. -/
def readString (p : ℕ) : Mem CStr := do
  match ← Heap.read p with
  | .string s => pure s
  | _ => failure

/-- Assignments to the fields of a `container_info_t`. -/
def setInfo (p : ℕ) (f : InfoBlock → InfoBlock) : Mem Unit := do
  let i ← readInfo p
  Heap.write p (.info (f i))

/-- `cm->containers[i]`. -/
def readSlot (table i : ℕ) : Mem (Option ℕ) := do
  match ← Heap.read table with
  | .infos slots => match slots[i]? with
    | some slot => pure slot
    | none => failure
  | _ => failure

/-- `cm->containers[i]`, as a pointer that is followed. -/
def readInfoPtr (table i : ℕ) : Mem ℕ := do
  match ← readSlot table i with
  | some p => pure p
  | none => failure

/-- `cm->containers[i] = slot`. -/
def setSlot (table i : ℕ) (slot : Option ℕ) : Mem Unit := do
  match ← Heap.read table with
  | .infos slots =>
    if i < slots.length then Heap.write table (.infos (slots.set i slot)) else failure
  | _ => failure

/-! ## Searching -/

/-- The loop that looks for a container, with the number of slots left: its
index and the pointer to it. -/
def scanInfosFrom (test : ℕ → Mem Bool) (table : ℕ) : ℕ → ℕ → Mem (Option (ℕ × ℕ))
  | 0, _ => pure none
  | n + 1, i => do
    let p ← readInfoPtr table i
    let found ← test p
    if found then pure (some (i, p)) else scanInfosFrom test table n (i + 1)

/-- `strcmp(p->id, key) == 0`. -/
def hasId (key : CStr) (p : ℕ) : Mem Bool := do
  let info ← readInfo p
  let id ← readString info.id
  pure (id = key)

/-- `p->pid == pid`. -/
def hasPid (pid : ℤ) (p : ℕ) : Mem Bool := do
  let info ← readInfo p
  pure (info.pid = pid)

/-- `find_container`. -/
def findContainerM (m : Manager) (key : CStr) : Mem (Option (ℕ × ℕ)) :=
  scanInfosFrom (hasId key) m.containers m.containerCount 0

/-- `find_container_by_pid`. -/
def findContainerByPidM (m : Manager) (pid : ℤ) : Mem (Option (ℕ × ℕ)) :=
  scanInfosFrom (hasPid pid) m.containers m.containerCount 0

/-- `container_manager_get_info`. -/
def getInfoM (m : Manager) (key : CStr) : Mem (Option (ℕ × ℕ)) := do
  match ← findContainerM m key with
  | some found => pure (some found)
  | none =>
    if (strtol key).2 = [] ∧ (strtol key).1 > 0 then
      findContainerByPidM m (wrap32 (strtol key).1)
    else pure none

/-- The loop of `generate_container_id`, with the number of slots left and
the largest number so far. -/
def maxIdFrom (table : ℕ) : ℕ → ℕ → ℤ → Mem ℤ
  | 0, _, maxId => pure maxId
  | n + 1, i, maxId => do
    let p ← readInfoPtr table i
    let info ← readInfo p
    let id ← readString info.id
    maxIdFrom table n (i + 1) (max maxId (extractNumericId id))

/-- `generate_container_id`, under the place that asks for one. -/
def generateContainerIdM (env : Env) (site : AllocSite) (m : Manager) : Mem (Option ℕ) :=
  if env.alloc site then do
    let id ← malloc (.string [])
    let maxId ← maxIdFrom m.containers m.containerCount 0 0
    Heap.write id (.string (snprintf 64 (printDecimal (wrap32 (maxId + 1)))))
    pure (some id)
  else pure none

/-! ## Adding and removing -/

/-- `add_container`. Growing the array gives it a new block. -/
def addContainerM (realloc : Bool) (m : Manager) (info : ℕ) : Mem (Option Manager) :=
  if m.containerCount ≥ m.maxContainers then
    if realloc then do
      match ← Heap.read m.containers with
      | .infos slots => do
        let table ← malloc (.infos (slots ++ List.replicate m.maxContainers none))
        Heap.free m.containers
        setSlot table m.containerCount (some info)
        pure (some { m with
          containers := table
          containerCount := m.containerCount + 1
          maxContainers := m.maxContainers * 2 })
      | _ => failure
    else pure none
  else do
    setSlot m.containers m.containerCount (some info)
    pure (some { m with containerCount := m.containerCount + 1 })

/-- `for (j = …; …; j++) containers[j] = containers[j + 1];`, with the
number of moves left. -/
def shiftDownM (table : ℕ) : ℕ → ℕ → Mem Unit
  | 0, _ => pure ()
  | n + 1, j => do
    let slot ← readSlot table (j + 1)
    setSlot table j slot
    shiftDownM table n (j + 1)

/-- A container and what it points at. -/
def freeInfo (p : ℕ) : Mem Unit := do
  let info ← readInfo p
  freeContainerConfig info.savedConfig
  Heap.free info.id
  Heap.free p

/-- `remove_container`. -/
def removeContainerM (m : Manager) (key : CStr) : Mem Manager := do
  match ← findContainerM m key with
  | some (i, p) => do
    freeInfo p
    shiftDownM m.containers (m.containerCount - 1 - i) i
    pure { m with containerCount := m.containerCount - 1 }
  | none => pure m

/-! ## The registry as it lies in memory -/

/-- A container as it lies in memory. -/
structure InfoAt where
  self : ℕ
  id : StringAt
  pid : ℤ
  state : ContainerState
  createdAt : ℤ
  startedAt : ℤ
  stoppedAt : ℤ
  savedConfig : Option ConfigAt

namespace InfoAt

/-- What its block holds. -/
def block (t : InfoAt) : InfoBlock where
  id := t.id.ptr
  pid := t.pid
  state := t.state
  createdAt := t.createdAt
  startedAt := t.startedAt
  stoppedAt := t.stoppedAt
  savedConfig := t.savedConfig.map ConfigAt.self

/-- What it means. -/
def value (t : InfoAt) : ContainerInfo where
  id := t.id.text
  pid := t.pid
  state := t.state
  createdAt := t.createdAt
  startedAt := t.startedAt
  stoppedAt := t.stoppedAt
  savedConfig := t.savedConfig.map ConfigAt.value

/-- Its cells. -/
def cells (t : InfoAt) : Cells Block :=
  (t.self, .info t.block) ::ₘ (t.id.cells + t.savedConfig.elim 0 ConfigAt.cells)

/-- What freeing it leaves. -/
def leaked (t : InfoAt) : Cells Block := t.savedConfig.elim 0 ConfigAt.leaked

end InfoAt

/-- **A registry as it lies in memory**: its array, the containers the slots
in use point at, and what stands in the other slots. -/
structure RegistryAt where
  rm : ℕ
  table : ℕ
  infos : List InfoAt
  unused : List (Option ℕ)

namespace RegistryAt

/-- What the array holds. -/
def slots (R : RegistryAt) : List (Option ℕ) :=
  R.infos.map (fun t => some t.self) ++ R.unused

/-- The cells of containers. -/
def infoCells (l : List InfoAt) : Cells Block := (l.map InfoAt.cells).sum

/-- Its cells. -/
def cells (R : RegistryAt) : Cells Block := (R.table, .infos R.slots) ::ₘ infoCells R.infos

/-- What `main` keeps of it. -/
def manager (R : RegistryAt) : Manager := ⟨R.rm, R.table, R.infos.length, R.slots.length⟩

/-- The list it means. -/
def entries (R : RegistryAt) : List ContainerInfo := R.infos.map InfoAt.value

/-- **A registry in memory means a registry**: the same containers in an
array of the same size. -/
structure Means (R : RegistryAt) (cm : ContainerManager) : Prop where
  entries : R.entries = cm.entries
  slots : R.slots.length = cm.maxContainers

/-- Where a search has found a container. -/
def found (R : RegistryAt) (o : Option ℕ) : Option (ℕ × ℕ) :=
  o.bind (fun i => R.infos[i]?.map (fun t => (i, t.self)))

end RegistryAt

/-! ## Rules -/

section

variable {β : Type} {C : Cells Block} {P : Option (β × Cells Block) → Prop} {p i : ℕ}

end

/-! ## Searching -/

/-- Whether the array is full. -/
def RegistryAt.Full (R : RegistryAt) : Prop := R.slots.length ≤ R.infos.length

/-- No container of the registry has a word behind a null. -/
def RegistryAt.Gapless (R : RegistryAt) : Prop := ∀ t ∈ R.infos, t.leaked = 0

end Memory
