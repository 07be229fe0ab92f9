import MiniContainer.ResourceManager
import MiniContainer.GrowArray
import MiniContainer.OrderedMap

/-!
# The registry of containers

`container_manager_t` keeps its containers in an array of pointers that is
searched linearly, doubled when it is full, and closed up when an entry is
removed. A `container_info_t *` into the registry is the index of its slot.

`ContainerManager.entries` is the list the array means, and
`ContainerManager.WF` says that it means one: the slots in use all point at
something and the bounds are in order. On a well-formed registry every
operation is an operation on that list (`findContainer_eq`,
`addContainer_spec`, `removeContainer_spec`, `updateAt_spec`), which is how
the rest of the development reads it.
-/

open CText GrowArray

/-- `container_manager_t`. -/
structure ContainerManager where
  rm : ResourceManager
  containers : List (Option ContainerInfo)
  containerCount : ℕ
  maxContainers : ℕ
  deriving DecidableEq, Repr

namespace ContainerManager

/-- The containers, oldest first. -/
def entries (cm : ContainerManager) : List ContainerInfo :=
  (cm.containers.take cm.containerCount).reduceOption

/-- The identifiers, oldest first. -/
def ids (cm : ContainerManager) : List CStr := cm.entries.map ContainerInfo.id

/-- **A registry the operations keep**: the bounds are in order and every
slot in use points at a container. -/
structure WF (cm : ContainerManager) : Prop where
  alloc : cm.containers.length = cm.maxContainers
  max_pos : 0 < cm.maxContainers
  holds : Holds cm.containers cm.entries
  length_entries : cm.entries.length = cm.containerCount

/-- The slots in use are what a registry holds. -/
theorem entries_eq_of_holds {cm : ContainerManager} {l : List ContainerInfo}
    (h : Holds cm.containers l) (hl : l.length = cm.containerCount) : cm.entries = l := by
  obtain ⟨t, ht⟩ := h
  unfold entries
  rw [← ht, List.take_left' (by rw [List.length_map, hl])]
  simp [List.reduceOption, List.filterMap_map]

/-- A registry is well-formed as soon as its slots hold a list of the length
it counts. -/
theorem WF.of_holds {cm : ContainerManager} {l : List ContainerInfo}
    (h : Holds cm.containers l) (hl : l.length = cm.containerCount)
    (halloc : cm.containers.length = cm.maxContainers) (hmax : 0 < cm.maxContainers) :
    cm.WF := by
  have he := entries_eq_of_holds h hl
  exact ⟨halloc, hmax, by rwa [he], by rwa [he]⟩

theorem WF.count_le {cm : ContainerManager} (h : cm.WF) :
    cm.containerCount ≤ cm.maxContainers := by
  rw [← h.length_entries, ← h.alloc]
  exact h.holds.length_le

/-- The registry `container_manager_init` starts from. -/
def fresh (rm : ResourceManager) (maxContainers : ℕ) : ContainerManager where
  rm := rm
  containers := List.replicate maxContainers none
  containerCount := 0
  maxContainers := maxContainers

@[simp] theorem entries_fresh (rm : ResourceManager) (n : ℕ) : (fresh rm n).entries = [] := rfl

theorem fresh_wf (rm : ResourceManager) {n : ℕ} (hn : 0 < n) : (fresh rm n).WF :=
  WF.of_holds (l := []) (List.nil_prefix) rfl List.length_replicate hn

/-! ## Search -/

/-- `find_container`: the first container with an identifier. -/
def findContainer (cm : ContainerManager) (containerId : CStr) : Option ℕ :=
  scan (fun c => c.id = containerId) cm.containers cm.containerCount

/-- `find_container_by_pid`: the first container with a pid. -/
def findContainerByPid (cm : ContainerManager) (pid : ℤ) : Option ℕ :=
  scan (fun c => c.pid = pid) cm.containers cm.containerCount

/-- `container_manager_get_info`: by identifier, or else by pid where the
key is a positive number. -/
def getInfo (cm : ContainerManager) (key : CStr) : Option ℕ :=
  match cm.findContainer key with
  | some i => some i
  | none =>
    if (strtol key).2 = [] ∧ (strtol key).1 > 0 then
      cm.findContainerByPid (wrap32 (strtol key).1)
    else none

/-- What an index into the registry points at. -/
def infoAt (cm : ContainerManager) (i : ℕ) : Option ContainerInfo := at? cm.containers i

theorem findContainer_eq {cm : ContainerManager} (h : cm.WF) (containerId : CStr) :
    cm.findContainer containerId = cm.entries.findIdx? (fun c => c.id = containerId) := by
  rw [findContainer, ← h.length_entries, scan_eq_findIdx? h.holds]

theorem findContainerByPid_eq {cm : ContainerManager} (h : cm.WF) (pid : ℤ) :
    cm.findContainerByPid pid = cm.entries.findIdx? (fun c => c.pid = pid) := by
  rw [findContainerByPid, ← h.length_entries, scan_eq_findIdx? h.holds]

theorem infoAt_eq {cm : ContainerManager} (h : cm.WF) {i : ℕ} (hi : i < cm.entries.length) :
    cm.infoAt i = some cm.entries[i] := by
  rw [infoAt, at?_of_holds h.holds hi, List.getElem?_eq_getElem hi]

/-- **What a search by identifier finds** is an entry with the
identifier. -/
theorem findContainer_spec {cm : ContainerManager} (h : cm.WF) {containerId : CStr} {i : ℕ}
    (hi : cm.findContainer containerId = some i) :
    ∃ hlt : i < cm.entries.length, cm.entries[i].id = containerId := by
  rw [findContainer_eq h] at hi
  obtain ⟨hlt, hid, -⟩ := List.findIdx?_eq_some_iff_getElem.mp hi
  exact ⟨hlt, of_decide_eq_true hid⟩

/-- A search by identifier fails exactly where no entry has it. -/
theorem findContainer_eq_none_iff {cm : ContainerManager} (h : cm.WF) {containerId : CStr} :
    cm.findContainer containerId = none ↔ containerId ∉ cm.ids := by
  rw [findContainer_eq h, List.findIdx?_eq_none_iff]
  refine ⟨fun hn hmem => ?_, fun hn c hc => decide_eq_false (fun he => hn ?_)⟩
  · obtain ⟨c, hc, he⟩ := List.mem_map.mp hmem
    exact absurd (hn c hc) (by simp [he])
  · exact List.mem_map.mpr ⟨c, hc, he⟩

/-- **What a key denotes** among entries: the first one with the identifier,
or else the first one with the pid. -/
def resolve (l : List ContainerInfo) (key : CStr) : Option ℕ :=
  match l.findIdx? (fun c => c.id = key) with
  | some i => some i
  | none =>
    if (strtol key).2 = [] ∧ (strtol key).1 > 0 then
      l.findIdx? (fun c => c.pid = wrap32 (strtol key).1)
    else none

theorem getInfo_eq {cm : ContainerManager} (h : cm.WF) (key : CStr) :
    cm.getInfo key = resolve cm.entries key := by
  unfold getInfo resolve
  rw [findContainer_eq h, findContainerByPid_eq h]

theorem resolve_lt {l : List ContainerInfo} {key : CStr} {i : ℕ}
    (hi : resolve l key = some i) : i < l.length := by
  unfold resolve at hi
  split at hi
  · next j hj =>
    cases hi
    exact (List.findIdx?_eq_some_iff_getElem.mp hj).1
  · split at hi
    · exact (List.findIdx?_eq_some_iff_getElem.mp hi).1
    · cases hi

/-- The index a key resolves to is that of an entry. -/
theorem getInfo_lt {cm : ContainerManager} (h : cm.WF) {key : CStr} {i : ℕ}
    (hi : cm.getInfo key = some i) : i < cm.entries.length :=
  resolve_lt (by rwa [← getInfo_eq h])

/-- **An identifier of the entries denotes its own entry.** -/
theorem resolve_of_mem {l : List ContainerInfo} {containerId : CStr}
    (hmem : containerId ∈ l.map ContainerInfo.id) :
    ∃ i, resolve l containerId = some i ∧ ∃ hlt : i < l.length, l[i].id = containerId := by
  obtain ⟨c, hc, hid⟩ := List.mem_map.mp hmem
  have hsome := List.findIdx?_eq_some_of_exists (p := fun c => decide (c.id = containerId))
    ⟨c, hc, decide_eq_true hid⟩
  obtain ⟨hlt, hfound, -⟩ := List.findIdx?_eq_some_iff_getElem.mp hsome
  exact ⟨_, by rw [resolve, hsome], hlt, of_decide_eq_true hfound⟩

/-- Where identifiers are distinct, each one denotes its own entry. -/
theorem resolve_getElem {l : List ContainerInfo}
    (hl : (l.map ContainerInfo.id).Nodup) {i : ℕ} (hi : i < l.length) :
    resolve l l[i].id = some i := by
  obtain ⟨j, hj, hlt, hid⟩ := resolve_of_mem (List.mem_map_of_mem (List.getElem_mem hi))
  rw [hj, (OrderedMap.key_eq_iff_of_nodup hl hi rfl hlt).mp hid]

/-! ## Generated identifiers -/

/-- The loop over the registry that looks for the largest number an
identifier denotes. -/
def maxNumericId (cm : ContainerManager) : ℤ :=
  (List.range cm.containerCount).foldl
    (fun maxId i =>
      match cm.infoAt i with
      | some c => max maxId (extractNumericId c.id)
      | none => maxId) 0

/-- The number after it, in `int`. -/
def nextNumericId (cm : ContainerManager) : ℤ := wrap32 (cm.maxNumericId + 1)

/-- `generate_container_id`, once its buffer is allocated. -/
def generateContainerId (cm : ContainerManager) : CStr :=
  snprintf 64 (printDecimal cm.nextNumericId)

/-- The largest number among identifiers, not below zero. -/
def maxNumber (ids : List CStr) : ℤ :=
  ids.foldl (fun maxId id => max maxId (extractNumericId id)) 0

/-- The number after the largest one among identifiers, in `int`. -/
def nextNumber (ids : List CStr) : ℤ := wrap32 (maxNumber ids + 1)

theorem isInt_nextNumber (ids : List CStr) : IsInt (nextNumber ids) := isInt_wrap32 _

theorem maxNumericId_eq {cm : ContainerManager} (h : cm.WF) :
    cm.maxNumericId = maxNumber cm.ids := by
  have hgen : ∀ n, n ≤ cm.entries.length → ∀ m : ℤ,
      (List.range n).foldl (fun maxId i =>
        match cm.infoAt i with
        | some c => max maxId (extractNumericId c.id)
        | none => maxId) m
      = ((cm.entries.take n).map ContainerInfo.id).foldl
        (fun maxId id => max maxId (extractNumericId id)) m := by
    intro n
    induction n with
    | zero => intro _ m; rfl
    | succ n ih =>
      intro hn m
      rw [List.range_succ, List.foldl_append, ih (by omega), List.foldl_cons, List.foldl_nil,
        infoAt_eq h (by omega), List.take_succ_eq_append_getElem (by omega), List.map_append,
        List.foldl_append]
      rfl
  unfold maxNumericId maxNumber ids
  rw [← h.length_entries, hgen _ le_rfl 0, List.take_length]

/-- A generated number fits the buffer it is printed into. -/
theorem snprintf_nextNumber (ids : List CStr) :
    snprintf 64 (printDecimal (nextNumber ids)) = printDecimal (nextNumber ids) := by
  refine snprintf_of_lt ?_
  have := length_printDecimal_le (isInt_nextNumber ids).isLong
  omega

/-- **A generated identifier** is the numeral of the number after the
largest one. -/
theorem generateContainerId_eq {cm : ContainerManager} (h : cm.WF) :
    cm.generateContainerId = printDecimal (nextNumber cm.ids) := by
  rw [generateContainerId, nextNumericId, maxNumericId_eq h]
  exact snprintf_nextNumber cm.ids

/-! ## Changes -/

/-- `add_container`; `none` is its `-1`, where `realloc` fails. -/
def addContainer (cm : ContainerManager) (info : ContainerInfo) (realloc : Bool) :
    Option ContainerManager :=
  if cm.containerCount ≥ cm.maxContainers ∧ ¬ realloc then none
  else
    let cm :=
      if cm.containerCount ≥ cm.maxContainers then
        { cm with
          containers := cm.containers ++ List.replicate cm.maxContainers none
          maxContainers := cm.maxContainers * 2 }
      else cm
    some { cm with
      containers := cm.containers.set cm.containerCount (some info)
      containerCount := cm.containerCount + 1 }

/-- `remove_container`: the first container with an identifier is taken out
and the later ones move down. -/
def removeContainer (cm : ContainerManager) (containerId : CStr) : ContainerManager :=
  match cm.findContainer containerId with
  | some i =>
    { cm with
      containers := shiftDown (cm.containerCount - 1 - i) i cm.containers
      containerCount := cm.containerCount - 1 }
  | none => cm

/-- Assignments through a pointer into the registry. -/
def updateAt (cm : ContainerManager) (i : ℕ) (f : ContainerInfo → ContainerInfo) :
    ContainerManager :=
  { cm with containers := update cm.containers i f }

/-- **Adding appends.** -/
theorem addContainer_spec {cm cm' : ContainerManager} (h : cm.WF) {info : ContainerInfo}
    {realloc : Bool} (hadd : cm.addContainer info realloc = some cm') :
    cm'.WF ∧ cm'.entries = cm.entries ++ [info] ∧ cm'.rm = cm.rm := by
  have hcount := h.count_le
  unfold addContainer at hadd
  split at hadd
  · cases hadd
  · rw [Option.some.injEq] at hadd
    by_cases hfull : cm.containerCount ≥ cm.maxContainers
    · rw [if_pos hfull] at hadd
      have hgrow := holds_append h.holds (List.replicate cm.maxContainers none)
      have hlen : cm.entries.length
          < (cm.containers ++ List.replicate cm.maxContainers none).length := by
        rw [List.length_append, List.length_replicate, h.alloc, h.length_entries]
        have := h.max_pos
        omega
      have hstore := holds_store hgrow hlen info
      rw [h.length_entries] at hstore
      have hl : (cm.entries ++ [info]).length = cm.containerCount + 1 := by
        rw [List.length_append, h.length_entries, List.length_singleton]
      subst hadd
      refine ⟨WF.of_holds hstore hl ?_ (Nat.mul_pos h.max_pos (by decide)),
        entries_eq_of_holds hstore hl, rfl⟩
      show (List.set _ _ _).length = cm.maxContainers * 2
      rw [List.length_set, List.length_append, List.length_replicate, h.alloc]
      omega
    · rw [if_neg hfull] at hadd
      have hlen : cm.entries.length < cm.containers.length := by
        rw [h.alloc, h.length_entries]
        omega
      have hstore := holds_store h.holds hlen info
      rw [h.length_entries] at hstore
      have hl : (cm.entries ++ [info]).length = cm.containerCount + 1 := by
        rw [List.length_append, h.length_entries, List.length_singleton]
      subst hadd
      refine ⟨WF.of_holds hstore hl ?_ h.max_pos, entries_eq_of_holds hstore hl, rfl⟩
      show (List.set _ _ _).length = cm.maxContainers
      rw [List.length_set, h.alloc]

/-- Adding changes nothing but the array. -/
theorem addContainer_rm {cm cm' : ContainerManager} {info : ContainerInfo} {realloc : Bool}
    (hadd : cm.addContainer info realloc = some cm') : cm'.rm = cm.rm := by
  unfold addContainer at hadd
  split at hadd
  · cases hadd
  · cases hadd
    dsimp only
    split <;> rfl

/-- Adding succeeds where the array has room or can be grown. -/
theorem addContainer_isSome (cm : ContainerManager) (info : ContainerInfo) :
    ∃ cm', cm.addContainer info true = some cm' := by
  unfold addContainer
  rw [if_neg (by simp)]
  exact ⟨_, rfl⟩

/-- **Removing an identifier takes out its first entry**, and nothing where
there is none. -/
theorem removeContainer_spec {cm : ContainerManager} (h : cm.WF) (containerId : CStr) :
    (cm.removeContainer containerId).WF ∧
      (cm.removeContainer containerId).entries
        = cm.entries.eraseP (fun c => c.id = containerId) ∧
      (cm.removeContainer containerId).rm = cm.rm := by
  rw [List.eraseP_eq_eraseIdx, ← findContainer_eq h, removeContainer]
  cases hi : cm.findContainer containerId with
  | none => exact ⟨h, rfl, rfl⟩
  | some i =>
    obtain ⟨hlt, -⟩ := findContainer_spec h hi
    have hshift := holds_shiftDown h.holds hlt
    have hl : (cm.entries.eraseIdx i).length = cm.containerCount - 1 := by
      rw [List.length_eraseIdx_of_lt hlt, h.length_entries]
    rw [h.length_entries] at hshift
    refine ⟨WF.of_holds hshift hl ?_ h.max_pos, entries_eq_of_holds hshift hl, rfl⟩
    show (shiftDown _ _ _).length = cm.maxContainers
    rw [length_shiftDown, h.alloc]

/-- **An assignment through a pointer changes one entry.** -/
theorem updateAt_spec {cm : ContainerManager} (h : cm.WF) {i : ℕ} (hi : i < cm.entries.length)
    (f : ContainerInfo → ContainerInfo) :
    (cm.updateAt i f).WF ∧ (cm.updateAt i f).entries = cm.entries.modify i f ∧
      (cm.updateAt i f).rm = cm.rm := by
  have hupd := holds_update h.holds i hi f
  have hl : (cm.entries.modify i f).length = cm.containerCount := by
    rw [List.length_modify, h.length_entries]
  refine ⟨WF.of_holds hupd hl ?_ h.max_pos, entries_eq_of_holds hupd hl, rfl⟩
  show (update _ _ _).length = cm.maxContainers
  rw [length_update, h.alloc]

/-! ## The registry as a map -/

/-- **The map a registry without repeated identifiers is.** -/
def toMap (cm : ContainerManager) (h : cm.ids.Nodup) : OrderedMap ContainerInfo.id :=
  ⟨cm.entries, h⟩

/-- **Searching agrees with looking up.** -/
theorem findContainer_eq_lookup {cm : ContainerManager} (h : cm.WF) (hn : cm.ids.Nodup)
    (containerId : CStr) :
    (cm.findContainer containerId).bind cm.infoAt = (cm.toMap hn).lookup containerId := by
  show _ = cm.entries.find? (fun c => decide (c.id = containerId))
  rw [List.find?_eq_bind_findIdx?_getElem?, findContainer_eq h]
  cases hf : cm.entries.findIdx? (fun c => decide (c.id = containerId)) with
  | none => rfl
  | some i =>
    have hlt := (List.findIdx?_eq_some_iff_getElem.mp hf).1
    show cm.infoAt i = cm.entries[i]?
    rw [infoAt_eq h hlt, List.getElem?_eq_getElem hlt]

end ContainerManager
