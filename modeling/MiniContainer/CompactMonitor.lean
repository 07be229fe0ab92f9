import MiniContainer.MenuSession

/-!
# The monitor above the menu

`display_compact_monitor` shows ten containers at most, above the menu and before every
key. It puts those that are running first and, among them and among the others, those
that were started last, with `std::sort`, which may leave containers that are equal in
this respect in any order.

The comparison is one of keys (`monitorBefore_iff`), so it is what `std::sort` asks for.
`monitor_shows` says what can be missed: in every world that can come about all containers
are counted, and one that has no line comes behind ten that have one.
-/

open CText GrowArray

/-- The comparison that is given to `sort`. -/
def monitorBefore (a b : ContainerInfo) : Bool :=
  if a.state = .running ∧ b.state ≠ .running then true
  else if a.state ≠ .running ∧ b.state = .running then false
  else decide (a.startedAt > b.startedAt)

/-- A line of the monitor, with the memory where the container is running. -/
structure MonitorRow where
  info : ContainerInfo
  memory : Option ℕ

/-- What the monitor shows. -/
structure MonitorView where
  running : ℕ
  total : ℕ
  /-- The memory of those that are running, an `unsigned long`. -/
  memory : ℕ
  rows : List MonitorRow
  /-- How many more there are. -/
  more : ℕ

/-- The containers that have a line. -/
def MonitorView.shown (view : MonitorView) : List ContainerInfo :=
  view.rows.map MonitorRow.info

/-- The line of a container. -/
def monitorRow (reads : CgroupReads) (rm : ResourceManager) (info : ContainerInfo) : MonitorRow :=
  { info := info
    memory :=
      if info.state = .running then some (resourceManagerGetStats reads rm info.id).1.2
      else none }

/-- **`display_compact_monitor`**, without the processor time it shows. It reads the memory of
a container twice, here with the same answer. -/
def displayCompactMonitor (sort : List ContainerInfo → List ContainerInfo) (reads : CgroupReads)
    (w : World) : MonitorView :=
  let active := w.cm.entries.filter (fun info => info.state ≠ .destroyed)
  let running := active.filter (fun info => info.state = .running)
  { running := running.length
    total := active.length
    memory := (running.map (fun info =>
      (resourceManagerGetStats reads w.cm.rm info.id).1.2)).sum % 2 ^ 64
    rows := ((sort active).take 10).map (monitorRow reads w.cm.rm)
    more := (sort active).length - 10 }

/-- **What `std::sort` does**: nothing is lost, and nothing comes before what has to come
before it. -/
structure Sorts {α : Type} (before : α → α → Bool) (sort : List α → List α) : Prop where
  perm : ∀ l, (sort l).Perm l
  pairwise : ∀ l, (sort l).Pairwise (fun a b => before b a = false)

/-! ## The order -/

/-- What the containers are ordered by. -/
def monitorKey (info : ContainerInfo) : ℕ ×ₗ ℤ :=
  toLex (if info.state = .running then 0 else 1, -info.startedAt)

/-- **The comparison is one of keys.** -/
theorem monitorBefore_iff (a b : ContainerInfo) :
    monitorBefore a b = true ↔ monitorKey a < monitorKey b := by
  rw [monitorKey, monitorKey, Prod.Lex.toLex_lt_toLex]
  unfold monitorBefore
  by_cases ha : a.state = .running <;> by_cases hb : b.state = .running <;> simp [ha, hb]

/-- What does not come before comes behind, or is equal. -/
theorem monitorBefore_eq_false_iff (a b : ContainerInfo) :
    monitorBefore a b = false ↔ monitorKey b ≤ monitorKey a := by
  rw [← Bool.not_eq_true, monitorBefore_iff, not_lt]

/-- What comes behind a container is not running if that is not, and has not been started
later than it if both are. -/
theorem behind_of_not_before {row info : ContainerInfo} (h : monitorBefore info row = false) :
    (info.state = .running → row.state = .running) ∧
      ((info.state = .running ↔ row.state = .running) → info.startedAt ≤ row.startedAt) := by
  rw [monitorBefore_eq_false_iff, monitorKey, monitorKey, Prod.Lex.toLex_le_toLex] at h
  by_cases hinfo : info.state = .running <;> by_cases hrow : row.state = .running <;>
    simp_all

/-! ## No container is destroyed and there -/

/-- No entry is a destroyed one. -/
def NoneDestroyed (l : List ContainerInfo) : Prop := ∀ info ∈ l, info.state ≠ .destroyed

/-- **No call leaves a destroyed container** in the registry. -/
theorem Effect.noneDestroyed {env : Env} {call : Call} {l l' : List ContainerInfo} {r : Result}
    (h : Effect env l call r l') (hl : NoneDestroyed l) : NoneDestroyed l' := by
  have happend : ∀ info : ContainerInfo, info.state ≠ .destroyed → NoneDestroyed (l ++ [info]) := by
    intro info hstate info' hmem
    rcases List.mem_append.mp hmem with hmem | hmem
    · exact hl info' hmem
    · rwa [List.mem_singleton.mp hmem]
  have hmodify : ∀ (f : ContainerInfo → ContainerInfo) (i : ℕ),
      (∀ info, (f info).state ≠ .destroyed) → NoneDestroyed (l.modify i f) := by
    intro f i hf info hmem
    rcases mem_modify hmem with hmem | ⟨old, -, rfl⟩
    · exact hl info hmem
    · exact hf old
  induction h with
  | refused => exact hl
  | created => exact happend _ (by intro h; cases h)
  | ran => exact happend _ (by intro h; cases h)
  | started => exact hmodify _ _ (fun _ => by intro h; cases h)
  | stopped => exact hmodify _ _ (fun _ => by intro h; cases h)
  | destroyed => exact fun info hmem => hl info (List.mem_of_mem_eraseP hmem)
  | destroyedRunning _ _ _ _ ih => exact fun info hmem => ih info (List.mem_of_mem_eraseP hmem)

theorem World.Reachable.noneDestroyed {w : World} (h : w.Reachable) :
    NoneDestroyed w.cm.entries := by
  obtain ⟨w₀, acts, hstart, hrun⟩ := h
  have hall : w.Sound ∧ NoneDestroyed w.cm.entries := by
    refine Run.invariant (I := fun w => w.Sound ∧ NoneDestroyed w.cm.entries) ?_
      ⟨hstart.sound, fun info hmem => (hstart.loaded info hmem).ne_destroyed⟩ hrun
    rintro w a w' ⟨hsound, hnone⟩ hstep
    refine ⟨hsound.step hstep, ?_⟩
    cases a with
    | calls env call =>
      obtain ⟨r, hperform⟩ := hstep
      exact (Call.perform_spec hsound.wf hperform).effect.noneDestroyed hnone
    | restarts env maxContainers =>
      exact fun info hmem => ((started_of_restart hstep).loaded info hmem).ne_destroyed
  exact hall.2

/-- `list` shows every container, and so does the count of the monitor. -/
theorem handleList_eq {w : World} (h : w.Reachable) : handleList w = w.cm.entries :=
  List.filter_eq_self.mpr (fun info hmem => decide_eq_true (h.noneDestroyed info hmem))

/-! ## What is shown -/

/-- Every container is active, and the first ten of the sorted ones have a line. -/
theorem shown_displayCompactMonitor {w : World} (h : w.Reachable)
    (sort : List ContainerInfo → List ContainerInfo) (reads : CgroupReads) :
    (displayCompactMonitor sort reads w).shown = (sort w.cm.entries).take 10 := by
  have hactive : w.cm.entries.filter (fun info => info.state ≠ .destroyed) = w.cm.entries :=
    handleList_eq h
  unfold MonitorView.shown displayCompactMonitor
  dsimp only
  rw [hactive, List.map_map]
  exact List.map_id _

/-- **What the monitor shows.** In every world that can come about, whatever `sort` does with
containers that are equal: every container is counted, and shown or counted again as one
of the rest; and where one is not shown, ten others are, none of which is behind it: if it
is running they are all running, and those that are as it is, running or not, were not
started before it. -/
theorem monitor_shows {w : World} (h : w.Reachable)
    {sort : List ContainerInfo → List ContainerInfo} (hsort : Sorts monitorBefore sort)
    (reads : CgroupReads) :
    (displayCompactMonitor sort reads w).total = w.cm.entries.length ∧
      (displayCompactMonitor sort reads w).shown.length
        + (displayCompactMonitor sort reads w).more = w.cm.entries.length ∧
      (displayCompactMonitor sort reads w).shown.Subperm w.cm.entries ∧
      ∀ info ∈ w.cm.entries, info ∉ (displayCompactMonitor sort reads w).shown →
        (displayCompactMonitor sort reads w).shown.length = 10 ∧
        ∀ row ∈ (displayCompactMonitor sort reads w).shown,
          (info.state = .running → row.state = .running) ∧
          ((info.state = .running ↔ row.state = .running) → info.startedAt ≤ row.startedAt) := by
  have hactive : w.cm.entries.filter (fun info => info.state ≠ .destroyed) = w.cm.entries :=
    handleList_eq h
  have htotal : (displayCompactMonitor sort reads w).total = w.cm.entries.length :=
    congrArg List.length hactive
  have hmore : (displayCompactMonitor sort reads w).more = (sort w.cm.entries).length - 10 :=
    congrArg (fun active => (sort active).length - 10) hactive
  rw [shown_displayCompactMonitor h, htotal, hmore]
  have hperm := hsort.perm w.cm.entries
  have hpairwise := hsort.pairwise w.cm.entries
  generalize sort w.cm.entries = sorted at hperm hpairwise
  have hlen := hperm.length_eq
  refine ⟨rfl, ?_, (List.take_sublist 10 sorted).subperm.trans hperm.subperm, ?_⟩
  · rw [List.length_take]
    omega
  · intro info hmem hnot
    -- what is not among the first ten is among the others
    have hrest : info ∈ sorted.drop 10 := by
      have hsplit : info ∈ sorted.take 10 ++ sorted.drop 10 := by
        rw [List.take_append_drop]
        exact hperm.mem_iff.mpr hmem
      exact (List.mem_append.mp hsplit).resolve_left hnot
    have hlong := List.length_pos_of_mem hrest
    rw [List.length_drop] at hlong
    refine ⟨by rw [List.length_take]; omega, fun row hrow => behind_of_not_before ?_⟩
    rw [← List.take_append_drop 10 sorted, List.pairwise_append] at hpairwise
    exact hpairwise.2.2 row hrow info hrest

/-- A sort that keeps the order of what is equal. -/
theorem sorts_mergeSort :
    Sorts monitorBefore (fun l => l.mergeSort (fun a b => !monitorBefore b a)) where
  perm l := List.mergeSort_perm l _
  pairwise l := by
    refine (List.pairwise_mergeSort ?_ ?_ l).imp (fun h => by simpa using h)
    · intro a b c hab hbc
      simp only [Bool.not_eq_true', monitorBefore_eq_false_iff] at hab hbc ⊢
      exact hab.trans hbc
    · intro a b
      simp only [Bool.or_eq_true, Bool.not_eq_true', monitorBefore_eq_false_iff]
      exact le_total _ _

theorem monitor_shows_ranOne :
    (displayCompactMonitor (fun l => l.mergeSort (fun a b => !monitorBefore b a)) noReads
      World.ranOne).total = 1 :=
  (monitor_shows reachable_ranOne sorts_mergeSort noReads).1
