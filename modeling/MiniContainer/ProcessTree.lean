import Mathlib.Algebra.Order.Ring.Int
import Mathlib.Data.List.Nodup
import Mathlib.Logic.Relation

/-!
# Killing a tree of processes

`kill_process_tree` sends the signals to a process, reads its children and
calls itself for each of them. By the time it reads them the process has
died, and a process that dies loses its children: the kernel gives them
another parent, and the file that lists them is empty. The recursion never
gets anywhere, for any shape of tree: `killProcessTree_eq` says that the
process itself is all that dies, and `kill_process_tree_iff` what that means
for the tree below it.
-/

/-- A process. -/
structure Process where
  pid : ℤ
  parent : ℤ
  /-- The identifiers of its threads, apart from the first, which has the
  pid. -/
  threads : List ℤ
  terminated : Bool
  deriving DecidableEq, Repr

/-- The processes there are, and those that have terminated and are known by
their pid. -/
abbrev ProcessTable := List Process

/-- **A forest of processes.** -/
structure ProcessForest where
  procs : ProcessTable
  pos : ∀ p ∈ procs, 0 < p.pid
  nodup : (procs.map Process.pid).Nodup
  acyclic : ∃ depth : ℤ → ℕ, ∀ p ∈ procs, depth p.parent < depth p.pid
  /-- A process that has terminated has no children. -/
  orphans : ∀ p ∈ procs, ∀ q ∈ procs, p.parent = q.pid → q.terminated = false

/-- How processes react to signals, and the kernel to their end. -/
structure Signals where
  /-- Whether a process dies from `SIGTERM`. From `SIGKILL` every process
  does. -/
  diesFromTerm : ℤ → Bool
  /-- The process that gets the children of one that terminates. -/
  reaper : ℤ → ℤ
  reaper_ne : ∀ pid, reaper pid ≠ pid

namespace ProcessTable

variable (σ : Signals) (pid : ℤ) (table : ProcessTable)

def isAlive : Bool := table.any (fun p => p.pid == pid && !p.terminated)

/-- What becomes of a process when another one terminates, or it does. -/
def Process.after (p : Process) : Process :=
  if p.pid = pid then { p with terminated := true }
  else if p.parent = pid then { p with parent := σ.reaper pid }
  else p

/-- A process terminates, and its children get another parent. -/
def terminate : ProcessTable :=
  if isAlive pid table then table.map (Process.after σ pid) else table

/-- `kill(pid, 0) == 0`. A process that nobody has waited for answers, and no
other signal does anything to it. -/
def answers : Bool := table.any (fun p => p.pid == pid)

/-- The process an identifier belongs to: its own or that of a thread. -/
def owner (id : ℤ) : Option Process :=
  (table.find? (fun p => p.pid = id)).or (table.find? (fun p => id ∈ p.threads))

/-- `kill(pid, SIGTERM)`. -/
def sigterm : ProcessTable := if σ.diesFromTerm pid then terminate σ pid table else table

/-- `kill(id, SIGKILL)`. -/
def sigkill (id : ℤ) : ProcessTable :=
  match owner table id with
  | some p => terminate σ p.pid table
  | none => table

/-- What `/proc/<pid>/task` lists beside the process itself. -/
def tasks : List ℤ :=
  (table.filter (fun p => p.pid == pid && !p.terminated)).flatMap Process.threads

/-- What `/proc/<pid>/task/<pid>/children` lists. -/
def children : List ℤ := (table.filter (fun p => p.parent = pid)).map Process.pid

end ProcessTable

open ProcessTable

/-- **`kill_process_tree`**, or `none` where the calls that are left do not
suffice. -/
def killProcessTree (σ : Signals) : ℕ → ℤ → ProcessTable → Option ProcessTable
  | 0, _, _ => none
  | fuel + 1, pid, table =>
    if pid ≤ 0 then some table
    else
      let table := sigterm σ pid table
      let table := if answers pid table then sigkill σ table pid else table
      let table := (tasks pid table).foldl
        (fun table tid => if tid > 0 ∧ tid ≠ pid then sigkill σ table tid else table) table
      (children pid table).foldlM
        (fun table child =>
          if child > 0 then killProcessTree σ fuel child table else some table) table

namespace ProcessTable

variable {σ : Signals} {pid : ℤ} {table : ProcessTable}

theorem isAlive_iff :
    isAlive pid table = true ↔ ∃ p ∈ table, p.pid = pid ∧ p.terminated = false := by
  unfold isAlive
  simp

theorem Process.after_pid (p : Process) : (Process.after σ pid p).pid = p.pid := by
  unfold Process.after
  split
  · rfl
  · split <;> rfl

/-- Nothing happens to what has terminated. -/
theorem terminate_of_not_alive (h : isAlive pid table = false) :
    terminate σ pid table = table := by
  rw [terminate, h]
  rfl

/-- What has terminated is not alive. -/
theorem isAlive_terminate : isAlive pid (terminate σ pid table) = false := by
  unfold terminate
  split
  · rw [Bool.eq_false_iff, Ne, isAlive_iff]
    rintro ⟨p', hp', hpid, hlive⟩
    obtain ⟨p, -, rfl⟩ := List.mem_map.mp hp'
    rw [Process.after_pid] at hpid
    rw [Process.after, if_pos hpid] at hlive
    cases hlive
  · next h => exact Bool.eq_false_iff.mpr h

theorem terminate_terminate :
    terminate σ pid (terminate σ pid table) = terminate σ pid table :=
  terminate_of_not_alive isAlive_terminate

/-- `SIGKILL` to a pid is for the process that has it. -/
theorem sigkill_pid (h : answers pid table = true) :
    sigkill σ table pid = terminate σ pid table := by
  obtain ⟨p, hp, hpid⟩ := List.any_eq_true.mp h
  have hsome : (table.find? (fun p => p.pid = pid)).isSome = true :=
    List.find?_isSome.mpr ⟨p, hp, by simpa using hpid⟩
  obtain ⟨q, hq⟩ := Option.isSome_iff_exists.mp hsome
  have hpid : q.pid = pid := by simpa using List.find?_some hq
  rw [sigkill, owner, hq, Option.some_or]
  dsimp only
  rw [hpid]

/-- What nobody answers for is not alive. -/
theorem isAlive_of_not_answers (h : answers pid table = false) : isAlive pid table = false := by
  rw [Bool.eq_false_iff] at h ⊢
  rw [Ne, isAlive_iff]
  rintro ⟨p, hp, hpid, -⟩
  exact h (List.any_eq_true.mpr ⟨p, hp, beq_iff_eq.mpr hpid⟩)

/-- **After both signals the process has terminated**, whichever of them it
died from. -/
theorem signalled_eq :
    (if answers pid (sigterm σ pid table) then sigkill σ (sigterm σ pid table) pid
      else sigterm σ pid table) = terminate σ pid table := by
  have hterm : terminate σ pid (sigterm σ pid table) = terminate σ pid table := by
    unfold sigterm
    split
    · exact terminate_terminate
    · rfl
  split
  · next h => rw [sigkill_pid h, hterm]
  · next h =>
    rw [← hterm, terminate_of_not_alive (isAlive_of_not_answers (Bool.eq_false_iff.mpr h))]

/-- What has terminated has no threads left. -/
theorem tasks_eq_nil (h : isAlive pid table = false) : tasks pid table = [] := by
  have hnone : table.filter (fun p => p.pid == pid && !p.terminated) = [] := by
    rw [List.filter_eq_nil_iff]
    exact fun p hp hlive => Bool.eq_false_iff.mp h (List.any_eq_true.mpr ⟨p, hp, hlive⟩)
  rw [tasks, hnone]
  rfl

end ProcessTable

namespace ProcessForest

variable {σ : Signals} {F : ProcessForest} {pid : ℤ}

theorem parent_ne_pid {p : Process} (hp : p ∈ F.procs) : p.parent ≠ p.pid := by
  obtain ⟨depth, hdepth⟩ := F.acyclic
  intro h
  have := hdepth p hp
  rw [h] at this
  exact lt_irrefl _ this

/-- **A process that has been terminated has no children left.** -/
theorem children_terminate (hpid : pid ∈ F.procs.map Process.pid) :
    children pid (terminate σ pid F.procs) = [] := by
  unfold children
  rw [List.map_eq_nil_iff, List.filter_eq_nil_iff]
  unfold terminate
  split
  · -- they have another parent
    intro p' hp' hparent
    obtain ⟨p, hp, rfl⟩ := List.mem_map.mp hp'
    have hparent := of_decide_eq_true hparent
    unfold Process.after at hparent
    split at hparent
    · next hself => exact parent_ne_pid hp (hparent.trans hself.symm)
    · split at hparent
      · exact σ.reaper_ne pid hparent
      · next hother => exact hother hparent
  · next hdead =>
    -- it had lost them before
    intro p hp hparent
    obtain ⟨q, hq, rfl⟩ := List.mem_map.mp hpid
    exact hdead (isAlive_iff.mpr ⟨q, hq, rfl, F.orphans p hp q hq (of_decide_eq_true hparent)⟩)

/-- **All that dies is the process itself**: for every forest, every process in
it and every way it reacts to `SIGTERM`, as soon as there is one call. -/
theorem killProcessTree_eq (σ : Signals) (hpid : pid ∈ F.procs.map Process.pid) (fuel : ℕ) :
    killProcessTree σ (fuel + 1) pid F.procs = some (terminate σ pid F.procs) := by
  obtain ⟨p, hp, rfl⟩ := List.mem_map.mp hpid
  rw [killProcessTree, if_neg (not_le.mpr (F.pos p hp))]
  dsimp only
  rw [signalled_eq, tasks_eq_nil isAlive_terminate, List.foldl_nil, children_terminate hpid]
  rfl

/-- One process is the parent of another. -/
def ParentOf (F : ProcessForest) (a b : ℤ) : Prop := ∃ p ∈ F.procs, p.parent = a ∧ p.pid = b

/-- **A process is below another**, or is that process. -/
def Below (F : ProcessForest) : ℤ → ℤ → Prop := Relation.ReflTransGen F.ParentOf

/-- A process with its pid is one process. -/
theorem eq_of_pid_eq {p q : Process} (hp : p ∈ F.procs) (hq : q ∈ F.procs) (h : p.pid = q.pid) :
    p = q := List.inj_on_of_nodup_map F.nodup hp hq h

/-- Where all children have terminated, nothing else is below. -/
theorem terminated_of_below
    (hchildren : ∀ p ∈ F.procs, p.parent = pid → p.terminated = true) {p : Process}
    (hp : p ∈ F.procs) (hbelow : F.Below pid p.pid) : p.pid = pid ∨ p.terminated = true := by
  rcases hbelow.cases_head with h | ⟨a, ⟨q, hq, hparent, rfl⟩, hrest⟩
  · exact Or.inl h.symm
  · have hdead := hchildren q hq hparent
    rcases hrest.cases_head with h | ⟨b, ⟨q', hq', hparent', rfl⟩, -⟩
    · exact Or.inr (eq_of_pid_eq hp hq h.symm ▸ hdead)
    · rw [F.orphans q' hq' q hq hparent'] at hdead
      cases hdead

end ProcessForest

open ProcessForest

/-- **A tree is killed exactly where it is one process**: for every forest and
every process in it, `kill_process_tree` returns, and all that was in the tree
below the process has terminated if and only if every child of the process had
terminated before. -/
theorem kill_process_tree_iff (σ : Signals) (F : ProcessForest) {pid : ℤ}
    (hpid : pid ∈ F.procs.map Process.pid) {fuel : ℕ} (hfuel : 0 < fuel) :
    ∃ table, killProcessTree σ fuel pid F.procs = some table ∧
      ((∀ p ∈ table, F.Below pid p.pid → p.terminated = true) ↔
        ∀ p ∈ F.procs, p.parent = pid → p.terminated = true) := by
  obtain ⟨fuel, rfl⟩ := Nat.exists_eq_add_one_of_ne_zero hfuel.ne'
  refine ⟨_, killProcessTree_eq σ hpid fuel, ?_⟩
  unfold terminate
  split
  · next halive =>
    constructor
    · -- a child is in the tree, and is as it was
      intro hall p hp hparent
      have hne : p.pid ≠ pid := fun h => parent_ne_pid hp (hparent.trans h.symm)
      have hbelow : F.Below pid (Process.after σ pid p).pid := by
        rw [Process.after_pid]
        exact Relation.ReflTransGen.single ⟨p, hp, hparent, rfl⟩
      have h := hall _ (List.mem_map_of_mem hp) hbelow
      rwa [Process.after, if_neg hne, if_pos hparent] at h
    · intro hchildren p' hp' hbelow
      obtain ⟨p, hp, rfl⟩ := List.mem_map.mp hp'
      rw [Process.after_pid] at hbelow
      unfold Process.after
      split
      · rfl
      · next hne =>
        have h := (terminated_of_below hchildren hp hbelow).resolve_left hne
        split <;> exact h
  · next hdead =>
    -- it had terminated before, and has no children
    have hchildren : ∀ p ∈ F.procs, p.parent = pid → p.terminated = true := by
      intro p hp hparent
      obtain ⟨q, hq, rfl⟩ := List.mem_map.mp hpid
      exact absurd (isAlive_iff.mpr ⟨q, hq, rfl, F.orphans p hp q hq hparent⟩) hdead
    refine iff_of_true (fun p hp hbelow => ?_) hchildren
    rcases terminated_of_below hchildren hp hbelow with h | h
    · cases hterm : p.terminated with
      | true => rfl
      | false => exact absurd (isAlive_iff.mpr ⟨p, hp, h, hterm⟩) hdead
    · exact h

/-- Processes that die from `SIGTERM`, and whose children go to the process
with the pid 1. -/
def Signals.docile : Signals where
  diesFromTerm _ := true
  reaper pid := if pid = 1 then 0 else 1
  reaper_ne pid := by
    split
    · next h => exact h ▸ by decide
    · next h => exact Ne.symm h

/-- A shell that runs a shell that runs a command. -/
def ProcessForest.nested : ProcessForest where
  procs := [⟨10, 1, [], false⟩, ⟨11, 10, [], false⟩, ⟨12, 11, [], false⟩]
  pos := by decide
  nodup := by decide
  acyclic := ⟨Int.toNat, by decide⟩
  orphans := by decide

/-- The command has no children. -/
theorem kill_process_tree_iff_command :
    ∃ table, killProcessTree .docile 1 12 nested.procs = some table ∧
      ∀ p ∈ table, nested.Below 12 p.pid → p.terminated = true := by
  have hpid : (12 : ℤ) ∈ nested.procs.map Process.pid := by decide
  obtain ⟨table, hkill, hiff⟩ := kill_process_tree_iff .docile nested hpid (Nat.one_pos)
  exact ⟨table, hkill, hiff.mpr (by decide)⟩

/-- **Killing the tree of the first shell** leaves both processes below it. -/
theorem nested_survives :
    killProcessTree .docile 3 10 nested.procs
        = some [⟨10, 1, [], true⟩, ⟨11, 1, [], false⟩, ⟨12, 11, [], false⟩] ∧
      nested.Below 10 11 ∧ nested.Below 10 12 := by
  have hshell : nested.ParentOf 10 11 := ⟨⟨11, 10, [], false⟩, by decide, rfl, rfl⟩
  have hcommand : nested.ParentOf 11 12 := ⟨⟨12, 11, [], false⟩, by decide, rfl, rfl⟩
  exact ⟨by decide, .single hshell, .tail (.single hshell) hcommand⟩
