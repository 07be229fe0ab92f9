import Mathlib

/-!
# Memory that is allocated and freed

A `Heap` says what each live block holds. A computation on it ends with a
result and a heap, or is `none`, which stands for what C leaves undefined:
reading, writing or freeing a block that is not live. An address is never
handed out twice, so that a pointer to a freed block stays recognisable.

An assertion about a heap is the multiset of its cells, an address with the
block that lies there, and two parts of a heap that do not overlap are a sum
of multisets. `Runs C m Q` says what `m` does where the cells `C` are live,
and that it touches nothing else: whatever `F` is live besides is live
afterwards. `Triple` is the case that it is always defined, `Stuck` the case
that it never is, and the rules are proved for both at once.
-/

/-- **A heap**: the blocks that are live, and an address from which on none
has been handed out. -/
structure Heap (B : Type) where
  block : ℕ → Option B
  next : ℕ
  fresh : ∀ p, next ≤ p → block p = none

namespace Heap

variable {B α β : Type}

/-- A computation on a heap. -/
abbrev M (B α : Type) := StateT (Heap B) Option α

/-- The cells of a part of a heap. -/
abbrev Cells (B : Type) := Multiset (ℕ × B)

/-- The heap with another content at an address. -/
def put (h : Heap B) (p : ℕ) (b : Option B) : Heap B where
  block := Function.update h.block p b
  next := max h.next (p + 1)
  fresh q hq := by
    rw [Function.update_of_ne (by omega)]
    exact h.fresh q (by omega)

@[simp] theorem put_block_self (h : Heap B) (p : ℕ) (b : Option B) : (h.put p b).block p = b := by
  simp [put]

theorem put_block_of_ne (h : Heap B) {p q : ℕ} (b : Option B) (hq : q ≠ p) :
    (h.put p b).block q = h.block q := by
  simp [put, hq]

/-- A heap on which nothing is live. -/
def empty : Heap B := ⟨fun _ => none, 0, fun _ _ => rfl⟩

/-! ## Operations -/

/-- A new block. -/
def malloc (b : B) : M B ℕ := fun h => some (h.next, h.put h.next (some b))

/-- What a block holds. -/
def read (p : ℕ) : M B B := fun h => (h.block p).map (fun b => (b, h))

/-- An assignment to a block. -/
def write (p : ℕ) (b : B) : M B Unit := fun h =>
  (h.block p).map (fun _ => ((), h.put p (some b)))

/-- The end of a block. -/
def free (p : ℕ) : M B Unit := fun h => (h.block p).map (fun _ => ((), h.put p none))

theorem bind_run (m : M B α) (f : α → M B β) (h : Heap B) :
    (m >>= f) h = (m h).bind (fun r => f r.1 r.2) := rfl

/-! ## What a heap holds -/

/-- **A heap with certain cells**, and no others. -/
structure Holds (h : Heap B) (C : Cells B) : Prop where
  nodup : (C.map Prod.fst).Nodup
  mem : ∀ p b, h.block p = some b ↔ (p, b) ∈ C

theorem holds_empty : (empty : Heap B).Holds 0 where
  nodup := Multiset.nodup_zero
  mem _ _ := by simp [empty]

/-- The cells of a heap are determined. -/
theorem Holds.unique {h : Heap B} {C C' : Cells B} (hC : h.Holds C) (hC' : h.Holds C') :
    C = C' := by
  refine (Multiset.Nodup.ext hC.nodup.of_map hC'.nodup.of_map).mpr (fun ⟨p, b⟩ => ?_)
  rw [← hC.mem, ← hC'.mem]

section

variable {h : Heap B} {C F : Cells B} {p : ℕ} {b b' : B}

theorem Holds.block (hC : h.Holds ((p, b) ::ₘ C)) : h.block p = some b :=
  (hC.mem p b).mpr (Multiset.mem_cons_self _ _)

/-- No other cell has the address of a cell. -/
theorem Holds.notMem (hC : h.Holds ((p, b) ::ₘ C)) : p ∉ C.map Prod.fst := by
  have hnodup := hC.nodup
  rw [Multiset.map_cons] at hnodup
  exact (Multiset.nodup_cons.mp hnodup).1

theorem Holds.nodup_tail (hC : h.Holds ((p, b) ::ₘ C)) : (C.map Prod.fst).Nodup := by
  have hnodup := hC.nodup
  rw [Multiset.map_cons] at hnodup
  exact (Multiset.nodup_cons.mp hnodup).2

/-- The cells that are left where one is taken away. -/
theorem Holds.mem_tail (hC : h.Holds ((p, b) ::ₘ C)) {q : ℕ} {c : B} (hq : q ≠ p) :
    h.block q = some c ↔ (q, c) ∈ C := by
  rw [hC.mem, Multiset.mem_cons]
  exact ⟨fun hmem => hmem.resolve_left (fun he => hq (congrArg Prod.fst he)), Or.inr⟩

theorem Holds.notMem_next (hC : h.Holds C) : h.next ∉ C.map Prod.fst := by
  intro hmem
  obtain ⟨⟨q, c⟩, hq, rfl⟩ := Multiset.mem_map.mp hmem
  have hnone := h.fresh h.next le_rfl
  rw [(hC.mem _ c).mpr hq] at hnone
  cases hnone

/-- A block at an address of its own, in front of the other cells. -/
theorem holds_put (hnodup : (C.map Prod.fst).Nodup) (hp : p ∉ C.map Prod.fst)
    (hmem : ∀ q c, q ≠ p → (h.block q = some c ↔ (q, c) ∈ C)) :
    (h.put p (some b)).Holds ((p, b) ::ₘ C) where
  nodup := by
    rw [Multiset.map_cons]
    exact Multiset.nodup_cons.mpr ⟨hp, hnodup⟩
  mem q c := by
    rw [Multiset.mem_cons]
    by_cases hq : q = p
    · subst hq
      rw [put_block_self]
      refine ⟨fun he => Or.inl (by rw [Option.some.inj he]), fun hc => ?_⟩
      rcases hc with he | hc
      · rw [(Prod.mk.inj he).2]
      · exact absurd (Multiset.mem_map_of_mem Prod.fst hc) hp
    · rw [put_block_of_ne h (some b) hq, hmem q c hq]
      exact ⟨Or.inr, fun hc => hc.resolve_left (fun he => hq (congrArg Prod.fst he))⟩

/-- **A new block** is a new cell. -/
theorem Holds.malloc (hC : h.Holds C) (b : B) :
    (h.put h.next (some b)).Holds ((h.next, b) ::ₘ C) :=
  holds_put hC.nodup hC.notMem_next (fun q c _ => hC.mem q c)

/-- **An assignment** changes the content of its cell. -/
theorem Holds.write (hC : h.Holds ((p, b) ::ₘ C)) (b' : B) :
    (h.put p (some b')).Holds ((p, b') ::ₘ C) :=
  holds_put hC.nodup_tail hC.notMem (fun _ _ => hC.mem_tail)

/-- **A freed block** is a cell less. -/
theorem Holds.free (hC : h.Holds ((p, b) ::ₘ C)) : (h.put p none).Holds C where
  nodup := hC.nodup_tail
  mem q c := by
    by_cases hq : q = p
    · subst hq
      rw [put_block_self]
      exact ⟨nofun, fun hc => absurd (Multiset.mem_map_of_mem Prod.fst hc) hC.notMem⟩
    · rw [put_block_of_ne h none hq, hC.mem_tail hq]

end

/-! ## What computations do -/

/-- **What a computation does with the cells it is given**, whatever else is
live: `Q none` if it is undefined, `Q` of its result and of the cells it
leaves if it is not. -/
def Runs (C : Cells B) (m : M B α) (Q : Option (α × Cells B) → Prop) : Prop :=
  ∀ (F : Cells B) (h : Heap B), h.Holds (C + F) →
    (m h = none ∧ Q none) ∨ ∃ a h' C', m h = some (a, h') ∧ h'.Holds (C' + F) ∧ Q (some (a, C'))

/-- **A computation that is defined**, and what it leaves. -/
abbrev Triple (C : Cells B) (m : M B α) (Q : α → Cells B → Prop) : Prop :=
  Runs C m (fun o => ∃ a C', o = some (a, C') ∧ Q a C')

/-- **A computation that is undefined.** -/
abbrev Stuck (C : Cells B) (m : M B α) : Prop := Runs C m (fun o => o = none)

section

variable {C C' D : Cells B} {m : M B α} {f : α → M B β} {Q Q' : α → Cells B → Prop}
  {P P' : Option (α × Cells B) → Prop} {R : Option (β × Cells B) → Prop}

theorem Triple.run (hm : Triple C m Q) {F : Cells B} {h : Heap B} (hC : h.Holds (C + F)) :
    ∃ a h' C', m h = some (a, h') ∧ h'.Holds (C' + F) ∧ Q a C' := by
  rcases hm F h hC with ⟨-, a, C', he, -⟩ | ⟨a, h', C', hrun, hC', _, _, he, hQ⟩
  · cases he
  · cases he
    exact ⟨a, h', C', hrun, hC', hQ⟩

theorem Stuck.run (hm : Stuck C m) {F : Cells B} {h : Heap B} (hC : h.Holds (C + F)) :
    m h = none := by
  rcases hm F h hC with ⟨hrun, -⟩ | ⟨a, h', C', -, -, he⟩
  · exact hrun
  · cases he

/-- What is undefined has no triple. -/
theorem Stuck.not_triple (hm : Stuck C m) {h : Heap B} {F : Cells B} (hC : h.Holds (C + F)) :
    ¬ Triple C m Q := by
  intro htriple
  obtain ⟨a, h', C', hrun, -, -⟩ := htriple.run hC
  rw [hm.run hC] at hrun
  cases hrun

theorem Runs.pure {a : α} (hP : P (some (a, C))) : Runs C (Pure.pure a) P :=
  fun _ h hC => Or.inr ⟨a, h, C, rfl, hC, hP⟩

theorem Triple.pure {a : α} (hQ : Q a C) : Triple C (Pure.pure a) Q :=
  Runs.pure ⟨a, C, rfl, hQ⟩

/-- **Consequence.** -/
theorem Runs.mono (hm : Runs C m P) (hP : ∀ o, P o → P' o) : Runs C m P' := by
  intro F h hC
  rcases hm F h hC with ⟨hrun, hnone⟩ | ⟨a, h', C', hrun, hC', hsome⟩
  · exact Or.inl ⟨hrun, hP _ hnone⟩
  · exact Or.inr ⟨a, h', C', hrun, hC', hP _ hsome⟩

theorem Triple.mono (hm : Triple C m Q) (hQ : ∀ a C', Q a C' → Q' a C') : Triple C m Q' :=
  Runs.mono hm (fun _ ⟨a, C', he, hQa⟩ => ⟨a, C', he, hQ a C' hQa⟩)

/-- The cells in another order. -/
theorem Runs.of_eq (hm : Runs C m P) (hC : C' = C) : Runs C' m P := hC ▸ hm

theorem Triple.of_eq (hm : Triple C m Q) (hC : C' = C) : Triple C' m Q := hC ▸ hm

/-- **Sequence.** -/
theorem Triple.bind (hm : Triple C m Q) (hf : ∀ a C', Q a C' → Runs C' (f a) R) :
    Runs C (m >>= f) R := by
  intro F h hC
  obtain ⟨a, h₁, C₁, hrun, hC₁, hQ⟩ := hm.run hC
  rcases hf a C₁ hQ F h₁ hC₁ with ⟨hnone, hR⟩ | ⟨b, h₂, C₂, hrun', hC₂, hR⟩
  · refine Or.inl ⟨?_, hR⟩
    rw [bind_run, hrun]
    exact hnone
  · refine Or.inr ⟨b, h₂, C₂, ?_, hC₂, hR⟩
    rw [bind_run, hrun]
    exact hrun'

/-- **The frame**: cells a computation is not given stay as they are. -/
theorem Triple.frame (hm : Triple C m Q) (D : Cells B) :
    Triple (C + D) m (fun a C' => ∃ C₁, C' = C₁ + D ∧ Q a C₁) := by
  intro F h hC
  rw [add_assoc] at hC
  obtain ⟨a, h', C', hrun, hC', hQ⟩ := hm.run hC
  exact Or.inr ⟨a, h', C' + D, hrun, by rwa [add_assoc], a, C' + D, rfl, C', rfl, hQ⟩

/-- A computation on a part of the cells, and what comes after it. -/
theorem Triple.bind_frame (hm : Triple C m Q) (D : Cells B)
    (hf : ∀ a C', Q a C' → Runs (C' + D) (f a) R) : Runs (C + D) (m >>= f) R :=
  (hm.frame D).bind (fun a _ hQ => by
    obtain ⟨C₁, rfl, hQ⟩ := hQ
    exact hf a C₁ hQ)

/-- A computation that needs no cells, and what comes after it. -/
theorem Triple.bind_zero (hm : Triple 0 m Q)
    (hf : ∀ a C', Q a C' → Runs (C' + C) (f a) R) : Runs C (m >>= f) R :=
  (hm.bind_frame C hf).of_eq (zero_add C).symm

/-- What comes after something undefined is never reached. -/
theorem Stuck.bind_zero (hm : Stuck 0 m) (f : α → M B β) (hR : R none) :
    Runs C (m >>= f) R := by
  intro F h hC
  refine Or.inl ⟨?_, hR⟩
  rw [bind_run, hm.run (F := C + F) (by rwa [zero_add])]
  rfl

end

/-! ## Rules for the operations -/

section

variable {C C' : Cells B} {R : Option (β × Cells B) → Prop} {p q : ℕ} {b b' : B} {m : M B β}
  {g : ℕ → M B β} {k : B → M B β} {u : Unit → M B β}

theorem Runs.malloc (hg : ∀ p, Runs ((p, b) ::ₘ C) (g p) R) : Runs C (Heap.malloc b >>= g) R := by
  intro F h hC
  refine hg h.next F _ ?_
  rw [Multiset.cons_add]
  exact hC.malloc b

theorem Runs.read (hk : Runs ((p, b) ::ₘ C) (k b) R) :
    Runs ((p, b) ::ₘ C) (Heap.read p >>= k) R := by
  intro F h hC
  have hrun := hk F h hC
  rw [Multiset.cons_add] at hC
  rwa [bind_run, Heap.read, hC.block]

theorem Runs.write (hu : Runs ((p, b') ::ₘ C) (u ()) R) :
    Runs ((p, b) ::ₘ C) (Heap.write p b' >>= u) R := by
  intro F h hC
  rw [Multiset.cons_add] at hC
  rw [bind_run, Heap.write, hC.block]
  refine hu F (h.put p (some b')) ?_
  rw [Multiset.cons_add]
  exact hC.write b'

theorem Runs.free (hu : Runs C (u ()) R) : Runs ((p, b) ::ₘ C) (Heap.free p >>= u) R := by
  intro F h hC
  rw [Multiset.cons_add] at hC
  rw [bind_run, Heap.free, hC.block]
  exact hu F (h.put p none) hC.free

/-- A computation that is undefined wherever the cells are live and the
block at `p` is not. -/
def StuckAt (p : ℕ) (C : Cells B) (m : M B β) : Prop :=
  ∀ (F : Cells B) (h : Heap B), h.Holds (C + F) → h.block p = none → m h = none

/-- **Use after free**: a block is freed, and what follows cannot do without
it. -/
theorem StuckAt.runs_free (hu : StuckAt p C (u ())) (hR : R none) :
    Runs ((p, b) ::ₘ C) (Heap.free p >>= u) R := by
  intro F h hC
  rw [Multiset.cons_add] at hC
  refine Or.inl ⟨?_, hR⟩
  rw [bind_run, Heap.free, hC.block]
  exact hu F _ hC.free (put_block_self h p none)

theorem StuckAt.of_eq (hm : StuckAt p C m) (hC : C' = C) : StuckAt p C' m := hC ▸ hm

theorem StuckAt.bind (hm : StuckAt p C m) (f : β → M B α) : StuckAt p C (m >>= f) := by
  intro F h hC hp
  rw [bind_run, hm F h hC hp]
  rfl

theorem StuckAt.read_dead : StuckAt p C (Heap.read p >>= k) := by
  intro F h _ hp
  rw [bind_run, Heap.read, hp]
  rfl

theorem StuckAt.read (hk : StuckAt p ((q, b) ::ₘ C) (k b)) :
    StuckAt p ((q, b) ::ₘ C) (Heap.read q >>= k) := by
  intro F h hC hp
  have hblock := hC
  rw [Multiset.cons_add] at hblock
  rw [bind_run, Heap.read, hblock.block]
  exact hk F h hC hp

theorem StuckAt.free_dead : StuckAt p C (Heap.free p >>= u) := by
  intro F h _ hp
  rw [bind_run, Heap.free, hp]
  rfl

theorem StuckAt.free (hu : StuckAt p C (u ())) :
    StuckAt p ((q, b) ::ₘ C) (Heap.free q >>= u) := by
  intro F h hC hp
  rw [Multiset.cons_add] at hC
  rw [bind_run, Heap.free, hC.block]
  refine hu F _ hC.free ?_
  by_cases hpq : p = q
  · rw [hpq, put_block_self]
  · rwa [put_block_of_ne h none hpq]

end

end Heap
