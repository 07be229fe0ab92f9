import Mathlib

/-!
# A growable array of pointers, read as a list

A C program that keeps a sequence in an array of pointers keeps three
things: the slots it has allocated, how many of them are in use, and the
habit of moving later pointers down when one is taken out. What it means is
a list. `Holds` says which list a block of slots means – the list is what
the first slots point at, in order – and each operation on the slots is
here the operation on the list it stands for: the search loop is
`List.findIdx?` (`scan_eq_findIdx?`), storing behind the last slot in use is
appending (`holds_store`), the shifting loop is `List.eraseIdx`
(`holds_shiftDown`), and an assignment through one of the pointers is
`List.modify` (`holds_update`). A loop that goes over the slots and assigns
through each pointer in turn is `List.mapIdx` (`foldlM_range_sweep`).

The slots past the ones in use hold anything: what was there before a
deletion, or what `realloc` left in memory it did not clear.
-/

namespace GrowArray

variable {α : Type*}

/-- What slot `i` points at, if it lies in the block and is not null. -/
def at? (slots : List (Option α)) (i : ℕ) : Option α := slots[i]?.join

/-- **The list a block of slots holds**: its first slots point at the
entries, in order. -/
def Holds (slots : List (Option α)) (l : List α) : Prop := l.map some <+: slots

/-- `for (i = …; …; i++) if (p(slots[i])) return i;`, with the number of
slots left to look at. -/
def scanFrom (p : α → Bool) (slots : List (Option α)) : ℕ → ℕ → Option ℕ
  | 0, _ => none
  | n + 1, i => if (at? slots i).any p then some i else scanFrom p slots n (i + 1)

/-- The search loop over the first `n` slots. -/
def scan (p : α → Bool) (slots : List (Option α)) (n : ℕ) : Option ℕ :=
  scanFrom p slots n 0

/-- `for (j = i; …; j++) slots[j] = slots[j + 1];`, with the number of
moves left. -/
def shiftDown : ℕ → ℕ → List (Option α) → List (Option α)
  | 0, _, slots => slots
  | n + 1, j, slots => shiftDown n (j + 1) (slots.set j (at? slots (j + 1)))

/-- An assignment to the fields of what slot `i` points at. -/
def update (slots : List (Option α)) (i : ℕ) (f : α → α) : List (Option α) :=
  slots.modify i (Option.map f)

variable {slots : List (Option α)} {l : List α}

theorem Holds.length_le (h : Holds slots l) : l.length ≤ slots.length := by
  rw [← List.length_map some]
  exact List.IsPrefix.length_le h

/-- A slot in use points at the entry of its position. -/
theorem at?_of_holds (h : Holds slots l) {i : ℕ} (hi : i < l.length) :
    at? slots i = l[i]? := by
  obtain ⟨t, rfl⟩ := h
  unfold at?
  rw [List.getElem?_append_left (by rwa [List.length_map]), List.getElem?_map,
    List.getElem?_eq_getElem hi]
  rfl

theorem scanFrom_eq (h : Holds slots l) (p : α → Bool) (n i : ℕ)
    (hn : i + n = l.length) :
    scanFrom p slots n i = ((l.drop i).findIdx? p).map (· + i) := by
  induction n generalizing i with
  | zero =>
    rw [List.drop_eq_nil_of_le (by omega)]
    rfl
  | succ n ih =>
    have hi : i < l.length := by omega
    rw [scanFrom, at?_of_holds h hi, List.getElem?_eq_getElem hi,
      List.drop_eq_getElem_cons hi, List.findIdx?_cons, Option.any_some]
    by_cases hp : p l[i] = true
    · rw [if_pos hp, if_pos hp, Option.map_some, Nat.zero_add]
    · rw [if_neg hp, if_neg hp, ih (i + 1) (by omega), Option.map_map]
      refine congrArg (fun g => Option.map g _) (funext fun j => ?_)
      show j + (i + 1) = j + 1 + i
      omega

/-- **The search loop finds the first entry that matches.** -/
theorem scan_eq_findIdx? (h : Holds slots l) (p : α → Bool) :
    scan p slots l.length = l.findIdx? p := by
  rw [scan, scanFrom_eq h p l.length 0 (by omega), List.drop_zero]
  exact Option.map_id'

/-- **Storing in the first slot not in use appends.** -/
theorem holds_store (h : Holds slots l) (hlen : l.length < slots.length) (x : α) :
    Holds (slots.set l.length (some x)) (l ++ [x]) := by
  obtain ⟨t, rfl⟩ := h
  rw [List.length_append, List.length_map] at hlen
  obtain ⟨y, t, rfl⟩ := List.exists_cons_of_length_pos (l := t) (by omega)
  refine ⟨t, ?_⟩
  have hset := List.set_append_right (s := l.map some) (t := y :: t) l.length (some x)
    (by rw [List.length_map])
  rw [hset, List.length_map, Nat.sub_self, List.set_cons_zero, List.map_append,
    List.append_assoc]
  rfl

/-- Growing the block at its end does not change what it holds. -/
theorem holds_append (h : Holds slots l) (t : List (Option α)) :
    Holds (slots ++ t) l := h.trans (List.prefix_append _ _)

/-- **An assignment through a pointer changes that entry.** -/
theorem holds_update (h : Holds slots l) (i : ℕ) (hi : i < l.length) (f : α → α) :
    Holds (update slots i f) (l.modify i f) := by
  obtain ⟨t, rfl⟩ := h
  refine ⟨t, List.ext_getElem? (fun j => ?_)⟩
  unfold update
  rw [List.getElem?_modify]
  by_cases hj : j < l.length
  · rw [List.getElem?_append_left (by rwa [List.length_map, List.length_modify]),
      List.getElem?_append_left (by rwa [List.length_map]), List.getElem?_map,
      List.getElem?_map, List.getElem?_modify, List.getElem?_eq_getElem hj]
    by_cases hij : i = j <;> simp [hij]
  -- behind the slots in use the assignment reaches nothing
  · rw [List.getElem?_append_right (by rw [List.length_map, List.length_modify]; omega),
      List.getElem?_append_right (by rw [List.length_map]; omega),
      List.length_map, List.length_map, List.length_modify]
    rw [show (fun a : Option α => if i = j then Option.map f a else a) = id from by
      funext a
      rw [if_neg (by omega)]
      rfl]
    exact (id_map _).symm

@[simp] theorem length_update (slots : List (Option α)) (i : ℕ) (f : α → α) :
    (update slots i f).length = slots.length := List.length_modify _ _ _

@[simp] theorem length_shiftDown (n j : ℕ) (slots : List (Option α)) :
    (shiftDown n j slots).length = slots.length := by
  induction n generalizing j slots with
  | zero => rfl
  | succ n ih => rw [shiftDown, ih, List.length_set]

/-- What the shifting loop leaves in each slot: its own pointer outside the
range of the loop, the next one's inside. -/
theorem at?_shiftDown (n j i : ℕ) (slots : List (Option α)) (hj : j + n < slots.length) :
    at? (shiftDown n j slots) i
      = if j ≤ i ∧ i < j + n then at? slots (i + 1) else at? slots i := by
  induction n generalizing j slots with
  | zero => rw [shiftDown, if_neg (by omega)]
  | succ n ih =>
    have hset : ∀ m : ℕ, at? (slots.set j (at? slots (j + 1))) m
        = if m = j then at? slots (j + 1) else at? slots m := by
      intro m
      by_cases hm : m = j
      · subst hm
        unfold at?
        rw [if_pos rfl, List.getElem?_set_self (by omega)]
        rfl
      · unfold at?
        rw [if_neg hm, List.getElem?_set_ne (Ne.symm hm)]
    -- the loop goes on from the next slot, whose pointer has been copied but not changed
    rw [shiftDown, ih (j + 1) _ (by rw [List.length_set]; omega), hset, hset]
    split_ifs with h₁ h₂ h₃ h₄ h₅ h₆ <;>
      first
        | rfl
        | (exfalso; omega)
        | (rw [h₄])
        | (rw [h₅])

/-- **The shifting loop takes an entry out** and keeps the others in
order. -/
theorem holds_shiftDown (h : Holds slots l) {i : ℕ} (hi : i < l.length) :
    Holds (shiftDown (l.length - 1 - i) i slots) (l.eraseIdx i) := by
  have hlen : (l.eraseIdx i).length = l.length - 1 := List.length_eraseIdx_of_lt hi
  have hle := h.length_le
  refine List.prefix_iff_eq_take.mpr (List.ext_getElem? (fun m => ?_))
  rw [List.length_map, hlen, List.getElem?_map]
  by_cases hm : m < l.length - 1
  · have hm' : m < (shiftDown (l.length - 1 - i) i slots).length := by
      rw [length_shiftDown]; omega
    have hat : at? (shiftDown (l.length - 1 - i) i slots) m = (l.eraseIdx i)[m]? := by
      rw [at?_shiftDown _ _ _ _ (by omega), List.getElem?_eraseIdx]
      by_cases him : i ≤ m
      · rw [if_pos (by omega), if_neg (by omega), at?_of_holds h (by omega)]
      · rw [if_neg (by omega), if_pos (by omega), at?_of_holds h (by omega)]
    rw [← hat, List.getElem?_take_of_lt hm]
    obtain ⟨x, hx⟩ : ∃ x, (l.eraseIdx i)[m]? = some x :=
      ⟨_, List.getElem?_eq_getElem (by omega)⟩
    rw [← hat] at hx
    rw [hx]
    unfold at? at hx
    rw [List.getElem?_eq_getElem hm'] at hx ⊢
    exact congrArg some hx.symm
  · rw [List.getElem?_eq_none (l := l.eraseIdx i) (by omega),
      List.getElem?_eq_none (by rw [List.length_take]; omega)]
    rfl

/-- An element of a list that was modified at an index is an old one, or the
function of the one that was there. -/
theorem mem_modify {l : List α} {i : ℕ} {f : α → α} {a : α} (h : a ∈ l.modify i f) :
    a ∈ l ∨ ∃ b, l[i]? = some b ∧ a = f b := by
  obtain ⟨j, hj, rfl⟩ := List.mem_iff_getElem.mp h
  rw [List.length_modify] at hj
  rw [List.getElem_modify]
  split
  · next hij =>
    subst hij
    exact Or.inr ⟨_, List.getElem?_eq_getElem hj, rfl⟩
  · exact Or.inl (List.getElem_mem hj)

/-- What an assignment leaves of every element, it leaves of the list. -/
theorem map_modify {β : Type*} {k : α → β} {f : α → α} (hf : ∀ a, k (f a) = k a) (l : List α)
    (i : ℕ) : (l.modify i f).map k = l.map k := by
  refine List.ext_getElem (by simp) (fun j h₁ h₂ => ?_)
  rw [List.getElem_map, List.getElem_map, List.getElem_modify]
  split
  · exact hf _
  · rfl

/-- Changing the element at the end of what has been changed. -/
theorem mapIdx_modify (l : List α) (g : ℕ → α → α) (n : ℕ) :
    (l.mapIdx (fun j a => if j < n then g j a else a)).modify n (g n)
      = l.mapIdx (fun j a => if j < n + 1 then g j a else a) := by
  refine List.ext_getElem? (fun j => ?_)
  rw [List.getElem?_modify, List.getElem?_mapIdx, List.getElem?_mapIdx, Option.map_eq_map,
    Option.map_map]
  refine congrArg (fun f => Option.map f l[j]?) (funext (fun a => ?_))
  rcases lt_trichotomy j n with hlt | rfl | hgt
  · simp [hlt, hlt.ne', Nat.lt_succ_of_lt hlt]
  · simp
  · simp [hgt.ne, hgt.not_gt, Nat.not_lt.mpr (Nat.succ_le_of_lt hgt)]

/-- **A loop whose invariant says how far it has come.** -/
theorem foldlM_range_invariant {σ : Type*} {round : ℕ → σ → Option σ} {I : ℕ → σ → Prop} {n : ℕ}
    (hround : ∀ i s, i < n → I i s → ∃ s', round i s = some s' ∧ I (i + 1) s') {s : σ}
    (hs : I 0 s) :
    ∃ s', (List.range n).foldlM (fun s i => round i s) s = some s' ∧ I n s' := by
  induction n with
  | zero => exact ⟨s, rfl, hs⟩
  | succ n ih =>
    obtain ⟨s₁, hrun, hs₁⟩ := ih (fun i s hi => hround i s (Nat.lt_succ_of_lt hi))
    obtain ⟨s₂, hlast, hs₂⟩ := hround n s₁ (Nat.lt_succ_self n) hs₁
    refine ⟨s₂, ?_, hs₂⟩
    rw [List.range_succ, List.foldlM_append, hrun]
    simp [hlast]

/-- **A loop over the slots in use**: if the round for a slot changes the
element in it and no other, the loop changes each element once. -/
theorem foldlM_range_sweep {σ : Type*} {round : ℕ → σ → Option σ} {g : ℕ → α → α}
    {entries : σ → List α} {I : σ → Prop}
    (hround : ∀ s i, I s → i < (entries s).length →
      ∃ s', round i s = some s' ∧ I s' ∧ entries s' = (entries s).modify i (g i))
    {s : σ} (hs : I s) :
    ∃ s', (List.range (entries s).length).foldlM (fun s i => round i s) s = some s' ∧ I s' ∧
      entries s' = (entries s).mapIdx g := by
  have hprefix : ∀ n, n ≤ (entries s).length →
      ∃ s', (List.range n).foldlM (fun s i => round i s) s = some s' ∧ I s' ∧
        entries s' = (entries s).mapIdx (fun j a => if j < n then g j a else a) := by
    intro n
    induction n with
    | zero =>
      intro _
      exact ⟨s, rfl, hs, List.ext_getElem (by simp) (by simp)⟩
    | succ n ih =>
      intro hn
      obtain ⟨s₁, hrun, hs₁, hentries₁⟩ := ih (by omega)
      have hlen : n < (entries s₁).length := by
        rw [hentries₁, List.length_mapIdx]
        omega
      obtain ⟨s₂, hlast, hs₂, hentries₂⟩ := hround s₁ n hs₁ hlen
      refine ⟨s₂, ?_, hs₂, ?_⟩
      · rw [List.range_succ, List.foldlM_append, hrun]
        simp [hlast]
      · rw [hentries₂, hentries₁, mapIdx_modify]
  obtain ⟨s', hrun, hs', hentries⟩ := hprefix _ le_rfl
  refine ⟨s', hrun, hs', ?_⟩
  rw [hentries]
  refine List.ext_getElem (by simp) (fun j h₁ h₂ => ?_)
  rw [List.length_mapIdx] at h₁
  simp [h₁]

end GrowArray
