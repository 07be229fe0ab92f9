import Mathlib.Data.List.Basic
import Mathlib.Data.List.Range

/-!
# Segments of a row

A row is passed over from left to right. Some of its positions are kept, and some
others separate. What is kept falls into segments: two positions are in the same
one exactly if none between them separates.

`Cut` is the invariant of a loop that collects the segments, with those it has
closed and the one that is pending, and has a rule for each kind of position. At
the end, `Cut.close` gives `Segments`.
-/

/-- Two positions are in the same of some segments. -/
def Together (segments : List (List ℕ)) (i j : ℕ) : Prop :=
  ∃ segment ∈ segments, i ∈ segment ∧ j ∈ segment

/-- No position between two separates. -/
def Unseparated (separates : ℕ → Prop) (i j : ℕ) : Prop := ∀ k, i < k → k < j → ¬ separates k

/-- **The segments of the first `n` positions.** None is empty, their positions are
those that are kept, in order, and two of these are together exactly if no
position between them separates. -/
structure Segments (kept separates : ℕ → Prop) [DecidablePred kept] (n : ℕ)
    (segments : List (List ℕ)) : Prop where
  ne_nil : [] ∉ segments
  flatten : segments.flatten = (List.range n).filter kept
  together : ∀ i j, i ≤ j → j < n → kept i → kept j →
    (Together segments i j ↔ Unseparated separates i j)

/-- The same while they are collected: `pending` is the segment that further
positions are added to. -/
structure Cut (kept separates : ℕ → Prop) [DecidablePred kept] (n : ℕ)
    (closed : List (List ℕ)) (pending : List ℕ) : Prop where
  ne_nil : [] ∉ closed
  flatten : closed.flatten ++ pending = (List.range n).filter kept
  mem_pending : ∀ i < n, kept i → (i ∈ pending ↔ Unseparated separates i n)
  together : ∀ i j, i ≤ j → j < n → kept i → kept j →
    (Together (closed ++ [pending]) i j ↔ Unseparated separates i j)

section

variable {segments segments' closed : List (List ℕ)} {segment pending : List ℕ} {i j n : ℕ}

@[simp] theorem together_append :
    Together (segments ++ segments') i j ↔ Together segments i j ∨ Together segments' i j := by
  simp only [Together, List.mem_append, or_and_right, exists_or]

@[simp] theorem together_singleton : Together [segment] i j ↔ i ∈ segment ∧ j ∈ segment := by
  simp only [Together, List.mem_singleton, exists_eq_left]

/-- Nothing is together in an empty segment. -/
@[simp] theorem together_filter :
    Together (segments.filter (· ≠ [])) i j ↔ Together segments i j := by
  constructor
  · rintro ⟨segment, hmem, hij⟩
    exact ⟨segment, List.mem_of_mem_filter hmem, hij⟩
  · rintro ⟨segment, hmem, hij⟩
    exact ⟨segment, List.mem_filter.mpr
      ⟨hmem, decide_eq_true (List.ne_nil_of_mem hij.1)⟩, hij⟩

theorem flatten_filter_singleton (pending : List ℕ) :
    ([pending].filter (· ≠ [])).flatten = pending := by
  by_cases h : pending = []
  · rw [h]
    rfl
  · rw [List.filter_singleton, decide_eq_true h]
    exact List.flatten_singleton

theorem nil_not_mem_filter : [] ∉ segments.filter (· ≠ []) := by
  intro h
  exact of_decide_eq_true (List.mem_filter.mp h).2 rfl

variable {separates : ℕ → Prop}

/-- Up to one position further. -/
theorem unseparated_succ_iff (hin : i < n) :
    Unseparated separates i (n + 1) ↔ Unseparated separates i n ∧ ¬ separates n := by
  constructor
  · exact fun h => ⟨fun k hik hkn => h k hik (by omega), h n hin (by omega)⟩
  · rintro ⟨h, hn⟩ k hik hkn
    by_cases hk : k = n
    · rwa [hk]
    · exact h k hik (by omega)

/-- Nothing is between a position and itself. -/
theorem unseparated_self (i : ℕ) : Unseparated separates i i :=
  fun _ hik hki => absurd hki (by omega)

end

namespace Cut

variable {kept separates : ℕ → Prop} [DecidablePred kept] {n : ℕ} {closed : List (List ℕ)}
  {pending : List ℕ}

/-- Nothing has been passed over. -/
theorem zero : Cut kept separates 0 [] [] where
  ne_nil := List.not_mem_nil
  flatten := rfl
  mem_pending := fun _ hi => absurd hi (by omega)
  together := fun _ _ _ hj => absurd hj (by omega)

/-- The positions that have been collected. -/
theorem mem_iff (h : Cut kept separates n closed pending) {i : ℕ} :
    i ∈ closed.flatten ++ pending ↔ i < n ∧ kept i := by
  rw [h.flatten, List.mem_filter, List.mem_range, decide_eq_true_iff]

theorem of_mem_pending (h : Cut kept separates n closed pending) {i : ℕ} (hi : i ∈ pending) :
    i < n ∧ kept i :=
  h.mem_iff.mp (List.mem_append_right _ hi)

/-- A position is not kept. -/
theorem range_succ_of_not (hn : ¬ kept n) :
    (List.range (n + 1)).filter kept = (List.range n).filter kept := by
  rw [List.range_succ, List.filter_append, List.filter_singleton, decide_eq_false hn]
  exact List.append_nil _

/-- **A position that is neither kept nor separates** changes nothing. -/
theorem pass (h : Cut kept separates n closed pending) (hkept : ¬ kept n)
    (hsep : ¬ separates n) : Cut kept separates (n + 1) closed pending where
  ne_nil := h.ne_nil
  flatten := by rw [range_succ_of_not hkept, h.flatten]
  mem_pending := fun i hi hki => by
    have hin : i < n := by
      have : i ≠ n := fun he => hkept (he ▸ hki)
      omega
    rw [h.mem_pending i hin hki, unseparated_succ_iff hin, and_iff_left hsep]
  together := fun i j hij hj hki hkj => by
    have : j ≠ n := fun he => hkept (he ▸ hkj)
    exact h.together i j hij (by omega) hki hkj

/-- **A position that is kept** goes to the pending segment. -/
theorem keep (h : Cut kept separates n closed pending) (hkept : kept n)
    (hsep : ¬ separates n) : Cut kept separates (n + 1) closed (pending ++ [n]) where
  ne_nil := h.ne_nil
  flatten := by
    rw [List.range_succ, List.filter_append, List.filter_singleton, decide_eq_true hkept,
      ← h.flatten, List.append_assoc]
    rfl
  mem_pending := fun i hi hki => by
    rw [List.mem_append, List.mem_singleton]
    by_cases he : i = n
    · subst he
      exact iff_of_true (Or.inr rfl) (fun k hik hkn => absurd hkn (by omega))
    · have hin : i < n := by omega
      rw [h.mem_pending i hin hki, unseparated_succ_iff hin, and_iff_left hsep, or_iff_left he]
  together := fun i j hij hj hki hkj => by
    have hclosed : ∀ i, ¬ Together closed i n := fun i ⟨segment, hmem, _, hn⟩ =>
      absurd (h.mem_iff.mp (List.mem_append_left _ (List.mem_flatten.mpr ⟨_, hmem, hn⟩))).1
        (by omega)
    have hsame : ∀ m, m ≠ n → (m ∈ pending ++ [n] ↔ m ∈ pending) := fun m hm => by
      rw [List.mem_append, List.mem_singleton, or_iff_left hm]
    rw [together_append, together_singleton]
    by_cases he : j = n
    · subst he
      rw [or_iff_right (hclosed i), and_iff_left List.mem_concat_self]
      by_cases hi : i = j
      · subst hi
        exact iff_of_true List.mem_concat_self (unseparated_self i)
      · rw [hsame i hi, h.mem_pending i (by omega) hki]
    · rw [hsame i (by omega), hsame j he, ← together_singleton, ← together_append]
      exact h.together i j hij (by omega) hki hkj

/-- **A position that separates** closes the pending segment, unless that is
empty. -/
theorem cut (h : Cut kept separates n closed pending) (hkept : ¬ kept n) (hsep : separates n) :
    Cut kept separates (n + 1) (closed ++ [pending].filter (· ≠ [])) [] where
  ne_nil := by
    rw [List.mem_append, not_or]
    exact ⟨h.ne_nil, nil_not_mem_filter⟩
  flatten := by
    rw [List.append_nil, List.flatten_append, flatten_filter_singleton, h.flatten,
      range_succ_of_not hkept]
  mem_pending := fun i hi hki => by
    have hin : i < n := by
      have : i ≠ n := fun he => hkept (he ▸ hki)
      omega
    rw [unseparated_succ_iff hin]
    exact iff_of_false List.not_mem_nil (fun h => h.2 hsep)
  together := fun i j hij hj hki hkj => by
    have : j ≠ n := fun he => hkept (he ▸ hkj)
    rw [together_append, together_append, together_filter, ← together_append,
      together_singleton, or_iff_left (fun hnil => List.not_mem_nil hnil.1)]
    exact h.together i j hij (by omega) hki hkj

/-- **At the end** the pending segment is closed. -/
theorem close (h : Cut kept separates n closed pending) :
    Segments kept separates n (closed ++ [pending].filter (· ≠ [])) where
  ne_nil := by
    rw [List.mem_append, not_or]
    exact ⟨h.ne_nil, nil_not_mem_filter⟩
  flatten := by rw [List.flatten_append, flatten_filter_singleton, h.flatten]
  together := fun i j hij hj hki hkj => by
    rw [together_append, together_filter, ← together_append]
    exact h.together i j hij hj hki hkj

end Cut

/-- The positions of a segment. -/
theorem Segments.of_mem {kept separates : ℕ → Prop} [DecidablePred kept] {n i : ℕ}
    {segments : List (List ℕ)} {segment : List ℕ} (h : Segments kept separates n segments)
    (hsegment : segment ∈ segments) (hi : i ∈ segment) : i < n ∧ kept i := by
  have hmem : i ∈ segments.flatten := List.mem_flatten.mpr ⟨_, hsegment, hi⟩
  rwa [h.flatten, List.mem_filter, List.mem_range, decide_eq_true_iff] at hmem
