import Mathlib

/-!
# Insertion-ordered finite maps

A registry is a finite map that remembers in which order its entries came.
Each entry carries its own key, so the map is a list of entries in which no
two have the same key, and `OrderedMap` carries that as a field: a list with
a repeated key is not one.

Looking up, inserting at the end, erasing and modifying an entry are the
four operations, and the lemmas below are the laws between them:
`lookup_insert`, `lookup_erase` and `lookup_modify` say what each does to
every key. `eraseIdx_eq_filter` and `modify_eq_map` connect an operation at the
position of an entry with the operation at its key, which is where a
concrete representation by positions meets the map.
-/

/-- **A finite map in insertion order**, its entries carrying their keys. -/
structure OrderedMap {α κ : Type*} (key : α → κ) where
  /-- The entries, oldest first. -/
  entries : List α
  /-- No two entries have the same key. -/
  nodup : (entries.map key).Nodup

namespace OrderedMap

variable {α κ : Type*} {key : α → κ}

@[ext] theorem ext {m m' : OrderedMap key} (h : m.entries = m'.entries) : m = m' := by
  cases m
  cases m'
  cases h
  rfl

/-- The keys, oldest first. -/
def keys (m : OrderedMap key) : List κ := m.entries.map key

theorem mem_keys {m : OrderedMap key} {k : κ} :
    k ∈ m.keys ↔ ∃ a ∈ m.entries, key a = k := List.mem_map

/-- Two entries with the same key are one entry. -/
theorem eq_of_key_eq {m : OrderedMap key} {a b : α} (ha : a ∈ m.entries)
    (hb : b ∈ m.entries) (h : key a = key b) : a = b :=
  List.inj_on_of_nodup_map m.nodup ha hb h

/-- **Inserting** an entry with a new key, at the end. -/
def insert (m : OrderedMap key) (a : α) (h : key a ∉ m.keys) : OrderedMap key where
  entries := m.entries ++ [a]
  nodup := by
    rw [List.map_append, List.map_singleton]
    exact List.Nodup.append m.nodup (List.nodup_singleton _)
      (List.disjoint_singleton.mpr h)

@[simp] theorem entries_insert (m : OrderedMap key) (a : α) (h : key a ∉ m.keys) :
    (m.insert a h).entries = m.entries ++ [a] := rfl

variable [DecidableEq κ]

/-- **The entry of a key.** -/
def lookup (m : OrderedMap key) (k : κ) : Option α :=
  m.entries.find? (fun a => decide (key a = k))

/-- **Erasing** the entry of a key, if there is one. -/
def erase (m : OrderedMap key) (k : κ) : OrderedMap key where
  entries := m.entries.filter (fun a => decide (key a ≠ k))
  nodup := m.nodup.sublist (List.Sublist.map key List.filter_sublist)

/-- Changing entries without changing keys leaves the keys as they were. -/
theorem map_key_modify {f : α → α} (hf : ∀ a, key (f a) = key a) (k : κ) (l : List α) :
    (l.map (fun a => if key a = k then f a else a)).map key = l.map key := by
  rw [List.map_map]
  refine List.map_congr_left (fun a _ => ?_)
  show key (if key a = k then f a else a) = key a
  split
  · exact hf a
  · rfl

/-- **Modifying** the entry of a key by a function that keeps keys. -/
def modify (m : OrderedMap key) (k : κ) (f : α → α) (hf : ∀ a, key (f a) = key a) :
    OrderedMap key where
  entries := m.entries.map (fun a => if key a = k then f a else a)
  nodup := by
    rw [map_key_modify hf]
    exact m.nodup

/-! ## Lookup -/

/-- **The entry of a key is the one that carries it.** -/
theorem lookup_eq_some_iff {m : OrderedMap key} {k : κ} {a : α} :
    m.lookup k = some a ↔ a ∈ m.entries ∧ key a = k := by
  have hfound : ∀ b, m.lookup k = some b → b ∈ m.entries ∧ key b = k :=
    fun b hb => ⟨List.mem_of_find?_eq_some hb,
      of_decide_eq_true (List.find?_some (p := fun a => decide (key a = k)) hb)⟩
  refine ⟨hfound a, fun h => ?_⟩
  obtain ⟨b, hb⟩ := Option.isSome_iff_exists.mp (List.find?_isSome
    (p := fun a => decide (key a = k)) |>.mpr ⟨a, h.1, decide_eq_true h.2⟩)
  have hb : m.lookup k = some b := hb
  rw [hb, eq_of_key_eq (hfound b hb).1 h.1 ((hfound b hb).2.trans h.2.symm)]

theorem lookup_eq_none_iff {m : OrderedMap key} {k : κ} :
    m.lookup k = none ↔ k ∉ m.keys := by
  rw [lookup, List.find?_eq_none, mem_keys]
  refine ⟨fun h ⟨a, ha, hk⟩ => h a ha (decide_eq_true hk), fun h a ha hk => ?_⟩
  exact h ⟨a, ha, of_decide_eq_true hk⟩

/-! ## The laws of the operations -/

/-- An inserted entry is found under its key, and nothing else changes. -/
theorem lookup_insert (m : OrderedMap key) (a : α) (h : key a ∉ m.keys) (k : κ) :
    (m.insert a h).lookup k = if key a = k then some a else m.lookup k := by
  rw [lookup, entries_insert, List.find?_append]
  split
  · next hk =>
    rw [show m.entries.find? _ = none from lookup_eq_none_iff.mpr (hk ▸ h)]
    simp [hk]
  · next hk => simp [lookup, hk]

/-- An erased key has no entry, and nothing else changes. -/
theorem lookup_erase (m : OrderedMap key) (k k' : κ) :
    (m.erase k).lookup k' = if k = k' then none else m.lookup k' := by
  unfold lookup erase
  rw [List.find?_filter]
  split
  · next hk =>
    subst hk
    exact List.find?_eq_none.mpr (fun a _ => by simp)
  · next hk =>
    refine congrArg (fun p => m.entries.find? p) (funext fun a => ?_)
    refine decide_eq_decide.mpr ⟨fun h => of_decide_eq_true h.2, fun h => ?_⟩
    exact ⟨decide_eq_true (fun he => hk (he ▸ h)), decide_eq_true h⟩

/-- A modified entry is the function of the old one, and nothing else
changes. -/
theorem lookup_modify (m : OrderedMap key) (k : κ) (f : α → α)
    (hf : ∀ a, key (f a) = key a) (k' : κ) :
    (m.modify k f hf).lookup k' = if k = k' then (m.lookup k').map f else m.lookup k' := by
  have hkey : ∀ a, key (if key a = k then f a else a) = key a := by
    intro a
    split
    · exact hf a
    · rfl
  have hfind : (m.modify k f hf).lookup k'
      = (m.lookup k').map (fun a => if key a = k then f a else a) := by
    unfold lookup modify
    rw [List.find?_map]
    refine congrArg (Option.map _) (congrArg (fun p => m.entries.find? p) (funext fun a => ?_))
    show decide (key (if key a = k then f a else a) = k') = decide (key a = k')
    rw [hkey]
  rw [hfind]
  cases hl : m.lookup k' with
  | none => simp
  | some a =>
    obtain ⟨-, rfl⟩ := lookup_eq_some_iff.mp hl
    by_cases hk : key a = k
    · rw [if_pos hk.symm, Option.map_some, Option.map_some, if_pos hk]
    · rw [if_neg (Ne.symm hk), Option.map_some, if_neg hk]

@[simp] theorem keys_modify (m : OrderedMap key) (k : κ) (f : α → α)
    (hf : ∀ a, key (f a) = key a) : (m.modify k f hf).keys = m.keys :=
  map_key_modify hf k m.entries

/-- Erasing a key there is not does nothing. -/
theorem erase_of_not_mem {m : OrderedMap key} {k : κ} (h : k ∉ m.keys) : m.erase k = m := by
  refine ext (List.filter_eq_self.mpr (fun a ha => ?_))
  exact decide_eq_true (fun hk => h (mem_keys.mpr ⟨a, ha, hk⟩))

/-- Modifying an entry and erasing it is erasing it. -/
theorem erase_modify (m : OrderedMap key) (k : κ) (f : α → α) (hf : ∀ a, key (f a) = key a) :
    (m.modify k f hf).erase k = m.erase k := by
  refine ext ?_
  show (m.entries.map _).filter _ = m.entries.filter _
  have hkey : ∀ a, decide (key (if key a = k then f a else a) ≠ k) = decide (key a ≠ k) := by
    intro a
    split
    · rw [hf]
    · rfl
  rw [List.filter_map, show (fun a => decide (key a ≠ k)) ∘ (fun a => if key a = k then f a else a)
    = fun a => decide (key a ≠ k) from funext hkey]
  refine (List.map_congr_left (fun a ha => ?_)).trans (List.map_id _)
  exact if_neg (of_decide_eq_true (List.mem_filter.mp ha).2)

/-! ## Operations at a position

The entry of a key is at one position, so an operation there is the
operation at the key. -/

omit [DecidableEq κ] in
/-- In a list without repeated keys, the position of a key is unique. -/
theorem key_eq_iff_of_nodup {l : List α} (hl : (l.map key).Nodup) {i : ℕ} (hi : i < l.length)
    {k : κ} (hk : key l[i] = k) {j : ℕ} (hj : j < l.length) : key l[j] = k ↔ j = i := by
  constructor
  · intro h
    have hnd := List.nodup_iff_injective_get.mp hl
    have := @hnd ⟨j, by rwa [List.length_map]⟩ ⟨i, by rwa [List.length_map]⟩
      (by simp [h, hk])
    exact congrArg Fin.val this
  · rintro rfl
    exact hk

/-- **Erasing at the position of a key** is erasing the key. -/
theorem eraseIdx_eq_filter {l : List α} (hl : (l.map key).Nodup) {i : ℕ} (hi : i < l.length)
    {k : κ} (hk : key l[i] = k) :
    l.eraseIdx i = l.filter (fun a => decide (key a ≠ k)) := by
  have hrest : ∀ j : ℕ, (hj : j < l.length) → j ≠ i → decide (key l[j] ≠ k) = true :=
    fun j hj hne => decide_eq_true (fun h => hne ((key_eq_iff_of_nodup hl hi hk hj).mp h))
  conv_rhs => rw [← List.take_append_drop i l, List.drop_eq_getElem_cons hi]
  rw [List.eraseIdx_eq_take_drop_succ, List.filter_append,
    List.filter_cons_of_neg (by simp [hk]), List.filter_eq_self.mpr, List.filter_eq_self.mpr]
  -- no position behind this one has the key, and none before it
  · intro a ha
    obtain ⟨j, hj, rfl⟩ := List.mem_iff_getElem.mp ha
    rw [List.length_drop] at hj
    rw [List.getElem_drop]
    exact hrest (i + 1 + j) (by omega) (by omega)
  · intro a ha
    obtain ⟨j, hj, rfl⟩ := List.mem_iff_getElem.mp ha
    rw [List.length_take] at hj
    rw [List.getElem_take]
    exact hrest j (by omega) (by omega)

/-- **Erasing the first entry of a key** is erasing the key. -/
theorem eraseP_eq_filter {l : List α} (hl : (l.map key).Nodup) (k : κ) :
    l.eraseP (fun a => decide (key a = k)) = l.filter (fun a => decide (key a ≠ k)) := by
  rw [List.eraseP_eq_eraseIdx]
  cases hi : l.findIdx? (fun a => decide (key a = k)) with
  | none =>
    have hk := List.findIdx?_eq_none_iff.mp hi
    exact (List.filter_eq_self.mpr
      (fun a ha => decide_eq_true (of_decide_eq_false (hk a ha)))).symm
  | some i =>
    obtain ⟨hlt, hk, -⟩ := List.findIdx?_eq_some_iff_getElem.mp hi
    exact eraseIdx_eq_filter hl hlt (of_decide_eq_true hk)

/-- **Modifying at the position of a key** is modifying the entry of the
key. -/
theorem modify_eq_map {l : List α} (hl : (l.map key).Nodup) {i : ℕ} (hi : i < l.length)
    {k : κ} (hk : key l[i] = k) (f : α → α) :
    l.modify i f = l.map (fun a => if key a = k then f a else a) := by
  refine List.ext_getElem (by simp) (fun j hj hj' => ?_)
  rw [List.length_modify] at hj
  rw [List.getElem_modify, List.getElem_map]
  by_cases hij : i = j
  · subst hij
    rw [if_pos rfl, if_pos hk]
  · rw [if_neg hij, if_neg (fun h => hij ((key_eq_iff_of_nodup hl hi hk hj).mp h).symm)]

end OrderedMap
