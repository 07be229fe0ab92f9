import MiniContainer.Paths

/-!
# Mounts that are shared between namespaces

Every namespace of mounts has a table of its own. A new one starts with a copy of that
of the process that made it, and a mount that is *shared* is a peer of its copies from
then on: what is mounted on one of them, or taken from it, is mounted on and taken from
all of them, in whatever namespace they are. A *private* mount has no peers.

Where a path leads is left open: a call names the mount and the directory at which its
path ends. A mount is shared or private, there are no slaves, and nothing is moved.

A namespace that has no group in common with another one is separate from it. What is
called in it changes no other (`apply_of_separate`), nor does it become less separate by
what is called anywhere (`Separate.apply`).
-/

open Paths (Place)

/-- A mount. -/
structure Mount (α : Type) where
  id : ℕ
  /-- The mount on which it is mounted, -/
  parent : ℕ
  /-- and the directory, in what is mounted there. -/
  point : Place
  shows : α
  /-- The directory that is seen at the top of it. -/
  root : Place
  /-- The group of its peers, where it is shared. -/
  group : Option ℕ
  deriving DecidableEq

/-- The mounts of each namespace. -/
abbrev MountTable (α : Type) := ℕ → List (Mount α)

namespace MountTable

section

variable {α : Type}

/-- The groups to which mounts belong. -/
def groups (l : List (Mount α)) : List ℕ := l.filterMap Mount.group

/-- An identifier that is not in use. -/
def freshId (l : List (Mount α)) : ℕ := (l.map Mount.id).foldr max 0 + 1

/-- One more mount. What is mounted there already stays on top of it. -/
def attachTo (l : List (Mount α)) (parent : ℕ) (point : Place) (shows : α) (root : Place)
    (group : Option ℕ) : List (Mount α) :=
  l.map (fun c =>
    if c.parent = parent ∧ c.point = point then { c with parent := freshId l, point := root }
    else c) ++ [⟨freshId l, parent, point, shows, root, group⟩]

/-- The mounts of a group in which a directory is seen. -/
def peersAt (l : List (Mount α)) (g : ℕ) (point : Place) : List (Mount α) :=
  l.filter (fun r => r.group = some g ∧ r.root <+: point)

/-- **A mount arrives** in a namespace, on every peer. -/
def attachPeers (l : List (Mount α)) (g : ℕ) (point : Place) (shows : α) (root : Place)
    (group : Option ℕ) : List (Mount α) :=
  (peersAt l g point).foldl (fun l r => attachTo l r.id point shows root group) l

/-- **A mount is taken away** from every peer, unless something is mounted on it. -/
def detachPeers (l : List (Mount α)) (g : ℕ) (point : Place) : List (Mount α) :=
  l.filter (fun d => ¬ (d.point = point ∧ (∃ r ∈ peersAt l g point, d.parent = r.id) ∧
    ∀ e ∈ l, e.parent ≠ d.id))

/-- Some mounts are given a group, or lose theirs. -/
def setGroup (l : List (Mount α)) (which : Mount α → Bool) (group : Option ℕ) :
    List (Mount α) :=
  l.map (fun c => if which c then { c with group } else c)

/-- The group of a mount on a parent: that of what it shows, where that is shared,
and otherwise a new one if the parent has one. -/
def newGroup (parent source : Option ℕ) (g' : ℕ) : Option ℕ :=
  match source with
  | some g => some g
  | none => parent.map (fun _ => g')

/-- `mount`, in a namespace. -/
def attach (t : MountTable α) (n : ℕ) (m : Mount α) (point : Place) (shows : α) (root : Place)
    (source : Option ℕ) (g' : ℕ) : MountTable α :=
  match m.group with
  | none => Function.update t n (attachTo (t n) m.id point shows root source)
  | some g => fun k => attachPeers (t k) g point shows root (newGroup (some g) source g')

end

section

variable {α : Type} [DecidableEq α]

/-- `umount`, of a mount on a parent. -/
def detach (t : MountTable α) (n : ℕ) (m c : Mount α) : MountTable α :=
  match m.group with
  | none => Function.update t n ((t n).filter (· ≠ c))
  | some g => fun k => detachPeers (t k) g c.point

/-- A call that changes mounts, with the mounts at which its paths end. -/
inductive Call (α : Type)
  | mount (m : Mount α) (point : Place) (shows : α)
  | bind (m : Mount α) (point : Place) (source : Mount α) (root : Place)
  | umount (m c : Mount α)
  | makePrivate (m : Mount α)
  /-- With all that is mounted on it, from the root of the namespace. -/
  | makeAllPrivate
  | makeShared (m : Mount α)

/-- **What a call does**, with a group for the mounts that get a new one. -/
def apply (t : MountTable α) (n : ℕ) (g' : ℕ) : Call α → MountTable α
  | .mount m point shows => attach t n m point shows [] none g'
  | .bind m point source root => attach t n m point source.shows root source.group g'
  | .umount m c => detach t n m c
  | .makePrivate m => Function.update t n (setGroup (t n) (· = m) none)
  | .makeAllPrivate => Function.update t n (setGroup (t n) (fun _ => true) none)
  | .makeShared m =>
    Function.update t n (setGroup (t n) (fun c => c = m ∧ c.group = none) (some g'))

/-- **When a call is possible** in a namespace: its paths end in mounts of the
namespace, nothing is mounted on what is taken away, and a new group is new. -/
structure Allowed (t : MountTable α) (n : ℕ) (g' : ℕ) (c : Call α) : Prop where
  fresh : ∀ k, g' ∉ groups (t k)
  mounts : match c with
    | .mount m point _ => m ∈ t n ∧ m.root <+: point
    | .bind m point source root => m ∈ t n ∧ m.root <+: point ∧ source ∈ t n ∧ source.root <+: root
    | .umount m c => m ∈ t n ∧ c ∈ t n ∧ c.parent = m.id ∧ ∀ e ∈ t n, e.parent ≠ c.id
    | .makePrivate m => m ∈ t n
    | .makeAllPrivate => True
    | .makeShared m => m ∈ t n

end

/-! ## The groups of a namespace -/

section

variable {α : Type} {l : List (Mount α)} {g : ℕ}

theorem mem_groups_iff : g ∈ groups l ↔ ∃ m ∈ l, m.group = some g := List.mem_filterMap

theorem mem_groups_attachTo {parent : ℕ} {point root : Place} {shows : α} {group : Option ℕ}
    (h : g ∈ groups (attachTo l parent point shows root group)) :
    g ∈ groups l ∨ group = some g := by
  obtain ⟨m, hm, hg⟩ := mem_groups_iff.mp h
  rcases List.mem_append.mp hm with hm | hm
  · obtain ⟨c, hc, rfl⟩ := List.mem_map.mp hm
    refine Or.inl (mem_groups_iff.mpr ⟨c, hc, ?_⟩)
    split at hg <;> exact hg
  · rw [List.mem_singleton.mp hm] at hg
    exact Or.inr hg

theorem mem_groups_attachPeers {g₀ : ℕ} {point root : Place} {shows : α} {group : Option ℕ}
    (h : g ∈ groups (attachPeers l g₀ point shows root group)) : g ∈ groups l ∨ group = some g := by
  unfold attachPeers at h
  generalize peersAt l g₀ point = peers at h
  induction peers generalizing l with
  | nil => exact Or.inl h
  | cons r peers ih =>
    rcases ih h with h | h
    · exact mem_groups_attachTo h
    · exact Or.inr h

/-- Where nobody is in a group, nothing arrives. -/
theorem peersAt_of_notMem (h : g ∉ groups l) (point : Place) : peersAt l g point = [] := by
  refine List.filter_eq_nil_iff.mpr (fun m hm hpeer => h ?_)
  exact mem_groups_iff.mpr ⟨m, hm, (of_decide_eq_true hpeer).1⟩

theorem mem_groups_filter {p : Mount α → Bool} (h : g ∈ groups (l.filter p)) : g ∈ groups l := by
  obtain ⟨m, hm, hg⟩ := mem_groups_iff.mp h
  exact mem_groups_iff.mpr ⟨m, List.mem_of_mem_filter hm, hg⟩

theorem mem_groups_setGroup {which : Mount α → Bool} {group : Option ℕ}
    (h : g ∈ groups (setGroup l which group)) : g ∈ groups l ∨ group = some g := by
  obtain ⟨m, hm, hg⟩ := mem_groups_iff.mp h
  obtain ⟨c, hc, rfl⟩ := List.mem_map.mp hm
  split at hg
  · exact Or.inr hg
  · exact Or.inl (mem_groups_iff.mpr ⟨c, hc, hg⟩)

/-- The group of a mount that arrives. -/
theorem newGroup_eq_some {parent source : Option ℕ} {g' : ℕ}
    (h : newGroup parent source g' = some g) : source = some g ∨ g = g' := by
  cases source with
  | some g₀ => exact Or.inl h
  | none =>
    obtain ⟨_, _, hg⟩ := Option.map_eq_some_iff.mp h
    exact Or.inr hg.symm

/-- A mount that is made brings the group of what it shows, or a new one. -/
theorem mem_groups_attach {t : MountTable α} {n k g' : ℕ} {m : Mount α} {point root : Place}
    {shows : α} {source : Option ℕ} (h : g ∈ groups (attach t n m point shows root source g' k)) :
    g ∈ groups (t k) ∨ source = some g ∨ g = g' := by
  unfold attach at h
  cases hgroup : m.group with
  | none =>
    rw [hgroup] at h
    by_cases hk : k = n
    · subst hk
      dsimp only at h
      rw [Function.update_self] at h
      exact (mem_groups_attachTo h).imp_right Or.inl
    · dsimp only at h
      rw [Function.update_of_ne hk] at h
      exact Or.inl h
  | some g₀ =>
    rw [hgroup] at h
    exact (mem_groups_attachPeers h).imp_right newGroup_eq_some

end

/-! ## Separate namespaces -/

section

variable {α : Type} [DecidableEq α] {t u : MountTable α} {n k g' : ℕ} {c : Call α}

/-- Where a namespace comes from does not matter to what is called in it. -/
theorem apply_congr (h : t n = u n) (g' : ℕ) (c : Call α) :
    apply t n g' c n = apply u n g' c n := by
  cases c with
  | mount m | bind m =>
    simp only [apply, attach]
    cases m.group with
    | none =>
      dsimp only
      rw [Function.update_self, Function.update_self, h]
    | some g => exact congrArg (attachPeers · g _ _ _ _) h
  | umount m c =>
    simp only [apply, detach]
    cases m.group with
    | none =>
      dsimp only
      rw [Function.update_self, Function.update_self, h]
    | some g => exact congrArg (detachPeers · g _) h
  | makePrivate | makeAllPrivate | makeShared =>
    simp only [apply]
    rw [Function.update_self, Function.update_self, h]

omit [DecidableEq α] in
theorem Allowed.congr (hallowed : Allowed t n g' c) (h : t n = u n)
    (hfresh : ∀ k, g' ∉ groups (u k)) : Allowed u n g' c where
  fresh := hfresh
  mounts := by
    have hmounts := hallowed.mounts
    cases c <;> rwa [h] at hmounts

/-- **A call reaches a namespace** only through a group that both have. -/
theorem apply_of_apart (hallowed : Allowed t n g' c) (hk : k ≠ n)
    (h : ∀ g, g ∈ groups (t n) → g ∉ groups (t k)) : apply t n g' c k = t k := by
  have hmounts := hallowed.mounts
  cases c with
  | mount m | bind m =>
    simp only [apply, attach]
    have hm : m ∈ t n := hmounts.1
    cases hgroup : m.group with
    | none => exact Function.update_of_ne hk ..
    | some g =>
      have hg : g ∉ groups (t k) := h g (mem_groups_iff.mpr ⟨m, hm, hgroup⟩)
      dsimp only
      rw [attachPeers, peersAt_of_notMem hg, List.foldl_nil]
  | umount m c =>
    simp only [apply, detach]
    cases hgroup : m.group with
    | none => exact Function.update_of_ne hk ..
    | some g =>
      have hg : g ∉ groups (t k) := h g (mem_groups_iff.mpr ⟨m, hmounts.1, hgroup⟩)
      refine List.filter_eq_self.mpr (fun d _ => decide_eq_true ?_)
      rintro ⟨-, ⟨r, hr, -⟩, -⟩
      rw [peersAt_of_notMem hg] at hr
      cases hr
  | makePrivate | makeAllPrivate | makeShared => exact Function.update_of_ne hk ..

/-- **The groups of a namespace behind a call** were there before, come from the
caller, or are new. -/
theorem mem_groups_apply (hallowed : Allowed t n g' c) {g : ℕ}
    (h : g ∈ groups (apply t n g' c k)) : g ∈ groups (t k) ∨ g ∈ groups (t n) ∨ g = g' := by
  have hmounts := hallowed.mounts
  cases c with
  | mount m point shows =>
    refine (mem_groups_attach h).imp_right (fun h => Or.inr (h.resolve_left ?_))
    exact (Option.some_ne_none g).symm
  | bind m point source root =>
    refine (mem_groups_attach h).imp_right (Or.imp_left (fun hsource => ?_))
    exact mem_groups_iff.mpr ⟨source, hmounts.2.2.1, hsource⟩
  | umount m c =>
    simp only [apply, detach] at h
    cases hgroup : m.group with
    | none =>
      rw [hgroup] at h
      dsimp only at h
      by_cases hk : k = n
      · subst hk
        rw [Function.update_self] at h
        exact Or.inl (mem_groups_filter h)
      · rw [Function.update_of_ne hk] at h
        exact Or.inl h
    | some g₀ =>
      rw [hgroup] at h
      exact Or.inl (mem_groups_filter h)
  | makePrivate | makeAllPrivate | makeShared =>
    simp only [apply] at h
    by_cases hk : k = n
    · subst hk
      rw [Function.update_self] at h
      rcases mem_groups_setGroup h with h | h
      · exact Or.inl h
      · cases h <;> exact Or.inr (Or.inr rfl)
    · rw [Function.update_of_ne hk] at h
      exact Or.inl h

/-- **A namespace is separate** if none of its mounts has a peer in another one. -/
def Separate (t : MountTable α) (n : ℕ) : Prop :=
  ∀ k, k ≠ n → ∀ g, g ∈ groups (t n) → g ∉ groups (t k)

/-- What is called in a separate namespace changes no other one, -/
theorem Separate.apply_of_ne (h : Separate t n) (hallowed : Allowed t n g' c) (hk : k ≠ n) :
    apply t n g' c k = t k :=
  apply_of_apart hallowed hk (h k hk)

/-- and what is called in another one does not change it. -/
theorem Separate.apply_self (h : Separate t k) (hallowed : Allowed t n g' c) (hk : n ≠ k) :
    apply t n g' c k = t k :=
  apply_of_apart hallowed hk.symm (fun g hn hk' => h n hk g hk' hn)

/-- **Separate it stays**, wherever something is called. -/
theorem Separate.apply (h : Separate t k) (hallowed : Allowed t n g' c) :
    Separate (apply t n g' c) k := by
  intro i hi g hg hgi
  by_cases hk : k = n
  · subst hk
    rw [h.apply_of_ne hallowed hi] at hgi
    rcases mem_groups_apply hallowed hg with hg | hg | rfl
    · exact h i hi g hg hgi
    · exact h i hi g hg hgi
    · exact hallowed.fresh i hgi
  · rw [h.apply_self hallowed (Ne.symm hk)] at hg
    rcases mem_groups_apply hallowed hgi with hgi | hgn | rfl
    · exact h i hi g hg hgi
    · exact h n (Ne.symm hk) g hg hgn
    · exact hallowed.fresh k hg

omit [DecidableEq α] in
/-- It depends on the groups only. -/
theorem Separate.of_groups (h : Separate t k) (hgroups : ∀ i, groups (u i) ⊆ groups (t i)) :
    Separate u k :=
  fun i hi _ hg hgi => h i hi _ (hgroups k hg) (hgroups i hgi)

theorem groups_makeAllPrivate (t : MountTable α) (n g' i : ℕ) :
    groups (MountTable.apply t n g' .makeAllPrivate i) ⊆ groups (t i) := by
  intro g hg
  simp only [MountTable.apply] at hg
  by_cases hi : i = n
  · subst hi
    rw [Function.update_self] at hg
    exact (mem_groups_setGroup hg).resolve_right (Option.some_ne_none g).symm
  · rwa [Function.update_of_ne hi] at hg

/-- **A namespace whose mounts are all private is separate.** -/
theorem separate_makeAllPrivate (t : MountTable α) (n g' : ℕ) :
    Separate (MountTable.apply t n g' .makeAllPrivate) n := by
  intro i _ g hg
  obtain ⟨m, hm, hgroup⟩ := mem_groups_iff.mp hg
  simp only [MountTable.apply] at hm
  rw [Function.update_self] at hm
  obtain ⟨c, -, rfl⟩ := List.mem_map.mp hm
  cases hgroup

end

end MountTable
