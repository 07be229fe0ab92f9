import Mathlib

/-!
# Walking paths

A path is a text, and the slashes in it divide it into names. The kernel
walks the names from the root of the file system on: an empty name and `.`
stay where the walk is, `..` goes up, and any other name goes down, where it
is not too long and the directory is there. `resolve` is where the walk ends,
in a file system without symbolic links.

Which directories are there decides whether a walk ends, and not where
(`eq_of_walk`). `resolve_child` says where a path with one more name leads.
-/

namespace Paths

/-- A name in a directory. -/
abbrev Name := List Char

/-- A directory, as the names that lead to it from the root. -/
abbrev Place := List Name

/-- `NAME_MAX`. -/
def nameMax : ℕ := 255

/-- The names of a path. -/
def components (path : List Char) : List Name := path.splitOn '/'

/-- One name of a walk. -/
def enter (isDir : Place → Bool) (here : Place) (name : Name) : Option Place :=
  if name = [] ∨ name = ['.'] then some here
  else if name = ['.', '.'] then some here.dropLast
  else if name.length ≤ nameMax ∧ isDir (here ++ [name]) = true then some (here ++ [name])
  else none

/-- A walk from a directory on. -/
def walk (isDir : Place → Bool) (here : Place) (names : List Name) : Option Place :=
  names.foldlM (enter isDir) here

/-- **The directory a path from the root leads to.** -/
def resolve (isDir : Place → Bool) (path : List Char) : Option Place :=
  walk isDir [] (components path)

/-- **A name that goes down**, as long as it is not too long: it is one name,
and stands for no other directory. -/
structure Plain (name : Name) : Prop where
  no_slash : '/' ∉ name
  ne_nil : name ≠ []
  ne_dot : name ≠ ['.']
  ne_dots : name ≠ ['.', '.']

variable {isDir : Place → Bool} {here place : Place} {name : Name}

theorem components_append_slash (path path' : List Char) :
    components (path ++ '/' :: path') = components path ++ components path' :=
  List.splitOn_append_cons_self _ _

theorem components_of_no_slash (h : '/' ∉ name) : components name = [name] :=
  List.splitOn_eq_singleton h

theorem walk_append (isDir : Place → Bool) (here : Place) (names names' : List Name) :
    walk isDir here (names ++ names')
      = (walk isDir here names).bind (fun place => walk isDir place names') :=
  List.foldlM_append

theorem walk_cons (isDir : Place → Bool) (here : Place) (name : Name) (names : List Name) :
    walk isDir here (name :: names)
      = (enter isDir here name).bind (fun place => walk isDir place names) :=
  List.foldlM_cons

theorem enter_of_plain (h : Plain name) :
    enter isDir here name
      = if name.length ≤ nameMax ∧ isDir (here ++ [name]) = true then some (here ++ [name])
        else none := by
  rw [enter, if_neg (not_or.mpr ⟨h.ne_nil, h.ne_dot⟩), if_neg h.ne_dots]

/-- **One more name** leads one directory down, or nowhere. -/
theorem resolve_child (path : List Char) (h : Plain name) :
    resolve isDir (path ++ '/' :: name) = (resolve isDir path).bind (fun place =>
      if name.length ≤ nameMax ∧ isDir (place ++ [name]) = true then some (place ++ [name])
      else none) := by
  rw [resolve, components_append_slash, walk_append, components_of_no_slash h.no_slash]
  refine Option.bind_congr (fun place _ => ?_)
  rw [walk_cons, enter_of_plain h]
  exact Option.bind_fun_some _

/-- One name leads to the same directory in every file system in which it
leads anywhere. -/
theorem eq_of_enter {isDir' : Place → Bool} {place' : Place}
    (h : enter isDir here name = some place) (h' : enter isDir' here name = some place') :
    place = place' := by
  unfold enter at h h'
  split at h
  · next hstay =>
    rw [if_pos hstay] at h'
    exact Option.some.inj (h.symm.trans h')
  · next hstay =>
    rw [if_neg hstay] at h'
    split at h
    · next hup =>
      rw [if_pos hup] at h'
      exact Option.some.inj (h.symm.trans h')
    · next hup =>
      rw [if_neg hup] at h'
      split at h
      · split at h'
        · exact Option.some.inj (h.symm.trans h')
        · cases h'
      · cases h

/-- **Which directories are there decides whether a walk ends, and not
where.** -/
theorem eq_of_walk {isDir' : Place → Bool} {place' : Place} {names : List Name}
    (h : walk isDir here names = some place) (h' : walk isDir' here names = some place') :
    place = place' := by
  induction names generalizing here with
  | nil => exact Option.some.inj (h.symm.trans h')
  | cons name names ih =>
    rw [walk_cons] at h h'
    obtain ⟨next, henter, hwalk⟩ := Option.bind_eq_some_iff.mp h
    obtain ⟨next', henter', hwalk'⟩ := Option.bind_eq_some_iff.mp h'
    obtain rfl := eq_of_enter henter henter'
    exact ih hwalk hwalk'

end Paths
