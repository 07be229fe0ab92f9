import MiniContainer.FileNodes
import MiniContainer.CText

/-!
# The minimal root of a container

`fs_create_minimal_root` makes the directories of a small system below a path with
`mkdir_p`, and its devices with `mknod`, and gives up at the first that cannot be made.
What is there already is no error, whatever it is: a file in place of `/bin` is taken
for the directory, and only where something has to be made below it, in `/usr`, `/var`
and `/dev`, it is noticed.

`fsCreateMinimalRoot_iff` says for which trees and paths the whole of it succeeds; in
every case nothing is lost, and behind a success a second call finds everything and
changes nothing.
-/

open Paths (Name Place)
open CText
open FileTree

/-- What is no directory. -/
inductive Inode
  | regular (bytes : List Char)
  | device (mode major minor : ℕ)
  deriving DecidableEq, Repr

variable {t t' : FileTree Inode} {cwd here place : Place} {root : CStr} {dirs : List CStr}

/-- A path below the root, as the two tables have them. -/
structure Below (path : CStr) (below : List Name) : Prop where
  slash : path.head? = some '/'
  last : path.getLast? ≠ some '/'
  names : names path = below
  plain : Plain below
  short : path.length ≤ 27

instance (path : CStr) (below : List Name) : Decidable (Below path below) :=
  decidable_of_iff (path.head? = some '/' ∧ path.getLast? ≠ some '/' ∧ names path = below ∧
    (∀ name ∈ below, name ≠ [] ∧ ¬ IsDots name) ∧ path.length ≤ 27)
    ⟨fun ⟨h₁, h₂, h₃, h₄, h₅⟩ => ⟨h₁, h₂, h₃, h₄, h₅⟩,
      fun h => ⟨h.slash, h.last, h.names, h.plain, h.short⟩⟩

section

variable {path : CStr} {below : List Name} (h : Below path below)
  (hfit : root.length + 27 < pathMax)
include h

theorem Below.exists_cons : ∃ rest, path = '/' :: rest := by
  have hslash := h.slash
  cases path with
  | nil => cases hslash
  | cons c rest => exact ⟨rest, by rw [Option.some.inj hslash]⟩

theorem Below.ne_nil (root : CStr) : root ++ path ≠ [] := by
  obtain ⟨rest, rfl⟩ := h.exists_cons
  simp

end

/-- A tree with nothing in it. -/
def FileTree.bare : FileTree Inode where
  node place := if place = [] then some .dir else none
  root := rfl
  parent := by
    intro place name h
    rw [if_neg (by simp)] at h
    exact absurd rfl h
