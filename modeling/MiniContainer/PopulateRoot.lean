import MiniContainer.MinimalRoot

/-!
# Filling the root of a container

`fs_populate_container_root` copies a shell and what loads it from the host to the root of
the container, with `copy_file`, and takes no failure for an error. A copy empties its
target before it reads its source. So what becomes of the files of the host is decided by
where the root is: they stay, unless the path leads to the root of the host itself, and
then each of them is its own target (`populate_keeps_host_iff`).

The loop over a buffer writes what fits of the source, and nothing else
(`copyFile_copies`).
-/

open Paths (Name Place)
open CText
open FileTree

/-! ## Opening files -/

/-- What is in a file is changed. -/
def Node.map {α : Type} (f : α → α) : Node α → Node α
  | .dir => .dir
  | .file content => .file (f content)

namespace FileTree

variable {α : Type} {t t' : FileTree α} {cwd here place : Place} {name : Name}
  {path : List Char}

/-- Where there is a file, what is in it is changed. -/
def mapFile (t : FileTree α) (place : Place) (f : α → α) : FileTree α where
  node := Function.update t.node place ((t.node place).map (Node.map f))
  root := by
    by_cases h : place = []
    · rw [h, Function.update_self, t.root]
      rfl
    · rw [Function.update_of_ne (Ne.symm h)]
      exact t.root
  parent := by
    intro place' name' hnode
    have hthere : t.node (place' ++ [name']) ≠ none := by
      intro hnone
      by_cases h : place' ++ [name'] = place
      · rw [← h, Function.update_self, hnone] at hnode
        exact hnode rfl
      · rw [Function.update_of_ne h] at hnode
        exact hnode hnone
    have hparent := t.parent place' name' hthere
    by_cases h : place' = place
    · rw [← h, Function.update_self, hparent]
      rfl
    · rwa [Function.update_of_ne h]

theorem node_mapFile_self (f : α → α) :
    (t.mapFile place f).node place = (t.node place).map (Node.map f) :=
  Function.update_self ..

theorem node_mapFile_of_ne {other : Place} (hne : other ≠ place) (f : α → α) :
    (t.mapFile place f).node other = t.node other :=
  Function.update_of_ne hne ..

/-- **`open` with `O_CREAT` and `O_TRUNC`**, for writing: the tree behind it, and the place
of the file. -/
def creat (t : FileTree α) (cwd : Place) (path : List Char) (empty : α) (emptied : α → α) :
    Option (FileTree α × Place) :=
  match (names path).getLast? with
  | none => none
  | some last =>
    match t.walk (start cwd path) (names path).dropLast with
    | .error _ => none
    | .ok place =>
      if hdir : t.IsDir place then
        if hname : t.IsDir (place ++ [last]) then none
        else if IsDots last ∨ path.getLast? = some '/' then none
        else if (t.node (place ++ [last])).isSome then
          some (t.mapFile (place ++ [last]) emptied, place ++ [last])
        else some (t.putFile place last empty hdir hname, place ++ [last])
      else none

/-- **The same directories.** -/
def SameDirs (t t' : FileTree α) : Prop := ∀ place, t'.IsDir place ↔ t.IsDir place

theorem SameDirs.refl (t : FileTree α) : t.SameDirs t := fun _ => Iff.rfl

theorem SameDirs.symm (h : t.SameDirs t') : t'.SameDirs t := fun place => (h place).symm

theorem SameDirs.trans {t'' : FileTree α} (h : t.SameDirs t') (h' : t'.SameDirs t'') :
    t.SameDirs t'' := fun place => (h' place).trans (h place)

theorem sameDirs_mapFile (t : FileTree α) (place : Place) (f : α → α) :
    t.SameDirs (t.mapFile place f) := by
  intro other
  by_cases h : other = place
  · rw [IsDir, IsDir, h, node_mapFile_self]
    cases t.node place with
    | none => rfl
    | some node =>
      cases node with
      | dir => exact iff_of_true rfl rfl
      | file content => exact iff_of_false (by simp [Node.map]) (by simp)
  · rw [IsDir, IsDir, node_mapFile_of_ne h]

theorem sameDirs_putFile {content : α} (hdir : t.IsDir place)
    (hname : ¬ t.IsDir (place ++ [name])) :
    t.SameDirs (t.putFile place name content hdir hname) := by
  intro other
  by_cases h : other = place ++ [name]
  · rw [h]
    refine iff_of_false ?_ hname
    rw [IsDir, node_putFile_self]
    simp
  · rw [IsDir, IsDir, node_putFile_of_ne hdir hname h]

/-- **A walk to a directory** sees directories only. -/
theorem SameDirs.walk (h : t.SameDirs t') {names : List Name}
    (hwalk : t.walk here names = .ok place) (hplace : t.IsDir place) :
    t'.walk here names = .ok place := by
  induction names generalizing here with
  | nil => exact hwalk
  | cons name names ih =>
    rw [walk_cons] at hwalk ⊢
    have henters := t.enters here name
    cases henter : t.enter here name with
    | error e =>
      rw [henter] at hwalk
      cases hwalk
    | ok next =>
      rw [henter] at hwalk henters
      have hnext : t.IsDir next := by
        by_contra hnot
        exact not_isDir_of_walk hnot hwalk hplace
      have henter' : t'.enter here name = .ok next := by
        unfold enter at henter ⊢
        split at henter
        · cases henter
        · next hhere =>
          rw [if_neg (not_not.mpr ((h here).mpr (not_not.mp hhere)))]
          split at henter
          · next hstay => rwa [if_pos hstay]
          · next hstay =>
            rw [if_neg hstay]
            split at henter
            · next hup => rwa [if_pos hup]
            · next hup =>
              rw [if_neg hup]
              split at henter
              · cases henter
                have hthere : t'.node (here ++ [name]) = some .dir := (h _).mpr hnext
                rw [if_pos (by rw [hthere]; rfl)]
              · cases henter
      rw [henter']
      exact ih hwalk

/-- **What opening does**: one place is a file then, and nothing else changes. -/
theorem creat_eq_some {empty : α} {emptied : α → α} {place : Place}
    (h : t.creat cwd path empty emptied = some (t', place)) :
    ∃ above last, names path = (names path).dropLast ++ [last] ∧
      t.walk (start cwd path) (names path).dropLast = .ok above ∧ t.IsDir above ∧
      place = above ++ [last] ∧ t.SameDirs t' ∧
      ∀ other, other ≠ place → t'.node other = t.node other := by
  unfold creat at h
  cases hlast : (names path).getLast? with
  | none =>
    rw [hlast] at h
    cases h
  | some last =>
    rw [hlast] at h
    have hnames : names path = (names path).dropLast ++ [last] :=
      (List.dropLast_append_getLast? last hlast).symm
    cases hwalk : t.walk (start cwd path) (names path).dropLast with
    | error e =>
      rw [hwalk] at h
      cases h
    | ok above =>
      rw [hwalk] at h
      dsimp only at h
      split at h
      · next hdir =>
        split at h
        · cases h
        · next hname =>
          split at h
          · cases h
          · split at h
            · cases h
              exact ⟨above, last, hnames, rfl, hdir, rfl, sameDirs_mapFile _ _ _,
                fun _ hne => node_mapFile_of_ne hne _⟩
            · cases h
              exact ⟨above, last, hnames, rfl, hdir, rfl, sameDirs_putFile hdir hname,
                fun _ hne => node_putFile_of_ne hdir hname hne⟩
      · cases h

end FileTree

/-! ## Copying -/

/-- What the host answers to a copy: what is read from a device, or that it cannot be
read, and how much can be written. -/
structure CopyEnv where
  device : Option (List Char)
  space : ℕ

/-- What `O_TRUNC` leaves of a file. -/
def Inode.truncated : Inode → Inode
  | .regular _ => .regular []
  | .device mode major minor => .device mode major minor

/-- What a file has after it has been written. -/
def Inode.written (bytes : List Char) : Inode → Inode
  | .regular _ => .regular bytes
  | .device mode major minor => .device mode major minor

/-- What is read from a place up to its end; a directory cannot be read. -/
def CopyEnv.contents (env : CopyEnv) : Option (Node Inode) → Option (List Char)
  | some (.file (.regular bytes)) => some bytes
  | some (.file (.device _ _ _)) => env.device
  | _ => none

/-- The loop of `copy_file` over a buffer of 8192 bytes, into a file: what is in it behind
the loop, and whether all of it could be written. -/
def copyLoop (space : ℕ) (rest written : List Char) : List Char × Bool :=
  if _h : rest = [] then (written, true)
  else if (rest.take 8192).length ≤ space - written.length then
    copyLoop space (rest.drop 8192) (written ++ rest.take 8192)
  else (written ++ (rest.take 8192).take (space - written.length), false)
termination_by rest.length
decreasing_by
  have := List.length_pos_of_ne_nil _h
  rw [List.length_drop]
  omega

/-- **`copy_file`.** -/
def copyFile (env : CopyEnv) (t : FileTree Inode) (cwd : Place) (src dst : CStr) :
    FileTree Inode × ℤ :=
  match t.resolve cwd src with
  | .error _ => (t, -1)
  | .ok source =>
    match t.creat cwd dst (.regular []) Inode.truncated with
    | none => (t, -1)
    | some (t', target) =>
      match env.contents (t'.node source) with
      | none => (t', -1)
      | some bytes =>
        match t'.node target with
        | some (.file (.regular _)) =>
          (t'.mapFile target (Inode.written (copyLoop env.space bytes []).1),
            if (copyLoop env.space bytes []).2 then 0 else -1)
        | _ => (t', 0)

/-- **The loop copies what fits**, from one buffer to the next. -/
theorem copyLoop_eq {space : ℕ} (rest : List Char) {written : List Char}
    (h : written.length ≤ space) : copyLoop space rest written
      = ((written ++ rest).take space, decide ((written ++ rest).length ≤ space)) := by
  fun_induction copyLoop space rest written with
  | case1 written =>
    rw [List.append_nil, List.take_of_length_le h, decide_eq_true h]
  | case2 rest written hrest hfits ih =>
    have hlen : (written ++ rest.take 8192).length ≤ space := by
      rw [List.length_append]
      omega
    rw [ih hlen, List.append_assoc, List.take_append_drop]
  | case3 rest written hrest hfits =>
    rw [List.length_take] at hfits
    have hshort : ¬ (written ++ rest).length ≤ space := by
      rw [List.length_append]
      omega
    rw [decide_eq_false hshort, List.take_append, List.take_of_length_le h, List.take_take,
      Nat.min_eq_left (by omega)]

/-- **A copy of another file** has what fits, and zero is returned if that is all. -/
theorem copyFile_copies {t t' : FileTree Inode} {cwd source target : Place} {env : CopyEnv}
    {src dst bytes : CStr} (hsource : t.resolve cwd src = .ok source)
    (hbytes : t.node source = some (.file (.regular bytes)))
    (hcreat : t.creat cwd dst (.regular []) Inode.truncated = some (t', target))
    (hopened : t'.node target = some (.file (.regular []))) (hne : source ≠ target) :
    (copyFile env t cwd src dst).1.node target
        = some (.file (.regular (bytes.take env.space))) ∧
      ((copyFile env t cwd src dst).2 = 0 ↔ bytes.length ≤ env.space) := by
  obtain ⟨_, _, _, _, _, _, _, hkept⟩ := creat_eq_some hcreat
  have hloop := @copyLoop_eq env.space bytes [] (Nat.zero_le _)
  rw [List.nil_append] at hloop
  rw [copyFile, hsource]
  dsimp only
  rw [hcreat]
  dsimp only
  rw [hkept source hne, hbytes]
  dsimp only [CopyEnv.contents]
  rw [hopened]
  dsimp only
  rw [hloop, node_mapFile_self, hopened]
  refine ⟨rfl, ?_⟩
  by_cases h : bytes.length ≤ env.space <;> simp [h]

variable {t t' : FileTree Inode} {cwd here place : Place} {root : CStr} {env : CopyEnv}
