import MiniContainer.Paths

/-!
# Trees of directories and files

A file system without symbolic links, in which every operation is permitted and
there is room for everything, also for names of any length: a tree of directories
and regular files. `walk` follows the names of a path through it, and `mkdir` makes
a directory, where it is not refused. What is refused, and with which error, is what
the system calls do.

`walks` says how a walk can end, and `Adds` of two trees that one is the other with
directories below one another added; `Adds.walk_append` says that a path leads to
them then.
-/

open Paths (Name Place)

namespace FileTree

/-! ## Paths -/

/-- The names of a path. Slashes at its ends, or several in a row, stand for no more
than one. -/
def names (path : List Char) : List Name := (Paths.components path).filter (· ≠ [])

/-- `.` and `..`. -/
def IsDots (name : Name) : Prop := name = ['.'] ∨ name = ['.', '.']

instance (name : Name) : Decidable (IsDots name) := inferInstanceAs (Decidable (_ ∨ _))

/-- Where the walk along a path starts. -/
def start (cwd : Place) (path : List Char) : Place := if path.head? = some '/' then [] else cwd

/-- `dirname`: what stands before the last name. Exactly two slashes stay two. -/
def dirname (path : List Char) : List Char :=
  let named := path.rdropWhile (· = '/')
  let front := if named = [] then path else named.rdropWhile (· ≠ '/')
  if front = [] then ['.']
  else if front.rdropWhile (· = '/') ≠ [] then front.rdropWhile (· = '/')
  else if front.length = 2 then ['/', '/'] else ['/']

theorem names_append_slash (path path' : List Char) :
    names (path ++ '/' :: path') = names path ++ names path' := by
  rw [names, Paths.components_append_slash, List.filter_append]
  rfl

@[simp] theorem names_nil : names [] = [] := rfl

theorem names_of_no_slash {name : Name} (hslash : '/' ∉ name) (hne : name ≠ []) :
    names name = [name] := by
  rw [names, Paths.components_of_no_slash hslash, List.filter_singleton, decide_eq_true hne]
  rfl

/-- Slashes at the end stand for no name. -/
theorem names_append_slashes (path : List Char) {slashes : List Char}
    (h : ∀ c ∈ slashes, c = '/') : names (path ++ slashes) = names path := by
  induction slashes generalizing path with
  | nil => rw [List.append_nil]
  | cons c slashes ih =>
    have hslash : c = '/' := h c List.mem_cons_self
    have hrest : ∀ c ∈ slashes, c = '/' := fun d hd => h d (List.mem_cons_of_mem c hd)
    subst hslash
    have hnil := ih [] hrest
    rw [List.nil_append] at hnil
    rw [names_append_slash, hnil, names_nil, List.append_nil]

/-- What is dropped from the end of a list. -/
theorem exists_eq_rdropWhile_append {α : Type*} (p : α → Bool) (l : List α) :
    ∃ tail, l = l.rdropWhile p ++ tail ∧ ∀ a ∈ tail, p a = true := by
  induction l using List.reverseRecOn with
  | nil => exact ⟨[], rfl, fun a ha => nomatch ha⟩
  | append_singleton l a ih =>
    by_cases ha : p a = true
    · obtain ⟨tail, hl, htail⟩ := ih
      rw [List.rdropWhile_concat_pos _ _ _ ha]
      refine ⟨tail ++ [a], ?_, fun b hb => ?_⟩
      · rw [← List.append_assoc, ← hl]
      · rcases List.mem_append.mp hb with hb | hb
        · exact htail b hb
        · rwa [List.mem_singleton.mp hb]
    · rw [List.rdropWhile_concat_neg _ _ _ ha]
      exact ⟨[], (List.append_nil _).symm, fun b hb => nomatch hb⟩

/-- A path without the slashes at its end. -/
theorem names_rdropWhile (path : List Char) :
    names (path.rdropWhile (· = '/')) = names path := by
  obtain ⟨slashes, hpath, hslashes⟩ := exists_eq_rdropWhile_append (fun c => decide (c = '/')) path
  conv_rhs => rw [hpath]
  rw [names_append_slashes _ (fun c hc => of_decide_eq_true (hslashes c hc))]

/-- The walk starts where it does for a path with the same first character. -/
theorem start_of_prefix {path path' : List Char} (cwd : Place) (h : path' <+: path)
    (hne : path' ≠ []) : start cwd path' = start cwd path := by
  obtain ⟨rest, rfl⟩ := h
  rw [start, start, List.head?_append_of_ne_nil _ hne]

/-- **`dirname` takes the last name off**, where that is not the only one; the
walk starts where it did. -/
theorem dirname_spec {path : List Char} {front : List Name} {last : Name}
    (h : names path = front ++ [last]) (hfront : front ≠ []) (cwd : Place) :
    names (dirname path) = front ∧ start cwd (dirname path) = start cwd path := by
  have hnamed := names_rdropWhile path
  have hprefix := List.rdropWhile_prefix (fun c => decide (c = '/')) path
  have hlast := List.rdropWhile_last_not (fun c => decide (c = '/')) path
  unfold dirname
  dsimp only
  generalize path.rdropWhile (fun c => decide (c = '/')) = named at hnamed hprefix hlast
  have hne : named ≠ [] := by
    rintro rfl
    rw [h] at hnamed
    exact List.append_ne_nil_of_right_ne_nil _ (List.cons_ne_nil _ _) hnamed.symm
  rw [if_neg hne]
  obtain ⟨name, hsplit, hname⟩ := exists_eq_rdropWhile_append (fun c => decide (c ≠ '/')) named
  have hslash : '/' ∉ name := fun hmem => of_decide_eq_true (hname _ hmem) rfl
  have hdir := List.rdropWhile_last_not (fun c => decide (c ≠ '/')) named
  generalize named.rdropWhile (fun c => decide (c ≠ '/')) = dir at hsplit hdir
  have hnameNe : name ≠ [] := by
    rintro rfl
    rw [List.append_nil] at hsplit
    subst hsplit
    exact hdir hne (decide_eq_true (fun he => hlast hne (decide_eq_true he)))
  rcases List.eq_nil_or_concat' dir with rfl | ⟨above, c, rfl⟩
  · -- only one name
    rw [List.nil_append] at hsplit
    rw [hsplit, names_of_no_slash hslash hnameNe, h] at hnamed
    exact absurd (List.append_eq_singleton_iff.mp hnamed.symm) (by simp [hfront])
  · have hc : c = '/' := by
      have := hdir (by simp)
      rw [List.getLast_concat] at this
      exact not_not.mp (fun hne => this (decide_eq_true hne))
    subst hc
    rw [List.append_assoc, List.singleton_append] at hsplit
    rw [hsplit, names_append_slash, names_of_no_slash hslash hnameNe, h] at hnamed
    have habove : names (above.rdropWhile (fun c => decide (c = '/'))) = front :=
      (names_rdropWhile above).trans (List.append_inj_left' hnamed rfl)
    have hstart : above.rdropWhile (fun c => decide (c = '/')) <+: path :=
      ((List.rdropWhile_prefix _ above).trans (hsplit ▸ List.prefix_append _ _)).trans hprefix
    have haboveNe : above.rdropWhile (fun c => decide (c = '/')) ≠ [] := by
      intro hnil
      rw [hnil] at habove
      exact hfront habove.symm
    have hdrop :=
      List.rdropWhile_concat_pos (fun c => decide (c = '/')) above '/' (decide_eq_true rfl)
    rw [if_neg (by simp), hdrop, if_pos haboveNe]
    exact ⟨habove, start_of_prefix cwd hstart haboveNe⟩

end FileTree

/-! ## Trees -/

/-- What is at a place: a directory, or a regular file with what it contains. -/
inductive Node (α : Type)
  | dir
  | file (content : α)

/-- **A tree of directories and files.** -/
structure FileTree (α : Type) where
  node : Place → Option (Node α)
  root : node [] = some .dir
  /-- What has something in it is a directory. -/
  parent : ∀ place name, node (place ++ [name]) ≠ none → node place = some .dir

/-- Why a system call is refused. -/
inductive Errno
  | noent | notdir | exist
  deriving DecidableEq, Repr

namespace FileTree

variable {α : Type} {t t' : FileTree α} {cwd here place : Place} {name : Name}
  {front rest : List Name} {path : List Char}

/-- There is a directory at a place. -/
def IsDir (t : FileTree α) (place : Place) : Prop := t.node place = some .dir

instance (t : FileTree α) (place : Place) : Decidable (t.IsDir place) :=
  match h : t.node place with
  | none => .isFalse (fun hdir => nomatch h.symm.trans hdir)
  | some (.file _) => .isFalse (fun hdir => nomatch h.symm.trans hdir)
  | some .dir => .isTrue h

/-- There is a file at a place. -/
def IsFile (t : FileTree α) (place : Place) : Prop := ∃ content, t.node place = some (.file content)

/-- One name of a walk. -/
def enter (t : FileTree α) (here : Place) (name : Name) : Except Errno Place :=
  if ¬ t.IsDir here then .error .notdir
  else if name = [] ∨ name = ['.'] then .ok here
  else if name = ['.', '.'] then .ok here.dropLast
  else if (t.node (here ++ [name])).isSome then .ok (here ++ [name])
  else .error .noent

/-- A walk. -/
def walk (t : FileTree α) (here : Place) (names : List Name) : Except Errno Place :=
  names.foldlM t.enter here

/-- **Where a path leads.** Only a directory has a slash behind its name. -/
def resolve (t : FileTree α) (cwd : Place) (path : List Char) : Except Errno Place :=
  if path = [] then .error .noent else t.walk (start cwd path) (Paths.components path)

/-- A directory is added to another. -/
def addDir (t : FileTree α) (place : Place) (name : Name) (h : t.IsDir place) : FileTree α where
  node := Function.update t.node (place ++ [name]) (some .dir)
  root := by
    rw [Function.update_of_ne (by simp)]
    exact t.root
  parent := by
    intro place' name' hnode
    by_cases hplace : place' = place ++ [name]
    · rw [hplace, Function.update_self]
    · rw [Function.update_of_ne hplace]
      by_cases hsame : place' ++ [name'] = place ++ [name]
      · rw [List.append_inj_left' hsame rfl]
        exact h
      · rw [Function.update_of_ne hsame] at hnode
        exact t.parent place' name' hnode

/-- **`mkdir`**: the walk goes to the directory in which the last name is to be.
That must not be there, and neither `.` nor `..` nor the root can be made. -/
def mkdir (t : FileTree α) (cwd : Place) (path : List Char) : Except Errno (FileTree α) :=
  match (names path).getLast? with
  | none => .error (if path = [] then .noent else .exist)
  | some last =>
    match t.walk (start cwd path) (names path).dropLast with
    | .error e => .error e
    | .ok place =>
      if h : t.IsDir place then
        if IsDots last ∨ (t.node (place ++ [last])).isSome then .error .exist
        else .ok (t.addDir place last h)
      else .error .notdir

/-! ## Walks -/

/-- A path leads to a directory. -/
def LeadsToDir (t : FileTree α) (cwd : Place) (path : List Char) : Prop :=
  ∃ place, t.resolve cwd path = .ok place ∧ t.IsDir place

/-- One tree has everything that is in another. -/
def Extends (t t' : FileTree α) : Prop := ∀ place node, t.node place = some node →
  t'.node place = some node

theorem Extends.refl (t : FileTree α) : t.Extends t := fun _ _ h => h

@[simp] theorem walk_nil (t : FileTree α) (here : Place) : t.walk here [] = .ok here := rfl

theorem walk_cons (t : FileTree α) (here : Place) (name : Name) (rest : List Name) :
    t.walk here (name :: rest) = (t.enter here name).bind (fun place => t.walk place rest) :=
  List.foldlM_cons

theorem walk_append (t : FileTree α) (here : Place) (front rest : List Name) :
    t.walk here (front ++ rest)
      = (t.walk here front).bind (fun place => t.walk place rest) :=
  List.foldlM_append

theorem walk_singleton (t : FileTree α) (here : Place) (name : Name) :
    t.walk here [name] = t.enter here name := by
  rw [walk_cons]
  cases t.enter here name <;> rfl

/-- A walk goes on where it is. -/
theorem walk_append_of_ok (h : t.walk here front = .ok place) (rest : List Name) :
    t.walk here (front ++ rest) = t.walk place rest := by
  rw [walk_append, h]
  rfl

/-- A walk that ends somewhere has gone through its first names. -/
theorem walk_append_eq_ok_iff :
    t.walk here (front ++ rest) = .ok place ↔
      ∃ above, t.walk here front = .ok above ∧ t.walk above rest = .ok place := by
  rw [walk_append]
  cases t.walk here front with
  | error e => exact iff_of_false (fun h => nomatch h) (fun ⟨_, h, _⟩ => nomatch h)
  | ok above =>
    exact ⟨fun h => ⟨above, rfl, h⟩, fun ⟨_, heq, h⟩ => (Except.ok.inj heq).symm ▸ h⟩

/-- A walk that has ended goes no further. -/
theorem walk_append_of_error {e : Errno} (h : t.walk here front = .error e) (rest : List Name) :
    t.walk here (front ++ rest) = .error e := by
  rw [walk_append, h]
  rfl

/-- A directory is in a directory. -/
theorem IsDir.dropLast (h : t.IsDir here) : t.IsDir here.dropLast := by
  rcases List.eq_nil_or_concat' here with rfl | ⟨above, name, rfl⟩
  · exact t.root
  · rw [List.dropLast_concat]
    have hnode : t.node (above ++ [name]) ≠ none := by
      rw [h]
      exact fun h => nomatch h
    exact t.parent above name hnode

/-- **What one name of a walk does**, and where it leads. -/
inductive Enters (t : FileTree α) (here : Place) (name : Name) : Except Errno Place → Prop
  | notdir (hhere : ¬ t.IsDir here) : Enters t here name (.error .notdir)
  /-- The walk stays, or goes up. -/
  | dots {place : Place} (hhere : t.IsDir here) (hname : name = [] ∨ IsDots name)
      (hplace : t.IsDir place) : Enters t here name (.ok place)
  | missing (hhere : t.IsDir here) (hne : name ≠ []) (hdots : ¬ IsDots name)
      (hnode : t.node (here ++ [name]) = none) : Enters t here name (.error .noent)
  | down (hhere : t.IsDir here) (hne : name ≠ []) (hdots : ¬ IsDots name)
      (hnode : (t.node (here ++ [name])).isSome) : Enters t here name (.ok (here ++ [name]))

theorem enters (t : FileTree α) (here : Place) (name : Name) :
    t.Enters here name (t.enter here name) := by
  unfold enter
  split
  · next hhere => exact .notdir hhere
  · next hhere =>
    have hhere := not_not.mp hhere
    split
    · next hstay => exact .dots hhere (hstay.imp_right Or.inl) hhere
    · next hstay =>
      obtain ⟨hne, hdot⟩ := not_or.mp hstay
      split
      · next hup => exact .dots hhere (Or.inr (Or.inr hup)) hhere.dropLast
      · next hup =>
        have hdots : ¬ IsDots name := fun h => h.elim hdot hup
        split
        · next hnode => exact .down hhere hne hdots hnode
        · next hnode => exact .missing hhere hne hdots (Option.not_isSome_iff_eq_none.mp hnode)

/-- A name that is there is entered. -/
theorem enter_of_isSome (hhere : t.IsDir here) (hne : name ≠ []) (hdots : ¬ IsDots name)
    (hnode : (t.node (here ++ [name])).isSome) : t.enter here name = .ok (here ++ [name]) := by
  obtain ⟨hdot, hup⟩ := not_or.mp hdots
  rw [enter, if_neg (not_not.mpr hhere), if_neg (not_or.mpr ⟨hne, hdot⟩), if_neg hup, if_pos hnode]

/-- A name that is not there is not. -/
theorem enter_of_none (hhere : t.IsDir here) (hne : name ≠ []) (hdots : ¬ IsDots name)
    (hnode : t.node (here ++ [name]) = none) : t.enter here name = .error .noent := by
  obtain ⟨hdot, hup⟩ := not_or.mp hdots
  rw [enter, if_neg (not_not.mpr hhere), if_neg (not_or.mpr ⟨hne, hdot⟩), if_neg hup,
    if_neg (by simp [hnode])]

/-- **What is kept leads where it did.** -/
theorem enter_of_extends (h : t.Extends t') (henter : t.enter here name = .ok place) :
    t'.enter here name = .ok place := by
  unfold enter at henter ⊢
  split at henter
  · cases henter
  · next hhere =>
    have hhere' : t'.IsDir here := h _ _ (not_not.mp hhere)
    rw [if_neg (not_not.mpr hhere')]
    split at henter
    · next hstay => rwa [if_pos hstay]
    · next hstay =>
      rw [if_neg hstay]
      split at henter
      · next hup => rwa [if_pos hup]
      · next hup =>
        rw [if_neg hup]
        split at henter
        · next hnode =>
          obtain ⟨node, hnode⟩ := Option.isSome_iff_exists.mp hnode
          rwa [if_pos (by rw [h _ _ hnode]; rfl)]
        · cases henter

theorem walk_of_extends (h : t.Extends t') (hwalk : t.walk here front = .ok place) :
    t'.walk here front = .ok place := by
  induction front generalizing here with
  | nil => exact hwalk
  | cons name front ih =>
    rw [walk_cons] at hwalk ⊢
    cases henter : t.enter here name with
    | error e =>
      rw [henter] at hwalk
      cases hwalk
    | ok next =>
      rw [henter] at hwalk
      rw [enter_of_extends h henter]
      exact ih hwalk

/-- A walk that is not over at a name that is not there ends. -/
theorem walk_of_none (hwalk : t.walk here front = .ok place) (hplace : t.IsDir place)
    (hne : name ≠ []) (hdots : ¬ IsDots name) (hnode : t.node (place ++ [name]) = none)
    (rest : List Name) : t.walk here (front ++ name :: rest) = .error .noent := by
  rw [walk_append_of_ok hwalk, walk_cons, enter_of_none hplace hne hdots hnode]
  rfl

/-- What there is at a place is a directory or a file. -/
theorem isDir_or_isFile (h : (t.node place).isSome) : t.IsDir place ∨ t.IsFile place := by
  obtain ⟨node, hnode⟩ := Option.isSome_iff_exists.mp h
  cases node with
  | dir => exact Or.inl hnode
  | file content => exact Or.inr ⟨content, hnode⟩

/-- A file is no directory. -/
theorem IsFile.not_isDir (h : t.IsFile place) : ¬ t.IsDir place := by
  obtain ⟨content, hfile⟩ := h
  intro hdir
  rw [IsDir, hfile] at hdir
  cases hdir

/-- **How a walk ends**: where its names lead, at a file before the last of them, or
at a name that is not there. -/
inductive Walks (t : FileTree α) (here : Place) (names : List Name) :
    Except Errno Place → Prop
  | arrives {place : Place} (hplace : t.IsDir place ∨ t.IsFile place) :
      Walks t here names (.ok place)
  | blocked {front rest : List Name} {place : Place} (hnames : names = front ++ rest)
      (hrest : rest ≠ []) (hwalk : t.walk here front = .ok place) (hplace : t.IsFile place) :
      Walks t here names (.error .notdir)
  | missing {front rest : List Name} {name : Name} {place : Place}
      (hnames : names = front ++ name :: rest) (hwalk : t.walk here front = .ok place)
      (hplace : t.IsDir place) (hne : name ≠ []) (hdots : ¬ IsDots name)
      (hnode : t.node (place ++ [name]) = none) :
      Walks t here names (.error .noent)

theorem walks (hhere : t.IsDir here) (names : List Name) :
    t.Walks here names (t.walk here names) := by
  induction names using List.reverseRecOn with
  | nil => exact .arrives (Or.inl hhere)
  | append_singleton front last ih =>
    cases hwalk : t.walk here front with
    | error e =>
      rw [walk_append_of_error hwalk]
      rw [hwalk] at ih
      cases ih with
      | blocked hnames hrest hfront hplace =>
        exact .blocked (by rw [hnames, List.append_assoc])
          (List.append_ne_nil_of_left_ne_nil hrest _) hfront hplace
      | missing hnames hfront hplace hne hdots hnode =>
        exact .missing (by rw [hnames, List.append_assoc, List.cons_append]) hfront hplace hne
          hdots hnode
    | ok place =>
      rw [walk_append_of_ok hwalk, walk_singleton]
      rw [hwalk] at ih
      cases ih with
      | arrives hplace =>
        have henters := t.enters place last
        generalize t.enter place last = result at henters
        cases henters with
        | notdir hhere =>
          exact .blocked rfl (List.cons_ne_nil _ _) hwalk (hplace.resolve_left hhere)
        | dots hhere hname hplace => exact .arrives (Or.inl hplace)
        | missing hhere hne hdots hnode => exact .missing rfl hwalk hhere hne hdots hnode
        | down hhere hne hdots hnode => exact .arrives (isDir_or_isFile hnode)

/-- From a file a walk gets nowhere. -/
theorem walk_ne_noent (hhere : ¬ t.IsDir here) (names : List Name) :
    t.walk here names ≠ .error .noent := by
  cases names with
  | nil => exact fun h => nomatch h
  | cons name names =>
    rw [walk_cons, enter, if_pos hhere]
    exact fun h => nomatch h

/-- In particular not to a directory. -/
theorem not_isDir_of_walk (hhere : ¬ t.IsDir here) {names : List Name}
    (h : t.walk here names = .ok place) : ¬ t.IsDir place := by
  cases names with
  | nil =>
    cases h
    exact hhere
  | cons name names =>
    rw [walk_cons, enter, if_pos hhere] at h
    cases h

/-- **Empty names do not matter to a walk that ends at a directory.** -/
theorem walk_filter_isDir_iff {names : List Name} :
    (∃ place, t.walk here names = .ok place ∧ t.IsDir place) ↔
      ∃ place, t.walk here (names.filter (· ≠ [])) = .ok place ∧ t.IsDir place := by
  induction names generalizing here with
  | nil => rfl
  | cons name names ih =>
    by_cases hname : name = []
    · rw [hname, List.filter_cons_of_neg (by simp), walk_cons]
      by_cases hhere : t.IsDir here
      · rw [enter, if_neg (not_not.mpr hhere), if_pos (Or.inl rfl)]
        exact ih
      · rw [enter, if_pos hhere]
        exact iff_of_false (fun ⟨_, h, _⟩ => nomatch h)
          (fun ⟨_, h, hplace⟩ => not_isDir_of_walk hhere h hplace)
    · rw [List.filter_cons_of_pos (by simpa using hname), walk_cons, walk_cons]
      cases t.enter here name with
      | error e => exact iff_of_false (fun ⟨_, h, _⟩ => nomatch h) (fun ⟨_, h, _⟩ => nomatch h)
      | ok next => exact ih

/-- **When a path leads to a directory**, by its names. -/
theorem leadsToDir_iff :
    t.LeadsToDir cwd path ↔ path ≠ [] ∧
      ∃ place, t.walk (start cwd path) (names path) = .ok place ∧ t.IsDir place := by
  rw [LeadsToDir, resolve, names, ← walk_filter_isDir_iff]
  by_cases hpath : path = []
  · simp [hpath]
  · rw [if_neg hpath, and_iff_right hpath]

/-! ## Making a directory -/

section

variable {last : Name}

theorem IsDir.start (h : t.IsDir cwd) (path : List Char) : t.IsDir (start cwd path) := by
  unfold FileTree.start
  split
  · exact t.root
  · exact h

theorem ne_nil_of_mem_names (h : name ∈ names path) : name ≠ [] :=
  of_decide_eq_true (List.mem_filter.mp h).2

/-- `mkdir`, where the path has names. -/
theorem mkdir_concat (h : names path = front ++ [last]) :
    t.mkdir cwd path =
      match t.walk (start cwd path) front with
      | .error e => .error e
      | .ok place =>
        if h : t.IsDir place then
          if IsDots last ∨ (t.node (place ++ [last])).isSome then .error .exist
          else .ok (t.addDir place last h)
        else .error .notdir := by
  unfold mkdir
  rw [h, List.getLast?_concat, List.dropLast_concat]

/-- **What is there is not made again.** -/
theorem mkdir_of_ok (hpath : path ≠ []) (h : t.walk (start cwd path) (names path) = .ok place) :
    t.mkdir cwd path = .error .exist := by
  rcases List.eq_nil_or_concat' (names path) with hnil | ⟨front, last, hnames⟩
  · unfold mkdir
    rw [hnil]
    exact congrArg Except.error (if_neg hpath)
  · rw [hnames] at h
    obtain ⟨above, hfront, henter⟩ := walk_append_eq_ok_iff.mp h
    rw [walk_singleton] at henter
    have henters := t.enters above last
    rw [henter] at henters
    have hlast : last ≠ [] := ne_nil_of_mem_names (hnames ▸ List.mem_concat_self)
    rw [mkdir_concat hnames, hfront]
    dsimp only
    cases henters with
    | dots hhere hname => rw [dif_pos hhere, if_pos (Or.inl (hname.resolve_left hlast))]
    | down hhere hne hdots hnode => rw [dif_pos hhere, if_pos (Or.inr hnode)]

/-- Nothing is made below a file, -/
theorem mkdir_of_notdir (h : t.walk (start cwd path) (names path) = .error .notdir) :
    t.mkdir cwd path = .error .notdir := by
  rcases List.eq_nil_or_concat' (names path) with hnil | ⟨front, last, hnames⟩
  · rw [hnil] at h
    cases h
  · rw [mkdir_concat hnames]
    rw [hnames] at h
    cases hfront : t.walk (start cwd path) front with
    | error e =>
      rw [walk_append_of_error hfront] at h
      cases h
      rfl
    | ok above =>
      rw [walk_append_of_ok hfront, walk_singleton] at h
      have henters := t.enters above last
      rw [h] at henters
      cases henters with
      | notdir hhere => exact dif_neg hhere

/-- and nothing below what is not there. -/
theorem mkdir_of_noent (hnames : names path = front ++ [last])
    (h : t.walk (start cwd path) front = .error .noent) :
    t.mkdir cwd path = .error .noent := by
  rw [mkdir_concat hnames, h]

/-- `.` and `..` are never made. -/
theorem mkdir_of_dots (hnames : names path = front ++ [last])
    (hwalk : t.walk (start cwd path) front = .ok place) (hplace : t.IsDir place)
    (hdots : IsDots last) : t.mkdir cwd path = .error .exist := by
  rw [mkdir_concat hnames, hwalk]
  dsimp only
  rw [dif_pos hplace, if_pos (Or.inl hdots)]

/-- A directory is made. -/
theorem mkdir_of_none (hnames : names path = front ++ [last])
    (hwalk : t.walk (start cwd path) front = .ok place) (hplace : t.IsDir place)
    (hdots : ¬ IsDots last) (hnode : t.node (place ++ [last]) = none) :
    t.mkdir cwd path = .ok (t.addDir place last hplace) := by
  rw [mkdir_concat hnames, hwalk]
  dsimp only
  rw [dif_pos hplace, if_neg (not_or.mpr ⟨hdots, by simp [hnode]⟩)]

end

/-! ## Directories below one another -/

/-- **Directories are added below a place**, one below the other, and nothing else
changes. -/
structure Adds (t : FileTree α) (here : Place) (names : List Name) (t' : FileTree α) :
    Prop where
  added : ∀ below, below <+: names → below ≠ [] → t'.IsDir (here ++ below)
  kept : ∀ place, (∀ below, below <+: names → below ≠ [] → place ≠ here ++ below) →
    t'.node place = t.node place

/-- Nothing is below what is not there. -/
theorem node_append_of_none (h : t.node place = none) (rest : List Name) :
    t.node (place ++ rest) = none := by
  induction rest using List.reverseRecOn with
  | nil => rwa [List.append_nil]
  | append_singleton rest name ih =>
    by_contra hnode
    rw [← List.append_assoc] at hnode
    rw [t.parent _ _ hnode] at ih
    cases ih

theorem node_addDir_self (h : t.IsDir here) :
    (t.addDir here name h).node (here ++ [name]) = some .dir :=
  Function.update_self ..

theorem node_addDir_of_ne (h : t.IsDir here) (hne : place ≠ here ++ [name]) :
    (t.addDir here name h).node place = t.node place :=
  Function.update_of_ne hne ..

/-- No directory is added. -/
theorem adds_nil (t : FileTree α) (here : Place) : t.Adds here [] t where
  added := fun _ hbelow hne => absurd (List.prefix_nil.mp hbelow) hne
  kept := fun _ _ => rfl

section

variable {names : List Name} (h : t.Adds here names t')
include h

/-- One more directory. -/
theorem Adds.concat (hdir : t'.IsDir (here ++ names)) :
    t.Adds here (names ++ [name]) (t'.addDir (here ++ names) name hdir) where
  added := by
    intro below hbelow hne
    rcases List.prefix_concat_iff.mp hbelow with rfl | hle
    · rw [IsDir, ← List.append_assoc]
      exact node_addDir_self hdir
    · have hlen : here ++ below ≠ here ++ names ++ [name] := by
        intro heq
        have := congrArg List.length heq
        have := hle.length_le
        simp only [List.length_append, List.length_singleton] at *
        omega
      rw [IsDir, node_addDir_of_ne hdir hlen]
      exact h.added below hle hne
  kept := by
    intro place hplace
    have hlast := hplace (names ++ [name]) List.prefix_rfl (by simp)
    rw [← List.append_assoc] at hlast
    rw [node_addDir_of_ne hdir hlast]
    exact h.kept place (fun below hbelow => hplace below (hbelow.trans (List.prefix_append _ _)))

/-- A directory above the last of them. -/
theorem Adds.isDir (hhere : t.IsDir here) {above : List Name} (habove : above <+: names) :
    t'.IsDir (here ++ above) := by
  by_cases hnil : above = []
  · rw [hnil, List.append_nil, IsDir, h.kept here (fun below _ hne heq => hne (by simpa using heq))]
    exact hhere
  · exact h.added above habove hnil

/-- **The walk to the last of them.** -/
theorem Adds.walk (hhere : t.IsDir here) (hnames : ∀ name ∈ names, name ≠ [] ∧ ¬ IsDots name) :
    t'.walk here names = .ok (here ++ names) := by
  have hwalk : ∀ above, above <+: names → t'.walk here above = .ok (here ++ above) := by
    intro above
    induction above using List.reverseRecOn with
    | nil => exact fun _ => by rw [walk_nil, List.append_nil]
    | append_singleton above name ih =>
      intro habove
      obtain ⟨hne, hdots⟩ := hnames name (habove.subset List.mem_concat_self)
      have hprefix : above <+: names := (List.prefix_append _ _).trans habove
      have hnode : t'.node (here ++ above ++ [name]) = some .dir := by
        rw [List.append_assoc]
        exact h.isDir hhere habove
      rw [walk_append_of_ok (ih hprefix), walk_singleton,
        enter_of_isSome (h.isDir hhere hprefix) hne hdots (by rw [hnode]; rfl), List.append_assoc]
  exact hwalk names List.prefix_rfl

end

/-- One directory is added. -/
theorem adds_addDir (hhere : t.IsDir here) : t.Adds here [name] (t.addDir here name hhere) := by
  have hdir : t.IsDir (here ++ []) := by rwa [List.append_nil]
  have h : t.Adds here ([] ++ [name]) (t.addDir (here ++ []) name hdir) :=
    (adds_nil t here).concat hdir
  simpa only [List.append_nil, List.nil_append] using h

section

variable (h : t.Adds here (name :: rest) t') (hnode : t.node (here ++ [name]) = none)
include h hnode

/-- Where the first of them was not there, what was there stays. -/
theorem Adds.extends : t.Extends t' := by
  intro place node hplace
  rw [h.kept place, hplace]
  rintro below hbelow hne rfl
  obtain ⟨below, rfl, -⟩ := (List.prefix_cons_iff.mp hbelow).resolve_left hne
  rw [List.append_cons, node_append_of_none hnode] at hplace
  cases hplace

/-- Nothing is in the last of them. -/
theorem Adds.node_concat (last : Name) : t'.node (here ++ (name :: rest) ++ [last]) = none := by
  rw [h.kept]
  · rw [List.append_cons here, List.append_assoc, node_append_of_none hnode]
  · intro below hbelow _ heq
    have := hbelow.length_le
    have := congrArg List.length heq
    simp only [List.length_append, List.length_singleton] at *
    omega

/-- **A path that goes on with the names of the directories leads to the last.** -/
theorem Adds.walk_append {start : Place} (hwalk : t.walk start front = .ok here)
    (hhere : t.IsDir here) (hnames : ∀ n ∈ name :: rest, n ≠ [] ∧ ¬ IsDots n) :
    t'.walk start (front ++ name :: rest) = .ok (here ++ name :: rest) := by
  rw [walk_append_of_ok (walk_of_extends (h.extends hnode) hwalk), h.walk hhere hnames]

end

end FileTree
