import MiniContainer.FileTree

/-!
# Making a directory and those above it

`mkdir_p` tries to make the directory. Where that is refused because something above
it is not there, it makes what `dirname` leaves of the path in the same way, and
tries again.

The recursion gets to a path whose directory is there, and from there on every call
makes one directory more (`mkdirP_of_missing`). Two things go wrong. The first try
takes whatever is there for a directory, also a file. And the second one does not
take anything: it fails at a `.` or `..`, which is there as soon as what stands
before it has been made. `makesDirectory_iff` says that there is nothing else.
-/

open Paths (Name Place)
open FileTree

variable {α : Type} {t t' : FileTree α} {cwd here place : Place} {name : Name}
  {front rest : List Name} {path : List Char}

/-- **`mkdir_p`** of a path that is not null, with a bound on how often it calls
itself: `none` where that is not enough. -/
def mkdirP : ℕ → FileTree α → Place → List Char → Option (FileTree α × ℤ)
  | 0, _, _, _ => none
  | fuel + 1, t, cwd, path =>
    match t.mkdir cwd path with
    | .ok t' => some (t', 0)
    | .error .noent =>
      match mkdirP fuel t cwd (dirname path) with
      | none => none
      | some (t', r) =>
        if r ≠ 0 then some (t', -1)
        else
          match t'.mkdir cwd path with
          | .ok t'' => some (t'', 0)
          | .error _ => some (t', -1)
    | .error .exist => some (t, 0)
    | .error .notdir => some (t, -1)

/-- **More fuel changes nothing.** -/
theorem mkdirP_succ {fuel : ℕ} {result : FileTree α × ℤ}
    (h : mkdirP fuel t cwd path = some result) : mkdirP (fuel + 1) t cwd path = some result := by
  induction fuel generalizing path result with
  | zero => cases h
  | succ fuel ih =>
    rw [mkdirP] at h ⊢
    cases hmkdir : t.mkdir cwd path with
    | ok made =>
      rw [hmkdir] at h
      exact h
    | error e =>
      rw [hmkdir] at h
      cases e with
      | noent =>
        dsimp only at h ⊢
        cases hparent : mkdirP fuel t cwd (dirname path) with
        | none =>
          rw [hparent] at h
          cases h
        | some result' =>
          rw [hparent] at h
          rw [ih hparent]
          exact h
      | notdir => exact h
      | exist => exact h

theorem mkdirP_add {fuel : ℕ} {result : FileTree α × ℤ}
    (h : mkdirP fuel t cwd path = some result) (more : ℕ) :
    mkdirP (fuel + more) t cwd path = some result := by
  induction more with
  | zero => exact h
  | succ more ih => exact mkdirP_succ ih

/-- **It returns one thing.** -/
theorem mkdirP_unique {fuel fuel' : ℕ} {result result' : FileTree α × ℤ}
    (h : mkdirP fuel t cwd path = some result) (h' : mkdirP fuel' t cwd path = some result') :
    result = result' := by
  have hmore := mkdirP_add h fuel'
  rw [Nat.add_comm, mkdirP_add h' fuel] at hmore
  exact (Option.some.inj hmore).symm

/-! ## What it returns -/

/-- Something is there. -/
theorem mkdirP_of_ok (hpath : path ≠ []) (h : t.walk (start cwd path) (names path) = .ok place) :
    mkdirP 1 t cwd path = some (t, 0) := by
  rw [mkdirP, mkdir_of_ok hpath h]

/-- A file is in the way. -/
theorem mkdirP_of_notdir (h : t.walk (start cwd path) (names path) = .error .notdir) :
    mkdirP 1 t cwd path = some (t, -1) := by
  rw [mkdirP, mkdir_of_notdir h]

/-- The path is empty. -/
theorem mkdirP_nil (t : FileTree α) (cwd : Place) (hcwd : t.IsDir cwd) :
    mkdirP 2 t cwd [] = some (t, -1) := by
  have hdot : mkdirP 1 t cwd (dirname []) = some (t, 0) := by
    have hwalk : t.walk (start cwd ['.']) (names ['.']) = .ok cwd := by
      show t.walk cwd [['.']] = .ok cwd
      rw [walk_singleton, enter, if_neg (not_not.mpr hcwd)]
      exact if_pos (Or.inr rfl)
    exact mkdirP_of_ok (by decide) hwalk
  have hmkdir : t.mkdir cwd [] = .error .noent := rfl
  rw [mkdirP, hmkdir, hdot]
  dsimp only
  rw [if_neg (by decide), hmkdir]

/-- The names up to the first `.` or `..`. -/
def plainNames (names : List Name) : List Name := names.takeWhile fun name => ¬ IsDots name

/-- Without `.` and `..` the names go down. -/
theorem plain_of_missing (hnames : names path = front ++ name :: rest) (hdots : ¬ IsDots name)
    (hall : ∀ n ∈ rest, ¬ IsDots n) : ∀ n ∈ name :: rest, n ≠ [] ∧ ¬ IsDots n := by
  have hplain : ∀ n ∈ name :: rest, ¬ IsDots n := List.forall_mem_cons.mpr ⟨hdots, hall⟩
  intro n hn
  have hmem : n ∈ names path := by
    rw [hnames]
    exact List.mem_append_right _ hn
  exact ⟨ne_nil_of_mem_names hmem, hplain n hn⟩

/-- There is no `.` and no `..`. -/
theorem plainNames_eq (h : ∀ name ∈ rest, ¬ IsDots name) : plainNames rest = rest :=
  List.takeWhile_eq_self_iff.mpr (fun name hname => decide_eq_true (h name hname))

theorem plainNames_concat_of_not (h : ¬ ∀ name ∈ rest, ¬ IsDots name) (last : Name) :
    plainNames (rest ++ [last]) = plainNames rest := by
  rw [plainNames, List.takeWhile_append, if_neg]
  · rfl
  · intro hlen
    have hself := (List.takeWhile_prefix (fun n => decide (¬ IsDots n))).eq_of_length hlen
    exact h (fun n hn => of_decide_eq_true (List.takeWhile_eq_self_iff.mp hself n hn))

theorem plainNames_concat_of_dots (h : ∀ name ∈ rest, ¬ IsDots name) {last : Name}
    (hlast : IsDots last) : plainNames (rest ++ [last]) = rest := by
  rw [plainNames, List.takeWhile_append_of_pos (fun name hname => decide_eq_true (h name hname)),
    List.takeWhile_cons_of_neg (by simpa using hlast), List.append_nil]

/-- **A name is not there.** All names from it on are made, up to the first `.` or
`..`; if there is one, that is an error. -/
theorem mkdirP_of_missing (hnames : names path = front ++ name :: rest)
    (hwalk : t.walk (start cwd path) front = .ok here) (hhere : t.IsDir here)
    (hdots : ¬ IsDots name) (hnode : t.node (here ++ [name]) = none) :
    ∃ fuel t', mkdirP fuel t cwd path
        = some (t', if ∀ n ∈ rest, ¬ IsDots n then 0 else -1) ∧
      t.Adds here (name :: plainNames rest) t' := by
  have hmem : name ∈ names path := by
    rw [hnames]
    exact List.mem_append_right _ List.mem_cons_self
  have hne := ne_nil_of_mem_names hmem
  clear hmem
  induction rest using List.reverseRecOn generalizing path with
  | nil =>
    have hmkdir := mkdir_of_none hnames hwalk hhere hdots hnode
    refine ⟨1, t.addDir here name hhere, ?_, adds_addDir hhere⟩
    rw [mkdirP, hmkdir, if_pos (fun n hn => nomatch hn)]
  | append_singleton rest last ih =>
    have hfront : names path = (front ++ name :: rest) ++ [last] := by
      rw [hnames, List.append_assoc, List.cons_append]
    obtain ⟨hdirname, hstart⟩ := dirname_spec hfront (by simp) cwd
    obtain ⟨fuel, t', hparent, hadds⟩ := ih hdirname (by rw [hstart, hwalk])
    have hnoent := mkdir_of_noent hfront (walk_of_none hwalk hhere hne hdots hnode rest)
    refine ⟨fuel + 1, ?_⟩
    rw [mkdirP, hnoent, hparent]
    dsimp only
    by_cases hall : ∀ n ∈ rest, ¬ IsDots n
    · -- what is above the last name is there now
      rw [plainNames_eq hall] at hadds
      have hwalk' := hadds.walk_append hnode hwalk hhere (plain_of_missing hdirname hdots hall)
      have hdir : t'.IsDir (here ++ name :: rest) := hadds.isDir hhere List.prefix_rfl
      rw [if_pos hall, if_neg (not_not.mpr rfl)]
      by_cases hlast : IsDots last
      · refine ⟨t', ?_, ?_⟩
        · rw [mkdir_of_dots hfront hwalk' hdir hlast,
            if_neg (fun h => h last (by simp) hlast)]
        · rwa [plainNames_concat_of_dots hall hlast]
      · have hnone := hadds.node_concat hnode last
        have hall' : ∀ n ∈ rest ++ [last], ¬ IsDots n := by
          intro n hn
          rcases List.mem_append.mp hn with hn | hn
          · exact hall n hn
          · rwa [List.mem_singleton.mp hn]
        refine ⟨t'.addDir _ last hdir, ?_, ?_⟩
        · rw [mkdir_of_none hfront hwalk' hdir hlast hnone, if_pos hall']
        · rw [plainNames_eq hall']
          exact hadds.concat hdir
    · rw [if_neg hall, if_pos (by decide)]
      refine ⟨t', ?_, ?_⟩
      · rw [if_neg (fun h => hall (fun n hn => h n (List.mem_append_left _ hn)))]
      · rwa [plainNames_concat_of_not hall]

/-! ## A directory at the path -/

/-- A file is in the way, in the tree as it is before the call: some of the names of
a path, from the first on, lead to it. -/
def FileOnPath (t : FileTree α) (cwd : Place) (path : List Char) : Prop :=
  ∃ front place, front <+: names path ∧ t.walk (start cwd path) front = .ok place ∧
    t.IsFile place

/-- **`mkdir_p` makes a directory.** It returns; what is there stays; it returns zero
exactly if the path leads to a directory then; and it fails only where a file is in
the way, or the path is empty. -/
structure MakesDirectory (t : FileTree α) (cwd : Place) (path : List Char) : Prop where
  returns : ∃ fuel result, mkdirP fuel t cwd path = some result
  keeps : ∀ fuel t' r, mkdirP fuel t cwd path = some (t', r) → t.Extends t'
  zero_iff : ∀ fuel t' r, mkdirP fuel t cwd path = some (t', r) →
    (r = 0 ↔ t'.LeadsToDir cwd path)
  fails : ∀ fuel t' r, mkdirP fuel t cwd path = some (t', r) → r ≠ 0 →
    path = [] ∨ FileOnPath t cwd path

/-- What `mkdir_p` returns decides that. -/
theorem makesDirectory_iff_of_returns {fuel : ℕ} {r : ℤ}
    (h : mkdirP fuel t cwd path = some (t', r)) :
    MakesDirectory t cwd path ↔ t.Extends t' ∧ (r = 0 ↔ t'.LeadsToDir cwd path) ∧
      (r ≠ 0 → path = [] ∨ FileOnPath t cwd path) := by
  constructor
  · exact fun hm => ⟨hm.keeps _ _ _ h, hm.zero_iff _ _ _ h, hm.fails _ _ _ h⟩
  · rintro ⟨hextends, hzero, hfails⟩
    refine ⟨⟨_, _, h⟩, ?_, ?_, ?_⟩ <;>
    · intro fuel' t'' r' h'
      cases mkdirP_unique h h'
      assumption

/-- Where a name is not there, no file is in the way. -/
theorem not_fileOnPath (h : t.walk (start cwd path) (names path) = .error .noent) :
    ¬ FileOnPath t cwd path := by
  rintro ⟨front, place, ⟨rest, hnames⟩, hwalk, hfile⟩
  rw [← hnames, walk_append_of_ok hwalk] at h
  exact walk_ne_noent hfile.not_isDir rest h

/-- Behind a name that is not there is what stands behind the first of them. -/
theorem forall_behind_missing {start : Place} {names : List Name} {p : Name → Prop}
    (hnames : names = front ++ name :: rest) (hwalk : t.walk start front = .ok here)
    (hmissing : t.walk start (front ++ [name]) = .error .noent) :
    (∀ above below, names = above ++ below → t.walk start above = .error .noent →
      ∀ n ∈ below, p n) ↔ ∀ n ∈ rest, p n := by
  constructor
  · exact fun h => h (front ++ [name]) rest (by rw [hnames, List.append_cons]) hmissing
  · intro h above below hsplit habove n hn
    rw [hnames] at hsplit
    rcases List.append_eq_append_iff.mp hsplit with ⟨more, hmore, hrest⟩ | ⟨more, hmore, -⟩
    · cases more with
      | nil =>
        rw [hmore, List.append_nil, hwalk] at habove
        cases habove
      | cons m more =>
        obtain ⟨-, rfl⟩ := List.cons.inj hrest
        exact h n (List.mem_append_right _ hn)
    · -- the walk gets to the first of them
      rw [hmore] at hwalk
      obtain ⟨_, hok, -⟩ := walk_append_eq_ok_iff.mp hwalk
      rw [hok] at habove
      cases habove

/-- What is there must be a directory. -/
theorem makesDirectory_of_ok_iff (hpath : path ≠ [])
    (hwalk : t.walk (start cwd path) (names path) = .ok place) :
    MakesDirectory t cwd path ↔ t.IsDir place := by
  have hleads : t.LeadsToDir cwd path ↔ t.IsDir place := by
    rw [leadsToDir_iff, and_iff_right hpath, hwalk]
    exact ⟨fun ⟨_, heq, hdir⟩ => Except.ok.inj heq ▸ hdir, fun hdir => ⟨_, rfl, hdir⟩⟩
  rw [makesDirectory_iff_of_returns (mkdirP_of_ok hpath hwalk), and_iff_right (Extends.refl t),
    hleads]
  exact ⟨fun h => h.1.mp rfl, fun hdir => ⟨iff_of_true rfl hdir, fun h => absurd rfl h⟩⟩

/-- Below a file it fails, as it should. -/
theorem makesDirectory_of_blocked {file : Place} (hnames : names path = front ++ rest)
    (hwalk : t.walk (start cwd path) (names path) = .error .notdir)
    (hfront : t.walk (start cwd path) front = .ok file) (hfile : t.IsFile file) :
    MakesDirectory t cwd path := by
  have hleads : ¬ t.LeadsToDir cwd path := by
    intro h
    obtain ⟨-, place, hplace, -⟩ := leadsToDir_iff.mp h
    rw [hwalk] at hplace
    cases hplace
  have hblocked : FileOnPath t cwd path := ⟨front, file, ⟨rest, hnames.symm⟩, hfront, hfile⟩
  exact (makesDirectory_iff_of_returns (mkdirP_of_notdir hwalk)).mpr
    ⟨.refl t, iff_of_false (by decide) hleads, fun _ => Or.inr hblocked⟩

/-- So it does for the empty path. -/
theorem makesDirectory_nil (hcwd : t.IsDir cwd) : MakesDirectory t cwd [] :=
  (makesDirectory_iff_of_returns (mkdirP_nil t cwd hcwd)).mpr
    ⟨.refl t, iff_of_false (by decide) (fun h => (leadsToDir_iff.mp h).1 rfl),
      fun _ => Or.inl rfl⟩

/-- Behind a name that is not there may be no `.` and no `..`. -/
theorem makesDirectory_of_missing_iff (hnames : names path = front ++ name :: rest)
    (hwalk : t.walk (start cwd path) front = .ok here) (hhere : t.IsDir here) (hne : name ≠ [])
    (hdots : ¬ IsDots name) (hnode : t.node (here ++ [name]) = none) :
    MakesDirectory t cwd path ↔ ∀ n ∈ rest, ¬ IsDots n := by
  have hpath : path ≠ [] := by
    rintro rfl
    exact List.append_ne_nil_of_right_ne_nil _ (List.cons_ne_nil _ _) hnames.symm
  obtain ⟨fuel, t', hreturns, hadds⟩ := mkdirP_of_missing hnames hwalk hhere hdots hnode
  rw [makesDirectory_iff_of_returns hreturns, and_iff_right (hadds.extends hnode)]
  by_cases hall : ∀ n ∈ rest, ¬ IsDots n
  · rw [if_pos hall]
    rw [plainNames_eq hall] at hadds
    have hlast := hadds.walk_append hnode hwalk hhere (plain_of_missing hnames hdots hall)
    rw [← hnames] at hlast
    have hleads : t'.LeadsToDir cwd path :=
      leadsToDir_iff.mpr ⟨hpath, _, hlast, hadds.isDir hhere List.prefix_rfl⟩
    exact iff_of_true ⟨iff_of_true rfl hleads, fun h => absurd rfl h⟩ hall
  · rw [if_neg hall]
    have hmissing := walk_of_none hwalk hhere hne hdots hnode rest
    rw [← hnames] at hmissing
    refine iff_of_false (fun h => ?_) hall
    rcases h.2 (by decide) with hnil | hfile
    · exact hpath hnil
    · exact not_fileOnPath hmissing hfile

/-- **When `mkdir_p` makes a directory.** For every tree and every path: unless the
path leads to a file, or a `.` or `..` stands behind a name that is not there. -/
theorem makesDirectory_iff (hcwd : t.IsDir cwd) :
    MakesDirectory t cwd path ↔
      (∀ place, t.walk (start cwd path) (names path) = .ok place → ¬ t.IsFile place) ∧
      ∀ front rest, names path = front ++ rest →
        t.walk (start cwd path) front = .error .noent → ∀ name ∈ rest, ¬ IsDots name := by
  have hstart : t.IsDir (start cwd path) := hcwd.start path
  -- a walk that ends otherwise has met no name that is not there
  have hmet : t.walk (start cwd path) (names path) ≠ .error .noent →
      ∀ front rest, names path = front ++ rest →
        t.walk (start cwd path) front = .error .noent → ∀ name ∈ rest, ¬ IsDots name := by
    intro hne front rest hnames hwalk
    rw [hnames, walk_append_of_error hwalk] at hne
    exact absurd rfl hne
  have hwalks := walks hstart (names path)
  cases hwalk : t.walk (start cwd path) (names path) with
  | ok place =>
    rw [hwalk] at hwalks hmet
    obtain ⟨hplace⟩ := hwalks
    have hdir : (∀ place', (.ok place : Except Errno Place) = .ok place' → ¬ t.IsFile place') ↔
        t.IsDir place := by
      constructor
      · exact fun hfile => hplace.resolve_right (hfile place rfl)
      · rintro hdir place' heq hfile
        cases heq
        exact hfile.not_isDir hdir
    rw [and_iff_left (hmet (fun h => nomatch h)), hdir]
    by_cases hpath : path = []
    · subst hpath
      cases hwalk
      exact iff_of_true (makesDirectory_nil hcwd) hstart
    · exact makesDirectory_of_ok_iff hpath hwalk
  | error e =>
    rw [hwalk] at hwalks hmet
    rw [and_iff_right (fun _ h => nomatch h)]
    cases hwalks with
    | blocked hnames hrest hfront hplace =>
      exact iff_of_true (makesDirectory_of_blocked hnames hwalk hfront hplace)
        (hmet (fun h => nomatch h))
    | missing hnames hfront hplace hne hdots hnode =>
      rw [makesDirectory_of_missing_iff hnames hfront hplace hne hdots hnode,
        forall_behind_missing hnames hfront (walk_of_none hfront hplace hne hdots hnode [])]

/-- A tree with one file. -/
def FileTree.oneFile : FileTree Unit where
  node place := if place = [] then some .dir else if place = [['f']] then some (.file ()) else none
  root := rfl
  parent := by
    intro place name h
    rw [if_neg (by simp)] at h
    split at h
    · next heq =>
      have hplace : place = [] :=
        List.append_inj_left' (heq : place ++ [name] = [] ++ [['f']]) rfl
      exact if_pos hplace
    · exact absurd rfl h

theorem makesDirectory_iff_ab : MakesDirectory FileTree.oneFile [] "a//b/".toList := by
  have hnames : names "a//b/".toList = [] ++ ['a'] :: [['b']] := rfl
  have hwalk : FileTree.oneFile.walk (start [] "a//b/".toList) [] = .ok [] := rfl
  have hmissing : FileTree.oneFile.walk (start [] "a//b/".toList) ([] ++ [['a']])
      = .error .noent := rfl
  have hbehind := forall_behind_missing (p := fun n => ¬ IsDots n) hnames hwalk hmissing
  have hcwd : FileTree.oneFile.IsDir [] := rfl
  exact (makesDirectory_iff hcwd).mpr ⟨(fun _ h => nomatch h), hbehind.mpr (by decide)⟩

/-- **A file is taken for a directory**, and a path that leads to a directory is an
error. -/
theorem not_makesDirectory :
    (mkdirP 1 .oneFile [] "/f".toList = some (.oneFile, 0) ∧
      ¬ FileTree.oneFile.LeadsToDir [] "/f".toList ∧
      ¬ MakesDirectory .oneFile [] "/f".toList) ∧
    (∃ t', mkdirP 2 .oneFile [] "a/.".toList = some (t', -1) ∧
      t'.LeadsToDir [] "a/.".toList) ∧
    ¬ MakesDirectory .oneFile [] "a/.".toList := by
  have hfile : mkdirP 1 .oneFile [] "/f".toList = some (.oneFile, 0) := rfl
  have hleads : ¬ FileTree.oneFile.LeadsToDir [] "/f".toList := by
    rintro ⟨place, hplace, hdir⟩
    cases hplace
    exact absurd hdir (by decide)
  have hdots : ∃ t', mkdirP 2 FileTree.oneFile [] "a/.".toList = some (t', -1) ∧
      t'.LeadsToDir [] "a/.".toList :=
    ⟨_, rfl, _, rfl, rfl⟩
  refine ⟨⟨hfile, hleads, fun h => hleads ((h.zero_iff _ _ _ hfile).mp rfl)⟩, hdots, fun h => ?_⟩
  obtain ⟨t', hreturns, hleads'⟩ := hdots
  exact absurd ((h.zero_iff _ _ _ hreturns).mpr hleads') (by decide)
