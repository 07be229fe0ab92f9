import MiniContainer.Reload

/-!
# Reading a file once and reading it again

A process that starts rewrites the state file from what it has read, and
the next one reads that. Nothing makes a state file well-formed: it may have
been cut off, edited, or written by something else. Whatever it is, what the
first process makes of it is what the second one makes of it.

A record that is read has passed through the reader's variables, and those
hold only what `sscanf` can store (`Reader.Scanned`). An identifier that
denotes a number is then plain, although the text it came from need not be;
every other one is replaced by a numeral. So every entry that is read is one
the writer can store (`storable_loadedInfo`), and reading it back under the
entries in front of it gives the same entry (`reloadInfo_loadedInfo`).
-/

open CText StateFile

namespace StateFile

/-- **What `%255[^"]` can store of one line**, or the empty text. -/
structure ScannedId (id : CStr) : Prop where
  length_le : id.length ≤ 255
  oneLine : OneLine id

/-- **What the variables can hold**: numbers of their types, and an
identifier from a line. -/
structure Reader.Scanned (s : Reader) : Prop where
  id : ScannedId s.containerId
  pid : IsInt s.pid
  state : IsInt s.state
  createdAt : IsLong s.createdAt
  startedAt : IsLong s.startedAt
  stoppedAt : IsLong s.stoppedAt

theorem isInt_zero : IsInt 0 := by decide

theorem Reader.scanned_idle (cm : ContainerManager) (loaded : ℕ) :
    (Reader.idle cm loaded).Scanned where
  id := ⟨Nat.zero_le _, fun a b h => absurd h (by simp [Reader.idle])⟩
  pid := isInt_zero
  state := isInt_zero
  createdAt := isInt_zero.isLong
  startedAt := isInt_zero.isLong
  stoppedAt := isInt_zero.isLong

theorem scanNum_isInt {key p : CStr} {old : ℤ} (hold : IsInt old) :
    IsInt (scanNum (fieldFormat key [.int]) p old) := by
  unfold scanNum
  split
  · next n vs hscan =>
    rcases sscanf_from (fieldFormat key [.int]) p (.num n) (hscan ▸ List.mem_cons_self) with
      h | h
    · exact h.2
    · exact absurd h.1 (by simp [fieldFormat, lits])
  · exact hold

theorem scanNum_isLong {key p : CStr} {old : ℤ} (hold : IsLong old) :
    IsLong (scanNum (fieldFormat key [.long]) p old) := by
  unfold scanNum
  split
  · next n vs hscan =>
    rcases sscanf_from (fieldFormat key [.long]) p (.num n) (hscan ▸ List.mem_cons_self) with
      h | h
    · exact absurd h.1 (by simp [fieldFormat, lits])
    · exact h.2
  · exact hold

theorem scanText_scannedId {p old : CStr} (hp : OneLine p) (hold : ScannedId old) :
    ScannedId (scanText idFormat p old) := by
  unfold scanText
  split
  · next t vs hscan =>
    obtain ⟨hpiece, width, stop, hmem, hlen, -⟩ :=
      sscanf_from idFormat p (.text t) (hscan ▸ List.mem_cons_self)
    have hwidth : width = 255 := by
      simp [idFormat, fieldFormat, lits] at hmem
      exact hmem.1
    exact ⟨hwidth ▸ hlen, hp.infix hpiece⟩
  · exact hold

/-- A line leaves in the variables what they can hold. -/
theorem scanFields_scanned {p : CStr} (hp : OneLine p) {s : Reader} (hs : s.Scanned) :
    (scanFields p s).Scanned := by
  unfold scanFields
  split_ifs
  · exact { hs with id := scanText_scannedId hp hs.id }
  · exact { hs with pid := scanNum_isInt hs.pid }
  · exact { hs with state := scanNum_isInt hs.state }
  · exact { hs with createdAt := scanNum_isLong hs.createdAt }
  · exact { hs with startedAt := scanNum_isLong hs.startedAt }
  · exact { hs with stoppedAt := scanNum_isLong hs.stoppedAt }
  · exact hs

/-- **An identifier that is read and kept is plain.** A newline could only
be at its end, where a digit is. -/
theorem Kept.plainId {id : CStr} (h : Kept id) (hid : ScannedId id) : PlainId id where
  ne_nil := by
    obtain ⟨a, b, rfl, -, hb, -⟩ := h.shape
    exact List.append_ne_nil_of_right_ne_nil _ hb
  length_le := hid.length_le
  no_quote := h.not_mem (by decide) (by decide) (by decide) (by decide)
  no_brace := h.not_mem (by decide) (by decide) (by decide) (by decide)
  no_newline := by
    obtain ⟨a, b, rfl, -, hne, hb⟩ := h.shape
    intro hmem
    rcases List.mem_append.mp hmem with hmem | hmem
    · obtain ⟨x, y, rfl⟩ := List.append_of_mem hmem
      have := hid.oneLine x (y ++ b) (by simp)
      exact hne (List.append_eq_nil_iff.mp this).2
    · rcases hb _ hmem with hc | hc | hc <;> exact absurd hc (by decide)
  no_nul := h.not_mem (by decide) (by decide) (by decide) (by decide)

/-- The identifier a record is loaded under. -/
theorem loadedId_eq {s : Reader} (hcm : s.cm.WF) :
    loadedId s = reloadId s.cm.ids s.containerId := by
  have hnext : s.cm.nextNumericId = ContainerManager.nextNumber s.cm.ids := by
    rw [ContainerManager.nextNumericId, ContainerManager.maxNumericId_eq hcm]
    rfl
  rw [loadedId, reloadId, hnext, ContainerManager.snprintf_nextNumber]

/-- **Loading an identifier twice is loading it once**, under the same
entries. -/
theorem reloadId_reloadId (ids : List CStr) (id : CStr) :
    reloadId ids (reloadId ids id) = reloadId ids id := by
  unfold reloadId
  split_ifs <;> rfl

/-- **An entry that is read can be stored.** -/
theorem storable_loadedInfo {s : Reader} (hcm : s.cm.WF) (hs : s.Scanned) :
    Storable (loadedInfo s) where
  id := by
    show PlainId (loadedId s)
    rw [loadedId_eq hcm, reloadId]
    split
    · exact plainId_printDecimal (ContainerManager.isInt_nextNumber _).isLong
    · next h => exact Kept.plainId (not_lt.mp h) hs.id
  pid := hs.pid
  state := by
    show IsInt (ContainerState.ofInt s.state).toInt
    rw [ContainerState.toInt_ofInt]
    exact hs.state
  createdAt := hs.createdAt
  startedAt := hs.startedAt
  stoppedAt := hs.stoppedAt

/-- **An entry that is read is read back as it is**, behind the entries it
was read behind. -/
theorem reloadInfo_loadedInfo {s : Reader} (hcm : s.cm.WF) :
    reloadInfo s.cm.ids (loadedInfo s) = loadedInfo s := by
  unfold reloadInfo
  have hid : reloadId s.cm.ids (loadedInfo s).id = (loadedInfo s).id := by
    show reloadId s.cm.ids (loadedId s) = loadedId s
    rw [loadedId_eq hcm, reloadId_reloadId]
  rw [hid]
  rfl

/-- **Entries that are what they are read back as**, on a host with the same
processes. -/
structure Rereadable (kill : ℤ → Bool) (l : List ContainerInfo) : Prop where
  storable : ∀ info ∈ l, Storable info
  fixed : ∀ now, l.foldl (restore ⟨kill, now⟩) [] = l

theorem rereadable_nil (kill : ℤ → Bool) : Rereadable kill [] where
  storable := fun _ hmem => absurd hmem List.not_mem_nil
  fixed := fun _ => rfl

/-- One more entry that is read back as it is. -/
theorem Rereadable.concat {kill : ℤ → Bool} {l : List ContainerInfo} (h : Rereadable kill l)
    {info : ContainerInfo} (hinfo : Storable info)
    (hsurv : ∀ now, survives ⟨kill, now⟩ info = true)
    (hfixed : reloadInfo (l.map ContainerInfo.id) info = info) :
    Rereadable kill (l ++ [info]) where
  storable := by
    intro i hi
    rcases List.mem_append.mp hi with hi | hi
    · exact h.storable i hi
    · rwa [List.mem_singleton.mp hi]
  fixed := by
    intro now
    rw [List.foldl_append, h.fixed, List.foldl_cons, List.foldl_nil, restore,
      if_pos (hsurv now), hfixed]

/-- What the reader keeps over any file. -/
structure Reader.Steady (kill : ℤ → Bool) (s : Reader) : Prop where
  wf : s.cm.WF
  scanned : s.Scanned
  entries : Rereadable kill s.cm.entries

/-- **The end of a record keeps the entries readable.** What is added has
neither stopped nor been destroyed, and if it is running its process is
alive. -/
theorem closeRecord_steady {kill : ℤ → Bool} {now : ℤ} {s : Reader} (h : s.Steady kill) :
    (closeRecord ⟨kill, now⟩ s).Steady kill := by
  obtain ⟨hwf, hscanned, hentries⟩ := h
  have hidle : ∀ {cm : ContainerManager} (loaded : ℕ), cm.WF → Rereadable kill cm.entries →
      (Reader.idle cm loaded).Steady kill :=
    fun {cm} loaded hcm hl => ⟨hcm, Reader.scanned_idle cm loaded, hl⟩
  unfold closeRecord
  dsimp only
  by_cases hdead : s.state = ContainerState.running.toInt ∧ ¬ isPidAlive ⟨kill, now⟩ s.pid = true
  · -- the container has stopped, and is not added
    rw [checkAlive, if_pos hdead, addLoaded, if_neg (fun h => h.2 rfl)]
    exact hidle _ hwf hentries
  · rw [checkAlive, if_neg hdead]
    unfold addLoaded
    split
    · next hstate =>
      split
      · next cm hadd =>
        obtain ⟨hwf', hadded, -⟩ := ContainerManager.addContainer_spec hwf hadd
        refine hidle _ hwf' ?_
        rw [show ({ s with cm := cm, loaded := s.loaded + 1 } : Reader).cm.entries = cm.entries
          from rfl, hadded]
        refine hentries.concat (storable_loadedInfo hwf hscanned) (fun now' => ?_)
          (reloadInfo_loadedInfo hwf)
        have hinj : ∀ st : ContainerState,
            (loadedInfo s).state = st → s.state = st.toInt := by
          rintro st rfl
          exact (ContainerState.toInt_ofInt _).symm
        rw [survives, decide_eq_true_iff]
        refine ⟨fun h => hstate.2 (hinj _ h), fun h => hstate.1 (hinj _ h), fun h => ?_⟩
        exact not_not.mp (fun hn => hdead ⟨hinj _ h, hn⟩)
      · exact hidle _ hwf hentries
    · exact hidle _ hwf hentries

/-- **One line of any file keeps the entries readable.** -/
theorem readLine_steady {kill : ℤ → Bool} {now : ℤ} {s : Reader} (h : s.Steady kill)
    {line : CStr} (hline : OneLine line) : (readLine ⟨kill, now⟩ s line).Steady kill := by
  have hp : OneLine (skipBlanks (cstring line)) := by
    refine hline.infix ((List.dropWhile_suffix _).isInfix.trans ?_)
    exact (List.takeWhile_prefix _).isInfix
  have hscan : (scanFields (skipBlanks (cstring line)) s).Steady kill := by
    refine ⟨?_, scanFields_scanned hp h.scanned, ?_⟩
    · rw [scanFields_cm]
      exact h.wf
    · rw [scanFields_cm]
      exact h.entries
  unfold readLine
  dsimp only
  split
  · exact h
  · split
    · exact closeRecord_steady hscan
    · exact hscan

/-- **Whatever a file says**, the entries made of it are what they are read
back as. -/
theorem loadState_rereadable (kill : ℤ → Bool) (now : ℤ) (file : CStr) {cm : ContainerManager}
    (hcm : cm.WF) (hempty : cm.entries = []) :
    Rereadable kill (loadState ⟨kill, now⟩ file cm).1.entries := by
  have hidle : (Reader.idle cm 0).Steady kill := by
    refine ⟨hcm, Reader.scanned_idle cm 0, ?_⟩
    show Rereadable kill cm.entries
    rw [hempty]
    exact rereadable_nil kill
  exact (readFile_invariant ⟨kill, now⟩ (I := Reader.Steady kill)
    (fun line hline s hs => readLine_steady hs (oneLine_of_mem_fgetsFrom hline)) hidle).entries

end StateFile

/-- **Restart is idempotent on any file.** Reading a file into an empty
registry, saving the registry and reading that into an empty registry gives
the entries of the first reading, whatever the file says, as long as the
same processes are alive. -/
theorem loadState_saveState_loadState (kill : ℤ → Bool) (now now' : ℤ) (file : CStr)
    {cm cm' : ContainerManager} (hcm : cm.WF) (hempty : cm.entries = []) (hcm' : cm'.WF)
    (hempty' : cm'.entries = []) :
    (loadState ⟨kill, now'⟩ (saveState (loadState ⟨kill, now⟩ file cm).1) cm').1.entries
      = (loadState ⟨kill, now⟩ file cm).1.entries := by
  have h := loadState_rereadable kill now file hcm hempty
  rw [(loadState_saveState _ h.storable hcm').2.1, hempty', h.fixed]

/-- A file no process has written: an identifier without its closing quote,
and one with a blank and a sign. -/
def oddFile : CStr := "\"id\": \"foo\n\x7d\n\"id\": \" +4\" \x7d".toList

/-- Two containers are read from the odd file, and read again. -/
theorem loadState_saveState_loadState_odd :
    (loadState ⟨fun _ => false, 200⟩ oddFile (World.empty 1).cm).1.ids
        = [['1'], " +4".toList] ∧
      (loadState ⟨fun _ => false, 300⟩
          (saveState (loadState ⟨fun _ => false, 200⟩ oddFile (World.empty 1).cm).1)
          (World.empty 1).cm).1.entries
        = (loadState ⟨fun _ => false, 200⟩ oddFile (World.empty 1).cm).1.entries := by
  have hwf : (World.empty 1).cm.WF := ContainerManager.fresh_wf _ (by decide)
  exact ⟨by decide, loadState_saveState_loadState _ 200 300 oddFile hwf rfl hwf rfl⟩
