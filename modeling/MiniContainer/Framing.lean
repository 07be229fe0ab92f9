import MiniContainer.Reread

/-!
# Records whose identifiers are any text

The writer puts an identifier between quotes as it is, and the reader stops
at the first quote and at the first line with a closing brace. For an
identifier that holds either, the record is framed otherwise than it was
written. What the reader then makes of a file has a closed form still. An
identifier that begins with a quote is read as none, so its record is passed
over, and its fields stay in the variables. A closing brace in an identifier
ends the record in front of its fields, and the entry gets what the
variables held.

`framed` is that closed form, one case per kind of identifier, and
`entries_loadState_framed` says the reader computes it. The number of
entries it makes is the number of identifiers that do not begin with a
quote, from which `loadState_framed_iff` reads off when every record is
framed as it was written.
-/

open CText StateFile

namespace StateFile

/-- **An identifier the name prompt accepts**: a line of at most 255
characters, with any other text in it. -/
structure Prompted (id : CStr) : Prop where
  ne_nil : id ≠ []
  length_le : id.length ≤ 255
  no_newline : '\n' ∉ id
  no_nul : '\x00' ∉ id

/-- What the reader stores of an identifier: the text in front of its first
quote. -/
def storedId (id : CStr) : CStr := id.takeWhile (· ≠ '"')

/-- An entry without what its record does not carry over: the pid, the state
and the times are left. -/
def unnamed (info : ContainerInfo) : ContainerInfo := { info with id := [], savedConfig := none }

/-- The entry the variables stand for before the first record and after
every one that was closed. -/
def blankInfo : ContainerInfo where
  id := []
  pid := 0
  state := .created
  createdAt := 0
  startedAt := 0
  stoppedAt := 0
  savedConfig := none

/-- **The fields of the entries that are read**, when the variables stand for
`v`. -/
def framed : ContainerInfo → List ContainerInfo → List ContainerInfo
  | _, [] => []
  | v, info :: rest =>
    if storedId info.id = [] then framed info rest
    else unnamed (if '}' ∈ info.id then v else info) :: framed blankInfo rest

/-! ## The line of an identifier -/

/-- Where the quoted text of an identifier ends for the reader. -/
theorem storedId_append (id rest : CStr) :
    ∃ u, id ++ '"' :: rest = storedId id ++ '"' :: u := by
  induction id with
  | nil => exact ⟨rest, rfl⟩
  | cons c id ih =>
    by_cases hc : c = '"'
    · subst hc
      exact ⟨id ++ '"' :: rest, rfl⟩
    · obtain ⟨u, hu⟩ := ih
      refine ⟨u, ?_⟩
      rw [storedId, List.takeWhile_cons_of_pos (by simpa using hc), List.cons_append, hu]
      rfl

theorem no_quote_storedId (id : CStr) : '"' ∉ storedId id :=
  fun hmem => by simpa using List.mem_takeWhile_imp hmem

theorem length_storedId_le (id : CStr) : (storedId id).length ≤ id.length :=
  (List.takeWhile_prefix _).length_le

/-- **The identifier that is stored** ends at the first quote, and where
that comes first nothing is stored. -/
theorem scanText_storedId {id : CStr} (hid : id.length ≤ 255) (tail old : CStr) :
    scanText idFormat (quoted "id".toList ++ (": ".toList ++ (quoted id ++ tail))) old
      = if storedId id = [] then old else storedId id := by
  obtain ⟨u, hu⟩ := storedId_append id tail
  have hscan : sscanf idFormat (quoted "id".toList ++ (": ".toList ++ (quoted id ++ tail)))
      = sscanf [.notSet 255 '"', .lit '"'] (storedId id ++ '"' :: u) := by
    rw [idFormat, sscanf_field, quoted, List.cons_append, sscanf_space_blank (by decide)]
    rw [sscanf_lit_cons, if_pos rfl, List.append_assoc, List.singleton_append, hu]
  rw [scanText, hscan]
  by_cases hnil : storedId id = []
  · have hstop : sscanf [.notSet 255 '"', .lit '"'] ('"' :: u) = [] := by
      rw [sscanf_notSet_cons]
      exact if_pos (by simp)
    rw [hnil, List.nil_append, hstop, if_pos rfl]
  · rw [sscanf_notSet hnil ((length_storedId_le id).trans hid) (no_quote_storedId id),
      if_neg hnil]

/-- The line of an identifier as the loop reads it. -/
theorem readLine_idLine (env : LoadEnv) (s : Reader) {id : CStr} (hid : Prompted id) :
    readLine env s (fprintField "id".toList (quoted id) ",\n".toList)
      = if '}' ∈ id ∧ ¬ (storedId id = [] ∧ s.containerId = []) then
          closeRecord env { s with
            inContainer := true
            containerId := if storedId id = [] then s.containerId else storedId id }
        else { s with
            inContainer := true
            containerId := if storedId id = [] then s.containerId else storedId id } := by
  have hnul : '\x00' ∉ quoted id := by simp [quoted, hid.no_nul]
  have hp : skipBlanks (cstring (fprintField "id".toList (quoted id) ",\n".toList))
      = quoted "id".toList ++ (": ".toList ++ (quoted id ++ ",\n".toList)) :=
    skipBlanks_field (by decide) hnul (by decide)
  generalize hline : quoted "id".toList ++ (": ".toList ++ (quoted id ++ ",\n".toList)) = p at hp
  have hfound : strstr p (quoted "id".toList) = true := by
    rw [← hline]
    exact strstr_iff.mpr (List.prefix_append _ _).isInfix
  have hscan : scanFields p s = { s with
      inContainer := true
      containerId := if storedId id = [] then s.containerId else storedId id } := by
    rw [scanFields, if_pos hfound, ← hline, scanText_storedId hid.length_le]
  have hmem : '}' ∈ p ↔ '}' ∈ id := by
    rw [← hline]
    simp [quoted]
  have hbrace : (strstr p ['}'] || strstr p ['}', ',']) = decide ('}' ∈ id) := by
    rw [← decide_eq_decide.mpr hmem, Bool.eq_iff_iff, Bool.or_eq_true, strstr_singleton,
      strstr_iff, decide_eq_true_iff]
    exact or_iff_left_of_imp (fun hin => hin.subset List.mem_cons_self)
  have hhead : p.head? ∉ [none, some '\n', some '{', some '[', some ']'] := by
    rw [← hline]
    simp [quoted]
  have hid' : (if storedId id = [] then s.containerId else storedId id) ≠ []
      ↔ ¬ (storedId id = [] ∧ s.containerId = []) := by
    split
    · next h => simp [h]
    · next h => simp [h]
  simp only [readLine, hp, hscan, hbrace]
  rw [if_neg hhead]
  refine if_congr ?_ rfl rfl
  rw [Bool.true_and, Bool.and_eq_true, decide_eq_true_iff, decide_eq_true_iff, hid']

/-! ## One record -/

/-- The reader between two records, its variables set to the fields of
`v`, with no identifier. -/
def Reader.waiting (cm : ContainerManager) (loaded : ℕ) (v : ContainerInfo) (inContainer : Bool) :
    Reader :=
  { Reader.recorded cm loaded v with containerId := [], inContainer := inContainer }

theorem Reader.idle_eq_waiting (cm : ContainerManager) (loaded : ℕ) :
    Reader.idle cm loaded = .waiting cm loaded blankInfo false := rfl

/-- Outside a record the numbers are not read. -/
theorem readFile_numberLine_idle (env : LoadEnv) (field : NumField) (cm : ContainerManager)
    (loaded : ℕ) {n : ℤ} (hn : IsLong n) {sep : CStr} (hsep : sep = [] ∨ sep = [','])
    (t : CStr) :
    readFile env (.idle cm loaded)
        (fprintField field.key (printDecimal n) (sep ++ ['\n']) ++ t)
      = readFile env (.idle cm loaded) t := by
  have hquote : '"' ∉ sep := by rcases hsep with rfl | rfl <;> decide
  have hkey : '"' ∉ field.key ∧ "id".toList ≠ field.key := by
    cases field <;> exact ⟨by decide, by decide⟩
  rw [readFile_field env _ field.tame_key (tame_printDecimal hn)
      (by rcases hsep with rfl | rfl <;> decide),
    scanFields_quoted hkey.1 (no_quote_number hquote), if_neg hkey.2]
  rfl

theorem readFile_numberLines_idle (env : LoadEnv) (cm : ContainerManager) (loaded : ℕ)
    {info : ContainerInfo} (hinfo : Typed info) (t : CStr) :
    readFile env (.idle cm loaded) (numberLines info ++ t)
      = readFile env (.idle cm loaded) ("    ".toList ++ t) := by
  have hcomma : ",\n".toList = [','] ++ ['\n'] := rfl
  have hlast : "\n".toList = [] ++ ['\n'] := rfl
  simp only [numberLines, List.append_assoc]
  rw [hcomma, hlast]
  refine (readFile_numberLine_idle env .pid _ _ hinfo.pid.isLong (Or.inr rfl) _).trans ?_
  refine (readFile_numberLine_idle env .state _ _ hinfo.state.isLong (Or.inr rfl) _).trans ?_
  refine (readFile_numberLine_idle env .createdAt _ _ hinfo.createdAt (Or.inr rfl) _).trans ?_
  refine (readFile_numberLine_idle env .startedAt _ _ hinfo.startedAt (Or.inr rfl) _).trans ?_
  exact readFile_numberLine_idle env .stoppedAt _ _ hinfo.stoppedAt (Or.inl rfl) _

/-- The line of an identifier is one line of the file. -/
theorem readFile_idLine_prompted (env : LoadEnv) (s : Reader) {id : CStr} (hid : Prompted id)
    (t : CStr) :
    readFile env s (fprintField "id".toList (quoted id) ",\n".toList ++ t)
      = readFile env (readLine env s (fprintField "id".toList (quoted id) ",\n".toList)) t := by
  have hsplit : fprintField "id".toList (quoted id) ",\n".toList
      = fprintField "id".toList (quoted id) ",".toList ++ ['\n'] := by
    simp [fprintField_eq]
  have hvalue : '\n' ∉ quoted id := by simp [quoted, hid.no_newline]
  have hline : '\n' ∉ fprintField "id".toList (quoted id) ",".toList :=
    not_mem_fprintField (by decide) (by decide) hvalue (by decide)
  have hlen : (fprintField "id".toList (quoted id) ",".toList).length + 1 < 1024 := by
    have := hid.length_le
    simp only [fprintField_eq, quoted, List.length_append, List.length_cons, List.length_nil,
      String.length_toList]
    have : "      ".length = 6 := by decide
    have : "id".length = 2 := by decide
    have : ": ".length = 2 := by decide
    have : ",".length = 1 := by decide
    omega
  rw [hsplit, List.append_assoc, List.singleton_append, readFile_line env s hline hlen]

/-- A record that is kept makes one entry, of the variables' fields. -/
theorem closeRecord_survives (env : LoadEnv) {cm : ContainerManager} (hcm : cm.WF) (loaded : ℕ)
    {v : ContainerInfo} (hv : survives env v = true) (id : CStr) :
    ∃ cm', closeRecord env (.recorded cm loaded { v with id := id }) = .idle cm' (loaded + 1) ∧
      cm'.WF ∧ cm'.entries.map unnamed = cm.entries.map unnamed ++ [unnamed v] := by
  have hv' : survives env { v with id := id } = true := hv
  obtain ⟨cm', hclose, hcm', hentries, -⟩ :=
    closeRecord_recorded env hcm loaded { v with id := id }
  refine ⟨cm', by rw [hclose, if_pos hv'], hcm', ?_⟩
  rw [hentries, restore, if_pos hv', List.map_append]
  rfl

/-- **One record of any identifier.** Where the identifier is read as none
nothing is closed; where it holds a closing brace the record is closed with
the fields the variables had; else it is closed with its own. -/
theorem readFile_record (env : LoadEnv) {cm : ContainerManager} (hcm : cm.WF) (loaded : ℕ)
    {v info : ContainerInfo} (b : Bool) (hv : survives env v = true)
    (hsurv : survives env info = true) (hid : Prompted info.id) (hinfo : Typed info) {sep : CStr}
    (hsep : sep = [] ∨ sep = [',']) (t : CStr) :
    ∃ cm' loaded' b',
      readFile env (.waiting cm loaded v b) (recordBody info ++ '}' :: (sep ++ '\n' :: t))
        = readFile env
            (.waiting cm' loaded' (if storedId info.id = [] then info else blankInfo) b') t ∧
      cm'.WF ∧
      cm'.entries.map unnamed = cm.entries.map unnamed
        ++ if storedId info.id = [] then [] else [unnamed (if '}' ∈ info.id then v else info)] := by
  have hread : readFile env (.waiting cm loaded v b)
        (recordBody info ++ '}' :: (sep ++ '\n' :: t))
      = readFile env (readLine env (.waiting cm loaded v b)
          (fprintField "id".toList (quoted info.id) ",\n".toList))
          (numberLines info ++ '}' :: (sep ++ '\n' :: t)) := by
    rw [recordBody_eq_idLine, List.append_assoc, readFile_openLine, List.append_assoc,
      readFile_idLine_prompted env _ hid]
  rw [hread, readLine_idLine env _ hid]
  by_cases hnil : storedId info.id = []
  · -- the fields stay in the variables, and no brace closes the record
    rw [if_neg (fun h => h.2 ⟨hnil, rfl⟩), if_pos hnil, if_pos hnil, if_pos hnil, List.append_nil,
      readFile_numberLines env rfl hinfo, readFile_closed env _ hsep, if_neg (fun h => h.2 rfl)]
    exact ⟨cm, loaded, true, rfl, hcm, rfl⟩
  · rw [if_neg hnil, if_neg hnil, if_neg hnil]
    by_cases hbrace : '}' ∈ info.id
    · rw [if_pos ⟨hbrace, fun h => hnil h.1⟩, if_pos hbrace]
      obtain ⟨cm', hclose, hcm', hentries⟩ :=
        closeRecord_survives env hcm loaded hv (storedId info.id)
      refine ⟨cm', loaded + 1, false, ?_, hcm', hentries⟩
      rw [show ({ Reader.waiting cm loaded v b with
            inContainer := true, containerId := storedId info.id } : Reader)
          = .recorded cm loaded { v with id := storedId info.id } from rfl, hclose,
        readFile_numberLines_idle env _ _ hinfo, readFile_closed env _ hsep,
        if_neg (fun h => Bool.false_ne_true h.1)]
      rfl
    · rw [if_neg (fun h => hbrace h.1), if_neg hbrace]
      obtain ⟨cm', hclose, hcm', hentries⟩ :=
        closeRecord_survives env hcm loaded hsurv (storedId info.id)
      refine ⟨cm', loaded + 1, false, ?_, hcm', hentries⟩
      rw [readFile_numberLines env rfl hinfo, readFile_closed env _ hsep, if_pos ⟨rfl, hnil⟩]
      exact congrArg (fun s => readFile env s t) hclose

/-! ## The whole file -/

/-- **An entry whose record says all there is to say**: its fields have
their types, and its container is created or alive. -/
structure Writable (env : LoadEnv) (info : ContainerInfo) : Prop where
  id : Prompted info.id
  typed : Typed info
  state : info.state = .created ∨ (info.state = .running ∧ isPidAlive env info.pid = true)

theorem Writable.survives {env : LoadEnv} {info : ContainerInfo} (h : Writable env info) :
    survives env info = true := by
  rw [StateFile.survives, decide_eq_true_iff]
  rcases h.state with hst | ⟨hst, halive⟩
  · simp [hst]
  · simp [hst, halive]

/-- Behind the records a reader without an identifier finds nothing. -/
theorem readFile_footer_waiting (env : LoadEnv) (cm : ContainerManager) (loaded : ℕ)
    (v : ContainerInfo) (b : Bool) :
    readFile env (.waiting cm loaded v b) footer = .waiting cm loaded v b :=
  readFile_of_no_quote env (Or.inr rfl) (by decide)

/-- Reading the records is `framed`. The induction is on the records; what
the variables stand for is carried from one to the next. -/
theorem readFile_framed (env : LoadEnv) {l : List ContainerInfo}
    (hl : ∀ info ∈ l, Writable env info) {cm : ContainerManager} (hcm : cm.WF) (loaded : ℕ)
    {v : ContainerInfo} (b : Bool) (hv : survives env v = true) :
    (readFile env (.waiting cm loaded v b) (recordsText l ++ footer)).cm.entries.map unnamed
      = cm.entries.map unnamed ++ framed v l := by
  induction l generalizing cm loaded v b with
  | nil =>
    rw [recordsText, List.nil_append, readFile_footer_waiting, framed, List.append_nil]
    rfl
  | cons info rest ih =>
    have hinfo := hl info List.mem_cons_self
    generalize hsep : (if rest = [] then ([] : CStr) else [',']) = sep
    have hsep' : sep = [] ∨ sep = [','] := by
      rw [← hsep]
      split
      · exact Or.inl rfl
      · exact Or.inr rfl
    obtain ⟨cm', loaded', b', hread, hcm', hentries⟩ := readFile_record env hcm loaded b hv
      hinfo.survives hinfo.id hinfo.typed hsep' (recordsText rest ++ footer)
    have htext : recordsText (info :: rest) ++ footer
        = recordBody info ++ '}' :: (sep ++ '\n' :: (recordsText rest ++ footer)) := by
      rw [recordsText, hsep]
      simp
    have hnext : survives env (if storedId info.id = [] then info else blankInfo) = true := by
      split
      · exact hinfo.survives
      · rfl
    rw [htext, hread, ih (fun i hi => hl i (List.mem_cons_of_mem _ hi)) hcm' loaded' b' hnext,
      hentries, framed, List.append_assoc]
    split
    · rw [List.nil_append]
    · rfl

/-- **What is read of a written file**, whatever its identifiers hold. -/
theorem entries_loadState_framed (env : LoadEnv) {saved cm : ContainerManager}
    (hsaved : ∀ info ∈ saved.entries, Writable env info) (hcm : cm.WF) :
    (loadState env (saveState saved) cm).1.entries.map unnamed
      = cm.entries.map unnamed ++ framed blankInfo saved.entries := by
  show (readFile env (.idle cm 0) (header ++ (recordsText saved.entries ++ footer))).cm.entries.map
    unnamed = _
  rw [readFile_header, Reader.idle_eq_waiting]
  exact readFile_framed env hsaved hcm 0 false rfl

/-! ## When records keep their frames -/

/-- **A record that is framed as it was written**: its identifier does not
begin with a quote, and if it holds a closing brace, the record says nothing
but zeros. -/
structure Framed (info : ContainerInfo) : Prop where
  no_quote : info.id.head? ≠ some '"'
  of_brace : '}' ∈ info.id → info.pid = 0 ∧ info.state = .created ∧ info.createdAt = 0 ∧
    info.startedAt = 0 ∧ info.stoppedAt = 0

theorem storedId_eq_nil_iff {id : CStr} (hid : id ≠ []) :
    storedId id = [] ↔ id.head? = some '"' := by
  cases id with
  | nil => exact absurd rfl hid
  | cons c id =>
    rw [storedId, List.takeWhile_cons, List.head?_cons, Option.some.injEq]
    by_cases hc : c = '"'
    · simp [hc]
    · simp [hc]

theorem unnamed_eq_blankInfo_iff (info : ContainerInfo) :
    unnamed blankInfo = unnamed info ↔ info.pid = 0 ∧ info.state = .created ∧
      info.createdAt = 0 ∧ info.startedAt = 0 ∧ info.stoppedAt = 0 := by
  rw [unnamed, unnamed, ContainerInfo.mk.injEq]
  constructor
  · rintro ⟨-, hpid, hstate, hcreated, hstarted, hstopped, -⟩
    exact ⟨hpid.symm, hstate.symm, hcreated.symm, hstarted.symm, hstopped.symm⟩
  · rintro ⟨hpid, hstate, hcreated, hstarted, hstopped⟩
    exact ⟨rfl, hpid.symm, hstate.symm, hcreated.symm, hstarted.symm, hstopped.symm, rfl⟩

/-- No record makes more than one entry. -/
theorem length_framed_le (v : ContainerInfo) (l : List ContainerInfo) :
    (framed v l).length ≤ l.length := by
  induction l generalizing v with
  | nil => exact le_rfl
  | cons info rest ih =>
    rw [framed, List.length_cons]
    split
    · exact (ih info).trans (Nat.le_succ _)
    · exact Nat.succ_le_succ (ih blankInfo)

/-- Reading is faithful as long as the variables stand for nothing: a record
without an identifier would leave an entry too few. -/
theorem framed_eq_map_iff (l : List ContainerInfo) :
    framed blankInfo l = l.map unnamed ↔
      ∀ info ∈ l, storedId info.id ≠ [] ∧
        ('}' ∈ info.id → unnamed blankInfo = unnamed info) := by
  induction l with
  | nil => exact iff_of_true rfl (fun _ hmem => absurd hmem List.not_mem_nil)
  | cons info rest ih =>
    rw [framed, List.forall_mem_cons, ← ih, List.map_cons]
    by_cases hnil : storedId info.id = []
    · rw [if_pos hnil]
      refine iff_of_false (fun h => ?_) (fun h => h.1.1 hnil)
      have hlen := length_framed_le info rest
      rw [h, List.length_cons, List.length_map] at hlen
      omega
    · rw [if_neg hnil, List.cons.injEq]
      refine and_congr_left (fun _ => ?_)
      by_cases hbrace : '}' ∈ info.id
      · rw [if_pos hbrace]
        exact ⟨fun h => ⟨hnil, fun _ => h⟩, fun h => h.2 hbrace⟩
      · rw [if_neg hbrace]
        exact iff_of_true rfl ⟨hnil, fun h => absurd h hbrace⟩

end StateFile

/-- **When the framing does not depend on the identifiers.** For containers
that are created or alive, reading a written file into an empty registry
gives, in order, one entry with the pid, the state and the times of each
container if and only if every record is framed as it was written. -/
theorem loadState_framed_iff (env : LoadEnv) {saved cm : ContainerManager}
    (hsaved : ∀ info ∈ saved.entries, Writable env info) (hcm : cm.WF) (hempty : cm.entries = []) :
    (loadState env (saveState saved) cm).1.entries.map unnamed = saved.entries.map unnamed ↔
      ∀ info ∈ saved.entries, Framed info := by
  rw [entries_loadState_framed env hsaved hcm, hempty, List.map_nil, List.nil_append,
    framed_eq_map_iff]
  refine forall₂_congr (fun info hmem => ?_)
  rw [ne_eq, storedId_eq_nil_iff (hsaved info hmem).id.ne_nil, unnamed_eq_blankInfo_iff]
  exact ⟨fun h => ⟨h.1, h.2⟩, fun h => ⟨h.no_quote, h.of_brace⟩⟩

/-- A running container with a closing brace in its identifier. -/
def bracedOne : List ContainerInfo :=
  [{ createdInfo "a\x7d".toList 100 (.plain none []) with
      pid := 7
      state := .running
      startedAt := 100 }]

/-- **A running container is read as one that was never started**, with no
pid, because its identifier holds a brace. -/
theorem framing_broken :
    (ContainerManager.ofList bracedOne).ids.Nodup ∧
      (∀ info ∈ (ContainerManager.ofList bracedOne).entries,
        Writable ⟨fun _ => true, 200⟩ info) ∧
      (loadState ⟨fun _ => true, 200⟩ (saveState (.ofList bracedOne))
          (World.empty 1).cm).1.entries.map unnamed = [blankInfo] ∧
      (ContainerManager.ofList bracedOne).entries.map unnamed ≠ [blankInfo] := by
  have hwrite : ∀ info ∈ (ContainerManager.ofList bracedOne).entries,
      Writable ⟨fun _ => true, 200⟩ info := by
    rw [ContainerManager.entries_ofList]
    intro info hmem
    rw [List.mem_singleton.mp hmem]
    exact ⟨⟨by decide, by decide, by decide, by decide⟩,
      ⟨by decide, by decide, by decide, by decide, by decide⟩, Or.inr ⟨rfl, rfl⟩⟩
  refine ⟨?_, hwrite, ?_, ?_⟩
  · rw [ContainerManager.ids, ContainerManager.entries_ofList]
    decide
  · have hwf : (World.empty 1).cm.WF := ContainerManager.fresh_wf _ (by decide)
    rw [entries_loadState_framed _ hwrite hwf, ContainerManager.entries_ofList]
    decide
  · rw [ContainerManager.entries_ofList]
    decide

/-- A running container whose identifier holds neither a brace nor a quote
in front is read with its fields. -/
theorem loadState_framed_iff_one :
    (loadState ⟨fun _ => true, 200⟩
        (saveState (.ofList [{ createdInfo "a\"b".toList 100 (.plain none []) with
          pid := 7, state := .running }])) (World.empty 1).cm).1.entries.map unnamed
      = [{ blankInfo with pid := 7, state := .running, createdAt := 100 }] := by
  refine (loadState_framed_iff _ ?_ (ContainerManager.fresh_wf _ (by decide)) rfl).mpr ?_
  · rw [ContainerManager.entries_ofList]
    intro info hmem
    rw [List.mem_singleton.mp hmem]
    exact ⟨⟨by decide, by decide, by decide, by decide⟩,
      ⟨by decide, by decide, by decide, by decide, by decide⟩, Or.inr ⟨rfl, rfl⟩⟩
  · rw [ContainerManager.entries_ofList]
    intro info hmem
    rw [List.mem_singleton.mp hmem]
    exact ⟨by decide, fun h => absurd h (by decide)⟩
