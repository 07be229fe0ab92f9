import MiniContainer.Lifecycle

/-!
# What a registry becomes when it is read back

`loadState_saveState` says that reading a written file restores the entries
one after the other. Here that is put in closed form. A container survives
or not, which depends on it alone; its identifier is kept if it denotes a
number, and otherwise replaced by the number after the largest one so far.
The largest number so far is all that one record needs to know of the
others, so a counter carries it (`reload`).

For identifiers the program generates nothing is replaced, and reading back
is filtering (`load_save_roundtrip`). For identifiers the user chooses the
counter may give out a number that a later container already has, and
`reload_ids_nodup_iff` says exactly when: `NoClash` looks at the
identifiers in the file and at nothing else.
-/

open CText StateFile

/-- The largest `int`. -/
def intMax : ℤ := 2 ^ 31 - 1

/-- **An identifier that is kept**: it denotes a number. -/
def Kept (id : CStr) : Prop := 0 ≤ extractNumericId id

instance (id : CStr) : Decidable (Kept id) := inferInstanceAs (Decidable (_ ≤ _))

/-- **The shape of an identifier that is kept**: blanks, and then a sign and
digits. -/
theorem Kept.shape {id : CStr} (h : Kept id) :
    ∃ a b, id = a ++ b ∧ (∀ c ∈ a, isSpace c = true) ∧ b ≠ [] ∧
      ∀ c ∈ b, c.isDigit = true ∨ c = '-' ∨ c = '+' := by
  unfold Kept extractNumericId at h
  dsimp only at h
  split at h
  · next hnum =>
    obtain ⟨hend, hpos⟩ := hnum
    unfold strtol at hend hpos
    split at hend
    · next n t hread =>
      rw [show t = [] from hend] at hread
      exact readDecimal_shape hread
    · next hread =>
      rw [hread] at hpos
      exact absurd hpos (lt_irrefl 0)
  · exact absurd h (by decide)

/-- A character of no numeral and no blank is in no identifier that is
kept. -/
theorem Kept.not_mem {id : CStr} (h : Kept id) {c : Char} (hs : isSpace c = false)
    (hd : c.isDigit = false) (hm : c ≠ '-') (hp : c ≠ '+') : c ∉ id := by
  obtain ⟨a, b, rfl, ha, -, hb⟩ := h.shape
  rw [List.mem_append, not_or]
  refine ⟨fun hc => ?_, fun hc => ?_⟩
  · rw [ha c hc] at hs
    exact absurd hs (by decide)
  · rcases hb c hc with hc | hc | hc
    · rw [hc] at hd
      exact absurd hd (by decide)
    · exact hm hc
    · exact hp hc

/-- **The counter** behind a record: a kept identifier raises it to its
number, and any other one by one, as far as `int` reaches. -/
def countId (m : ℤ) (id : CStr) : ℤ :=
  if Kept id then max m (extractNumericId id) else min (m + 1) intMax

/-- The identifier a record is loaded under when the counter stands at
`m`. -/
def loadedAs (m : ℤ) (id : CStr) : CStr :=
  if Kept id then id else printDecimal (wrap32 (m + 1))

/-- **The entries records become**, from a counter on. -/
def reload : ℤ → List ContainerInfo → List ContainerInfo
  | _, [] => []
  | m, info :: rest =>
    { info with id := loadedAs m info.id, savedConfig := none } :: reload (countId m info.id) rest

/-- The identifiers records are loaded under, from a counter on. -/
def reloadIds : ℤ → List CStr → List CStr
  | _, [] => []
  | m, id :: ids => loadedAs m id :: reloadIds (countId m id) ids

theorem map_id_reload (m : ℤ) (l : List ContainerInfo) :
    (reload m l).map ContainerInfo.id = reloadIds m (l.map ContainerInfo.id) := by
  induction l generalizing m with
  | nil => rfl
  | cons info rest ih => exact congrArg (loadedAs m info.id :: ·) (ih _)

/-- Every identifier that is loaded was kept, or is a numeral. -/
theorem kept_or_numeral_of_mem_reloadIds {m : ℤ} {ids : List CStr} {id : CStr}
    (h : id ∈ reloadIds m ids) : Kept id ∨ ∃ n, id = printDecimal n := by
  induction ids generalizing m with
  | nil => cases h
  | cons first rest ih =>
    rcases List.mem_cons.mp h with rfl | h
    · unfold loadedAs
      split
      · next hkept => exact Or.inl hkept
      · exact Or.inr ⟨_, rfl⟩
    · exact ih h

/-! ## The counter -/

/-- An identifier denotes an `int`, or nothing. -/
theorem extractNumericId_le (id : CStr) : extractNumericId id ≤ intMax := by
  unfold extractNumericId intMax
  dsimp only
  split
  · have := (isInt_wrap32 (strtol id).1).2
    omega
  · decide

/-- The number after the counter is read back, unless it has passed the end
of `int`; then what is written is no number. -/
theorem extractNumericId_next {m : ℤ} (hm : 0 ≤ m) (hmax : m ≤ intMax) :
    extractNumericId (printDecimal (wrap32 (m + 1))) = if m = intMax then -1 else m + 1 := by
  unfold intMax at hmax
  split
  · next h =>
    subst h
    decide
  · next h =>
    have hint : IsInt (m + 1) := ⟨by omega, by unfold intMax at h; omega⟩
    rw [wrap32_of_isInt hint, extractNumericId_printDecimal (by omega) hint]

/-- The number of the identifier a record is loaded under leads from the
counter in front of it to the one behind it. -/
theorem max_extractNumericId_loadedAs {m : ℤ} (hm : 0 ≤ m) (hmax : m ≤ intMax) (id : CStr) :
    max m (extractNumericId (loadedAs m id)) = countId m id := by
  unfold loadedAs countId
  split
  · rfl
  · rw [extractNumericId_next hm hmax]
    split <;> omega

theorem le_countId {m : ℤ} (hmax : m ≤ intMax) (id : CStr) : m ≤ countId m id := by
  unfold countId
  split <;> omega

theorem countId_le {m : ℤ} (hmax : m ≤ intMax) (id : CStr) : countId m id ≤ intMax := by
  have := extractNumericId_le id
  unfold countId
  split <;> omega

theorem maxNumber_append (ids : List CStr) (id : CStr) :
    ContainerManager.maxNumber (ids ++ [id])
      = max (ContainerManager.maxNumber ids) (extractNumericId id) := by
  unfold ContainerManager.maxNumber
  rw [List.foldl_append]
  rfl

theorem maxNumber_bounds (ids : List CStr) :
    0 ≤ ContainerManager.maxNumber ids ∧ ContainerManager.maxNumber ids ≤ intMax := by
  induction ids using List.reverseRecOn with
  | nil => decide
  | append_singleton ids id ih =>
    have := extractNumericId_le id
    rw [maxNumber_append]
    omega

/-! ## Reading back -/

/-- **Restoring records is reloading those that survive**, with the counter
at the largest number there is. -/
theorem foldl_restore (env : LoadEnv) (l acc : List ContainerInfo) :
    l.foldl (restore env) acc
      = acc ++ reload (ContainerManager.maxNumber (acc.map ContainerInfo.id))
          (l.filter (fun info => survives env info)) := by
  induction l generalizing acc with
  | nil => rw [List.foldl_nil, List.filter_nil, reload, List.append_nil]
  | cons info rest ih =>
    obtain ⟨hm, hmax⟩ := maxNumber_bounds (acc.map ContainerInfo.id)
    rw [List.foldl_cons, ih]
    by_cases hsurv : survives env info = true
    · have hid : reloadId (acc.map ContainerInfo.id) info.id
          = loadedAs (ContainerManager.maxNumber (acc.map ContainerInfo.id)) info.id := by
        unfold reloadId loadedAs
        by_cases h : Kept info.id
        · rw [if_neg (not_lt.mpr h), if_pos h]
        · rw [if_pos (not_le.mp h), if_neg h]
          rfl
      have hrestore : restore env acc info
          = acc ++ [{ info with
              id := loadedAs (ContainerManager.maxNumber (acc.map ContainerInfo.id)) info.id
              savedConfig := none }] := by
        rw [restore, if_pos hsurv, reloadInfo, hid]
      rw [hrestore, List.filter_cons_of_pos hsurv, reload, List.map_append, List.map_singleton,
        maxNumber_append, max_extractNumericId_loadedAs hm hmax, List.append_assoc,
        List.singleton_append]
    · rw [restore, if_neg hsurv, List.filter_cons_of_neg hsurv]

/-- Reading the whole of a written file into an empty registry. -/
theorem entries_loadState_saveState (env : LoadEnv) {saved cm : ContainerManager}
    (hsaved : ∀ info ∈ saved.entries, Storable info) (hcm : cm.WF) (hempty : cm.entries = []) :
    (loadState env (saveState saved) cm).1.entries
      = reload 0 (saved.entries.filter (fun info => survives env info)) := by
  rw [(loadState_saveState env hsaved hcm).2.1, foldl_restore, hempty]
  rfl

/-- Where every identifier is kept, only the configurations go. -/
theorem reload_of_kept (m : ℤ) {l : List ContainerInfo} (hl : ∀ info ∈ l, Kept info.id) :
    reload m l = l.map (fun info => { info with savedConfig := none }) := by
  induction l generalizing m with
  | nil => rfl
  | cons info rest ih =>
    rw [reload, loadedAs, if_pos (hl info List.mem_cons_self),
      ih _ (fun i hi => hl i (List.mem_cons_of_mem _ hi)), List.map_cons]

/-- A container whose identifier is kept is reloaded under it. -/
theorem mem_reload {l : List ContainerInfo} {info : ContainerInfo} (h : info ∈ l)
    (hkept : Kept info.id) (m : ℤ) : { info with savedConfig := none } ∈ reload m l := by
  induction l generalizing m with
  | nil => exact absurd h List.not_mem_nil
  | cons info' rest ih =>
    rw [reload]
    rcases List.mem_cons.mp h with rfl | h
    · rw [loadedAs, if_pos hkept]
      exact List.mem_cons_self
    · exact List.mem_cons_of_mem _ (ih h _)

/-- A numeral of a positive `int` is a plain identifier. -/
theorem plainId_printDecimal {n : ℤ} (hn : IsLong n) : PlainId (printDecimal n) where
  ne_nil := printDecimal_ne_nil n
  length_le := (length_printDecimal_le hn).trans (by decide)
  no_quote := not_mem_printDecimal (by decide) (by decide) n
  no_brace := not_mem_printDecimal (by decide) (by decide) n
  no_newline := not_mem_printDecimal (by decide) (by decide) n
  no_nul := not_mem_printDecimal (by decide) (by decide) n

/-- **The state file round trip, whole or torn.** For identifiers that are
numerals of positive `int`s, reading any prefix of a written file into an
empty registry gives the entries whose closing brace is in the prefix,
without those that have stopped, been destroyed, or are running without a
live process, each with the identifier, pid, state and times it was written
with. -/
theorem load_save_roundtrip (env : LoadEnv) {saved cm : ContainerManager} (hcm : cm.WF)
    (hempty : cm.entries = [])
    (hids : ∀ info ∈ saved.entries, ∃ n : ℤ, 1 ≤ n ∧ n ≤ intMax ∧ info.id = printDecimal n)
    (hfields : ∀ info ∈ saved.entries, IsInt info.pid ∧ info.state.Named ∧
      IsLong info.createdAt ∧ IsLong info.startedAt ∧ IsLong info.stoppedAt)
    {p : CStr} (hp : p <+: saveState saved) :
    (loadState env p cm).1.entries
      = ((saved.entries.take (p.count '}')).filter (fun info => survives env info)).map
          (fun info => { info with savedConfig := none }) := by
  have hint : ∀ {n : ℤ}, 1 ≤ n → n ≤ intMax → IsInt n := by
    intro n h₁ h₂
    unfold intMax at h₂
    exact ⟨by omega, by omega⟩
  have hstorable : ∀ info ∈ saved.entries, Storable info := by
    intro info hmem
    obtain ⟨n, h₁, h₂, hid⟩ := hids info hmem
    obtain ⟨hpid, ⟨hlo, hhi⟩, hcreated, hstarted, hstopped⟩ := hfields info hmem
    refine ⟨?_, hpid, ⟨by omega, by omega⟩, hcreated, hstarted, hstopped⟩
    rw [hid]
    exact plainId_printDecimal (hint h₁ h₂).isLong
  rw [(loadState_torn env hstorable hcm hp).2.1, foldl_restore, hempty, List.nil_append]
  refine reload_of_kept _ (fun info hmem => ?_)
  obtain ⟨n, h₁, h₂, hid⟩ := hids info (List.mem_of_mem_take (List.mem_of_mem_filter hmem))
  rw [hid, Kept, extractNumericId_printDecimal (by omega) (hint h₁ h₂)]
  omega

theorem storable_createdInfo {containerId : CStr} {createdAt : ℤ} {config : ContainerConfig}
    (hid : PlainId containerId) (ht : IsLong createdAt) :
    Storable (createdInfo containerId createdAt config) := by
  have hint : IsInt 0 := by decide
  have hlong : IsLong 0 := by decide
  exact ⟨hid, hint, hint, ht, hlong, hlong⟩

theorem storable_stoppedInfo {now : ℤ} (hnow : IsLong now) {info : ContainerInfo}
    (h : Storable info) : Storable (stoppedInfo now info) where
  id := h.id
  pid := h.pid
  state := (by decide : IsInt ContainerState.stopped.toInt)
  createdAt := h.createdAt
  startedAt := h.startedAt
  stoppedAt := hnow

/-- The containers `1` and `2`, both created. -/
def oneAndTwo : List ContainerInfo :=
  [createdInfo ['1'] 100 (.plain none []), createdInfo ['2'] 100 (.plain none [])]

/-- A file of two containers that is cut off behind the first closing
brace. -/
def tornFile : CStr :=
  header ++ (recordBody (createdInfo ['1'] 100 (.plain none [])) ++ ['}'])

/-- One container is read from the torn file. -/
theorem load_save_roundtrip_torn :
    tornFile <+: saveState (.ofList oneAndTwo) ∧
      (loadState (InitEnv.willing 200).load tornFile (World.empty 1).cm).1.ids = [['1']] := by
  have hcut : tornFile <+: saveState (.ofList oneAndTwo) := by
    rw [saveState, ContainerManager.entries_ofList, tornFile, List.prefix_append_right_inj,
      oneAndTwo, recordsText, List.append_assoc, List.prefix_append_right_inj]
    exact List.cons_prefix_cons.mpr ⟨rfl, List.nil_prefix⟩
  have hids : ∀ info ∈ oneAndTwo, ∃ n : ℤ, 1 ≤ n ∧ n ≤ intMax ∧ info.id = printDecimal n := by
    rw [oneAndTwo, List.forall_mem_cons, List.forall_mem_singleton]
    exact ⟨⟨1, by decide, by decide, by decide⟩, ⟨2, by decide, by decide, by decide⟩⟩
  have hfields : ∀ info ∈ oneAndTwo, IsInt info.pid ∧ info.state.Named ∧
      IsLong info.createdAt ∧ IsLong info.startedAt ∧ IsLong info.stoppedAt := by
    unfold ContainerState.Named
    decide
  have hbody : '}' ∉ recordBody (createdInfo ['1'] 100 (.plain none [])) :=
    no_brace_recordBody (storable_createdInfo (plainId_printDecimal (n := 1) (by decide))
      (by decide))
  have hcount : tornFile.count '}' = 1 := by
    rw [tornFile, List.count_append, List.count_append, List.count_eq_zero.mpr hbody]
    decide
  have hwf : (World.empty 1).cm.WF := ContainerManager.fresh_wf _ (by decide)
  refine ⟨hcut, ?_⟩
  rw [ContainerManager.ids, load_save_roundtrip _ hwf rfl
    (by rwa [ContainerManager.entries_ofList]) (by rwa [ContainerManager.entries_ofList]) hcut,
    hcount, ContainerManager.entries_ofList]
  decide

/-! ## Distinct identifiers -/

/-- **No number is given out twice.** Where an identifier that is no number
is met, the number after the counter is not the identifier of a later
record; and once the counter has reached the end of `int`, at most one such
identifier comes. -/
def NoClash : ℤ → List CStr → Prop
  | _, [] => True
  | m, id :: ids =>
    (¬ Kept id →
      if m = intMax then ∀ id' ∈ ids, Kept id' else printDecimal (m + 1) ∉ ids) ∧
      NoClash (countId m id) ids

instance NoClash.decidable (m : ℤ) (ids : List CStr) : Decidable (NoClash m ids) := by
  induction ids generalizing m with
  | nil => exact instDecidableTrue
  | cons id ids ih =>
    have := ih (countId m id)
    unfold NoClash
    infer_instance

/-- **A number not above the counter is not given out any more**: an
identifier that denotes one is loaded only from a record that has it. -/
theorem mem_reloadIds_iff {m : ℤ} (hm : 0 ≤ m) (hmax : m ≤ intMax) {y : CStr} (hy : Kept y)
    (hle : extractNumericId y ≤ m) (ids : List CStr) : y ∈ reloadIds m ids ↔ y ∈ ids := by
  induction ids generalizing m with
  | nil => rfl
  | cons id ids ih =>
    have hle' := le_countId hmax id
    rw [reloadIds, List.mem_cons, List.mem_cons,
      ih (hm.trans hle') (countId_le hmax id) (hle.trans hle')]
    refine or_congr_left ?_
    unfold loadedAs
    split
    · rfl
    · next hid =>
      constructor
      · -- what is given out is above the counter, or no number
        rintro rfl
        rw [Kept, extractNumericId_next hm hmax] at hy
        rw [extractNumericId_next hm hmax] at hle
        split at hle <;> split at hy <;> omega
      · rintro rfl
        exact absurd hy hid

/-- Behind the end of `int` every identifier that is no number is loaded
under one and the same text. -/
theorem mem_reloadIds_intMax (ids : List CStr) :
    printDecimal (wrap32 (intMax + 1)) ∈ reloadIds intMax ids ↔ ∃ id ∈ ids, ¬ Kept id := by
  induction ids with
  | nil => simp [reloadIds]
  | cons id ids ih =>
    have hcount : countId intMax id = intMax :=
      le_antisymm (countId_le le_rfl id) (le_countId le_rfl id)
    rw [reloadIds, List.mem_cons, hcount, ih, List.exists_mem_cons_iff]
    refine or_congr_left ?_
    unfold loadedAs
    split
    · next hid =>
      refine ⟨?_, fun h => absurd hid h⟩
      rintro rfl
      exact absurd hid (by decide)
    · next hid => exact ⟨fun _ => hid, fun _ => rfl⟩

/-- **When the loaded identifiers are distinct.** -/
theorem reloadIds_nodup_iff {m : ℤ} (hm : 0 ≤ m) (hmax : m ≤ intMax) {ids : List CStr}
    (hids : ids.Nodup) : (reloadIds m ids).Nodup ↔ NoClash m ids := by
  induction ids generalizing m with
  | nil => exact iff_of_true List.nodup_nil trivial
  | cons id ids ih =>
    obtain ⟨hid, hids⟩ := List.nodup_cons.mp hids
    have hle := le_countId hmax id
    rw [reloadIds, List.nodup_cons, NoClash, ih (hm.trans hle) (countId_le hmax id) hids]
    refine and_congr_left (fun _ => ?_)
    by_cases hkept : Kept id
    · -- a kept identifier is below the counter, and no later record has it
      have hcount : extractNumericId id ≤ countId m id := by
        rw [countId, if_pos hkept]
        exact le_max_right _ _
      rw [loadedAs, if_pos hkept,
        mem_reloadIds_iff (hm.trans hle) (countId_le hmax id) hkept hcount]
      exact iff_of_true hid (fun h => absurd hkept h)
    · rw [loadedAs, if_neg hkept]
      refine Iff.trans ?_ (forall_prop_of_true hkept).symm
      by_cases hend : m = intMax
      · -- the counter stays at the end, where all of them get the same text
        subst hend
        have hcount : countId intMax id = intMax :=
          le_antisymm (countId_le le_rfl id) (le_countId le_rfl id)
        rw [hcount, mem_reloadIds_intMax, if_pos rfl]
        simp only [not_exists, not_and, not_not]
      · -- the number given out is the new counter, so only a later record can have it
        have hnum := extractNumericId_next hm hmax
        rw [if_neg hend] at hnum
        have hint : IsInt (m + 1) := by
          unfold intMax at hmax hend
          exact ⟨by omega, by omega⟩
        have hcount : countId m id = m + 1 := by
          rw [countId, if_neg hkept]
          omega
        rw [hcount, if_neg hend, mem_reloadIds_iff (by omega) (by omega)
          (by rw [Kept, hnum]; omega) (le_of_eq hnum), wrap32_of_isInt hint]

/-- **Identifiers stay distinct across a restart exactly if no number is
given out twice** among the identifiers of the containers that survive. -/
theorem restart_ids_nodup_iff {env : InitEnv} {maxContainers : ℤ} {saved cm : ContainerManager}
    {file : Option CStr} (hsaved : ∀ info ∈ saved.entries, Storable info)
    (hids : saved.ids.Nodup)
    (hinit : containerManagerInit env maxContainers (some (saveState saved)) = some (cm, file)) :
    cm.ids.Nodup ↔ NoClash 0
      ((saved.entries.filter (fun info => survives env.load info)).map ContainerInfo.id) := by
  obtain ⟨fresh, hwf, hempty, -, rfl, -⟩ := containerManagerInit_some hinit
  rw [ContainerManager.ids, entries_loadState_saveState env.load hsaved hwf hempty,
    map_id_reload]
  refine reloadIds_nodup_iff le_rfl (by decide) ?_
  exact hids.sublist (List.Sublist.map _ List.filter_sublist)

/-- The containers `foo` and `1`, both created: the first one is given the
number of the second. -/
def fooAndOne : List ContainerInfo :=
  [createdInfo "foo".toList 100 (.plain none []), createdInfo ['1'] 100 (.plain none [])]

theorem storable_fooAndOne : ∀ info ∈ (ContainerManager.ofList fooAndOne).entries,
    Storable info := by
  rw [ContainerManager.entries_ofList]
  intro info hmem
  rcases List.mem_cons.mp hmem with rfl | hmem
  · exact storable_createdInfo ⟨by decide, by decide, by decide, by decide, by decide, by decide⟩
      (by decide)
  · rw [List.mem_singleton.mp hmem]
    exact storable_createdInfo ⟨by decide, by decide, by decide, by decide, by decide, by decide⟩
      (by decide)

/-- **A restart can give two containers one identifier.** -/
theorem restart_ids_clash :
    (∀ info ∈ (ContainerManager.ofList fooAndOne).entries, Storable info) ∧
      (ContainerManager.ofList fooAndOne).ids.Nodup ∧
      ∃ cm file, containerManagerInit (.willing 200) 0
          (some (saveState (.ofList fooAndOne))) = some (cm, file) ∧
        cm.ids = [['1'], ['1']] ∧ ¬ cm.ids.Nodup := by
  have hinit : containerManagerInit (.willing 200) 0 (some (saveState (.ofList fooAndOne)))
      = some (_, _) := rfl
  have hids : ∀ cm : ContainerManager, cm.WF → cm.entries = [] →
      (loadState (InitEnv.willing 200).load (saveState (.ofList fooAndOne)) cm).1.ids
        = [['1'], ['1']] := by
    intro cm hcm hempty
    rw [ContainerManager.ids, entries_loadState_saveState _ storable_fooAndOne hcm hempty,
      ContainerManager.entries_ofList]
    decide
  obtain ⟨fresh, hwf, hempty, -, hcm, -⟩ := containerManagerInit_some hinit
  refine ⟨storable_fooAndOne, ?_, _, _, hinit, ?_⟩
  · rw [ContainerManager.ids, ContainerManager.entries_ofList]
    decide
  · rw [hcm, hids fresh hwf hempty]
    exact ⟨rfl, by decide⟩

/-- The same containers in the other order keep their identifiers apart. -/
theorem restart_ids_nodup_iff_reversed :
    ∃ cm file, containerManagerInit (.willing 200) 0
        (some (saveState (.ofList fooAndOne.reverse))) = some (cm, file) ∧ cm.ids.Nodup := by
  have hinit : containerManagerInit (.willing 200) 0
      (some (saveState (.ofList fooAndOne.reverse))) = some (_, _) := rfl
  refine ⟨_, _, hinit, (restart_ids_nodup_iff ?_ ?_ hinit).mpr ?_⟩
  · intro info hmem
    rw [ContainerManager.entries_ofList, List.mem_reverse] at hmem
    exact storable_fooAndOne info (by rwa [ContainerManager.entries_ofList])
  · rw [ContainerManager.ids, ContainerManager.entries_ofList]
    decide
  · rw [ContainerManager.entries_ofList]
    decide
