import MiniContainer.Session

/-!
# Generated identifiers

A container that is created without an identifier gets the numeral of the
number after the largest one among the identifiers there are. `strtol` reads
them and its result is narrowed to `int`, so an identifier may count with a
number other than its own, or with none; but the numeral of a positive `int`
counts with that `int`, and a generated one is above all that count.

Except at the end of the range, where the number after the largest is the
smallest. Its numeral is negative and does not count, and a container may have
it already. `generatesFresh_iff` says that a generated identifier is new in all
other cases.
-/

open CText

namespace ContainerManager

variable {ids : List CStr}

/-- The largest number is the least bound from zero on. -/
theorem maxNumber_le_iff {bound : ℤ} (hbound : 0 ≤ bound) :
    maxNumber ids ≤ bound ↔ ∀ id ∈ ids, extractNumericId id ≤ bound := by
  have hfold : ∀ m : ℤ, ids.foldl (fun maxId id => max maxId (extractNumericId id)) m ≤ bound ↔
      m ≤ bound ∧ ∀ id ∈ ids, extractNumericId id ≤ bound := by
    induction ids with
    | nil => simp
    | cons id ids ih =>
      intro m
      rw [List.foldl_cons, ih, max_le_iff, List.forall_mem_cons, and_assoc]
  exact (hfold 0).trans (and_iff_right hbound)

theorem maxNumber_nonneg (ids : List CStr) : 0 ≤ maxNumber ids := by
  by_contra hneg
  have hfold : ∀ m : ℤ, m ≤ ids.foldl (fun maxId id => max maxId (extractNumericId id)) m := by
    clear hneg
    induction ids with
    | nil => exact fun m => le_rfl
    | cons id ids ih => exact fun m => (le_max_left _ _).trans (ih _)
  exact hneg (hfold 0)

/-- An identifier counts with an `int`. -/
theorem isInt_extractNumericId (id : CStr) : IsInt (extractNumericId id) := by
  unfold extractNumericId
  dsimp only
  split
  · exact isInt_wrap32 _
  · decide

/-- No identifier counts with more than the largest number. -/
theorem extractNumericId_le_maxNumber {id : CStr} (h : id ∈ ids) :
    extractNumericId id ≤ maxNumber ids :=
  (maxNumber_le_iff (maxNumber_nonneg ids)).mp le_rfl id h

/-- The largest number is the largest `int` exactly if an identifier counts
with that. -/
theorem maxNumber_eq_top_iff :
    maxNumber ids = 2 ^ 31 - 1 ↔ ∃ id ∈ ids, extractNumericId id = 2 ^ 31 - 1 := by
  have hint : ∀ id, extractNumericId id ≤ 2 ^ 31 - 1 := fun id =>
    Int.le_sub_one_of_lt (isInt_extractNumericId id).2
  have htop : maxNumber ids ≤ 2 ^ 31 - 1 := (maxNumber_le_iff (by decide)).mpr (fun id _ => hint id)
  have hbelow : maxNumber ids ≤ 2 ^ 31 - 2 ↔ ∀ id ∈ ids, extractNumericId id ≤ 2 ^ 31 - 2 :=
    maxNumber_le_iff (by decide)
  constructor
  · intro h
    by_contra hnone
    push Not at hnone
    have hle : maxNumber ids ≤ 2 ^ 31 - 2 := hbelow.mpr (fun id hid => by
      have := hint id
      have := hnone id hid
      omega)
    omega
  · rintro ⟨id, hid, h⟩
    have := extractNumericId_le_maxNumber hid
    omega

/-- **When the number after the largest one has a new numeral.** -/
theorem nextNumber_fresh_iff (ids : List CStr) :
    printDecimal (nextNumber ids) ∉ ids ↔
      ¬ ((∃ id ∈ ids, extractNumericId id = 2 ^ 31 - 1) ∧ printDecimal (-2 ^ 31) ∈ ids) := by
  rw [← maxNumber_eq_top_iff]
  by_cases htop : maxNumber ids = 2 ^ 31 - 1
  · have hnext : nextNumber ids = -2 ^ 31 := by
      unfold nextNumber
      rw [htop]
      decide
    rw [hnext, and_iff_right htop]
  · refine iff_of_true (fun hmem => ?_) (fun h => htop h.1)
    -- the numeral would count with a number above the largest
    have hlt : maxNumber ids < 2 ^ 31 - 1 := by
      have hle : maxNumber ids ≤ 2 ^ 31 - 1 := (maxNumber_le_iff (by decide)).mpr (fun id _ =>
        Int.le_sub_one_of_lt (isInt_extractNumericId id).2)
      omega
    have hpos := maxNumber_nonneg ids
    have hnext : nextNumber ids = maxNumber ids + 1 := wrap32_of_isInt ⟨by omega, by omega⟩
    have hcounts := extractNumericId_le_maxNumber hmem
    rw [hnext, extractNumericId_printDecimal (by omega) ⟨by omega, by omega⟩] at hcounts
    omega

end ContainerManager

/-! ## Creating and running without an identifier -/

/-- **The next generated identifier is new**: no container has it, and neither
`create` nor `run` is refused for it. -/
structure World.GeneratesFresh (w : World) : Prop where
  fresh : w.cm.generateContainerId ∉ w.cm.ids
  creates : ∀ (env : Env) (config : ContainerConfig) (w' : World), config.id = none →
    containerManagerCreate env config w ≠ some (w', .error .alreadyExists)
  runs : ∀ (env : Env) (config : ContainerConfig) (w' : World), config.id = none →
    containerManagerRun env config w ≠ some (w', .error .alreadyExists)

section

variable {env : Env} {config : ContainerConfig} {w w' : World}

/-- `create` says that an identifier is taken only where it is. -/
theorem mem_ids_of_alreadyExists (hw : w.cm.WF)
    (h : containerManagerCreate env config w = some (w', .error .alreadyExists)) :
    config.id.getD w.cm.generateContainerId ∈ w.cm.ids := by
  by_contra hnew
  have hnone := (ContainerManager.findContainer_eq_none_iff hw).mpr hnew
  unfold containerManagerCreate at h
  rw [hnone] at h
  split at h
  · cases h
  · split at h
    · next hsome => cases hsome
    · split at h
      · cases h
      · split at h
        · have hresult := congrArg Prod.snd (Option.some.inj h)
          unfold addCreated at hresult
          dsimp only at hresult
          split at hresult
          · cases hresult
          · split at hresult
            · cases hresult
            · split at hresult <;> cases hresult
        · cases h
        · cases h

/-- What `run` says of a container it takes back is not that. -/
theorem launchCreated_ne_alreadyExists {containerId : CStr} :
    launchCreated env containerId w ≠ some (w', .error .alreadyExists) := by
  have hundo : ∀ {e : Refusal} {w : World}, e ≠ .alreadyExists →
      undoCreate env containerId e w ≠ some (w', .error .alreadyExists) := by
    intro e w he h
    obtain ⟨r, -, hr⟩ := Option.map_eq_some_iff.mp h
    cases hr
    exact he rfl
  unfold launchCreated
  split
  · exact hundo (by decide)
  · split
    · exact fun h => nomatch h
    · split
      · exact hundo (by decide)
      · split
        · exact hundo (by decide)
        · split
          · exact fun h => nomatch h
          · split
            · exact hundo (by decide)
            · exact fun h => nomatch h

/-- `run` says so only where the identifier it has generated is taken. -/
theorem mem_ids_of_run_alreadyExists (hw : w.cm.WF) (hid : config.id = none)
    (h : containerManagerRun env config w = some (w', .error .alreadyExists)) :
    w.cm.generateContainerId ∈ w.cm.ids := by
  unfold containerManagerRun at h
  cases hrun : runId env w.cm config with
  | none =>
    rw [hrun] at h
    cases h
  | some containerId =>
    rw [hrun] at h
    have hgenerated : containerId = w.cm.generateContainerId := by
      unfold runId at hrun
      rw [hid] at hrun
      dsimp only at hrun
      split at hrun
      · exact (Option.some.inj hrun).symm
      · cases hrun
    dsimp only at h
    split at h
    · cases h
    · next w₁ e hcreate =>
      cases h
      rw [← hgenerated]
      exact mem_ids_of_alreadyExists hw hcreate
    · exact absurd h launchCreated_ne_alreadyExists

/-- **When a generated identifier is new.** For every registry: unless an
identifier counts with the largest `int`, and another one is the numeral of the
smallest. -/
theorem generatesFresh_iff (hw : w.cm.WF) :
    w.GeneratesFresh ↔
      ¬ ((∃ id ∈ w.cm.ids, extractNumericId id = 2 ^ 31 - 1) ∧
        "-2147483648".toList ∈ w.cm.ids) := by
  have hiff := ContainerManager.nextNumber_fresh_iff w.cm.ids
  have hlowest : printDecimal (-2 ^ 31) = "-2147483648".toList := by decide
  rw [← ContainerManager.generateContainerId_eq hw, hlowest] at hiff
  rw [← hiff]
  refine ⟨fun h => h.fresh, fun h => ⟨h, fun env config w' hid hcreate => ?_,
    fun env config w' hid hrun => h (mem_ids_of_run_alreadyExists hw hid hrun)⟩⟩
  have hmem := mem_ids_of_alreadyExists hw hcreate
  rw [hid] at hmem
  exact h hmem

end

theorem generatesFresh_iff_ranOne : World.ranOne.GeneratesFresh :=
  (generatesFresh_iff reachable_ranOne.sound.wf).mpr (by decide)

/-- A process with a container of the largest `int`, and one of the smallest. -/
def World.extremes : World :=
  ((World.empty 1).after (.willing 42 100,
    .create (.plain (some "2147483647".toList) ["sh".toList]))).after (.willing 43 101,
    .create (.plain (some "-2147483648".toList) ["sh".toList]))

/-- **The number after the largest `int` is the smallest**, and its numeral is
taken. -/
theorem extremes_refuse :
    World.extremes.Reachable ∧ World.extremes.cm.ids.Nodup ∧
      World.extremes.cm.generateContainerId ∈ World.extremes.cm.ids ∧
      (∃ w', containerManagerCreate (.willing 44 102) (.plain none ["sh".toList])
        World.extremes = some (w', .error .alreadyExists)) ∧
      (∃ w', containerManagerRun (.willing 44 102) (.plain none ["sh".toList])
        World.extremes = some (w', .error .alreadyExists)) ∧
      ¬ World.extremes.GeneratesFresh :=
  ⟨(started_empty.reachable.after rfl).after rfl, by decide, by decide, ⟨_, rfl⟩, ⟨_, rfl⟩,
    fun h => absurd (by decide) h.fresh⟩
