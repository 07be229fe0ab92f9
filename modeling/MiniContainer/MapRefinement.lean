import MiniContainer.Effect
import MiniContainer.Run

/-!
# The registry is a map

What the container manager is for: to keep containers under their
identifiers, in the order they were created. As an abstract object that is
an insertion-ordered map from identifiers to containers, and the five
operations are steps of the map (`MapStep`): a container is inserted at the
end, the one a key denotes is changed in its lifecycle fields, or an
identifier is erased.

`Effect.mapStep` is the simulation. An operation on the array, through its
doublings, shifts and linear searches, is a step of the map, and since
every step leads to a map again, identifiers stay distinct; the theorem
about runs, `registry_refines_map`, follows by induction.

A key is an identifier of the map or, where it is none, possibly the pid of
a container in it. Keys of the second kind are part of the statement:
`destroy` stops the container such a key denotes and does not erase it.
-/

open CText GrowArray StateFile

/-- The abstract registry. -/
abbrev ContainerMap := OrderedMap ContainerInfo.id

/-- The identifier of the container a key denotes. -/
def ContainerMap.denoted (m : ContainerMap) (key : CStr) : Option CStr :=
  (ContainerManager.resolve m.entries key).bind
    (fun i => m.entries[i]?.map ContainerInfo.id)

/-- **A change of the lifecycle fields**: everything but `pid`, `state`,
`started_at` and `stopped_at` stays. -/
structure LifecycleChange (f : ContainerInfo → ContainerInfo) : Prop where
  id : ∀ info, (f info).id = info.id
  createdAt : ∀ info, (f info).createdAt = info.createdAt
  savedConfig : ∀ info, (f info).savedConfig = info.savedConfig

/-- **What a call does to the map**, with what it returns. -/
inductive MapStep (m : ContainerMap) : Call → Result → ContainerMap → Prop
  /-- Nothing; this is never what `destroy` of an identifier of the map
  does. -/
  | refused {call : Call} {e : Refusal} (h : ∀ key, call = .destroy key → key ∉ m.keys) :
      MapStep m call (.error e) m
  /-- `create` and `run` insert a container at the end, under the identifier
  that is asked for, if one is. -/
  | inserted {call : Call} {config : ContainerConfig} {info : ContainerInfo}
      (hcall : call = .create config ∨ call = .run config)
      (hid : ∀ containerId, config.id = some containerId → info.id = containerId)
      (h : info.id ∉ m.keys) :
      MapStep m call (.ok ()) (m.insert info h)
  /-- `start` and `stop` change lifecycle fields of the container their key
  denotes. -/
  | modified {call : Call} {key containerId : CStr} {f : ContainerInfo → ContainerInfo}
      (hcall : call = .start key ∨ call = .stop key)
      (hkey : m.denoted key = some containerId) (hf : LifecycleChange f) :
      MapStep m call (.ok ()) (m.modify containerId f hf.id)
  /-- `destroy` of an identifier erases it. -/
  | erased {key : CStr} (h : key ∈ m.keys) : MapStep m (.destroy key) (.ok ()) (m.erase key)
  /-- `destroy` by pid changes lifecycle fields at most. -/
  | stoppedByPid {key containerId : CStr} {f : ContainerInfo → ContainerInfo}
      (h : key ∉ m.keys) (hkey : m.denoted key = some containerId) (hf : LifecycleChange f) :
      MapStep m (.destroy key) (.ok ()) (m.modify containerId f hf.id)

theorem lifecycleChange_startedInfo (pid now : ℤ) : LifecycleChange (startedInfo pid now) :=
  ⟨fun _ => rfl, fun _ => rfl, fun _ => rfl⟩

theorem lifecycleChange_stoppedInfo (now : ℤ) : LifecycleChange (stoppedInfo now) :=
  ⟨fun _ => rfl, fun _ => rfl, fun _ => rfl⟩

theorem lifecycleChange_id : LifecycleChange (fun info => info) :=
  ⟨fun _ => rfl, fun _ => rfl, fun _ => rfl⟩

namespace ContainerMap

/-- Changing no entry. -/
theorem modify_id (m : ContainerMap) (containerId : CStr) :
    m.modify containerId (fun info => info) lifecycleChange_id.id = m := by
  refine OrderedMap.ext ?_
  show m.entries.map _ = m.entries
  simp

/-- An identifier of the map denotes itself. -/
theorem denoted_of_mem {m : ContainerMap} {key : CStr} (h : key ∈ m.keys) :
    m.denoted key = some key := by
  obtain ⟨i, hi, hlt, hid⟩ := ContainerManager.resolve_of_mem h
  rw [denoted, hi, Option.bind_some, List.getElem?_eq_getElem hlt, Option.map_some, hid]

/-- What is at the index a key resolves to is what the key denotes. -/
theorem denoted_of_resolve {m : ContainerMap} {key : CStr} {i : ℕ} {info : ContainerInfo}
    (hi : ContainerManager.resolve m.entries key = some i) (hinfo : m.entries[i]? = some info) :
    m.denoted key = some info.id := by
  rw [denoted, hi, Option.bind_some, hinfo, Option.map_some]

/-- **Modifying at an index is modifying at the identifier there.** -/
theorem entries_modify_at (m : ContainerMap) {i : ℕ} {info : ContainerInfo}
    (hinfo : m.entries[i]? = some info) {f : ContainerInfo → ContainerInfo}
    (hf : LifecycleChange f) : (m.modify info.id f hf.id).entries = m.entries.modify i f := by
  obtain ⟨hlt, hget⟩ := List.getElem?_eq_some_iff.mp hinfo
  exact (OrderedMap.modify_eq_map m.nodup hlt (congrArg ContainerInfo.id hget) f).symm

/-- Removing the first entry with an identifier is erasing it. -/
theorem entries_erase (m : ContainerMap) (key : CStr) :
    (m.erase key).entries = m.entries.eraseP (fun c => c.id = key) :=
  (OrderedMap.eraseP_eq_filter m.nodup key).symm

end ContainerMap

/-- A list that is the entries of the map a step leads to. -/
theorem exists_mapStep {m m' : ContainerMap} {call : Call} {r : Result} {l' : List ContainerInfo}
    (hl' : m'.entries = l') (h : MapStep m call r m') :
    ∃ hn : (l'.map ContainerInfo.id).Nodup, MapStep m call r ⟨l', hn⟩ := by
  subst hl'
  exact ⟨m'.nodup, h⟩

/-- What `destroy` leaves of a map in which it has stopped a container. -/
theorem mapStep_destroy {m : ContainerMap} {key containerId : CStr}
    {f : ContainerInfo → ContainerInfo} (hkey : m.denoted key = some containerId)
    (hf : LifecycleChange f) :
    MapStep m (.destroy key) (.ok ()) ((m.modify containerId f hf.id).erase key) := by
  by_cases hmem : key ∈ m.keys
  · have hid : containerId = key := by
      rw [ContainerMap.denoted_of_mem hmem] at hkey
      exact (Option.some.inj hkey).symm
    subst hid
    rw [OrderedMap.erase_modify]
    exact MapStep.erased hmem
  · rw [OrderedMap.erase_of_not_mem (by rwa [OrderedMap.keys_modify])]
    exact MapStep.stoppedByPid hmem hkey hf

/-- **The simulation**: what a call does to the entries is a step of the
map they are. -/
theorem Effect.mapStep {env : Env} {m : ContainerMap} {call : Call} {r : Result}
    {l' : List ContainerInfo} (h : Effect env m.entries call r l') :
    ∃ hn : (l'.map ContainerInfo.id).Nodup, MapStep m call r ⟨l', hn⟩ := by
  have hid : ∀ (config : ContainerConfig) (containerId : CStr), config.id = some containerId →
      createdId m.entries config = containerId := by
    intro config containerId hc
    rw [createdId, hc, Option.getD_some]
  cases h with
  | refused hcall e =>
    refine exists_mapStep rfl (MapStep.refused ?_)
    rintro key rfl hmem
    obtain ⟨i, hi, -⟩ := ContainerManager.resolve_of_mem hmem
    rw [show ContainerManager.resolve m.entries key = none from hcall] at hi
    cases hi
  | created hfresh hsaved =>
    exact exists_mapStep rfl (MapStep.inserted (Or.inl rfl) (hid _) hfresh)
  | ran hfresh hsaved hcommand hargc hclone =>
    exact exists_mapStep rfl (MapStep.inserted (Or.inr rfl) (hid _) hfresh)
  | started hi hinfo hstate hconfig hcommand hargc hclone =>
    exact exists_mapStep (m.entries_modify_at hinfo (lifecycleChange_startedInfo _ _))
      (MapStep.modified (Or.inl rfl) (ContainerMap.denoted_of_resolve hi hinfo)
        (lifecycleChange_startedInfo _ _))
  | stopped hi hinfo hstate =>
    exact exists_mapStep (m.entries_modify_at hinfo (lifecycleChange_stoppedInfo _))
      (MapStep.modified (Or.inr rfl) (ContainerMap.denoted_of_resolve hi hinfo)
        (lifecycleChange_stoppedInfo _))
  | destroyed hi hinfo hstate =>
    have hstep := mapStep_destroy (ContainerMap.denoted_of_resolve hi hinfo) lifecycleChange_id
    rw [ContainerMap.modify_id] at hstep
    exact exists_mapStep (m.entries_erase _) hstep
  | destroyedRunning hi hinfo hstate hstop =>
    have hkey := ContainerMap.denoted_of_resolve hi hinfo
    -- `destroy` goes on whatever `stop` has returned
    cases hstop with
    | refused hcall e =>
      have hstep := mapStep_destroy hkey lifecycleChange_id
      rw [ContainerMap.modify_id] at hstep
      exact exists_mapStep (m.entries_erase _) hstep
    | stopped hi' hinfo' hstate' =>
      have hsame := ContainerMap.denoted_of_resolve hi' hinfo'
      rw [ContainerMap.denoted_of_mem (OrderedMap.mem_keys.mpr
        ⟨_, List.mem_of_getElem? hinfo, rfl⟩)] at hsame
      have hstep := mapStep_destroy (hkey.trans hsame) (lifecycleChange_stoppedInfo env.now)
      refine exists_mapStep ?_ hstep
      rw [ContainerMap.entries_erase, m.entries_modify_at hinfo' (lifecycleChange_stoppedInfo _)]

/-- **A step concerns one identifier**: what the map has under any other one
stays. -/
theorem MapStep.frame {m m' : ContainerMap} {call : Call} {r : Result} (h : MapStep m call r m') :
    ∃ containerId, ∀ other, containerId ≠ other → m'.lookup other = m.lookup other := by
  cases h with
  | refused _ => exact ⟨[], fun _ _ => rfl⟩
  | @inserted _ _ info _ _ h =>
    refine ⟨info.id, fun other hother => ?_⟩
    rw [OrderedMap.lookup_insert, if_neg hother]
  | @modified _ _ containerId _ _ _ hf =>
    refine ⟨containerId, fun other hother => ?_⟩
    rw [OrderedMap.lookup_modify, if_neg hother]
  | @erased key h =>
    refine ⟨key, fun other hother => ?_⟩
    rw [OrderedMap.lookup_erase, if_neg hother]
  | @stoppedByPid _ containerId _ _ _ hf =>
    refine ⟨containerId, fun other hother => ?_⟩
    rw [OrderedMap.lookup_modify, if_neg hother]

/-- **A call concerns one container**: searching for any other identifier
finds what it found before, though its index may have moved. -/
theorem findContainer_frame {env : Env} {w w' : World} {call : Call} {r : Result} (hw : w.cm.WF)
    (hn : w.cm.ids.Nodup) (h : call.perform env w = some (w', r)) :
    ∃ containerId, ∀ other, containerId ≠ other →
      (w'.cm.findContainer other).bind w'.cm.infoAt
        = (w.cm.findContainer other).bind w.cm.infoAt := by
  have hspec := Call.perform_spec hw h
  obtain ⟨hn', hstep⟩ := Effect.mapStep (m := w.cm.toMap hn) hspec.effect
  obtain ⟨containerId, hframe⟩ := hstep.frame
  refine ⟨containerId, fun other hother => ?_⟩
  rw [ContainerManager.findContainer_eq_lookup hspec.wf hn',
    ContainerManager.findContainer_eq_lookup hw hn]
  exact hframe other hother

/-- Distinct identifiers and a well-formed array are kept by every call. -/
theorem wf_nodup_step {w w' : World} {e : Env × Call} (h : w.cm.WF ∧ w.cm.ids.Nodup)
    (hstep : World.Step w e w') : w'.cm.WF ∧ w'.cm.ids.Nodup := by
  obtain ⟨r, hperform⟩ := hstep
  have hspec := Call.perform_spec h.1 hperform
  obtain ⟨hn, -⟩ := Effect.mapStep (m := w.cm.toMap h.2) hspec.effect
  exact ⟨hspec.wf, hn⟩

/-- **The registry array implements the map.** After every run of calls from
a registry without repeated identifiers, the bounds hold, identifiers are
distinct, searching is looking up, and whatever call comes next is a step
of the map. -/
theorem registry_refines_map {w₀ w : World} {calls : List (Env × Call)} (hwf : w₀.cm.WF)
    (hids : w₀.cm.ids.Nodup) (hrun : Run World.Step w₀ calls w) :
    (w.cm.containerCount ≤ w.cm.maxContainers ∧ 0 < w.cm.maxContainers) ∧
      ∃ hn : w.cm.ids.Nodup,
        (∀ containerId, (w.cm.findContainer containerId).bind w.cm.infoAt
          = (w.cm.toMap hn).lookup containerId) ∧
        ∀ (env : Env) (call : Call) (w' : World) (r : Result),
          call.perform env w = some (w', r) →
          ∃ hn' : w'.cm.ids.Nodup, MapStep (w.cm.toMap hn) call r (w'.cm.toMap hn') := by
  obtain ⟨hw, hn⟩ := Run.invariant (I := fun w => w.cm.WF ∧ w.cm.ids.Nodup)
    (fun _ _ _ => wf_nodup_step) ⟨hwf, hids⟩ hrun
  refine ⟨⟨hw.count_le, hw.max_pos⟩, hn, ContainerManager.findContainer_eq_lookup hw hn, ?_⟩
  intro env call w' r hperform
  exact Effect.mapStep (m := w.cm.toMap hn) (Call.perform_spec hw hperform).effect

/-- A run that fills the array, doubles it, and removes the first entry. -/
theorem registry_refines_map_doubled :
    ∃ w, Run World.Step (World.empty 1)
        [(.willing 7 100, .create (.plain (some ['a']) ["sh".toList])),
          (.willing 8 101, .run (.plain (some ['b']) ["sh".toList])),
          (.willing 9 102, .destroy ['a'])] w ∧
      w.cm.ids = [['b']] ∧ w.cm.maxContainers = 2 ∧
      w.cm.containerCount ≤ w.cm.maxContainers := by
  have hrun : Run World.Step (World.empty 1)
      [(.willing 7 100, .create (.plain (some ['a']) ["sh".toList])),
        (.willing 8 101, .run (.plain (some ['b']) ["sh".toList])),
        (.willing 9 102, .destroy ['a'])] _ :=
    Run.cons ⟨_, rfl⟩ (Run.cons ⟨_, rfl⟩ (Run.cons ⟨_, rfl⟩ Run.nil))
  refine ⟨_, hrun, rfl, rfl, ?_⟩
  exact (registry_refines_map (ContainerManager.fresh_wf _ (by decide)) (by decide) hrun).1.1
