import MiniContainer.CgroupUses
import MiniContainer.Session

/-!
# Keys that are pids

A key denotes the container with that identifier or, where there is none,
the container with that pid. The second is taken from whatever container has
it recorded, running or not, and after a conversion that may change it
(`leadsTrue_iff`). The operations look the container up by the key
they are given and then go on with one of two names: that of the container,
or the key. Where the key is the identifier there is no difference.

Where it is a pid there is. `destroy` takes the container out of the registry
under the key, so a pid takes out none (`destroy_removes_iff`); `start` makes
the control group of the key and puts the process there, and `handle_info`
measures the group of the key, while `stop` and `destroy` look into the
group of the container (`key_names_cgroup_iff`).
-/

open CText GrowArray StateFile CgroupUse

/-! ## Removing -/

/-- A search by identifier sees identifiers only. -/
theorem findIdx?_modify (l : List ContainerInfo) (i : ℕ) {f : ContainerInfo → ContainerInfo}
    (hf : ∀ info, (f info).id = info.id) (key : CStr) :
    (l.modify i f).findIdx? (fun c => c.id = key) = l.findIdx? (fun c => c.id = key) := by
  have hsearch : ∀ l : List ContainerInfo, l.findIdx? (fun c => decide (c.id = key))
      = (l.map ContainerInfo.id).findIdx? (fun id => decide (id = key)) := by
    intro l
    rw [List.findIdx?_map]
    rfl
  rw [hsearch, hsearch, map_modify hf]

/-- What a key that is an identifier resolves to is the first entry with
it. -/
theorem findIdx?_of_resolve {l : List ContainerInfo} {key : CStr} {i : ℕ}
    (hi : ContainerManager.resolve l key = some i) (hkey : key ∈ l.map ContainerInfo.id) :
    l.findIdx? (fun c => c.id = key) = some i := by
  obtain ⟨c, hc, hid⟩ := List.mem_map.mp hkey
  have hsome := List.findIdx?_eq_some_of_exists (p := fun c => decide (c.id = key))
    ⟨c, hc, decide_eq_true hid⟩
  rw [ContainerManager.resolve, hsome] at hi
  rw [hsome]
  exact hi

theorem eraseP_of_not_mem {l : List ContainerInfo} {key : CStr}
    (hkey : key ∉ l.map ContainerInfo.id) : l.eraseP (fun c => c.id = key) = l :=
  List.eraseP_of_forall_not
    (fun c hc he => hkey (List.mem_map.mpr ⟨c, hc, of_decide_eq_true he⟩))

/-- **What `destroy` does to the entries**: it stops, and then removes the
first entry that has the key for its identifier. -/
theorem Effect.destroy_entries {env : Env} {l l' : List ContainerInfo} {key : CStr}
    (h : Effect env l (.destroy key) (.ok ()) l') {i : ℕ}
    (hi : ContainerManager.resolve l key = some i) :
    ∃ f : ContainerInfo → ContainerInfo, ∃ j, (∀ info, (f info).id = info.id) ∧
      (key ∈ l.map ContainerInfo.id → j = i) ∧
      l' = (l.modify j f).eraseP (fun c => c.id = key) := by
  cases h with
  | destroyed => exact ⟨id, i, fun _ => rfl, fun _ => rfl, by rw [List.modify_id]⟩
  | @destroyedRunning _ i' info _ _ hi' hinfo _ hstop =>
    cases hi.symm.trans hi'
    cases hstop with
    | refused => exact ⟨id, i, fun _ => rfl, fun _ => rfl, by rw [List.modify_id]⟩
    | @stopped _ j info' hj =>
      refine ⟨stoppedInfo env.now, j, fun _ => rfl, fun hkey => ?_, rfl⟩
      -- the container that is stopped is looked for under its own identifier
      obtain ⟨hlt, hid, -⟩ :=
        List.findIdx?_eq_some_iff_getElem.mp (findIdx?_of_resolve hi hkey)
      have hinfo_id : info.id = key := by
        rw [List.getElem?_eq_getElem hlt, Option.some.injEq] at hinfo
        rw [← hinfo]
        exact of_decide_eq_true hid
      rw [hinfo_id] at hj
      exact Option.some.inj (hj.symm.trans hi)

/-- **When `destroy` removes the container it resolved.** For every registry
that can come about and every key that denotes a container, a `destroy` that
returns `0` leaves the other containers, and no more, in their order and with
their fields, if and only if the key is an identifier. -/
theorem destroy_removes_iff {env : Env} {w w' : World} (hw : w.Reachable) {key : CStr} {i : ℕ}
    (hi : w.cm.getInfo key = some i)
    (h : containerManagerDestroy env key w = some (w', .ok ())) :
    w'.cm.entries = w.cm.entries.eraseIdx i ↔ key ∈ w.cm.ids := by
  have hwf := hw.sound.wf
  have hres : ContainerManager.resolve w.cm.entries key = some i := by
    rwa [← ContainerManager.getInfo_eq hwf]
  obtain ⟨f, j, hf, hj, hentries⟩ :=
    (containerManagerDestroy_spec hwf h).effect.destroy_entries hres
  rw [hentries]
  constructor
  · intro herase
    by_contra hkey
    have hnot : key ∉ (w.cm.entries.modify j f).map ContainerInfo.id := by rwa [map_modify hf]
    have hlen := congrArg List.length herase
    have hlt := ContainerManager.resolve_lt hres
    rw [eraseP_of_not_mem hnot, List.length_modify, List.length_eraseIdx_of_lt hlt] at hlen
    omega
  · intro hkey
    obtain rfl := hj hkey
    rw [List.eraseP_eq_eraseIdx, findIdx?_modify _ _ hf, findIdx?_of_resolve hres hkey]
    dsimp only
    refine List.ext_getElem? (fun m => ?_)
    rw [List.getElem?_eraseIdx, List.getElem?_eraseIdx]
    split
    · rw [List.getElem?_modify_ne _ _ (by omega)]
    · rw [List.getElem?_modify_ne _ _ (by omega)]

/-- A container with the pid 42 that is destroyed under its identifier. -/
theorem destroy_removes_iff_id :
    ∃ w', containerManagerDestroy (.willing (-1) 101) ['1'] .ranOne = some (w', .ok ()) ∧
      w'.cm.entries = World.ranOne.cm.entries.eraseIdx 0 := by
  have hi : World.ranOne.cm.getInfo ['1'] = some 0 := rfl
  exact ⟨_, rfl, (destroy_removes_iff reachable_ranOne hi rfl).mpr (List.mem_singleton_self _)⟩

/-- **Destroying by pid removes nothing**, and returns `0`. -/
theorem destroy_by_pid_keeps :
    World.ranOne.Reachable ∧ World.ranOne.cm.getInfo "42".toList = some 0 ∧
      World.ranOne.cm.ids = [['1']] ∧
      ∃ w', containerManagerDestroy (.willing (-1) 101) "42".toList .ranOne = some (w', .ok ()) ∧
        w'.cm.ids = [['1']] ∧ w'.cm.entries ≠ World.ranOne.cm.entries.eraseIdx 0 := by
  refine ⟨reachable_ranOne, rfl, rfl, _, rfl, rfl, ?_⟩
  exact fun h => absurd (congrArg List.length h) (by decide)

/-! ## Naming the control group -/

/-- What `safe_state_name` calls a state. -/
def safeStateName : ContainerState → CStr
  | .created => "CREATED".toList
  | .running => "RUNNING".toList
  | .stopped => "STOPPED".toList
  | .destroyed => "DESTROYED".toList
  | .invalid _ _ => "UNKNOWN".toList

/-- What `handle_info` prints. -/
structure InfoReport where
  id : CStr
  state : CStr
  pid : ℤ
  createdAt : ℤ
  startedAt : Option ℤ
  stoppedAt : Option ℤ
  /-- The processor time and the memory of a running container. -/
  usage : Option (ℕ × ℕ)

/-- `handle_info`, called with a key; `none` where no container is found. -/
def handleInfo (reads : CgroupReads) (key : CStr) (w : World) : Option InfoReport :=
  match (w.cm.getInfo key).bind w.cm.infoAt with
  | none => none
  | some info => some {
      id := info.id
      state := safeStateName info.state
      pid := info.pid
      createdAt := info.createdAt
      startedAt := if info.startedAt > 0 then some info.startedAt else none
      stoppedAt := if info.stoppedAt > 0 then some info.stoppedAt else none
      usage :=
        if info.state = .running then some (resourceManagerGetStats reads w.cm.rm key).1
        else none }

/-- The uses of `handle_info`. -/
def infoUses (key : CStr) (w : World) : List CgroupUse :=
  match (w.cm.getInfo key).bind w.cm.infoAt with
  | none => []
  | some info => if info.state = .running then [.stats key] else []

/-- What is printed of a running container is measured by these uses. -/
theorem usage_handleInfo {reads : CgroupReads} {key : CStr} {w : World} {report : InfoReport}
    (h : handleInfo reads key w = some report) :
    report.usage = (infoUses key w).head?.map
      (fun use => (resourceManagerGetStats reads w.cm.rm use.containerId).1) := by
  unfold handleInfo at h
  unfold infoUses
  cases hinfo : (w.cm.getInfo key).bind w.cm.infoAt with
  | none =>
    rw [hinfo] at h
    cases h
  | some info =>
    rw [hinfo] at h
    cases h
    dsimp only
    split <;> rfl

/-- How much of an identifier fits into a path of some hierarchy. -/
def idRoom (rm : ResourceManager) : ℕ :=
  match rm.version with
  | .v2 => bufSize - 1 - (cgroupName cgroupRoot rm []).length
  | .v1 => bufSize - 1 - (cgroupName cpuCgroupPath rm []).length

/-- Two directories in one hierarchy are one where the identifiers agree as
far as they fit. -/
theorem cgroupDir_eq_iff (root : CStr) (rm : ResourceManager) (x y : CStr) :
    cgroupDir root rm x = cgroupDir root rm y ↔
      x.take (bufSize - 1 - (cgroupName root rm []).length)
        = y.take (bufSize - 1 - (cgroupName root rm []).length) := by
  have hname : ∀ id, cgroupName root rm id = cgroupName root rm [] ++ id := by
    intro id
    simp [cgroupName]
  rw [cgroupDir, cgroupDir, hname x, hname y, snprintf, snprintf, List.take_append,
    List.take_append, List.append_cancel_left_eq]

/-- **Two identifiers name the same control group** exactly if they agree as
far as they fit into the shortest path. -/
theorem cgroupDirs_eq_iff (rm : ResourceManager) (x y : CStr) :
    cgroupDirs rm x = cgroupDirs rm y ↔ x.take (idRoom rm) = y.take (idRoom rm) := by
  have hshorter : ∀ {m n : ℕ}, m ≤ n → x.take n = y.take n → x.take m = y.take m := by
    intro m n hmn h
    have := congrArg (List.take m) h
    rwa [List.take_take, List.take_take, min_eq_left hmn] at this
  unfold cgroupDirs idRoom
  cases rm.version with
  | v2 =>
    simp only [cgroupRoots, List.map_cons, List.map_nil, List.cons.injEq, and_true]
    exact cgroupDir_eq_iff _ _ _ _
  | v1 =>
    simp only [cgroupRoots, List.map_cons, List.map_nil, List.cons.injEq, and_true,
      cgroupDir_eq_iff]
    refine ⟨fun h => h.2.1, fun h => ⟨hshorter ?_ h, h, hshorter ?_ h, hshorter ?_ h⟩⟩ <;>
    · simp only [cgroupName, List.length_append, List.length_cons]
      have : cpuCpuacctCgroupPath.length = 26 := by decide
      have : cpuacctCgroupPath.length = 22 := by decide
      have : memoryCgroupPath.length = 21 := by decide
      have : cpuCgroupPath.length = 18 := by decide
      omega

/-- A container `start` would launch under any key: it is not running, and
has a configuration. -/
def Startable (info : ContainerInfo) : Prop :=
  (info.state = .created ∨ info.state = .stopped) ∧ info.savedConfig ≠ none

/-- **Under which name a use is made**: that of the container, or the key, and
that only where the container runs or can be started. -/
theorem containerId_of_mem_uses {env : Env} {w : World} (hw : w.cm.WF) {key : CStr}
    {info : ContainerInfo} (hfound : (w.cm.getInfo key).bind w.cm.infoAt = some info)
    {use : CgroupUse}
    (h : use ∈ startUses env key w ++ stopUses key w ++ destroyUses key w ++ infoUses key w) :
    use.containerId = info.id ∨
      (use.containerId = key ∧ (info.state = .running ∨ Startable info)) := by
  rcases List.mem_append.mp h with h | h
  · rcases List.mem_append.mp h with h | h
    · rcases List.mem_append.mp h with h | h
      · have hkey := containerId_of_mem_startUses h
        rw [startUses, hfound] at h
        dsimp only at h
        split at h
        · cases h
        · next hstate =>
          rw [not_and_or, not_not, not_not] at hstate
          split at h
          · cases h
          · next config hconfig => exact Or.inr ⟨hkey, Or.inr ⟨hstate, by rw [hconfig]; simp⟩⟩
      · exact Or.inl (containerId_of_mem_stopUses hfound h)
    · exact Or.inl (containerId_of_mem_destroyUses hw hfound h)
  · rw [infoUses, hfound] at h
    dsimp only at h
    split at h
    · next hrun =>
      rw [List.mem_singleton.mp h]
      exact Or.inr ⟨rfl, Or.inl hrun⟩
    · cases h

/-- **When the key does not change the control group acted on.** For every
registry that can come about and every key that denotes a container, all that
`start`, `stop`, `destroy` and `handle_info` do under that key they do to the
control group of the container if and only if the key agrees with its
identifier, as far as a path has room, or the container is neither running
nor could be started. -/
theorem key_names_cgroup_iff {w : World} (hw : w.Reachable) {key : CStr} {i : ℕ}
    {info : ContainerInfo} (hi : w.cm.getInfo key = some i) (hinfo : w.cm.infoAt i = some info) :
    (∀ env, ∀ use ∈ startUses env key w ++ stopUses key w ++ destroyUses key w ++ infoUses key w,
        cgroupDirs w.cm.rm use.containerId = cgroupDirs w.cm.rm info.id) ↔
      key.take (idRoom w.cm.rm) = info.id.take (idRoom w.cm.rm) ∨
        (info.state ≠ .running ∧ ¬ Startable info) := by
  have hfound : (w.cm.getInfo key).bind w.cm.infoAt = some info := by
    rw [hi]
    exact hinfo
  rw [← cgroupDirs_eq_iff]
  constructor
  · intro huses
    by_contra hn
    obtain ⟨hkey, hbusy⟩ := not_or.mp hn
    by_cases hrun : info.state = .running
    · -- `handle_info` measures the group of the key
      refine hkey (huses (.willing 0 0) (.stats key) (List.mem_append_right _ ?_))
      rw [infoUses, hfound]
      dsimp only
      rw [if_pos hrun]
      exact List.mem_singleton_self _
    · obtain ⟨hstate, hconfig⟩ := not_not.mp (fun hs => hbusy ⟨hrun, hs⟩)
      obtain ⟨config, hconfig⟩ := Option.ne_none_iff_exists'.mp hconfig
      have hgo : ¬ (info.state ≠ .created ∧ info.state ≠ .stopped) :=
        fun h => hstate.elim h.1 h.2
      -- `start` makes the group of the key
      refine hkey (huses (.willing 0 0) (.create key config.resLimits) ?_)
      rw [List.append_assoc, List.append_assoc]
      refine List.mem_append_left _ ?_
      rw [startUses, hfound]
      dsimp only
      rw [if_neg hgo, hconfig]
      exact List.mem_cons_self
  · intro hcond env use huse
    rcases containerId_of_mem_uses hw.sound.wf hfound huse with hown | ⟨hkey, hbusy⟩
    · rw [hown]
    · rw [hkey]
      exact hcond.resolve_right (fun hidle => hbusy.elim hidle.1 hidle.2)

/-- Started by pid, the process is put into the control group `42`, while
`stop` looks into the group `1`. -/
theorem start_by_pid_elsewhere :
    let w := World.ranOne.after (.willing (-1) 101, .stop ['1'])
    w.Reachable ∧ w.cm.getInfo "42".toList = some 0 ∧ w.cm.ids = [['1']] ∧
      (startUses (.willing 43 102) "42".toList w).map CgroupUse.containerId
        = ["42".toList, "42".toList] ∧
      (stopUses ['1'] (w.after (.willing 43 102, .start "42".toList))).map CgroupUse.containerId
        = [['1']] ∧
      cgroupDirs w.cm.rm "42".toList ≠ cgroupDirs w.cm.rm ['1'] := by
  refine ⟨reachable_ranOne.after rfl, rfl, rfl, rfl, rfl, ?_⟩
  rw [ne_eq, cgroupDirs_eq_iff]
  decide

/-- Under its identifier a running container is stopped, measured and cleaned
up in its own group. -/
theorem key_names_cgroup_iff_id :
    World.ranOne.cm.getInfo ['1'] = some 0 ∧
      ∀ use ∈ destroyUses ['1'] .ranOne ++ infoUses ['1'] .ranOne,
        cgroupDirs World.ranOne.cm.rm use.containerId = cgroupDirs World.ranOne.cm.rm ['1'] := by
  refine ⟨rfl, fun use huse => ?_⟩
  have hi : World.ranOne.cm.getInfo ['1'] = some 0 := rfl
  refine (key_names_cgroup_iff reachable_ranOne hi rfl).mpr (Or.inl rfl) (.willing 0 0) use ?_
  rw [List.append_assoc]
  exact List.mem_append_right _ huse

/-! ## Finding -/

/-- **The whole of a key is a numeral**, with a number that need not fit any
type. -/
def DenotesNumber (key : CStr) (n : ℤ) : Prop := readDecimal key = some (n, [])

/-- What a key leads to: the container the operations act on. -/
def World.found (w : World) (key : CStr) : Option ContainerInfo :=
  (w.cm.getInfo key).bind w.cm.infoAt

/-- **A key leads to the container it names**: the one with that identifier or,
where there is none, only to one that runs and has that pid. -/
structure World.LeadsTrue (w : World) (key : CStr) : Prop where
  byId : key ∈ w.cm.ids → ∃ info, w.found key = some info ∧ info.id = key
  byPid : key ∉ w.cm.ids → ∀ info, w.found key = some info →
    DenotesNumber key info.pid ∧ 0 < info.pid ∧ info.state = .running

/-- **The number of a key is a pid in use**, as far as anything has it: of the
containers that have the number as it is after its conversion to `pid_t`, the
first one runs, and the conversion has left the number as it was. -/
def World.PidInUse (w : World) (key : CStr) : Prop :=
  ∀ n, DenotesNumber key n → 0 < n → ∀ info,
    w.cm.entries.find? (fun c => c.pid = wrap32 (clampLong n)) = some info →
    n < 2 ^ 31 ∧ info.state = .running

/-- What an index found in the entries points at. -/
theorem infoAt_bind_findIdx? {cm : ContainerManager} (hcm : cm.WF) (p : ContainerInfo → Bool) :
    (cm.entries.findIdx? p).bind cm.infoAt = cm.entries.find? p := by
  rw [List.find?_eq_bind_findIdx?_getElem?]
  cases h : cm.entries.findIdx? p with
  | none => rfl
  | some i =>
    obtain ⟨hlt, -⟩ := List.findIdx?_eq_some_iff_getElem.mp h
    exact (ContainerManager.infoAt_eq hcm hlt).trans (List.getElem?_eq_getElem hlt).symm

section

variable {w : World} {key : CStr}

/-- **An identifier leads to its container.** -/
theorem found_of_mem (hw : w.cm.WF) (hkey : key ∈ w.cm.ids) :
    ∃ info, w.found key = some info ∧ info.id = key := by
  obtain ⟨i, hi, hlt, hid⟩ := ContainerManager.resolve_of_mem hkey
  refine ⟨_, ?_, hid⟩
  rw [World.found, ContainerManager.getInfo_eq hw, hi]
  exact ContainerManager.infoAt_eq hw hlt

/-- **A key that is no identifier leads to the first container with its
number** as a `pid_t`. -/
theorem found_of_not_mem (hw : w.cm.WF) (hkey : key ∉ w.cm.ids) {n : ℤ} (hn : DenotesNumber key n)
    (hpos : 0 < n) :
    w.found key = w.cm.entries.find? (fun c => c.pid = wrap32 (clampLong n)) := by
  have hstrtol : strtol key = (clampLong n, []) := by
    rw [strtol, hn]
  have hclamp : clampLong n > 0 := by
    unfold clampLong
    omega
  rw [World.found, ContainerManager.getInfo,
    (ContainerManager.findContainer_eq_none_iff hw).mpr hkey, hstrtol]
  dsimp only
  rw [if_pos ⟨rfl, hclamp⟩, ContainerManager.findContainerByPid_eq hw, infoAt_bind_findIdx? hw]

/-- It leads nowhere where it denotes no positive number. -/
theorem denotesNumber_of_found (hw : w.cm.WF) (hkey : key ∉ w.cm.ids) {info : ContainerInfo}
    (h : w.found key = some info) : ∃ n, DenotesNumber key n ∧ 0 < n := by
  rw [World.found, ContainerManager.getInfo,
    (ContainerManager.findContainer_eq_none_iff hw).mpr hkey] at h
  dsimp only at h
  split at h
  · next hnum =>
    obtain ⟨hend, hpos⟩ := hnum
    unfold strtol at hend hpos
    unfold DenotesNumber
    cases hread : readDecimal key with
    | none =>
      rw [hread] at hpos
      exact absurd hpos (by simp)
    | some r =>
      rw [hread] at hend hpos
      refine ⟨r.1, by rw [← hend], ?_⟩
      dsimp only at hpos
      unfold clampLong at hpos
      omega
  · cases h

/-- A positive number is the same as a `pid_t` exactly where it fits. -/
theorem wrap32_clampLong_eq_iff {n : ℤ} (hpos : 0 < n) :
    wrap32 (clampLong n) = n ↔ n < 2 ^ 31 := by
  constructor
  · intro h
    rw [← h]
    exact (isInt_wrap32 _).2
  · intro h
    rw [clampLong_of_isLong ⟨by omega, by omega⟩, wrap32_of_isInt ⟨by omega, h⟩]

/-- **When a key leads to the container it names.** In every state that can come
about, and for every key: exactly if it is an identifier, or its number is a pid
in use. A container that was stopped keeps its pid, and a number that is too
large is cut off. -/
theorem leadsTrue_iff (hw : w.Reachable) :
    w.LeadsTrue key ↔ key ∈ w.cm.ids ∨ w.PidInUse key := by
  have hwf := hw.sound.wf
  have hpid : ∀ {n info}, w.cm.entries.find? (fun c => c.pid = wrap32 (clampLong n)) = some info →
      info.pid = wrap32 (clampLong n) := by
    intro n info hinfo
    have h := List.find?_some hinfo
    exact of_decide_eq_true h
  constructor
  · intro h
    refine or_iff_not_imp_left.mpr (fun hkey n hn hpos info hinfo => ?_)
    obtain ⟨hdenotes, -, hrun⟩ := h.byPid hkey info
      ((found_of_not_mem hwf hkey hn hpos).trans hinfo)
    have heq : info.pid = n := (Prod.mk.inj (Option.some.inj (hdenotes.symm.trans hn))).1
    exact ⟨(wrap32_clampLong_eq_iff hpos).mp ((hpid hinfo).symm.trans heq), hrun⟩
  · intro h
    refine ⟨found_of_mem hwf, fun hkey info hinfo => ?_⟩
    obtain ⟨n, hn, hpos⟩ := denotesNumber_of_found hwf hkey hinfo
    rw [found_of_not_mem hwf hkey hn hpos] at hinfo
    obtain ⟨hfits, hrun⟩ := h.resolve_left hkey n hn hpos info hinfo
    rw [hpid hinfo, (wrap32_clampLong_eq_iff hpos).mpr hfits]
    exact ⟨hn, hpos, hrun⟩

end

/-- The pid of a running container leads to it. -/
theorem leadsTrue_iff_running : World.ranOne.LeadsTrue "42".toList := by
  refine (leadsTrue_iff reachable_ranOne).mpr (Or.inr ?_)
  intro n hn hpos info hinfo
  have hread : readDecimal "42".toList = some (42, []) := by decide
  obtain ⟨rfl, -⟩ := Prod.mk.inj (Option.some.inj (hread.symm.trans hn))
  have hone : World.ranOne.found "42".toList = some info := hinfo
  cases hone
  exact ⟨by decide, rfl⟩

/-- **A container that was stopped still answers to its pid**, and a running one
also to a number that is larger by `2 ^ 32`. -/
theorem wrong_keys_lead :
    (World.ranOne.after (.willing (-1) 101, .stop ['1'])).Reachable ∧
      (∃ info, (World.ranOne.after (.willing (-1) 101, .stop ['1'])).found "42".toList
        = some info ∧ info.id = ['1'] ∧ info.state = .stopped) ∧
      ¬ (World.ranOne.after (.willing (-1) 101, .stop ['1'])).LeadsTrue "42".toList ∧
      World.ranOne.Reachable ∧
      (∃ info, World.ranOne.found "4294967338".toList = some info ∧ info.pid = 42) ∧
      ¬ World.ranOne.LeadsTrue "4294967338".toList := by
  refine ⟨reachable_ranOne.after rfl, ⟨_, rfl, rfl, rfl⟩, fun h => ?_, reachable_ranOne,
    ⟨_, rfl, rfl⟩, fun h => ?_⟩
  · exact absurd (h.byPid (by decide) _ rfl).2.2 (by decide)
  · exact absurd (h.byPid (by decide) _ rfl).1 (by unfold DenotesNumber; decide)
