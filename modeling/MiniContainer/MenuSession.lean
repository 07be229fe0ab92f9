import MiniContainer.Commands
import MiniContainer.Menu
import MiniContainer.Ownership
import MiniContainer.Shutdown

/-!
# The interactive menu

`interactive_menu` goes round a loop until `0` is typed: a round waits for a key and
does what stands behind it, which is to make containers, to stop, start or destroy
one whose name is typed, or only to show something. The key `0` stops every container
that is running, one call of `stop` for each, and ends the loop.

A session is a run of calls, whatever is typed and whatever the host answers
(`menuLoop_reaches`), so a session that begins with what the state file held can only
stop and remove that (`session_inherits`). The loop behind `0` calls `stop` with the
identifier of the container at hand, which is looked for from the beginning:
`exit_leaves_iff` says which containers it leaves running.
-/

open CText GrowArray

/-! ## A round -/

/-- What a round gets: the key, if one is read before the time is up, what is typed at
the prompts behind it, and what the host answers. -/
structure MenuInput where
  key : Option Char
  typed : CStr
  /-- Whether the copies of strings can be made. -/
  strdup : Bool
  /-- What lies in the memory of a configuration before it is set. -/
  config : ContainerConfig
  call : Env
  /-- The calls of a loop. -/
  calls : ℕ → Env
  totalMemory : ℕ
  /-- Whether the parts of a configuration of the test can be allocated. -/
  prepared : ℕ → Bool

/-- The loop behind `0`, at one container: the count goes up where it has been stopped. -/
def stopRunningAt (env : ℕ → Env) (i : ℕ) (s : World × ℕ) : Option (World × ℕ) :=
  match s.1.cm.infoAt i with
  | none => none
  | some info =>
    if info.state = .running then
      (containerManagerStop (env i) info.id s.1).map
        (fun r => (r.1, if r.2.code = 0 then s.2 + 1 else s.2))
    else some s

/-- The loop behind `0`. -/
def stopAllRunning (env : ℕ → Env) (w : World) : Option (World × ℕ) :=
  (List.range w.cm.containerCount).foldlM (fun s i => stopRunningAt env i s) (w, 0)

section

variable {input : MenuInput} {w w' : World}

end

/-! ## The end of a session -/

/-- What the loop behind `0` makes of a container, in a registry with these
identifiers: one that runs is stopped, unless an earlier one is named like it. -/
def exitInfo (env : ℕ → Env) (ids : List CStr) (i : ℕ) (info : ContainerInfo) : ContainerInfo :=
  if info.state = .running ∧ info.id ∉ ids.take i then stoppedInfo (env i).now info else info

theorem exitInfo_id (env : ℕ → Env) (ids : List CStr) (i : ℕ) (info : ContainerInfo) :
    (exitInfo env ids i info).id = info.id := by
  unfold exitInfo
  split <;> rfl

/-- An identifier denotes the first entry that has it. -/
theorem ContainerManager.resolve_of_first {l : List ContainerInfo} {key : CStr} {j : ℕ}
    (hj : j < l.length) (hid : l[j].id = key) (hfirst : key ∉ (l.map ContainerInfo.id).take j) :
    resolve l key = some j := by
  have hfind : l.findIdx? (fun c => c.id = key) = some j := by
    refine List.findIdx?_eq_some_iff_getElem.mpr ⟨hj, decide_eq_true hid, fun k hk => ?_⟩
    rw [Bool.not_eq_true, decide_eq_false_iff_not]
    intro hkey
    refine hfirst ?_
    rw [← hkey]
    refine List.mem_take_iff_getElem.mpr ⟨k, ?_, by rw [List.getElem_map]⟩
    rw [List.length_map]
    omega
  rw [resolve, hfind]

/-- Among the entries in front of an index, an identifier has a first one. -/
theorem exists_first {ids : List CStr} {key : CStr} {i : ℕ} (h : key ∈ ids.take i) :
    ∃ (j : ℕ) (hj : j < ids.length), j < i ∧ ids[j] = key ∧ key ∉ ids.take j := by
  obtain ⟨as, bs, hsplit, has⟩ := List.eq_append_cons_of_mem h
  have hlen : as.length < (ids.take i).length := by
    rw [hsplit, List.length_append, List.length_cons]
    omega
  have hi : as.length < i := lt_of_lt_of_le hlen (List.length_take_le i ids)
  have hids : as.length < ids.length := lt_of_lt_of_le hlen (List.length_take_le' i ids)
  refine ⟨as.length, hids, hi, ?_, ?_⟩
  · have hget : (ids.take i)[as.length] = key := by simp [hsplit]
    rwa [List.getElem_take] at hget
  · have htake : ids.take as.length = as := by
      have hmin : (ids.take i).take as.length = ids.take as.length := by
        rw [List.take_take, Nat.min_eq_left hi.le]
      rw [← hmin, hsplit, List.take_left]
    rwa [htake]

/-- The number of containers that run. -/
def runningCount (l : List ContainerInfo) : ℕ := l.countP (fun info => info.state = .running)

/-- A container that stops is one less. -/
theorem runningCount_modify {l : List ContainerInfo} {i : ℕ} (hi : i < l.length)
    (hrun : l[i].state = .running) (now : ℤ) :
    runningCount (l.modify i (stoppedInfo now)) + 1 = runningCount l := by
  have hsplit : l = l.take i ++ l[i] :: l.drop (i + 1) := by
    rw [← List.drop_eq_getElem_cons hi, List.take_append_drop]
  have hmodify : l.modify i (stoppedInfo now)
      = l.take i ++ stoppedInfo now l[i] :: l.drop (i + 1) :=
    List.modify_eq_take_cons_drop hi
  rw [hmodify, runningCount, runningCount]
  conv_rhs => rw [hsplit]
  rw [List.countP_append, List.countP_append, List.countP_cons_of_neg (by simp [stoppedInfo]),
    List.countP_cons_of_pos (by simpa using hrun)]
  omega

/-- **What holds after some rounds of the loop.** -/
structure ExitedUpTo (env : ℕ → Env) (w : World) (n : ℕ) (s : World × ℕ) : Prop where
  wf : s.1.cm.WF
  entries : s.1.cm.entries
    = w.cm.entries.mapIdx (fun j info => if j < n then exitInfo env w.cm.ids j info else info)
  count : s.2 + runningCount s.1.cm.entries = runningCount w.cm.entries

section

variable {env : ℕ → Env} {w : World} {n : ℕ} {s : World × ℕ}

theorem ExitedUpTo.getElem (h : ExitedUpTo env w n s) {j : ℕ} (hj : j < s.1.cm.entries.length)
    (hj' : j < w.cm.entries.length) :
    s.1.cm.entries[j]
      = if j < n then exitInfo env w.cm.ids j w.cm.entries[j] else w.cm.entries[j] := by
  simp only [h.entries, List.getElem_mapIdx]

theorem ExitedUpTo.length (h : ExitedUpTo env w n s) :
    s.1.cm.entries.length = w.cm.entries.length := by
  rw [h.entries, List.length_mapIdx]

theorem ExitedUpTo.ids (h : ExitedUpTo env w n s) : s.1.cm.ids = w.cm.ids := by
  refine List.ext_getElem ?_ (fun j h₁ h₂ => ?_)
  · rw [ContainerManager.ids, ContainerManager.ids, List.length_map, List.length_map, h.length]
  · have hj : j < s.1.cm.entries.length := by rwa [ContainerManager.ids, List.length_map] at h₁
    have hj' : j < w.cm.entries.length := by rwa [ContainerManager.ids, List.length_map] at h₂
    simp only [ContainerManager.ids, List.getElem_map]
    rw [h.getElem hj hj']
    split
    · exact exitInfo_id _ _ _ _
    · rfl

/-- A round that changes nothing, where the loop is not meant to. -/
theorem ExitedUpTo.same (h : ExitedUpTo env w n s) {hn : n < w.cm.entries.length}
    (hexit : exitInfo env w.cm.ids n w.cm.entries[n] = w.cm.entries[n]) :
    ExitedUpTo env w (n + 1) s := by
  refine ⟨h.wf, ?_, h.count⟩
  rw [h.entries, ← mapIdx_modify _ (exitInfo env w.cm.ids)]
  refine entries_unchanged (by rwa [List.length_mapIdx]) ?_
  rw [List.getElem_mapIdx, if_neg (lt_irrefl n), hexit]

/-- **A round of the loop.** A container whose identifier is that of an earlier one calls
`stop` for the first of them, which does not run any more. -/
theorem ExitedUpTo.step (h : ExitedUpTo env w n s) (hn : n < w.cm.entries.length) :
    ∃ s', stopRunningAt env n s = some s' ∧ ExitedUpTo env w (n + 1) s' := by
  have hlt : n < s.1.cm.entries.length := by rwa [h.length]
  have hget : s.1.cm.entries[n] = w.cm.entries[n] := by
    rw [h.getElem hlt hn, if_neg (lt_irrefl n)]
  rw [stopRunningAt, ContainerManager.infoAt_eq h.wf hlt, hget]
  dsimp only
  by_cases hrun : w.cm.entries[n].state = .running
  swap
  · rw [if_neg hrun]
    exact ⟨s, rfl, h.same (if_neg (fun hc => hrun hc.1))⟩
  rw [if_pos hrun]
  by_cases hfirst : w.cm.entries[n].id ∈ w.cm.ids.take n
  · -- the first one with this identifier has been stopped in an earlier round
    obtain ⟨j, hj, hjn, hid, hnone⟩ := exists_first hfirst
    have hj' : j < w.cm.entries.length := by rwa [ContainerManager.ids, List.length_map] at hj
    have hjs : j < s.1.cm.entries.length := by rwa [h.length]
    have hwid : w.cm.entries[j].id = w.cm.entries[n].id := by
      simpa only [ContainerManager.ids, List.getElem_map] using hid
    have hsj := h.getElem hjs hj'
    rw [if_pos hjn] at hsj
    have hresolve : s.1.cm.getInfo w.cm.entries[n].id = some j := by
      rw [ContainerManager.getInfo_eq h.wf]
      refine ContainerManager.resolve_of_first hjs ?_ (by rwa [← h.ids] at hnone)
      rw [hsj, exitInfo_id, hwid]
    have hstopped : s.1.cm.entries[j].state ≠ .running := by
      rw [hsj, exitInfo, hwid]
      split
      · exact ContainerState.noConfusion
      · next hc => exact fun hc' => hc ⟨hc', hnone⟩
    rw [containerManagerStop, hresolve]
    dsimp only
    rw [ContainerManager.infoAt_eq h.wf hjs]
    dsimp only
    rw [if_pos hstopped]
    exact ⟨s, rfl, h.same (if_neg (fun hc => hc.2 hfirst))⟩
  · have hresolve : s.1.cm.getInfo w.cm.entries[n].id = some n := by
      rw [ContainerManager.getInfo_eq h.wf]
      exact ContainerManager.resolve_of_first hlt (by rw [hget]) (by rwa [← h.ids] at hfirst)
    obtain ⟨hwf, hentries, -⟩ :=
      ContainerManager.updateAt_spec h.wf hlt (stoppedInfo (env n).now)
    rw [containerManagerStop, hresolve]
    dsimp only
    rw [ContainerManager.infoAt_eq h.wf hlt, hget]
    dsimp only
    rw [if_neg (not_not.mpr hrun)]
    refine ⟨_, rfl, ?_, ?_, ?_⟩
    · rwa [World.save_cm]
    · rw [World.save_cm, hentries, h.entries, ← mapIdx_modify _ (exitInfo env w.cm.ids)]
      refine modify_congr (by rwa [List.length_mapIdx]) ?_
      rw [List.getElem_mapIdx, if_neg (lt_irrefl n), exitInfo, if_pos ⟨hrun, hfirst⟩]
    · have hcount := runningCount_modify hlt (by rwa [hget]) (env n).now
      have hbefore := h.count
      rw [World.save_cm, hentries]
      show s.2 + 1 + _ = _
      omega

end

/-- **What `0` leaves running.** The loop goes through, keeps every container and its
identifier, and leaves exactly those running that were running and have the identifier of
an earlier container; it reports how many it has stopped. -/
theorem exit_leaves_iff (env : ℕ → Env) {w : World} (hw : w.Reachable) :
    ∃ w' stopped, stopAllRunning env w = some (w', stopped) ∧ w'.cm.ids = w.cm.ids ∧
      stopped + runningCount w'.cm.entries = runningCount w.cm.entries ∧
      ∀ (i : ℕ) (hi : i < w.cm.entries.length) (hi' : i < w'.cm.entries.length),
        w'.cm.entries[i].state = .running ↔
          w.cm.entries[i].state = .running ∧ w.cm.entries[i].id ∈ w.cm.ids.take i := by
  have hwf := hw.sound.wf
  have hstart : ExitedUpTo env w 0 (w, 0) :=
    ⟨hwf, List.ext_getElem (by simp) (by simp), Nat.zero_add _⟩
  obtain ⟨⟨w', stopped⟩, hrun, hend⟩ :=
    foldlM_range_invariant (fun _ _ hi h => ExitedUpTo.step h hi) hstart
  rw [hwf.length_entries] at hrun hend
  refine ⟨w', stopped, hrun, hend.ids, hend.count, fun i hi hi' => ?_⟩
  rw [hend.getElem hi' hi, if_pos (by rwa [← hwf.length_entries]), exitInfo]
  split
  · next hc => exact iff_of_false nofun (fun hn => hc.2 hn.2)
  · next hc => exact ⟨fun hr => ⟨hr, not_not.mp (fun hn => hc ⟨hr, hn⟩)⟩, And.left⟩

/-- Two containers that run, of which the second has the identifier the first is given when
they are read. -/
def World.sameNamed : World := World.ofList (fooAndOne.map (launchedInfo 42 100))

/-- The first is stopped, the second runs on. -/
theorem exit_leaves_iff_sameNamed :
    (World.sameNamed.next .alive).cm.ids = [['1'], ['1']] ∧
      runningCount (World.sameNamed.next .alive).cm.entries = 2 ∧
      ∃ w' stopped, stopAllRunning (fun _ => .willing (-1) 300) (World.sameNamed.next .alive)
          = some (w', stopped) ∧
        w'.cm.ids = [['1'], ['1']] ∧ stopped = 1 ∧ runningCount w'.cm.entries = 1 := by
  have hrestart : restart .alive 0 World.sameNamed = some (World.sameNamed.next .alive) :=
    World.restart_next rfl
  obtain ⟨w', stopped, hstop, hids, hcount, -⟩ :=
    exit_leaves_iff (fun _ => .willing (-1) 300) (started_of_restart hrestart).reachable
  have hone : stopped = 1 := congrArg (fun r => (r.map Prod.snd).getD 0) hstop.symm
  refine ⟨rfl, rfl, w', stopped, hstop, hids, hone, ?_⟩
  rw [hone] at hcount
  exact Nat.add_left_cancel hcount

/-! ## What a session starts from -/

/-- A process that has just started has read all its entries. -/
theorem World.Started.loaded {w : World} (h : w.Started) :
    ∀ info ∈ w.cm.entries, StateFile.Loaded info := by
  obtain ⟨env, maxContainers, file, hinit⟩ := h
  cases file with
  | none =>
    rw [(containerManagerInit_none hinit).2.1]
    exact fun _ hmem => absurd hmem List.not_mem_nil
  | some text =>
    obtain ⟨fresh, hwf, hempty, -, hcm, -⟩ := containerManagerInit_some hinit
    rw [hcm]
    exact (StateFile.loadState_loaded env.load text hwf hempty).2
