import MiniContainer.ControlView
import MiniContainer.LifecycleInvariant
import MiniContainer.Session

/-!
# A container is started as it was created

`create` keeps a copy of the configuration, and `start` works from the copy:
it makes the control group again with the limits in it, and launches the
command in it. Nothing in between changes the copy or the control files, as
long as the calls in between are about other containers or start and stop this
one under its identifier.

`start_keeps_configuration` is about all runs of such calls behind a creation,
on both versions, whatever hierarchies version 1 has: each time the container
is started the words are those given, and the control files hold what they
held right after the creation.
-/

open CText GrowArray

/-! ## Starting -/

section

variable {env : Env} {w w' : World} {r : Result} {containerId : CStr}

/-- A clone writes to lists of processes only. -/
theorem Alike.of_cloneUses {k : Kernel} {rm : ResourceManager} {id : CStr} {fs : CgroupFs}
    (hfit : PathsFit rm containerId) {command : Option (List (Option CStr))} {argc : ℤ} :
    Alike rm id fs (CgroupUse.replay k rm (cloneUses env command argc containerId) fs) := by
  unfold cloneUses
  split
  · exact Alike.refl fs
  · split
    · exact Alike.refl fs
    · split
      · exact Alike.refl fs
      · split
        · exact Alike.of_addProcess hfit env.clone
        · exact Alike.refl fs

@[simp] theorem World.save_launches (env : Env) (w : World) :
    (w.save env).launches = w.launches := by
  unfold save
  split <;> rfl

/-- A clone that returns a pid launches the command. -/
theorem launches_of_clone {config : NamespaceConfig} {words : List (Option CStr)} {argc pid : ℤ}
    (h : namespaceCreateContainerWithCgroup env config (some words) argc containerId w
      = some (w', pid)) (hpid : pid ≠ -1) (hclone : 0 < env.clone) :
    w'.launches = w.launches ++ [⟨env.clone, config, words⟩] := by
  rw [namespaceCreateContainerWithCgroup] at h
  by_cases hargc : argc ≤ 0
  · rw [if_pos hargc] at h
    cases h
    exact absurd rfl hpid
  · rw [if_neg hargc] at h
    by_cases halloc : ¬ env.alloc .childStack
    · rw [if_pos halloc] at h
      cases h
    · rw [if_neg halloc, if_pos hclone] at h
      cases h
      rfl

/-- **What a container is started with**: the words of its configuration, in
the namespaces of its configuration. -/
theorem containerManagerStart_launches {key : CStr}
    (h : containerManagerStart env key w = some (w', .ok ())) :
    ∃ info config words, (w.cm.getInfo key).bind w.cm.infoAt = some info ∧
      info.savedConfig = some config ∧ config.command = some words ∧ env.clone ≠ -1 ∧
      (0 < env.clone → w'.launches = w.launches ++ [⟨env.clone, config.nsConfig, words⟩]) := by
  rcases containerManagerStart_cases h with ⟨-, e, hr⟩ |
    ⟨i, info, config, hi, hinfo, -, hconfig, hstart⟩
  · cases hr
  · rcases startWith_cases hstart with ⟨hr | hr, -⟩ | ⟨w₁, pid, hclone, hpid, -, rfl⟩
    · cases hr
    · cases hr
    · obtain ⟨-, -, hpids⟩ := namespaceCreateContainerWithCgroup_spec hclone
      obtain ⟨hcommand, -, rfl⟩ := hpids hpid
      obtain ⟨words, hwords⟩ := Option.ne_none_iff_exists'.mp hcommand
      rw [hwords] at hclone
      refine ⟨info, config, words, by rw [hi]; exact hinfo, hconfig, hwords, hpid, fun hpos => ?_⟩
      have hlaunches := launches_of_clone hclone hpid hpos
      rw [World.save_launches]
      exact hlaunches

/-- What `run` does behind the creation it has made writes to lists of
processes only. -/
theorem launchCreated_alike (id : CStr) (hw : w.cm.WF) (hfit : PathsFit w.cm.rm containerId)
    (h : launchCreated env containerId w = some (w', .ok ())) :
    Alike w.cm.rm id w.cg w'.cg := by
  have hcg := launchCreatedUses_cg hw h
  rcases launchCreated_cases h with ⟨w₁, e, -, -, -, hundo⟩ |
    ⟨w₁, i, info, saved, -, -, hi, hinfo, hsaved, hcommand, hargc, hclone, -⟩
  · -- a creation that is taken back is not reported as made
    obtain ⟨_, -, hr⟩ := Option.map_eq_some_iff.mp hundo
    cases hr
  · rw [hcg, launchCreatedUses, hi, Option.bind_some, hinfo]
    dsimp only
    rw [hsaved]
    dsimp only
    rw [if_neg hcommand, if_neg (not_or.mpr ⟨not_le.mpr hargc, hclone⟩), List.append_nil]
    exact Alike.of_cloneUses hfit

/-- A container that was created has a control group. -/
theorem containerManagerCreate_cgroup (hw : w.cm.WF) {config : ContainerConfig}
    (h : containerManagerCreate env config w = some (w', .ok ())) :
    (resourceManagerCreateCgroup env.kernel w.cm.rm (createdId w.cm.entries config)
        config.resLimits w.cg).2 = 0 ∧
      w'.cg = (resourceManagerCreateCgroup env.kernel w.cm.rm (createdId w.cm.entries config)
        config.resLimits w.cg).1 := by
  rcases containerManagerCreate_cases hw h with ⟨-, e, hr⟩ | ⟨saved, -, -, hadded⟩
  · cases hr
  · rcases addCreated_cases hadded with ⟨-, ⟨e, hr⟩, -⟩ | ⟨⟨e, hr⟩, -⟩ | ⟨cm, hcode, -, -, rfl⟩
    · cases hr
    · cases hr
    · rw [World.save_cg]
      exact ⟨hcode, rfl⟩

/-- What a copy keeps of a configuration; its words are dropped at most. -/
theorem kept_of_copied {src saved : ContainerConfig}
    (h : copyContainerConfig env src = .copied saved) :
    saved.resLimits = src.resLimits ∧ saved.nsConfig = src.nsConfig ∧
      ∀ words, saved.command = some words → words = givenWords src := by
  rcases copied_cases h with ⟨-, rfl⟩ | rfl
  · exact ⟨rfl, rfl, fun _ hwords => (Option.some.inj hwords).symm⟩
  · exact ⟨rfl, rfl, fun _ hwords => nomatch hwords⟩

/-- **A container that create or run accepts**: its entry has the copied
configuration, and its control group is as it was created. -/
theorem accepted {config : ContainerConfig} {call : Call} (hw : w.cm.WF)
    (hcall : call = .create config ∨ call = .run config)
    (hfit : PathsFit w.cm.rm (createdId w.cm.entries config))
    (h : call.perform env w = some (w', .ok ())) :
    createdId w.cm.entries config ∉ w.cm.ids ∧
      (resourceManagerCreateCgroup env.kernel w.cm.rm (createdId w.cm.entries config)
        config.resLimits w.cg).2 = 0 ∧
      Alike w.cm.rm (createdId w.cm.entries config)
        (resourceManagerCreateCgroup env.kernel w.cm.rm (createdId w.cm.entries config)
          config.resLimits w.cg).1 w'.cg ∧
      ∃ saved, saved.resLimits = config.resLimits ∧ saved.nsConfig = config.nsConfig ∧
        (∀ words, saved.command = some words → words = givenWords config) ∧
        idConfigs w'.cm.entries = idConfigs w.cm.entries
          ++ [(createdId w.cm.entries config, some saved)] := by
  rcases hcall with rfl | rfl
  · obtain ⟨hcode, hcg⟩ := containerManagerCreate_cgroup hw h
    obtain ⟨saved, hcopied, hfresh, hentries⟩ := containerManagerCreate_ok hw h
    obtain ⟨hlimits, hns, hwords⟩ := kept_of_copied hcopied
    refine ⟨hfresh, hcode, by rw [hcg]; exact Alike.refl _, saved, hlimits, hns, hwords, ?_⟩
    rw [hentries, idConfigs, List.map_append]
    rfl
  · have heffect := (containerManagerRun_spec hw h).effect
    generalize w'.cm.entries = l' at heffect ⊢
    cases heffect with
    | ran hfresh hcopied =>
      obtain ⟨hlimits, hns, hwords⟩ := kept_of_copied hcopied
      refine ⟨hfresh, ?_⟩
      rw [Call.perform, containerManagerRun] at h
      split at h
      · cases h
      · next containerId hrunId =>
        obtain rfl := eq_createdId_of_runId hw hrunId
        split at h
        · cases h
        · cases h
        · next w₁ hcreate =>
          obtain ⟨hcode, hcg⟩ := containerManagerCreate_cgroup hw hcreate
          have hspec := containerManagerCreate_spec hw hcreate
          have hlaunched := launchCreated_alike (createdId w.cm.entries config) hspec.wf
            (by rw [hspec.rm]; exact hfit) h
          rw [hspec.rm, hcg] at hlaunched
          refine ⟨hcode, hlaunched, _, hlimits, hns, hwords, ?_⟩
          rw [idConfigs, List.map_append]
          rfl

end

/-! ## Calls beside the container -/

/-- **A call that is not about the control group of a container**, or starts
it under its identifier: what identifiers it names are parts of one path
component, and what it destroys is another container. -/
def Call.Beside (containerId : CStr) (w : World) : Call → Prop
  | .create config | .run config => ∀ id, config.id = some id → Component id
  | .start key => Component key
  | .stop _ => True
  | .destroy key =>
    ∀ info, (w.cm.getInfo key).bind w.cm.infoAt = some info → info.id ≠ containerId

/-- **What is kept of a container** since the world `w₁` it was created in. -/
structure Keeps (containerId : CStr) (saved : ContainerConfig) (w₁ w : World) : Prop where
  sound : w.Sound
  rm : w.cm.rm = w₁.cm.rm
  components : ∀ id ∈ w.cm.ids, Component id
  mem : containerId ∈ w.cm.ids
  config : ∀ p ∈ idConfigs w.cm.entries, p.1 = containerId → p.2 = some saved
  alike : Alike w₁.cm.rm containerId w₁.cg w.cg

section

variable {env env₁ : Env} {hierarchies : List CStr} {containerId : CStr}
  {saved : ContainerConfig} {w₀ w₁ w w' : World} {call : Call} {r : Result}

theorem component_createdId {l : List ContainerInfo} {config : ContainerConfig}
    (h : ∀ id, config.id = some id → Component id) : Component (createdId l config) :=
  createdId_of h (component_printDecimal (ContainerManager.isInt_nextNumber _).isLong)

/-- What is found under the identifier is the container. -/
theorem Keeps.found (h : Keeps containerId saved w₁ w) {info : ContainerInfo}
    (hfound : (w.cm.getInfo containerId).bind w.cm.infoAt = some info) :
    info.id = containerId ∧ info.savedConfig = some saved := by
  obtain ⟨own, hown, hid⟩ := found_of_mem_ids h.sound.wf h.mem
  obtain rfl := Option.some.inj (hfound.symm.trans hown)
  exact ⟨hid, h.config (info.id, info.savedConfig)
    (List.mem_map.mpr ⟨info, mem_entries_of_found h.sound.wf hfound, rfl⟩) hid⟩

/-- **A use that is not of a start of the container is under another
identifier.** -/
theorem Keeps.other_of_mem_uses (h : Keeps containerId saved w₁ w)
    (hbeside : call.Beside containerId w) (hstart : call ≠ .start containerId)
    (hstop : ∀ key, call ≠ .stop key) {use : CgroupUse} (huse : use ∈ call.uses env w) :
    Component use.containerId ∧ use.containerId ≠ containerId := by
  have hacts := Call.actsOn_of_mem_uses h.sound.wf huse
  cases call with
  | create config =>
    obtain ⟨hid, hfresh⟩ := hacts
    exact ⟨hid ▸ component_createdId hbeside, fun he => hfresh (he ▸ h.mem)⟩
  | run config =>
    obtain ⟨hid, hfresh⟩ := hacts
    exact ⟨hid ▸ component_createdId hbeside, fun he => hfresh (he ▸ h.mem)⟩
  | start key =>
    obtain ⟨hid, -⟩ := hacts
    exact ⟨hid ▸ hbeside, fun he => hstart (by rw [← he, hid])⟩
  | stop key => exact absurd rfl (hstop key)
  | destroy key =>
    obtain ⟨info, hfound, hid⟩ := hacts
    rw [hid]
    exact ⟨h.components _ (List.mem_map_of_mem (mem_entries_of_found h.sound.wf hfound)),
      hbeside info hfound⟩

/-- **What a call beside a container leaves of its control files**, where
kernels are reliable: all of them. -/
theorem Keeps.alike_of_call (h : Keeps containerId saved w₁ w)
    (hid : Component containerId) (hk : env.kernel.Reliable hierarchies)
    {k : Kernel} {fs : CgroupFs} (hk₁ : k.Reliable hierarchies)
    (hcode : (resourceManagerCreateCgroup k w₁.cm.rm containerId saved.resLimits fs).2 = 0)
    (hcreated : Alike w₁.cm.rm containerId
      (resourceManagerCreateCgroup k w₁.cm.rm containerId saved.resLimits fs).1 w₁.cg)
    (hbeside : call.Beside containerId w) (hstep : call.perform env w = some (w', r)) :
    Alike w₁.cm.rm containerId w.cg w'.cg := by
  have hpath : w₁.cm.rm.cgroupPath = basePath := by rw [← h.rm]; exact h.sound.cgroupPath
  have hinit : w₁.cm.rm.initialized = true := by rw [← h.rm]; exact h.sound.initialized
  have hfit := hid.pathsFit hpath
  rw [Call.perform_cg h.sound.wf hstep, h.rm]
  by_cases hstop : ∃ key, call = .stop key
  · obtain ⟨key, rfl⟩ := hstop
    rw [Call.uses, replay_stopUses]
    exact Alike.refl _
  · by_cases hstart : call = .start containerId
    · subst hstart
      rw [Call.uses, startUses]
      cases hfound : (w.cm.getInfo containerId).bind w.cm.infoAt with
      | none => exact Alike.refl _
      | some info =>
        obtain ⟨-, hconfig⟩ := h.found hfound
        obtain ⟨-, hagain⟩ := Alike.create_again hk₁ hk hinit hfit hcode
          (hcreated.trans h.alike)
        dsimp only
        split
        · exact Alike.refl _
        · rw [hconfig]
          dsimp only
          rw [startWithUses, CgroupUse.replay_cons]
          refine hagain.trans ?_
          split
          · exact Alike.refl _
          · exact Alike.of_cloneUses hfit
    · exact Alike.of_replay hinit hpath hid hk.write
        (fun use huse => h.other_of_mem_uses hbeside hstart
          (fun key he => hstop ⟨key, he⟩) huse)

/-- **What a call beside a container leaves of it.** -/
theorem Keeps.step (h : Keeps containerId saved w₁ w)
    (hbeside : call.Beside containerId w) (hstep : call.perform env w = some (w', r))
    (halike : Alike w₁.cm.rm containerId w.cg w'.cg) : Keeps containerId saved w₁ w' := by
  have hspec := Call.perform_spec h.sound.wf hstep
  refine ⟨h.sound.step (a := .calls env call) ⟨r, hstep⟩, hspec.rm.trans h.rm, ?_, ?_, ?_,
    h.alike.trans halike⟩
  · refine hspec.effect.forall_ids h.components (fun config hcall => ?_)
    rcases hcall with rfl | rfl <;> exact component_createdId hbeside
  · have hmem := h.mem
    rw [ContainerManager.ids, ← fst_idConfigs] at hmem
    obtain ⟨p, hp, rfl⟩ := List.mem_map.mp hmem
    rcases hspec.effect.idConfigs_mem hp with hp | rfl
    · rw [ContainerManager.ids, ← fst_idConfigs]
      exact List.mem_map_of_mem hp
    · obtain ⟨own, hown, hid⟩ := found_of_mem_ids h.sound.wf h.mem
      exact absurd hid (hbeside own hown)
  · intro p hp hid
    rcases hspec.effect.mem_idConfigs hp with hp | ⟨hfresh, -⟩
    · exact h.config p hp hid
    · exact absurd (hid ▸ h.mem) hfresh

end

/-! ## Starting again -/

/-- A call beside a container, on a reliable kernel. -/
def BesideStep (hierarchies : List CStr) (containerId : CStr) (w : World) (a : Env × Call)
    (w' : World) : Prop :=
  a.1.kernel.Reliable hierarchies ∧ a.2.Beside containerId w ∧ w.Step a w'

/-- **A container is started as it was created.** Behind every creation that
create or run accepts, and every run of calls that start and stop the
container or are about others, a start launches the words that were given,
and the control files then hold what they held right after the creation. -/
theorem start_keeps_configuration {hierarchies : List CStr} {w₀ w₁ w w' : World}
    {env₀ env : Env} {call₀ : Call} {config : ContainerConfig} {acts : List (Env × Call)}
    (hw₀ : w₀.Reachable) (hids : ∀ id ∈ w₀.cm.ids, Component id)
    (hid : Component (createdId w₀.cm.entries config))
    (hcall : call₀ = .create config ∨ call₀ = .run config)
    (hk₀ : env₀.kernel.Reliable hierarchies)
    (haccepted : call₀.perform env₀ w₀ = some (w₁, .ok ()))
    (hrun : Run (BesideStep hierarchies (createdId w₀.cm.entries config)) w₁ acts w)
    (hk : env.kernel.Reliable hierarchies) (hclone : env.clone = -1 ∨ 0 < env.clone)
    (hstart : containerManagerStart env (createdId w₀.cm.entries config) w
      = some (w', .ok ())) :
    w'.launches = w.launches ++ [⟨env.clone, config.nsConfig, givenWords config⟩] ∧
      Alike w₁.cm.rm (createdId w₀.cm.entries config) w₁.cg w'.cg := by
  have hspec := Call.perform_spec hw₀.sound.wf haccepted
  obtain ⟨hfresh, hcode, halike, saved, hlimits, hns, hwords, hconfigs⟩ :=
    accepted hw₀.sound.wf hcall (hid.pathsFit hw₀.sound.cgroupPath) haccepted
  generalize createdId w₀.cm.entries config = containerId at *
  rw [← hspec.rm, ← hlimits] at hcode halike
  have hids₁ : w₁.cm.ids = w₀.cm.ids ++ [containerId] := by
    rw [ContainerManager.ids, ← fst_idConfigs, hconfigs, List.map_append, fst_idConfigs]
    rfl
  have hkeeps₁ : Keeps containerId saved w₁ w₁ := by
    refine ⟨hw₀.sound.step (a := .calls env₀ call₀) ⟨_, haccepted⟩, rfl, ?_, ?_, ?_,
      Alike.refl _⟩
    · intro id hmem
      rw [hids₁, List.mem_append, List.mem_singleton] at hmem
      rcases hmem with hmem | rfl
      · exact hids id hmem
      · exact hid
    · rw [hids₁]
      exact List.mem_append_right _ (List.mem_singleton_self _)
    · intro p hp hpid
      rw [hconfigs, List.mem_append, List.mem_singleton] at hp
      rcases hp with hp | rfl
      · refine absurd ?_ hfresh
        rw [ContainerManager.ids, ← fst_idConfigs, ← hpid]
        exact List.mem_map_of_mem hp
      · rfl
  have hkeeps : Keeps containerId saved w₁ w :=
    Run.invariant (I := Keeps containerId saved w₁)
      (fun _ _ _ h hstep => by
        obtain ⟨hreliable, hbeside, r, hperform⟩ := hstep
        exact h.step hbeside hperform
          (h.alike_of_call hid hreliable hk₀ hcode halike hbeside hperform)) hkeeps₁ hrun
  obtain ⟨info, config', words, hfound, hconfig, hcommand, hpid, hlaunches⟩ :=
    containerManagerStart_launches hstart
  obtain rfl := Option.some.inj ((hkeeps.found hfound).2.symm.trans hconfig)
  have hbeside : (Call.start containerId).Beside containerId w := hid
  constructor
  · rw [hlaunches (hclone.resolve_left hpid), hns, hwords words hcommand]
  · exact hkeeps.alike.trans (hkeeps.alike_of_call hid hk hk₀ hcode halike hbeside hstart)

/-- A command whose words are counted is given whole. -/
theorem givenWords_plain (containerId : Option CStr) (command : List CStr) :
    givenWords (.plain containerId command) = command.map some := by
  unfold givenWords
  rw [ContainerConfig.plain, Int.toNat_natCast, Option.getD_some]
  refine List.ext_getElem (by simp) (fun i h₁ h₂ => ?_)
  rw [List.getElem_map, List.getElem_range, List.getElem_map]
  unfold at?
  rw [List.length_map] at h₂
  rw [List.getElem?_map, List.getElem?_eq_getElem h₂]
  rfl

/-! ## A host with separate hierarchies -/

/-- A kernel that makes a directory where its hierarchy is one of these. -/
def Kernel.mounted (hierarchies : List CStr) : Kernel :=
  { Kernel.willing with mkdir := fun path => dirOf path ∈ hierarchies }

theorem reliable_mounted (hierarchies : List CStr) :
    (Kernel.mounted hierarchies).Reliable hierarchies :=
  ⟨fun _ => decide_eq_true_iff, fun _ _ => rfl⟩

/-- A host whose hierarchies for processors are separate. -/
def separateHierarchies : List CStr := [cpuCgroupPath, cpuacctCgroupPath, memoryCgroupPath]

/-- A call there in which nothing fails. -/
def Env.separate (clone now : ℤ) : Env :=
  { Env.willing clone now with kernel := .mounted separateHierarchies }

/-- A process without a state file there. -/
def World.separate : World :=
  { World.empty 1 with
    cm := .fresh ⟨basePath, true, .v1⟩ 1
    cg := ⟨separateHierarchies, fun _ => []⟩ }

/-- A configuration that asks for half a processor. -/
def halfConfig : ContainerConfig :=
  { ContainerConfig.plain (some ['c']) ["sh".toList, "-i".toList] with
    resLimits := ⟨⟨512, 0, 0⟩, ⟨1024, 2048⟩, 1⟩ }

theorem started_separate : World.separate.Started :=
  ⟨{ InitEnv.willing 0 with host := ⟨fun path => path ≠ cgroupV2Controllers, none⟩ }, 1, none, rfl⟩

/-- A container is run there, -/
def World.ranHalf : World := World.separate.after (.separate 42 100, .run halfConfig)

/-- another one is run beside it, and it is stopped. -/
def World.stoppedHalf : World :=
  (ranHalf.after (.separate 43 101, .run (.plain none ["sh".toList]))).after
    (.separate (-1) 102, .stop ['c'])

theorem run_stoppedHalf :
    Run (BesideStep separateHierarchies ['c']) .ranHalf
      [(.separate 43 101, .run (.plain none ["sh".toList])), (.separate (-1) 102, .stop ['c'])]
      .stoppedHalf :=
  Run.snoc (Run.snoc Run.nil
    ⟨reliable_mounted _, fun _ h => (nomatch h), World.step_after (by decide)⟩)
    ⟨reliable_mounted _, trivial, World.step_after (by decide)⟩

/-- The container is started again. -/
theorem start_keeps_configuration_separate :
    ∃ w', containerManagerStart (.separate 44 103) ['c'] .stoppedHalf = some (w', .ok ()) ∧
      w'.launches = World.stoppedHalf.launches
        ++ [⟨44, halfConfig.nsConfig, ["sh".toList, "-i".toList].map some⟩] ∧
      Alike World.ranHalf.cm.rm ['c'] World.ranHalf.cg w'.cg := by
  have hid : Component (createdId World.separate.cm.entries halfConfig) :=
    ⟨by decide, by decide⟩
  have hran : (Call.run halfConfig).perform (.separate 42 100) .separate
      = some (World.ranHalf, .ok ()) := rfl
  have hstart : containerManagerStart (.separate 44 103) ['c'] .stoppedHalf
      = some (World.stoppedHalf.after (.separate 44 103, .start ['c']), .ok ()) := rfl
  have hwords : givenWords halfConfig = ["sh".toList, "-i".toList].map some :=
    givenWords_plain (some ['c']) _
  rw [← hwords]
  exact ⟨_, hstart, start_keeps_configuration started_separate.reachable
    (fun _ hmem => nomatch hmem) hid (Or.inr rfl) (reliable_mounted _) hran run_stoppedHalf
    (reliable_mounted _) (Or.inr (by decide)) hstart⟩
