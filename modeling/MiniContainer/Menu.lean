import MiniContainer.InteractiveCreate
import MiniContainer.Keys

/-!
# Names at the menu

A container can be given a name at a prompt, which is stored as it was typed.
The prompts of the menu that ask for a container (to stop, to destroy, to edit and
to start it) pass over blanks at both ends of what is typed, and what is left is
the key the container is looked up by.

`addresses_iff` says which of the lines that named a container address it
when they are typed again: those without a blank at either end. There is one
more case, in which what is left is a number and happens to be the pid of the
container.
-/

open CText

/-- The blanks the menu passes over. -/
def isBlank (c : Char) : Bool := c = ' ' || c = '\t'

/-- What is left of an identifier between `start` and `end`; `end` does not go below
`start`. -/
def trimId (id : CStr) : CStr :=
  match id.dropWhile isBlank with
  | [] => []
  | c :: s => c :: s.rdropWhile isBlank

/-- **The key a prompt of the menu gets**; there is none at the end of the input,
or where nothing is left of the line. -/
def menuKey (input : CStr) : Option CStr :=
  (promptLine 256 input).1.bind fun line =>
    let start := trimId (chomp line)
    if start ≠ [] then some start else none

/-! ## What is read -/

/-- What string functions see of a line with a NUL does not depend on what
stands behind the line. -/
theorem cstring_append_of_mem {line : CStr} (hnul : '\x00' ∈ line) (s : CStr) :
    cstring (line ++ s) = cstring line := by
  obtain ⟨t, u, rfl, ht⟩ := List.eq_append_cons_of_mem hnul
  rw [cstring, cstring, List.append_assoc, List.cons_append, takeWhile_ne_append ht,
    takeWhile_ne_append ht]

/-- **A typed line that fits its buffer is read up to the first NUL.** -/
theorem chomp_promptLine_cstring {size : ℕ} {line : CStr} (hline : '\n' ∉ line)
    (hlen : line.length < size) (hsize : 1 < size) (rest : CStr) :
    (promptLine size (line ++ '\n' :: rest)).1.map chomp = some (cstring line) := by
  by_cases hnul : '\x00' ∈ line
  · have hne : line ++ '\n' :: rest ≠ [] := by simp
    have hread : cstring (fgets (size - 1) (line ++ '\n' :: rest)).1 = cstring line := by
      by_cases hroom : line.length < size - 1
      · rw [fgets_line hline hroom, cstring_append_of_mem hnul]
      · rw [fgets_full hline (by omega) (by omega)]
    have hlast : (cstring line).getLast? ≠ some '\n' :=
      fun h => hline (mem_of_mem_cstring (List.mem_of_getLast? h))
    rw [promptLine, if_neg hne, Option.map_some, hread, chomp, if_neg hlast]
  · rw [chomp_promptLine hnul hline hlen hsize, cstring_of_not_mem hnul]

/-- The key is what is left of the line. -/
theorem menuKey_line {line : CStr} (hline : '\n' ∉ line) (hlen : line.length ≤ 254)
    (rest : CStr) :
    menuKey (line ++ '\n' :: rest)
      = if trimId (cstring line) ≠ [] then some (trimId (cstring line)) else none := by
  have hline : (promptLine 256 (line ++ '\n' :: rest)).1.map chomp = some (cstring line) :=
    chomp_promptLine_cstring hline (by omega) (by omega) rest
  obtain ⟨read, hread, hchomp⟩ := Option.map_eq_some_iff.mp hline
  rw [menuKey, hread, Option.bind_some, hchomp]

/-- Nothing is left of nothing. -/
@[simp] theorem trimId_nil : trimId [] = [] := rfl

/-- A blank in front is passed over. -/
theorem trimId_cons_of_blank {c : Char} (hc : isBlank c = true) (s : CStr) :
    trimId (c :: s) = trimId s := by
  rw [trimId, trimId, List.dropWhile_cons_of_pos hc]

/-- What is in front otherwise stays. -/
theorem trimId_cons_of_not {c : Char} (hc : isBlank c = false) (s : CStr) :
    trimId (c :: s) = c :: s.rdropWhile isBlank := by
  rw [trimId, List.dropWhile_cons_of_neg (by rw [hc]; decide)]

/-- No more is left than there is. -/
theorem length_trimId_le (id : CStr) : (trimId id).length ≤ id.length := by
  induction id with
  | nil => exact le_rfl
  | cons c s ih =>
    cases hc : isBlank c with
    | true =>
      rw [trimId_cons_of_blank hc]
      exact ih.trans (Nat.le_succ _)
    | false =>
      rw [trimId_cons_of_not hc, List.length_cons, List.length_cons]
      exact Nat.succ_le_succ (List.rdropWhile_prefix _ s).length_le

/-- No blank at either end. -/
def NoBlankEnds (id : CStr) : Prop :=
  ∀ c, id.head? = some c ∨ id.getLast? = some c → isBlank c = false

/-- **Nothing is passed over exactly where no blank is at either end.** -/
theorem trimId_eq_self_iff {id : CStr} : trimId id = id ↔ NoBlankEnds id := by
  cases id with
  | nil => simp [NoBlankEnds]
  | cons c s =>
    cases hc : isBlank c with
    | true =>
      refine iff_of_false (fun heq => ?_) (fun hends => ?_)
      · have hlen := length_trimId_le s
        rw [← trimId_cons_of_blank hc, heq, List.length_cons] at hlen
        exact absurd hlen (by omega)
      · exact absurd (hends c (Or.inl rfl)) (by rw [hc]; decide)
    | false =>
      rw [trimId_cons_of_not hc, List.cons_inj_right, List.rdropWhile_eq_self_iff]
      constructor
      · rintro hlast d (hhead | hd)
        · rw [← Option.some.inj hhead, hc]
        · rcases List.eq_nil_or_concat' s with rfl | ⟨t, e, rfl⟩
          · have heq : c = d := Option.some.inj hd
            rw [← heq, hc]
          · rw [← List.cons_append, List.getLast?_concat] at hd
            have := hlast (by simp)
            rw [List.getLast_concat, Option.some.inj hd] at this
            exact Bool.eq_false_of_not_eq_true this
      · intro hends hne
        have hlast : (c :: s).getLast? = some (s.getLast hne) := by
          rw [List.getLast?_cons_of_ne_nil hne, List.getLast?_eq_some_getLast hne]
        rw [hends _ (Or.inr hlast)]
        decide

/-! ## What is found -/

/-- **When a key denotes the last of the containers**: no other has it as its
identifier, and the last one has, or it is the number of a pid that the last one
has and no other. -/
theorem ContainerManager.resolve_concat_eq_length_iff {l : List ContainerInfo}
    {info : ContainerInfo} {key : CStr} :
    resolve (l ++ [info]) key = some l.length ↔
      key ∉ l.map ContainerInfo.id ∧ (info.id = key ∨
        ((strtol key).2 = [] ∧ (strtol key).1 > 0) ∧
          wrap32 (strtol key).1 = info.pid ∧ ∀ c ∈ l, c.pid ≠ info.pid) := by
  have hids : (∀ c ∈ l, decide (c.id = key) = false) ↔ key ∉ l.map ContainerInfo.id := by
    simp [List.mem_map]
  have hid : (l ++ [info]).findIdx? (fun c => decide (c.id = key)) = some l.length ↔
      key ∉ l.map ContainerInfo.id ∧ info.id = key := by
    rw [findIdx?_concat_eq_length_iff, hids, decide_eq_true_iff]
  unfold resolve
  cases hfind : (l ++ [info]).findIdx? (fun c => decide (c.id = key)) with
  | some i =>
    rw [hfind] at hid
    -- one of the containers has the identifier; if no other, the last one
    have hlast : key ∉ l.map ContainerInfo.id → info.id = key := by
      intro hnew
      obtain ⟨hi, heq, -⟩ := List.findIdx?_eq_some_iff_getElem.mp hfind
      rcases List.mem_append.mp (List.getElem_mem hi) with hmem | hmem
      · exact absurd (List.mem_map.mpr ⟨_, hmem, of_decide_eq_true heq⟩) hnew
      · rw [← List.mem_singleton.mp hmem, of_decide_eq_true heq]
    exact hid.trans (and_congr_right fun hnew => ⟨Or.inl, fun _ => hlast hnew⟩)
  | none =>
    rw [List.findIdx?_eq_none_iff] at hfind
    have hnew : key ∉ l.map ContainerInfo.id :=
      hids.mp (fun c hc => hfind c (List.mem_append_left _ hc))
    have hne : info.id ≠ key :=
      of_decide_eq_false (hfind info (List.mem_append_right _ (List.mem_singleton_self _)))
    rw [and_iff_right hnew, or_iff_right hne]
    dsimp only
    split
    · next hnumber =>
      rw [and_iff_right hnumber, findIdx?_concat_eq_length_iff, decide_eq_true_iff, and_comm]
      constructor
      · rintro ⟨hpid, hnone⟩
        exact ⟨hpid.symm, fun c hc heq => of_decide_eq_false (hnone c hc) (heq.trans hpid)⟩
      · rintro ⟨hpid, hnone⟩
        exact ⟨hpid.symm, fun c hc => decide_eq_false (fun heq => hnone c hc (heq.trans hpid))⟩
    · next hnumber => exact iff_of_false (fun h => nomatch h) (fun h => hnumber h.1)

/-! ## A container named at the prompt -/

/-- Typing a line at a prompt of the menu gives a key of the container at an
index. -/
def ContainerManager.Addresses (cm : ContainerManager) (line : CStr) (i : ℕ) : Prop :=
  ∀ rest, ∃ key, menuKey (line ++ '\n' :: rest) = some key ∧ cm.getInfo key = some i

/-- A key that is no identifier, but the number of a pid no container has. -/
structure ContainerManager.NewPid (cm : ContainerManager) (key : CStr) (pid : ℤ) : Prop where
  new : key ∉ cm.ids
  number : (strtol key).2 = [] ∧ (strtol key).1 > 0
  eq_pid : wrap32 (strtol key).1 = pid
  pid_new : ∀ c ∈ cm.entries, c.pid ≠ pid

section

variable {env : Env} {config config₀ : ContainerConfig} {w w' : World} {line rest : CStr}

/-- A `run` that is not refused has appended its container, which has the pid
`clone` returned. -/
theorem containerManagerRun_ok (hw : w.cm.WF)
    (h : containerManagerRun env config w = some (w', .ok ())) :
    w'.cm.WF ∧ createdId w.cm.entries config ∉ w.cm.ids ∧
      ∃ info, w'.cm.entries = w.cm.entries ++ [info] ∧
        info.id = createdId w.cm.entries config ∧ info.pid = env.clone := by
  have hspec := containerManagerRun_spec hw h
  have heffect := hspec.effect
  generalize hl' : w'.cm.entries = l' at heffect
  cases heffect with
  | ran hfresh hsaved => exact ⟨hspec.wf, hfresh, _, rfl, rfl, rfl⟩

/-- The name that is typed at the prompt is the identifier, unless there is
none. -/
theorem id_of_interactiveConfig {strdup : Bool} (hline : '\n' ∉ line)
    (hlen : line.length ≤ 254)
    (h : interactiveConfig strdup config₀ (readAnswers (line ++ '\n' :: rest)) = some config) :
    config.id = if cstring line ≠ [] then some (cstring line) else none := by
  have hname : (readAnswers (line ++ '\n' :: rest)).containerName.map chomp = some (cstring line) :=
    chomp_promptLine_cstring hline (by omega) (by omega) rest
  unfold interactiveConfig at h
  split at h
  · cases h
  · dsimp only at h
    rw [hname] at h
    split at h
    · cases h
      rfl
    · cases h

/-- **When a container named at the prompt can be addressed at the menu**: for
every line that is typed at both, and every registry. The line has no blank at
either end; or what is left of it is the number of the pid the container got, and
denotes no other. -/
theorem addresses_iff {strdup : Bool} (hw : w.cm.WF) (hline : '\n' ∉ line)
    (hlen : line.length ≤ 254)
    (hconfig : interactiveConfig strdup config₀ (readAnswers (line ++ '\n' :: rest))
      = some config)
    (hrun : containerManagerRun env config w = some (w', .ok ())) :
    w'.cm.Addresses line w.cm.entries.length ↔
      cstring line ≠ [] ∧ (NoBlankEnds (cstring line) ∨
        w.cm.NewPid (trimId (cstring line)) env.clone) := by
  obtain ⟨hwf, hfresh, info, hentries, hinfo, hpid⟩ := containerManagerRun_ok hw hrun
  rw [createdId, id_of_interactiveConfig hline hlen hconfig] at hfresh hinfo
  by_cases hname : cstring line = []
  · refine iff_of_false (fun h => ?_) (fun h => h.1 hname)
    obtain ⟨key, hkey, -⟩ := h []
    rw [menuKey_line hline hlen, hname] at hkey
    cases hkey
  rw [if_pos hname, Option.getD_some] at hfresh hinfo
  rw [and_iff_right hname, ← trimId_eq_self_iff]
  by_cases hleft : trimId (cstring line) = []
  · -- nothing is left of a name of blanks
    refine iff_of_false (fun h => ?_) (fun h => ?_)
    · obtain ⟨key, hkey, -⟩ := h []
      rw [menuKey_line hline hlen, hleft] at hkey
      cases hkey
    · rw [hleft] at h
      rcases h with heq | hnew
      · exact hname heq.symm
      · exact absurd hnew.number.2 (by decide)
  have haddresses : w'.cm.Addresses line w.cm.entries.length ↔
      w'.cm.getInfo (trimId (cstring line)) = some w.cm.entries.length := by
    simp only [ContainerManager.Addresses, menuKey_line hline hlen, if_pos hleft,
      Option.some.injEq, exists_eq_left', forall_const]
  rw [haddresses, ContainerManager.getInfo_eq hwf, hentries,
    ContainerManager.resolve_concat_eq_length_iff, hinfo, hpid]
  constructor
  · rintro ⟨hnew, heq | ⟨hnumber, heq, hnone⟩⟩
    · exact Or.inl heq.symm
    · exact Or.inr ⟨hnew, hnumber, heq, hnone⟩
  · rintro (heq | hpid)
    · rw [heq]
      exact ⟨hfresh, Or.inl rfl⟩
    · exact ⟨hpid.new, Or.inr ⟨hpid.number, hpid.eq_pid, hpid.pid_new⟩⟩

end

/-- A name that is typed at the prompt, with a command. -/
def namedConfig (line : CStr) : ContainerConfig :=
  (interactiveConfig true (.plain none [])
    (readAnswers (line ++ '\n' :: "sh\n\n\n\n".toList))).getD (.plain none [])

/-- The container is run. -/
def World.typed (line : CStr) : World :=
  (World.empty 1).after (.willing 42 100, .run (namedConfig line))

/-- A name without blanks denotes its container. -/
theorem addresses_iff_web : (World.typed "web".toList).cm.Addresses "web".toList 0 := by
  have hconfig : interactiveConfig true (.plain none [])
      (readAnswers ("web".toList ++ '\n' :: "sh\n\n\n\n".toList))
      = some (namedConfig "web".toList) := rfl
  have hrun : containerManagerRun (.willing 42 100) (namedConfig "web".toList) (World.empty 1)
      = some (World.typed "web".toList, .ok ()) := rfl
  have h := addresses_iff started_empty.reachable.sound.wf (by decide) (by decide) hconfig hrun
  exact h.mpr ⟨by decide, Or.inl (trimId_eq_self_iff.mp (by decide))⟩

/-- **Names with blanks at their ends do not**: no container has what is left of
the one, and nothing is left of the other. -/
theorem padded_not_addressed :
    (interactiveConfig true (.plain none [])
        (readAnswers (" web".toList ++ '\n' :: "sh\n\n\n\n".toList))
          = some (namedConfig " web".toList) ∧
      containerManagerRun (.willing 42 100) (namedConfig " web".toList) (World.empty 1)
        = some (World.typed " web".toList, .ok ()) ∧
      (World.typed " web".toList).cm.ids = [" web".toList] ∧
      ¬ (World.typed " web".toList).cm.Addresses " web".toList 0) ∧
    (interactiveConfig true (.plain none [])
        (readAnswers ("  ".toList ++ '\n' :: "sh\n\n\n\n".toList))
          = some (namedConfig "  ".toList) ∧
      containerManagerRun (.willing 42 100) (namedConfig "  ".toList) (World.empty 1)
        = some (World.typed "  ".toList, .ok ()) ∧
      (World.typed "  ".toList).cm.ids = ["  ".toList] ∧
      ¬ (World.typed "  ".toList).cm.Addresses "  ".toList 0) := by
  refine ⟨⟨rfl, rfl, by decide, fun h => ?_⟩, rfl, rfl, by decide, fun h => ?_⟩
  · obtain ⟨key, hkey, hget⟩ := h []
    have hleft : menuKey (" web".toList ++ ['\n']) = some "web".toList := by decide
    rw [hleft] at hkey
    cases hkey
    exact absurd hget (by decide)
  · obtain ⟨key, hkey, -⟩ := h []
    have hleft : menuKey ("  ".toList ++ ['\n']) = none := by decide
    rw [hleft] at hkey
    cases hkey
