import MiniContainer.CpuAccounting
import MiniContainer.Json
import MiniContainer.Keys

/-!
# The list of containers as it is served

`getContainerListJSON` puts a text together: an object with an array in it, and
in that an object for each container that is not destroyed. The identifier of
the container goes between two quotes as it is. `create` takes any identifier,
and one with a quote, a backslash or a control character in it, or one that is
not UTF-8, is not what a reader of the text finds there.

`serves_iff` says that the text has the containers in it exactly if no
identifier is of that kind. For the one direction the text is what a value is
written as, and that is read back; for the other the parser is followed up to
the first identifier with such a character.
-/

open CText Utf8 Json

/-! ## The text -/

/-- The state as the list names it. -/
def stateStr (state : ContainerState) : CStr := safeStateName state

/-- The quota of a container, where its share of it was computed. -/
def cpuLimit (figures : Figures) : ℕ :=
  match figures.diff with
  | some diff =>
    if diff.timeDiff > 0 ∧ diff.cpuDiff > 0 ∧ figures.quotaUs > 0 ∧ figures.periodUs > 0 then
      figures.quotaUs
    else 0
  | none => 0

/-- The percentages, computed in floating point, as `std::to_string` writes them:
in millionths. -/
structure Percentages where
  cpu : ℕ
  memory : ℕ

section

variable (percentages : Figures → Percentages)

/-- What is appended for a running container. -/
def figuresText (figures : Figures) : CStr :=
  ",\"cpu_usage\":".toList ++ printDecimal figures.cpuUsage ++
  ",\"cpu_limit\":".toList ++ printDecimal (cpuLimit figures) ++
  ",\"cpu_percent\":".toList ++ printNumber (percentages figures).cpu 6 ++
  ",\"memory_usage\":".toList ++ printDecimal figures.memoryUsage ++
  ",\"memory_limit\":".toList ++ printDecimal figures.memoryLimit ++
  ",\"memory_percent\":".toList ++ printNumber (percentages figures).memory 6

/-- What is appended for a container. -/
def elementText (listed : Listed) : CStr :=
  "\x7b".toList ++
  "\"id\":\"".toList ++ listed.info.id ++ "\",".toList ++
  "\"pid\":".toList ++ printDecimal listed.info.pid ++ ",".toList ++
  "\"state\":\"".toList ++ stateStr listed.info.state ++ "\"".toList ++
  (match listed.figures with
    | some figures => figuresText percentages figures
    | none => []) ++
  "\x7d".toList

/-- The text for a list. -/
def listText (list : List Listed) : CStr :=
  "\x7b\"containers\":[".toList ++
  [','].intercalate (list.map (elementText percentages)) ++
  "]\x7d".toList

/-- **`getContainerListJSON`**, or `none` where an exception leaves it. -/
def getContainerListJSON (reads : CgroupReads) (now : ℤ) (cm : ContainerManager)
    (b : Baselines) : Option CStr :=
  let r := getContainerList reads now cm b
  if r.2.2 then some (listText percentages r.2.1) else none

/-! ## The value -/

/-- The members for a running container. -/
def figuresMembers (figures : Figures) : List (CStr × Value) :=
  [("cpu_usage".toList, .number figures.cpuUsage 0),
    ("cpu_limit".toList, .number (cpuLimit figures) 0),
    ("cpu_percent".toList, .number (percentages figures).cpu 6),
    ("memory_usage".toList, .number figures.memoryUsage 0),
    ("memory_limit".toList, .number figures.memoryLimit 0),
    ("memory_percent".toList, .number (percentages figures).memory 6)]

/-- The object for a container. -/
def elementValue (listed : Listed) : Value :=
  .object (("id".toList, .string listed.info.id) :: ("pid".toList, .number listed.info.pid 0) ::
    ("state".toList, .string (stateStr listed.info.state)) ::
    (match listed.figures with
      | some figures => figuresMembers percentages figures
      | none => []))

/-- The object for a list. -/
def listValue (list : List Listed) : Value :=
  .object [("containers".toList, .array (list.map (elementValue percentages)))]

end

/-- **An object is about a container**: each of its identifier, its pid and its
state is in the object once. -/
structure IsAbout (info : ContainerInfo) (v : Value) : Prop where
  id : v.under "id".toList = [.string info.id]
  pid : v.under "pid".toList = [.number info.pid 0]
  state : v.under "state".toList = [.string (stateStr info.state)]

/-- **A text serves a list of containers**: it is a JSON text, and the array it has
as `containers` has an object about each of them, in order. -/
def Serves (text : CStr) (containers : List ContainerInfo) : Prop :=
  ∃ v elements, Decodes text v ∧ v.under "containers".toList = [.array elements] ∧
    List.Forall₂ IsAbout containers elements

/-- The containers that are listed. -/
def ContainerManager.active (cm : ContainerManager) : List ContainerInfo :=
  cm.entries.filter (fun c => c.state ≠ .destroyed)

/-- **An identifier that may stand between quotes as it is.** -/
structure Quotable (containerId : CStr) : Prop where
  plain : ∀ c ∈ containerId, Plain c
  utf8 : IsUtf8 containerId

section

variable {percentages : Figures → Percentages}

/-! ## Text without special characters -/

theorem stateStr_plain (state : ContainerState) :
    ∀ c ∈ stateStr state, Plain c ∧ IsAscii c := by
  have hall : ∀ name ∈ ["CREATED".toList, "RUNNING".toList, "STOPPED".toList, "DESTROYED".toList,
      "UNKNOWN".toList], ∀ c ∈ name, Plain c ∧ IsAscii c := by simp [Plain, IsAscii]
  refine hall _ ?_
  unfold stateStr safeStateName
  cases state <;> simp only [List.mem_cons, true_or, or_true]

theorem renderMembers_cons {name : CStr} (hname : ∀ c ∈ name, Plain c) (v : Value)
    (l : List (CStr × Value)) : renderMembers ((name, v) :: l)
      = ',' :: '"' :: (name ++ '"' :: ':' :: (render v ++ renderMembers l)) := by
  rw [renderMembers, quote_of_plain hname]
  simp

/-- The further members for a running container. -/
theorem renderMembers_figures (figures : Figures) :
    renderMembers (figuresMembers percentages figures)
      = figuresText percentages figures ++ "\x7d".toList := by
  have hall : ∀ name ∈ ["cpu_usage".toList, "cpu_limit".toList, "cpu_percent".toList,
      "memory_usage".toList, "memory_limit".toList, "memory_percent".toList],
      ∀ c ∈ name, Plain c := by simp [Plain]
  unfold figuresMembers figuresText
  rw [renderMembers_cons (hall _ (by simp)), renderMembers_cons (hall _ (by simp)),
    renderMembers_cons (hall _ (by simp)), renderMembers_cons (hall _ (by simp)),
    renderMembers_cons (hall _ (by simp)), renderMembers_cons (hall _ (by simp))]
  simp [render, renderMembers, printNumber_zero]

/-- **The object for a container is written as its text**, where the identifier
needs no escapes. -/
theorem render_elementValue {listed : Listed} (h : ∀ c ∈ listed.info.id, Plain c) :
    render (elementValue percentages listed) = elementText percentages listed := by
  have hall : ∀ name ∈ ["id".toList, "pid".toList, "state".toList], ∀ c ∈ name, Plain c := by
    simp [Plain]
  unfold elementValue elementText
  rw [render, quote_of_plain (hall _ (by simp)), renderMembers_cons (hall _ (by simp)),
    renderMembers_cons (hall _ (by simp))]
  have hstate := quote_of_plain (fun c hc => (stateStr_plain listed.info.state c hc).1)
  simp only [render, quote_of_plain h, hstate, printNumber_zero]
  cases listed.figures with
  | none => simp [renderMembers]
  | some figures => simp [renderMembers_figures]

variable (percentages) in
/-- **The text for a list is what its value is written as.** -/
theorem render_listValue {list : List Listed} (h : ∀ l ∈ list, ∀ c ∈ l.info.id, Plain c) :
    render (listValue percentages list) = listText percentages list := by
  have hname : ∀ c ∈ "containers".toList, Plain c := by simp [Plain]
  have helements : (list.map (elementValue percentages)).map render
      = list.map (elementText percentages) := by
    rw [List.map_map]
    exact List.map_congr_left (fun l hl => render_elementValue (h l hl))
  unfold listValue listText
  rw [render, quote_of_plain hname, render_array, helements, renderMembers]
  simp

/-! ## The containers of a list -/

/-- **Where the loop comes to its end it has listed every container**, in order. -/
theorem listContainers_infos {reads : CgroupReads} {rm : ResourceManager} {now : ℤ}
    {l : List ContainerInfo} {b : Baselines}
    (h : (listContainers reads rm now l b).2.2 = true) :
    (listContainers reads rm now l b).2.1.map Listed.info = l := by
  induction l generalizing b with
  | nil => rfl
  | cons info rest ih =>
    unfold listContainers at h ⊢
    cases hone : listContainer reads rm now info b with
    | none =>
      rw [hone] at h
      cases h
    | some r =>
      rw [hone] at h
      have hinfo : r.2.info = info := by
        unfold listContainer at hone
        split at hone
        · obtain ⟨limits, -, rfl⟩ := Option.map_eq_some_iff.mp hone
          rfl
        · cases hone
          rfl
      dsimp only at h ⊢
      rw [List.map_cons, hinfo, ih h]

/-- What a text was put together from. -/
theorem getContainerListJSON_some {reads : CgroupReads} {now : ℤ} {cm : ContainerManager}
    {b : Baselines} {text : CStr}
    (h : getContainerListJSON percentages reads now cm b = some text) :
    ∃ list : List Listed, list.map Listed.info = cm.active ∧ text = listText percentages list := by
  unfold getContainerListJSON at h
  dsimp only at h
  split at h
  · next hend =>
    cases h
    exact ⟨_, listContainers_infos hend, rfl⟩
  · cases h

/-! ## The bytes of a text -/

theorem isAscii_printDecimal (n : ℤ) : ∀ c ∈ printDecimal n, IsAscii c := by
  intro c hc
  rcases mem_printDecimal hc with hdigit | rfl
  · exact isAscii_of_isDigit hdigit
  · decide

theorem isAscii_printNumber (m : ℤ) (k : ℕ) : ∀ c ∈ printNumber m k, IsAscii c := by
  unfold printNumber
  refine List.forall_mem_append.mpr ⟨?_, List.forall_mem_append.mpr ⟨?_, ?_⟩⟩
  · split
    · exact List.forall_mem_singleton.mpr (by decide)
    · exact fun _ hc => absurd hc List.not_mem_nil
  · exact fun c hc => isAscii_of_isDigit (isDigit_of_mem_toDigits hc)
  · split
    · exact fun _ hc => absurd hc List.not_mem_nil
    · exact List.forall_mem_cons.mpr
        ⟨by decide, fun c hc => isAscii_of_isDigit (isDigit_of_mem_lastDigits hc)⟩

theorem isAscii_figuresText (figures : Figures) :
    ∀ c ∈ figuresText percentages figures, IsAscii c := by
  have hall : ∀ name ∈ [",\"cpu_usage\":".toList, ",\"cpu_limit\":".toList,
      ",\"cpu_percent\":".toList, ",\"memory_usage\":".toList, ",\"memory_limit\":".toList,
      ",\"memory_percent\":".toList], ∀ c ∈ name, IsAscii c := by simp [IsAscii]
  unfold figuresText
  simp only [List.forall_mem_append]
  exact ⟨⟨⟨⟨⟨⟨⟨⟨⟨⟨⟨hall _ (by simp), isAscii_printDecimal _⟩, hall _ (by simp)⟩,
    isAscii_printDecimal _⟩, hall _ (by simp)⟩, isAscii_printNumber _ _⟩, hall _ (by simp)⟩,
    isAscii_printDecimal _⟩, hall _ (by simp)⟩, isAscii_printDecimal _⟩, hall _ (by simp)⟩,
    isAscii_printNumber _ _⟩

variable (percentages) in
/-- **The text for a container** around its identifier. -/
theorem elementText_eq (listed : Listed) :
    ∃ rest, (∀ c ∈ rest, IsAscii c) ∧
      elementText percentages listed = '{' :: '"' :: ("id".toList ++ '"' :: ':' :: '"' ::
        (listed.info.id ++ '"' :: ',' :: '"' :: 'p' :: rest)) := by
  refine ⟨"id\":".toList ++ printDecimal listed.info.pid ++ ",".toList ++
    "\"state\":\"".toList ++ stateStr listed.info.state ++ "\"".toList ++
    (match listed.figures with
      | some figures => figuresText percentages figures
      | none => []) ++ "\x7d".toList, ?_, ?_⟩
  · have hall : ∀ name ∈ ["id\":".toList, ",".toList, "\"state\":\"".toList, "\"".toList,
        "\x7d".toList], ∀ c ∈ name, IsAscii c := by simp [IsAscii]
    have hfigures : ∀ c ∈ (match listed.figures with
        | some figures => figuresText percentages figures
        | none => []), IsAscii c := by
      split
      · exact isAscii_figuresText _
      · exact fun _ hc => absurd hc List.not_mem_nil
    have hstate : ∀ c ∈ stateStr listed.info.state, IsAscii c :=
      fun c hc => (stateStr_plain _ c hc).2
    simp only [List.forall_mem_append]
    exact ⟨⟨⟨⟨⟨⟨⟨hall _ (by simp), isAscii_printDecimal _⟩, hall _ (by simp)⟩, hall _ (by simp)⟩,
      hstate⟩, hall _ (by simp)⟩, hfigures⟩, hall _ (by simp)⟩
  · unfold elementText
    simp only [List.append_assoc]
    rfl

variable (percentages) in
/-- **A text is UTF-8 exactly if the identifiers are.** -/
theorem isUtf8_listText (list : List Listed) :
    IsUtf8 (listText percentages list) ↔ ∀ l ∈ list, IsUtf8 l.info.id := by
  have helement : ∀ l : Listed, IsUtf8 (elementText percentages l) ↔ IsUtf8 l.info.id := by
    intro l
    obtain ⟨rest, hrest, heq⟩ := elementText_eq percentages l
    have hstart : IsUtf8 ('{' :: '"' :: ("id".toList ++ ['"', ':'])) :=
      isUtf8_of_ascii (by simp [IsAscii])
    have hend : IsUtf8 (',' :: '"' :: 'p' :: rest) := by
      refine isUtf8_of_ascii ?_
      simp only [List.forall_mem_cons]
      exact ⟨by decide, by decide, by decide, hrest⟩
    have hsplit : elementText percentages l = ('{' :: '"' :: ("id".toList ++ ['"', ':'])) ++
        '"' :: (l.info.id ++ '"' :: (',' :: '"' :: 'p' :: rest)) := heq
    rw [hsplit, isUtf8_append_cons (by decide), isUtf8_append_cons (by decide),
      and_iff_right hstart, and_iff_left hend]
  have hsplit : listText percentages list = "\x7b\"containers\":".toList ++ '[' ::
      ([','].intercalate (list.map (elementText percentages)) ++ ']' :: "\x7d".toList) := by
    unfold listText
    simp only [List.append_assoc]
    rfl
  have hstart : IsUtf8 "\x7b\"containers\":".toList := isUtf8_of_ascii (by simp [IsAscii])
  have hend : IsUtf8 "\x7d".toList := isUtf8_of_ascii (by simp [IsAscii])
  rw [hsplit, isUtf8_append_cons (by decide), isUtf8_append_cons (by decide),
    and_iff_right hstart, and_iff_left hend, isUtf8_intercalate (by decide), List.forall_mem_map]
  exact forall₂_congr (fun l _ => helement l)

/-! ## Reading a text -/

/-- The object for a container is about it. -/
theorem isAbout_elementValue (listed : Listed) :
    IsAbout listed.info (elementValue percentages listed) := by
  unfold elementValue
  constructor <;> cases listed.figures <;> simp [Value.under, figuresMembers]

/-- The first member of an object about a container, if it is the identifier. -/
theorem IsAbout.eq_of_cons {info : ContainerInfo} {v : Value} {l : List (CStr × Value)}
    (h : IsAbout info (.object (("id".toList, v) :: l))) : v = .string info.id := by
  have hid := h.id
  rw [Value.under, List.filter_cons_of_pos (by simp), List.map_cons] at hid
  exact (List.cons.inj hid).1

/-- **What is read of a container whose identifier has a special character** is not
about it. -/
theorem not_isAbout_of_special {listed : Listed} (hbad : ¬ ∀ c ∈ listed.info.id, Plain c)
    {n : ℕ} {t : CStr} {r : Value × CStr}
    (h : value n (elementText percentages listed ++ t) = some r) : ¬ IsAbout listed.info r.1 := by
  obtain ⟨rest, -, heq⟩ := elementText_eq percentages listed
  have hid : ∀ c ∈ "id".toList, Plain c := by simp [Plain]
  have htext : elementText percentages listed ++ t = '{' :: '"' :: ("id".toList ++ '"' :: ':' ::
      '"' :: (listed.info.id ++ '"' :: ',' :: '"' :: ('p' :: rest ++ t))) := by
    rw [heq]
    simp
  rw [htext] at h
  cases n with
  | zero => cases h
  | succ n =>
    obtain ⟨l, hl, hr⟩ := value_object h
    cases n with
    | zero => cases hl
    | succ n =>
      obtain ⟨name, s₁, s₂, v, s₃, l', hname, hs₁, hv, rfl, hend⟩ := members_eq_some hl
      rw [string_of_plain hid] at hname
      cases hname
      rw [skipBlanks_cons (by decide)] at hs₁
      cases hs₁
      rw [skipBlanks_cons (by decide)] at hv
      cases n with
      | zero => cases hv
      | succ n =>
        rw [value, if_pos rfl] at hv
        obtain ⟨⟨content, s₄⟩, hcontent, hv⟩ := Option.map_eq_some_iff.mp hv
        cases hv
        rcases string_of_special hbad hcontent with hne | rfl
        · intro habout
          rw [hr] at habout
          cases habout.eq_of_cons
          exact hne rfl
        · -- what follows the string is neither a comma nor a brace
          rw [List.cons_append, skipBlanks_cons (by decide), List.head?_cons] at hend
          rcases hend with hend | hend <;> exact absurd (Option.some.inj hend) (by decide)

/-- The first of texts with commas between them. -/
theorem intercalate_cons (s : CStr) (l : List CStr) :
    [','].intercalate (s :: l) = s ++ if l = [] then [] else ',' :: [','].intercalate l := by
  cases l with
  | nil => simp
  | cons t l =>
    rw [List.intercalate_cons_cons, if_neg (List.cons_ne_nil _ _), List.append_assoc]
    rfl

variable (percentages) in
/-- Nothing is passed over in front of the text for a container. -/
theorem skipBlanks_elementText (listed : Listed) (s : CStr) :
    skipBlanks (elementText percentages listed ++ s) = elementText percentages listed ++ s ∧
      (elementText percentages listed ++ s).head? = some '{' := by
  obtain ⟨rest, -, heq⟩ := elementText_eq percentages listed
  rw [heq]
  exact ⟨skipBlanks_cons (by decide) _, rfl⟩

/-- **What is read of a list in which an identifier has a special character** is not
the list. -/
theorem not_forall₂_of_special {list : List Listed}
    (hbad : ¬ ∀ l ∈ list, ∀ c ∈ l.info.id, Plain c) {n : ℕ} {t : CStr}
    {r : List Value × CStr}
    (hn : ([','].intercalate (list.map (elementText percentages))).length < n)
    (h : elements n ([','].intercalate (list.map (elementText percentages)) ++ ']' :: t)
      = some r) : ¬ List.Forall₂ IsAbout (list.map Listed.info) r.1 := by
  induction list generalizing n r with
  | nil => exact absurd (fun _ hl => absurd hl List.not_mem_nil) hbad
  | cons l list ih =>
    obtain ⟨n, rfl⟩ : ∃ m, n = m + 1 := ⟨n - 1, by omega⟩
    obtain ⟨v, s, es, hv, hr, hnext⟩ := elements_eq_some h
    rw [List.map_cons, intercalate_cons, List.append_assoc] at hv
    rw [hr, List.map_cons]
    intro hall
    obtain ⟨habout, hrest⟩ := List.forall₂_cons.mp hall
    by_cases hplain : ∀ c ∈ l.info.id, Plain c
    · -- the first element is read back, so the character is in one behind it
      have hbad' : ¬ ∀ l ∈ list, ∀ c ∈ l.info.id, Plain c :=
        fun h => hbad (List.forall_mem_cons.mpr ⟨hplain, h⟩)
      cases list with
      | nil => exact hbad' (fun _ hl => absurd hl List.not_mem_nil)
      | cons l' list =>
        have hne : (l' :: list).map (elementText percentages) ≠ [] := List.cons_ne_nil _ _
        rw [List.map_cons, intercalate_cons, if_neg hne, List.length_append, List.length_cons] at hn
        have hends : Ends (',' :: ([','].intercalate ((l' :: list).map (elementText percentages)) ++
            ']' :: t)) := fun c hc => Or.inl (Option.some.inj hc).symm
        rw [if_neg hne, List.cons_append, ← render_elementValue hplain,
          value_render _ _ _ (by rw [render_elementValue hplain]; omega) hends] at hv
        cases hv
        have hes := hnext _ (skipBlanks_cons (by decide) _)
        have hskip : skipBlanks ([','].intercalate ((l' :: list).map (elementText percentages)) ++
            ']' :: t) = [','].intercalate ((l' :: list).map (elementText percentages)) ++
            ']' :: t := by
          rw [List.map_cons, intercalate_cons, List.append_assoc]
          exact (skipBlanks_elementText percentages l' _).1
        rw [hskip] at hes
        exact ih hbad' (by omega) hes hrest
    · exact not_isAbout_of_special hplain hv habout

/-- **What is read of a text in which an identifier has a special character** is not
the list. -/
theorem not_serves_of_special {list : List Listed}
    (hbad : ¬ ∀ l ∈ list, ∀ c ∈ l.info.id, Plain c) :
    ¬ Serves (listText percentages list) (list.map Listed.info) := by
  rintro ⟨v, es, ⟨-, hparse⟩, hunder, hall⟩
  have hname : ∀ c ∈ "containers".toList, Plain c := by simp [Plain]
  have htext : listText percentages list = '{' :: '"' :: ("containers".toList ++ '"' :: ':' ::
      '[' :: ([','].intercalate (list.map (elementText percentages)) ++ ']' :: ['}'])) := by
    unfold listText
    simp only [List.append_assoc]
    rfl
  have hlen : (listText percentages list).length
      = ([','].intercalate (list.map (elementText percentages))).length + 17 := by
    rw [htext]
    simp
  have hskip : skipBlanks ([','].intercalate (list.map (elementText percentages)) ++ ']' :: ['}'])
        = [','].intercalate (list.map (elementText percentages)) ++ ']' :: ['}'] ∧
      ([','].intercalate (list.map (elementText percentages)) ++ ']' :: ['}']).head?
        ≠ some ']' := by
    cases list with
    | nil => exact absurd (fun _ hl => absurd hl List.not_mem_nil) hbad
    | cons l list =>
      rw [List.map_cons, intercalate_cons, List.append_assoc]
      obtain ⟨hskip, hhead⟩ := skipBlanks_elementText percentages l _
      exact ⟨hskip, by rw [hhead]; decide⟩
  unfold parse at hparse
  rw [hlen, htext, skipBlanks_cons (by decide)] at hparse
  split at hparse
  · next v' s hvalue =>
    split at hparse
    · cases hparse
      obtain ⟨l, hl, rfl⟩ := value_object hvalue
      obtain ⟨name, s₁, s₂, w, s₃, l', hstring, hs₁, hw, rfl, -⟩ := members_eq_some hl
      rw [string_of_plain hname] at hstring
      cases hstring
      rw [skipBlanks_cons (by decide)] at hs₁
      cases hs₁
      rw [skipBlanks_cons (by decide)] at hw
      obtain ⟨es', hes', rfl⟩ := value_array hskip.1 hskip.2 hw
      rw [Value.under, List.filter_cons_of_pos (by simp), List.map_cons] at hunder
      obtain ⟨harray, -⟩ := List.cons.inj hunder
      cases harray
      exact not_forall₂_of_special hbad (by omega) hes' hall
    · cases hparse
  · cases hparse

/-- **When the list that is served has the containers in it.** For whatever
registry, readings of the control groups and usage so far: where a text is
returned, it is a JSON text with an object about each container that is not
destroyed, in order, exactly if all their identifiers may stand between quotes
as they are. -/
theorem serves_iff {reads : CgroupReads} {now : ℤ} {cm : ContainerManager} {b : Baselines}
    {text : CStr} (h : getContainerListJSON percentages reads now cm b = some text) :
    Serves text cm.active ↔ ∀ info ∈ cm.active, Quotable info.id := by
  obtain ⟨list, hlist, rfl⟩ := getContainerListJSON_some h
  rw [← hlist, List.forall_mem_map]
  constructor
  · intro hserves
    have hplain : ∀ l ∈ list, ∀ c ∈ l.info.id, Plain c := by
      by_contra hbad
      exact not_serves_of_special hbad hserves
    obtain ⟨-, -, ⟨hutf8, -⟩, -⟩ := hserves
    exact fun l hl => ⟨hplain l hl, (isUtf8_listText percentages list).mp hutf8 l hl⟩
  · intro hquotable
    have hrender := render_listValue percentages
      (fun l hl => (hquotable l hl).plain)
    have hutf8 := (isUtf8_listText percentages list).mpr
      (fun l hl => (hquotable l hl).utf8)
    refine ⟨listValue percentages list, list.map (elementValue percentages), ⟨hutf8, ?_⟩, ?_, ?_⟩
    · rw [← hrender]
      exact parse_render _
    · simp [listValue, Value.under]
    · rw [List.forall₂_map_left_iff, List.forall₂_map_right_iff]
      exact List.forall₂_same.mpr (fun l _ => isAbout_elementValue l)

end

/-! ## An identifier with a quote in it -/

/-- The share of its memory that a container takes, and none of the processor. -/
def Percentages.ofMemory (figures : Figures) : Percentages :=
  ⟨0, min 100000000 (100000000 * figures.memoryUsage / figures.memoryLimit)⟩

/-- A list with a running container in it. -/
theorem serves_iff_running :
    ∃ text, getContainerListJSON .ofMemory (shownOfOne 5000) 101 World.ranOne.cm .empty
        = some text ∧ Serves text World.ranOne.cm.active := by
  have hsome : getContainerListJSON .ofMemory (shownOfOne 5000) 101 World.ranOne.cm .empty
      = some (listText .ofMemory
          (getContainerList (shownOfOne 5000) 101 World.ranOne.cm .empty).2.1) := by
    unfold getContainerListJSON
    exact if_pos (by decide)
  refine ⟨_, hsome, (serves_iff hsome).mpr ?_⟩
  intro info hmem
  obtain rfl := List.mem_singleton.mp hmem
  have hone : Quotable ['1'] := ⟨by simp [Plain], isUtf8_of_ascii (by simp [IsAscii])⟩
  exact hone

/-- A process in which a container was created under an identifier with a quote. -/
def World.quotedOne : World :=
  (World.empty 1).after
    (.willing 42 100, .create (.plain (some "a\"b".toList) ["sh".toList]))

/-- **The identifier ends where its quote is**, and the text is not JSON. -/
theorem quote_ends_identifier :
    let text := "\x7b\"containers\":[\x7b\"id\":\"a\"b\",\"pid\":0,".toList ++
      "\"state\":\"CREATED\"\x7d]\x7d".toList
    World.quotedOne.Reachable ∧
      World.quotedOne.cm.active.map ContainerInfo.id = ["a\"b".toList] ∧
      getContainerListJSON .ofMemory (shownOfOne 0) 101 World.quotedOne.cm .empty = some text ∧
      parse text = none ∧ ¬ Serves text World.quotedOne.cm.active := by
  intro text
  have hparse : parse text = none := by decide +kernel
  refine ⟨started_empty.reachable.after rfl, rfl, rfl, hparse, ?_⟩
  rintro ⟨v, -, ⟨-, h⟩, -⟩
  rw [hparse] at h
  cases h
