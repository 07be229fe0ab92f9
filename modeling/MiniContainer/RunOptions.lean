import MiniContainer.Lifecycle
import MiniContainer.Getopt

/-!
# The command line of `run`

`run` takes options, then a command with its arguments. `parseRunOptions`
reads them with `getopt_long`, which goes on looking for options behind the
command: a word of the command that starts with a dash is an option of
`run`, or an error.

`Spelled` lists the ways to write a sequence of options, and `Settings` is
what the options mean. The theorem is `run_command_line_iff`: for a command
line of options, a command and its arguments, what is parsed is that command
with those arguments, under the settings of those options, exactly if no
argument starts with a dash, a single dash apart.
-/

open CText Getopt

/-- `long_options` and the option string of `parse_run_options`. -/
def runOptions : Options where
  optstring := "hm:c:r:d".toList
  longOptions := [("help".toList, false, 'h'), ("memory".toList, true, 'm'),
    ("cpu".toList, true, 'c'), ("root".toList, true, 'r'), ("detach".toList, false, 'd')]

/-- `atoi(optarg) * 1024 * 1024`, computed in `int` and stored in an
`unsigned long`. -/
def memoryBytes (optarg : CStr) : ℕ :=
  (wrap32 (wrap32 (atoi optarg * 1024) * 1024) % 2 ^ 64).toNat

/-- The `switch` of `parse_run_options`: `help`, an error and a failing
`strdup` end it with `-1`. -/
def applyEvent (strdup : Bool) (s : ContainerConfig × Bool) :
    Event → Option (ContainerConfig × Bool)
  | .opt 'm' (some optarg) =>
    some ({ s.1 with
      resLimits := { s.1.resLimits with
        memory := { s.1.resLimits.memory with limitBytes := memoryBytes optarg } } }, s.2)
  | .opt 'c' (some optarg) =>
    some ({ s.1 with
      resLimits := { s.1.resLimits with
        cpu := { s.1.resLimits.cpu with shares := atoi optarg } } }, s.2)
  | .opt 'r' (some optarg) =>
    if strdup then
      some ({ s.1 with fsConfig := { s.1.fsConfig with rootPath := some optarg } }, s.2)
    else none
  | .opt 'd' none => some (s.1, true)
  -- `h` and `?`: the usage is printed
  | _ => none

/-- The configuration `parse_run_options` starts from. What it does not set
is left as it is. -/
def startConfig (config : ContainerConfig) : ContainerConfig :=
  { config with
    id := none
    nsConfig := namespaceConfigInit
    resLimits := resourceLimitsInit
    fsConfig := fsConfigInit }

/-- `parse_run_options` behind its loop: the operands are the command, and
the root is `/` where none was given. -/
def finishOptions (strdup : Bool) (operands : List CStr) (s : ContainerConfig × Bool) :
    Option (ContainerConfig × Bool) :=
  if operands = [] then none
  else
    let config := { s.1 with
      command := some (operands.map some)
      commandArgc := operands.length }
    if s.1.fsConfig.rootPath = none then
      if strdup then
        some ({ config with fsConfig := { config.fsConfig with rootPath := some ['/'] } }, s.2)
      else none
    else some (config, s.2)

/-- **`parse_run_options`** on the words behind `argv[0]`: the configuration
and the detach flag, or `none` for its `-1`. -/
def parseRunOptions (strdup : Bool) (words : List CStr) (config : ContainerConfig) :
    Option (ContainerConfig × Bool) :=
  ((getoptLong runOptions words).1.foldlM (applyEvent strdup) (startConfig config, false)).bind
    (finishOptions strdup (getoptLong runOptions words).2)

/-! ## Options as they are written -/

/-- An option with a value. -/
inductive ValueOption
  | memory
  | cpu
  | root
  deriving DecidableEq, Repr

/-- Its letter. -/
def ValueOption.letter : ValueOption → Char
  | memory => 'm'
  | cpu => 'c'
  | root => 'r'

/-- Its long form. -/
def ValueOption.name : ValueOption → CStr
  | memory => "memory".toList
  | cpu => "cpu".toList
  | root => "root".toList

/-- An option of `run`. -/
inductive RunOption
  | value (o : ValueOption) (arg : CStr)
  | detach
  deriving DecidableEq, Repr

/-- **The ways to write a sequence of options.** Letters that take no value
can share a word, also with one that does; a value is in the word or is the
next word; a long form can be cut short. -/
inductive Spelled : List RunOption → List CStr → Prop
  | nil : Spelled [] []
  /-- `-d`, `-dd`, … -/
  | detach (n : ℕ) {os : List RunOption} {words : List CStr} (h : Spelled os words) :
      Spelled (List.replicate (n + 1) .detach ++ os)
        (('-' :: List.replicate (n + 1) 'd') :: words)
  /-- `-m 256`, `-dm 256`, … -/
  | separate (n : ℕ) (o : ValueOption) (arg : CStr) {os : List RunOption} {words : List CStr}
      (h : Spelled os words) :
      Spelled (List.replicate n .detach ++ .value o arg :: os)
        (('-' :: (List.replicate n 'd' ++ [o.letter])) :: arg :: words)
  /-- `-m256`, `-dm256`, … -/
  | attached (n : ℕ) (o : ValueOption) {arg : CStr} (harg : arg ≠ []) {os : List RunOption}
      {words : List CStr} (h : Spelled os words) :
      Spelled (List.replicate n .detach ++ .value o arg :: os)
        (('-' :: (List.replicate n 'd' ++ o.letter :: arg)) :: words)
  /-- `--detach`, `--det`, … -/
  | longDetach {name : CStr} (hne : name ≠ []) (hname : name <+: "detach".toList)
      {os : List RunOption} {words : List CStr} (h : Spelled os words) :
      Spelled (.detach :: os) (('-' :: '-' :: name) :: words)
  /-- `--memory 256`, `--mem 256`, … -/
  | longSeparate (o : ValueOption) {name : CStr} (hne : name ≠ []) (hname : name <+: o.name)
      (arg : CStr) {os : List RunOption} {words : List CStr} (h : Spelled os words) :
      Spelled (.value o arg :: os) (('-' :: '-' :: name) :: arg :: words)
  /-- `--memory=256`, `--mem=256`, … -/
  | longAttached (o : ValueOption) {name : CStr} (hne : name ≠ []) (hname : name <+: o.name)
      (arg : CStr) {os : List RunOption} {words : List CStr} (h : Spelled os words) :
      Spelled (.value o arg :: os) (('-' :: '-' :: (name ++ '=' :: arg)) :: words)

/-- **What options mean**: the later one counts. -/
structure Settings where
  memoryLimit : ℕ
  cpuShares : ℤ
  root : Option CStr
  detach : Bool
  deriving DecidableEq, Repr

/-- The settings without options. -/
def Settings.default : Settings := ⟨128 * 1024 * 1024, 1024, none, false⟩

/-- One more option. -/
def Settings.set (s : Settings) : RunOption → Settings
  | .value .memory arg => { s with memoryLimit := memoryBytes arg }
  | .value .cpu arg => { s with cpuShares := atoi arg }
  | .value .root arg => { s with root := some arg }
  | .detach => { s with detach := true }

/-- What `getopt_long` returns for an option. -/
def RunOption.event : RunOption → Event
  | .value o arg => .opt o.letter (some arg)
  | .detach => .opt 'd' none

/-- A configuration and a detach flag under settings. -/
def Settings.apply (s : Settings) (config : ContainerConfig) : ContainerConfig × Bool :=
  ({ config with
      resLimits := { config.resLimits with
        memory := { config.resLimits.memory with limitBytes := s.memoryLimit }
        cpu := { config.resLimits.cpu with shares := s.cpuShares } }
      fsConfig := { config.fsConfig with rootPath := s.root } }, s.detach)

section

variable {os : List RunOption} {opts words : List CStr}

/-! ## Reading them back -/

/-- Letters that take no value, and what comes behind them in the word. -/
theorem readShort_detach (n : ℕ) (s : CStr) :
    readShort runOptions (List.replicate n 'd' ++ s)
      = ⟨List.replicate n (.opt 'd' none) ++ (readShort runOptions s).events,
        (readShort runOptions s).awaits⟩ := by
  induction n with
  | zero => rfl
  | succ n ih =>
    have hd : shortOption runOptions 'd' = some false := by decide
    rw [List.replicate_succ, List.cons_append, readShort, hd, ih]
    rfl

theorem shortOption_letter (o : ValueOption) : shortOption runOptions o.letter = some true := by
  cases o <;> decide

theorem readShort_letter (o : ValueOption) :
    readShort runOptions [o.letter] = ⟨[], some o.letter⟩ := by
  rw [readShort, shortOption_letter]
  rfl

theorem readShort_attached (o : ValueOption) {arg : CStr} (harg : arg ≠ []) :
    readShort runOptions (o.letter :: arg) = ⟨[.opt o.letter (some arg)], none⟩ := by
  rw [readShort, shortOption_letter]
  exact if_neg harg

/-- A cut short long form of an option with a value means that option. -/
theorem longOption_name (o : ValueOption) {name : CStr} (hne : name ≠ [])
    (hname : name <+: o.name) : longOption runOptions name = some (true, o.letter) := by
  have hall : ∀ name ∈ o.name.inits, name ≠ [] →
      longOption runOptions name = some (true, o.letter) := by
    cases o <;> decide
  exact hall name ((List.mem_inits _ _).mpr hname) hne

theorem longOption_detach {name : CStr} (hne : name ≠ []) (hname : name <+: "detach".toList) :
    longOption runOptions name = some (false, 'd') := by
  have hall : ∀ name ∈ ("detach".toList).inits, name ≠ [] →
      longOption runOptions name = some (false, 'd') := by
    decide
  exact hall name ((List.mem_inits _ _).mpr hname) hne

/-- An equals sign is in no name of an option. -/
theorem not_mem_name (o : ValueOption) {name : CStr} (hname : name <+: o.name) : '=' ∉ name := by
  have hfull : '=' ∉ o.name := by
    cases o <;> decide
  exact fun hmem => hfull (hname.subset hmem)

theorem takeWhile_name {name s : CStr} (h : '=' ∉ name) (hs : s = [] ∨ s.head? = some '=') :
    (name ++ s).takeWhile (· ≠ '=') = name ∧ (name ++ s).dropWhile (· ≠ '=') = s := by
  have hall : ∀ c ∈ name, decide (c ≠ '=') = true :=
    fun c hc => decide_eq_true (fun he => h (he ▸ hc))
  have hend : s.takeWhile (· ≠ '=') = [] ∧ s.dropWhile (· ≠ '=') = s := by
    rcases hs with rfl | hs
    · exact ⟨rfl, rfl⟩
    · obtain ⟨t, rfl⟩ := List.head?_eq_some_iff.mp hs
      exact ⟨rfl, rfl⟩
  rw [List.takeWhile_append_of_pos hall, List.dropWhile_append_of_pos hall, hend.1, hend.2]
  exact ⟨List.append_nil _, rfl⟩

theorem readWord_short {s : CStr} (hne : s ≠ []) (hs : s.head? ≠ some '-') :
    readWord runOptions ('-' :: s) = .element (readShort runOptions s) := by
  obtain ⟨c, t, rfl⟩ := List.exists_cons_of_ne_nil hne
  have hc : c ≠ '-' := fun he => hs (congrArg some he)
  unfold readWord
  split <;> simp_all

theorem readWord_long {s : CStr} (hne : s ≠ []) :
    readWord runOptions ('-' :: '-' :: s) = .element (readLong runOptions s) := by
  obtain ⟨c, t, rfl⟩ := List.exists_cons_of_ne_nil hne
  rfl

theorem head?_short (n : ℕ) (o : ValueOption) (s : CStr) :
    (List.replicate n 'd' ++ o.letter :: s).head? ≠ some '-' := by
  cases n with
  | zero => cases o <;> exact fun h => absurd (Option.some.inj h) (by decide)
  | succ n => exact fun h => absurd (Option.some.inj h) (by decide)

/-- **Options that were written are read back**, whatever comes behind
them. -/
theorem getoptLong_spelled (h : Spelled os opts) (words : List CStr) :
    getoptLong runOptions (opts ++ words)
      = (os.map RunOption.event ++ (getoptLong runOptions words).1,
        (getoptLong runOptions words).2) := by
  induction h with
  | nil => rfl
  | detach n h ih =>
    have hword : readWord runOptions ('-' :: List.replicate (n + 1) 'd')
        = .element ⟨List.replicate (n + 1) (.opt 'd' none), none⟩ := by
      have hshort := readShort_detach (n + 1) []
      have hne : List.replicate (n + 1) 'd' ≠ [] := List.cons_ne_nil _ _
      have hhead : (List.replicate (n + 1) 'd').head? ≠ some '-' :=
        fun h => absurd (Option.some.inj h) (by decide)
      rw [List.append_nil] at hshort
      rw [readWord_short hne hhead, hshort]
      exact congrArg (fun l => Word.element ⟨l, none⟩) (List.append_nil _)
    rw [List.cons_append, getoptLong_complete hword, ih, List.map_append, List.map_replicate,
      List.append_assoc]
    rfl
  | separate n o arg h ih =>
    have hword : readWord runOptions ('-' :: (List.replicate n 'd' ++ [o.letter]))
        = .element ⟨List.replicate n (.opt 'd' none), some o.letter⟩ := by
      rw [readWord_short (by simp) (head?_short n o []), readShort_detach, readShort_letter,
        List.append_nil]
    rw [List.cons_append, List.cons_append, getoptLong_awaits hword, ih, List.map_append,
      List.map_replicate, List.map_cons, List.append_assoc]
    rfl
  | @attached n o arg harg _ _ h ih =>
    have hword : readWord runOptions ('-' :: (List.replicate n 'd' ++ o.letter :: arg))
        = .element ⟨List.replicate n (.opt 'd' none) ++ [.opt o.letter (some arg)], none⟩ := by
      rw [readWord_short (by simp) (head?_short n o arg), readShort_detach,
        readShort_attached o harg]
    rw [List.cons_append, getoptLong_complete hword, ih, List.map_append, List.map_replicate,
      List.map_cons, List.append_assoc, List.append_assoc]
    rfl
  | @longDetach name hne hname _ _ h ih =>
    have hmem : '=' ∉ name := fun hmem => absurd (hname.subset hmem) (by decide)
    obtain ⟨htake, hdrop⟩ := takeWhile_name (s := []) hmem (Or.inl rfl)
    rw [List.append_nil] at htake hdrop
    have hword : readWord runOptions ('-' :: '-' :: name) = .element ⟨[.opt 'd' none], none⟩ := by
      rw [readWord_long hne, readLong, htake, hdrop, longOption_detach hne hname]
    rw [List.cons_append, getoptLong_complete hword, ih, List.map_cons]
    rfl
  | @longSeparate o name hne hname arg _ _ h ih =>
    obtain ⟨htake, hdrop⟩ := takeWhile_name (s := []) (not_mem_name o hname) (Or.inl rfl)
    rw [List.append_nil] at htake hdrop
    have hword : readWord runOptions ('-' :: '-' :: name) = .element ⟨[], some o.letter⟩ := by
      rw [readWord_long hne, readLong, htake, hdrop, longOption_name o hne hname]
    rw [List.cons_append, List.cons_append, getoptLong_awaits hword, ih, List.map_cons]
    rfl
  | @longAttached o name hne hname arg _ _ h ih =>
    obtain ⟨htake, hdrop⟩ :=
      takeWhile_name (s := '=' :: arg) (not_mem_name o hname) (Or.inr rfl)
    have hword : readWord runOptions ('-' :: '-' :: (name ++ '=' :: arg))
        = .element ⟨[.opt o.letter (some arg)], none⟩ := by
      rw [readWord_long (by simp), readLong, htake, hdrop, longOption_name o hne hname]
    rw [List.cons_append, getoptLong_complete hword, ih, List.map_cons]
    rfl

/-! ## What they mean -/

/-- One more event is one more option. -/
theorem applyEvent_event (s : Settings) (config : ContainerConfig) (o : RunOption) :
    applyEvent true (s.apply config) o.event = some ((s.set o).apply config) := by
  cases o with
  | value o arg => cases o <;> rfl
  | detach => rfl

theorem foldlM_event (os : List RunOption) (s : Settings) (config : ContainerConfig) :
    (os.map RunOption.event).foldlM (applyEvent true) (s.apply config)
      = some ((os.foldl Settings.set s).apply config) := by
  induction os generalizing s with
  | nil => rfl
  | cons o os ih =>
    rw [List.map_cons, List.foldlM_cons, applyEvent_event]
    exact ih (s.set o)

/-- **What is parsed of a command line without options behind the
command.** -/
theorem parseRunOptions_spelled (h : Spelled os opts) (hwords : ∀ word ∈ words, IsOperand word)
    (config : ContainerConfig) :
    parseRunOptions true (opts ++ words) config
      = finishOptions true words
          ((os.foldl Settings.set .default).apply (startConfig config)) := by
  have hfold := foldlM_event os .default (startConfig config)
  rw [parseRunOptions, getoptLong_spelled h, getoptLong_of_operands hwords, List.append_nil]
  exact congrArg (fun o => o.bind (finishOptions true words)) hfold

/-- Operands become the command, and the root that is missing is `/`. -/
theorem finishOptions_of_ne_nil {operands : List CStr} (h : operands ≠ [])
    (s : ContainerConfig × Bool) :
    finishOptions true operands s
      = some ({ s.1 with
          command := some (operands.map some)
          commandArgc := operands.length
          fsConfig := { s.1.fsConfig with
            rootPath := some (s.1.fsConfig.rootPath.getD ['/']) } }, s.2) := by
  rw [finishOptions, if_neg h]
  dsimp only
  cases hroot : s.1.fsConfig.rootPath with
  | none => rfl
  | some root =>
    rw [if_neg (Option.some_ne_none root)]
    refine congrArg some (Prod.ext ?_ rfl)
    show ({ s.1 with
        command := some (operands.map some)
        commandArgc := operands.length } : ContainerConfig) = _
    rw [Option.getD_some, ← hroot]

/-- What a configuration is that is finished, whether or not `/` could be copied
for one that needs it. -/
theorem finishOptions_eq_some {strdup : Bool} {operands : List CStr}
    {s parsed : ContainerConfig × Bool} (h : finishOptions strdup operands s = some parsed) :
    parsed = ({ s.1 with
      command := some (operands.map some)
      commandArgc := operands.length
      fsConfig := { s.1.fsConfig with
        rootPath := some (s.1.fsConfig.rootPath.getD ['/']) } }, s.2) := by
  have hne : operands ≠ [] := by
    rintro rfl
    cases h
  have hcopied : finishOptions true operands s = some parsed := by
    cases strdup with
    | true => exact h
    | false =>
      rw [finishOptions, if_neg hne] at h ⊢
      dsimp only at h ⊢
      split at h
      · cases h
      · next hroot => rwa [if_neg hroot]
  rw [finishOptions_of_ne_nil hne] at hcopied
  exact (Option.some.inj hcopied).symm

/-- The command of a configuration that is parsed is what `getopt_long`
leaves. -/
theorem command_of_parseRunOptions {strdup : Bool} {config : ContainerConfig}
    {parsed : ContainerConfig × Bool} (h : parseRunOptions strdup words config = some parsed) :
    parsed.1.command = some ((getoptLong runOptions words).2.map some) := by
  obtain ⟨s, -, hfinish⟩ := Option.bind_eq_some_iff.mp h
  rw [finishOptions_eq_some hfinish]

/-- **`run` starts the command the user wrote, with the arguments the user
wrote and under the options in front of it, exactly if none of the arguments
starts with a dash**, a single dash apart. For any options, however they are
written, a word that is no option and any words behind it. -/
theorem run_command_line_iff (h : Spelled os opts) {w : CStr} (hw : w.head? ≠ some '-')
    (rest : List CStr) (config : ContainerConfig) :
    (∃ parsed : ContainerConfig × Bool,
        parseRunOptions true (opts ++ w :: rest) config = some parsed ∧
        parsed.1.command = some ((w :: rest).map some) ∧
        parsed.1.commandArgc = 1 + rest.length ∧
        parsed.1.resLimits.memory.limitBytes = (os.foldl Settings.set .default).memoryLimit ∧
        parsed.1.resLimits.cpu.shares = (os.foldl Settings.set .default).cpuShares ∧
        parsed.1.fsConfig.rootPath = some ((os.foldl Settings.set .default).root.getD ['/']) ∧
        parsed.2 = (os.foldl Settings.set .default).detach) ↔
      ∀ word ∈ rest, IsOperand word := by
  constructor
  · -- the command is what `getopt_long` leaves, and it leaves every word only if none is an option
    rintro ⟨parsed, hparsed, hcommand, -⟩
    rw [command_of_parseRunOptions hparsed, getoptLong_spelled h] at hcommand
    have hwords : (getoptLong runOptions (w :: rest)).2 = w :: rest :=
      (Option.some_injective _).list_map (Option.some.inj hcommand)
    exact (List.forall_mem_cons.mp (getoptLong_operands.mp hwords)).2
  · intro hrest
    have hwords : ∀ word ∈ w :: rest, IsOperand word :=
      List.forall_mem_cons.mpr ⟨Or.inr hw, hrest⟩
    rw [parseRunOptions_spelled h hwords, finishOptions_of_ne_nil (List.cons_ne_nil _ _)]
    have hargc : ((w :: rest).length : ℤ) = 1 + rest.length := by
      rw [List.length_cons, Nat.cast_succ, add_comm]
    exact ⟨_, rfl, rfl, hargc, rfl, rfl, rfl, rfl⟩

end

/-- `run -m 256 --cpu=512 sh x`. -/
theorem run_command_line_sh :
    ∃ parsed : ContainerConfig × Bool,
      parseRunOptions true ["-m".toList, "256".toList, "--cpu=512".toList, "sh".toList, ['x']]
        (.plain none []) = some parsed ∧
      parsed.1.command = some [some "sh".toList, some ['x']] ∧
      parsed.1.commandArgc = 2 ∧
      parsed.1.resLimits.memory.limitBytes = 256 * 1024 * 1024 ∧
      parsed.1.resLimits.cpu.shares = 512 ∧
      parsed.1.fsConfig.rootPath = some ['/'] ∧
      parsed.2 = false := by
  have hspelled : Spelled [.value .memory "256".toList, .value .cpu "512".toList]
      ["-m".toList, "256".toList, "--cpu=512".toList] :=
    .separate 0 .memory _ (.longAttached .cpu (by decide) (List.prefix_refl _) _ .nil)
  have hrest : ∀ word ∈ [['x']], IsOperand word := by decide
  exact (run_command_line_iff hspelled (by decide) [['x']] (.plain none [])).mpr hrest

/-- **`run sh -c true` starts `sh` alone**: `-c true` is taken for an option
of `run`, and the container gets no CPU shares. -/
theorem run_sh_dash_c :
    ∃ parsed : ContainerConfig × Bool,
      parseRunOptions true ["sh".toList, "-c".toList, "true".toList] (.plain none [])
        = some parsed ∧
      parsed.1.command = some [some "sh".toList] ∧
      parsed.1.commandArgc = 1 ∧
      parsed.1.resLimits.cpu.shares = 0 :=
  ⟨_, rfl, rfl, rfl, rfl⟩
