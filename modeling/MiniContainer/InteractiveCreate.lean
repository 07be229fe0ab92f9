import MiniContainer.AppliedLimits
import MiniContainer.Configuration
import MiniContainer.RunOptions
import MiniContainer.Tokenizer

/-!
# Requests of a user

What a user asks for on the command line of `run`, or at the prompts of
`interactive_create_container`, and what is made of it.

The prompts read five lines from one input. `command_of_quotedLine_iff` says
of which argument lists the command survives when each argument is typed
between quotes. A limit in megabytes becomes one in bytes by a product in
`int`, stored in an `unsigned long` whose zero stands for no limit:
`memory_request_iff` says that the number of bytes written to the control file
is the number asked for exactly below two gigabytes, whichever way the request
was made.
-/

open CText Getopt

/-! ## The prompts -/

/-- `fgets` into a buffer of `size` bytes: what string functions see of it,
or `none` at the end of the input, and the input that is left. -/
def promptLine (size : ℕ) (input : CStr) : Option CStr × CStr :=
  if input = [] then (none, [])
  else (some (cstring (fgets (size - 1) input).1), (fgets (size - 1) input).2)

/-- The newline at the end of a line is overwritten. -/
def chomp (line : CStr) : CStr := if line.getLast? = some '\n' then line.dropLast else line

/-- The lines the prompts of `interactive_create_container` get. -/
structure Answers where
  containerName : Option CStr
  command : Option CStr
  memory : Option CStr
  cpu : Option CStr
  root : Option CStr
  deriving DecidableEq, Repr

/-- The prompts, one after the other, on one input. -/
def readAnswers (input : CStr) : Answers :=
  let containerName := promptLine 256 input
  let command := promptLine 1024 containerName.2
  let memory := promptLine 64 command.2
  let cpu := promptLine 64 memory.2
  let root := promptLine 512 cpu.2
  ⟨containerName.1, command.1, memory.1, cpu.1, root.1⟩

/-- A number that is asked for with a default: what is not positive is passed
over. -/
def positiveOr (default : ℤ) (answer : Option CStr) : ℤ :=
  match answer with
  | none => default
  | some line => if atoi line > 0 then atoi line else default

/-- `memory * 1024 * 1024`, computed in `int` and stored in an `unsigned
long`. -/
def megabytes (memory : ℤ) : ℕ := (wrap32 (wrap32 (memory * 1024) * 1024) % 2 ^ 64).toNat

/-- The root path: `/`, unless another is given. -/
def answeredRoot (answer : Option CStr) : CStr :=
  match answer with
  | none => ['/']
  | some line => if chomp line ≠ [] then (chomp line).take 511 else ['/']

/-- **The configuration `interactive_create_container` makes of the answers**,
or `none` where it returns. What it does not set is left as it is. -/
def interactiveConfig (strdup : Bool) (config : ContainerConfig) (answers : Answers) :
    Option ContainerConfig :=
  match answers.command with
  | none => none
  | some line =>
    let containerName := (answers.containerName.map chomp).getD []
    let args := tokenize (chomp line)
    -- a copy that cannot be made ends it
    if strdup then
      some { config with
        id := if containerName ≠ [] then some containerName else none
        nsConfig := namespaceConfigInit
        resLimits := { resourceLimitsInit with
          cpu := { resourceLimitsInit.cpu with shares := positiveOr 1024 answers.cpu }
          memory := { resourceLimitsInit.memory with
            limitBytes := megabytes (positiveOr 128 answers.memory) } }
        fsConfig := { fsConfigInit with rootPath := some (answeredRoot answers.root) }
        command := some (args.map some)
        commandArgc := args.length }
    else none

/-! ## A quoted command -/

/-- A typed line that fits its buffer is read as it was typed, also where the
newline is left for the next prompt. -/
theorem chomp_promptLine {size : ℕ} {line : CStr} (hnul : '\x00' ∉ line) (hline : '\n' ∉ line)
    (hlen : line.length < size) (hsize : 1 < size) (rest : CStr) :
    (promptLine size (line ++ '\n' :: rest)).1.map chomp = some line := by
  have hne : line ++ '\n' :: rest ≠ [] := by simp
  rw [promptLine, if_neg hne, Option.map_some]
  congr 1
  by_cases hroom : line.length < size - 1
  · rw [fgets_line hline hroom, cstring_of_not_mem (by simp [hnul]), chomp,
      if_pos List.getLast?_concat, List.dropLast_concat]
  · have hread : (fgets (size - 1) (line ++ '\n' :: rest)).1 = line := by
      rw [fgets_full hline (by omega) (by omega)]
    have hlast : line.getLast? ≠ some '\n' := fun h => hline (List.mem_of_getLast? h)
    rw [hread, cstring_of_not_mem hnul, chomp, if_neg hlast]

/-- What a quoted line is made of. -/
theorem not_mem_quotedLine {c : Char} (hquote : c ≠ '\'') (hspace : c ≠ ' ') {args : List CStr}
    (hargs : ∀ arg ∈ args, c ∉ arg) : c ∉ quotedLine args := by
  induction args with
  | nil => exact List.not_mem_nil
  | cons arg args ih =>
    obtain ⟨harg, hargs⟩ := List.forall_mem_cons.mp hargs
    have hquoted : c ∉ '\'' :: (arg ++ ['\'']) := by simp [hquote, harg]
    by_cases hrest : args = []
    · subst hrest
      rwa [show quotedLine [arg] = '\'' :: (arg ++ ['\'']) from List.append_nil _]
    · rw [quotedLine_cons arg hrest, List.mem_append, List.mem_cons (b := ' ')]
      rintro (h | h | h)
      · exact hquoted h
      · exact hspace h
      · exact ih hargs h

/-- **A command typed between quotes survives the prompt exactly where no
argument is empty and none ends in a backslash**: for every list of arguments
that can be typed so and whose line fits the buffer. -/
theorem prompt_quotedLine_iff {args : List CStr}
    (hargs : ∀ arg ∈ args, '\x00' ∉ arg ∧ '\n' ∉ arg ∧ '\'' ∉ arg)
    (hlen : (quotedLine args).length ≤ 1023) (rest : CStr) :
    ((promptLine 1024 (quotedLine args ++ '\n' :: rest)).1.map chomp).map tokenize = some args ↔
      ∀ arg ∈ args, arg ≠ [] ∧ arg.getLast? ≠ some '\\' := by
  have hnul := not_mem_quotedLine (by decide) (by decide) (fun arg harg => (hargs arg harg).1)
  have hline := not_mem_quotedLine (by decide) (by decide) (fun arg harg => (hargs arg harg).2.1)
  rw [chomp_promptLine hnul hline (by omega) (by decide), Option.map_some, Option.some_inj,
    tokenize_quotedLine_iff (fun arg harg => (hargs arg harg).2.2)]

/-- `sh -c 'echo "hi"'`. -/
theorem prompt_quotedLine_iff_sh :
    ((promptLine 1024 ("'sh' '-c' 'echo \"hi\"'\n64\n".toList)).1.map chomp).map tokenize
      = some ["sh".toList, "-c".toList, "echo \"hi\"".toList] :=
  (@prompt_quotedLine_iff ["sh".toList, "-c".toList, "echo \"hi\"".toList] (by decide) (by decide)
    "64\n".toList).mpr (by decide)

/-- **What does not survive**: an empty argument, and one with a backslash at
its end, which runs into the next. -/
theorem prompt_loses_arguments :
    ((promptLine 1024 (quotedLine ["printf".toList, [], ['x']] ++ ['\n'])).1.map chomp).map tokenize
        = some ["printf".toList, ['x']] ∧
      ((promptLine 1024 (quotedLine [['a', '\\'], ['b']] ++ ['\n'])).1.map chomp).map tokenize
        = some ["a\\' b".toList] := by
  decide

/-! ## Megabytes -/

/-- **A number of megabytes is a number of bytes below two gigabytes**, and
above it never is. -/
theorem megabytes_eq_iff {m : ℤ} (hpos : 1 ≤ m) (hm : m < 2 ^ 31) :
    (megabytes m : ℤ) = m * 2 ^ 20 ↔ m ≤ 2047 := by
  have hproduct : wrap32 (wrap32 (m * 1024) * 1024) = wrap32 (m * 2 ^ 20) := by
    unfold wrap32
    rw [Int.bmod_mul_bmod, mul_assoc]
    rfl
  obtain ⟨hlo, hhi⟩ := isInt_wrap32 (m * 2 ^ 20)
  unfold megabytes
  rw [hproduct, Int.toNat_of_nonneg (by omega)]
  constructor
  · -- what is stored is small, or close to the end of an `unsigned long`
    intro h
    by_contra hlarge
    omega
  · intro hsmall
    rw [wrap32_of_isInt ⟨by omega, by omega⟩]
    omega

theorem memoryBytes_eq (optarg : CStr) : memoryBytes optarg = megabytes (atoi optarg) := rfl

/-- A text that starts with a numeral for an `int`. -/
theorem atoi_of_readDecimal {s t : CStr} {m : ℤ} (h : readDecimal s = some (m, t))
    (hm : IsInt m) : atoi s = m := by
  unfold atoi strtol
  rw [h]
  dsimp only
  rw [clampLong_of_isLong hm.isLong, wrap32_of_isInt hm]

/-- The value an option for the memory is given. -/
def memoryArg : Event → Option CStr
  | .opt 'm' arg => arg
  | _ => none

/-- One more event sets the limit if it is that option. -/
theorem limitBytes_applyEvent {strdup : Bool} {s s' : ContainerConfig × Bool} {e : Event}
    (h : applyEvent strdup s e = some s') :
    s'.1.resLimits.memory.limitBytes
      = ((memoryArg e).map memoryBytes).getD s.1.resLimits.memory.limitBytes := by
  unfold applyEvent at h
  split at h
  · cases h
    rfl
  · cases h
    rfl
  · split at h
    · cases h
      rfl
    · cases h
  · cases h
    rfl
  · cases h

/-- **The last `-m` counts.** -/
theorem limitBytes_foldlM {strdup : Bool} {s s' : ContainerConfig × Bool} {events : List Event}
    (h : events.foldlM (applyEvent strdup) s = some s') :
    s'.1.resLimits.memory.limitBytes
      = ((events.filterMap memoryArg).getLast?.map memoryBytes).getD
          s.1.resLimits.memory.limitBytes := by
  induction events generalizing s with
  | nil =>
    cases h
    rfl
  | cons e events ih =>
    obtain ⟨s₁, he, h⟩ := Option.bind_eq_some_iff.mp h
    rw [ih h, limitBytes_applyEvent he]
    cases harg : memoryArg e with
    | none =>
      rw [List.filterMap_cons_none harg]
      rfl
    | some arg =>
      rw [List.filterMap_cons_some harg, List.getLast?_cons]
      cases (events.filterMap memoryArg).getLast? <;> rfl

/-- The limit of a configuration that is parsed. -/
theorem limitBytes_of_parseRunOptions {strdup : Bool} {words : List CStr}
    {config : ContainerConfig} {parsed : ContainerConfig × Bool}
    (h : parseRunOptions strdup words config = some parsed) :
    parsed.1.resLimits.memory.limitBytes
      = (((getoptLong runOptions words).1.filterMap memoryArg).getLast?.map memoryBytes).getD
          (128 * 1024 * 1024) := by
  obtain ⟨s, hfold, hfinish⟩ := Option.bind_eq_some_iff.mp h
  rw [finishOptions_eq_some hfinish]
  exact limitBytes_foldlM hfold

/-- **Limits for which a user asked for `m` megabytes of memory**, on a command
line of `run` or at the prompt: the text that was given starts with the number. -/
inductive RequestsMemory (m : ℤ) : ResourceLimits → Prop
  | run {strdup : Bool} {words : List CStr} {config : ContainerConfig}
      {parsed : ContainerConfig × Bool} {optarg t : CStr}
      (hparsed : parseRunOptions strdup words config = some parsed)
      (hlast : ((getoptLong runOptions words).1.filterMap memoryArg).getLast? = some optarg)
      (hm : readDecimal optarg = some (m, t)) : RequestsMemory m parsed.1.resLimits
  | prompt {strdup : Bool} {config parsed : ContainerConfig} {answers : Answers} {line t : CStr}
      (hparsed : interactiveConfig strdup config answers = some parsed)
      (hline : answers.memory = some line)
      (hm : readDecimal line = some (m, t)) : RequestsMemory m parsed.resLimits

/-- The limit in bytes is the product. -/
theorem RequestsMemory.limitBytes_eq {m : ℤ} {limits : ResourceLimits}
    (h : RequestsMemory m limits) (hpos : 1 ≤ m) (hlt : m < 2 ^ 31) :
    limits.memory.limitBytes = megabytes m := by
  have hint : IsInt m := ⟨by omega, hlt⟩
  cases h with
  | run hparsed hlast hm =>
    rw [limitBytes_of_parseRunOptions hparsed, hlast, Option.map_some, Option.getD_some,
      memoryBytes_eq, atoi_of_readDecimal hm hint]
  | @prompt strdup config parsed answers line t hparsed hline hm =>
    unfold interactiveConfig at hparsed
    split at hparsed
    · cases hparsed
    · dsimp only at hparsed
      split at hparsed
      · cases hparsed
        show megabytes (positiveOr 128 answers.memory) = megabytes m
        rw [hline, positiveOr, atoi_of_readDecimal hm hint, if_pos (by omega)]
      · cases hparsed

/-! ## The control file -/

/-- The file that bounds the memory of a container. -/
def memoryLimitPath (rm : ResourceManager) (containerId : CStr) : CStr :=
  cgroupDir (memoryRoot rm.version) rm containerId ++ '/' :: memoryLimitFile rm.version

section

variable {k : Kernel} {rm : ResourceManager} {containerId : CStr} {fs : CgroupFs}

/-- **What a creation writes to the file that bounds the memory**: the limit,
unless it is zero. -/
theorem files_memoryLimitPath (hfit : PathsFit rm containerId)
    (hwrite : ∀ path value, k.write path value = true) {limits : ResourceLimits}
    (hcode : (resourceManagerCreateCgroup k rm containerId limits fs).2 = 0) :
    (resourceManagerCreateCgroup k rm containerId limits fs).1.files
        (memoryLimitPath rm containerId)
      = (if limits.memory.limitBytes > 0 then [printDecimal limits.memory.limitBytes] else [])
        ++ (makeCgroupDirs k rm containerId fs).1.files (memoryLimitPath rm containerId) := by
  have hslash := no_slash_of_mem_memoryFiles _ (memoryLimitFile_mem rm.version)
  have hcpu : ∀ w ∈ cpuLimitValues rm.version limits, memoryLimitPath rm containerId
      ≠ cpuDir rm containerId (makeCgroupDirs k rm containerId fs).1 ++ '/' :: w.1 := by
    intro w hw he
    have hw := mem_cpuFiles_of_mem_cpuLimitValues _ _ w hw
    have hname := (eq_of_path_eq hslash (no_slash_of_mem_cpuFiles _ hw) he).2
    exact not_mem_memoryFiles _ hw (hname ▸ memoryLimitFile_mem rm.version)
  have hrest := CgroupFs.files_putAll_of_ne (makeCgroupDirs k rm containerId fs).1 hcpu
  rw [createCgroup_eq hfit hwrite hcode, ← valuesOf_memoryLimitFile rm.version limits, ← hrest]
  exact CgroupFs.files_putAll _ _ _ _

/-- **A memory limit of `m` megabytes is the limit that is applied exactly
below two gigabytes**: for every number that fits an `int`, given to `run -m`
or at the prompt, when the container has been created and no write has failed.
The number of bytes is written to the control file, and nothing else is. -/
theorem memory_request_iff {m : ℤ} (hpos : 1 ≤ m) (hlt : m < 2 ^ 31) {env : Env} {w w' : World}
    (hw : w.cm.WF) {config : ContainerConfig} (hrequest : RequestsMemory m config.resLimits)
    (hfit : PathsFit w.cm.rm (createdId w.cm.entries config))
    (hwrite : ∀ path value, env.kernel.write path value = true)
    (h : containerManagerCreate env config w = some (w', .ok ())) :
    w'.cg.files (memoryLimitPath w.cm.rm (createdId w.cm.entries config))
        = printDecimal (m * 2 ^ 20) ::
          (makeCgroupDirs env.kernel w.cm.rm (createdId w.cm.entries config) w.cg).1.files
            (memoryLimitPath w.cm.rm (createdId w.cm.entries config)) ↔
      m ≤ 2047 := by
  obtain ⟨hcode, hcg⟩ := containerManagerCreate_cgroup hw h
  rw [hcg, files_memoryLimitPath hfit hwrite hcode, hrequest.limitBytes_eq hpos hlt,
    ← megabytes_eq_iff hpos hlt]
  constructor
  · intro hfile
    split at hfile
    · exact printDecimal_injective (List.cons.inj hfile).1
    · exact absurd (congrArg List.length hfile) (by simp)
  · intro hbytes
    rw [if_pos (by omega), hbytes]
    rfl

end

/-- What a user who asks for a container `c` of so many megabytes types. -/
def askedAnswers (memory : CStr) : Answers :=
  ⟨some "c\n".toList, some "sh\n".toList, some (memory ++ ['\n']), some ['\n'], some ['\n']⟩

/-- The configuration that is made of it. -/
def askedConfig (memory : CStr) : ContainerConfig :=
  (interactiveConfig true (.plain none []) (askedAnswers memory)).getD (.plain none [])

/-- The container is created. -/
def World.asked (memory : CStr) : World :=
  (World.empty 1).after (.willing 42 100, .create (askedConfig memory))

/-- The file that bounds its memory. -/
def askedPath : CStr := memoryLimitPath (World.empty 1).cm.rm ['c']

/-- A container of 256 megabytes. -/
theorem memory_request_iff_small :
    (World.asked "256".toList).cg.files askedPath
      = printDecimal (256 * 2 ^ 20) ::
        (makeCgroupDirs .willing (World.empty 1).cm.rm ['c'] (World.empty 1).cg).1.files
          askedPath := by
  have hid : Component (createdId (World.empty 1).cm.entries (askedConfig "256".toList)) :=
    ⟨by decide, by decide⟩
  have hasked : interactiveConfig true (.plain none []) (askedAnswers "256".toList)
      = some (askedConfig "256".toList) := rfl
  have hrequest : RequestsMemory 256 (askedConfig "256".toList).resLimits :=
    .prompt hasked rfl (t := ['\n']) (by decide)
  have hcreate : containerManagerCreate (.willing 42 100) (askedConfig "256".toList) (World.empty 1)
      = some (World.asked "256".toList, .ok ()) := rfl
  have h := memory_request_iff (by decide) (by decide) started_empty.reachable.sound.wf hrequest
    (hid.pathsFit rfl)
    (fun _ _ => rfl) hcreate
  exact h.mpr (by decide)

/-- **Larger requests**: two gigabytes are a limit of more memory than there
is, and four gigabytes are no limit at all. -/
theorem large_request_not_applied :
    (World.asked "2048".toList).cg.files askedPath = ["18446744071562067968".toList] ∧
      (World.asked "4096".toList).cg.files askedPath = [] := by
  decide
