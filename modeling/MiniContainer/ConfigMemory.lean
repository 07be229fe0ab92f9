import MiniContainer.Heap
import MiniContainer.Lifecycle

/-!
# Configurations in memory

`copy_container_config` and `free_container_config` again, this time as what
they do to memory: a configuration is a block that points at its strings and
at an array of words, the words are blocks of their own, and every early
return has to give back what has been allocated up to there.

A `ConfigAt` is a configuration as it lies in memory. It knows its own cells
and the configuration it means, and its proof field says that the count
beside the array is right. `copyContainerConfig_spec` says that the copy in
memory is the copy of values: it returns a `ConfigAt` that means the copied
configuration, or null with nothing left allocated.
`copyContainerConfig_stuck` is the case that is left, where a word cannot be
copied.
-/

open CText GrowArray Heap

namespace Memory

/-- `container_config_t` as it lies in memory: pointers are addresses. -/
structure ConfigBlock where
  id : Option ℕ
  rootPath : Option ℕ
  nsConfig : NamespaceConfig
  resLimits : ResourceLimits
  fsRootPath : Option ℕ
  fsMethod : FsIsolationMethod
  createMinimalFs : ℤ
  command : Option ℕ
  commandArgc : ℤ
  deriving DecidableEq, Repr

/-- `container_info_t` as it lies in memory. -/
structure InfoBlock where
  id : ℕ
  pid : ℤ
  state : ContainerState
  createdAt : ℤ
  startedAt : ℤ
  stoppedAt : ℤ
  savedConfig : Option ℕ
  deriving DecidableEq, Repr

/-- What a block can hold. -/
inductive Block
  /-- The characters of a string. -/
  | string (s : CStr)
  /-- A `char **`. -/
  | words (a : List (Option ℕ))
  | config (c : ConfigBlock)
  | info (i : InfoBlock)
  /-- A `container_info_t **`. -/
  | infos (a : List (Option ℕ))
  /-- A `resource_manager_t`, for the path it points at. -/
  | resources (cgroupPath : Option ℕ)
  deriving DecidableEq, Repr

/-- A program of the container manager. -/
abbrev Mem (α : Type) := Heap.M Block α

/-- What `calloc` leaves in a `container_config_t`. -/
def ConfigBlock.zero : ConfigBlock where
  id := none
  rootPath := none
  nsConfig := ⟨0⟩
  resLimits := ⟨⟨0, 0, 0⟩, ⟨0, 0⟩, 0⟩
  fsRootPath := none
  fsMethod := .chroot
  createMinimalFs := 0
  command := none
  commandArgc := 0

/-! ## Reading through a pointer -/

/-- `*p` where `p` is a `container_config_t *`. -/
def readConfig (p : ℕ) : Mem ConfigBlock := do
  match ← Heap.read p with
  | .config c => pure c
  | _ => failure

/-- `a[i]` where `a` is a `char **`: nothing may be read behind its end. -/
def readWord (a i : ℕ) : Mem (Option ℕ) := do
  match ← Heap.read a with
  | .words ws => match ws[i]? with
    | some w => pure w
    | none => failure
  | _ => failure

/-- Assignments to the fields of a configuration. -/
def setConfig (p : ℕ) (f : ConfigBlock → ConfigBlock) : Mem Unit := do
  let c ← readConfig p
  Heap.write p (.config (f c))

/-- `a[i] = w`. -/
def setWord (a i : ℕ) (w : Option ℕ) : Mem Unit := do
  match ← Heap.read a with
  | .words ws => if i < ws.length then Heap.write a (.words (ws.set i w)) else failure
  | _ => failure

/-- `if (p) free(p);` -/
def freeIf : Option ℕ → Mem Unit
  | some p => Heap.free p
  | none => pure ()

/-! ## `free_container_config` -/

/-- `for (i = …; i < argc && command[i]; i++) free(command[i]);`, with the
number of words left to look at. -/
def freeWordsFrom (a : ℕ) : ℕ → ℕ → Mem Unit
  | 0, _ => pure ()
  | n + 1, i => do
    match ← readWord a i with
    | some w => do
      Heap.free w
      freeWordsFrom a n (i + 1)
    -- the first null ends the loop
    | none => pure ()

/-- The array of words and what it points at. -/
def freeCommand (command : Option ℕ) (argc : ℤ) : Mem Unit :=
  match command with
  | some a => do
    freeWordsFrom a argc.toNat 0
    Heap.free a
  | none => pure ()

/-- **`free_container_config`.** -/
def freeContainerConfig : Option ℕ → Mem Unit
  | none => pure ()
  | some p => do
    let c ← readConfig p
    freeIf c.id
    freeIf c.rootPath
    freeIf c.fsRootPath
    freeCommand c.command c.commandArgc
    Heap.free p

/-! ## `copy_container_config` -/

/-- `strdup`. -/
def strdup (env : Env) (site : AllocSite) (s : CStr) : Mem (Option ℕ) :=
  if env.alloc site then do
    let p ← malloc (.string s)
    pure (some p)
  else pure none

/-- `if (src->field) dst->field = strdup(src->field)`: the pointer to keep,
or `none` where `strdup` fails. -/
def copyString (env : Env) (site : AllocSite) : Option CStr → Mem (Option (Option ℕ))
  | none => pure (some none)
  | some s => do
    match ← strdup env site s with
    | some p => pure (some (some p))
    | none => pure none

/-- The loop over the words, with the number of words left to copy: the
index of the word that could not be copied, if there is one. -/
def copyWordsFrom (env : Env) (src : List (Option CStr)) (a : ℕ) : ℕ → ℕ → Mem (Option ℕ)
  | 0, _ => pure none
  | n + 1, i => do
    match ← copyString env (.configWord i) (at? src i) with
    | some w => do
      setWord a i w
      copyWordsFrom env src a n (i + 1)
    | none => pure (some i)

/-- `for (j = …; j < i; j++) if (command[j]) free(command[j]);`, with the
number of words left. -/
def freeCopiedFrom (a : ℕ) : ℕ → ℕ → Mem Unit
  | 0, _ => pure ()
  | n + 1, j => do
    let w ← readWord a j
    freeIf w
    freeCopiedFrom a n (j + 1)

/-- The part of `copy_container_config` that copies the words. -/
def copyCommand (env : Env) (src : ContainerConfig) (dst : ℕ) : Mem (Option ℕ) :=
  match src.command with
  | some command =>
    if src.commandArgc > 0 then do
      setConfig dst (fun c => { c with commandArgc := src.commandArgc })
      if env.alloc .configCommand then do
        let a ← malloc (.words (List.replicate (src.commandArgc.toNat + 1) none))
        setConfig dst (fun c => { c with command := some a })
        match ← copyWordsFrom env command a src.commandArgc.toNat 0 with
        | none => do
          setWord a src.commandArgc.toNat none
          pure (some dst)
        | some i => do
          freeCopiedFrom a i 0
          Heap.free a
          -- `dst->command` still points at the array that has been freed
          freeContainerConfig (some dst)
          pure none
      else do
        freeContainerConfig (some dst)
        pure none
    else do
      setConfig dst (fun c => { c with command := none, commandArgc := 0 })
      pure (some dst)
  | none => do
    setConfig dst (fun c => { c with command := none, commandArgc := 0 })
    pure (some dst)

/-- **`copy_container_config`.** -/
def copyContainerConfigM (env : Env) (src : ContainerConfig) : Mem (Option ℕ) :=
  if env.alloc .config then do
    let dst ← malloc (.config .zero)
    match ← copyString env .configId src.id with
    | none => do
      Heap.free dst
      pure none
    | some id => do
      setConfig dst (fun c => { c with id := id })
      match ← copyString env .configRootPath src.rootPath with
      | none => do
        freeContainerConfig (some dst)
        pure none
      | some rootPath => do
        setConfig dst (fun c => { c with
          rootPath := rootPath
          nsConfig := src.nsConfig
          resLimits := src.resLimits
          fsMethod := src.fsConfig.method
          createMinimalFs := src.fsConfig.createMinimalFs })
        match ← copyString env .configFsRootPath src.fsConfig.rootPath with
        | none => do
          freeContainerConfig (some dst)
          pure none
        | some fsRootPath => do
          setConfig dst (fun c => { c with fsRootPath := fsRootPath })
          copyCommand env src dst
  else pure none

/-! ## Configurations as they lie in memory -/

/-- A string in memory. -/
structure StringAt where
  ptr : ℕ
  text : CStr

/-- The cells of a string. -/
def StringAt.cells (s : StringAt) : Cells Block := {(s.ptr, .string s.text)}

/-- The cells behind a pointer to a string that may be null. -/
def stringCells (s : Option StringAt) : Cells Block := s.elim 0 StringAt.cells

/-- The cells behind the pointers of an array. -/
def wordCells (ws : List (Option StringAt)) : Cells Block := (ws.map stringCells).sum

/-- An array of words in memory, with the null that ends it. -/
structure CommandAt where
  array : ℕ
  words : List (Option StringAt)

/-- What the array holds. -/
def CommandAt.block (c : CommandAt) : Block :=
  .words (c.words.map (Option.map StringAt.ptr) ++ [none])

def CommandAt.cells (c : CommandAt) : Cells Block := (c.array, c.block) ::ₘ wordCells c.words

/-- **A configuration as it lies in memory.** -/
structure ConfigAt where
  self : ℕ
  id : Option StringAt
  rootPath : Option StringAt
  nsConfig : NamespaceConfig
  resLimits : ResourceLimits
  fsRootPath : Option StringAt
  fsMethod : FsIsolationMethod
  createMinimalFs : ℤ
  command : Option CommandAt
  commandArgc : ℤ
  argc_eq : ∀ c ∈ command, commandArgc = c.words.length

namespace ConfigAt

/-- What its block holds. -/
def block (t : ConfigAt) : ConfigBlock where
  id := t.id.map StringAt.ptr
  rootPath := t.rootPath.map StringAt.ptr
  nsConfig := t.nsConfig
  resLimits := t.resLimits
  fsRootPath := t.fsRootPath.map StringAt.ptr
  fsMethod := t.fsMethod
  createMinimalFs := t.createMinimalFs
  command := t.command.map CommandAt.array
  commandArgc := t.commandArgc

/-- What it means. -/
def value (t : ConfigAt) : ContainerConfig where
  id := t.id.map StringAt.text
  rootPath := t.rootPath.map StringAt.text
  nsConfig := t.nsConfig
  resLimits := t.resLimits
  fsConfig := ⟨t.fsRootPath.map StringAt.text, t.fsMethod, t.createMinimalFs⟩
  command := t.command.map (fun c => c.words.map (Option.map StringAt.text))
  commandArgc := t.commandArgc

/-- What it points at besides the words of its command. -/
def stringsCells (t : ConfigAt) : Cells Block :=
  stringCells t.id + (stringCells t.rootPath + stringCells t.fsRootPath)

/-- Its cells. -/
def cells (t : ConfigAt) : Cells Block :=
  (t.self, .config t.block) ::ₘ (t.stringsCells + t.command.elim 0 CommandAt.cells)

end ConfigAt

/-! ## Rules -/

section

variable {β : Type} {C : Cells Block} {R : Option (β × Cells Block) → Prop} {p i : ℕ}

theorem runs_readConfig {c : ConfigBlock} {k : ConfigBlock → Mem β}
    (hk : Runs ((p, .config c) ::ₘ C) (k c) R) :
    Runs ((p, .config c) ::ₘ C) (readConfig p >>= k) R := by
  rw [readConfig, bind_assoc]
  exact Runs.read hk

theorem runs_setConfig {c : ConfigBlock} {f : ConfigBlock → ConfigBlock} {k : Unit → Mem β}
    (hk : Runs ((p, .config (f c)) ::ₘ C) (k ()) R) :
    Runs ((p, .config c) ::ₘ C) (setConfig p f >>= k) R := by
  rw [setConfig, bind_assoc]
  exact runs_readConfig (Runs.write hk)

theorem runs_readWord {ws : List (Option ℕ)} {w : Option ℕ} (hw : ws[i]? = some w)
    {k : Option ℕ → Mem β} (hk : Runs ((p, .words ws) ::ₘ C) (k w) R) :
    Runs ((p, .words ws) ::ₘ C) (readWord p i >>= k) R := by
  rw [readWord, bind_assoc]
  refine Runs.read ?_
  simp only [hw, pure_bind]
  exact hk

theorem runs_setWord {ws : List (Option ℕ)} (hi : i < ws.length) {w : Option ℕ}
    {k : Unit → Mem β} (hk : Runs ((p, .words (ws.set i w)) ::ₘ C) (k ()) R) :
    Runs ((p, .words ws) ::ₘ C) (setWord p i w >>= k) R := by
  rw [setWord, bind_assoc]
  refine Runs.read ?_
  simp only [if_pos hi]
  exact Runs.write hk

theorem runs_freeIf {s : Option StringAt} {k : Unit → Mem β} (hk : Runs C (k ()) R) :
    Runs (stringCells s + C) (freeIf (s.map StringAt.ptr) >>= k) R := by
  cases s with
  | none => exact hk.of_eq (zero_add C)
  | some s => exact (Runs.free hk).of_eq (Multiset.singleton_add _ C)

end

@[simp] theorem wordCells_nil : wordCells [] = 0 := rfl

@[simp] theorem wordCells_cons (w : Option StringAt) (ws : List (Option StringAt)) :
    wordCells (w :: ws) = stringCells w + wordCells ws := by
  rw [wordCells, List.map_cons, List.sum_cons]
  rfl

@[simp] theorem wordCells_append (ws ws' : List (Option StringAt)) :
    wordCells (ws ++ ws') = wordCells ws + wordCells ws' := by
  rw [wordCells, List.map_append, List.sum_append]
  rfl

/-! ## Freeing a configuration -/

/-- What slot `i` of an array of words holds. -/
theorem getElem?_words (ws : List (Option StringAt)) {i : ℕ} (hi : i < ws.length) :
    (ws.map (Option.map StringAt.ptr) ++ [none])[i]? = some (ws[i].map StringAt.ptr) := by
  rw [List.getElem?_append_left (by rwa [List.length_map]), List.getElem?_map,
    List.getElem?_eq_getElem hi]
  rfl

/-- **The loop frees the words up to the first null.** -/
theorem freeWordsFrom_spec (c : CommandAt) {n i : ℕ} (hn : i + n = c.words.length) :
    Triple ((c.array, c.block) ::ₘ wordCells (c.words.drop i)) (freeWordsFrom c.array n i)
      (fun _ C => C = (c.array, c.block) ::ₘ
        wordCells ((c.words.drop i).dropWhile Option.isSome)) := by
  induction n generalizing i with
  | zero =>
    refine Triple.pure ?_
    rw [List.drop_eq_nil_of_le (by omega)]
    rfl
  | succ n ih =>
    have hi : i < c.words.length := by omega
    rw [freeWordsFrom, List.drop_eq_getElem_cons hi]
    refine runs_readWord (getElem?_words c.words hi) ?_
    cases hw : c.words[i] with
    | none =>
      refine Triple.pure ?_
      rw [List.dropWhile_cons_of_neg (by simp)]
      rfl
    | some w =>
      rw [List.dropWhile_cons_of_pos rfl]
      refine (Runs.free (b := Block.string w.text) (ih (by omega))).of_eq ?_
      rw [wordCells_cons]
      exact (congrArg _ (Multiset.singleton_add _ _)).trans (Multiset.cons_swap _ _ _)

/-- The words `free_container_config` does not get to: those behind a
null. -/
def ConfigAt.leaked (t : ConfigAt) : Cells Block :=
  t.command.elim 0 (fun c => wordCells (c.words.dropWhile Option.isSome))

theorem freeCommand_spec (t : ConfigAt) :
    Triple (t.command.elim 0 CommandAt.cells)
      (freeCommand (t.command.map CommandAt.array) t.commandArgc) (fun _ C => C = t.leaked) := by
  cases hcommand : t.command with
  | none =>
    rw [ConfigAt.leaked, hcommand]
    exact Triple.pure rfl
  | some c =>
    have hargc : t.commandArgc.toNat = c.words.length := by
      rw [t.argc_eq c hcommand, Int.toNat_natCast]
    show Triple c.cells _ _
    rw [Option.map_some, freeCommand, hargc]
    refine (freeWordsFrom_spec c (i := 0) (Nat.zero_add _)).bind (fun _ C hC => ?_)
    rw [hC, List.drop_zero, ← bind_pure (Heap.free c.array)]
    refine Runs.free (Triple.pure ?_)
    rw [ConfigAt.leaked, hcommand]
    rfl

/-- **`free_container_config` frees a configuration**, but for the words
behind a null. -/
theorem freeContainerConfig_spec (t : ConfigAt) :
    Triple t.cells (freeContainerConfig (some t.self)) (fun _ C => C = t.leaked) := by
  rw [freeContainerConfig, ConfigAt.cells]
  refine runs_readConfig ?_
  have hswap : (t.self, Block.config t.block) ::ₘ
      (t.stringsCells + t.command.elim 0 CommandAt.cells)
      = stringCells t.id + (stringCells t.rootPath + (stringCells t.fsRootPath
        + (t.command.elim 0 CommandAt.cells + {(t.self, Block.config t.block)}))) := by
    rw [ConfigAt.stringsCells, ← Multiset.singleton_add]
    abel
  rw [hswap]
  refine runs_freeIf (runs_freeIf (runs_freeIf ?_))
  refine (freeCommand_spec t).bind_frame _ (fun _ C hC => ?_)
  rw [hC, ← bind_pure (Heap.free t.self), add_comm, Multiset.singleton_add]
  exact Runs.free (Triple.pure rfl)

/-- A configuration that is freed whole. -/
theorem runs_freeContainerConfig {β : Type} {C : Cells Block}
    {R : Option (β × Cells Block) → Prop} {k : Unit → Mem β} (t : ConfigAt)
    (ht : t.leaked = 0) (hk : Runs C (k ()) R) :
    Runs (t.cells + C) (freeContainerConfig (some t.self) >>= k) R := by
  refine (freeContainerConfig_spec t).bind_frame C (fun _ C' hC' => ?_)
  rw [hC', ht, zero_add]
  exact hk

/-! ## Freeing it a second time -/

section

variable {β : Type} {C : Cells Block} {p a : ℕ}

theorem stuckAt_readConfig {c : ConfigBlock} {k : ConfigBlock → Mem β}
    (hk : StuckAt a ((p, .config c) ::ₘ C) (k c)) :
    StuckAt a ((p, .config c) ::ₘ C) (readConfig p >>= k) := by
  rw [readConfig, bind_assoc]
  exact StuckAt.read hk

theorem stuckAt_freeIf {s : Option StringAt} {k : Unit → Mem β} (hk : StuckAt a C (k ())) :
    StuckAt a (stringCells s + C) (freeIf (s.map StringAt.ptr) >>= k) := by
  cases s with
  | none => exact hk.of_eq (zero_add C)
  | some s => exact (StuckAt.free hk).of_eq (Multiset.singleton_add _ C)

/-- An array that has been freed is read before anything else happens to
it. -/
theorem stuckAt_freeCommand (argc : ℤ) : StuckAt a C (freeCommand (some a) argc) := by
  show StuckAt a C (freeWordsFrom a argc.toNat 0 >>= fun _ => Heap.free a)
  cases argc.toNat with
  | zero =>
    rw [freeWordsFrom, pure_bind, ← bind_pure (Heap.free a)]
    exact StuckAt.free_dead
  | succ n =>
    rw [freeWordsFrom, bind_assoc, readWord, bind_assoc]
    exact StuckAt.read_dead

/-- **A configuration whose array of words has been freed cannot be
freed.** -/
theorem stuckAt_freeContainerConfig (t : ConfigAt) {c : CommandAt} (hc : t.command = some c) :
    StuckAt c.array ((t.self, .config t.block) ::ₘ (t.stringsCells + C))
      (freeContainerConfig (some t.self)) := by
  rw [freeContainerConfig]
  refine stuckAt_readConfig ?_
  have hcells : (t.self, Block.config t.block) ::ₘ (t.stringsCells + C)
      = stringCells t.id + (stringCells t.rootPath + (stringCells t.fsRootPath
        + ((t.self, Block.config t.block) ::ₘ C))) := by
    rw [ConfigAt.stringsCells, ← Multiset.singleton_add, ← Multiset.singleton_add]
    abel
  rw [hcells]
  refine stuckAt_freeIf (stuckAt_freeIf (stuckAt_freeIf ?_))
  rw [show t.block.command = some c.array by rw [ConfigAt.block, hc]; rfl]
  exact (stuckAt_freeCommand _).bind _

end

/-! ## Copying the words -/

theorem copyString_spec (env : Env) (site : AllocSite) (s : Option CStr) :
    Triple 0 (copyString env site s) (fun r C =>
      (s.isSome = true ∧ ¬ env.alloc site = true ∧ r = none ∧ C = 0) ∨
      (¬ (s.isSome = true ∧ ¬ env.alloc site = true) ∧
        ∃ t : Option StringAt, t.map StringAt.text = s ∧ r = some (t.map StringAt.ptr) ∧
          C = stringCells t)) := by
  cases s with
  | none => exact Triple.pure (Or.inr ⟨by simp, none, rfl, rfl, rfl⟩)
  | some s =>
    rw [copyString, strdup]
    by_cases halloc : env.alloc site = true
    · rw [if_pos halloc, bind_assoc]
      refine Runs.malloc (fun p => ?_)
      rw [pure_bind]
      exact Triple.pure (Or.inr ⟨by simp [halloc], some ⟨p, s⟩, rfl, rfl, rfl⟩)
    · rw [if_neg halloc, pure_bind]
      exact Triple.pure (Or.inl ⟨rfl, halloc, rfl, rfl⟩)

/-- What the copy of a word is. -/
def copyWordAt (env : Env) (src : List (Option CStr)) (i : ℕ) : Option (Option CStr) :=
  match at? src i with
  | some word => if env.alloc (.configWord i) then some (some word) else none
  | none => some none

theorem copyWords_eq (env : Env) (src : List (Option CStr)) (n : ℕ) :
    copyWords env src n = (List.range' 0 n).mapM (copyWordAt env src) := by
  rw [← List.range_eq_range']
  rfl

theorem copyWord_spec (env : Env) (src : List (Option CStr)) (i : ℕ) :
    Triple 0 (copyString env (.configWord i) (at? src i)) (fun r C =>
      (copyWordAt env src i = none ∧ r = none ∧ C = 0) ∨
      ∃ t : Option StringAt, copyWordAt env src i = some (t.map StringAt.text) ∧
        r = some (t.map StringAt.ptr) ∧ C = stringCells t) := by
  refine (copyString_spec env _ _).mono (fun r C hr => ?_)
  unfold copyWordAt
  rcases hr with ⟨hsome, halloc, rfl, rfl⟩ | ⟨halloc, t, ht, rfl, rfl⟩
  · obtain ⟨word, hword⟩ := Option.isSome_iff_exists.mp hsome
    rw [hword]
    exact Or.inl ⟨if_neg halloc, rfl, rfl⟩
  · refine Or.inr ⟨t, ?_, rfl, rfl⟩
    rw [ht]
    cases hword : at? src i with
    | none => rfl
    | some word =>
      rw [hword] at halloc
      exact if_pos (by simpa using halloc)

@[simp] theorem wordCells_replicate (n : ℕ) : wordCells (List.replicate n none) = 0 := by
  induction n with
  | zero => rfl
  | succ n ih =>
    rw [List.replicate_succ, wordCells_cons, ih]
    rfl

/-- **The loop copies the words one after the other** until one of them
cannot be copied. The array starts with the words `ws` and has room for `n`
more. -/
theorem copyWordsFrom_spec (env : Env) (src : List (Option CStr)) (a : ℕ)
    (ws : List (Option StringAt)) (n : ℕ) :
    Triple (CommandAt.mk a (ws ++ List.replicate n none)).cells
      (copyWordsFrom env src a n ws.length) (fun r C =>
        (∃ ws', (List.range' ws.length n).mapM (copyWordAt env src)
            = some (ws'.map (Option.map StringAt.text)) ∧
          ws'.length = n ∧ r = none ∧ C = (CommandAt.mk a (ws ++ ws')).cells) ∨
        (∃ ws' m, (List.range' ws.length n).mapM (copyWordAt env src) = none ∧
          ws'.length + m = n ∧ r = some (ws ++ ws').length ∧
          C = (CommandAt.mk a (ws ++ ws' ++ List.replicate m none)).cells)) := by
  induction n generalizing ws with
  | zero => exact Triple.pure (Or.inl ⟨[], rfl, rfl, rfl, rfl⟩)
  | succ n ih =>
    rw [copyWordsFrom, List.range'_succ, List.mapM_cons]
    refine (copyWord_spec env src ws.length).bind_zero (fun r C hr => ?_)
    rcases hr with ⟨hword, rfl, rfl⟩ | ⟨t, hword, rfl, rfl⟩
    · rw [zero_add]
      refine Triple.pure (Or.inr ⟨[], n + 1, ?_, Nat.zero_add _, by rw [List.append_nil],
        by rw [List.append_nil]⟩)
      rw [hword]
      rfl
    · -- the word goes into the first free slot
      have hlen : ws.length < ((ws ++ List.replicate (n + 1) none).map
          (Option.map StringAt.ptr) ++ [none]).length := by
        simp
      have hcells : stringCells t + (CommandAt.mk a (ws ++ List.replicate (n + 1) none)).cells
          = (a, (CommandAt.mk a (ws ++ List.replicate (n + 1) none)).block)
            ::ₘ (stringCells t + wordCells ws) := by
        rw [CommandAt.cells, wordCells_append, wordCells_replicate, add_zero, Multiset.add_cons]
      have hset : ((ws ++ List.replicate (n + 1) none).map (Option.map StringAt.ptr)
          ++ [none]).set ws.length (t.map StringAt.ptr)
          = (ws ++ [t] ++ List.replicate n none).map (Option.map StringAt.ptr) ++ [none] := by
        rw [List.map_append, List.append_assoc, List.set_append_right _ _ (by simp)]
        simp [List.replicate_succ]
      have hnext := ih (ws ++ [t])
      rw [List.length_append, List.length_singleton] at hnext
      rw [hcells]
      refine runs_setWord hlen ?_
      rw [hset]
      refine (hnext.of_eq ?_).mono ?_
      · rw [CommandAt.cells, wordCells_append, wordCells_append, wordCells_replicate, add_zero,
          add_comm (wordCells ws)]
        simp [CommandAt.block]
      · rintro r C (⟨ws', hws', hlen', rfl, rfl⟩ | ⟨ws', m, hws', hlen', rfl, rfl⟩)
        · refine Or.inl ⟨t :: ws', ?_, by rw [List.length_cons, hlen'], rfl,
            by rw [List.append_assoc]; rfl⟩
          rw [hword, hws']
          rfl
        · refine Or.inr ⟨t :: ws', m, ?_, by rw [List.length_cons]; omega, by simp,
            by rw [List.append_assoc ws]; rfl⟩
          rw [hword, hws']
          rfl

/-- **What has been copied is freed again** up to a given word. -/
theorem freeCopiedFrom_spec (c : CommandAt) {n j : ℕ} (hn : j + n ≤ c.words.length) :
    Triple ((c.array, c.block) ::ₘ wordCells (c.words.drop j)) (freeCopiedFrom c.array n j)
      (fun _ C => C = (c.array, c.block) ::ₘ wordCells (c.words.drop (j + n))) := by
  induction n generalizing j with
  | zero => exact Triple.pure rfl
  | succ n ih =>
    have hj : j < c.words.length := by omega
    rw [freeCopiedFrom, List.drop_eq_getElem_cons hj]
    refine runs_readWord (getElem?_words c.words hj) ?_
    have hcells : (c.array, c.block) ::ₘ wordCells (c.words[j] :: c.words.drop (j + 1))
        = stringCells c.words[j] + (c.array, c.block) ::ₘ wordCells (c.words.drop (j + 1)) := by
      rw [wordCells_cons, Multiset.add_cons]
    have hnext := ih (j := j + 1) (by omega)
    rw [show j + 1 + n = j + (n + 1) by omega] at hnext
    exact (runs_freeIf hnext).of_eq hcells

/-! ## Copying a configuration -/

/-- **What the copy of values says about memory**: the copied configuration
lies there, nothing does, or the computation is undefined. -/
def CopyHolds : CopyResult → Option (Option ℕ × Cells Block) → Prop
  | .copied config, o => ∃ t : ConfigAt, t.value = config ∧ o = some (some t.self, t.cells)
  | .null, o => o = some (none, 0)
  | .freedTwice, o => o = none

/-- What a configuration points at. -/
def ConfigAt.rest (t : ConfigAt) : Cells Block :=
  t.stringsCells + t.command.elim 0 CommandAt.cells

/-- Assignments that make one configuration of another, which points at some
more cells. -/
theorem runs_assign {β : Type} {D : Cells Block} {R : Option (β × Cells Block) → Prop}
    {k : Unit → Mem β} {f : ConfigBlock → ConfigBlock} (t t' : ConfigAt)
    (hself : t'.self = t.self) (hblock : t'.block = f t.block) (hrest : t'.rest = D + t.rest)
    (hk : Runs t'.cells (k ()) R) : Runs (D + t.cells) (setConfig t.self f >>= k) R := by
  have hcells : D + t.cells = (t.self, Block.config t.block) ::ₘ t'.rest := by
    rw [hrest, ConfigAt.cells, Multiset.add_cons]
    rfl
  rw [hcells]
  refine runs_setConfig ?_
  rw [← hblock, ← hself]
  exact hk

/-- Giving up: what has been copied is freed, and the result is null. -/
theorem runs_giveUp (t : ConfigAt) (ht : t.leaked = 0) :
    Runs t.cells (freeContainerConfig (some t.self) >>= fun _ => pure none)
      (CopyHolds .null) := by
  have hrun := runs_freeContainerConfig (C := 0) (R := CopyHolds .null)
    (k := fun _ => pure (none : Option ℕ)) t ht (Runs.pure rfl)
  exact hrun.of_eq (add_zero _).symm

/-- What the words of a command add to a configuration. -/
def copiedCommand (env : Env) (src config : ContainerConfig) : CopyResult :=
  match src.command with
  | some command =>
    if src.commandArgc > 0 then
      if ¬ env.alloc .configCommand then .null
      else
        match copyWords env command src.commandArgc.toNat with
        | some words =>
          .copied { config with command := some words, commandArgc := src.commandArgc }
        | none => .freedTwice
    else .copied { config with command := none, commandArgc := 0 }
  | none => .copied { config with command := none, commandArgc := 0 }

/-- A configuration without a command and with a count. -/
def ConfigAt.withArgc (t : ConfigAt) (ht : t.command = none) (argc : ℤ) : ConfigAt :=
  { t with commandArgc := argc, argc_eq := by rw [ht]; nofun }

/-- A configuration with an array of words. -/
def ConfigAt.withCommand (t : ConfigAt) (c : CommandAt) (hc : t.commandArgc = c.words.length) :
    ConfigAt :=
  { t with command := some c, argc_eq := by rintro _ ⟨⟩; exact hc }

/-- **The array and its words**: they are copied into a configuration, or
the array is freed twice. -/
theorem copyArray_runs (env : Env) (src : List (Option CStr)) (t : ConfigAt)
    (ht : t.command = none) (a n : ℕ) (hargc : t.commandArgc = n) (config : ContainerConfig)
    (hconfig : config = t.value) :
    Runs ((a, Block.words (List.replicate (n + 1) none)) ::ₘ t.cells)
      (setConfig t.self (fun c => { c with command := some a }) >>= fun _ => do
        match ← copyWordsFrom env src a n 0 with
        | none => do
          setWord a n none
          pure (some t.self)
        | some i => do
          freeCopiedFrom a i 0
          Heap.free a
          freeContainerConfig (some t.self)
          pure none)
      (CopyHolds (match copyWords env src n with
        | some words => .copied { config with command := some words }
        | none => .freedTwice)) := by
  have hcells : (a, Block.words (List.replicate (n + 1) none)) ::ₘ t.cells
      = (t.self, Block.config t.block) ::ₘ (t.stringsCells
        + (CommandAt.mk a ([] ++ List.replicate n none)).cells) := by
    rw [CommandAt.cells, wordCells_append, wordCells_replicate, ConfigAt.cells, ht,
      Multiset.cons_swap, Multiset.add_cons]
    simp [CommandAt.block, List.replicate_succ']
  -- while the words are copied, the configuration already points at the array
  have hswap : ∀ c : CommandAt, (t.self, Block.config { t.block with command := some a })
      ::ₘ (t.stringsCells + c.cells)
      = c.cells + (t.self, Block.config { t.block with command := some a }) ::ₘ t.stringsCells := by
    intro c
    rw [Multiset.add_cons, add_comm]
  rw [hcells, copyWords_eq]
  refine runs_setConfig ?_
  rw [hswap]
  refine (copyWordsFrom_spec env src a [] n).bind_frame _ (fun r C hr => ?_)
  rcases hr with ⟨ws, hws, hlen, rfl, rfl⟩ | ⟨ws, m, hws, hlen, rfl, rfl⟩
  · -- every word has been copied, and the null behind them is written again
    rw [List.nil_append, show (List.range' 0 n).mapM (copyWordAt env src) = _ from hws]
    have hset : (ws.map (Option.map StringAt.ptr) ++ [none]).set n none
        = ws.map (Option.map StringAt.ptr) ++ [none] := by
      rw [List.set_append_right _ _ (by simp [hlen])]
      simp [hlen]
    rw [CommandAt.cells, Multiset.cons_add]
    have hlt : n < (ws.map (Option.map StringAt.ptr) ++ [none]).length := by simp [hlen]
    refine runs_setWord hlt (Runs.pure ?_)
    refine ⟨t.withCommand ⟨a, ws⟩ (by rw [hargc, hlen]), by rw [hconfig]; rfl, ?_⟩
    rw [hset]
    exact congrArg (fun D => some (some t.self, D))
      ((Multiset.cons_add _ _ _).symm.trans (hswap ⟨a, ws⟩).symm)
  · -- the words are freed, then the array, and the array once more with the configuration
    rw [show (List.range' 0 n).mapM (copyWordAt env src) = _ from hws]
    have hfreed := freeCopiedFrom_spec ⟨a, [] ++ ws ++ List.replicate m none⟩ (j := 0)
      (n := ([] ++ ws).length) (by simp)
    refine hfreed.bind_frame _ (fun _ C hC => ?_)
    rw [hC, Nat.zero_add, List.drop_left, wordCells_replicate, Multiset.cons_add, zero_add]
    refine StuckAt.runs_free (StuckAt.bind ?_ _) rfl
    have hstuck := stuckAt_freeContainerConfig (C := 0)
      (t.withCommand ⟨a, ws ++ List.replicate m none⟩ (by rw [hargc]; simp [← hlen])) rfl
    exact hstuck.of_eq (by rw [add_zero]; rfl)

/-- **The command**: what the copy of values adds to a configuration lies in
memory, or the array of words is freed twice. -/
theorem copyCommand_runs (env : Env) (src : ContainerConfig) (t : ConfigAt)
    (ht : t.command = none) (hargc : t.commandArgc = 0) :
    Runs t.cells (copyCommand env src t.self) (CopyHolds (copiedCommand env src t.value)) := by
  -- the two ways in which there is no command
  have hnone : Runs t.cells
      (setConfig t.self (fun c => { c with command := none, commandArgc := 0 })
        >>= fun _ => pure (some t.self))
      (CopyHolds (.copied { t.value with command := none, commandArgc := 0 })) := by
    have hvalue : t.value = { t.value with command := none, commandArgc := 0 } := by
      rw [ConfigAt.value, ht, hargc]
      rfl
    have hblock : t.block = { t.block with command := none, commandArgc := 0 } := by
      rw [ConfigAt.block, ht, hargc]
      rfl
    refine (runs_assign (D := 0) t t rfl ?_ (zero_add _).symm ?_).of_eq (zero_add _).symm
    · exact hblock
    · exact Runs.pure ⟨t, hvalue, rfl⟩
  unfold copyCommand copiedCommand
  cases hcommand : src.command with
  | none => exact hnone
  | some command =>
    by_cases hpos : src.commandArgc > 0
    · obtain ⟨n, hn⟩ := Int.eq_ofNat_of_zero_le hpos.le
      simp only [if_pos hpos]
      -- first the count, then the array
      refine (runs_assign (D := 0) t (t.withArgc ht src.commandArgc) rfl rfl
        (zero_add _).symm ?_).of_eq (zero_add _).symm
      by_cases halloc : env.alloc .configCommand = true
      · rw [if_pos halloc, if_neg (not_not_intro halloc),
          show src.commandArgc.toNat = n by simp [hn]]
        exact Runs.malloc (fun a =>
          copyArray_runs env command (t.withArgc ht src.commandArgc) ht a n hn _ rfl)
      · rw [if_neg halloc, if_pos halloc]
        refine runs_giveUp (t.withArgc ht src.commandArgc) ?_
        show Option.elim t.command 0 _ = 0
        rw [ht]
        rfl
    · simp only [if_neg hpos]
      exact hnone

/-- What `calloc` leaves, as a configuration in memory. -/
def ConfigAt.fresh (p : ℕ) : ConfigAt where
  self := p
  id := none
  rootPath := none
  nsConfig := ⟨0⟩
  resLimits := ⟨⟨0, 0, 0⟩, ⟨0, 0⟩, 0⟩
  fsRootPath := none
  fsMethod := .chroot
  createMinimalFs := 0
  command := none
  commandArgc := 0
  argc_eq := nofun

/-- **`copy_container_config` in memory is the copy of values.** Where the
copy of values has a result, the block the pointer leads to means that
configuration; where it is null, nothing is left allocated; and exactly
where a word cannot be copied the computation is undefined. -/
theorem copyContainerConfigM_runs (env : Env) (src : ContainerConfig) :
    Runs 0 (copyContainerConfigM env src) (CopyHolds (copyContainerConfig env src)) := by
  unfold copyContainerConfigM copyContainerConfig
  by_cases halloc : env.alloc .config = true
  swap
  · rw [if_neg halloc, if_pos halloc]
    exact Runs.pure rfl
  rw [if_pos halloc, if_neg (not_not_intro halloc)]
  refine Runs.malloc (fun dst => ?_)
  have hfresh : (dst, Block.config ConfigBlock.zero) ::ₘ 0 = (ConfigAt.fresh dst).cells := rfl
  rw [hfresh]
  refine (copyString_spec env .configId src.id).bind_zero (fun r C hr => ?_)
  rcases hr with ⟨hsome, hfail, rfl, rfl⟩ | ⟨hok, id, hid, rfl, rfl⟩
  · rw [if_pos ⟨hsome, hfail⟩, zero_add]
    exact Runs.free (Runs.pure rfl)
  rw [if_neg hok]
  let t₁ : ConfigAt := { ConfigAt.fresh dst with id := id }
  refine runs_assign (.fresh dst) t₁ rfl rfl (by simp [t₁, ConfigAt.rest, ConfigAt.stringsCells,
    ConfigAt.fresh, stringCells]) ?_
  refine (copyString_spec env .configRootPath src.rootPath).bind_zero (fun r C hr => ?_)
  rcases hr with ⟨hsome, hfail, rfl, rfl⟩ | ⟨hok, rootPath, hroot, rfl, rfl⟩
  · rw [if_pos ⟨hsome, hfail⟩, zero_add]
    exact runs_giveUp t₁ rfl
  rw [if_neg hok]
  let t₂ : ConfigAt := { t₁ with
    rootPath := rootPath
    nsConfig := src.nsConfig
    resLimits := src.resLimits
    fsMethod := src.fsConfig.method
    createMinimalFs := src.fsConfig.createMinimalFs }
  refine runs_assign t₁ t₂ rfl rfl (by
    simp [t₁, t₂, ConfigAt.rest, ConfigAt.stringsCells, ConfigAt.fresh, stringCells, add_comm]) ?_
  refine (copyString_spec env .configFsRootPath src.fsConfig.rootPath).bind_zero (fun r C hr => ?_)
  rcases hr with ⟨hsome, hfail, rfl, rfl⟩ | ⟨hok, fsRootPath, hfs, rfl, rfl⟩
  · rw [if_pos ⟨hsome, hfail⟩, zero_add]
    exact runs_giveUp t₂ rfl
  rw [if_neg hok]
  let t₃ : ConfigAt := { t₂ with fsRootPath := fsRootPath }
  refine runs_assign t₂ t₃ rfl rfl ?_ ?_
  · simp only [t₁, t₂, t₃, ConfigAt.rest, ConfigAt.stringsCells, ConfigAt.fresh, stringCells,
      Option.elim_none, add_zero]
    abel
  -- what is left is the command
  have hvalue : t₃.value = { src with command := none, commandArgc := 0 } := by
    simp only [t₁, t₂, t₃, ConfigAt.value, ConfigAt.fresh, hid, hroot, hfs]
    rfl
  have hrest := copyCommand_runs env src t₃ rfl rfl
  rw [hvalue] at hrest
  exact hrest

/-- No word of a list stands behind a null. -/
def Gapless {α : Type} (l : List (Option α)) : Prop := ∀ w ∈ l.dropWhile Option.isSome, w = none

/-- No word that a configuration counts stands behind a null. -/
def GaplessConfig (c : ContainerConfig) : Prop :=
  ∀ command, c.command = some command →
    Gapless ((List.range c.commandArgc.toNat).map (at? command))

theorem stringCells_eq_zero {s : Option StringAt} : stringCells s = 0 ↔ s = none := by
  cases s with
  | none => exact iff_of_true rfl rfl
  | some s => exact iff_of_false (Multiset.singleton_ne_zero _) nofun

theorem wordCells_eq_zero {ws : List (Option StringAt)} :
    wordCells ws = 0 ↔ ∀ w ∈ ws, w = none := by
  induction ws with
  | nil => exact iff_of_true rfl nofun
  | cons w ws ih =>
    rw [wordCells_cons, add_eq_zero, stringCells_eq_zero, ih, List.forall_mem_cons]

/-- Reading an array word by word gives the words. -/
theorem map_at?_range {α : Type} (l : List (Option α)) :
    (List.range l.length).map (at? l) = l := by
  refine List.ext_getElem (by simp) (fun i h₁ h₂ => ?_)
  rw [List.getElem_map, List.getElem_range, at?, List.getElem?_eq_getElem h₂]
  rfl

/-- **A configuration is freed whole** exactly where no word stands behind a
null. -/
theorem ConfigAt.leaked_eq_zero_iff (t : ConfigAt) : t.leaked = 0 ↔ GaplessConfig t.value := by
  cases hcommand : t.command with
  | none =>
    rw [leaked, GaplessConfig, value, hcommand]
    exact iff_of_true rfl nofun
  | some c =>
    have hargc : t.value.commandArgc.toNat = (c.words.map (Option.map StringAt.text)).length := by
      rw [List.length_map]
      show t.commandArgc.toNat = _
      rw [t.argc_eq c hcommand, Int.toNat_natCast]
    have hvalue : t.value.command = some (c.words.map (Option.map StringAt.text)) := by
      rw [value, hcommand]
      rfl
    have hpred : (Option.isSome ∘ Option.map StringAt.text) = Option.isSome := by
      funext w
      exact Option.isSome_map
    rw [leaked, hcommand, Option.elim_some, wordCells_eq_zero, GaplessConfig, hvalue]
    simp only [Option.some.injEq, forall_eq', hargc, map_at?_range]
    simp only [Gapless, List.dropWhile_map, hpred, List.forall_mem_map, Option.map_eq_none_iff]

/-- The words a copy has are the words of the original. -/
theorem copyWords_eq_some {env : Env} {src : List (Option CStr)} {n : ℕ}
    {words : List (Option CStr)} (h : copyWords env src n = some words) :
    words = (List.range n).map (at? src) := by
  have hword : ∀ i w, copyWordAt env src i = some w → w = at? src i := by
    intro i w hw
    unfold copyWordAt at hw
    split at hw
    · next word hat =>
      split at hw
      · rw [hat]
        exact (Option.some.inj hw).symm
      · cases hw
    · next hat =>
      rw [hat]
      exact (Option.some.inj hw).symm
  change (List.range n).mapM (copyWordAt env src) = some words at h
  generalize List.range n = l at h ⊢
  induction l generalizing words with
  | nil => exact (Option.some.inj h).symm
  | cons i l ih =>
    rw [List.mapM_cons] at h
    obtain ⟨w, hw, h⟩ := Option.bind_eq_some_iff.mp h
    obtain ⟨ws, hws, h⟩ := Option.bind_eq_some_iff.mp h
    rw [← Option.some.inj h, List.map_cons, hword i w hw, ih hws]

/-- **A copy has a word behind a null** exactly where the original has
one. -/
theorem gaplessConfig_of_copied {env : Env} {src config : ContainerConfig}
    (h : copyContainerConfig env src = .copied config) :
    GaplessConfig config ↔ GaplessConfig src := by
  -- a command that is not there, or not counted, is not copied
  have hnone : ∀ c : ContainerConfig, c.command = none ∨ c.commandArgc ≤ 0 → GaplessConfig c := by
    rintro c (hc | hc) command hcommand
    · rw [hc] at hcommand
      cases hcommand
    · rw [Int.toNat_of_nonpos hc]
      exact nofun
  unfold copyContainerConfig at h
  iterate 4
    split at h
    · cases h
  cases hcommand : src.command with
  | none =>
    rw [hcommand] at h
    cases h
    exact iff_of_true (hnone _ (Or.inl rfl)) (hnone _ (Or.inl hcommand))
  | some command =>
    rw [hcommand] at h
    dsimp only at h
    split at h
    · next hpos =>
      split at h
      · cases h
      · split at h
        · next words hwords =>
          cases h
          have hlen : words.length = src.commandArgc.toNat := by
            rw [copyWords_eq_some hwords, List.length_map, List.length_range]
          simp only [GaplessConfig, hcommand, Option.some.injEq, forall_eq']
          rw [← hlen, map_at?_range, hlen, ← copyWords_eq_some hwords]
        · cases h
    · next hpos =>
      cases h
      exact iff_of_true (hnone _ (Or.inl rfl)) (hnone _ (Or.inr (not_lt.mp hpos)))

/-- A command without nulls. -/
theorem gaplessConfig_plain (containerId : Option CStr) (command : List CStr) :
    GaplessConfig (.plain containerId command) := by
  rintro _ ⟨⟩
  have hlen : (ContainerConfig.plain containerId command).commandArgc.toNat
      = (command.map some).length := by
    rw [List.length_map]
    exact Int.toNat_natCast _
  rw [hlen, map_at?_range, Gapless, List.dropWhile_eq_nil_iff.mpr (by simp)]
  exact nofun

/-- **Copying a configuration and freeing the copy** leaves nothing exactly
where no counted word of the original stands behind a null. -/
theorem copy_then_free_iff {env : Env} {src config : ContainerConfig}
    (h : copyContainerConfig env src = .copied config) :
    Triple 0 (copyContainerConfigM env src >>= freeContainerConfig) (fun _ C => C = 0) ↔
      GaplessConfig src := by
  have hcopy : Triple 0 (copyContainerConfigM env src) (fun p C =>
      ∃ t : ConfigAt, t.value = config ∧ p = some t.self ∧ C = t.cells) := by
    have hruns := copyContainerConfigM_runs env src
    rw [h] at hruns
    exact hruns.mono (fun _ ⟨t, ht, ho⟩ => ⟨_, _, ho, t, ht, rfl, rfl⟩)
  have hboth : Triple 0 (copyContainerConfigM env src >>= freeContainerConfig) (fun _ C =>
      ∃ t : ConfigAt, t.value = config ∧ C = t.leaked) :=
    hcopy.bind (fun p C ⟨t, ht, hp, hC⟩ => by
      rw [hp, hC]
      exact (freeContainerConfig_spec t).mono (fun _ _ hleaked => ⟨t, ht, hleaked⟩))
  rw [← gaplessConfig_of_copied h]
  constructor
  · intro hfree
    -- both say what is left on a heap on which nothing was live
    have hempty : (Heap.empty : Heap Block).Holds (0 + 0) := holds_empty
    obtain ⟨_, h₁, C₁, hrun₁, hC₁, rfl⟩ := hfree.run hempty
    obtain ⟨_, h₂, C₂, hrun₂, hC₂, t, rfl, rfl⟩ := hboth.run hempty
    rw [hrun₁] at hrun₂
    cases hrun₂
    rw [← t.leaked_eq_zero_iff]
    simpa using hC₂.unique hC₁
  · intro hgap
    exact hboth.mono (fun _ C ⟨t, ht, hC⟩ => by
      rw [hC, t.leaked_eq_zero_iff, ht]
      exact hgap)

theorem copy_then_free_sh :
    Triple 0 (copyContainerConfigM (.willing 42 100) (.plain none ["sh".toList])
      >>= freeContainerConfig) (fun _ C => C = 0) :=
  have hcopy : copyContainerConfig (.willing 42 100) (.plain none ["sh".toList])
      = .copied (.plain none ["sh".toList]) := rfl
  (copy_then_free_iff hcopy).mpr (gaplessConfig_plain none ["sh".toList])

end Memory
