import MiniContainer.Registry

/-!
# The state file

After every change the manager writes the whole registry to a text file,
and a process that starts reads it back. The writer is a formatter; the
reader is not its inverse by construction. It scans the file line by line
into variables that keep their values from one line to the next, recognises
a key by searching the line for it, and takes the record as complete when a
line holds a closing brace.

`saveState` is the writer, `loadState` the reader. What the reader makes of
a record it takes as complete is `restore`, an operation on the list of
entries: the entry is dropped unless it is worth keeping (`survives`), and
an identifier that is no number is replaced by one (`reloadId`).

The theorem is `loadState_torn`: reading any prefix of what was written,
down to one cut off in the middle of a line, admits the records whose
closing brace is in the prefix and does nothing else. Its two halves are
that a text without a closing brace changes nothing, whatever it is
(`foldl_readLine_of_no_brace`), and that a whole record leaves the reader
where it was before it (`read_record`).

Allocations succeed while the file is read.
-/

open CText GrowArray

namespace StateFile

/-! ## Writing -/

/-- `fprintf(fp, "      \"<key>\": <value><tail>")`. -/
def fprintField (key value tail : CStr) : CStr :=
  "      ".toList ++ (quoted key ++ (": ".toList ++ (value ++ tail)))

/-- The lines of a record up to the brace that closes it. -/
def recordBody (info : ContainerInfo) : CStr :=
  "    \x7b\n".toList
    ++ (fprintField "id".toList (quoted info.id) ",\n".toList
    ++ (fprintField "pid".toList (printDecimal info.pid) ",\n".toList
    ++ (fprintField "state".toList (printDecimal info.state.toInt) ",\n".toList
    ++ (fprintField "created_at".toList (printDecimal info.createdAt) ",\n".toList
    ++ (fprintField "started_at".toList (printDecimal info.startedAt) ",\n".toList
    ++ (fprintField "stopped_at".toList (printDecimal info.stoppedAt) "\n".toList
    ++ "    ".toList))))))

/-- The loop of `save_state`: a comma follows every record but the last. -/
def recordsText : List ContainerInfo → CStr
  | [] => []
  | info :: rest =>
    recordBody info ++ '}' :: ((if rest = [] then [] else [',']) ++ '\n' :: recordsText rest)

/-- What stands in front of the records. -/
def header : CStr := "\x7b\n  \"containers\": [\n".toList

/-- What stands behind them. -/
def footer : CStr := "  ]\n\x7d\n".toList

/-- **`save_state`**: what it writes for a registry. -/
def saveState (cm : ContainerManager) : CStr :=
  header ++ (recordsText cm.entries ++ footer)

/-! ## Reading -/

/-- What the host answers while the file is read: whether `kill(pid, 0)`
finds the process, and the time. -/
structure LoadEnv where
  kill : ℤ → Bool
  now : ℤ

/-- `is_pid_alive`. -/
def isPidAlive (env : LoadEnv) (pid : ℤ) : Bool :=
  if pid ≤ 0 then false else env.kill pid

/-- The variables of `load_state`'s loop. -/
structure Reader where
  cm : ContainerManager
  containerId : CStr
  pid : ℤ
  state : ℤ
  createdAt : ℤ
  startedAt : ℤ
  stoppedAt : ℤ
  loaded : ℕ
  inContainer : Bool

/-- The variables before the first line and after every record. -/
def Reader.idle (cm : ContainerManager) (loaded : ℕ) : Reader where
  cm := cm
  containerId := []
  pid := 0
  state := 0
  createdAt := 0
  startedAt := 0
  stoppedAt := 0
  loaded := loaded
  inContainer := false

/-- The format `" \"<key>\": "` followed by conversions. -/
def fieldFormat (key : CStr) (conv : List Directive) : List Directive :=
  .space :: (lits (quoted key ++ [':']) ++ .space :: conv)

/-- The format of the line with the identifier. -/
def idFormat : List Directive :=
  fieldFormat "id".toList [.lit '"', .notSet 255 '"', .lit '"']

/-- `sscanf(p, format, &variable)` for a number: the variable keeps its old
value where nothing is converted. -/
def scanNum (format : List Directive) (p : CStr) (old : ℤ) : ℤ :=
  match sscanf format p with
  | .num n :: _ => n
  | _ => old

/-- `sscanf(p, format, buffer)` for a text. -/
def scanText (format : List Directive) (p : CStr) (old : CStr) : CStr :=
  match sscanf format p with
  | .text s :: _ => s
  | _ => old

/-- The chain of tests that takes a field from a line. -/
def scanFields (p : CStr) (s : Reader) : Reader :=
  -- a key is looked for anywhere in the line, the value of another one included
  if strstr p (quoted "id".toList) then
    { s with inContainer := true, containerId := scanText idFormat p s.containerId }
  else if s.inContainer && strstr p (quoted "pid".toList) then
    { s with pid := scanNum (fieldFormat "pid".toList [.int]) p s.pid }
  else if s.inContainer && strstr p (quoted "state".toList) then
    { s with state := scanNum (fieldFormat "state".toList [.int]) p s.state }
  else if s.inContainer && strstr p (quoted "created_at".toList) then
    { s with createdAt := scanNum (fieldFormat "created_at".toList [.long]) p s.createdAt }
  else if s.inContainer && strstr p (quoted "started_at".toList) then
    { s with startedAt := scanNum (fieldFormat "started_at".toList [.long]) p s.startedAt }
  else if s.inContainer && strstr p (quoted "stopped_at".toList) then
    { s with stoppedAt := scanNum (fieldFormat "stopped_at".toList [.long]) p s.stoppedAt }
  else s

/-- A container that was running and whose process is gone has stopped. -/
def checkAlive (env : LoadEnv) (s : Reader) : Reader :=
  if s.state = ContainerState.running.toInt ∧ ¬ isPidAlive env s.pid then
    { s with state := ContainerState.stopped.toInt, stoppedAt := env.now }
  else s

/-- The identifier a record is loaded under: its own if it denotes a number,
else the number after the largest one so far. -/
def loadedId (s : Reader) : CStr :=
  if extractNumericId s.containerId < 0 then snprintf 64 (printDecimal s.cm.nextNumericId)
  else s.containerId

/-- The `container_info_t` made of the variables. -/
def loadedInfo (s : Reader) : ContainerInfo where
  id := loadedId s
  pid := s.pid
  state := .ofInt s.state
  createdAt := s.createdAt
  startedAt := s.startedAt
  stoppedAt := s.stoppedAt
  savedConfig := none

/-- The record is added unless its container has stopped or been
destroyed. -/
def addLoaded (s : Reader) : Reader :=
  if s.state ≠ ContainerState.destroyed.toInt ∧ s.state ≠ ContainerState.stopped.toInt then
    match s.cm.addContainer (loadedInfo s) true with
    | some cm => { s with cm := cm, loaded := s.loaded + 1 }
    -- the array could not be grown: the record is lost without a word
    | none => s
  else s

/-- The end of a record: what it says is used and the variables are
reset. -/
def closeRecord (env : LoadEnv) (s : Reader) : Reader :=
  let s := addLoaded (checkAlive env s)
  .idle s.cm s.loaded

/-- `while (*p == ' ' || *p == '\t') p++;` -/
def skipBlanks (p : CStr) : CStr := p.dropWhile (fun c => c = ' ' ∨ c = '\t')

/-- The body of `load_state`'s loop, for the line `fgets` returned. -/
def readLine (env : LoadEnv) (s : Reader) (line : CStr) : Reader :=
  let p := skipBlanks (cstring line)
  if p.head? ∈ [none, some '\n', some '{', some '[', some ']'] then s
  else
    let s := scanFields p s
    -- a brace inside an identifier is taken for the end of the record
    if s.inContainer && (strstr p ['}'] || strstr p ['}', ',']) && s.containerId ≠ [] then
      closeRecord env s
    else s

/-- The loop of `load_state` over a file. -/
def readFile (env : LoadEnv) (s : Reader) (file : CStr) : Reader :=
  (fgetsLines 1024 file).foldl (readLine env) s

/-- **`load_state`** on a file that can be opened: the registry afterwards,
and how many containers were loaded. -/
def loadState (env : LoadEnv) (file : CStr) (cm : ContainerManager) : ContainerManager × ℕ :=
  let s := readFile env (.idle cm 0) file
  (s.cm, s.loaded)

/-! ## What a record means

The reader works on variables; what it does to the registry is an operation
on the list of entries. -/

/-- A container is loaded unless it has stopped, been destroyed, or was
running and its process is gone. -/
def survives (env : LoadEnv) (info : ContainerInfo) : Bool :=
  info.state ≠ .stopped ∧ info.state ≠ .destroyed ∧
    (info.state = .running → isPidAlive env info.pid)

/-- The identifier a record is loaded under, after records with other
identifiers. -/
def reloadId (ids : List CStr) (id : CStr) : CStr :=
  if extractNumericId id < 0 then printDecimal (ContainerManager.nextNumber ids) else id

/-- The entry a record becomes. It has no saved configuration: the file
holds none. -/
def reloadInfo (ids : List CStr) (info : ContainerInfo) : ContainerInfo :=
  { info with id := reloadId ids info.id, savedConfig := none }

/-- **What a complete record does to the entries.** -/
def restore (env : LoadEnv) (l : List ContainerInfo) (info : ContainerInfo) :
    List ContainerInfo :=
  if survives env info then l ++ [reloadInfo (l.map ContainerInfo.id) info] else l

/-- **A text the reader finds as one field of one line**: an identifier of
at most 255 characters without quote, closing brace, newline or NUL. -/
structure PlainId (id : CStr) : Prop where
  ne_nil : id ≠ []
  length_le : id.length ≤ 255
  no_quote : '"' ∉ id
  no_brace : '}' ∉ id
  no_newline : '\n' ∉ id
  no_nul : '\x00' ∉ id

/-- An entry whose fields have the ranges of their types and whose
identifier is plain. -/
structure Storable (info : ContainerInfo) : Prop where
  id : PlainId info.id
  pid : IsInt info.pid
  state : IsInt info.state.toInt
  createdAt : IsLong info.createdAt
  startedAt : IsLong info.startedAt
  stoppedAt : IsLong info.stoppedAt

/-- The parts of the line of a field. -/
theorem fprintField_eq (key value tail : CStr) :
    fprintField key value tail
      = "      ".toList ++ (quoted key ++ (": ".toList ++ (value ++ tail))) := rfl

/-- The lines of the body of a record. -/
theorem recordBody_eq (info : ContainerInfo) :
    recordBody info
      = "    \x7b\n".toList
        ++ (fprintField "id".toList (quoted info.id) ",\n".toList
        ++ (fprintField "pid".toList (printDecimal info.pid) ",\n".toList
        ++ (fprintField "state".toList (printDecimal info.state.toInt) ",\n".toList
        ++ (fprintField "created_at".toList (printDecimal info.createdAt) ",\n".toList
        ++ (fprintField "started_at".toList (printDecimal info.startedAt) ",\n".toList
        ++ (fprintField "stopped_at".toList (printDecimal info.stoppedAt) "\n".toList
        ++ "    ".toList)))))) := rfl

/-- **An invariant of the loop**: what reading a line of the file keeps holds
at its end. -/
theorem readFile_invariant (env : LoadEnv) {I : Reader → Prop} {file : CStr}
    (hline : ∀ line ∈ fgetsLines 1024 file, ∀ s, I s → I (readLine env s line)) {s : Reader}
    (hs : I s) : I (readFile env s file) :=
  List.foldlRecOn _ _ hs (fun s hs line hmem => hline line hmem s hs)

/-! ## Lines that hold no closing brace -/

@[simp] theorem scanFields_cm (p : CStr) (s : Reader) : (scanFields p s).cm = s.cm := by
  unfold scanFields
  split_ifs <;> rfl

/-- The characters the reader looks at are characters of the line. -/
theorem mem_of_mem_skipBlanks {line : CStr} {c : Char} (h : c ∈ skipBlanks (cstring line)) :
    c ∈ line :=
  mem_of_mem_cstring ((List.dropWhile_suffix _).subset h)

/-- **Without a closing brace a line only sets variables.** -/
theorem readLine_of_no_brace (env : LoadEnv) (s : Reader) {line : CStr} (h : '}' ∉ line) :
    readLine env s line
      = if (skipBlanks (cstring line)).head? ∈ [none, some '\n', some '{', some '[', some ']']
        then s else scanFields (skipBlanks (cstring line)) s := by
  have hp : '}' ∉ skipBlanks (cstring line) := fun hmem => h (mem_of_mem_skipBlanks hmem)
  have h₁ : strstr (skipBlanks (cstring line)) ['}'] = false := by
    rw [← Bool.not_eq_true, strstr_singleton]
    exact hp
  have h₂ : strstr (skipBlanks (cstring line)) ['}', ','] = false := by
    rw [← Bool.not_eq_true, strstr_iff]
    exact fun hin => hp (hin.subset List.mem_cons_self)
  simp only [readLine, h₁, h₂, Bool.or_self, Bool.and_false, Bool.false_and,
    Bool.false_eq_true, if_false]

theorem readLine_cm_of_no_brace (env : LoadEnv) (s : Reader) {line : CStr} (h : '}' ∉ line) :
    (readLine env s line).cm = s.cm := by
  rw [readLine_of_no_brace env s h]
  split
  · rfl
  · exact scanFields_cm _ _

/-- **A text without a closing brace changes no registry**, wherever it was
cut off and whatever it says. -/
theorem readFile_cm_of_no_brace (env : LoadEnv) (s : Reader) {file : CStr} (h : '}' ∉ file) :
    (readFile env s file).cm = s.cm := by
  refine readFile_invariant env (I := fun s' => s'.cm = s.cm) (fun line hline s' hs' => ?_) rfl
  rw [readLine_cm_of_no_brace env s' (fun hmem => h (mem_of_mem_fgetsLines hline hmem)), hs']

/-- Without quotes no key is found. -/
theorem scanFields_of_no_quote (s : Reader) {p : CStr} (h : '"' ∉ p) : scanFields p s = s := by
  have hst : ∀ key : CStr, strstr p (quoted key) = false := by
    intro key
    rw [← Bool.not_eq_true, strstr_iff]
    exact fun hin => h (hin.subset List.mem_cons_self)
  simp only [scanFields, hst, Bool.and_false, Bool.false_eq_true, if_false]

/-- Outside a record, or in one without an identifier, a line without quotes
does nothing. -/
theorem readLine_of_no_quote (env : LoadEnv) {s : Reader}
    (hs : s.inContainer = false ∨ s.containerId = []) {line : CStr} (h : '"' ∉ line) :
    readLine env s line = s := by
  have hscan : scanFields (skipBlanks (cstring line)) s = s :=
    scanFields_of_no_quote s (fun hmem => h (mem_of_mem_skipBlanks hmem))
  rcases hs with hs | hs
  · simp only [readLine, hscan, hs, Bool.false_and, Bool.false_eq_true, if_false, ite_self]
  · simp only [readLine, hscan, hs, ne_eq, not_true_eq_false, decide_false, Bool.and_false,
      Bool.false_eq_true, if_false, ite_self]

/-- Outside a record, or in one without an identifier, a text without quotes
does nothing. -/
theorem readFile_of_no_quote (env : LoadEnv) {s : Reader}
    (hs : s.inContainer = false ∨ s.containerId = []) {file : CStr} (h : '"' ∉ file) :
    readFile env s file = s := by
  refine readFile_invariant env (I := fun s' => s' = s) (fun line hline s' hs' => ?_) rfl
  subst hs'
  exact readLine_of_no_quote env hs (fun hmem => h (mem_of_mem_fgetsLines hline hmem))

/-! ## The lines of a record -/

/-- One line that fits the buffer is one round of the loop. -/
theorem readFile_line (env : LoadEnv) (s : Reader) {l : CStr} (hl : '\n' ∉ l)
    (hlen : l.length + 1 < 1024) (t : CStr) :
    readFile env s (l ++ '\n' :: t) = readFile env (readLine env s (l ++ ['\n'])) t := by
  rw [readFile, fgetsLines_line hl hlen, List.foldl_cons]
  rfl

/-- The tests of the loop on a line with one key. -/
theorem scanFields_quoted {k rest : CStr} (hk : '"' ∉ k) (hrest : '"' ∉ rest) (s : Reader) :
    scanFields (quoted k ++ rest) s
      = if "id".toList = k then
          { s with
            inContainer := true
            containerId := scanText idFormat (quoted k ++ rest) s.containerId }
        else if s.inContainer && decide ("pid".toList = k) then
          { s with pid := scanNum (fieldFormat "pid".toList [.int]) (quoted k ++ rest) s.pid }
        else if s.inContainer && decide ("state".toList = k) then
          { s with
            state := scanNum (fieldFormat "state".toList [.int]) (quoted k ++ rest) s.state }
        else if s.inContainer && decide ("created_at".toList = k) then
          { s with
            createdAt :=
              scanNum (fieldFormat "created_at".toList [.long]) (quoted k ++ rest) s.createdAt }
        else if s.inContainer && decide ("started_at".toList = k) then
          { s with
            startedAt :=
              scanNum (fieldFormat "started_at".toList [.long]) (quoted k ++ rest) s.startedAt }
        else if s.inContainer && decide ("stopped_at".toList = k) then
          { s with
            stoppedAt :=
              scanNum (fieldFormat "stopped_at".toList [.long]) (quoted k ++ rest) s.stoppedAt }
        else s := by
  have hst : ∀ key : CStr, '"' ∉ key → strstr (quoted k ++ rest) (quoted key) = decide (key = k) :=
    fun key hkey => strstr_quoted hkey hk hrest
  rw [scanFields, hst "id".toList (by decide), hst "pid".toList (by decide),
    hst "state".toList (by decide), hst "created_at".toList (by decide),
    hst "started_at".toList (by decide), hst "stopped_at".toList (by decide)]
  simp only [decide_eq_true_eq]

/-- A character of no field's punctuation is in the line of a field only
through the key, the value or the tail. -/
theorem not_mem_fprintField {c : Char} (hc : c ∉ [' ', '"', ':']) {key value tail : CStr}
    (hkey : c ∉ key) (hvalue : c ∉ value) (htail : c ∉ tail) :
    c ∉ fprintField key value tail := by
  obtain ⟨hblank, hquote, hcolon, -⟩ : c ≠ ' ' ∧ c ≠ '"' ∧ c ≠ ':' ∧ c ∉ ([] : CStr) := by
    simpa only [List.mem_cons, not_or] using hc
  have hindent : c ∉ "      ".toList := by
    rw [show "      ".toList = List.replicate 6 ' ' from rfl, List.mem_replicate]
    exact fun h => hblank h.2
  have hsep : c ∉ ": ".toList := by
    rw [show ": ".toList = [':', ' '] from rfl]
    exact List.not_mem_cons_of_ne_of_not_mem hcolon
      (List.not_mem_cons_of_ne_of_not_mem hblank List.not_mem_nil)
  simp only [fprintField_eq, quoted, List.mem_append, List.mem_cons, List.not_mem_nil, or_false,
    not_or]
  exact ⟨hindent, ⟨hquote, hkey, hquote⟩, hsep, hvalue, htail⟩

/-- What the reader looks at in the line of a field. -/
theorem skipBlanks_field {key value tail : CStr} (hkey : '\x00' ∉ key) (hvalue : '\x00' ∉ value)
    (htail : '\x00' ∉ tail) :
    skipBlanks (cstring (fprintField key value tail))
      = quoted key ++ (": ".toList ++ (value ++ tail)) := by
  rw [cstring_of_not_mem (not_mem_fprintField (by decide) hkey hvalue htail)]
  rfl

/-- **The line of a field is tested for its key.** -/
theorem readLine_field (env : LoadEnv) (s : Reader) {key value tail : CStr}
    (hkey : '\x00' ∉ key) (hvalue : '\x00' ∉ value) (htail : '\x00' ∉ tail)
    (hbrace : '}' ∉ fprintField key value tail) :
    readLine env s (fprintField key value tail)
      = scanFields (quoted key ++ (": ".toList ++ (value ++ tail))) s := by
  rw [readLine_of_no_brace env s hbrace, skipBlanks_field hkey hvalue htail, if_neg]
  simp [quoted]

/-- The conversion of a field finds what was printed. -/
theorem sscanf_field (key : CStr) (conv : List Directive) (t : CStr) :
    sscanf (fieldFormat key conv) (quoted key ++ (": ".toList ++ t))
      = sscanf (.space :: conv) (' ' :: t) := by
  have h : quoted key ++ (": ".toList ++ t) = (quoted key ++ [':']) ++ (' ' :: t) := by simp
  have hq : quoted key ++ (": ".toList ++ t) = '"' :: (key ++ ['"'] ++ (": ".toList ++ t)) := rfl
  rw [fieldFormat, hq, sscanf_space_of_not (by decide), ← hq, h, sscanf_lits]

theorem scanNum_int {key tail : CStr} {n : ℤ} (hn : IsInt n) (ht : NotDigit tail) (old : ℤ) :
    scanNum (fieldFormat key [.int]) (quoted key ++ (": ".toList ++ (printDecimal n ++ tail))) old
      = n := by
  rw [scanNum, sscanf_field, sscanf_int hn ht]

theorem scanNum_long {key tail : CStr} {n : ℤ} (hn : IsLong n) (ht : NotDigit tail) (old : ℤ) :
    scanNum (fieldFormat key [.long]) (quoted key ++ (": ".toList ++ (printDecimal n ++ tail))) old
      = n := by
  rw [scanNum, sscanf_field, sscanf_long hn ht]

theorem scanText_id {id : CStr} (hid : PlainId id) (tail old : CStr) :
    scanText idFormat (quoted "id".toList ++ (": ".toList ++ (quoted id ++ tail))) old = id := by
  have h : sscanf idFormat (quoted "id".toList ++ (": ".toList ++ (quoted id ++ tail)))
      = [.text id] := by
    rw [idFormat, sscanf_field, quoted, List.cons_append, sscanf_space_blank (by decide)]
    rw [sscanf_lit_cons, if_pos rfl, List.append_assoc, List.singleton_append,
      sscanf_notSet hid.ne_nil hid.length_le hid.no_quote, sscanf_lit_cons, if_pos rfl, sscanf_nil]
  rw [scanText, h]

/-- A text that stays in its line: no newline, NUL or closing brace, and
short enough for the buffer. -/
structure Tame (t : CStr) : Prop where
  no_newline : '\n' ∉ t
  no_nul : '\x00' ∉ t
  no_brace : '}' ∉ t
  length_le : t.length ≤ 257

instance (t : CStr) : Decidable (Tame t) :=
  decidable_of_iff ('\n' ∉ t ∧ '\x00' ∉ t ∧ '}' ∉ t ∧ t.length ≤ 257)
    ⟨fun ⟨h₁, h₂, h₃, h₄⟩ => ⟨h₁, h₂, h₃, h₄⟩, fun ⟨h₁, h₂, h₃, h₄⟩ => ⟨h₁, h₂, h₃, h₄⟩⟩

theorem tame_printDecimal {n : ℤ} (hn : IsLong n) : Tame (printDecimal n) where
  no_newline := not_mem_printDecimal (by decide) (by decide) n
  no_nul := not_mem_printDecimal (by decide) (by decide) n
  no_brace := not_mem_printDecimal (by decide) (by decide) n
  length_le := (length_printDecimal_le hn).trans (by decide)

theorem tame_quoted {id : CStr} (hid : PlainId id) : Tame (quoted id) where
  no_newline := by simp [quoted, hid.no_newline]
  no_nul := by simp [quoted, hid.no_nul]
  no_brace := by simp [quoted, hid.no_brace]
  length_le := by
    have := hid.length_le
    simp only [quoted, List.length_cons, List.length_append, List.length_nil]
    omega

/-- **Reading a field line** is testing it for its key and going on behind
it. -/
theorem readFile_field (env : LoadEnv) (s : Reader) {key value tail : CStr} (hkey : Tame key)
    (hvalue : Tame value) (htail : Tame tail) (t : CStr) :
    readFile env s (fprintField key value (tail ++ ['\n']) ++ t)
      = readFile env (scanFields (quoted key ++ (": ".toList ++ (value ++ (tail ++ ['\n'])))) s)
        t := by
  have hsplit : fprintField key value (tail ++ ['\n']) = fprintField key value tail ++ ['\n'] := by
    simp [fprintField_eq]
  have hline : '\n' ∉ fprintField key value tail :=
    not_mem_fprintField (by decide) hkey.no_newline hvalue.no_newline htail.no_newline
  have hbrace : '}' ∉ fprintField key value (tail ++ ['\n']) := by
    refine not_mem_fprintField (by decide) hkey.no_brace hvalue.no_brace ?_
    rw [List.mem_append, not_or]
    exact ⟨htail.no_brace, by decide⟩
  have hnul : '\x00' ∉ tail ++ ['\n'] := by
    rw [List.mem_append, not_or]
    exact ⟨htail.no_nul, by decide⟩
  have hlen : (fprintField key value tail).length + 1 < 1024 := by
    have h₁ := hkey.length_le
    have h₂ := hvalue.length_le
    have h₃ := htail.length_le
    simp only [fprintField_eq, quoted, List.length_append, List.length_cons, List.length_nil,
      String.length_toList]
    have : "      ".length = 6 := by decide
    have : ": ".length = 2 := by decide
    omega
  rw [← readLine_field env s hkey.no_nul hvalue.no_nul hnul hbrace, hsplit,
    List.append_assoc, List.singleton_append, readFile_line env s hline hlen]

/-- The text behind the value of a field holds no quote. -/
theorem no_quote_number {n : ℤ} {tail : CStr} (htail : '"' ∉ tail) :
    '"' ∉ ": ".toList ++ (printDecimal n ++ (tail ++ ['\n'])) := by
  simp only [List.mem_append, not_or]
  exact ⟨by decide, not_mem_printDecimal (by decide) (by decide) n, htail, by decide⟩

/-- The text behind a number does not continue it. -/
theorem notDigit_tail {tail : CStr} (htail : tail = [] ∨ tail = [',']) :
    NotDigit (tail ++ ['\n']) := by
  rcases htail with rfl | rfl <;> exact fun c hc => by
    simp only [List.nil_append, List.cons_append, List.head?_cons, Option.mem_some_iff] at hc
    subst hc
    decide

/-- The reader in the middle of a record, its variables set to the fields of
an entry. -/
def Reader.recorded (cm : ContainerManager) (loaded : ℕ) (info : ContainerInfo) : Reader where
  cm := cm
  containerId := info.id
  pid := info.pid
  state := info.state.toInt
  createdAt := info.createdAt
  startedAt := info.startedAt
  stoppedAt := info.stoppedAt
  loaded := loaded
  inContainer := true

theorem readFile_idLine (env : LoadEnv) (s : Reader) {id : CStr} (hid : PlainId id) (t : CStr) :
    readFile env s (fprintField "id".toList (quoted id) ",\n".toList ++ t)
      = readFile env { s with inContainer := true, containerId := id } t := by
  rw [show ",\n".toList = [','] ++ ['\n'] from rfl,
    readFile_field env s (by decide) (tame_quoted hid) (by decide)]
  have hfound : strstr (quoted "id".toList ++ (": ".toList ++ (quoted id ++ ([','] ++ ['\n']))))
      (quoted "id".toList) = true :=
    strstr_iff.mpr (List.prefix_append _ _).isInfix
  rw [scanFields, if_pos hfound, scanText_id hid]

/-- The fields of a record that are numbers. -/
inductive NumField
  | pid
  | state
  | createdAt
  | startedAt
  | stoppedAt

/-- The key of a field. -/
def NumField.key : NumField → CStr
  | pid => "pid".toList
  | state => "state".toList
  | createdAt => "created_at".toList
  | startedAt => "started_at".toList
  | stoppedAt => "stopped_at".toList

/-- The range of the type of a field. -/
def NumField.InRange : NumField → ℤ → Prop
  | pid, n => IsInt n
  | state, n => IsInt n
  | createdAt, n => IsLong n
  | startedAt, n => IsLong n
  | stoppedAt, n => IsLong n

/-- The variable of a field takes a value. -/
def NumField.set : NumField → ℤ → Reader → Reader
  | pid, n, s => { s with pid := n }
  | state, n, s => { s with state := n }
  | createdAt, n, s => { s with createdAt := n }
  | startedAt, n, s => { s with startedAt := n }
  | stoppedAt, n, s => { s with stoppedAt := n }

theorem NumField.InRange.isLong {field : NumField} {n : ℤ} (h : field.InRange n) : IsLong n := by
  cases field with
  | pid => exact IsInt.isLong h
  | state => exact IsInt.isLong h
  | createdAt => exact h
  | startedAt => exact h
  | stoppedAt => exact h

theorem NumField.tame_key (field : NumField) : Tame field.key := by
  cases field with
  | pid => exact (by decide : Tame "pid".toList)
  | state => exact (by decide : Tame "state".toList)
  | createdAt => exact (by decide : Tame "created_at".toList)
  | startedAt => exact (by decide : Tame "started_at".toList)
  | stoppedAt => exact (by decide : Tame "stopped_at".toList)

/-- **A number in its line reaches its variable.** -/
theorem scanFields_number (field : NumField) {s : Reader} (hs : s.inContainer = true) {n : ℤ}
    (hn : field.InRange n) {sep : CStr} (hsep : sep = [] ∨ sep = [',']) :
    scanFields (quoted field.key ++ (": ".toList ++ (printDecimal n ++ (sep ++ ['\n'])))) s
      = field.set n s := by
  have hquote : '"' ∉ sep := by rcases hsep with rfl | rfl <;> decide
  cases field with
  | pid =>
    show scanFields (quoted "pid".toList ++ _) s = { s with pid := n }
    rw [scanFields_quoted (by decide) (no_quote_number hquote),
      scanNum_int hn (notDigit_tail hsep), hs]
    rfl
  | state =>
    show scanFields (quoted "state".toList ++ _) s = { s with state := n }
    rw [scanFields_quoted (by decide) (no_quote_number hquote),
      scanNum_int hn (notDigit_tail hsep), hs]
    rfl
  | createdAt =>
    show scanFields (quoted "created_at".toList ++ _) s = { s with createdAt := n }
    rw [scanFields_quoted (by decide) (no_quote_number hquote),
      scanNum_long hn (notDigit_tail hsep), hs]
    rfl
  | startedAt =>
    show scanFields (quoted "started_at".toList ++ _) s = { s with startedAt := n }
    rw [scanFields_quoted (by decide) (no_quote_number hquote),
      scanNum_long hn (notDigit_tail hsep), hs]
    rfl
  | stoppedAt =>
    show scanFields (quoted "stopped_at".toList ++ _) s = { s with stoppedAt := n }
    rw [scanFields_quoted (by decide) (no_quote_number hquote),
      scanNum_long hn (notDigit_tail hsep), hs]
    rfl

/-- **The line of a number sets its variable.** Only the last field of a
record has no comma behind it. -/
theorem readFile_numberLine (env : LoadEnv) (field : NumField) {s : Reader}
    (hs : s.inContainer = true) {n : ℤ} (hn : field.InRange n) {sep : CStr}
    (hsep : sep = [] ∨ sep = [',']) (t : CStr) :
    readFile env s (fprintField field.key (printDecimal n) (sep ++ ['\n']) ++ t)
      = readFile env (field.set n s) t := by
  rw [readFile_field env s field.tame_key (tame_printDecimal hn.isLong)
      (by rcases hsep with rfl | rfl <;> decide), scanFields_number field hs hn hsep]

/-- The lines of a record behind the one with its identifier. -/
def numberLines (info : ContainerInfo) : CStr :=
  fprintField "pid".toList (printDecimal info.pid) ",\n".toList
    ++ (fprintField "state".toList (printDecimal info.state.toInt) ",\n".toList
    ++ (fprintField "created_at".toList (printDecimal info.createdAt) ",\n".toList
    ++ (fprintField "started_at".toList (printDecimal info.startedAt) ",\n".toList
    ++ (fprintField "stopped_at".toList (printDecimal info.stoppedAt) "\n".toList
    ++ "    ".toList))))

theorem recordBody_eq_idLine (info : ContainerInfo) :
    recordBody info
      = "    \x7b\n".toList
        ++ (fprintField "id".toList (quoted info.id) ",\n".toList ++ numberLines info) := rfl

/-- The fields of an entry have the ranges of their types. -/
structure Typed (info : ContainerInfo) : Prop where
  pid : IsInt info.pid
  state : IsInt info.state.toInt
  createdAt : IsLong info.createdAt
  startedAt : IsLong info.startedAt
  stoppedAt : IsLong info.stoppedAt

theorem Storable.typed {info : ContainerInfo} (h : Storable info) : Typed info where
  pid := h.pid
  state := h.state
  createdAt := h.createdAt
  startedAt := h.startedAt
  stoppedAt := h.stoppedAt

/-- The line that opens a record sets nothing. -/
theorem readFile_openLine (env : LoadEnv) (s : Reader) (t : CStr) :
    readFile env s ("    \x7b\n".toList ++ t) = readFile env s t := by
  have hopen : readLine env s ("    \x7b".toList ++ ['\n']) = s := by
    rw [readLine_of_no_brace env s (by decide),
      show skipBlanks (cstring ("    \x7b".toList ++ ['\n'])) = ['{', '\n'] from by decide]
    exact if_pos (by decide)
  rw [show "    \x7b\n".toList ++ t = "    \x7b".toList ++ '\n' :: t from rfl,
    readFile_line env _ (by decide) (by decide), hopen]

/-- **The lines of the numbers set their variables.** -/
theorem readFile_numberLines (env : LoadEnv) {s : Reader} (hs : s.inContainer = true)
    {info : ContainerInfo} (hinfo : Typed info) (t : CStr) :
    readFile env s (numberLines info ++ t)
      = readFile env { Reader.recorded s.cm s.loaded info with containerId := s.containerId }
          ("    ".toList ++ t) := by
  have hcomma : ",\n".toList = [','] ++ ['\n'] := rfl
  have hlast : "\n".toList = [] ++ ['\n'] := rfl
  obtain ⟨cm, containerId, _, _, _, _, _, loaded, inContainer⟩ := s
  obtain rfl : inContainer = true := hs
  simp only [numberLines, List.append_assoc]
  rw [hcomma, hlast]
  refine (readFile_numberLine env .pid rfl hinfo.pid (Or.inr rfl) _).trans ?_
  refine (readFile_numberLine env .state rfl hinfo.state (Or.inr rfl) _).trans ?_
  refine (readFile_numberLine env .createdAt rfl hinfo.createdAt (Or.inr rfl) _).trans ?_
  refine (readFile_numberLine env .startedAt rfl hinfo.startedAt (Or.inr rfl) _).trans ?_
  exact readFile_numberLine env .stoppedAt rfl hinfo.stoppedAt (Or.inl rfl) _

/-- **The body of a record sets the variables to its fields.** -/
theorem readFile_recordBody (env : LoadEnv) (cm : ContainerManager) (loaded : ℕ)
    {info : ContainerInfo} (hinfo : Storable info) (t : CStr) :
    readFile env (.idle cm loaded) (recordBody info ++ t)
      = readFile env (.recorded cm loaded info) ("    ".toList ++ t) := by
  rw [recordBody_eq_idLine, List.append_assoc, readFile_openLine, List.append_assoc,
    readFile_idLine env _ hinfo.id, readFile_numberLines env rfl hinfo.typed]
  rfl

/-! ## The end of a record -/

/-- Keeping a record is `survives`. -/
theorem checkAlive_recorded (env : LoadEnv) (cm : ContainerManager) (loaded : ℕ)
    (info : ContainerInfo) :
    let s := checkAlive env (.recorded cm loaded info)
    (s.state ≠ ContainerState.destroyed.toInt ∧ s.state ≠ ContainerState.stopped.toInt
        ↔ survives env info = true) ∧
      (survives env info = true → s = .recorded cm loaded info) := by
  have hinj : ∀ st : ContainerState, info.state.toInt = st.toInt ↔ info.state = st :=
    fun st => ContainerState.toInt_injective.eq_iff
  by_cases hrun : info.state = .running ∧ ¬ isPidAlive env info.pid = true
  · have hcheck : checkAlive env (.recorded cm loaded info)
        = { Reader.recorded cm loaded info with
            state := ContainerState.stopped.toInt, stoppedAt := env.now } :=
      if_pos ⟨(hinj _).mpr hrun.1, hrun.2⟩
    have hsurv : survives env info = false := by
      simp [survives, hrun.1, hrun.2]
    rw [hcheck, hsurv]
    exact ⟨by simp, by simp⟩
  · have hcheck : checkAlive env (.recorded cm loaded info) = .recorded cm loaded info :=
      if_neg (fun h => hrun ⟨(hinj _).mp h.1, h.2⟩)
    rw [hcheck]
    refine ⟨?_, fun _ => rfl⟩
    show info.state.toInt ≠ _ ∧ info.state.toInt ≠ _ ↔ _
    rw [ne_eq, ne_eq, hinj, hinj, survives, decide_eq_true_iff]
    constructor
    · rintro ⟨hd, hs⟩
      exact ⟨hs, hd, fun h => not_not.mp (fun hn => hrun ⟨h, hn⟩)⟩
    · rintro ⟨hs, hd, -⟩
      exact ⟨hd, hs⟩

/-- The entry made of the variables is the record with its identifier and
its configuration replaced. -/
theorem loadedInfo_recorded {cm : ContainerManager} (hcm : cm.WF) (loaded : ℕ)
    (info : ContainerInfo) : loadedInfo (.recorded cm loaded info) = reloadInfo cm.ids info := by
  -- the largest number is taken over the registry as it is now
  have hnext : cm.nextNumericId = ContainerManager.nextNumber cm.ids := by
    rw [ContainerManager.nextNumericId, ContainerManager.maxNumericId_eq hcm]
    rfl
  have hid : loadedId (.recorded cm loaded info) = reloadId cm.ids info.id := by
    show (if extractNumericId info.id < 0 then _ else _) = _
    rw [show (Reader.recorded cm loaded info).cm = cm from rfl, hnext,
      ContainerManager.snprintf_nextNumber]
    rfl
  unfold loadedInfo reloadInfo
  rw [hid]
  simp only [Reader.recorded, ContainerState.ofInt_toInt]

/-- **The end of a record admits its entry.** -/
theorem closeRecord_recorded (env : LoadEnv) {cm : ContainerManager} (hcm : cm.WF) (loaded : ℕ)
    (info : ContainerInfo) :
    ∃ cm', closeRecord env (.recorded cm loaded info)
        = .idle cm' (loaded + if survives env info then 1 else 0) ∧
      cm'.WF ∧ cm'.entries = restore env cm.entries info ∧ cm'.rm = cm.rm := by
  obtain ⟨hkeep, hsame⟩ := checkAlive_recorded env cm loaded info
  have hclose : closeRecord env (.recorded cm loaded info)
      = .idle (addLoaded (checkAlive env (.recorded cm loaded info))).cm
          (addLoaded (checkAlive env (.recorded cm loaded info))).loaded := rfl
  rw [hclose, addLoaded, restore]
  by_cases hsurv : survives env info = true
  · obtain ⟨cm', hcm'⟩ := cm.addContainer_isSome (loadedInfo (.recorded cm loaded info))
    obtain ⟨hwf, hentries, hrm⟩ := ContainerManager.addContainer_spec hcm hcm'
    rw [if_pos (hkeep.mpr hsurv), if_pos hsurv, if_pos hsurv, hsame hsurv,
      show (Reader.recorded cm loaded info).cm = cm from rfl, hcm']
    exact ⟨cm', rfl, hwf, by rw [hentries, loadedInfo_recorded hcm, ContainerManager.ids], hrm⟩
  · rw [if_neg (fun h => hsurv (hkeep.mp h)), if_neg hsurv, if_neg hsurv]
    refine ⟨cm, ?_, hcm, rfl, rfl⟩
    unfold checkAlive
    split <;> rfl

/-- The line with the closing brace ends the record if an identifier was
read, with or without a comma and with or without its newline. -/
theorem readLine_closing (env : LoadEnv) (s : Reader) {t : CStr}
    (ht : t = [] ∨ t = [','] ∨ t = ['\n'] ∨ t = [',', '\n']) :
    readLine env s ("    ".toList ++ '}' :: t)
      = if s.inContainer ∧ s.containerId ≠ [] then closeRecord env s else s := by
  have hp : skipBlanks (cstring ("    ".toList ++ '}' :: t)) = '}' :: t := by
    rcases ht with rfl | rfl | rfl | rfl <;> rfl
  have hscan : scanFields ('}' :: t) s = s :=
    scanFields_of_no_quote s (by rcases ht with rfl | rfl | rfl | rfl <;> decide)
  have hbrace : strstr ('}' :: t) ['}'] = true := strstr_singleton.mpr List.mem_cons_self
  simp only [readLine, hp, hscan, hbrace]
  rw [if_neg (by simp)]
  simp

/-- **The line of the brace ends the record**, and the loop goes on behind
it. -/
theorem readFile_closed (env : LoadEnv) (s : Reader) {sep : CStr} (hsep : sep = [] ∨ sep = [','])
    (t : CStr) :
    readFile env s ("    ".toList ++ '}' :: (sep ++ '\n' :: t))
      = readFile env (if s.inContainer ∧ s.containerId ≠ [] then closeRecord env s else s) t := by
  rw [show "    ".toList ++ '}' :: (sep ++ '\n' :: t)
      = ("    ".toList ++ '}' :: sep) ++ '\n' :: t from by simp,
    readFile_line env _ (by rcases hsep with rfl | rfl <;> decide)
      (by rcases hsep with rfl | rfl <;> decide),
    List.append_assoc, List.cons_append,
    readLine_closing env s (by rcases hsep with rfl | rfl <;> simp)]

/-- A file may end in the line of the brace: `fgets` returns what there is. -/
theorem readFile_closed_last (env : LoadEnv) (s : Reader) {sep : CStr}
    (hsep : sep = [] ∨ sep = [',']) :
    readFile env s ("    ".toList ++ '}' :: sep)
      = if s.inContainer ∧ s.containerId ≠ [] then closeRecord env s else s := by
  rw [readFile, fgetsLines_last (by rcases hsep with rfl | rfl <;> decide) (by simp)
      (by rcases hsep with rfl | rfl <;> decide), List.foldl_cons, List.foldl_nil,
    readLine_closing env s (by rcases hsep with rfl | rfl <;> simp)]

/-! ## Prefixes of a written file -/

/-- Behind its records a file says nothing, wherever it ends. -/
theorem readFile_footer (env : LoadEnv) (cm : ContainerManager) (loaded : ℕ) {p : CStr}
    (hp : p <+: footer) : readFile env (.idle cm loaded) p = .idle cm loaded :=
  readFile_of_no_quote env (Or.inl rfl) (fun h => absurd (hp.subset h) (by decide))

/-- The body of a record holds no closing brace. -/
theorem no_brace_recordBody {info : ContainerInfo} (hinfo : Storable info) :
    '}' ∉ recordBody info := by
  have hnum : ∀ {key tail : CStr}, '}' ∉ key → '}' ∉ tail → ∀ n,
      '}' ∉ fprintField key (printDecimal n) tail :=
    fun hkey htail n => not_mem_fprintField (by decide) hkey
      (not_mem_printDecimal (by decide) (by decide) n) htail
  have hid : '}' ∉ fprintField "id".toList (quoted info.id) ",\n".toList :=
    not_mem_fprintField (by decide) (by decide) (tame_quoted hinfo.id).no_brace (by decide)
  simp only [recordBody_eq, List.mem_append, not_or]
  refine ⟨by decide, hid, hnum (by decide) (by decide) _, hnum (by decide) (by decide) _,
    hnum (by decide) (by decide) _, hnum (by decide) (by decide) _,
    hnum (by decide) (by decide) _, by decide⟩

/-- **Reading any prefix of the records** admits those whose closing brace
is in the prefix. The induction is on the records; each of them is either
cut off before its brace, and then nothing it says matters, or read as a
whole. -/
theorem readFile_recordsText (env : LoadEnv) {l : List ContainerInfo}
    (hl : ∀ info ∈ l, Storable info) {cm : ContainerManager} (hcm : cm.WF) (loaded : ℕ)
    {p : CStr} (hp : p <+: recordsText l ++ footer) :
    (readFile env (.idle cm loaded) p).cm.WF ∧
      (readFile env (.idle cm loaded) p).cm.entries
        = (l.take (p.count '}')).foldl (restore env) cm.entries ∧
      (readFile env (.idle cm loaded) p).cm.rm = cm.rm := by
  induction l generalizing cm loaded p with
  | nil =>
    rw [readFile_footer env cm loaded hp, List.take_nil]
    exact ⟨hcm, rfl, rfl⟩
  | cons info rest ih =>
    have hinfo := hl info List.mem_cons_self
    have hrest : ∀ info ∈ rest, Storable info := fun i hi => hl i (List.mem_cons_of_mem _ hi)
    have hnamed : (Reader.recorded cm loaded info).inContainer ∧
        (Reader.recorded cm loaded info).containerId ≠ [] := ⟨rfl, hinfo.id.ne_nil⟩
    rw [recordsText, List.append_assoc] at hp
    rcases prefix_append_cons hp (no_brace_recordBody hinfo) with ⟨q, rfl, hq⟩ | ⟨hno, -⟩
    · have hcount : (recordBody info ++ '}' :: q).count '}' = q.count '}' + 1 := by
        rw [List.count_append, List.count_cons_self,
          List.count_eq_zero.mpr (no_brace_recordBody hinfo), Nat.zero_add]
      obtain ⟨cm', hclose, hcm', hentries, hrm⟩ := closeRecord_recorded env hcm loaded info
      rw [readFile_recordBody env cm loaded hinfo, hcount, List.take_succ_cons, List.foldl_cons,
        ← hentries, ← hrm]
      generalize hsep : (if rest = [] then ([] : CStr) else [',']) = sep at hq
      have hsep : sep = [] ∨ sep = [','] := by
        rw [← hsep]
        split
        · exact Or.inl rfl
        · exact Or.inr rfl
      have hq : q <+: sep ++ '\n' :: (recordsText rest ++ footer) := by
        rw [← List.cons_append, ← List.append_assoc]
        exact hq
      rcases prefix_append_cons hq (by rcases hsep with rfl | rfl <;> decide) with
        ⟨q', rfl, hq'⟩ | ⟨hno, hq⟩
      · -- the whole line is there, and the loop goes on behind it
        have hcount' : (sep ++ '\n' :: q').count '}' = q'.count '}' := by
          rcases hsep with rfl | rfl <;> simp
        rw [readFile_closed env _ hsep, if_pos hnamed, hclose, hcount']
        exact ih hrest hcm' _ hq'
      · -- the file ends in the line of the brace
        have hqs : q = [] ∨ q = [','] := by
          rcases hsep with rfl | rfl
          · exact Or.inl (List.prefix_nil.mp hq)
          · rcases List.prefix_cons_iff.mp hq with rfl | ⟨r, rfl, hr⟩
            · exact Or.inl rfl
            · rw [List.prefix_nil.mp hr]
              exact Or.inr rfl
        have hcount' : q.count '}' = 0 := by rcases hqs with rfl | rfl <;> decide
        rw [readFile_closed_last env _ hqs, if_pos hnamed, hclose, hcount', List.take_zero]
        exact ⟨hcm', rfl, rfl⟩
    · -- the file ends before the brace: nothing the record says is used
      have hcm_eq := readFile_cm_of_no_brace env (.idle cm loaded) hno
      rw [List.count_eq_zero.mpr hno, List.take_zero, hcm_eq]
      exact ⟨hcm, rfl, rfl⟩

/-- The header sets nothing. -/
theorem readFile_header (env : LoadEnv) (cm : ContainerManager) (loaded : ℕ) (t : CStr) :
    readFile env (.idle cm loaded) (header ++ t) = readFile env (.idle cm loaded) t := by
  have hkey : readLine env (.idle cm loaded) ("  \"containers\": [".toList ++ ['\n'])
      = .idle cm loaded := by
    have hp : skipBlanks (cstring ("  \"containers\": [".toList ++ ['\n']))
        = quoted "containers".toList ++ ": [\n".toList := by decide
    rw [readLine_of_no_brace env _ (by decide), hp, if_neg (by decide),
      scanFields_quoted (by decide) (by decide)]
    rfl
  rw [show header ++ t
      = "\x7b".toList ++ '\n' :: ("  \"containers\": [".toList ++ '\n' :: t) from rfl,
    readFile_line env _ (by decide) (by decide), readLine_of_no_quote env (Or.inl rfl) (by decide),
    readFile_line env _ (by decide) (by decide), hkey]

/-- **Reading any prefix of a written file** admits, in order, the entries
whose closing brace is in the prefix. -/
theorem loadState_torn (env : LoadEnv) {saved cm : ContainerManager}
    (hsaved : ∀ info ∈ saved.entries, Storable info) (hcm : cm.WF) {p : CStr}
    (hp : p <+: saveState saved) :
    (loadState env p cm).1.WF ∧
      (loadState env p cm).1.entries
        = (saved.entries.take (p.count '}')).foldl (restore env) cm.entries ∧
      (loadState env p cm).1.rm = cm.rm := by
  show (readFile env (.idle cm 0) p).cm.WF ∧ (readFile env (.idle cm 0) p).cm.entries = _ ∧
    (readFile env (.idle cm 0) p).cm.rm = _
  by_cases hbrace : '}' ∈ p
  · have hheader : header <+: p := by
      rcases List.prefix_or_prefix_of_prefix hp (List.prefix_append header _) with h | h
      · exact absurd (h.subset hbrace) (by decide)
      · exact h
    obtain ⟨q, rfl⟩ := hheader
    have hcount : (header ++ q).count '}' = q.count '}' := by
      rw [List.count_append, show header.count '}' = 0 from by decide, Nat.zero_add]
    rw [readFile_header, hcount]
    exact readFile_recordsText env hsaved hcm 0 ((List.prefix_append_right_inj _).mp hp)
  · rw [List.count_eq_zero.mpr hbrace, List.take_zero, readFile_cm_of_no_brace env _ hbrace]
    exact ⟨hcm, rfl, rfl⟩

/-- The closing braces of the records: one each. -/
theorem count_recordsText {l : List ContainerInfo} (hl : ∀ info ∈ l, Storable info) :
    (recordsText l).count '}' = l.length := by
  induction l with
  | nil => rfl
  | cons info rest ih =>
    have hbody := List.count_eq_zero.mpr (no_brace_recordBody (hl info List.mem_cons_self))
    have hsep : (if rest = [] then ([] : CStr) else [',']).count '}' = 0 := by
      split <;> rfl
    rw [recordsText, List.count_append, hbody, List.count_cons_self, List.count_append, hsep,
      List.count_cons_of_ne (by decide), ih (fun i hi => hl i (List.mem_cons_of_mem _ hi)),
      List.length_cons]
    omega

/-- **Reading the whole of a written file** admits every entry. -/
theorem loadState_saveState (env : LoadEnv) {saved cm : ContainerManager}
    (hsaved : ∀ info ∈ saved.entries, Storable info) (hcm : cm.WF) :
    (loadState env (saveState saved) cm).1.WF ∧
      (loadState env (saveState saved) cm).1.entries
        = saved.entries.foldl (restore env) cm.entries ∧
      (loadState env (saveState saved) cm).1.rm = cm.rm := by
  have h := loadState_torn env hsaved hcm (List.prefix_refl _)
  have hcount : saved.entries.length ≤ (saveState saved).count '}' := by
    rw [saveState, List.count_append, List.count_append, count_recordsText hsaved]
    omega
  rwa [List.take_of_length_le hcount] at h

/-! ## Any file

Whatever a file says, the reader makes an entry only where a record ends,
and an entry it makes has neither stopped nor a saved configuration. -/

/-- **An entry that was read from a file.** -/
structure Loaded (info : ContainerInfo) : Prop where
  ne_stopped : info.state ≠ .stopped
  ne_destroyed : info.state ≠ .destroyed
  savedConfig : info.savedConfig = none

/-- The registry of a reader, well-formed and all read from a file. -/
def Reader.Sound (s : Reader) : Prop := s.cm.WF ∧ ∀ info ∈ s.cm.entries, Loaded info

theorem addLoaded_sound {s : Reader} (h : s.Sound) : (addLoaded s).Sound := by
  unfold addLoaded
  split
  · next hstate =>
    split
    · next cm hadd =>
      obtain ⟨hwf, hentries, -⟩ := ContainerManager.addContainer_spec h.1 hadd
      refine ⟨hwf, fun info hmem => ?_⟩
      rcases List.mem_append.mp (hentries ▸ hmem) with hmem | hmem
      · exact h.2 info hmem
      · rw [List.mem_singleton.mp hmem]
        refine ⟨fun hs => hstate.2 ?_, fun hd => hstate.1 ?_, rfl⟩
        · rw [← hs, loadedInfo, ContainerState.toInt_ofInt]
        · rw [← hd, loadedInfo, ContainerState.toInt_ofInt]
    · exact h
  · exact h

theorem readLine_sound (env : LoadEnv) {s : Reader} (h : s.Sound) (line : CStr) :
    (readLine env s line).Sound := by
  have hscan : ∀ p, (scanFields p s).Sound := by
    intro p
    unfold Reader.Sound
    rwa [scanFields_cm]
  unfold readLine
  dsimp only
  split
  · exact h
  · split
    · refine addLoaded_sound (s := checkAlive env _) ?_
      unfold checkAlive
      split <;> exact hscan _
    · exact hscan _

/-- **Whatever a file says**, the entries made of it have not stopped and
have no configuration. -/
theorem loadState_loaded (env : LoadEnv) (file : CStr) {cm : ContainerManager} (hcm : cm.WF)
    (hempty : cm.entries = []) :
    (loadState env file cm).1.WF ∧ ∀ info ∈ (loadState env file cm).1.entries, Loaded info := by
  refine readFile_invariant env (I := Reader.Sound) (fun line _ s hs => readLine_sound env hs line)
    (s := .idle cm 0) ⟨hcm, ?_⟩
  show ∀ info ∈ cm.entries, Loaded info
  rw [hempty]
  exact fun _ hmem => absurd hmem List.not_mem_nil

/-- **Whatever a file says**, the resource manager stays. -/
theorem loadState_rm (env : LoadEnv) (file : CStr) (cm : ContainerManager) :
    (loadState env file cm).1.rm = cm.rm := by
  have hadd : ∀ s : Reader, (addLoaded s).cm.rm = s.cm.rm := by
    intro s
    unfold addLoaded
    split
    · split
      · next cm' hadd => exact ContainerManager.addContainer_rm hadd
      · rfl
    · rfl
  refine readFile_invariant env (I := fun s => s.cm.rm = cm.rm) (fun line _ s hs => ?_)
    (s := .idle cm 0) rfl
  have hscan : ∀ p, (scanFields p s).cm.rm = cm.rm := by
    intro p
    rwa [scanFields_cm]
  unfold readLine
  dsimp only
  split
  · exact hs
  · split
    · refine (hadd _).trans ?_
      unfold checkAlive
      split <;> exact hscan _
    · exact hscan _

end StateFile
