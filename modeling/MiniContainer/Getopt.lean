import MiniContainer.CText

/-!
# Command lines as `getopt_long` reads them

The GNU `getopt_long`, for an option string that starts with neither `+` nor
`-`. It goes through the words of a command line from left to right. A word
that starts with a dash is an option, wherever it stands; any other word is
an operand, and the operands are moved behind the options. An option that
takes an argument has it in the same word or takes the next word for it,
whatever that is. The word `--` ends the options.

`getoptLong` returns what the calls return one after the other, and the
operands in their order, which is what `argv` holds from `optind` on in the
end. `getoptLong_operands` says when the operands are the whole command
line: when no word is an option.
-/

open CText

namespace Getopt

/-- The options of a program: for a letter of the option string whether the
option takes an argument, and the long options with the letters they stand
for. -/
structure Options where
  optstring : CStr
  longOptions : List (CStr × Bool × Char)

/-- One call of `getopt_long` that finds an option: its letter and
`optarg`. -/
inductive Event
  | opt (c : Char) (arg : Option CStr)
  /-- `'?'`: an unknown option, an ambiguous one, one without its argument,
  or one with an argument it does not take. -/
  | unknown
  deriving DecidableEq, Repr

/-- What a word gives: the options that are complete in it, and the letter
of one that takes the next word for its argument. -/
structure Element where
  events : List Event
  awaits : Option Char
  deriving DecidableEq, Repr

/-- A word of the command line. -/
inductive Word
  | operand
  | terminator
  | element (e : Element)
  deriving DecidableEq, Repr

/-- Whether a letter is an option, and then whether it takes an argument:
`strchr(optstring, c)` and the character behind it. -/
def shortOption (opts : Options) (c : Char) : Option Bool :=
  -- marks of the option string, found in it but never options
  if c = ':' ∨ c = ';' then none
  else
    match opts.optstring.dropWhile (· ≠ c) with
    | [] => none
    | _ :: rest => some (rest.head? = some ':')

/-- The letters behind a single dash. -/
def readShort (opts : Options) : CStr → Element
  | [] => ⟨[], none⟩
  | c :: s =>
    match shortOption opts c with
    | none => ⟨[.unknown], none⟩
    | some false => ⟨.opt c none :: (readShort opts s).events, (readShort opts s).awaits⟩
    -- what is left of the word is the argument
    | some true => if s = [] then ⟨[], some c⟩ else ⟨[.opt c (some s)], none⟩

/-- The long option a name means: the one it is, or else the only one it
starts. -/
def longOption (opts : Options) (name : CStr) : Option (Bool × Char) :=
  match opts.longOptions.find? (fun o => o.1 = name) with
  | some o => some o.2
  | none =>
    match opts.longOptions.filter (fun o => name.isPrefixOf o.1) with
    | [] => none
    -- several names that mean the same are not ambiguous
    | o :: os => if os.all (fun o' => o'.2 = o.2) then some o.2 else none

/-- What stands behind two dashes. -/
def readLong (opts : Options) (s : CStr) : Element :=
  match longOption opts (s.takeWhile (· ≠ '=')), s.dropWhile (· ≠ '=') with
  | none, _ => ⟨[.unknown], none⟩
  | some (true, c), [] => ⟨[], some c⟩
  | some (true, c), _ :: value => ⟨[.opt c (some value)], none⟩
  | some (false, c), [] => ⟨[.opt c none], none⟩
  | some (false, _), _ :: _ => ⟨[.unknown], none⟩

/-- What a word of the command line is. -/
def readWord (opts : Options) : CStr → Word
  | ['-', '-'] => .terminator
  | '-' :: '-' :: s => .element (readLong opts s)
  | '-' :: c :: s => .element (readShort opts (c :: s))
  | _ => .operand

/-- **`getopt_long` until it returns `-1`**: what the calls find, in order,
and the operands. -/
def getoptLong (opts : Options) : List CStr → List Event × List CStr
  | [] => ([], [])
  | word :: rest =>
    match readWord opts word with
    | .operand => ((getoptLong opts rest).1, word :: (getoptLong opts rest).2)
    | .terminator => ([], rest)
    | .element ⟨events, none⟩ =>
      (events ++ (getoptLong opts rest).1, (getoptLong opts rest).2)
    | .element ⟨events, some c⟩ =>
      match rest with
      | [] => (events ++ [.unknown], [])
      | arg :: rest =>
        (events ++ .opt c (some arg) :: (getoptLong opts rest).1, (getoptLong opts rest).2)

/-- A word that is no option: it does not start with a dash, or is one. -/
def IsOperand (word : CStr) : Prop := word = ['-'] ∨ word.head? ≠ some '-'

instance (word : CStr) : Decidable (IsOperand word) := inferInstanceAs (Decidable (_ ∨ _))

section

variable {opts : Options} {word : CStr} {words : List CStr}

theorem readWord_eq_operand_iff : readWord opts word = .operand ↔ IsOperand word := by
  unfold IsOperand
  match word with
  | [] => exact iff_of_true rfl (Or.inr (by simp))
  | [c] =>
    by_cases hc : c = '-'
    · subst hc
      exact iff_of_true rfl (Or.inl rfl)
    · have hword : readWord opts [c] = .operand := by
        unfold readWord
        split <;> simp_all
      exact iff_of_true hword (Or.inr (by simpa using hc))
  | c :: d :: s =>
    by_cases hc : c = '-'
    · subst hc
      have hword : readWord opts ('-' :: d :: s) ≠ .operand := by
        unfold readWord
        split <;> simp_all
      exact iff_of_false hword (by simp)
    · have hword : readWord opts (c :: d :: s) = .operand := by
        unfold readWord
        split <;> simp_all
      exact iff_of_true hword (Or.inr (by simpa using hc))

/-- An operand is passed over and kept. -/
theorem getoptLong_operand (h : IsOperand word) :
    getoptLong opts (word :: words)
      = ((getoptLong opts words).1, word :: (getoptLong opts words).2) := by
  rw [getoptLong, readWord_eq_operand_iff.mpr h]

/-- A word that has all of its options in it. -/
theorem getoptLong_complete {events : List Event}
    (h : readWord opts word = .element ⟨events, none⟩) :
    getoptLong opts (word :: words)
      = (events ++ (getoptLong opts words).1, (getoptLong opts words).2) := by
  rw [getoptLong, h]

/-- A word whose last option takes the next word. -/
theorem getoptLong_awaits {events : List Event} {c : Char} {arg : CStr}
    (h : readWord opts word = .element ⟨events, some c⟩) :
    getoptLong opts (word :: arg :: words)
      = (events ++ .opt c (some arg) :: (getoptLong opts words).1,
        (getoptLong opts words).2) := by
  rw [getoptLong, h]

/-- There are no more operands than words. -/
theorem length_operands_le (opts : Options) (words : List CStr) :
    (getoptLong opts words).2.length ≤ words.length := by
  fun_induction getoptLong opts words with
  | case1 => exact le_rfl
  | case2 word rest hword ih => exact Nat.succ_le_succ ih
  | case3 word rest hword => exact Nat.le_succ _
  | case4 word rest events hword ih => exact ih.trans (Nat.le_succ _)
  | case5 word events c hword => exact Nat.zero_le _
  | case6 word events c arg rest hword ih =>
    exact ih.trans ((Nat.le_succ _).trans (Nat.le_succ _))

/-- Words that are all operands are the operands, and nothing is found. -/
theorem getoptLong_of_operands (h : ∀ word ∈ words, IsOperand word) :
    getoptLong opts words = ([], words) := by
  induction words with
  | nil => rfl
  | cons word rest ih =>
    rw [getoptLong_operand (h word List.mem_cons_self),
      ih (fun w hw => h w (List.mem_cons_of_mem _ hw))]

/-- **The operands are the whole command line exactly if every word is
one.** An option among them is taken away, and what it takes with it is not
put back. -/
theorem getoptLong_operands :
    (getoptLong opts words).2 = words ↔ ∀ word ∈ words, IsOperand word := by
  refine ⟨fun h => ?_, fun h => congrArg Prod.snd (getoptLong_of_operands h)⟩
  induction words with
  | nil => exact fun _ hmem => absurd hmem List.not_mem_nil
  | cons word rest ih =>
    have hlen := length_operands_le opts rest
    have hshort : ∀ {l : List CStr}, l.length ≤ rest.length → l ≠ word :: rest := by
      intro l hl he
      rw [he, List.length_cons] at hl
      omega
    rw [getoptLong] at h
    split at h
    · next hword =>
      have hrest := ih (List.cons.inj h).2
      exact List.forall_mem_cons.mpr ⟨readWord_eq_operand_iff.mp hword, hrest⟩
    -- in the other cases fewer operands come back than there were words
    · exact absurd h (hshort le_rfl)
    · exact absurd h (hshort hlen)
    · split at h
      · exact absurd h (hshort (Nat.zero_le _))
      · next arg rest' =>
        exact absurd h (hshort ((length_operands_le opts rest').trans (Nat.le_succ _)))

end

end Getopt
