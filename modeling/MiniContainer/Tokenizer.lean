import MiniContainer.CText

/-!
# The words of a command line

`interactive_create_container` takes the command it reads apart with a loop
over its bytes. A quote that no backslash stands before opens a quoted section
or closes one that the same character opened, a space outside of such sections
ends an argument, and every other byte is kept.

An argument written between single quotes is read back as it was, with two
exceptions, and `tokenize_quotedLine_iff` says that there are no others. An
empty one leaves nothing in the argument that is pending, and nothing is
added. And the last byte of an argument stands before the quote that should
close it: a backslash there makes the loop keep the quote and go on.
-/

open CText

/-- The locals of the loop: the arguments that are finished, the pending one,
the character that opened the section the loop is in (`in_quotes` and
`quote_char`), and the byte before. -/
structure Tokenizer where
  args : List CStr
  currentArg : CStr
  quoteChar : Option Char
  previous : Option Char
  deriving DecidableEq, Repr

namespace Tokenizer

/-- Before the first byte. -/
def init : Tokenizer := ⟨[], [], none, none⟩

/-- `c` is a quote that no backslash stands before. -/
def IsQuote (t : Tokenizer) (c : Char) : Prop :=
  (c = '"' ∨ c = '\'') ∧ t.previous ≠ some '\\'

instance (t : Tokenizer) (c : Char) : Decidable (t.IsQuote c) :=
  inferInstanceAs (Decidable (_ ∧ _))

/-- `current_arg += c`. -/
def keep (t : Tokenizer) (c : Char) : Tokenizer := { t with currentArg := t.currentArg ++ [c] }

/-- The pending argument is added to the others, unless it is empty. -/
def push (t : Tokenizer) : Tokenizer :=
  if t.currentArg ≠ [] then { t with args := t.args ++ [t.currentArg], currentArg := [] } else t

/-- `++i`: `c` is the byte before. -/
def pass (t : Tokenizer) (c : Char) : Tokenizer := { t with previous := some c }

/-- The body of the loop. -/
def step (t : Tokenizer) (c : Char) : Tokenizer :=
  let next :=
    if t.IsQuote c then
      match t.quoteChar with
      | none => { t with quoteChar := some c }
      | some q => if c = q then { t with quoteChar := none } else t.keep c
    else if c = ' ' ∧ t.quoteChar = none then t.push
    else t.keep c
  next.pass c

/-- The loop. -/
def run (t : Tokenizer) (cmd : CStr) : Tokenizer := cmd.foldl step t

end Tokenizer

open Tokenizer

/-- **The arguments of a command line.** A quoted section that is not closed
goes to the end of the line. -/
def tokenize (cmd : CStr) : List CStr := (init.run cmd).push.args

/-- Arguments between single quotes, with single spaces between them. -/
def quotedLine (args : List CStr) : CStr :=
  [' '].intercalate (args.map fun arg => '\'' :: (arg ++ ['\'']))

namespace Tokenizer

variable {t : Tokenizer}

@[simp] theorem run_nil (t : Tokenizer) : t.run [] = t := rfl

@[simp] theorem run_cons (t : Tokenizer) (c : Char) (cmd : CStr) :
    t.run (c :: cmd) = (t.step c).run cmd := rfl

theorem run_append (t : Tokenizer) (cmd cmd' : CStr) :
    t.run (cmd ++ cmd') = (t.run cmd).run cmd' := List.foldl_append

@[simp] theorem push_quoteChar (t : Tokenizer) : t.push.quoteChar = t.quoteChar := by
  unfold push
  split <;> rfl

@[simp] theorem push_currentArg (t : Tokenizer) : t.push.currentArg = [] := by
  unfold push
  split
  · rfl
  · next hempty => exact not_not.mp hempty

theorem push_args (t : Tokenizer) : t.push.args = t.args ++ [t.currentArg].filter (· ≠ []) := by
  unfold push
  by_cases hempty : t.currentArg = []
  · rw [if_neg (not_not.mpr hempty), hempty]
    exact (List.append_nil _).symm
  · rw [if_pos hempty, List.filter_singleton, decide_eq_true hempty]
    rfl

/-! ## Kept bytes stay -/

/-- The bytes that have been kept. -/
def kept (t : Tokenizer) : CStr := t.args.flatten ++ t.currentArg

@[simp] theorem kept_push (t : Tokenizer) : t.push.kept = t.kept := by
  unfold push
  split
  · unfold kept
    rw [List.flatten_append, List.flatten_singleton, List.append_nil]
  · rfl

@[simp] theorem kept_keep (t : Tokenizer) (c : Char) : (t.keep c).kept = t.kept ++ [c] :=
  (List.append_assoc ..).symm

/-- A byte is kept behind those that were, or it is not kept. -/
theorem kept_step (t : Tokenizer) (c : Char) :
    (t.step c).kept = t.kept ∨ (t.step c).kept = t.kept ++ [c] := by
  unfold step
  dsimp only
  split
  · split
    · exact Or.inl rfl
    · split
      · exact Or.inl rfl
      · exact Or.inr (kept_keep t c)
  · split
    · exact Or.inl (kept_push t)
    · exact Or.inr (kept_keep t c)

theorem kept_prefix_step (t : Tokenizer) (c : Char) : t.kept <+: (t.step c).kept := by
  rcases kept_step t c with h | h <;> rw [h]
  exact List.prefix_append _ _

/-- **What has been kept stays.** -/
theorem kept_prefix_run (t : Tokenizer) (cmd : CStr) : t.kept <+: (t.run cmd).kept := by
  induction cmd generalizing t with
  | nil => exact List.prefix_refl _
  | cons c cmd ih => exact (kept_prefix_step t c).trans (ih (t.step c))

/-- The arguments put together are the bytes that were kept. -/
theorem flatten_args_push (t : Tokenizer) : t.push.args.flatten = t.kept := by
  unfold push kept
  split
  · rw [List.flatten_append, List.flatten_singleton]
  · next hnil =>
    rw [not_not.mp hnil, List.append_nil]

/-! ## A quoted argument -/

/-- A byte other than the one that closes the section is kept. -/
theorem step_in_section {q c : Char} (ht : t.quoteChar = some q) (hc : c ≠ q) :
    t.step c = (t.keep c).pass c := by
  unfold step
  rw [ht]
  dsimp only
  rw [if_neg hc, if_neg (fun h : _ ∧ _ => nomatch h.2), ite_self]

/-- **Inside of a section every byte is kept.** -/
theorem run_in_section {q : Char} (ht : t.quoteChar = some q) {arg : CStr} (harg : q ∉ arg) :
    t.run arg = { t with
      currentArg := t.currentArg ++ arg
      previous := arg.getLast?.or t.previous } := by
  induction arg generalizing t with
  | nil =>
    rw [run_nil, List.append_nil]
    rfl
  | cons c arg ih =>
    obtain ⟨hc, harg⟩ := not_or.mp (fun h => harg (List.mem_cons.mpr h))
    have ih := ih (t := (t.keep c).pass c) ht harg
    rw [run_cons, step_in_section ht (Ne.symm hc), ih]
    unfold keep pass
    dsimp only
    rw [List.append_assoc, List.singleton_append, List.getLast?_cons]
    cases arg.getLast? <;> rfl

/-- A quote opens a section. -/
theorem step_open {q : Char} (ht : t.quoteChar = none) (hq : t.IsQuote q) :
    t.step q = { t with quoteChar := some q, previous := some q } := by
  unfold step
  rw [ht]
  dsimp only
  rw [if_pos hq]
  rfl

/-- The same quote closes it. -/
theorem step_close {q : Char} (ht : t.quoteChar = some q) (hq : t.IsQuote q) :
    t.step q = { t with quoteChar := none, previous := some q } := by
  unfold step
  rw [ht]
  dsimp only
  rw [if_pos hq, if_pos rfl]
  rfl

/-- A quote behind a backslash is kept. -/
theorem step_escaped {q : Char} (hq : q = '"' ∨ q = '\'') (ht : t.previous = some '\\') :
    t.step q = (t.keep q).pass q := by
  have hblank : q ≠ ' ' := by
    rcases hq with rfl | rfl <;> decide
  unfold step
  dsimp only
  rw [if_neg (fun h => h.2 ht), if_neg (fun h => hblank h.1)]

/-- A space outside of sections ends the argument. -/
theorem step_space (ht : t.quoteChar = none) :
    t.step ' ' = t.push.pass ' ' := by
  have hquote : ¬ t.IsQuote ' ' := fun h => absurd h.1 (by decide)
  unfold step
  dsimp only
  rw [if_neg hquote, if_pos ⟨rfl, ht⟩]

section

variable {arg : CStr} (ht : t.quoteChar = none) (hprevious : t.previous ≠ some '\\')
  (harg : '\'' ∉ arg)
include ht hprevious harg

/-- The loop at the quote behind an argument. -/
theorem run_open : t.run ('\'' :: arg) = { t with
    currentArg := t.currentArg ++ arg
    quoteChar := some '\''
    previous := arg.getLast?.or (some '\'') } := by
  rw [run_cons, step_open ht ⟨Or.inr rfl, hprevious⟩, run_in_section rfl harg]

/-- **An argument between quotes is kept, and the section is closed**, if it
does not end in a backslash. -/
theorem run_quoted (hlast : arg.getLast? ≠ some '\\') :
    t.run ('\'' :: (arg ++ ['\''])) = { t with
      currentArg := t.currentArg ++ arg
      previous := some '\'' } := by
  rw [← List.cons_append, run_append, run_open ht hprevious harg, run_cons, run_nil, step_close rfl]
  · rw [ht]
  · refine ⟨Or.inr rfl, ?_⟩
    dsimp only
    cases hcase : arg.getLast? with
    | none => decide
    | some c =>
      rw [Option.some_or, ← hcase]
      exact hlast

/-- **If it does, the quote behind it is kept.** -/
theorem mem_kept_run_quoted (hlast : arg.getLast? = some '\\') :
    '\'' ∈ (t.run ('\'' :: (arg ++ ['\'']))).kept := by
  rw [← List.cons_append, run_append, run_open ht hprevious harg, run_cons, run_nil,
    step_escaped (Or.inr rfl) (by rw [hlast]; rfl)]
  exact List.mem_append_right _ List.mem_concat_self

end

/-! ## A list of quoted arguments -/

end Tokenizer

theorem flatten_tokenize (cmd : CStr) : (tokenize cmd).flatten = (init.run cmd).kept :=
  flatten_args_push _

theorem quotedLine_cons (arg : CStr) {args : List CStr} (h : args ≠ []) :
    quotedLine (arg :: args) = '\'' :: (arg ++ ['\'']) ++ ' ' :: quotedLine args := by
  obtain ⟨arg', args, rfl⟩ := List.exists_cons_of_ne_nil h
  unfold quotedLine
  rw [List.map_cons, List.map_cons, List.intercalate_cons_cons, List.append_assoc,
    List.singleton_append]

/-- From between two arguments on, the arguments that are not empty are
added, if none ends in a backslash. -/
theorem Tokenizer.run_quotedLine {t : Tokenizer} (ht : t.quoteChar = none)
    (hprevious : t.previous ≠ some '\\') (hpending : t.currentArg = []) {args : List CStr}
    (hargs : ∀ arg ∈ args, '\'' ∉ arg) (hlast : ∀ arg ∈ args, arg.getLast? ≠ some '\\') :
    (t.run (quotedLine args)).push.args = t.args ++ args.filter (· ≠ []) := by
  induction args generalizing t with
  | nil =>
    rw [show quotedLine [] = [] from rfl, run_nil, push, if_neg (not_not.mpr hpending)]
    exact (List.append_nil _).symm
  | cons arg args ih =>
    obtain ⟨harg, hargs⟩ := List.forall_mem_cons.mp hargs
    obtain ⟨hend, hlast⟩ := List.forall_mem_cons.mp hlast
    have hquoted := run_quoted ht hprevious harg hend
    rw [hpending, List.nil_append] at hquoted
    by_cases hrest : args = []
    · subst hrest
      rw [show quotedLine [arg] = '\'' :: (arg ++ ['\'']) from List.append_nil _, hquoted,
        push_args]
    · -- the space behind the quote ends the argument
      have hspace := step_space (t := { t with currentArg := arg, previous := some '\'' }) ht
      have ih := ih (t := (push { t with currentArg := arg, previous := some '\'' }).pass ' ')
        ((push_quoteChar _).trans ht) (fun h => absurd h (by simp [pass])) (push_currentArg _)
        hargs hlast
      rw [quotedLine_cons arg hrest, run_append, hquoted, run_cons, hspace, ih]
      unfold pass
      rw [push_args, List.append_assoc, ← List.filter_append]
      rfl

/-- **Where an argument ends in a backslash a quote is kept.** -/
theorem Tokenizer.mem_kept_run_quotedLine {t : Tokenizer} (ht : t.quoteChar = none)
    (hprevious : t.previous ≠ some '\\') {args : List CStr} (hargs : ∀ arg ∈ args, '\'' ∉ arg)
    {ends : CStr} (hmem : ends ∈ args) (hends : ends.getLast? = some '\\') :
    '\'' ∈ (t.run (quotedLine args)).kept := by
  induction args generalizing t with
  | nil => cases hmem
  | cons arg args ih =>
    obtain ⟨harg, hargs⟩ := List.forall_mem_cons.mp hargs
    by_cases hend : arg.getLast? = some '\\'
    · have hquote := mem_kept_run_quoted ht hprevious harg hend
      by_cases hrest : args = []
      · subst hrest
        rwa [show quotedLine [arg] = '\'' :: (arg ++ ['\'']) from List.append_nil _]
      · rw [quotedLine_cons arg hrest, run_append]
        exact (kept_prefix_run _ _).subset hquote
    · have hmem : ends ∈ args :=
        (List.mem_cons.mp hmem).resolve_left (fun he => hend (he ▸ hends))
      rw [quotedLine_cons arg (List.ne_nil_of_mem hmem), run_append,
        run_quoted ht hprevious harg hend, run_cons, step_space (by exact ht)]
      exact ih ((push_quoteChar _).trans ht) (fun h => absurd h (by simp [pass])) hargs hmem

/-- **Quoting an argument list survives the tokenizer exactly where no argument
is empty and none ends in a backslash.** -/
theorem tokenize_quotedLine_iff {args : List CStr} (hargs : ∀ arg ∈ args, '\'' ∉ arg) :
    tokenize (quotedLine args) = args ↔
      ∀ arg ∈ args, arg ≠ [] ∧ arg.getLast? ≠ some '\\' := by
  by_cases hlast : ∀ arg ∈ args, arg.getLast? ≠ some '\\'
  · have hline : tokenize (quotedLine args) = args.filter (· ≠ []) :=
      run_quotedLine rfl (by decide) rfl hargs hlast
    rw [hline, List.filter_eq_self]
    exact ⟨fun h arg harg => ⟨of_decide_eq_true (h arg harg), hlast arg harg⟩,
      fun h arg harg => decide_eq_true (h arg harg).1⟩
  · refine iff_of_false (fun htokens => ?_) (fun h => hlast (fun arg harg => (h arg harg).2))
    push Not at hlast
    obtain ⟨ends, hmem, hends⟩ := hlast
    have hquote : '\'' ∈ (tokenize (quotedLine args)).flatten := by
      rw [flatten_tokenize]
      exact mem_kept_run_quotedLine rfl (by decide) hargs hmem hends
    -- but none is in the arguments
    rw [htokens] at hquote
    obtain ⟨arg, harg, hquote⟩ := List.mem_flatten.mp hquote
    exact hargs arg harg hquote
