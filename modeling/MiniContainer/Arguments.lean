import MiniContainer.Segments
import MiniContainer.Tokenizer

/-!
# What becomes of every byte

The bytes of a command line by their places. A quote that no backslash stands
before opens a section, unless it stands in one, and closes one that it opened:
`sectionAt_eq_some_iff` says which section a place is in. Such a quote delimits, a
space outside of sections separates, and every other byte is kept.

The loop follows that, byte by byte (`Follows.step`), and so the arguments are the
segments that are cut at the spaces: `tokenize_segments`.
-/

open CText

variable {cmd : CStr}

/-- The quote at a place, if there is one and no backslash stands before it. -/
def quoteAt (cmd : CStr) (i : ℕ) : Option Char :=
  cmd[i]?.filter fun c => (c = '"' ∨ c = '\'') ∧ ¬ (0 < i ∧ cmd[i - 1]? = some '\\')

/-- The quote that opened the section a place is in, if it is in one. -/
def sectionAt (cmd : CStr) : ℕ → Option Char
  | 0 => none
  | i + 1 =>
    match sectionAt cmd i with
    | none => quoteAt cmd i
    | some q => if quoteAt cmd i = some q then none else some q

/-- A quote that opens a section, or closes one that the same quote opened. -/
def Delimits (cmd : CStr) (i : ℕ) : Prop :=
  quoteAt cmd i ≠ none ∧ (sectionAt cmd i = none ∨ sectionAt cmd i = quoteAt cmd i)

/-- A space outside of sections. -/
def Separates (cmd : CStr) (i : ℕ) : Prop := cmd[i]? = some ' ' ∧ sectionAt cmd i = none

/-- Every other byte. -/
def IsKept (cmd : CStr) (i : ℕ) : Prop := ¬ Delimits cmd i ∧ ¬ Separates cmd i

instance (i : ℕ) : Decidable (Delimits cmd i) := inferInstanceAs (Decidable (_ ∧ _))

instance (i : ℕ) : Decidable (Separates cmd i) := inferInstanceAs (Decidable (_ ∧ _))

instance : DecidablePred (IsKept cmd) := fun _ => inferInstanceAs (Decidable (_ ∧ _))

/-- The bytes at some places. -/
def bytesAt (cmd : CStr) (places : List ℕ) : CStr := places.filterMap (cmd[·]?)

/-- The line without the bytes that delimit or separate. -/
def keptBytes (cmd : CStr) : CStr :=
  bytesAt cmd ((List.range cmd.length).filter (IsKept cmd))

/-! ## Sections -/

theorem quoteAt_eq_some_iff {i : ℕ} {q : Char} :
    quoteAt cmd i = some q ↔ cmd[i]? = some q ∧
      (q = '"' ∨ q = '\'') ∧ ¬ (0 < i ∧ cmd[i - 1]? = some '\\') := by
  rw [quoteAt, Option.filter_eq_some_iff, decide_eq_true_iff]

/-- **A place is in a section of `q`** exactly if such a quote stands before it,
outside of sections, and no other behind that. -/
theorem sectionAt_eq_some_iff {i : ℕ} {q : Char} :
    sectionAt cmd i = some q ↔
      ∃ j < i, quoteAt cmd j = some q ∧ sectionAt cmd j = none ∧
        ∀ k, j < k → k < i → quoteAt cmd k ≠ some q := by
  induction i with
  | zero => exact iff_of_false (fun h => nomatch h) (fun ⟨j, hj, _⟩ => absurd hj (by omega))
  | succ i ih =>
    rw [sectionAt]
    cases hsection : sectionAt cmd i with
    | none =>
      rw [hsection] at ih
      constructor
      · exact fun hq => ⟨i, by omega, hq, hsection, fun k hik hki => absurd hki (by omega)⟩
      · rintro ⟨j, hj, hq, hnone, hlater⟩
        by_cases hji : j = i
        · rwa [← hji]
        · exact absurd (ih.mpr ⟨j, by omega, hq, hnone, fun k hjk hki => hlater k hjk (by omega)⟩)
            (fun h => nomatch h)
    | some p =>
      rw [hsection] at ih
      dsimp only
      constructor
      · intro h
        split at h
        · cases h
        · next hp =>
          obtain ⟨j, hj, hq, hnone, hlater⟩ := ih.mp h
          rw [Option.some.inj h] at hp
          refine ⟨j, by omega, hq, hnone, fun k hjk hki => ?_⟩
          by_cases hk : k = i
          · rwa [hk]
          · exact hlater k hjk (by omega)
      · rintro ⟨j, hj, hq, hnone, hlater⟩
        have hji : j ≠ i := by
          rintro rfl
          rw [hsection] at hnone
          cases hnone
        have hp := ih.mpr ⟨j, by omega, hq, hnone, fun k hjk hki => hlater k hjk (by omega)⟩
        rw [Option.some.inj hp, if_neg (hlater i (by omega) (by omega))]

/-- A byte that is no quote leaves the section as it is. -/
theorem sectionAt_succ_of_none {i : ℕ} (h : quoteAt cmd i = none) :
    sectionAt cmd (i + 1) = sectionAt cmd i := by
  rw [sectionAt, h]
  cases sectionAt cmd i with
  | none => rfl
  | some q => exact if_neg (fun h => nomatch h)

/-! ## Bytes -/

theorem bytesAt_concat {places : List ℕ} {i : ℕ} {c : Char} (h : cmd[i]? = some c) :
    bytesAt cmd (places ++ [i]) = bytesAt cmd places ++ [c] := by
  rw [bytesAt, List.filterMap_append, List.filterMap_cons, h]
  rfl

theorem flatten_map_bytesAt (segments : List (List ℕ)) :
    (segments.map (bytesAt cmd)).flatten = bytesAt cmd segments.flatten := by
  unfold bytesAt
  rw [List.filterMap_flatten]

/-- At places of the line there are bytes. -/
theorem bytesAt_eq_nil_iff {places : List ℕ} (h : ∀ i ∈ places, i < cmd.length) :
    bytesAt cmd places = [] ↔ places = [] := by
  rw [bytesAt, List.filterMap_eq_nil_iff]
  constructor
  · intro hnone
    refine List.eq_nil_iff_forall_not_mem.mpr (fun i hi => ?_)
    have := List.getElem?_eq_none_iff.mp (hnone i hi)
    have := h i hi
    omega
  · rintro rfl i hi
    cases hi

/-- What is not empty, as bytes and as places. -/
theorem filter_bytesAt {places : List ℕ} (h : ∀ i ∈ places, i < cmd.length) :
    [bytesAt cmd places].filter (· ≠ []) = ([places].filter (· ≠ [])).map (bytesAt cmd) := by
  by_cases hnil : places = []
  · rw [hnil]
    rfl
  · have hbytes : bytesAt cmd places ≠ [] := fun he => hnil ((bytesAt_eq_nil_iff h).mp he)
    rw [List.filter_singleton, List.filter_singleton, decide_eq_true hnil, decide_eq_true hbytes]
    rfl

namespace Tokenizer

variable {t : Tokenizer} {c : Char} {n : ℕ} {closed : List (List ℕ)} {pending : List ℕ}

/-- **The loop before place `n`**: its arguments are the bytes of the segments. -/
structure Follows (cmd : CStr) (n : ℕ) (t : Tokenizer) (closed : List (List ℕ))
    (pending : List ℕ) : Prop where
  cut : Cut (IsKept cmd) (Separates cmd) n closed pending
  args : t.args = closed.map (bytesAt cmd)
  currentArg : t.currentArg = bytesAt cmd pending
  quoteChar : t.quoteChar = sectionAt cmd n
  previous : t.previous = if 0 < n then cmd[n - 1]? else none

theorem follows_init (cmd : CStr) : Follows cmd 0 init [] [] :=
  ⟨.zero, rfl, rfl, rfl, rfl⟩

/-- What the loop takes for a quote is one. -/
theorem Follows.isQuote_iff (h : Follows cmd n t closed pending) (hc : cmd[n]? = some c) :
    t.IsQuote c ↔ quoteAt cmd n = some c := by
  have hprevious : t.previous ≠ some '\\' ↔ ¬ (0 < n ∧ cmd[n - 1]? = some '\\') := by
    rw [h.previous]
    by_cases hn : 0 < n
    · rw [if_pos hn, and_iff_right hn]
    · rw [if_neg hn]
      exact iff_of_true (fun h => nomatch h) (fun h => hn h.1)
  rw [IsQuote, hprevious, quoteAt_eq_some_iff, and_iff_right hc]

/-- A byte is kept. -/
theorem Follows.keep (h : Follows cmd n t closed pending) (hc : cmd[n]? = some c)
    (hkept : IsKept cmd n) (hsection : sectionAt cmd (n + 1) = sectionAt cmd n) :
    Follows cmd (n + 1) ((t.keep c).pass c) closed (pending ++ [n]) where
  cut := h.cut.keep hkept hkept.2
  args := h.args
  currentArg := by
    rw [bytesAt_concat hc, ← h.currentArg]
    rfl
  quoteChar := h.quoteChar.trans hsection.symm
  previous := hc.symm

/-- A space ends the argument. -/
theorem Follows.push (h : Follows cmd n t closed pending) (hn : n ≤ cmd.length)
    (hc : cmd[n]? = some c) (hseparates : Separates cmd n)
    (hsection : sectionAt cmd (n + 1) = sectionAt cmd n) :
    Follows cmd (n + 1) (t.push.pass c) (closed ++ [pending].filter (· ≠ [])) [] where
  cut := h.cut.cut (fun hkept => hkept.2 hseparates) hseparates
  args := by
    show t.push.args = _
    rw [push_args, h.args, h.currentArg, List.map_append,
      filter_bytesAt (fun i hi => (h.cut.of_mem_pending hi).1.trans_le hn)]
  currentArg := push_currentArg t
  quoteChar := (push_quoteChar t).trans (h.quoteChar.trans hsection.symm)
  previous := hc.symm

/-- A quote opens or closes a section. -/
theorem Follows.quote (h : Follows cmd n t closed pending) (hc : cmd[n]? = some c)
    (hdelimits : Delimits cmd n) (hseparates : ¬ Separates cmd n) {q : Option Char}
    (hsection : sectionAt cmd (n + 1) = q) :
    Follows cmd (n + 1) ({ t with quoteChar := q }.pass c) closed pending where
  cut := h.cut.pass (fun hkept => hkept.1 hdelimits) hseparates
  args := h.args
  currentArg := h.currentArg
  quoteChar := hsection.symm
  previous := hc.symm

/-- **One byte.** -/
theorem Follows.step (h : Follows cmd n t closed pending) (hc : cmd[n]? = some c) :
    ∃ closed' pending', Follows cmd (n + 1) (t.step c) closed' pending' := by
  have hn : n < cmd.length := (List.getElem?_eq_some_iff.mp hc).1
  unfold Tokenizer.step
  by_cases hquote : t.IsQuote c
  · have hat := (h.isQuote_iff hc).mp hquote
    have hseparates : ¬ Separates cmd n := by
      rintro ⟨hspace, -⟩
      rw [hc] at hspace
      cases hspace
      exact absurd hquote.1 (by decide)
    rw [if_pos hquote]
    cases hsection : t.quoteChar with
    | none =>
      rw [h.quoteChar] at hsection
      exact ⟨_, _, h.quote hc ⟨by rw [hat]; simp, Or.inl hsection⟩ hseparates
        (by rw [sectionAt, hsection, hat])⟩
    | some q =>
      rw [h.quoteChar] at hsection
      dsimp only
      split
      · next heq =>
        subst heq
        exact ⟨_, _, h.quote hc ⟨by rw [hat]; simp, Or.inr (hsection.trans hat.symm)⟩ hseparates
          (by rw [sectionAt, hsection, hat]; exact if_pos rfl)⟩
      · next hne =>
        -- a quote of the other kind, in a section
        refine ⟨_, _, h.keep hc ⟨?_, hseparates⟩ ?_⟩
        · rintro ⟨-, hnone | hsame⟩
          · rw [hsection] at hnone
            cases hnone
          · rw [hsection, hat] at hsame
            exact hne (Option.some.inj hsame).symm
        · rw [sectionAt, hsection, hat]
          exact if_neg (fun he => hne (Option.some.inj he))
  · have hnone : quoteAt cmd n = none := by
      refine Option.eq_none_iff_forall_ne_some.mpr (fun d hd => ?_)
      have hdc := (quoteAt_eq_some_iff.mp hd).1
      rw [hc] at hdc
      exact hquote ((h.isQuote_iff hc).mpr (hd.trans hdc.symm))
    have hsection := sectionAt_succ_of_none hnone
    rw [if_neg hquote]
    split
    · next hspace =>
      have hseparates : Separates cmd n :=
        ⟨by rw [hc, hspace.1], by rw [← h.quoteChar, hspace.2]⟩
      exact ⟨_, _, h.push hn.le hc hseparates hsection⟩
    · next hspace =>
      refine ⟨_, _, h.keep hc ⟨fun hdelimits => hdelimits.1 hnone, ?_⟩ hsection⟩
      rintro ⟨hc', hopen⟩
      rw [hc] at hc'
      exact hspace ⟨Option.some.inj hc', h.quoteChar.trans hopen⟩

/-- **The rest of the line.** -/
theorem Follows.run {pre rest : CStr} (hcmd : cmd = pre ++ rest)
    (h : Follows cmd pre.length t closed pending) :
    ∃ closed' pending', Follows cmd cmd.length (t.run rest) closed' pending' := by
  induction rest generalizing pre t closed pending with
  | nil =>
    rw [List.append_nil] at hcmd
    rw [hcmd] at h ⊢
    exact ⟨_, _, h⟩
  | cons c rest ih =>
    have hc : cmd[pre.length]? = some c := by
      rw [hcmd, List.getElem?_append_right le_rfl, Nat.sub_self]
      rfl
    obtain ⟨closed, pending, hstep⟩ := h.step hc
    have hlen : pre.length + 1 = (pre ++ [c]).length := by
      rw [List.length_append, List.length_singleton]
    rw [hlen] at hstep
    rw [run_cons]
    exact ih (hcmd.trans (List.append_cons pre c rest)) hstep

end Tokenizer

open Tokenizer

/-- **The arguments are the bytes of segments** that are cut at the spaces outside
of sections: for every line. None is empty, put together they are the line without
the bytes that delimit or separate, and two kept bytes are in the same one exactly
if no byte between them separates. -/
theorem tokenize_segments (cmd : CStr) :
    (∀ arg ∈ tokenize cmd, arg ≠ []) ∧ (tokenize cmd).flatten = keptBytes cmd ∧
      ∃ segments, Segments (IsKept cmd) (Separates cmd) cmd.length segments ∧
        tokenize cmd = segments.map (bytesAt cmd) := by
  obtain ⟨closed, pending, h⟩ := (follows_init cmd).run (List.nil_append cmd).symm
  have hpending : ∀ i ∈ pending, i < cmd.length := fun i hi => (h.cut.of_mem_pending hi).1
  have hsegments := h.cut.close
  have htokens : tokenize cmd
      = (closed ++ [pending].filter (· ≠ [])).map (bytesAt cmd) := by
    rw [tokenize, push_args, h.args, h.currentArg, filter_bytesAt hpending, List.map_append]
  refine ⟨fun arg harg => ?_, ?_, _, hsegments, htokens⟩
  · rw [htokens] at harg
    obtain ⟨segment, hsegment, rfl⟩ := List.mem_map.mp harg
    rw [ne_eq, bytesAt_eq_nil_iff (fun i hi => (hsegments.of_mem hsegment hi).1)]
    rintro rfl
    exact hsegments.ne_nil hsegment
  · rw [htokens, flatten_map_bytesAt, hsegments.flatten]
    rfl
