import Mathlib

/-!
# Text as the C library reads and writes it

A program that keeps its state in a text file meets the C library at both
ends: `fprintf` on the way out, and on the way in `fgets`, `strstr`,
`sscanf` and `strtol`. None of these is the inverse of another by
construction. A line longer than the buffer comes back in two pieces, a
number that does not fit is clamped or wraps, a directive that does not
match leaves its variable as it was. Whether what was written can be read
back is a fact about the pair, and this module has the half of it that does
not depend on any particular program.

A C string is a list of characters, one per byte. The integers are `ℤ`;
`wrap32` and `clampLong` say where a conversion narrows them.

`readDecimal_printDecimal` is the round trip for numbers, `fgetsLines_line`
and `fgetsLines_last` cut a text into the lines `fgets` returns, and
`strstr_quoted` decides a search for a quoted key in a line that holds one.
-/

namespace CText

/-- A C string: its characters, without the terminating NUL. -/
abbrev CStr := List Char

/-- Whether a text is among others, decided in one place. -/
instance decidableMem (s : CStr) (l : List CStr) : Decidable (s ∈ l) :=
  List.instDecidableMemOfLawfulBEq s l

/-- `isspace` in the C locale. -/
def isSpace (c : Char) : Bool :=
  c = ' ' || c = '\t' || c = '\n' || c = '\x0b' || c = '\x0c' || c = '\r'

/-! ## Integers of a fixed width -/

/-- Conversion to a 32-bit `int`: the residue modulo `2^32` that lies in
its range. -/
def wrap32 (n : ℤ) : ℤ := n.bmod (2 ^ 32)

/-- Conversion of a text to `long` clamps to the range of the type. -/
def clampLong (n : ℤ) : ℤ := max (-2 ^ 63) (min n (2 ^ 63 - 1))

/-- The range of `int`. -/
def IsInt (n : ℤ) : Prop := -2 ^ 31 ≤ n ∧ n < 2 ^ 31

/-- The range of `long`. -/
def IsLong (n : ℤ) : Prop := -2 ^ 63 ≤ n ∧ n < 2 ^ 63

instance (n : ℤ) : Decidable (IsInt n) := inferInstanceAs (Decidable (_ ∧ _))

instance (n : ℤ) : Decidable (IsLong n) := inferInstanceAs (Decidable (_ ∧ _))

/-- An `int` is not changed by the conversion to `int`. -/
theorem wrap32_of_isInt {n : ℤ} (h : IsInt n) : wrap32 n = n := by
  obtain ⟨hlo, hhi⟩ := h
  unfold wrap32
  rw [Int.bmod_eq_of_le (by omega) (by omega)]

/-- The conversion to `int` gives an `int`. -/
theorem isInt_wrap32 (n : ℤ) : IsInt (wrap32 n) := by
  have hlo := Int.le_bmod (x := n) (m := 2 ^ 32) (by decide)
  have hhi := Int.bmod_lt (x := n) (m := 2 ^ 32) (by decide)
  unfold wrap32 IsInt
  omega

/-- A `long` is not changed by clamping. -/
theorem clampLong_of_isLong {n : ℤ} (h : IsLong n) : clampLong n = n := by
  obtain ⟨hlo, hhi⟩ := h
  unfold clampLong
  omega

/-- The conversion to `long` gives a `long`. -/
theorem isLong_clampLong (n : ℤ) : IsLong (clampLong n) := by
  unfold clampLong IsLong
  omega

/-- Every `int` is a `long`. -/
theorem IsInt.isLong {n : ℤ} (h : IsInt n) : IsLong n := by
  obtain ⟨hlo, hhi⟩ := h
  exact ⟨by omega, by omega⟩

/-! ## Decimal numerals -/

/-- `%d` and `%ld`: the shortest decimal numeral. -/
def printDecimal (n : ℤ) : CStr :=
  if n < 0 then '-' :: Nat.toDigits 10 n.natAbs else Nat.toDigits 10 n.natAbs

/-- The optional sign of a numeral. -/
def splitSign : CStr → Bool × CStr
  | '-' :: s => (true, s)
  | '+' :: s => (false, s)
  | s => (false, s)

/-- **The numeral `strtol` and `scanf` accept** in base ten: blanks, an
optional sign and at least one digit. What it denotes is returned exactly,
with what follows it. -/
def readDecimal (s : CStr) : Option (ℤ × CStr) :=
  let t := splitSign (s.dropWhile isSpace)
  let ds := t.2.takeWhile Char.isDigit
  if ds = [] then none
  else some (if t.1 then -(Nat.ofDigitChars 10 ds 0 : ℤ) else (Nat.ofDigitChars 10 ds 0 : ℤ),
    t.2.dropWhile Char.isDigit)

/-- `strtol(s, &end, 10)`: the value, and the text `end` points at. Where no
numeral is found the value is zero and `end` is the start of the text. -/
def strtol (s : CStr) : ℤ × CStr :=
  match readDecimal s with
  | some (n, t) => (clampLong n, t)
  | none => (0, s)

/-- `strtoul(s, &end, 10)`: as `strtol`, for `unsigned long`. A sign negates
modulo `2^64`, and a magnitude out of range gives the largest value. -/
def strtoul (s : CStr) : ℕ × CStr :=
  match readDecimal s with
  | some (n, t) =>
    (if n.natAbs < 2 ^ 64 then (n % 2 ^ 64).toNat else 2 ^ 64 - 1, t)
  | none => (0, s)

/-- `atoi`: `strtol` narrowed to `int`. -/
def atoi (s : CStr) : ℤ := wrap32 (strtol s).1

theorem isDigit_of_mem_toDigits {n : ℕ} {c : Char} (h : c ∈ Nat.toDigits 10 n) :
    c.isDigit = true :=
  Nat.isDigit_of_mem_toDigits (by decide) (by decide) h

/-- A digit is no blank. -/
theorem isSpace_of_isDigit {c : Char} (h : c.isDigit = true) : isSpace c = false := by
  by_contra hs
  rw [Bool.not_eq_false] at hs
  simp only [isSpace, Bool.or_eq_true, decide_eq_true_eq] at hs
  obtain ((((rfl | rfl) | rfl) | rfl) | rfl) | rfl := hs <;> exact absurd h (by decide)

/-- The first character of a numeral is a digit. -/
theorem toDigits_eq_cons (n : ℕ) :
    ∃ c s, Nat.toDigits 10 n = c :: s ∧ c.isDigit = true := by
  cases h : Nat.toDigits 10 n with
  | nil => exact absurd h Nat.toDigits_ne_nil
  | cons c s =>
    exact ⟨c, s, rfl, isDigit_of_mem_toDigits (n := n) (by rw [h]; exact List.mem_cons_self)⟩

/-- A digit is not a sign. -/
theorem splitSign_of_isDigit {c : Char} {s : CStr} (h : c.isDigit = true) :
    splitSign (c :: s) = (false, c :: s) := by
  unfold splitSign
  split
  · exact absurd h (by simp_all)
  · exact absurd h (by simp_all)
  · rfl

/-- The text that follows a numeral does not continue it. -/
def NotDigit (s : CStr) : Prop := ∀ c ∈ s.head?, c.isDigit = false

theorem takeWhile_isDigit_append {ds s : CStr} (hds : ∀ c ∈ ds, c.isDigit = true)
    (h : NotDigit s) : (ds ++ s).takeWhile Char.isDigit = ds := by
  rw [List.takeWhile_append_of_pos hds]
  cases s with
  | nil => simp
  | cons c s => simp [h c (by simp)]

theorem dropWhile_isDigit_append {ds s : CStr} (hds : ∀ c ∈ ds, c.isDigit = true)
    (h : NotDigit s) : (ds ++ s).dropWhile Char.isDigit = s := by
  rw [List.dropWhile_append_of_pos hds]
  cases s with
  | nil => rfl
  | cons c s => simp [h c (by simp)]

theorem takeWhile_isDigit_toDigits (n : ℕ) {s : CStr} (h : NotDigit s) :
    (Nat.toDigits 10 n ++ s).takeWhile Char.isDigit = Nat.toDigits 10 n :=
  takeWhile_isDigit_append (fun _ hc => isDigit_of_mem_toDigits hc) h

theorem dropWhile_isDigit_toDigits (n : ℕ) {s : CStr} (h : NotDigit s) :
    (Nat.toDigits 10 n ++ s).dropWhile Char.isDigit = s :=
  dropWhile_isDigit_append (fun _ hc => isDigit_of_mem_toDigits hc) h

/-- **A printed number is read back**, and nothing of what follows it is
consumed. -/
theorem readDecimal_printDecimal (n : ℤ) {s : CStr} (h : NotDigit s) :
    readDecimal (printDecimal n ++ s) = some (n, s) := by
  obtain ⟨c, t, hct, hc⟩ := toDigits_eq_cons n.natAbs
  unfold printDecimal
  by_cases hn : n < 0
  · have hsign : splitSign ((('-' :: Nat.toDigits 10 n.natAbs) ++ s).dropWhile isSpace)
        = (true, Nat.toDigits 10 n.natAbs ++ s) := rfl
    rw [if_pos hn]
    simp only [readDecimal, hsign, takeWhile_isDigit_toDigits _ h,
      dropWhile_isDigit_toDigits _ h, Nat.toDigits_ne_nil, if_false, if_true,
      Nat.ofDigitChars_ten_toDigits]
    rw [show -(n.natAbs : ℤ) = n from by omega]
  · have hsign : splitSign ((Nat.toDigits 10 n.natAbs ++ s).dropWhile isSpace)
        = (false, Nat.toDigits 10 n.natAbs ++ s) := by
      rw [hct, List.cons_append, List.dropWhile_cons_of_neg (by simp [isSpace_of_isDigit hc]),
        splitSign_of_isDigit hc]
    rw [if_neg hn]
    simp only [readDecimal, hsign, takeWhile_isDigit_toDigits _ h,
      dropWhile_isDigit_toDigits _ h, Nat.toDigits_ne_nil, if_false, Bool.false_eq_true,
      Nat.ofDigitChars_ten_toDigits]
    rw [show (n.natAbs : ℤ) = n from by omega]

/-- A numeral with nothing behind it is read whole. -/
theorem readDecimal_numeral (n : ℤ) : readDecimal (printDecimal n) = some (n, []) := by
  have h := readDecimal_printDecimal n (s := []) (fun _ hc => absurd hc (by simp))
  rwa [List.append_nil] at h

/-- What is left behind a numeral is the end of the text. -/
theorem readDecimal_suffix {s t : CStr} {n : ℤ} (h : readDecimal s = some (n, t)) :
    t <:+ s := by
  have hsign : ∀ u : CStr, (splitSign u).2 <:+ u := by
    intro u
    unfold splitSign
    split
    · exact List.suffix_cons _ _
    · exact List.suffix_cons _ _
    · exact List.suffix_refl _
  unfold readDecimal at h
  dsimp only at h
  split at h
  · cases h
  · obtain ⟨-, rfl⟩ := Prod.mk.inj (Option.some.inj h)
    exact (List.dropWhile_suffix _).trans ((hsign _).trans (List.dropWhile_suffix _))

/-- **The shape of a numeral with nothing behind it**: blanks, and then a
sign and digits. -/
theorem readDecimal_shape {s : CStr} {n : ℤ} (h : readDecimal s = some (n, [])) :
    ∃ a b, s = a ++ b ∧ (∀ c ∈ a, isSpace c = true) ∧ b ≠ [] ∧
      ∀ c ∈ b, c.isDigit = true ∨ c = '-' ∨ c = '+' := by
  have hsign : ∀ u : CStr, u = (splitSign u).2 ∨ u = '-' :: (splitSign u).2 ∨
      u = '+' :: (splitSign u).2 := by
    intro u
    unfold splitSign
    split
    · exact Or.inr (Or.inl rfl)
    · exact Or.inr (Or.inr rfl)
    · exact Or.inl rfl
  refine ⟨s.takeWhile isSpace, s.dropWhile isSpace, List.takeWhile_append_dropWhile.symm,
    fun c hc => List.mem_takeWhile_imp hc, ?_⟩
  unfold readDecimal at h
  dsimp only at h
  split at h
  · cases h
  · next hne =>
    obtain ⟨-, hend⟩ := Prod.mk.inj (Option.some.inj h)
    generalize s.dropWhile isSpace = u at hne hend ⊢
    have hdigits : (splitSign u).2 = (splitSign u).2.takeWhile Char.isDigit := by
      conv_lhs => rw [← List.takeWhile_append_dropWhile (p := Char.isDigit) (l := (splitSign u).2)]
      rw [hend, List.append_nil]
    have hall : ∀ c ∈ (splitSign u).2, c.isDigit = true := fun c hc =>
      List.mem_takeWhile_imp (hdigits ▸ hc)
    constructor
    · rintro rfl
      exact hne rfl
    · intro c hc
      rcases hsign u with hu | hu | hu <;> rw [hu] at hc
      · exact Or.inl (hall c hc)
      · rcases List.mem_cons.mp hc with rfl | hc
        · exact Or.inr (Or.inl rfl)
        · exact Or.inl (hall c hc)
      · rcases List.mem_cons.mp hc with rfl | hc
        · exact Or.inr (Or.inr rfl)
        · exact Or.inl (hall c hc)

/-- A numeral is read back by `strtol`, clamped to the range of `long`, with
nothing left over. -/
theorem strtol_printDecimal (n : ℤ) : strtol (printDecimal n) = (clampLong n, []) := by
  rw [strtol, readDecimal_numeral]

/-- A numeral in the range of `unsigned long` is read back by `strtoul`. -/
theorem strtoul_printDecimal {n : ℤ} (hpos : 0 ≤ n) (hlt : n < 2 ^ 64) {s : CStr}
    (h : NotDigit s) : strtoul (printDecimal n ++ s) = (n.toNat, s) := by
  unfold strtoul
  rw [readDecimal_printDecimal n h]
  dsimp only
  rw [if_pos (by omega), Int.emod_eq_of_lt hpos hlt]

theorem printDecimal_ne_nil (n : ℤ) : printDecimal n ≠ [] := by
  unfold printDecimal
  split <;> simp

/-- **Printing is injective**: a numeral names one number. -/
theorem printDecimal_injective : Function.Injective printDecimal := by
  intro m n h
  have hm := readDecimal_numeral m
  rw [h, readDecimal_numeral n] at hm
  exact (congrArg Prod.fst (Option.some.inj hm)).symm

/-- The characters of a numeral are digits and a minus sign. -/
theorem mem_printDecimal {n : ℤ} {c : Char} (h : c ∈ printDecimal n) :
    c.isDigit = true ∨ c = '-' := by
  unfold printDecimal at h
  split at h
  · rcases List.mem_cons.mp h with rfl | h
    · exact Or.inr rfl
    · exact Or.inl (isDigit_of_mem_toDigits h)
  · exact Or.inl (isDigit_of_mem_toDigits h)

/-- A character that is neither a digit nor a minus sign is in no numeral. -/
theorem not_mem_printDecimal {c : Char} (hd : c.isDigit = false) (hm : c ≠ '-') (n : ℤ) :
    c ∉ printDecimal n := by
  intro h
  rcases mem_printDecimal h with h | h
  · rw [hd] at h
    exact Bool.false_ne_true h
  · exact hm h

/-- A `long` is printed in at most twenty characters. -/
theorem length_printDecimal_le {n : ℤ} (h : IsLong n) : (printDecimal n).length ≤ 20 := by
  obtain ⟨hlo, hhi⟩ := h
  have hlen : (Nat.toDigits 10 n.natAbs).length ≤ 19 :=
    (Nat.length_toDigits_le_iff (by decide) (by decide)).mpr (by omega)
  unfold printDecimal
  split
  · rw [List.length_cons]
    omega
  · omega

/-! ## `sscanf` -/

/-- The directives of a `scanf` format. -/
inductive Directive
  /-- White space: skips any number of blanks. -/
  | space
  /-- A character that has to be there. -/
  | lit (c : Char)
  /-- `%d`. -/
  | int
  /-- `%ld`. -/
  | long
  /-- `%<width>[^<stop>]`: the characters before `stop`, at least one and at
  most `width`. -/
  | notSet (width : ℕ) (stop : Char)

/-- A value a conversion stores. -/
inductive ScanValue
  | num (n : ℤ)
  | text (s : CStr)

/-- The directives of a literal part of a format. -/
def lits (s : CStr) : List Directive := s.map Directive.lit

/-- **`sscanf`**: the values converted before the first directive that does
not match, in order. -/
def sscanf : List Directive → CStr → List ScanValue
  | [], _ => []
  | .space :: fs, s => sscanf fs (s.dropWhile isSpace)
  | .lit _ :: _, [] => []
  | .lit c :: fs, d :: s => if d = c then sscanf fs s else []
  | .int :: fs, s =>
    match readDecimal s with
    | some (n, t) => .num (wrap32 (clampLong n)) :: sscanf fs t
    | none => []
  | .long :: fs, s =>
    match readDecimal s with
    | some (n, t) => .num (clampLong n) :: sscanf fs t
    | none => []
  | .notSet width stop :: fs, s =>
    let t := (s.take width).takeWhile (· ≠ stop)
    if t = [] then [] else .text t :: sscanf fs (s.drop t.length)

/-- Each directive has its equation; proofs about a format rewrite with these and do not
unfold `sscanf`. -/
theorem sscanf_nil (s : CStr) : sscanf [] s = [] := rfl

theorem sscanf_space_cons (fs : List Directive) (s : CStr) :
    sscanf (.space :: fs) s = sscanf fs (s.dropWhile isSpace) := rfl

theorem sscanf_lit_cons_nil (c : Char) (fs : List Directive) :
    sscanf (.lit c :: fs) [] = [] := rfl

theorem sscanf_lit_cons (c d : Char) (fs : List Directive) (s : CStr) :
    sscanf (.lit c :: fs) (d :: s) = if d = c then sscanf fs s else [] := rfl

theorem sscanf_int_cons (fs : List Directive) (s : CStr) :
    sscanf (.int :: fs) s
      = match readDecimal s with
        | some (n, t) => .num (wrap32 (clampLong n)) :: sscanf fs t
        | none => [] := rfl

theorem sscanf_long_cons (fs : List Directive) (s : CStr) :
    sscanf (.long :: fs) s
      = match readDecimal s with
        | some (n, t) => .num (clampLong n) :: sscanf fs t
        | none => [] := rfl

theorem sscanf_notSet_cons (width : ℕ) (stop : Char) (fs : List Directive) (s : CStr) :
    sscanf (.notSet width stop :: fs) s
      = if (s.take width).takeWhile (· ≠ stop) = [] then []
        else .text ((s.take width).takeWhile (· ≠ stop))
          :: sscanf fs (s.drop ((s.take width).takeWhile (· ≠ stop)).length) := rfl

/-- A literal part of a format matches itself. -/
theorem sscanf_lits (l : CStr) (fs : List Directive) (s : CStr) :
    sscanf (lits l ++ fs) (l ++ s) = sscanf fs s := by
  induction l with
  | nil => rfl
  | cons c l ih =>
    rw [lits, List.map_cons, List.cons_append, List.cons_append, sscanf_lit_cons, if_pos rfl]
    exact ih

/-- Blanks in a format skip nothing where the text starts with none. -/
theorem sscanf_space_of_not {c : Char} (hc : isSpace c = false) (fs : List Directive)
    (s : CStr) : sscanf (.space :: fs) (c :: s) = sscanf fs (c :: s) := by
  rw [sscanf_space_cons, List.dropWhile_cons_of_neg (by simp [hc])]

/-- The blank of a format skips one blank in front of a text without. -/
theorem sscanf_space_blank {c : Char} (hc : isSpace c = false) (fs : List Directive)
    (s : CStr) : sscanf (.space :: fs) (' ' :: c :: s) = sscanf fs (c :: s) := by
  rw [sscanf_space_cons, List.dropWhile_cons_of_pos (by decide),
    List.dropWhile_cons_of_neg (by simp [hc])]

/-- The first character of a printed number is no blank. -/
theorem printDecimal_eq_cons (n : ℤ) :
    ∃ c s, printDecimal n = c :: s ∧ isSpace c = false := by
  cases h : printDecimal n with
  | nil => exact absurd h (printDecimal_ne_nil n)
  | cons c s =>
    refine ⟨c, s, rfl, ?_⟩
    rcases mem_printDecimal (n := n) (by rw [h]; exact List.mem_cons_self) with hc | rfl
    · exact isSpace_of_isDigit hc
    · decide

/-- **`%d` reads back an `int`.** -/
theorem sscanf_int {n : ℤ} (hn : IsInt n) {s : CStr} (hs : NotDigit s) :
    sscanf [.space, .int] (' ' :: (printDecimal n ++ s)) = [.num n] := by
  obtain ⟨c, t, hct, hc⟩ := printDecimal_eq_cons n
  have hread := readDecimal_printDecimal n hs
  rw [hct] at hread ⊢
  rw [List.cons_append, sscanf_space_blank hc, sscanf_int_cons, ← List.cons_append, hread]
  simp only [clampLong_of_isLong hn.isLong, wrap32_of_isInt hn, sscanf_nil]

/-- **`%ld` reads back a `long`.** -/
theorem sscanf_long {n : ℤ} (hn : IsLong n) {s : CStr} (hs : NotDigit s) :
    sscanf [.space, .long] (' ' :: (printDecimal n ++ s)) = [.num n] := by
  obtain ⟨c, t, hct, hc⟩ := printDecimal_eq_cons n
  have hread := readDecimal_printDecimal n hs
  rw [hct] at hread ⊢
  rw [List.cons_append, sscanf_space_blank hc, sscanf_long_cons, ← List.cons_append, hread]
  simp only [clampLong_of_isLong hn, sscanf_nil]

/-- What stands before the first occurrence of a character. -/
theorem takeWhile_ne_append {c : Char} {t : CStr} (h : c ∉ t) (s : CStr) :
    (t ++ c :: s).takeWhile (fun d => decide (d ≠ c)) = t := by
  have hall : ∀ d ∈ t, decide (d ≠ c) = true :=
    fun d hd => decide_eq_true (fun he => h (he ▸ hd))
  rw [List.takeWhile_append_of_pos hall, List.takeWhile_cons_of_neg (by simp),
    List.append_nil]

/-- **`%[^c]` reads back a text** without `c` that fits the width. -/
theorem sscanf_notSet {width : ℕ} {stop : Char} {t : CStr} (ht : t ≠ [])
    (hlen : t.length ≤ width) (hstop : stop ∉ t) (fs : List Directive) (s : CStr) :
    sscanf (.notSet width stop :: fs) (t ++ stop :: s)
      = .text t :: sscanf fs (stop :: s) := by
  have hall : ∀ d ∈ t, decide (d ≠ stop) = true :=
    fun d hd => decide_eq_true (fun he => hstop (he ▸ hd))
  have htake : ((t ++ stop :: s).take width).takeWhile (fun d => decide (d ≠ stop)) = t := by
    rw [List.take_append, List.take_of_length_le hlen, List.takeWhile_append_of_pos hall]
    cases width - t.length with
    | zero => simp
    | succ k => simp
  rw [sscanf_notSet_cons, htake, if_neg ht, List.drop_left]

/-- What a format can store from a text: a number of the width of one of its
conversions, or a piece of the text within one of its scan sets. -/
def ScanValue.From (fs : List Directive) (s : CStr) : ScanValue → Prop
  | .num n => (Directive.int ∈ fs ∧ IsInt n) ∨ (Directive.long ∈ fs ∧ IsLong n)
  | .text t => t <:+: s ∧
      ∃ width stop, Directive.notSet width stop ∈ fs ∧ t.length ≤ width ∧ stop ∉ t

theorem ScanValue.From.mono {fs fs' : List Directive} {s s' : CStr} {v : ScanValue}
    (h : v.From fs s) (hfs : fs ⊆ fs') (hs : s <:+: s') : v.From fs' s' := by
  cases v with
  | num n => exact h.imp (And.imp_left (@hfs _)) (And.imp_left (@hfs _))
  | text t =>
    obtain ⟨hpiece, width, stop, hmem, hbounds⟩ := h
    exact ⟨hpiece.trans hs, width, stop, hfs hmem, hbounds⟩

/-- **Whatever the text**, what `sscanf` stores fits its format. -/
theorem sscanf_from (fs : List Directive) (s : CStr) : ∀ v ∈ sscanf fs s, v.From fs s := by
  induction fs generalizing s with
  | nil =>
    intro v hv
    rw [sscanf_nil] at hv
    cases hv
  | cons f fs ih =>
    have hrest : ∀ {t : CStr}, t <:+: s → ∀ v ∈ sscanf fs t, v.From (f :: fs) s :=
      fun ht v hv => (ih _ v hv).mono (List.subset_cons_self _ _) ht
    intro v hv
    cases f with
    | space =>
      rw [sscanf_space_cons] at hv
      exact hrest (List.dropWhile_suffix _).isInfix v hv
    | lit c =>
      cases s with
      | nil =>
        rw [sscanf_lit_cons_nil] at hv
        cases hv
      | cons d s =>
        rw [sscanf_lit_cons] at hv
        split at hv
        · exact hrest (List.suffix_cons _ _).isInfix v hv
        · cases hv
    | int =>
      rw [sscanf_int_cons] at hv
      split at hv
      · next n t hread =>
        rcases List.mem_cons.mp hv with rfl | hv
        · exact Or.inl ⟨List.mem_cons_self, isInt_wrap32 _⟩
        · exact hrest (readDecimal_suffix hread).isInfix v hv
      · cases hv
    | long =>
      rw [sscanf_long_cons] at hv
      split at hv
      · next n t hread =>
        rcases List.mem_cons.mp hv with rfl | hv
        · exact Or.inr ⟨List.mem_cons_self, isLong_clampLong _⟩
        · exact hrest (readDecimal_suffix hread).isInfix v hv
      · cases hv
    | notSet width stop =>
      rw [sscanf_notSet_cons] at hv
      split at hv
      · cases hv
      · rcases List.mem_cons.mp hv with rfl | hv
        · have hprefix := List.takeWhile_prefix (l := s.take width) (fun d => decide (d ≠ stop))
          have hpiece := hprefix.isInfix.trans (List.take_prefix _ _).isInfix
          refine ⟨hpiece, width, stop, List.mem_cons_self, ?_, fun hmem => ?_⟩
          · exact hprefix.length_le.trans (List.length_take_le _ _)
          · simpa using List.mem_takeWhile_imp hmem
        · exact hrest (List.drop_suffix _ _).isInfix v hv

/-! ## `fgets` -/

/-- One `fgets` with room for `room` more characters: it stops after a
newline, when the room is used up, or at the end of the text. The second
component is what is left to read. -/
def fgets : ℕ → CStr → CStr × CStr
  | _, [] => ([], [])
  | room, c :: s =>
    if c = '\n' ∨ room ≤ 1 then ([c], s)
    else (c :: (fgets (room - 1) s).1, (fgets (room - 1) s).2)

/-- The lines a loop over `fgets` gets, the first of which has `room`
characters left in its buffer. -/
def fgetsFrom (size : ℕ) : ℕ → CStr → List CStr
  | _, [] => []
  | room, c :: s =>
    if c = '\n' ∨ room ≤ 1 then [c] :: fgetsFrom size (size - 1) s
    else
      match fgetsFrom size (room - 1) s with
      | [] => [[c]]
      | l :: ls => (c :: l) :: ls

/-- **The lines `while (fgets(buf, size, fp))` reads**, in order. A line
that does not fit the buffer comes in several. -/
def fgetsLines (size : ℕ) (s : CStr) : List CStr := fgetsFrom size (size - 1) s

theorem fgetsFrom_eq (size room : ℕ) {s : CStr} (h : s ≠ []) :
    fgetsFrom size room s = (fgets room s).1 :: fgetsLines size (fgets room s).2 := by
  induction s generalizing room with
  | nil => exact absurd rfl h
  | cons c s ih =>
    rw [fgetsFrom, fgets]
    by_cases hc : c = '\n' ∨ room ≤ 1
    · rw [if_pos hc, if_pos hc]
      rfl
    · rw [if_neg hc, if_neg hc]
      cases s with
      | nil => rfl
      | cons d s => rw [ih (room - 1) (by simp)]

/-- **The loop equation**: a non-empty rest of the file gives the line
`fgets` returns, and then the lines of what that call left. -/
theorem fgetsLines_eq (size : ℕ) {s : CStr} (h : s ≠ []) :
    fgetsLines size s
      = (fgets (size - 1) s).1 :: fgetsLines size (fgets (size - 1) s).2 :=
  fgetsFrom_eq size (size - 1) h

@[simp] theorem fgetsLines_nil (size : ℕ) : fgetsLines size [] = [] := rfl

/-- A line that fits is returned with its newline. -/
theorem fgets_line {room : ℕ} {l s : CStr} (hl : '\n' ∉ l) (hlen : l.length < room) :
    fgets room (l ++ '\n' :: s) = (l ++ ['\n'], s) := by
  induction l generalizing room with
  | nil => simp [fgets]
  | cons c l ih =>
    rw [List.length_cons] at hlen
    obtain ⟨hc, hl⟩ := not_or.mp (fun h => hl (List.mem_cons.mpr h))
    rw [List.cons_append, fgets, if_neg (by rintro (rfl | h) <;> [exact hc rfl; omega]),
      ih hl (by omega)]
    rfl

/-- The last line, without a newline, is returned as it is. -/
theorem fgets_last {room : ℕ} {l : CStr} (hl : '\n' ∉ l) (hlen : l.length ≤ room) :
    fgets room l = (l, []) := by
  induction l generalizing room with
  | nil => rfl
  | cons c l ih =>
    rw [List.length_cons] at hlen
    obtain ⟨hc, hl⟩ := not_or.mp (fun h => hl (List.mem_cons.mpr h))
    rw [fgets]
    by_cases hr : room ≤ 1
    · have hnil : l = [] := List.eq_nil_of_length_eq_zero (by omega)
      rw [if_pos (Or.inr hr), hnil]
    · rw [if_neg (by rintro (rfl | h) <;> [exact hc rfl; exact hr h]), ih hl (by omega)]

/-- Where the room is used up the rest is left. -/
theorem fgets_full {room : ℕ} {l : CStr} (hl : '\n' ∉ l) (hlen : l.length = room)
    (hpos : 0 < room) (s : CStr) : fgets room (l ++ s) = (l, s) := by
  induction l generalizing room with
  | nil =>
    rw [List.length_nil] at hlen
    omega
  | cons c l ih =>
    rw [List.length_cons] at hlen
    obtain ⟨hc, hl⟩ := not_or.mp (fun h => hl (List.mem_cons.mpr h))
    rw [List.cons_append, fgets]
    by_cases hr : room ≤ 1
    · have hnil : l = [] := List.eq_nil_of_length_eq_zero (by omega)
      rw [if_pos (Or.inr hr), hnil]
      rfl
    · rw [if_neg (by rintro (rfl | h) <;> [exact hc rfl; exact hr h]), ih hl (by omega) (by omega)]

/-- **A line that fits the buffer is one line.** -/
theorem fgetsLines_line {size : ℕ} {l s : CStr} (hl : '\n' ∉ l)
    (hlen : l.length + 1 < size) :
    fgetsLines size (l ++ '\n' :: s) = (l ++ ['\n']) :: fgetsLines size s := by
  rw [fgetsLines_eq size (by simp), fgets_line hl (by omega)]

/-- **A last line without a newline is one line.** -/
theorem fgetsLines_last {size : ℕ} {l : CStr} (hl : '\n' ∉ l) (hne : l ≠ [])
    (hlen : l.length < size) : fgetsLines size l = [l] := by
  rw [fgetsLines_eq size hne, fgets_last hl (by omega), fgetsLines_nil]

/-- **No character is lost or invented**: the lines put together are the
text. -/
theorem flatten_fgetsFrom (size room : ℕ) (s : CStr) :
    (fgetsFrom size room s).flatten = s := by
  induction s generalizing room with
  | nil => rfl
  | cons c s ih =>
    rw [fgetsFrom]
    split
    · rw [List.flatten_cons, ih]
      rfl
    · have hs := ih (room - 1)
      split
      · next hnil =>
        rw [hnil] at hs
        rw [← hs]
        rfl
      · next l ls hcons =>
        rw [hcons] at hs
        rw [← hs]
        rfl

/-- The characters of a line are characters of the text. -/
theorem mem_of_mem_fgetsLines {size : ℕ} {s l : CStr} {c : Char}
    (hl : l ∈ fgetsLines size s) (hc : c ∈ l) : c ∈ s := by
  rw [← flatten_fgetsFrom size (size - 1) s]
  exact List.mem_flatten.mpr ⟨l, hl, hc⟩

/-- A text with no newline but at its end. -/
def OneLine (l : CStr) : Prop := ∀ a b, l = a ++ '\n' :: b → b = []

theorem OneLine.infix {l t : CStr} (h : OneLine l) (ht : t <:+: l) : OneLine t := by
  obtain ⟨c, d, rfl⟩ := ht
  rintro a b rfl
  exact List.append_eq_nil_iff.mp (h (c ++ a) (b ++ d) (by simp)) |>.1

/-- **`fgets` stops at a newline.** -/
theorem oneLine_of_mem_fgetsFrom {size room : ℕ} {s l : CStr} (hl : l ∈ fgetsFrom size room s) :
    OneLine l := by
  induction s generalizing room l with
  | nil => cases hl
  | cons c s ih =>
    have hsingle : OneLine [c] := by
      intro a b hab
      have hlen := congrArg List.length hab
      rw [List.length_singleton, List.length_append, List.length_cons] at hlen
      exact List.eq_nil_of_length_eq_zero (by omega)
    rw [fgetsFrom] at hl
    split at hl
    · rcases List.mem_cons.mp hl with rfl | hl
      · exact hsingle
      · exact ih hl
    · next hc =>
      split at hl
      · rw [List.mem_singleton.mp hl]
        exact hsingle
      · next l₀ ls hlines =>
        have hlater : ∀ l' ∈ l₀ :: ls, OneLine l' := by
          rw [← hlines]
          exact fun l' hl' => ih hl'
        rcases List.mem_cons.mp hl with rfl | hl
        · intro a b hab
          cases a with
          | nil => exact absurd (Or.inl (List.cons.inj hab).1) hc
          | cons d a =>
            exact hlater l₀ List.mem_cons_self a b (List.cons.inj hab).2
        · exact hlater l (List.mem_cons_of_mem _ hl)

/-- **Where a text was cut off**: a prefix of `a ++ x :: b` either reaches
past that `x`, or is a prefix of `a`. -/
theorem prefix_append_cons {p a b : CStr} {x : Char} (h : p <+: a ++ x :: b) (hx : x ∉ a) :
    (∃ q, p = a ++ x :: q ∧ q <+: b) ∨ (x ∉ p ∧ p <+: a) := by
  by_cases hlen : p.length ≤ a.length
  · have hp : p <+: a := List.prefix_of_prefix_length_le h (List.prefix_append _ _) hlen
    exact Or.inr ⟨fun hmem => hx (hp.subset hmem), hp⟩
  · have ha : a ++ [x] <+: p := by
      refine List.prefix_of_prefix_length_le ⟨b, by simp⟩ h ?_
      rw [List.length_append, List.length_singleton]
      omega
    obtain ⟨q, rfl⟩ := ha
    rw [List.append_assoc, List.prefix_append_right_inj] at h
    exact Or.inl ⟨q, by simp, (List.cons_prefix_cons.mp h).2⟩

/-- The part of a buffer that string functions see: up to the first NUL. -/
def cstring (l : CStr) : CStr := l.takeWhile (· ≠ '\x00')

theorem cstring_of_not_mem {l : CStr} (h : '\x00' ∉ l) : cstring l = l :=
  List.takeWhile_eq_self_iff.mpr
    (fun _ hc => decide_eq_true (fun he => h (he ▸ hc)))

theorem mem_of_mem_cstring {l : CStr} {c : Char} (h : c ∈ cstring l) : c ∈ l :=
  (List.takeWhile_prefix _).subset h

/-! ## `strstr` and `snprintf` -/

/-- `strstr(s, needle) != NULL`. -/
def strstr (s needle : CStr) : Bool := decide (needle <:+: s)

/-- What the pointer `strstr` returns points at: the text from the first
occurrence on. -/
def strstrFrom (s needle : CStr) : Option CStr :=
  s.tails.find? (fun t => needle.isPrefixOf t)

/-- `snprintf` into a buffer of `size` bytes keeps what fits before the
NUL. -/
def snprintf (size : ℕ) (s : CStr) : CStr := s.take (size - 1)

theorem snprintf_of_lt {size : ℕ} {s : CStr} (h : s.length < size) :
    snprintf size s = s := List.take_of_length_le (by omega)

theorem strstr_iff {s needle : CStr} : strstr s needle = true ↔ needle <:+: s :=
  decide_eq_true_iff

/-- A search for one character is membership. -/
theorem strstr_singleton {s : CStr} {c : Char} : strstr s [c] = true ↔ c ∈ s := by
  rw [strstr_iff, List.singleton_infix_iff]

/-- The text `"key"`. -/
def quoted (key : CStr) : CStr := '"' :: (key ++ ['"'])

/-- A quote-free text in front moves no quoted key. -/
theorem quoted_infix_append {key a s : CStr} (ha : '"' ∉ a) :
    quoted key <:+: a ++ s ↔ quoted key <:+: s := by
  induction a with
  | nil => rfl
  | cons c a ih =>
    obtain ⟨hc, ha⟩ := not_or.mp (fun h => ha (List.mem_cons.mpr h))
    rw [List.cons_append, List.infix_cons_iff, ih ha, quoted, List.cons_prefix_cons]
    exact or_iff_right (fun h => hc h.1)

/-- A quoted key starts a text exactly where the text's first quoted key is
that one. -/
theorem quoted_prefix_iff {key k s : CStr} (hkey : '"' ∉ key) (hk : '"' ∉ k) :
    quoted key <+: '"' :: (k ++ '"' :: s) ↔ key = k := by
  constructor
  · rintro ⟨t, ht⟩
    have ht : key ++ '"' :: t = k ++ '"' :: s := by simpa [quoted] using ht
    have hw := congrArg (List.takeWhile (fun d => decide (d ≠ '"'))) ht
    rwa [takeWhile_ne_append hkey, takeWhile_ne_append hk] at hw
  · rintro rfl
    exact ⟨s, by simp [quoted]⟩

/-- **Searching a line for a quoted key.** In a line whose only quotes are
those around one key, the search finds that key and no other. -/
theorem strstr_quoted {key k s : CStr} (hkey : '"' ∉ key) (hk : '"' ∉ k) (hs : '"' ∉ s) :
    strstr (quoted k ++ s) (quoted key) = decide (key = k) := by
  refine decide_eq_decide.mpr ?_
  have hrest : ¬ quoted key <:+: '"' :: s := by
    rw [List.infix_cons_iff]
    rintro (h | h)
    · rw [quoted, List.cons_prefix_cons] at h
      exact hs (h.2.subset (by simp))
    · exact hs (h.subset (by simp [quoted]))
  rw [show quoted k ++ s = '"' :: (k ++ '"' :: s) from by simp [quoted],
    List.infix_cons_iff, quoted_prefix_iff hkey hk, quoted_infix_append hk]
  exact or_iff_left hrest

end CText
