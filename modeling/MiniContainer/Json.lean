import MiniContainer.Utf8

/-!
# JSON

Values, the text they are written as, and a parser for the grammar of JSON
texts. `parse_render` says that every value is read back from its text; the
other direction is about texts put together by hand: `string_of_special` says
that a string whose content was not escaped is not read as that content.

A text is a list of bytes. That it is UTF-8 besides is a part of `Decodes`.
-/

open CText Utf8

namespace Json

/-- A value. A number is `mantissa / 10 ^ scale`, with the digits it was written
with. -/
inductive Value
  | null
  | bool (b : Bool)
  | number (mantissa : ℤ) (scale : ℕ)
  | string (s : CStr)
  | array (elements : List Value)
  | object (members : List (CStr × Value))

/-- What may stand between tokens. -/
def blanks : List Char := [' ', '\t', '\n', '\r']

def skipBlanks (s : CStr) : CStr := s.dropWhile (fun c => c ∈ blanks)

/-! ## Strings -/

/-- The value of a hexadecimal digit. -/
def hexDigit (c : Char) : Option ℕ :=
  if c.isDigit then some (c.toNat - 48)
  else if 'a' ≤ c ∧ c ≤ 'f' then some (c.toNat - 87)
  else if 'A' ≤ c ∧ c ≤ 'F' then some (c.toNat - 55)
  else none

/-- Four hexadecimal digits. -/
def hex4 : CStr → Option (ℕ × CStr)
  | a :: b :: c :: d :: s =>
    match hexDigit a, hexDigit b, hexDigit c, hexDigit d with
    | some a, some b, some c, some d => some (((a * 16 + b) * 16 + c) * 16 + d, s)
    | _, _, _, _ => none
  | _ => none

/-- What is behind `\u`: a character, or the two halves of a surrogate pair. -/
def unicodeEscape (s : CStr) : Option (CStr × CStr) :=
  (hex4 s).bind fun u =>
    if u.1 < 0xd800 ∨ 0xdfff < u.1 then some (encodeChar (Char.ofNat u.1), u.2)
    else if u.1 ≤ 0xdbff ∧ u.2.take 2 = ['\\', 'u'] then
      (hex4 (u.2.drop 2)).bind fun v =>
        if 0xdc00 ≤ v.1 ∧ v.1 ≤ 0xdfff then
          some (encodeChar (Char.ofNat (0x10000 + (u.1 - 0xd800) * 0x400 + (v.1 - 0xdc00))), v.2)
        else none
    else none

/-- The escapes of one character. -/
def simpleEscape (c : Char) : Option Char :=
  match c with
  | '"' => some '"'
  | '\\' => some '\\'
  | '/' => some '/'
  | 'b' => some '\x08'
  | 'f' => some '\x0c'
  | 'n' => some '\n'
  | 'r' => some '\r'
  | 't' => some '\t'
  | _ => none

/-- What is behind a backslash, and what follows it. -/
def escape : CStr → Option (CStr × CStr)
  | [] => none
  | c :: s => if c = 'u' then unicodeEscape s else (simpleEscape c).map (fun d => ([d], s))

/-- The content of a string without its escapes. -/
def unescape : ℕ → CStr → Option CStr
  | _, [] => some []
  | 0, _ :: _ => none
  | n + 1, c :: s =>
    if c = '\\' then (escape s).bind fun r => (unescape n r.2).map (r.1 ++ ·)
    else if c.toNat < 32 then none
    else (unescape n s).map (c :: ·)

/-- The content of a string as it is written, up to the quote that ends it; whether
the character before was a backslash. -/
def scan : Bool → CStr → Option (CStr × CStr)
  | _, [] => none
  | true, c :: s => (scan false s).map (fun r => (c :: r.1, r.2))
  | false, c :: s =>
    if c = '"' then some ([], s) else (scan (c = '\\') s).map (fun r => (c :: r.1, r.2))

/-- **A string**, behind the quote that begins it. -/
def string (s : CStr) : Option (CStr × CStr) :=
  (scan false s).bind fun r => (unescape r.1.length r.1).map (fun content => (content, r.2))

/-- How a character of a string is written. -/
def escapeChar (c : Char) : CStr :=
  if c = '"' ∨ c = '\\' then ['\\', c]
  else if c.toNat < 32 then
    ['\\', 'u', '0', '0', Nat.digitChar (c.toNat / 16), Nat.digitChar (c.toNat % 16)]
  else [c]

/-- **How a string is written.** -/
def quote (s : CStr) : CStr := '"' :: (s.flatMap escapeChar ++ ['"'])

/-- A character that stands for itself in a string. -/
def Plain (c : Char) : Prop := c ≠ '"' ∧ c ≠ '\\' ∧ 32 ≤ c.toNat

instance (c : Char) : Decidable (Plain c) := inferInstanceAs (Decidable (_ ∧ _))

/-- Text of such characters is not changed. -/
theorem flatMap_escapeChar_of_plain {s : CStr} (h : ∀ c ∈ s, Plain c) :
    s.flatMap escapeChar = s := by
  induction s with
  | nil => rfl
  | cons c s ih =>
    obtain ⟨hquote, hback, hctl⟩ := h c List.mem_cons_self
    have hc : escapeChar c = [c] := by
      unfold escapeChar
      rw [if_neg (not_or.mpr ⟨hquote, hback⟩), if_neg (by omega)]
    rw [List.flatMap_cons, hc, ih (fun d hd => h d (List.mem_cons_of_mem _ hd))]
    rfl

theorem quote_of_plain {s : CStr} (h : ∀ c ∈ s, Plain c) : quote s = '"' :: (s ++ ['"']) := by
  rw [quote, flatMap_escapeChar_of_plain h]

/-! ### Reading a string -/

theorem hexDigit_digitChar : ∀ d < 16, hexDigit (Nat.digitChar d) = some d := by decide

theorem digitChar_ne : ∀ d < 16, Nat.digitChar d ≠ '"' ∧ Nat.digitChar d ≠ '\\' := by decide

/-- A character that is neither a quote nor a backslash is passed over. -/
theorem scan_cons {c : Char} (hquote : c ≠ '"') (hback : c ≠ '\\') (s : CStr) :
    scan false (c :: s) = (scan false s).map (fun r => (c :: r.1, r.2)) := by
  rw [scan, if_neg hquote, decide_eq_false hback]

/-- So is whatever comes behind a backslash. -/
theorem scan_backslash (c : Char) (s : CStr) :
    scan false ('\\' :: c :: s)
      = (scan false s).map (fun r => ('\\' :: c :: r.1, r.2)) := by
  rw [scan, if_neg (by decide), decide_eq_true rfl, scan, Option.map_map]
  rfl

/-- What is written for a character is passed over. -/
theorem scan_escapeChar (c : Char) (s : CStr) :
    scan false (escapeChar c ++ s)
      = (scan false s).map (fun r => (escapeChar c ++ r.1, r.2)) := by
  unfold escapeChar
  split
  · exact scan_backslash c s
  · next hplain =>
    obtain ⟨hquote, hback⟩ := not_or.mp hplain
    split
    · next hctl =>
      obtain ⟨hq₁, hb₁⟩ := digitChar_ne (c.toNat / 16) (by omega)
      obtain ⟨hq₂, hb₂⟩ := digitChar_ne (c.toNat % 16) (by omega)
      simp only [List.cons_append, List.nil_append]
      rw [scan_backslash, scan_cons (by decide) (by decide), scan_cons (by decide) (by decide),
        scan_cons hq₁ hb₁, scan_cons hq₂ hb₂]
      simp only [Option.map_map]
      rfl
    · exact scan_cons hquote hback s

theorem scan_flatMap_escapeChar (s t : CStr) :
    scan false (s.flatMap escapeChar ++ '"' :: t) = some (s.flatMap escapeChar, t) := by
  induction s with
  | nil => rfl
  | cons c s ih =>
    rw [List.flatMap_cons, List.append_assoc, scan_escapeChar, ih]
    rfl

/-- **What is written for a character is read as that character.** -/
theorem unescape_escapeChar (c : Char) (s : CStr) (n : ℕ) :
    unescape (n + 1) (escapeChar c ++ s) = (unescape n s).map (c :: ·) := by
  unfold escapeChar
  split
  · next hc =>
    have hsimple : escape (c :: s) = some ([c], s) := by
      rcases hc with rfl | rfl <;> rfl
    rw [List.cons_append, List.cons_append, List.nil_append, unescape, if_pos rfl, hsimple]
    rfl
  · next hplain =>
    split
    · next hctl =>
      have hhex : hex4 ('0' :: '0' :: Nat.digitChar (c.toNat / 16) ::
          Nat.digitChar (c.toNat % 16) :: s) = some (c.toNat, s) := by
        have h₁ := hexDigit_digitChar (c.toNat / 16) (by omega)
        have h₂ := hexDigit_digitChar (c.toNat % 16) (by omega)
        have hzero : hexDigit '0' = some 0 := rfl
        unfold hex4
        dsimp only
        rw [h₁, h₂, hzero]
        dsimp only
        rw [show ((0 * 16 + 0) * 16 + c.toNat / 16) * 16 + c.toNat % 16 = c.toNat by omega]
      have hescape : escape ('u' :: '0' :: '0' :: Nat.digitChar (c.toNat / 16) ::
          Nat.digitChar (c.toNat % 16) :: s) = some ([c], s) := by
        rw [escape, if_pos rfl, unicodeEscape, hhex, Option.bind_some]
        dsimp only
        rw [if_pos (Or.inl (by omega)), Char.ofNat_toNat,
          encodeChar_of_ascii (show IsAscii c by unfold IsAscii; omega)]
      simp only [List.cons_append, List.nil_append]
      rw [unescape, if_pos rfl, hescape]
      rfl
    · next hctl =>
      rw [List.singleton_append, unescape, if_neg (fun h => hplain (Or.inr h)), if_neg hctl]

theorem unescape_flatMap_escapeChar {s : CStr} :
    ∀ {n : ℕ}, (s.flatMap escapeChar).length ≤ n →
      unescape n (s.flatMap escapeChar) = some s := by
  induction s with
  | nil =>
    intro n _
    cases n <;> rfl
  | cons c s ih =>
    intro n hn
    have hpos : 1 ≤ (escapeChar c).length := by
      unfold escapeChar
      split
      · simp
      · split <;> simp
    rw [List.flatMap_cons, List.length_append] at hn
    obtain ⟨m, rfl⟩ : ∃ m, n = m + 1 := ⟨n - 1, by omega⟩
    rw [List.flatMap_cons, unescape_escapeChar, ih (by omega)]
    rfl

/-- **A string that was written is read back**, and nothing of what follows it is
consumed. -/
theorem string_quote (s t : CStr) : string (s.flatMap escapeChar ++ '"' :: t) = some (s, t) := by
  unfold string
  rw [scan_flatMap_escapeChar, Option.bind_some]
  dsimp only
  rw [unescape_flatMap_escapeChar le_rfl]
  rfl

/-- Text without special characters stands for itself between quotes. -/
theorem string_of_plain {s : CStr} (h : ∀ c ∈ s, Plain c) (t : CStr) :
    string (s ++ '"' :: t) = some (s, t) := by
  have hs := string_quote s t
  rwa [flatMap_escapeChar_of_plain h] at hs

/-! ### Strings that were not escaped -/

theorem length_hex4 {s t : CStr} {n : ℕ} (h : hex4 s = some (n, t)) :
    t.length + 4 = s.length := by
  unfold hex4 at h
  split at h
  · split at h
    · cases h
      rfl
    · cases h
  · cases h

/-- No character has more than four bytes. -/
theorem length_encodeChar_le (c : Char) : (encodeChar c).length ≤ 4 := by
  rw [encodeChar, List.length_map, String.length_utf8EncodeChar]
  exact Char.utf8Size_le_four c

/-- Four digits are at least as long as what they denote. -/
theorem length_unicodeEscape_le {s t content : CStr} (h : unicodeEscape s = some (content, t)) :
    content.length + t.length ≤ s.length := by
  unfold unicodeEscape at h
  obtain ⟨⟨u, s₁⟩, hu, h⟩ := Option.bind_eq_some_iff.mp h
  have hlen := length_hex4 hu
  dsimp only at h
  split at h
  · cases h
    have hchar := length_encodeChar_le (Char.ofNat u)
    omega
  · split at h
    · obtain ⟨⟨v, s₂⟩, hv, h⟩ := Option.bind_eq_some_iff.mp h
      have hlen₂ := length_hex4 hv
      rw [List.length_drop] at hlen₂
      dsimp only at h
      split at h
      · obtain ⟨rfl, rfl⟩ := Prod.mk.inj (Option.some.inj h)
        have hchar := length_encodeChar_le
          (Char.ofNat (0x10000 + (u - 0xd800) * 0x400 + (v - 0xdc00)))
        omega
      · cases h
    · cases h

/-- What is behind a backslash is not longer when it is read. -/
theorem length_escape_le {s t content : CStr} (h : escape s = some (content, t)) :
    content.length + t.length ≤ s.length := by
  cases s with
  | nil => cases h
  | cons c s =>
    rw [escape] at h
    split at h
    · have hlen := length_unicodeEscape_le h
      rw [List.length_cons]
      omega
    · obtain ⟨d, -, h⟩ := Option.map_eq_some_iff.mp h
      cases h
      rw [List.length_singleton, List.length_cons]
      omega

/-- **Reading a content makes it no longer**, and shorter where it has a
backslash. -/
theorem length_unescape_le {n : ℕ} {raw content : CStr} (h : unescape n raw = some content) :
    content.length ≤ raw.length ∧ ('\\' ∈ raw → content.length < raw.length) := by
  induction n generalizing raw content with
  | zero =>
    cases raw with
    | nil =>
      cases h
      exact ⟨le_rfl, fun h => absurd h List.not_mem_nil⟩
    | cons c raw => cases h
  | succ n ih =>
    cases raw with
    | nil =>
      cases h
      exact ⟨le_rfl, fun h => absurd h List.not_mem_nil⟩
    | cons c raw =>
      rw [unescape] at h
      split at h
      · obtain ⟨⟨first, t⟩, hescape, h⟩ := Option.bind_eq_some_iff.mp h
        obtain ⟨rest, hrest, rfl⟩ := Option.map_eq_some_iff.mp h
        have hfirst := length_escape_le hescape
        have hlen := (ih hrest).1
        rw [List.length_append, List.length_cons]
        dsimp only at hlen ⊢
        exact ⟨by omega, fun _ => by omega⟩
      · next hback =>
        split at h
        · cases h
        · obtain ⟨rest, hrest, rfl⟩ := Option.map_eq_some_iff.mp h
          obtain ⟨hle, hlt⟩ := ih hrest
          rw [List.length_cons, List.length_cons]
          refine ⟨by omega, fun hmem => ?_⟩
          have hmem := (List.mem_cons.mp hmem).resolve_left (Ne.symm hback)
          exact Nat.succ_lt_succ (hlt hmem)

/-- A control character is not allowed in a string. -/
theorem unescape_control {s : CStr} {c : Char} (hs : ∀ d ∈ s, d ≠ '\\') (hc : c.toNat < 32)
    (t : CStr) (n : ℕ) : unescape n (s ++ c :: t) = none := by
  have hback : ¬ c = '\\' := by
    rintro rfl
    exact absurd hc (by decide)
  induction s generalizing n with
  | nil =>
    cases n with
    | zero => rfl
    | succ n => rw [List.nil_append, unescape, if_neg hback, if_pos hc]
  | cons d s ih =>
    cases n with
    | zero => rfl
    | succ n =>
      rw [List.cons_append, unescape, if_neg (hs d List.mem_cons_self),
        ih (fun e he => hs e (List.mem_cons_of_mem _ he))]
      split <;> rfl

/-- Without a backslash there is no quote in what is passed over. -/
theorem quote_not_mem_of_scan {s raw t : CStr} (h : scan false s = some (raw, t))
    (hback : '\\' ∉ raw) : '"' ∉ raw := by
  induction s generalizing raw with
  | nil => cases h
  | cons c s ih =>
    rw [scan] at h
    split at h
    · cases h
      exact List.not_mem_nil
    · next hquote =>
      obtain ⟨⟨rest, t'⟩, hrest, h⟩ := Option.map_eq_some_iff.mp h
      cases h
      obtain ⟨hc, hback⟩ := not_or.mp (fun h => hback (List.mem_cons.mpr h))
      rw [decide_eq_false (Ne.symm hc)] at hrest
      rw [List.mem_cons, not_or]
      exact ⟨Ne.symm hquote, ih hrest hback⟩

/-- **Where a content between quotes ends**: before its end, at it, or at the
next quote behind it. -/
theorem scan_between {b : Bool} {s t raw rest : CStr}
    (h : scan b (s ++ '"' :: ',' :: '"' :: t) = some (raw, rest)) :
    raw.length < s.length ∨ raw = s ∨ rest = t := by
  induction s generalizing b raw with
  | nil =>
    cases b with
    | false =>
      cases h
      exact Or.inr (Or.inl rfl)
    | true =>
      cases h
      exact Or.inr (Or.inr rfl)
  | cons c s ih =>
    have hcons : ∀ {b' raw'}, scan b' (s ++ '"' :: ',' :: '"' :: t) = some (raw', rest) →
        (c :: raw').length < (c :: s).length ∨ c :: raw' = c :: s ∨ rest = t := by
      intro b' raw' hscan
      rcases ih hscan with hlt | rfl | rfl
      · exact Or.inl (Nat.succ_lt_succ hlt)
      · exact Or.inr (Or.inl rfl)
      · exact Or.inr (Or.inr rfl)
    cases b with
    | true =>
      rw [List.cons_append, scan] at h
      obtain ⟨⟨raw', rest'⟩, hscan, h⟩ := Option.map_eq_some_iff.mp h
      cases h
      exact hcons hscan
    | false =>
      rw [List.cons_append, scan] at h
      split at h
      · cases h
        exact Or.inl (Nat.succ_pos _)
      · obtain ⟨⟨raw', rest'⟩, hscan, h⟩ := Option.map_eq_some_iff.mp h
        cases h
        exact hcons hscan

/-- **A content with a special character is not read as itself**, where it was put
between quotes as it is, in front of another string: either something else is
read, or it ends only at the quote that begins the other string. -/
theorem string_of_special {s t content rest : CStr} (hs : ¬ ∀ c ∈ s, Plain c)
    (h : string (s ++ '"' :: ',' :: '"' :: t) = some (content, rest)) :
    content ≠ s ∨ rest = t := by
  obtain ⟨⟨raw, rest'⟩, hscan, h⟩ := Option.bind_eq_some_iff.mp h
  obtain ⟨content', hcontent, h⟩ := Option.map_eq_some_iff.mp h
  cases h
  dsimp only at hcontent
  obtain ⟨hle, hlt⟩ := length_unescape_le hcontent
  rcases scan_between hscan with hshort | rfl | hrest
  · exact Or.inl (fun heq => by rw [heq] at hle; omega)
  · refine Or.inl (fun heq => ?_)
    rw [heq] at hcontent hlt
    have hback : '\\' ∉ raw := fun hmem => absurd (hlt hmem) (lt_irrefl _)
    have hquote := quote_not_mem_of_scan hscan hback
    -- so it is a control character that is special
    refine hs (fun c hc => ⟨fun he => hquote (he ▸ hc), fun he => hback (he ▸ hc), ?_⟩)
    by_contra hctl
    obtain ⟨p, q, hsplit⟩ := List.append_of_mem hc
    have hnone := unescape_control (s := p) (c := c) (fun d hd he => hback
      (by rw [hsplit, ← he]; exact List.mem_append_left _ hd)) (by omega) q raw.length
    rw [← hsplit, hcontent] at hnone
    cases hnone
  · exact Or.inr hrest

/-! ## Numbers -/

/-- The digits behind a decimal point, if there is one. -/
def fraction (s : CStr) : Option (CStr × CStr) :=
  if s.head? = some '.' then
    let ds := s.tail.takeWhile Char.isDigit
    if ds = [] then none else some (ds, s.tail.dropWhile Char.isDigit)
  else some ([], s)

/-- The exponent, if there is one. -/
def exponent (s : CStr) : Option (ℤ × CStr) :=
  if s.head? = some 'e' ∨ s.head? = some 'E' then
    let t := splitSign s.tail
    let ds := t.2.takeWhile Char.isDigit
    if ds = [] then none
    else some (if t.1 then -(Nat.ofDigitChars 10 ds 0 : ℤ) else (Nat.ofDigitChars 10 ds 0 : ℤ),
      t.2.dropWhile Char.isDigit)
  else some (0, s)

/-- The number `m * 10 ^ e`. -/
def scaled (m e : ℤ) : Value :=
  if 0 ≤ e then .number (m * 10 ^ e.toNat) 0 else .number m e.natAbs

/-- **A number**: a sign, digits without a leading zero, a fraction and an
exponent. -/
def number (s : CStr) : Option (Value × CStr) :=
  let t := if s.head? = some '-' then s.tail else s
  let ds := t.takeWhile Char.isDigit
  if ds = [] ∨ (ds.head? = some '0' ∧ ds ≠ ['0']) then none
  else
    (fraction (t.dropWhile Char.isDigit)).bind fun f =>
      (exponent f.2).map fun e =>
        let m := (Nat.ofDigitChars 10 (ds ++ f.1) 0 : ℤ)
        (scaled (if s.head? = some '-' then -m else m) (e.1 - f.1.length), e.2)

/-- The last decimal digits of a number. -/
def lastDigits : ℕ → ℕ → CStr
  | 0, _ => []
  | k + 1, n => lastDigits k (n / 10) ++ [Nat.digitChar (n % 10)]

/-- **How a number is written**: all digits of it, and a point in front of the last
`k`. -/
def printNumber (m : ℤ) (k : ℕ) : CStr :=
  (if m < 0 then ['-'] else []) ++ (Nat.toDigits 10 (m.natAbs / 10 ^ k) ++
    if k = 0 then [] else '.' :: lastDigits k m.natAbs)

/-- What may follow a value in a text without blanks. -/
def Ends (s : CStr) : Prop := ∀ c ∈ s.head?, c = ',' ∨ c = ']' ∨ c = '}'

/-! ### Reading a number -/

/-- A whole number is written as by `%d`. -/
theorem printNumber_zero (m : ℤ) : printNumber m 0 = printDecimal m := by
  unfold printNumber printDecimal
  rw [if_pos rfl, List.append_nil, pow_zero, Nat.div_one]
  split <;> rfl

theorem isDigit_digitChar : ∀ d < 10, (Nat.digitChar d).isDigit = true := by decide

theorem isDigit_of_mem_lastDigits {k n : ℕ} {c : Char} (h : c ∈ lastDigits k n) :
    c.isDigit = true := by
  induction k generalizing n with
  | zero => cases h
  | succ k ih =>
    rcases List.mem_append.mp h with h | h
    · exact ih h
    · rw [List.mem_singleton.mp h]
      exact isDigit_digitChar _ (Nat.mod_lt _ (by decide))

theorem length_lastDigits (k n : ℕ) : (lastDigits k n).length = k := by
  induction k generalizing n with
  | zero => rfl
  | succ k ih => rw [lastDigits, List.length_append, ih, List.length_singleton]

/-- What the last digits denote. -/
theorem ofDigitChars_lastDigits (k n init : ℕ) :
    Nat.ofDigitChars 10 (lastDigits k n) init = init * 10 ^ k + n % 10 ^ k := by
  induction k generalizing n with
  | zero => simp [lastDigits, Nat.mod_one]
  | succ k ih =>
    have hdigit : Nat.ofDigitChars 10 [Nat.digitChar (n % 10)] (init * 10 ^ k + n / 10 % 10 ^ k)
        = 10 * (init * 10 ^ k + n / 10 % 10 ^ k) + n % 10 := by
      rw [Nat.ofDigitChars_cons_digitChar_of_lt_ten (Nat.mod_lt _ (by decide)),
        Nat.ofDigitChars_nil]
    rw [lastDigits, Nat.ofDigitChars_append, ih, hdigit, pow_succ', Nat.mod_mul]
    ring

/-- The digits of a number are without a leading zero. -/
theorem head_toDigits_ne {n : ℕ} (hn : n ≠ 0) : (Nat.toDigits 10 n).head? ≠ some '0' := by
  induction n using Nat.strong_induction_on with
  | _ n ih =>
    rw [Nat.toDigits_eq_if (by decide)]
    split
    · next hlt =>
      have hall : ∀ d < 10, d ≠ 0 → Nat.digitChar d ≠ '0' := by decide
      simpa using hall n hlt hn
    · next hge =>
      have hne : Nat.toDigits 10 (n / 10) ≠ [] := Nat.toDigits_ne_nil
      rw [List.head?_append_of_ne_nil _ hne]
      exact ih (n / 10) (by omega) (by omega)

theorem toDigits_leading (n : ℕ) : ¬ (Nat.toDigits 10 n = [] ∨
    ((Nat.toDigits 10 n).head? = some '0' ∧ Nat.toDigits 10 n ≠ ['0'])) := by
  rintro (hnil | ⟨hhead, hne⟩)
  · exact Nat.toDigits_ne_nil hnil
  · by_cases hn : n = 0
    · subst hn
      exact hne rfl
    · exact head_toDigits_ne hn hhead

theorem Ends.notDigit {s : CStr} (hs : Ends s) : NotDigit s := by
  intro c hc
  rcases hs c hc with rfl | rfl | rfl <;> rfl

theorem Ends.head_ne {s : CStr} (hs : Ends s) {c : Char} (hc : c ∉ [',', ']', '}']) :
    s.head? ≠ some c := by
  intro h
  refine hc ?_
  simpa using hs c h

/-- The fraction of a number is read. -/
theorem fraction_lastDigits (k n : ℕ) {s : CStr} (hs : Ends s) :
    fraction ((if k = 0 then [] else '.' :: lastDigits k n) ++ s)
      = some (lastDigits k n, s) := by
  by_cases hk : k = 0
  · subst hk
    rw [if_pos rfl, List.nil_append, fraction, if_neg (hs.head_ne (by decide))]
    rfl
  · have hdigits : ∀ c ∈ lastDigits k n, c.isDigit = true :=
      fun _ hc => isDigit_of_mem_lastDigits hc
    have hne : lastDigits k n ≠ [] := by
      intro h
      have hlen := length_lastDigits k n
      rw [h] at hlen
      exact hk hlen.symm
    rw [if_neg hk, List.cons_append, fraction, List.head?_cons, if_pos rfl]
    dsimp only
    rw [List.tail_cons, takeWhile_isDigit_append hdigits hs.notDigit,
      dropWhile_isDigit_append hdigits hs.notDigit, if_neg hne]

theorem exponent_of_ends {s : CStr} (hs : Ends s) : exponent s = some (0, s) := by
  unfold exponent
  rw [if_neg (not_or.mpr ⟨hs.head_ne (by decide), hs.head_ne (by decide)⟩)]

theorem scaled_neg (m : ℤ) (k : ℕ) : scaled m (0 - k) = .number m k := by
  unfold scaled
  cases k with
  | zero => simp
  | succ k => rw [if_neg (by omega), show ((0 : ℤ) - ((k + 1 : ℕ) : ℤ)).natAbs = k + 1 by omega]

/-- **A number that was written is read back.** -/
theorem number_printNumber (m : ℤ) (k : ℕ) {s : CStr} (hs : Ends s) :
    number (printNumber m k ++ s) = some (.number m k, s) := by
  obtain ⟨c, ds, hcons, hdigit⟩ := toDigits_eq_cons (m.natAbs / 10 ^ k)
  have hrest : NotDigit ((if k = 0 then [] else '.' :: lastDigits k m.natAbs) ++ s) := by
    split
    · exact hs.notDigit
    · intro c hc
      cases hc
      rfl
  have hvalue : Nat.ofDigitChars 10
      (Nat.toDigits 10 (m.natAbs / 10 ^ k) ++ lastDigits k m.natAbs) 0 = m.natAbs := by
    rw [Nat.ofDigitChars_append, Nat.ofDigitChars_ten_toDigits, ofDigitChars_lastDigits]
    exact Nat.div_add_mod' _ _
  have hsign : ((printNumber m k ++ s).head? = some '-') = (m < 0) := by
    unfold printNumber
    split
    · next hneg => simp [hneg]
    · next hpos =>
      rw [hcons]
      have hne : c ≠ '-' := by
        rintro rfl
        exact absurd hdigit (by decide)
      simp [hpos, hne]
  have htail : (if (printNumber m k ++ s).head? = some '-' then (printNumber m k ++ s).tail
      else printNumber m k ++ s) = Nat.toDigits 10 (m.natAbs / 10 ^ k) ++
        ((if k = 0 then [] else '.' :: lastDigits k m.natAbs) ++ s) := by
    simp only [hsign]
    unfold printNumber
    split
    · rw [List.append_assoc, List.append_assoc]
      rfl
    · rw [List.nil_append, List.append_assoc]
  unfold number
  dsimp only
  rw [htail, takeWhile_isDigit_toDigits _ hrest, dropWhile_isDigit_toDigits _ hrest,
    if_neg (toDigits_leading _), fraction_lastDigits _ _ hs, Option.bind_some]
  dsimp only
  rw [exponent_of_ends hs, Option.map_some, hvalue, length_lastDigits]
  simp only [hsign]
  rw [show (if m < 0 then -(m.natAbs : ℤ) else (m.natAbs : ℤ)) = m by omega, scaled_neg]

/-! ## Values -/

/-- The three words. -/
def literal (s : CStr) : Option (Value × CStr) :=
  if "null".toList.isPrefixOf s then some (.null, s.drop 4)
  else if "true".toList.isPrefixOf s then some (.bool true, s.drop 4)
  else if "false".toList.isPrefixOf s then some (.bool false, s.drop 5)
  else none

mutual

/-- **A value**, without blanks in front of it. Every call inside another one has
less fuel; as much as there are characters is enough. -/
def value : ℕ → CStr → Option (Value × CStr)
  | 0, _ => none
  | _ + 1, [] => none
  | n + 1, c :: s =>
    if c = '"' then (string s).map (fun r => (.string r.1, r.2))
    else if c = '[' then
      if (skipBlanks s).head? = some ']' then some (.array [], (skipBlanks s).tail)
      else (elements n (skipBlanks s)).map (fun r => (.array r.1, r.2))
    else if c = '{' then
      if (skipBlanks s).head? = some '}' then some (.object [], (skipBlanks s).tail)
      else (members n (skipBlanks s)).map (fun r => (.object r.1, r.2))
    else (literal (c :: s)).or (number (c :: s))

/-- The elements of an array, with the bracket that ends it. -/
def elements : ℕ → CStr → Option (List Value × CStr)
  | 0, _ => none
  | n + 1, s =>
    (value n s).bind fun v =>
      match skipBlanks v.2 with
      | ',' :: t => (elements n (skipBlanks t)).map (fun r => (v.1 :: r.1, r.2))
      | ']' :: t => some ([v.1], t)
      | _ => none

/-- The members of an object, with the brace that ends it. -/
def members : ℕ → CStr → Option (List (CStr × Value) × CStr)
  | 0, _ => none
  | n + 1, s =>
    if s.head? = some '"' then
      (string s.tail).bind fun name =>
        match skipBlanks name.2 with
        | ':' :: t =>
          (value n (skipBlanks t)).bind fun v =>
            match skipBlanks v.2 with
            | ',' :: t => (members n (skipBlanks t)).map (fun r => ((name.1, v.1) :: r.1, r.2))
            | '}' :: t => some ([(name.1, v.1)], t)
            | _ => none
        | _ => none
    else none

end

/-- **A text that is a value**, with blanks around it. -/
def parse (text : CStr) : Option Value :=
  match value (text.length + 1) (skipBlanks text) with
  | some (v, s) => if skipBlanks s = [] then some v else none
  | none => none

/-- **A JSON text** in UTF-8 and the value it is. -/
def Decodes (text : CStr) (v : Value) : Prop := IsUtf8 text ∧ parse text = some v

mutual

/-- **How a value is written**, without blanks. -/
def render : Value → CStr
  | .null => "null".toList
  | .bool true => "true".toList
  | .bool false => "false".toList
  | .number m k => printNumber m k
  | .string s => quote s
  | .array [] => "[]".toList
  | .array (v :: l) => '[' :: (render v ++ renderElements l)
  | .object [] => "\x7b\x7d".toList
  | .object ((name, v) :: l) => '{' :: (quote name ++ ':' :: (render v ++ renderMembers l))

/-- The further elements of an array, with the bracket that ends it. -/
def renderElements : List Value → CStr
  | [] => [']']
  | v :: l => ',' :: (render v ++ renderElements l)

/-- The further members of an object, with the brace that ends it. -/
def renderMembers : List (CStr × Value) → CStr
  | [] => ['}']
  | (name, v) :: l => ',' :: (quote name ++ ':' :: (render v ++ renderMembers l))

end

/-- An array is written as its elements with commas between them. -/
theorem render_array (l : List Value) :
    render (.array l) = '[' :: ([','].intercalate (l.map render) ++ [']']) := by
  have hrest : ∀ (l : List Value) (v : Value), render v ++ renderElements l
      = [','].intercalate ((v :: l).map render) ++ [']'] := by
    intro l
    induction l with
    | nil =>
      intro v
      simp [renderElements]
    | cons w l ih =>
      intro v
      rw [renderElements, ih w]
      simp only [List.map_cons]
      rw [List.intercalate_cons_cons]
      simp
  cases l with
  | nil => rfl
  | cons v l => rw [render, hrest]

/-! ### Reading a value -/

/-- A character that is no blank and ends nothing. -/
def Starts (c : Char) : Prop := c ∉ blanks ∧ c ∉ [']', '}']

instance (c : Char) : Decidable (Starts c) := inferInstanceAs (Decidable (_ ∧ _))

theorem skipBlanks_cons {c : Char} (hc : c ∉ blanks) (s : CStr) :
    skipBlanks (c :: s) = c :: s := List.dropWhile_cons_of_neg (by simpa using hc)

theorem ne_of_isDigit {c d : Char} (hc : c.isDigit = true) (hd : d.isDigit = false) : c ≠ d := by
  rintro rfl
  rw [hc] at hd
  cases hd

theorem starts_of_isDigit {c : Char} (hc : c.isDigit = true) : Starts c := by
  unfold Starts blanks
  simp only [List.mem_cons, List.not_mem_nil, or_false, not_or]
  exact ⟨⟨ne_of_isDigit hc rfl, ne_of_isDigit hc rfl, ne_of_isDigit hc rfl, ne_of_isDigit hc rfl⟩,
    ne_of_isDigit hc rfl, ne_of_isDigit hc rfl⟩

/-- A number starts with a digit or a minus sign. -/
theorem printNumber_eq_cons (m : ℤ) (k : ℕ) :
    ∃ c s, printNumber m k = c :: s ∧ (c = '-' ∨ c.isDigit = true) := by
  obtain ⟨c, ds, hcons, hdigit⟩ := toDigits_eq_cons (m.natAbs / 10 ^ k)
  unfold printNumber
  rw [hcons]
  split
  · exact ⟨_, _, rfl, Or.inl rfl⟩
  · exact ⟨_, _, rfl, Or.inr hdigit⟩

/-- What is written for a value starts with no blank. -/
theorem render_eq_cons (v : Value) : ∃ c s, render v = c :: s ∧ Starts c := by
  match v with
  | .null => exact ⟨_, _, rfl, by decide⟩
  | .bool true => exact ⟨_, _, rfl, by decide⟩
  | .bool false => exact ⟨_, _, rfl, by decide⟩
  | .number m k =>
    obtain ⟨c, s, hcons, rfl | hdigit⟩ := printNumber_eq_cons m k
    · exact ⟨_, _, hcons, by decide⟩
    · exact ⟨_, _, hcons, starts_of_isDigit hdigit⟩
  | .string s => exact ⟨_, _, rfl, by decide⟩
  | .array [] => exact ⟨_, _, rfl, by decide⟩
  | .array (v :: l) => exact ⟨_, _, rfl, by decide⟩
  | .object [] => exact ⟨_, _, rfl, by decide⟩
  | .object ((name, v) :: l) => exact ⟨_, _, rfl, by decide⟩

/-- So nothing is passed over in front of it. -/
theorem skipBlanks_render (v : Value) (s : CStr) :
    skipBlanks (render v ++ s) = render v ++ s ∧
      ∀ c ∈ [']', '}'], (render v ++ s).head? ≠ some c := by
  obtain ⟨c, t, hcons, hstarts⟩ := render_eq_cons v
  rw [hcons, List.cons_append]
  refine ⟨skipBlanks_cons hstarts.1 _, ?_⟩
  rintro d hd h
  rw [List.head?_cons, Option.some.injEq] at h
  exact hstarts.2 (h ▸ hd)

/-- A number is read as a value. -/
theorem value_printNumber (m : ℤ) (k n : ℕ) {s : CStr} (hs : Ends s) :
    value (n + 1) (printNumber m k ++ s) = some (.number m k, s) := by
  have hnumber := number_printNumber m k hs
  obtain ⟨c, t, hcons, hc⟩ := printNumber_eq_cons m k
  rw [hcons, List.cons_append] at hnumber ⊢
  have hne : ∀ d : Char, d ≠ '-' → d.isDigit = false → c ≠ d := by
    intro d hsign hdigit
    rcases hc with rfl | hc
    · exact hsign.symm
    · exact ne_of_isDigit hc hdigit
  have hword : ∀ (d : Char) (word : CStr), d ≠ '-' → d.isDigit = false →
      ¬ (d :: word).isPrefixOf (c :: (t ++ s)) = true := by
    intro d word hsign hdigit
    rw [List.isPrefixOf, beq_eq_false_iff_ne.mpr (hne d hsign hdigit).symm, Bool.false_and]
    exact Bool.false_ne_true
  have hliteral : literal (c :: (t ++ s)) = none := by
    have hnull := hword 'n' "ull".toList (by decide) rfl
    have htrue := hword 't' "rue".toList (by decide) rfl
    have hfalse := hword 'f' "alse".toList (by decide) rfl
    exact (if_neg hnull).trans ((if_neg htrue).trans (if_neg hfalse))
  rw [value, if_neg (hne _ (by decide) rfl), if_neg (hne _ (by decide) rfl),
    if_neg (hne _ (by decide) rfl), hliteral, Option.none_or, hnumber]

theorem ends_nil : Ends [] := fun _ hc => nomatch hc

theorem ends_renderElements (l : List Value) (s : CStr) : Ends (renderElements l ++ s) := by
  intro c hc
  cases l with
  | nil =>
    rw [renderElements] at hc
    cases hc
    exact Or.inr (Or.inl rfl)
  | cons v l =>
    rw [renderElements] at hc
    cases hc
    exact Or.inl rfl

theorem ends_renderMembers (l : List (CStr × Value)) (s : CStr) :
    Ends (renderMembers l ++ s) := by
  intro c hc
  match l with
  | [] =>
    rw [renderMembers] at hc
    cases hc
    exact Or.inr (Or.inr rfl)
  | (name, v) :: l =>
    rw [renderMembers] at hc
    cases hc
    exact Or.inl rfl

mutual

/-- **A value that was written is read back**, with as much fuel as it has
characters, and nothing of what follows it is consumed. -/
theorem value_render : ∀ (v : Value) (n : ℕ) (s : CStr), (render v).length ≤ n → Ends s →
    value n (render v ++ s) = some (v, s)
  | .null, n + 1, s, _, _ => rfl
  | .bool true, n + 1, s, _, _ => rfl
  | .bool false, n + 1, s, _, _ => rfl
  | .number m k, n + 1, s, _, hs => value_printNumber m k n hs
  | .string t, n + 1, s, _, _ => by
    rw [render, quote, List.cons_append, value, if_pos rfl, List.append_assoc]
    have hstring := string_quote t s
    rw [List.singleton_append, hstring]
    rfl
  | .array [], n + 1, s, _, _ => rfl
  | .array (v :: l), n + 1, s, hn, _ => by
    rw [render, List.length_cons] at hn
    have hl := elements_render v l n s (by omega)
    have hskip := skipBlanks_render v (renderElements l ++ s)
    rw [List.append_assoc] at hl
    rw [render, List.cons_append, value, if_neg (by decide), if_pos rfl, List.append_assoc,
      hskip.1, if_neg (hskip.2 _ (by decide)), hl]
    rfl
  | .object [], n + 1, s, _, _ => rfl
  | .object ((name, v) :: l), n + 1, s, hn, _ => by
    rw [render, List.length_cons] at hn
    have hl := members_render name v l n s (by omega)
    have hskip : skipBlanks (quote name ++ ':' :: (render v ++ renderMembers l) ++ s)
        = quote name ++ ':' :: (render v ++ renderMembers l) ++ s := skipBlanks_cons (by decide) _
    have hopen : (quote name ++ ':' :: (render v ++ renderMembers l) ++ s).head? ≠ some '}' := by
      rw [quote, List.cons_append, List.cons_append, List.head?_cons]
      decide
    rw [render, List.cons_append, value, if_neg (by decide), if_neg (by decide), if_pos rfl, hskip,
      if_neg hopen, hl]
    rfl
  | v, 0, s, hn, _ => by
    obtain ⟨c, t, hcons, -⟩ := render_eq_cons v
    rw [hcons] at hn
    cases hn
  termination_by v => sizeOf v

/-- So are the elements of an array. -/
theorem elements_render : ∀ (v : Value) (l : List Value) (n : ℕ) (s : CStr),
    (render v ++ renderElements l).length ≤ n →
    elements n (render v ++ renderElements l ++ s) = some (v :: l, s)
  | v, l, 0, s, hn => by
    obtain ⟨c, t, hcons, -⟩ := render_eq_cons v
    rw [hcons] at hn
    cases hn
  | v, [], n + 1, s, hn => by
    rw [renderElements, List.length_append, List.length_singleton] at hn
    rw [List.append_assoc, elements, value_render v n _ (by omega) (ends_renderElements [] s)]
    rfl
  | v, w :: l, n + 1, s, hn => by
    rw [renderElements, List.length_append, List.length_cons] at hn
    have hl := elements_render w l n s (by omega)
    rw [List.append_assoc] at hl
    rw [List.append_assoc, elements,
      value_render v n _ (by omega) (ends_renderElements (w :: l) s), Option.bind_some,
      renderElements, List.cons_append, skipBlanks_cons (by decide), List.append_assoc]
    show (elements n (skipBlanks (render w ++ (renderElements l ++ s)))).map _ = _
    rw [(skipBlanks_render w _).1, hl]
    rfl
  termination_by v l => sizeOf v + sizeOf l + 1

/-- So are the members of an object. -/
theorem members_render : ∀ (name : CStr) (v : Value) (l : List (CStr × Value)) (n : ℕ) (s : CStr),
    (quote name ++ ':' :: (render v ++ renderMembers l)).length ≤ n →
    members n (quote name ++ ':' :: (render v ++ renderMembers l) ++ s) = some ((name, v) :: l, s)
  | name, v, l, 0, s, hn => by
    cases hn
  | name, v, l, n + 1, s, hn => by
    have hname := string_quote name (':' :: (render v ++ (renderMembers l ++ s)))
    have hopen : quote name ++ ':' :: (render v ++ renderMembers l) ++ s
        = '"' ::
          (name.flatMap escapeChar ++ '"' :: ':' :: (render v ++ (renderMembers l ++ s))) := by
      simp [quote]
    have hlen : (quote name).length + (render v).length + (renderMembers l).length ≤ n := by
      rw [List.length_append, List.length_cons, List.length_append] at hn
      omega
    have hquote : 2 ≤ (quote name).length := by
      rw [quote, List.length_cons, List.length_append, List.length_singleton]
      omega
    rw [hopen, members, List.head?_cons, if_pos rfl, List.tail_cons, hname, Option.bind_some,
      skipBlanks_cons (by decide)]
    show (value n (skipBlanks (render v ++ (renderMembers l ++ s)))).bind _ = _
    rw [(skipBlanks_render v _).1, value_render v n _ (by omega) (ends_renderMembers l s),
      Option.bind_some]
    match l with
    | [] => rfl
    | (name', w) :: l =>
      rw [renderMembers, List.length_cons] at hlen
      have hl := members_render name' w l n s (by omega)
      have hskip : skipBlanks (quote name' ++ ':' :: (render w ++ renderMembers l) ++ s)
          = quote name' ++ ':' :: (render w ++ renderMembers l) ++ s :=
        skipBlanks_cons (by decide) _
      rw [renderMembers, List.cons_append, skipBlanks_cons (by decide)]
      show (members n (skipBlanks _)).map _ = _
      rw [hskip, hl]
      rfl
  termination_by _ v l => sizeOf v + sizeOf l + 1

end

/-- **Every value is read back from its text.** -/
theorem parse_render (v : Value) : parse (render v) = some v := by
  have hvalue := value_render v ((render v).length + 1) [] (Nat.le_succ _) ends_nil
  have hskip := (skipBlanks_render v []).1
  rw [List.append_nil] at hvalue hskip
  unfold parse
  rw [hskip, hvalue]
  rfl

/-! ### What a parser went through -/

/-- The values of the members of an object that have a name. -/
def Value.under (name : CStr) : Value → List Value
  | .object l => (l.filter (fun m => m.1 = name)).map Prod.snd
  | _ => []

/-- **Elements that were read** begin with a value. -/
theorem elements_eq_some {n : ℕ} {s t : CStr} {l : List Value}
    (h : elements (n + 1) s = some (l, t)) :
    ∃ v s' l', value n s = some (v, s') ∧ l = v :: l' ∧
      (∀ u, skipBlanks s' = ',' :: u → elements n (skipBlanks u) = some (l', t)) := by
  rw [elements] at h
  obtain ⟨⟨v, s'⟩, hv, h⟩ := Option.bind_eq_some_iff.mp h
  dsimp only at h
  split at h
  · next u hu =>
    obtain ⟨⟨l', t'⟩, hl, h⟩ := Option.map_eq_some_iff.mp h
    cases h
    refine ⟨v, s', l', hv, rfl, fun u' hu' => ?_⟩
    rw [hu] at hu'
    cases hu'
    exact hl
  · next u hu =>
    cases h
    refine ⟨v, s', [], hv, rfl, fun u' hu' => ?_⟩
    rw [hu] at hu'
    exact absurd (List.cons.inj hu').1 (by decide)
  · cases h

/-- **Members that were read** begin with a string and a value, with a comma or a
brace behind them. -/
theorem members_eq_some {n : ℕ} {s t : CStr} {l : List (CStr × Value)}
    (h : members (n + 1) ('"' :: s) = some (l, t)) :
    ∃ name s₁ s₂ v s₃ l', string s = some (name, s₁) ∧ skipBlanks s₁ = ':' :: s₂ ∧
      value n (skipBlanks s₂) = some (v, s₃) ∧ l = (name, v) :: l' ∧
      ((skipBlanks s₃).head? = some ',' ∨ (skipBlanks s₃).head? = some '}') := by
  rw [members, List.head?_cons, if_pos rfl, List.tail_cons] at h
  obtain ⟨⟨name, s₁⟩, hname, h⟩ := Option.bind_eq_some_iff.mp h
  dsimp only at h
  split at h
  · next s₂ hs₂ =>
    obtain ⟨⟨v, s₃⟩, hv, h⟩ := Option.bind_eq_some_iff.mp h
    dsimp only at h
    split at h
    · next u hu =>
      obtain ⟨⟨l', t'⟩, hl, h⟩ := Option.map_eq_some_iff.mp h
      cases h
      exact ⟨name, s₁, s₂, v, s₃, l', hname, hs₂, hv, rfl, Or.inl (by rw [hu]; rfl)⟩
    · next u hu =>
      cases h
      exact ⟨name, s₁, s₂, v, s₃, [], hname, hs₂, hv, rfl, Or.inr (by rw [hu]; rfl)⟩
    · cases h
  · cases h

/-- An object that was read has members, or it was empty. -/
theorem value_object {n : ℕ} {s : CStr} {r : Value × CStr}
    (h : value (n + 1) ('{' :: '"' :: s) = some r) :
    ∃ l, members n ('"' :: s) = some (l, r.2) ∧ r.1 = .object l := by
  have hskip : skipBlanks ('"' :: s) = '"' :: s := skipBlanks_cons (by decide) s
  rw [value, if_neg (by decide), if_neg (by decide), if_pos rfl, hskip, List.head?_cons,
    if_neg (by decide)] at h
  obtain ⟨⟨l, t⟩, hl, rfl⟩ := Option.map_eq_some_iff.mp h
  exact ⟨l, hl, rfl⟩

/-- An array that is not empty, with nothing in front of its first element. -/
theorem value_array {n : ℕ} {s : CStr} {r : Value × CStr} (hskip : skipBlanks s = s)
    (hne : s.head? ≠ some ']') (h : value (n + 1) ('[' :: s) = some r) :
    ∃ l, elements n s = some (l, r.2) ∧ r.1 = .array l := by
  rw [value, if_neg (by decide), if_pos rfl, hskip, if_neg hne] at h
  obtain ⟨⟨l, t⟩, hl, rfl⟩ := Option.map_eq_some_iff.mp h
  exact ⟨l, hl, rfl⟩

end Json
