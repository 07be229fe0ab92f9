import MiniContainer.CText

/-!
# UTF-8

A text of bytes is UTF-8 if it is the encoding of characters. `isUtf8_append_cons`
says that a text can be taken apart at an ASCII character: it is UTF-8 exactly
if both sides are, for such a character is never a part of the encoding of
another one.
-/

open CText

namespace Utf8

/-- The encoding of a character, one character for each byte. -/
def encodeChar (c : Char) : CStr := (String.utf8EncodeChar c).map (fun b => Char.ofNat b.toNat)

/-- The encoding of characters. -/
def encode (cs : List Char) : CStr := cs.flatMap encodeChar

/-- **A text of bytes that is UTF-8.** -/
def IsUtf8 (s : CStr) : Prop := ∃ cs, encode cs = s

/-- A character of a single byte. -/
def IsAscii (c : Char) : Prop := c.toNat < 128

instance (c : Char) : Decidable (IsAscii c) := inferInstanceAs (Decidable (_ < _))

/-- Of other characters every byte is one that no ASCII character has. -/
theorem le_of_mem_utf8EncodeChar {c : Char} (hc : ¬ IsAscii c) {b : UInt8}
    (hb : b ∈ String.utf8EncodeChar c) : 128 ≤ b.toNat := by
  have hc : ¬ c.val.toNat ≤ 0x7f := fun h => hc (Nat.lt_succ_of_le h)
  unfold String.utf8EncodeChar at hb
  dsimp only at hb
  rw [if_neg hc] at hb
  split at hb
  · simp only [List.mem_cons, List.not_mem_nil, or_false] at hb
    rcases hb with rfl | rfl <;> simp only [UInt8.toNat_ofNat'] <;> omega
  · split at hb
    · simp only [List.mem_cons, List.not_mem_nil, or_false] at hb
      rcases hb with rfl | rfl | rfl <;> simp only [UInt8.toNat_ofNat'] <;> omega
    · simp only [List.mem_cons, List.not_mem_nil, or_false] at hb
      rcases hb with rfl | rfl | rfl | rfl <;> simp only [UInt8.toNat_ofNat'] <;> omega

/-- An ASCII character is its own encoding. -/
theorem encodeChar_of_ascii {c : Char} (hc : IsAscii c) : encodeChar c = [c] := by
  unfold encodeChar String.utf8EncodeChar
  have hle : c.val.toNat ≤ 0x7f := Nat.le_of_lt_succ hc
  rw [if_pos hle, List.map_singleton, UInt8.toNat_ofNat', Nat.mod_eq_of_lt (by omega)]
  exact congrArg (fun c => [c]) (Char.ofNat_toNat c)

/-- **An ASCII character is in no other encoding.** -/
theorem encodeChar_eq_of_mem {c x : Char} (hx : IsAscii x) (h : x ∈ encodeChar c) :
    encodeChar c = [x] := by
  by_cases hc : IsAscii c
  · rw [encodeChar_of_ascii hc] at h ⊢
    rw [List.mem_singleton.mp h]
  · obtain ⟨b, hb, rfl⟩ := List.mem_map.mp h
    have hle := le_of_mem_utf8EncodeChar hc hb
    have hlt := UInt8.toNat_lt b
    unfold IsAscii at hx
    rw [Char.toNat_ofNat, if_pos (Or.inl (by omega))] at hx
    omega

theorem isUtf8_nil : IsUtf8 [] := ⟨[], rfl⟩

/-- **A text is taken apart at an ASCII character.** -/
theorem isUtf8_append_cons {x : Char} (hx : IsAscii x) {s t : CStr} :
    IsUtf8 (s ++ x :: t) ↔ IsUtf8 s ∧ IsUtf8 t := by
  constructor
  · rintro ⟨cs, hcs⟩
    induction cs generalizing s with
    | nil => exact absurd hcs.symm (List.append_ne_nil_of_right_ne_nil _ (List.cons_ne_nil _ _))
    | cons c cs ih =>
      have hcs : encodeChar c ++ encode cs = s ++ x :: t := hcs
      rcases List.append_eq_append_iff.mp hcs with ⟨s', rfl, hrest⟩ | ⟨r, hchar, hrest⟩
      · obtain ⟨⟨ds, rfl⟩, ht⟩ := ih hrest
        exact ⟨⟨c :: ds, rfl⟩, ht⟩
      · cases r with
        | nil =>
          rw [List.append_nil] at hchar
          obtain ⟨-, ht⟩ := ih (s := []) hrest.symm
          exact ⟨⟨[c], by rw [← hchar]; simp [encode]⟩, ht⟩
        | cons y r =>
          obtain ⟨rfl, rfl⟩ := List.cons.inj hrest
          -- the character is a part of an encoding, so it is all of it
          have hone := encodeChar_eq_of_mem hx (c := c) (by rw [hchar]; simp)
          rw [hone] at hchar
          obtain ⟨rfl, hr⟩ : s = [] ∧ r = [] := by
            have hlen := congrArg List.length hchar
            simp only [List.length_append, List.length_cons, List.length_nil] at hlen
            exact ⟨List.length_eq_zero_iff.mp (by omega), List.length_eq_zero_iff.mp (by omega)⟩
          exact ⟨isUtf8_nil, cs, by rw [hr]; rfl⟩
  · rintro ⟨⟨cs, rfl⟩, ds, rfl⟩
    refine ⟨cs ++ x :: ds, ?_⟩
    unfold encode
    rw [List.flatMap_append, List.flatMap_cons, encodeChar_of_ascii hx]
    rfl

/-- ASCII is UTF-8. -/
theorem isUtf8_of_ascii {s : CStr} (h : ∀ c ∈ s, IsAscii c) : IsUtf8 s := by
  induction s with
  | nil => exact isUtf8_nil
  | cons c s ih =>
    exact (isUtf8_append_cons (h c List.mem_cons_self) (s := [])).mpr
      ⟨isUtf8_nil, ih (fun d hd => h d (List.mem_cons_of_mem _ hd))⟩

theorem isAscii_of_isDigit {c : Char} (hc : c.isDigit = true) : IsAscii c :=
  (Char.isDigit_iff_toNat.mp hc).2.trans_lt (by decide)

/-- Texts with an ASCII character between each two. -/
theorem isUtf8_intercalate {x : Char} (hx : IsAscii x) (l : List CStr) :
    IsUtf8 ([x].intercalate l) ↔ ∀ s ∈ l, IsUtf8 s := by
  induction l with
  | nil => exact iff_of_true isUtf8_nil (fun _ hs => absurd hs List.not_mem_nil)
  | cons s l ih =>
    cases l with
    | nil =>
      rw [List.forall_mem_singleton]
      simp
    | cons t l =>
      rw [List.intercalate_cons_cons, List.append_assoc, List.singleton_append,
        isUtf8_append_cons hx, ih]
      exact List.forall_mem_cons.symm

end Utf8
