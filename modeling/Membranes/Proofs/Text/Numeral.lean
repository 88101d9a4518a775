import Mathlib.Order.Nat
import Membranes.Proofs.Text.Pieces
import Membranes.Refusal
import Membranes.Text.Blank
import Membranes.Text.Numeral

/-!
# Decimal numerals

* `Text.Numeral`: a text is a decimal numeral, perhaps with a plus sign in front, and has this value.
* `Text.readUInt32_eq_ok_iff`: what is read as a 32-bit number are the numerals of 32-bit numbers. Digits are
  read from the left, and each of them makes the value greater, so that what is too large at one place
  stays so (`Text.readDigits_eq_ok_iff`).
* `Text.numeral_toDigits`: the digits of a number are a numeral of it. So numbers written between commas are
  found again as the parts of the text (`Text.parts_joined`).
-/

namespace Membranes.Text

/-- One decimal digit or more, perhaps behind a plus sign, that make up this value. -/
def Numeral (s : List Char) (n : ℕ) : Prop :=
  ∃ digits, (s = digits ∨ s = '+' :: digits) ∧ digits ≠ [] ∧ (∀ c ∈ digits, c.isDigit = true) ∧
    Nat.ofDigitChars 10 digits 0 = n

variable {bound value n : ℕ} {s : List Char} {c : Char}

theorem digit?_eq (c : Char) :
    digit? c = if c.isDigit = true then some (c.toNat - '0'.toNat) else none := by
  have hdigit : ('0' ≤ c ∧ c ≤ '9') ↔ c.isDigit = true := by
    rw [Char.isDigit_iff_toNat, Char.le_def, Char.le_def, UInt32.le_iff_toNat_le, UInt32.le_iff_toNat_le]
    rfl
  unfold digit?
  by_cases h : c.isDigit = true
  · rw [if_pos h, if_pos (hdigit.mpr h)]
    rfl
  · rw [if_neg h, if_neg (mt hdigit.mp h)]

theorem isBlank_of_isDigit (h : c.isDigit = true) : isBlank c = false := by
  have hrange : '0'.toNat ≤ c.toNat ∧ c.toNat ≤ '9'.toNat := Char.isDigit_iff_toNat.mp h
  have hlow : 48 ≤ c.toNat := hrange.1
  have hhigh : c.toNat ≤ 57 := hrange.2
  simp only [isBlank, blankRanges, List.any_cons, List.any_nil, Bool.or_false, Bool.or_eq_false_iff,
    Bool.and_eq_false_iff, decide_eq_false_iff_not]
  omega

theorem le_ofDigitChars (s : List Char) : ∀ value, value ≤ Nat.ofDigitChars 10 s value := by
  induction s with
  | nil => exact fun value => le_of_eq Nat.ofDigitChars_nil.symm
  | cons c s ih =>
    intro value
    have hstep : value ≤ 10 * value + (c.toNat - '0'.toNat) := by omega
    rw [Nat.ofDigitChars_cons]
    exact hstep.trans (ih _)

/-- Digits are read when the number that they make up, behind the value so far, is below the bound. -/
theorem readDigits_eq_ok_iff (s : List Char) : ∀ value, value < bound →
    (readDigits bound value s = .ok n ↔
      (∀ c ∈ s, c.isDigit = true) ∧ Nat.ofDigitChars 10 s value = n ∧ n < bound) := by
  induction s with
  | nil =>
    intro value hvalue
    rw [readDigits, Nat.ofDigitChars_nil]
    constructor
    · rintro hok
      obtain rfl := Except.ok.inj hok
      exact ⟨List.forall_mem_nil _, rfl, hvalue⟩
    · rintro ⟨-, rfl, -⟩
      rfl
  | cons c s ih =>
    intro value hvalue
    rw [readDigits, digit?_eq, List.forall_mem_cons, Nat.ofDigitChars_cons]
    by_cases hdigit : c.isDigit = true
    · have hnext : value * 10 + (c.toNat - '0'.toNat) = 10 * value + (c.toNat - '0'.toNat) := by omega
      rw [if_pos hdigit]
      dsimp only
      rw [hnext]
      by_cases hfits : 10 * value + (c.toNat - '0'.toNat) < bound
      · rw [if_pos hfits, ih _ hfits]
        simp [hdigit]
      · -- The value so far is too large, and with more digits it is no smaller.
        rw [if_neg hfits]
        refine iff_of_false nofun ?_
        rintro ⟨-, rfl, hlt⟩
        have hle := le_ofDigitChars s (10 * value + (c.toNat - '0'.toNat))
        omega
    · rw [if_neg hdigit]
      refine iff_of_false nofun ?_
      rintro ⟨⟨hc, -⟩, -⟩
      exact hdigit hc

theorem not_isDigit_plus (s : List Char) : ¬ ∀ c ∈ '+' :: s, c.isDigit = true :=
  fun h => absurd (h '+' List.mem_cons_self) (by decide)

theorem readBounded_eq_ok_iff (hbound : 0 < bound) :
    readBounded bound s = .ok n ↔ Numeral s n ∧ n < bound := by
  unfold readBounded Numeral
  split
  · refine iff_of_false nofun ?_
    rintro ⟨⟨digits, hdigits | hdigits, hne, -⟩, -⟩
    · exact hne hdigits.symm
    · exact nomatch hdigits
  · refine iff_of_false nofun ?_
    rintro ⟨⟨digits, rfl | hdigits, hne, hall, -⟩, -⟩
    · exact not_isDigit_plus [] hall
    · exact hne (List.cons.inj hdigits).2.symm
  · rename_i rest hrest
    rw [readDigits_eq_ok_iff rest 0 hbound]
    constructor
    · rintro ⟨hall, hvalue, hlt⟩
      exact ⟨⟨rest, Or.inr rfl, hrest, hall, hvalue⟩, hlt⟩
    · rintro ⟨⟨digits, rfl | hdigits, -, hall, hvalue⟩, hlt⟩
      · exact absurd hall (not_isDigit_plus rest)
      · obtain rfl := (List.cons.inj hdigits).2
        exact ⟨hall, hvalue, hlt⟩
  · rename_i hempty _ hplus
    rw [readDigits_eq_ok_iff s 0 hbound]
    constructor
    · rintro ⟨hall, hvalue, hlt⟩
      exact ⟨⟨s, Or.inl rfl, hempty, hall, hvalue⟩, hlt⟩
    · rintro ⟨⟨digits, rfl | hdigits, -, hall, hvalue⟩, hlt⟩
      · exact ⟨hall, hvalue, hlt⟩
      · exact absurd hdigits (hplus digits)

/-- **The numerals of 32-bit numbers are read, and nothing else.** -/
theorem readUInt32_eq_ok_iff {word : UInt32} : readUInt32 s = .ok word ↔ Numeral s word.toNat := by
  rw [readUInt32, map_eq_ok_iff]
  constructor
  · rintro ⟨value, hread, rfl⟩
    obtain ⟨hnumeral, hlt⟩ := (readBounded_eq_ok_iff (by decide)).mp hread
    rwa [UInt32.toNat_ofNat_of_lt' hlt]
  · intro hnumeral
    have hread := (readBounded_eq_ok_iff (by decide)).mpr ⟨hnumeral, word.toNat_lt⟩
    exact ⟨word.toNat, hread, UInt32.ofNat_toNat⟩

/-- A numeral has no characters but digits and the sign. -/
theorem Numeral.isDigit_or_eq (h : Numeral s n) (hc : c ∈ s) : c.isDigit = true ∨ c = '+' := by
  obtain ⟨digits, hs, -, hall, -⟩ := h
  rcases hs with rfl | rfl
  · exact Or.inl (hall c hc)
  · rcases List.mem_cons.mp hc with hplus | hc
    · exact Or.inr hplus
    · exact Or.inl (hall c hc)

/-! ### Writing -/

theorem isDigit_of_mem_toDigits (n : ℕ) : ∀ c ∈ Nat.toDigits 10 n, c.isDigit = true :=
  fun _ hc => Nat.isDigit_of_mem_toDigits (by decide) (by decide) hc

/-- The digits of a number are a numeral of it. -/
theorem numeral_toDigits (n : ℕ) : Numeral (Nat.toDigits 10 n) n :=
  ⟨Nat.toDigits 10 n, Or.inl rfl, Nat.toDigits_ne_nil, isDigit_of_mem_toDigits n,
    Nat.ofDigitChars_ten_toDigits⟩

theorem toList_toString (n : UInt32) : (toString n).toList = Nat.toDigits 10 n.toNat := by
  show (String.ofList (Nat.toDigits 10 n.toNat)).toList = _
  exact String.toList_ofList

theorem toList_joined (ns : List UInt32) : (joined "," (ns.map toString)).toList =
    [','].intercalate (ns.map fun n => Nat.toDigits 10 n.toNat) := by
  have hmap : (ns.map toString).map String.toList = ns.map fun n => Nat.toDigits 10 n.toNat := by
    rw [List.map_map]
    exact List.map_congr_left fun n _ => toList_toString n
  rw [joined, String.toList_intercalate, hmap]
  rfl

/-- Numbers written between commas are the parts of the text, wherever digits are not cut. -/
theorem parts_joined {separates : Char → Bool} (hcomma : separates ',' = true)
    (hdigit : ∀ c, c.isDigit = true → separates c = false) (ns : List UInt32) :
    Parts separates (joined "," (ns.map toString)).toList
      (ns.map fun n => Nat.toDigits 10 n.toNat) := by
  rw [toList_joined]
  refine parts_intercalate hcomma fun part hpart => ?_
  obtain ⟨n, -, rfl⟩ := List.mem_map.mp hpart
  exact ⟨Nat.toDigits_ne_nil, fun c hc => hdigit c (isDigit_of_mem_toDigits n.toNat c hc)⟩

end Membranes.Text
