import Mathlib.Data.List.TakeDrop
import Membranes.Binary.Text
import Membranes.Proofs.Binary.Decimal
import Membranes.Proofs.Text.Numeral

/-!
# Numbers written and read back

* `Decimal.Positional` is what a decimal is written as without an exponent: digits, perhaps with a point among
  them. `Positional.ofLiteral?` says that such a text is read as a decimal that is rounded alike.
* `Binary32.ofText?_toText`: every number is read back from what it is written as. So there is a word for
  it (`Binary32.exists_literal`).
-/

namespace Membranes

variable {digits whole fraction rest s : List Char} {c : Char} {d : Decimal}

/-! ### Digits -/

theorem digitsValue_eq (value : ℕ) (digits : List Char) :
    digitsValue value digits = Nat.ofDigitChars 10 digits value := by
  have hstep : (fun n (c : Char) => n * 10 + (c.toNat - 48)) =
      fun n c => 10 * n + (c.toNat - '0'.toNat) := by
    funext n c
    rw [Nat.mul_comm]
    rfl
  unfold digitsValue Nat.ofDigitChars
  rw [hstep]

theorem spanDigits_append (hdigits : ∀ c ∈ digits, c.isDigit = true)
    (hend : ∀ c ∈ rest.head?, c.isDigit = false) : spanDigits (digits ++ rest) = (digits, rest) := by
  have hdigit : (fun c => (Text.digit? c).isSome) = Char.isDigit := by
    funext c
    rw [Text.digit?_eq]
    cases c.isDigit <;> rfl
  unfold spanDigits
  rw [hdigit, List.span_eq_takeWhile_dropWhile, List.takeWhile_append_of_pos hdigits,
    List.dropWhile_append_of_pos hdigits]
  cases rest with
  | nil => rw [List.takeWhile_nil, List.append_nil, List.dropWhile_nil]
  | cons c rest =>
    have hc : c.isDigit = false := hend c rfl
    rw [List.takeWhile_cons, List.dropWhile_cons, hc, if_neg Bool.false_ne_true, List.append_nil]
    rfl

theorem spanDigits_eq (hdigits : ∀ c ∈ digits, c.isDigit = true) : spanDigits digits = (digits, []) := by
  have hend : ∀ c ∈ ([] : List Char).head?, c.isDigit = false := fun _ hc => nomatch hc
  have hspan := spanDigits_append hdigits hend
  rwa [List.append_nil] at hspan

namespace Decimal

theorem ofLiteral?_digits (hne : digits ≠ []) (hdigits : ∀ c ∈ digits, c.isDigit = true) :
    ofLiteral? digits = some ⟨Nat.ofDigitChars 10 digits 0, 0⟩ := by
  unfold ofLiteral?
  rw [spanDigits_eq hdigits]
  dsimp only
  rw [List.isEmpty_eq_false_iff.mpr hne, digitsValue_eq, digitsValue_eq]
  rfl

theorem ofLiteral?_point (hne : whole ≠ []) (hwhole : ∀ c ∈ whole, c.isDigit = true)
    (hfraction : ∀ c ∈ fraction, c.isDigit = true) :
    ofLiteral? (whole ++ '.' :: fraction) =
      some ⟨Nat.ofDigitChars 10 (whole ++ fraction) 0, -fraction.length⟩ := by
  have hpoint : ∀ c ∈ ('.' :: fraction).head?, c.isDigit = false := by
    rintro _ ⟨⟩
    rfl
  unfold ofLiteral?
  rw [spanDigits_append hwhole hpoint]
  simp only [spanDigits_eq hfraction]
  rw [List.isEmpty_eq_false_iff.mpr hne, digitsValue_eq, digitsValue_eq, ← Nat.ofDigitChars_append]
  show some (⟨_, 0 - (fraction.length : ℤ)⟩ : Decimal) = _
  rw [Int.zero_sub]

/-! ### Writing without an exponent -/

/-- The text is digits that make up the decimal, with a point in front of the last ones if need be. -/
inductive Positional : Decimal → List Char → Prop
  | whole {n k : ℕ} {digits : List Char} (hne : digits ≠ [])
      (hdigits : ∀ c ∈ digits, c.isDigit = true)
      (hvalue : Nat.ofDigitChars 10 digits 0 = n * 10 ^ k) : Positional ⟨n, k⟩ digits
  | point {whole fraction : List Char} (hne : whole ≠ []) (hwhole : ∀ c ∈ whole, c.isDigit = true)
      (hfraction : ∀ c ∈ fraction, c.isDigit = true) :
      Positional ⟨Nat.ofDigitChars 10 (whole ++ fraction) 0, -fraction.length⟩
        (whole ++ '.' :: fraction)

theorem isDigit_of_mem_replicate (k : ℕ) : ∀ c ∈ List.replicate k '0', c.isDigit = true := by
  intro c hc
  rw [List.eq_of_mem_replicate hc]
  rfl

theorem isDigit_of_mem_append (hwhole : ∀ c ∈ whole, c.isDigit = true)
    (hfraction : ∀ c ∈ fraction, c.isDigit = true) : ∀ c ∈ whole ++ fraction, c.isDigit = true :=
  fun c hc => (List.mem_append.mp hc).elim (hwhole c) (hfraction c)

theorem positional_positional (d : Decimal) : d.Positional (d.positional "").toList := by
  obtain ⟨n, e⟩ := d
  have hdigits := Text.isDigit_of_mem_toDigits n
  have hne : Nat.toDigits 10 n ≠ [] := Nat.toDigits_ne_nil
  have hvalue : Nat.ofDigitChars 10 (Nat.toDigits 10 n) 0 = n := Nat.ofDigitChars_ten_toDigits
  unfold positional
  dsimp only
  generalize Nat.toDigits 10 n = digits at hdigits hne hvalue ⊢
  by_cases hwhole : 0 ≤ e
  · obtain ⟨k, rfl⟩ := Int.eq_ofNat_of_zero_le hwhole
    rw [if_pos hwhole, String.append_empty, String.toList_ofList, Int.toNat_natCast]
    refine .whole (by simp [hne]) (isDigit_of_mem_append hdigits (isDigit_of_mem_replicate k)) ?_
    rw [Nat.ofDigitChars_append, Nat.ofDigitChars_replicate_zero, hvalue, Nat.mul_comm]
  · rw [if_neg hwhole]
    by_cases hpoint : 0 < (digits.length : ℤ) + e
    · -- The point falls among the digits.
      rw [if_pos hpoint, String.toList_ofList]
      generalize hplace : ((digits.length : ℤ) + e).toNat = place
      have hlength : e = -((digits.drop place).length : ℤ) := by
        rw [List.length_drop]
        omega
      have hfirst : digits.take place ≠ [] := by
        rw [Ne, List.take_eq_nil_iff, not_or]
        exact ⟨by omega, hne⟩
      have hpositional : Positional _ (digits.take place ++ '.' :: digits.drop place) :=
        .point hfirst (fun c hc => hdigits c (List.mem_of_mem_take hc))
          fun c hc => hdigits c (List.mem_of_mem_drop hc)
      rwa [List.take_append_drop, hvalue, ← hlength] at hpositional
    · -- The point falls in front of them.
      rw [if_neg hpoint, String.toList_ofList]
      generalize hzeros : (-((digits.length : ℤ) + e)).toNat = zeros
      have hlength : e = -((List.replicate zeros '0' ++ digits).length : ℤ) := by
        rw [List.length_append, List.length_replicate]
        omega
      have hfilled : Nat.ofDigitChars 10 (['0'] ++ (List.replicate zeros '0' ++ digits)) 0 = n := by
        rw [Nat.ofDigitChars_append, Nat.ofDigitChars_append, Nat.ofDigitChars_replicate_zero]
        exact hvalue
      have hpositional : Positional _ (['0'] ++ '.' :: (List.replicate zeros '0' ++ digits)) :=
        .point (List.cons_ne_nil _ _) (isDigit_of_mem_replicate 1)
          (isDigit_of_mem_append (isDigit_of_mem_replicate zeros) hdigits)
      rwa [hfilled, ← hlength] at hpositional

/-- **What is written without an exponent is read as a decimal that is rounded alike.** -/
theorem Positional.exists_ofLiteral? (h : d.Positional s) (format : BinaryFormat) :
    ∃ d', ofLiteral? s = some d' ∧ format.ofDecimal d' = format.ofDecimal d := by
  cases h with
  | whole hne hdigits hvalue =>
    refine ⟨_, ofLiteral?_digits hne hdigits, ?_⟩
    rw [hvalue]
    exact BinaryFormat.ofDecimal_mul_ten_pow _ _
  | point hne hwhole hfraction => exact ⟨_, ofLiteral?_point hne hwhole hfraction, rfl⟩

theorem Positional.exists_cons (h : d.Positional s) : ∃ c rest, s = c :: rest ∧ c.isDigit = true := by
  cases h with
  | whole hne hdigits =>
    obtain ⟨c, rest, rfl⟩ := List.exists_cons_of_ne_nil hne
    exact ⟨c, rest, rfl, hdigits c List.mem_cons_self⟩
  | point hne hwhole =>
    obtain ⟨c, rest, rfl⟩ := List.exists_cons_of_ne_nil hne
    exact ⟨c, _, rfl, hwhole c List.mem_cons_self⟩

theorem Positional.isDigit_or_eq (h : d.Positional s) (hc : c ∈ s) : c.isDigit = true ∨ c = '.' := by
  cases h with
  | whole _ hdigits => exact Or.inl (hdigits c hc)
  | point _ hwhole hfraction =>
    rcases List.mem_append.mp hc with hc | hc
    · exact Or.inl (hwhole c hc)
    · rcases List.mem_cons.mp hc with rfl | hc
      · exact Or.inr rfl
      · exact Or.inl (hfraction c hc)

end Decimal

/-! ### Numbers with 32 bits -/

namespace Binary32

theorem toLower_of_isDigit (h : c.isDigit = true) : c.toLower = c := by
  have hrange : c.toNat ≤ '9'.toNat := (Char.isDigit_iff_toNat.mp h).2
  unfold Char.toLower
  refine dif_neg fun hupper => ?_
  have hle : 'A'.toNat ≤ c.toNat := UInt32.le_iff_toNat_le.mp hupper.1
  exact absurd (hle.trans hrange) (by decide)

/-- Behind the sign, a text that begins with a digit can only be a literal. -/
theorem ofText?_of_isDigit (negative : Bool) (hc : c.isDigit = true) (rest : List Char) :
    ofText? ((if negative then "-" else "").toList ++ c :: rest) =
      (Decimal.ofLiteral? (c :: rest)).map fun d =>
        ofMagnitude negative (BinaryFormat.single.ofDecimal d) := by
  have hsign : splitSign ((if negative then "-" else "").toList ++ c :: rest) = (negative, c :: rest) := by
    cases negative with
    | true => rfl
    | false =>
      show splitSign (c :: rest) = _
      unfold splitSign
      split
      · rename_i hminus
        obtain ⟨rfl, -⟩ := List.cons.inj hminus
        exact nomatch hc
      · rename_i hplus
        obtain ⟨rfl, -⟩ := List.cons.inj hplus
        exact nomatch hc
      · rfl
  have hname (first : Char) (name : List Char) (hfirst : first.isDigit = false) :
      String.ofList ((c :: rest).map Char.toLower) ≠ String.ofList (first :: name) := by
    intro heq
    have hhead := (List.cons.inj (String.ofList_injective heq)).1
    rw [toLower_of_isDigit hc] at hhead
    rw [hhead, hfirst] at hc
    exact nomatch hc
  unfold ofText?
  rw [hsign]
  dsimp only
  rw [if_neg (not_or.mpr ⟨hname 'i' ['n', 'f'] rfl, hname 'i' ['n', 'f', 'i', 'n', 'i', 't', 'y'] rfl⟩),
    if_neg (hname 'n' ['a', 'n'] rfl)]

/-- **Every number is read back from what it is written as.** -/
theorem ofText?_toText {x : Binary32} (h : x.isNaN = false) :
    ofText? (x.toText .plain).toList = some x := by
  have hle : x.magnitude ≤ BinaryFormat.single.infinity := by
    simpa [isNaN] using h
  unfold toText
  rw [if_neg (by rw [h]; exact Bool.false_ne_true)]
  by_cases hinfinite : x.isInfinite = true
  · have hinfinity : infinity x.isNegative = x := by
      rw [infinity, ← beq_iff_eq.mp hinfinite, ofMagnitude_magnitude]
    rw [if_pos hinfinite]
    have hread : ∀ negative, ofText? (NumberStyle.plain.infinity negative).toList =
        some (infinity negative) := by decide
    rw [hread, hinfinity]
  · rw [if_neg hinfinite]
    have hfinite : x.magnitude < BinaryFormat.single.infinity :=
      hle.lt_of_ne fun heq => hinfinite (beq_iff_eq.mpr heq)
    have hpositional := (BinaryFormat.single.shortest .up x.magnitude).positional_positional
    obtain ⟨c, rest, htext, hc⟩ := hpositional.exists_cons
    obtain ⟨d, hread, hround⟩ := hpositional.exists_ofLiteral? BinaryFormat.single
    show ofText? ((if x.isNegative then "-" else "") ++
      (BinaryFormat.single.shortest .up x.magnitude).positional "").toList = some x
    rw [htext] at hread
    rw [String.toList_append, htext, ofText?_of_isDigit _ hc, hread, Option.map_some, hround,
      BinaryFormat.ofDecimal_shortest _ hfinite, ofMagnitude_magnitude]

theorem isWord_toText (x : Binary32) : Text.IsWord (x.toText .plain).toList := by
  unfold toText
  split
  · decide
  split
  · have hinfinity : ∀ negative, Text.IsWord (NumberStyle.plain.infinity negative).toList := by decide
    exact hinfinity _
  · have hpositional := (BinaryFormat.single.shortest .up x.magnitude).positional_positional
    have hsign : ∀ c ∈ (if x.isNegative then "-" else "").toList, Text.isBlank c = false := by
      cases x.isNegative with
      | true => exact Text.isBlank_eq_false_of_all (by decide)
      | false => exact Text.isBlank_eq_false_of_all (by decide)
    show Text.IsWord ((if x.isNegative then "-" else "") ++
      (BinaryFormat.single.shortest .up x.magnitude).positional "").toList
    rw [String.toList_append]
    refine Text.IsWord.append_front ⟨?_, fun c hc => ?_⟩ hsign
    · obtain ⟨c, rest, htext, -⟩ := hpositional.exists_cons
      rw [htext]
      exact List.cons_ne_nil c rest
    · obtain hdigit | rfl := hpositional.isDigit_or_eq hc
      · exact Text.isBlank_of_isDigit hdigit
      · rfl

/-- There is a word for every value but those that are not numbers and have an unusual pattern. -/
theorem exists_literal {x : Binary32} (h : x.isNaN = false ∨ x.magnitude = nan.magnitude) :
    ∃ word, Text.IsWord word ∧ ofText? word = some x := by
  obtain hnumber | hnan := h
  · exact ⟨_, x.isWord_toText, ofText?_toText hnumber⟩
  · have hread : ∀ negative : Bool, Text.IsWord (if negative then "-NaN" else "NaN").toList ∧
        ofText? (if negative then "-NaN" else "NaN").toList =
          some (ofMagnitude negative nan.magnitude) := by decide
    have hx := hread x.isNegative
    rw [← hnan, ofMagnitude_magnitude] at hx
    exact ⟨_, hx⟩

end Binary32

end Membranes
