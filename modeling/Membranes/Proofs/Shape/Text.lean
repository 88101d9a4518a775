import Mathlib.Data.List.Forall2
import Membranes.Proofs.Text.Numeral
import Membranes.Proofs.Text.Pieces
import Membranes.Shape.Text

/-!
# The notation of shapes

* `Shape.Spells` is the notation: between blanks, opening brackets and closing brackets in any number, numerals
  with separators. `Shape.ofText_eq_ok_iff` says that what is read as a shape are the texts that spell
  its axes.
* The brackets are taken off a text only when it is trimmed, which may take separators off its inside as well.
  `Spells.exists_parts` shows that the parts inside stay the same.
* `Shape.spells_toText`: the text of a shape spells its axes.
-/

namespace Membranes

theorem mapM_eq_ok_iff {α β ε : Type} {read : α → Except ε β} {xs : List α} {ys : List β} :
    xs.mapM read = .ok ys ↔ List.Forall₂ (fun x y => read x = .ok y) xs ys := by
  induction xs generalizing ys with
  | nil =>
    rw [List.mapM_nil, pure_eq_ok_iff, List.forall₂_nil_left_iff, eq_comm]
  | cons x xs ih =>
    rw [List.mapM_cons, bind_eq_ok_iff, List.forall₂_cons_left_iff]
    constructor
    · rintro ⟨y, hy, hrest⟩
      obtain ⟨rest, hmap, hys⟩ := bind_eq_ok_iff.mp hrest
      exact ⟨y, rest, hy, ih.mp hmap, (pure_eq_ok_iff.mp hys).symm⟩
    · rintro ⟨y, rest, hy, hmap, rfl⟩
      exact ⟨y, hy, bind_eq_ok_iff.mpr ⟨rest, ih.mpr hmap, rfl⟩⟩

namespace Shape

open Text

/-- The texts are numerals of axis sizes, one for each. -/
abbrev AreNumerals (parts : List (List Char)) (axes : List UInt32) : Prop :=
  List.Forall₂ (fun part a => Numeral part a.toNat) parts axes

/-- A text is a spelling of axis sizes. -/
inductive Spells : List Char → List UInt32 → Prop
  /-- Blanks, opening brackets, numerals between separators, closing brackets, blanks. -/
  | intro {front opening inner closing behind : List Char} {parts : List (List Char)}
      {axes : List UInt32} (hfront : ∀ c ∈ front, isBlank c = true) (hopening : ∀ c ∈ opening, c = '[')
      (hparts : Parts separates inner parts) (haxes : AreNumerals parts axes)
      (hclosing : ∀ c ∈ closing, c = ']') (hbehind : ∀ c ∈ behind, isBlank c = true) :
      Spells (front ++ (opening ++ inner ++ closing) ++ behind) axes

variable {s inner opening closing : List Char} {parts : List (List Char)} {axes : List UInt32} {c : Char}

theorem separates_of_isBlank (h : isBlank c = true) : separates c = true := by
  rw [separates, h, Bool.or_true]

theorem readAxis_eq_ok_iff {a : UInt32} : readAxis s = .ok a ↔ Numeral s a.toNat := by
  rw [← readUInt32_eq_ok_iff, readAxis]
  cases readUInt32 s with
  | ok word =>
    dsimp only
    rw [Except.ok.injEq, Except.ok.injEq]
  | error fault => exact iff_of_false nofun nofun

theorem mapM_readAxis_eq_ok_iff : parts.mapM readAxis = .ok axes ↔ AreNumerals parts axes := by
  simp only [mapM_eq_ok_iff, readAxis_eq_ok_iff]

/-! ### Brackets -/

theorem exists_numeral (haxes : AreNumerals parts axes) {part : List Char} (hpart : part ∈ parts) :
    ∃ n, Numeral part n := by
  induction haxes with
  | nil => exact nomatch hpart
  | cons hnumeral _ ih =>
    rcases List.mem_cons.mp hpart with rfl | hpart
    · exact ⟨_, hnumeral⟩
    · exact ih hpart

/-- There are no brackets among numerals and separators. -/
theorem ne_bracket (hparts : Parts separates inner parts) (haxes : AreNumerals parts axes)
    (hc : c ∈ inner) : c ≠ '[' ∧ c ≠ ']' := by
  have hkind : separates c = true ∨ c.isDigit = true ∨ c = '+' := by
    rcases hparts.separates_or_mem hc with hseparates | ⟨part, hpart, hmem⟩
    · exact Or.inl hseparates
    · obtain ⟨n, hnumeral⟩ := exists_numeral haxes hpart
      exact Or.inr (hnumeral.isDigit_or_eq hmem)
  constructor
  · rintro rfl
    exact absurd hkind (by decide)
  · rintro rfl
    exact absurd hkind (by decide)

theorem isBlank_of_forall_eq {bracket : Char} {brackets : List Char} (hbracket : isBlank bracket = false)
    (h : ∀ c ∈ brackets, c = bracket) : ∀ c ∈ brackets, isBlank c = false := by
  intro c hc
  rwa [h c hc]

/-- Taking brackets off stops at what has none. -/
theorem dropBrackets_eq (hopening : ∀ c ∈ opening, c = '[') (hclosing : ∀ c ∈ closing, c = ']')
    (hinner : ∀ c ∈ inner, c ≠ '[' ∧ c ≠ ']') :
    dropEndWhile (· = ']') ((opening ++ inner ++ closing).dropWhile (· = '[')) = inner := by
  have hrest : ∀ c ∈ inner ++ closing, decide (c = '[') = false := by
    intro c hc
    rcases List.mem_append.mp hc with hc | hc
    · simpa using (hinner c hc).1
    · rw [hclosing c hc]
      rfl
  rw [List.append_assoc, List.dropWhile_append_of_pos (by simpa using hopening),
    dropWhile_eq_self hrest, dropEndWhile_append (by simpa using hclosing)]
  exact dropEndWhile_eq_self fun c hc => by simpa using (hinner c hc).2

/-- What is left of a spelling between the brackets has the same parts. -/
theorem Spells.exists_parts (h : Spells s axes) :
    ∃ parts, Parts separates (body s) parts ∧ AreNumerals parts axes := by
  obtain ⟨hfront, hopening, hparts, haxes, hclosing, hbehind⟩ := h
  rename_i front opening inner closing behind parts
  refine ⟨parts, ?_, haxes⟩
  obtain ⟨blanks, core, blanks', hblanks, hblanks', rfl, htrim⟩ :=
    exists_trim_bracketed (isBlank_of_forall_eq (by decide) hopening)
      (isBlank_of_forall_eq (by decide) hclosing) inner
  have hcore : ∀ c ∈ core, c ≠ '[' ∧ c ≠ ']' := by
    intro c hc
    refine ne_bracket hparts haxes ?_
    simp [hc]
  rw [body, trim_append hfront hbehind, htrim, dropBrackets_eq hopening hclosing hcore]
  exact (parts_ends_iff (fun c hc => separates_of_isBlank (hblanks c hc))
    fun c hc => separates_of_isBlank (hblanks' c hc)).mp hparts

theorem spells_of_parts (hparts : Parts separates (body s) parts) (haxes : AreNumerals parts axes) :
    Spells s axes := by
  obtain ⟨front, behind, hfront, hbehind, hs⟩ := exists_trim s
  obtain ⟨opening, hopening, htrim⟩ := exists_dropWhile (fun c => decide (c = '[')) (trim s)
  obtain ⟨closing, hclosing, hrest⟩ :=
    exists_dropEndWhile (fun c => decide (c = ']')) ((trim s).dropWhile fun c => decide (c = '['))
  have hbody : trim s = opening ++ body s ++ closing := by
    rw [List.append_assoc, body, ← hrest, ← htrim]
  rw [hs, hbody]
  exact .intro hfront (by simpa using hopening) hparts haxes (by simpa using hclosing) hbehind

/-! ### Reading -/

/-- **What is read as a shape are the spellings of its axes.** -/
theorem ofText_eq_ok_iff {shape : Shape} : ofText s = .ok shape ↔ Spells s shape.axes := by
  rw [ofText, bind_eq_ok_iff]
  constructor
  · rintro ⟨axes, hread, hshape⟩
    rw [ofAxes_eq_ok_iff.mp hshape]
    exact spells_of_parts (parts_pieces _ _) (mapM_readAxis_eq_ok_iff.mp hread)
  · intro hspells
    obtain ⟨parts, hparts, haxes⟩ := hspells.exists_parts
    refine ⟨shape.axes, ?_, ofAxes_eq_ok_iff.mpr rfl⟩
    rw [hparts.pieces_eq]
    exact mapM_readAxis_eq_ok_iff.mpr haxes

/-! ### Writing -/

/-- Digits are not cut. -/
theorem separates_of_isDigit (c : Char) (hc : c.isDigit = true) : separates c = false := by
  have hcomma : c ≠ ',' := by
    rintro rfl
    exact absurd hc (by decide)
  have hpoint : c ≠ '.' := by
    rintro rfl
    exact absurd hc (by decide)
  simp [separates, hcomma, hpoint, isBlank_of_isDigit hc]

theorem areNumerals_toDigits (axes : List UInt32) :
    AreNumerals (axes.map fun a => Nat.toDigits 10 a.toNat) axes := by
  rw [AreNumerals, List.forall₂_map_left_iff, List.forall₂_same]
  exact fun a _ => numeral_toDigits a.toNat

theorem toList_toText (shape : Shape) :
    shape.toText.toList = ['['] ++ (joined "," (shape.axes.map toString)).toList ++ [']'] := by
  rw [toText, axesText, String.toList_append, String.toList_append]
  rfl

/-- A shape is written as a spelling of its axes. -/
theorem spells_toText (shape : Shape) : Spells shape.toText.toList shape.axes := by
  have hparts := parts_joined (by decide) separates_of_isDigit shape.axes
  have hspells : Spells ([] ++ (['['] ++ _ ++ [']']) ++ []) shape.axes :=
    .intro (List.forall_mem_nil _) (by simp) hparts (areNumerals_toDigits shape.axes) (by simp)
      (List.forall_mem_nil _)
  rwa [List.nil_append, List.append_nil, ← toList_toText] at hspells

/-- **The notation of shapes.** A text is read as a shape exactly when it spells its axes: numerals of 32 bits
between separators, in brackets or not, with sizes from two on and a product of 64 bits. What a shape
is written as is such a text, and is read as this shape. -/
theorem ofText_spelled :
    (∀ (text : String) (axes : List UInt32),
      (∃ shape, ofText text.toList = .ok shape ∧ shape.axes = axes) ↔
        Spells text.toList axes ∧ (∀ a ∈ axes, 2 ≤ a.toNat) ∧ axesProduct axes < UInt64.size) ∧
    ∀ shape : Shape, ofText shape.toText.toList = .ok shape := by
  refine ⟨fun text axes => ⟨?_, ?_⟩, fun shape => ofText_eq_ok_iff.mpr shape.spells_toText⟩
  · rintro ⟨shape, hread, rfl⟩
    exact ⟨ofText_eq_ok_iff.mp hread, shape.valid⟩
  · rintro ⟨hspells, hvalid⟩
    exact ⟨⟨axes, hvalid⟩, ofText_eq_ok_iff.mpr hspells, rfl⟩

/-- A bracket may stand behind a separator, and one side may have more of them than the other. -/
example : (ofText "\t[[ 2,+3..  05, ] ".toList).map Shape.axes = .ok [2, 3, 5] := by decide +kernel

end Shape

end Membranes
