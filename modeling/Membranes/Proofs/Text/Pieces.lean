import Mathlib.Data.List.DropRight
import Membranes.Text.Blank

/-!
# Texts cut into pieces

* `Text.Parts` is the grammar of texts with separators: separators in any number, and between them parts,
  each as long as it can be. `Text.pieces_eq_iff` says that the pieces of a text are its parts.
* `parts_ends_iff`: separators at the ends of a text make no difference to its parts. So a text can be
  trimmed of blanks first where blanks separate, even between brackets (`exists_trim_bracketed`).
* `Text.Laid` is the layout of words with blanks of any number and kind between them. `Laid.words_eq` says
  that they are found again.
-/

namespace Membranes.Text

/-- A text of separators and of parts without separators, each as long as it can be. -/
inductive Parts (separates : Char → Bool) : List Char → List (List Char) → Prop
  /-- An empty text has no parts. -/
  | nil : Parts separates [] []
  /-- A separator belongs to no part. -/
  | separator {c : Char} {s : List Char} {parts : List (List Char)} (hc : separates c = true)
      (h : Parts separates s parts) : Parts separates (c :: s) parts
  /-- A part ends at the end of the text or in front of a separator. -/
  | part {part s : List Char} {parts : List (List Char)} (hne : part ≠ [])
      (hfree : ∀ c ∈ part, separates c = false) (hend : ∀ c ∈ s.head?, separates c = true)
      (h : Parts separates s parts) : Parts separates (part ++ s) (part :: parts)

variable {separates drop : Char → Bool} {s part front behind : List Char} {parts : List (List Char)}
  {c : Char}

/-! ### Cutting -/

theorem cut_ne_nil (separates : Char → Bool) (s : List Char) : cut separates s ≠ [] := by
  cases s with
  | nil => exact nofun
  | cons c s =>
    show cutStep separates c (cut separates s) ≠ []
    unfold cutStep
    split
    · split
      · exact List.cons_ne_nil _ _
      · exact List.cons_ne_nil _ _
    · split
      · exact List.cons_ne_nil _ _
      · exact List.cons_ne_nil _ _

theorem cut_cons_of_separates (hc : separates c = true) (s : List Char) :
    cut separates (c :: s) = [] :: cut separates s := by
  obtain ⟨first, rest, hcut⟩ := List.exists_cons_of_ne_nil (cut_ne_nil separates s)
  show cutStep separates c (cut separates s) = _
  rw [hcut, cutStep, if_pos hc]

/-- What stands in front of the first separator extends the first part. -/
theorem cut_append (hfree : ∀ c ∈ part, separates c = false) {first : List Char}
    {rest : List (List Char)} (hcut : cut separates s = first :: rest) :
    cut separates (part ++ s) = (part ++ first) :: rest := by
  induction part with
  | nil => exact hcut
  | cons c part ih =>
    have hc : separates c = false := hfree c List.mem_cons_self
    have hrest := ih fun d hd => hfree d (List.mem_cons_of_mem c hd)
    show cutStep separates c (cut separates (part ++ s)) = _
    rw [hrest, cutStep, hc]
    rfl

theorem exists_cut_eq (hend : ∀ c ∈ s.head?, separates c = true) :
    ∃ rest, cut separates s = [] :: rest := by
  cases s with
  | nil => exact ⟨[], rfl⟩
  | cons c s => exact ⟨_, cut_cons_of_separates (hend c rfl) s⟩

theorem pieces_cons_of_separates (hc : separates c = true) (s : List Char) :
    pieces separates (c :: s) = pieces separates s := by
  rw [pieces, cut_cons_of_separates hc]
  rfl

theorem pieces_append (hne : part ≠ []) (hfree : ∀ c ∈ part, separates c = false)
    (hend : ∀ c ∈ s.head?, separates c = true) :
    pieces separates (part ++ s) = part :: pieces separates s := by
  obtain ⟨rest, hcut⟩ := exists_cut_eq hend
  rw [pieces, pieces, cut_append hfree hcut, hcut, List.append_nil, List.filter_cons_of_pos]
  · rfl
  · simpa using hne

/-! ### Pieces are parts -/

theorem Parts.pieces_eq (h : Parts separates s parts) : pieces separates s = parts := by
  induction h with
  | nil => rfl
  | separator hc _ ih => rw [pieces_cons_of_separates hc, ih]
  | part hne hfree hend _ ih => rw [pieces_append hne hfree hend, ih]

theorem parts_pieces (separates : Char → Bool) (s : List Char) :
    Parts separates s (pieces separates s) := by
  induction hlength : s.length using Nat.strong_induction_on generalizing s with
  | _ length ih =>
    cases s with
    | nil => exact .nil
    | cons c s =>
      cases hc : separates c with
      | true =>
        rw [pieces_cons_of_separates hc]
        refine .separator hc (ih s.length ?_ s rfl)
        rw [← hlength, List.length_cons]
        omega
      | false =>
        -- The first part goes up to the first separator.
        have hsplit := List.takeWhile_append_dropWhile (p := fun d => !separates d) (l := c :: s)
        have hfirst : (c :: s).takeWhile (fun d => !separates d) ≠ [] := by
          rw [List.takeWhile_cons, hc]
          exact List.cons_ne_nil _ _
        have hfree : ∀ d ∈ (c :: s).takeWhile (fun d => !separates d), separates d = false := by
          intro d hd
          simpa using List.mem_takeWhile_imp hd
        have hend : ∀ d ∈ ((c :: s).dropWhile fun d => !separates d).head?, separates d = true := by
          intro d hd
          have hhead := List.head?_dropWhile_not (fun d => !separates d) (c :: s)
          rw [Option.mem_def.mp hd] at hhead
          simpa using hhead
        have hshort : ((c :: s).dropWhile fun d => !separates d).length < length := by
          have hsum := congrArg List.length hsplit
          have hpos := List.length_pos_of_ne_nil hfirst
          rw [List.length_append, hlength] at hsum
          omega
        have hrest := ih _ hshort _ rfl
        rw [← hsplit, pieces_append hfirst hfree hend]
        exact .part hfirst hfree hend hrest

/-- **The pieces of a text are its parts,** and it has no others. -/
theorem pieces_eq_iff : pieces separates s = parts ↔ Parts separates s parts := by
  constructor
  · rintro rfl
    exact parts_pieces separates s
  · exact Parts.pieces_eq

/-- Every character separates or belongs to a part. -/
theorem Parts.separates_or_mem (h : Parts separates s parts) (hc : c ∈ s) :
    separates c = true ∨ ∃ part ∈ parts, c ∈ part := by
  induction h with
  | nil => exact nomatch hc
  | separator hd _ ih =>
    rcases List.mem_cons.mp hc with rfl | hc
    · exact Or.inl hd
    · exact ih hc
  | @part part s parts _ _ _ _ ih =>
    rcases List.mem_append.mp hc with hc | hc
    · exact Or.inr ⟨part, List.mem_cons_self, hc⟩
    · rcases ih hc with hseparates | ⟨other, hother, hmem⟩
      · exact Or.inl hseparates
      · exact Or.inr ⟨other, List.mem_cons_of_mem part hother, hmem⟩

/-- The first part of a text that does not begin with a separator begins with it. -/
theorem Parts.exists_cons (h : Parts separates (c :: s) parts) (hc : separates c = false) :
    ∃ part rest, parts = (c :: part) :: rest := by
  generalize htext : c :: s = text at h
  cases h with
  | nil => exact nomatch htext
  | separator hd =>
    obtain ⟨rfl, -⟩ := List.cons.inj htext
    exact nomatch hc.symm.trans hd
  | part hne =>
    obtain ⟨d, part, rfl⟩ := List.exists_cons_of_ne_nil hne
    obtain ⟨rfl, -⟩ := List.cons.inj htext
    exact ⟨part, _, rfl⟩

/-- Parts with one separator between neighbours. -/
theorem parts_intercalate (hc : separates c = true)
    (hparts : ∀ part ∈ parts, part ≠ [] ∧ ∀ d ∈ part, separates d = false) :
    Parts separates ([c].intercalate parts) parts := by
  induction parts with
  | nil => exact .nil
  | cons part parts ih =>
    obtain ⟨hne, hfree⟩ := hparts part List.mem_cons_self
    have hrest := ih fun other hother => hparts other (List.mem_cons_of_mem part hother)
    cases parts with
    | nil =>
      have hlast : Parts separates (part ++ []) [part] := .part hne hfree (fun _ hd => nomatch hd) .nil
      rw [List.append_nil] at hlast
      rwa [List.intercalate_singleton]
    | cons next parts =>
      rw [List.intercalate_cons_cons, List.append_assoc]
      refine .part hne hfree ?_ (.separator hc hrest)
      intro d hd
      obtain rfl := Option.some.inj hd
      exact hc

/-! ### Separators at the ends -/

theorem Parts.append_front (hfront : ∀ c ∈ front, separates c = true) (h : Parts separates s parts) :
    Parts separates (front ++ s) parts := by
  induction front with
  | nil => exact h
  | cons c front ih =>
    have hrest := ih fun d hd => hfront d (List.mem_cons_of_mem c hd)
    exact .separator (hfront c List.mem_cons_self) hrest

theorem Parts.append_behind (hbehind : ∀ c ∈ behind, separates c = true) (h : Parts separates s parts) :
    Parts separates (s ++ behind) parts := by
  induction h with
  | nil =>
    have hall := Parts.nil.append_front hbehind
    rwa [List.append_nil] at hall
  | separator hc _ ih => exact .separator hc ih
  | @part part s parts hne hfree hend _ ih =>
    rw [List.append_assoc]
    refine .part hne hfree ?_ ih
    intro c hc
    rw [List.head?_append] at hc
    cases s with
    | nil => exact hbehind c (List.mem_of_mem_head? hc)
    | cons d s => exact hend c hc

/-- Separators at either end make no difference. -/
theorem parts_ends_iff (hfront : ∀ c ∈ front, separates c = true)
    (hbehind : ∀ c ∈ behind, separates c = true) :
    Parts separates (front ++ s ++ behind) parts ↔ Parts separates s parts := by
  have hends : Parts separates (front ++ s ++ behind) (pieces separates s) :=
    ((parts_pieces separates s).append_front hfront).append_behind hbehind
  rw [← pieces_eq_iff, ← pieces_eq_iff, hends.pieces_eq]

/-! ### Trimming -/

theorem dropWhile_eq_self (h : ∀ c ∈ s, drop c = false) : s.dropWhile drop = s := by
  cases s with
  | nil => rfl
  | cons c s =>
    rw [List.dropWhile_cons, h c List.mem_cons_self]
    rfl

theorem dropEndWhile_eq_self (h : ∀ c ∈ s, drop c = false) : dropEndWhile drop s = s := by
  rw [dropEndWhile, dropWhile_eq_self, List.reverse_reverse]
  exact fun c hc => h c (List.mem_reverse.mp hc)

theorem exists_dropWhile (drop : Char → Bool) (s : List Char) :
    ∃ front, (∀ c ∈ front, drop c = true) ∧ s = front ++ s.dropWhile drop :=
  ⟨s.takeWhile drop, fun _ hc => List.mem_takeWhile_imp hc, List.takeWhile_append_dropWhile.symm⟩

theorem exists_dropEndWhile (drop : Char → Bool) (s : List Char) :
    ∃ behind, (∀ c ∈ behind, drop c = true) ∧ s = dropEndWhile drop s ++ behind := by
  obtain ⟨front, hfront, hsplit⟩ := exists_dropWhile drop s.reverse
  refine ⟨front.reverse, fun c hc => hfront c (List.mem_reverse.mp hc), ?_⟩
  rw [dropEndWhile, ← List.reverse_append, ← hsplit, List.reverse_reverse]

theorem exists_trim (s : List Char) : ∃ front behind, (∀ c ∈ front, isBlank c = true) ∧
    (∀ c ∈ behind, isBlank c = true) ∧ s = front ++ trim s ++ behind := by
  obtain ⟨front, hfront, hs⟩ := exists_dropWhile isBlank s
  obtain ⟨behind, hbehind, hrest⟩ := exists_dropEndWhile isBlank (s.dropWhile isBlank)
  refine ⟨front, behind, hfront, hbehind, ?_⟩
  rw [List.append_assoc, trim, ← hrest, ← hs]

theorem dropEndWhile_append (hbehind : ∀ c ∈ behind, drop c = true) (s : List Char) :
    dropEndWhile drop (s ++ behind) = dropEndWhile drop s := by
  rw [dropEndWhile, List.reverse_append, List.dropWhile_append_of_pos]
  · rfl
  · exact fun c hc => hbehind c (List.mem_reverse.mp hc)

/-- Blanks around a text are not seen once it is trimmed. -/
theorem trim_append (hfront : ∀ c ∈ front, isBlank c = true) (hbehind : ∀ c ∈ behind, isBlank c = true)
    (s : List Char) : trim (front ++ s ++ behind) = trim s := by
  rw [trim, trim, List.append_assoc, List.dropWhile_append_of_pos hfront, List.dropWhile_append]
  split
  · rename_i hblank
    rw [List.isEmpty_iff.mp hblank, List.dropWhile_eq_nil_iff.mpr hbehind]
  · exact dropEndWhile_append hbehind _

theorem trim_eq_self (h : ∀ c ∈ s, isBlank c = false) : trim s = s := by
  rw [trim, dropWhile_eq_self h, dropEndWhile_eq_self h]

variable {opening closing : List Char}

/-- Dropping characters in front goes no further than to the first bracket. -/
theorem exists_dropWhile_bracketed (hopening : ∀ c ∈ opening, drop c = false)
    (hclosing : ∀ c ∈ closing, drop c = false) (s : List Char) :
    ∃ front inner, (∀ c ∈ front, drop c = true) ∧ s = front ++ inner ∧
      (opening ++ s ++ closing).dropWhile drop = opening ++ inner ++ closing := by
  cases opening with
  | nil =>
    obtain ⟨front, hfront, hs⟩ := exists_dropWhile drop s
    refine ⟨front, s.dropWhile drop, hfront, hs, ?_⟩
    rw [List.nil_append, List.nil_append, List.dropWhile_append]
    split
    · rename_i hall
      rw [List.isEmpty_iff.mp hall, dropWhile_eq_self hclosing, List.nil_append]
    · rfl
  | cons c opening =>
    refine ⟨[], s, List.forall_mem_nil _, rfl, ?_⟩
    rw [List.cons_append, List.cons_append, List.dropWhile_cons, hopening c List.mem_cons_self]
    rfl

/-- Trimming leaves brackets that are not blank, and at most drops blanks inside that stand at an end
without a bracket. -/
theorem exists_trim_bracketed (hopening : ∀ c ∈ opening, isBlank c = false)
    (hclosing : ∀ c ∈ closing, isBlank c = false) (s : List Char) :
    ∃ front inner behind, (∀ c ∈ front, isBlank c = true) ∧ (∀ c ∈ behind, isBlank c = true) ∧
      s = front ++ inner ++ behind ∧ trim (opening ++ s ++ closing) = opening ++ inner ++ closing := by
  obtain ⟨front, rest, hfront, hs, hdrop⟩ := exists_dropWhile_bracketed hopening hclosing s
  -- From behind, the closing brackets are the ones in front.
  have hopening' : ∀ c ∈ opening.reverse, isBlank c = false :=
    fun c hc => hopening c (List.mem_reverse.mp hc)
  have hclosing' : ∀ c ∈ closing.reverse, isBlank c = false :=
    fun c hc => hclosing c (List.mem_reverse.mp hc)
  obtain ⟨behind, inner, hbehind, hrest, hdrop'⟩ :=
    exists_dropWhile_bracketed hclosing' hopening' rest.reverse
  refine ⟨front, inner.reverse, behind.reverse, hfront,
    fun c hc => hbehind c (List.mem_reverse.mp hc), ?_, ?_⟩
  · rw [List.append_assoc, ← List.reverse_append, ← hrest, List.reverse_reverse, hs]
  · have hreverse : (opening ++ rest ++ closing).reverse =
        closing.reverse ++ rest.reverse ++ opening.reverse := by simp
    rw [trim, hdrop, dropEndWhile, hreverse, hdrop']
    simp

/-! ### Words -/

/-- A text that is not empty and has no blanks. -/
def IsWord (word : List Char) : Prop := word ≠ [] ∧ ∀ c ∈ word, isBlank c = false

theorem isWord_iff {word : List Char} :
    IsWord word ↔ (!word.isEmpty && word.all fun c => !isBlank c) = true := by
  simp [IsWord]

instance (word : List Char) : Decidable (IsWord word) := decidable_of_iff' _ isWord_iff

theorem isBlank_eq_false_of_all (h : (s.all fun c => !isBlank c) = true) :
    ∀ c ∈ s, isBlank c = false := by
  simpa using h

theorem IsWord.append_front {word : List Char} (h : IsWord word)
    (hfront : ∀ c ∈ front, isBlank c = false) : IsWord (front ++ word) :=
  ⟨List.append_ne_nil_of_right_ne_nil front h.1,
    fun c hc => (List.mem_append.mp hc).elim (hfront c) (h.2 c)⟩

/-- Words in order, one blank or more between neighbours and perhaps some behind the last one. -/
inductive Laid : List (List Char) → List Char → Prop
  | last {word behind : List Char} (hbehind : ∀ c ∈ behind, isBlank c = true) :
      Laid [word] (word ++ behind)
  | cons {word gap rest : List Char} {words : List (List Char)} (hne : gap ≠ [])
      (hgap : ∀ c ∈ gap, isBlank c = true) (h : Laid words rest) :
      Laid (word :: words) (word ++ (gap ++ rest))

theorem Laid.toParts {words : List (List Char)} (h : Laid words s) (hwords : ∀ word ∈ words, IsWord word) :
    Parts isBlank s words := by
  induction h with
  | last hbehind =>
    obtain ⟨hne, hfree⟩ := hwords _ List.mem_cons_self
    refine .part hne hfree (fun c hc => hbehind c (List.mem_of_mem_head? hc)) ?_
    have hblank := Parts.nil.append_front hbehind
    rwa [List.append_nil] at hblank
  | cons hgapne hgap _ ih =>
    obtain ⟨hne, hfree⟩ := hwords _ List.mem_cons_self
    have hrest := ih fun word hword => hwords word (List.mem_cons_of_mem _ hword)
    refine .part hne hfree (fun c hc => ?_) (hrest.append_front hgap)
    rw [List.head?_append_of_ne_nil _ hgapne] at hc
    exact hgap c (List.mem_of_mem_head? hc)

/-- The words of a text that is laid out of words, behind blanks, are these. -/
theorem Laid.words_eq {words : List (List Char)} (h : Laid words s)
    (hwords : ∀ word ∈ words, IsWord word) (hfront : ∀ c ∈ front, isBlank c = true) :
    Text.words (front ++ s) = words :=
  ((h.toParts hwords).append_front hfront).pieces_eq

/-- Words can be laid out with one space between neighbours. -/
theorem exists_laid {words : List (List Char)} (hne : words ≠ []) : ∃ s, Laid words s := by
  induction words with
  | nil => exact absurd rfl hne
  | cons word words ih =>
    cases words with
    | nil => exact ⟨word ++ [], .last (List.forall_mem_nil _)⟩
    | cons next words =>
      obtain ⟨rest, hrest⟩ := ih (List.cons_ne_nil next words)
      exact ⟨word ++ ([' '] ++ rest), .cons (List.cons_ne_nil _ _) (List.forall_mem_singleton.mpr rfl) hrest⟩

end Membranes.Text
