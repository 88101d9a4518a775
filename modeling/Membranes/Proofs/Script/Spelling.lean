import Membranes.Proofs.Binary.Literal
import Membranes.Proofs.Script.Lines
import Membranes.Proofs.Shape.Text

/-!
# The spelling of script commands

* A command has keywords and arguments. `Argument.Spells` says which words an argument is documented to be
  written as, `Argument.IsRead` which words are read as it; the first of these are among the second
  (`Argument.Spells.isRead`).
* `Command.ofWords?_of_isRead` and `Command.isRead_of_ofWords?` say once for all commands that they are read
  from a keyword and the words of the arguments, each as it is read alone.
* `Command.ofText_eq` shows that of a line only the words matter, but for what a fault quotes.
  `Command.written_and_read` puts this together.
-/

namespace Membranes

open Text Script

/-! ### Numbers -/

theorem isWord_toString (n : UInt32) : IsWord (toString n).toList := by
  rw [toList_toString]
  exact ⟨Nat.toDigits_ne_nil, fun c hc => isBlank_of_isDigit (isDigit_of_mem_toDigits _ c hc)⟩

theorem readUInt32_toString (n : UInt32) : readUInt32 (toString n).toList = .ok n := by
  rw [toList_toString, readUInt32_eq_ok_iff]
  exact numeral_toDigits _

theorem parts_indices (indices : List UInt32) :
    Parts (fun c => decide (c = ',')) (joined "," (indices.map toString)).toList
      (indices.map fun n => Nat.toDigits 10 n.toNat) := by
  refine parts_joined rfl (fun c hc => decide_eq_false ?_) indices
  rintro rfl
  exact nomatch hc

theorem isBlank_of_mem_joined {indices : List UInt32} {c : Char}
    (hc : c ∈ (joined "," (indices.map toString)).toList) : isBlank c = false := by
  rcases (parts_indices indices).separates_or_mem hc with hcomma | ⟨part, hpart, hmem⟩
  · rw [of_decide_eq_true hcomma]
    rfl
  · obtain ⟨n, -, rfl⟩ := List.mem_map.mp hpart
    exact isBlank_of_isDigit (isDigit_of_mem_toDigits _ c hmem)

theorem isWord_joined {indices : List UInt32} (hne : indices ≠ []) :
    IsWord (joined "," (indices.map toString)).toList := by
  refine ⟨fun hnil => ?_, fun c hc => isBlank_of_mem_joined hc⟩
  have hpieces := (parts_indices indices).pieces_eq
  rw [hnil] at hpieces
  exact hne (List.map_eq_nil_iff.mp hpieces.symm)

theorem readIndices_joined (indices : List UInt32) :
    readIndices (joined "," (indices.map toString)).toList = .ok indices := by
  unfold readIndices
  rw [(parts_indices indices).pieces_eq, mapM_eq_ok_iff, List.forall₂_map_left_iff, List.forall₂_same]
  intro n _
  exact mapError_eq_ok_iff.mpr (readUInt32_eq_ok_iff.mpr (numeral_toDigits n.toNat))

/-! ### Identifiers -/

namespace MembraneId

theorem toList_toText (id : MembraneId) :
    id.toText.toList = label ++ (toString id.value).toList := by
  show (toString "membrane-" ++ toString id.value).toList = _
  rw [String.toList_append]
  rfl

theorem isBlank_of_mem_label : ∀ c ∈ label, isBlank c = false :=
  isBlank_eq_false_of_all (by decide)

theorem isWord_toText (id : MembraneId) : IsWord id.toText.toList := by
  rw [toList_toText]
  exact (isWord_toString id.value).append_front isBlank_of_mem_label

theorem dropLabel_toString (n : UInt32) :
    dropLabel (toString n).toList = (toString n).toList := by
  refine if_neg fun hprefix => ?_
  have hmem : 'm' ∈ (toString n).toList :=
    (List.isPrefixOf_iff_prefix.mp hprefix).subset (by decide)
  rw [toList_toString] at hmem
  exact nomatch isDigit_of_mem_toDigits _ _ hmem

theorem dropLabel_append (s : List Char) : dropLabel (label ++ s) = s := by
  unfold dropLabel
  rw [if_pos (List.isPrefixOf_iff_prefix.mpr (List.prefix_append _ _)), List.drop_left]

theorem readId_of_dropLabel {id : MembraneId} {word : List Char} (hword : IsWord word)
    (hdrop : dropLabel word = (toString id.value).toList) : readId word = .ok id := by
  refine mapError_eq_ok_iff.mpr ?_
  rw [ofText, trim_eq_self hword.2, hdrop, readUInt32_toString]
  rfl

theorem readId_toString (id : MembraneId) : readId (toString id.value).toList = .ok id :=
  readId_of_dropLabel (isWord_toString id.value) (dropLabel_toString id.value)

theorem readId_toText (id : MembraneId) : readId id.toText.toList = .ok id := by
  refine readId_of_dropLabel id.isWord_toText ?_
  rw [toList_toText, dropLabel_append]

end MembraneId

/-! ### Arguments -/

/-- An argument of a command. -/
inductive Argument where
  | id (id : MembraneId)
  | shape (shape : Shape)
  | indices (indices : List UInt32)
  | value (value : Binary32)
  | amount (amount : UInt32)
  | symbol (symbol : String)

namespace Argument

/-- The words that an argument is documented to be written as. -/
inductive Spells : Argument → List Char → Prop
  | number (id : MembraneId) : Spells (.id id) (toString id.value).toList
  | label (id : MembraneId) : Spells (.id id) id.toText.toList
  | shape (shape : Shape) : Spells (.shape shape) shape.toText.toList
  | indices {indices : List UInt32} (hne : indices ≠ []) :
      Spells (.indices indices) (joined "," (indices.map toString)).toList
  /-- Any text without blanks that is read as the value. -/
  | value {value : Binary32} {word : List Char} (hfree : ∀ c ∈ word, isBlank c = false)
      (hread : Binary32.ofText? word = some value) : Spells (.value value) word
  | amount (amount : UInt32) : Spells (.amount amount) (toString amount).toList
  | symbol {symbol : String} (hword : IsWord symbol.toList) : Spells (.symbol symbol) symbol.toList

/-- The word is read as the argument. -/
def IsRead (word : List Char) : Argument → Prop
  | .id number => readId word = .ok number
  | .shape axes => readShape word = .ok axes
  | .indices place => readIndices word = .ok place
  | .value x => readNumber word = .ok x
  | .amount energy => readAmount word = .ok energy
  | .symbol text => String.ofList word = text

/-- The argument can be written: the indices are not empty, the symbol is a word, and the value is a number or
one of the two usual patterns that are none. -/
def IsWritable : Argument → Prop
  | .indices place => place ≠ []
  | .value x => x.isNaN = false ∨ x.magnitude = Binary32.nan.magnitude
  | .symbol text => IsWord text.toList
  | .id _ | .shape _ | .amount _ => True

variable {argument : Argument} {word : List Char}

theorem Spells.isWord (h : argument.Spells word) : IsWord word := by
  cases h with
  | number id => exact isWord_toString id.value
  | label id => exact id.isWord_toText
  | shape shape =>
    rw [Shape.toList_toText]
    refine ⟨List.cons_ne_nil _ _, fun c hc => ?_⟩
    simp only [List.mem_append, List.mem_singleton] at hc
    obtain (rfl | hc) | rfl := hc
    · rfl
    · exact isBlank_of_mem_joined hc
    · rfl
  | indices hne => exact isWord_joined hne
  | value hfree hread =>
    refine ⟨?_, hfree⟩
    rintro rfl
    exact nomatch hread
  | amount amount => exact isWord_toString amount
  | symbol hword => exact hword

theorem Spells.isRead (h : argument.Spells word) : argument.IsRead word := by
  cases h with
  | number id => exact id.readId_toString
  | label id => exact id.readId_toText
  | shape shape => exact mapError_eq_ok_iff.mpr (Shape.ofText_eq_ok_iff.mpr shape.spells_toText)
  | indices hne => exact readIndices_joined _
  | value _ hread =>
    show readNumber word = _
    rw [readNumber, hread]
  | amount amount => exact mapError_eq_ok_iff.mpr (readUInt32_toString amount)
  | symbol hword =>
    show String.ofList _ = _
    exact String.ofList_toList

theorem IsWritable.exists_spells (h : argument.IsWritable) : ∃ word, argument.Spells word := by
  cases argument with
  | id id => exact ⟨_, .number id⟩
  | shape shape => exact ⟨_, .shape shape⟩
  | indices indices => exact ⟨_, .indices h⟩
  | value value =>
    obtain ⟨word, hword, hread⟩ := Binary32.exists_literal h
    exact ⟨word, .value hword.2 hread⟩
  | amount amount => exact ⟨_, .amount amount⟩
  | symbol symbol => exact ⟨_, .symbol h⟩

theorem forall_isWord {arguments : List Argument} {words : List (List Char)}
    (h : List.Forall₂ Spells arguments words) : ∀ word ∈ words, IsWord word := by
  induction h with
  | nil => exact List.forall_mem_nil _
  | cons hspells _ ih => exact List.forall_mem_cons.mpr ⟨hspells.isWord, ih⟩

theorem exists_forall₂_spells {arguments : List Argument}
    (h : ∀ argument ∈ arguments, argument.IsWritable) :
    ∃ words, List.Forall₂ Spells arguments words := by
  induction arguments with
  | nil => exact ⟨[], .nil⟩
  | cons argument arguments ih =>
    obtain ⟨hfirst, hrest⟩ := List.forall_mem_cons.mp h
    obtain ⟨word, hword⟩ := hfirst.exists_spells
    obtain ⟨words, hwords⟩ := ih hrest
    exact ⟨word :: words, .cons hword hwords⟩

end Argument

/-! ### Commands -/

namespace Command

/-- The words that a command can begin with. -/
def keywords : Command → List String
  | create _ => ["create"]
  | child _ _ => ["child"]
  | destroy _ => ["destroy"]
  | reshape _ _ => ["reshape", "resize"]
  | add _ _ => ["add"]
  | remove _ _ => ["remove"]
  | transfer _ _ _ => ["transfer"]
  | get _ _ => ["get"]
  | set _ _ _ => ["set"]
  | fill _ _ => ["fill"]
  | energy _ _ => ["energy"]
  | print _ => ["print"]
  | snapshot _ => ["snapshot"]
  | sync _ _ => ["sync"]
  | count => ["count"]

/-- What stands behind the keyword of a command. -/
def arguments : Command → List Argument
  | create shape => [.shape shape]
  | child owner shape => [.id owner, .shape shape]
  | destroy id | snapshot id => [.id id]
  | reshape id shape => [.id id, .shape shape]
  | add id symbol | remove id symbol => [.id id, .symbol symbol]
  | transfer source target symbol => [.id source, .id target, .symbol symbol]
  | get id indices => [.id id, .indices indices]
  | set id indices value => [.id id, .indices indices, .value value]
  | fill id value => [.id id, .value value]
  | energy id amount => [.id id, .amount amount]
  | print id => id.toList.map .id
  | sync target source => [.id target, .id source]
  | count => []

variable {command : Command} {keyword : String} {words : List (List Char)}

section Reading

variable {ε α β γ δ : Type} {first : Except ε α} {second : Except ε β} {third : Except ε γ} {a : α}
  {b : β} {c : γ}

theorem read_one (ha : first = .ok a) (make : α → δ) : (do return make (← first)) = .ok (make a) := by
  rw [ha]
  rfl

theorem read_two (ha : first = .ok a) (hb : second = .ok b) (make : α → β → δ) :
    (do return make (← first) (← second)) = .ok (make a b) := by
  rw [ha, hb]
  rfl

theorem read_three (ha : first = .ok a) (hb : second = .ok b) (hc : third = .ok c)
    (make : α → β → γ → δ) :
    (do return make (← first) (← second) (← third)) = .ok (make a b c) := by
  rw [ha, hb, hc]
  rfl

end Reading

/-- Words that are read as the arguments of a command are read as the command behind a keyword of it. -/
theorem ofWords?_of_isRead (hkeyword : keyword ∈ command.keywords)
    (harguments : List.Forall₂ (fun argument word => argument.IsRead word) command.arguments words) :
    Command.ofWords? keyword words = some (.ok command) := by
  cases command
  case create | destroy | snapshot =>
    obtain rfl := List.mem_singleton.mp hkeyword
    rcases harguments with _ | ⟨hread, _ | _⟩
    exact congrArg some (read_one hread _)
  case child | get | fill | energy | sync =>
    obtain rfl := List.mem_singleton.mp hkeyword
    rcases harguments with _ | ⟨hread, _ | ⟨hread', _ | _⟩⟩
    exact congrArg some (read_two hread hread' _)
  case reshape =>
    rcases harguments with _ | ⟨hread, _ | ⟨hread', _ | _⟩⟩
    obtain rfl | hkeyword := List.mem_cons.mp hkeyword
    · exact congrArg some (read_two hread hread' _)
    · obtain rfl := List.mem_singleton.mp hkeyword
      exact congrArg some (read_two hread hread' _)
  case add | remove =>
    obtain rfl := List.mem_singleton.mp hkeyword
    rcases harguments with _ | ⟨hread, _ | ⟨hsymbol, _ | _⟩⟩
    obtain rfl := hsymbol
    exact congrArg some (read_one hread _)
  case transfer =>
    obtain rfl := List.mem_singleton.mp hkeyword
    rcases harguments with _ | ⟨hread, _ | ⟨hread', _ | ⟨hsymbol, _ | _⟩⟩⟩
    obtain rfl := hsymbol
    exact congrArg some (read_two hread hread' _)
  case set =>
    obtain rfl := List.mem_singleton.mp hkeyword
    rcases harguments with _ | ⟨hread, _ | ⟨hread', _ | ⟨hread'', _ | _⟩⟩⟩
    exact congrArg some (read_three hread hread' hread'' _)
  case print id =>
    obtain rfl := List.mem_singleton.mp hkeyword
    cases id with
    | none =>
      rcases harguments with _ | _
      rfl
    | some id =>
      rcases harguments with _ | ⟨hread, _ | _⟩
      exact congrArg some (read_one hread _)
  case count =>
    obtain rfl := List.mem_singleton.mp hkeyword
    rcases harguments with _ | _
    rfl

/-- Nothing else is read as the command. -/
theorem isRead_of_ofWords? (h : Command.ofWords? keyword words = some (.ok command)) :
    keyword ∈ command.keywords ∧
      List.Forall₂ (fun argument word => argument.IsRead word) command.arguments words := by
  unfold Command.ofWords? at h
  split at h
  all_goals simp only [Option.some.injEq, reduceCtorEq, bind_eq_ok_iff, pure_eq_ok_iff] at h
  case h_1 | h_3 | h_14 | h_15 =>
    obtain ⟨_, hread, rfl⟩ := h
    exact ⟨List.mem_singleton_self _, .cons hread .nil⟩
  case h_2 | h_9 | h_11 | h_12 | h_16 =>
    obtain ⟨_, hread, _, hread', rfl⟩ := h
    exact ⟨List.mem_singleton_self _, .cons hread (.cons hread' .nil)⟩
  case h_4 | h_5 =>
    obtain ⟨_, hread, _, hread', rfl⟩ := h
    exact ⟨by simp [keywords], .cons hread (.cons hread' .nil)⟩
  case h_6 | h_7 =>
    obtain ⟨_, hread, rfl⟩ := h
    exact ⟨List.mem_singleton_self _, .cons hread (.cons rfl .nil)⟩
  case h_8 =>
    obtain ⟨_, hread, _, hread', rfl⟩ := h
    exact ⟨List.mem_singleton_self _, .cons hread (.cons hread' (.cons rfl .nil))⟩
  case h_10 =>
    obtain ⟨_, hread, _, hread', _, hread'', rfl⟩ := h
    exact ⟨List.mem_singleton_self _, .cons hread (.cons hread' (.cons hread'' .nil))⟩
  case h_13 | h_17 =>
    obtain rfl := h
    exact ⟨List.mem_singleton_self _, .nil⟩

/-! ### Lines -/

theorem isWord_of_mem_keywords (command : Command) :
    ∀ keyword ∈ command.keywords, IsWord keyword.toList ∧ keyword.toList.head? ≠ some '#' := by
  cases command <;> simp only [keywords] <;> decide

/-- The command that words make up, with the line that a fault quotes. -/
def ofWords (line : List Char) (words : List (List Char)) : Except ScriptFault (Option Command) :=
  if words.head?.bind List.head? = some '#' then .ok none
  else
    match words with
    | [] => .ok none
    | keyword :: arguments =>
      match Command.ofWords? (String.ofList keyword) arguments with
      | some command => command.map some
      | none => .error (.unrecognized (String.ofList line))

/-- **Of a line only the words matter,** but for what a fault quotes. -/
theorem ofText_eq (s : List Char) : Command.ofText s = ofWords (trim s) (Text.words s) := by
  unfold Command.ofText ofWords
  dsimp only
  rewrite [head?_trim, words_trim]
  rfl

theorem ofWords_cases (line line' : List Char) (words : List (List Char)) :
    ofWords line words = ofWords line' words ∨
      ofWords line words = .error (.unrecognized (String.ofList line)) ∧
        ofWords line' words = .error (.unrecognized (String.ofList line')) := by
  unfold ofWords
  split
  · exact Or.inl rfl
  · split
    · exact Or.inl rfl
    · split
      · exact Or.inl rfl
      · exact Or.inr ⟨rfl, rfl⟩

/-- **The lines of a command** are those whose words are a keyword of it and words that are read as its
arguments. -/
theorem ofText_eq_some_iff {s : List Char} : Command.ofText s = .ok (some command) ↔
    ∃ keyword ∈ command.keywords, ∃ arguments, Text.words s = keyword.toList :: arguments ∧
      List.Forall₂ (fun argument word => argument.IsRead word) command.arguments arguments := by
  rw [ofText_eq]
  constructor
  · intro h
    unfold ofWords at h
    split at h
    · exact nomatch h
    · split at h
      · exact nomatch h
      · rename_i keyword arguments hwords
        split at h
        · rename_i read hread
          obtain ⟨_, hok, hcommand⟩ := map_eq_ok_iff.mp h
          obtain rfl := Option.some.inj hcommand
          rw [hok] at hread
          obtain ⟨hkeyword, harguments⟩ := isRead_of_ofWords? hread
          exact ⟨_, hkeyword, arguments, by rw [hwords, String.toList_ofList], harguments⟩
        · exact nomatch h
  · rintro ⟨keyword, hkeyword, arguments, hwords, harguments⟩
    have hcomment : ¬ (keyword.toList :: arguments).head?.bind List.head? = some '#' :=
      (isWord_of_mem_keywords command keyword hkeyword).2
    unfold ofWords
    rw [hwords, if_neg hcomment]
    dsimp only
    rw [String.ofList_toList, ofWords?_of_isRead hkeyword harguments]
    rfl

/-- **Every command can be written, and is read back however it is laid out.** A keyword and the arguments as
they are documented, behind, between and in front of any blanks, are read as the command. There are such
words for each command whose arguments can be written. Lines with the same words are read as the same
command, or else both as the same fault, which may quote the line. -/
theorem written_and_read :
    (∀ (command : Command) (keyword : String) (arguments : List (List Char)) (front text : List Char),
      keyword ∈ command.keywords → List.Forall₂ Argument.Spells command.arguments arguments →
      (∀ c ∈ front, isBlank c = true) → Laid (keyword.toList :: arguments) text →
        Command.ofText (front ++ text) = .ok (some command)) ∧
    (∀ (command : Command) (keyword : String), keyword ∈ command.keywords →
      (∀ argument ∈ command.arguments, argument.IsWritable) →
        ∃ arguments text, List.Forall₂ Argument.Spells command.arguments arguments ∧
          Laid (keyword.toList :: arguments) text) ∧
    ∀ line line' : List Char, Text.words line = Text.words line' →
      Command.ofText line = Command.ofText line' ∨
        Command.ofText line = .error (.unrecognized (String.ofList (trim line))) ∧
          Command.ofText line' = .error (.unrecognized (String.ofList (trim line'))) := by
  refine ⟨fun command keyword arguments front text hkeyword hspells hfront hlaid => ?_,
    fun command keyword _ hwritable => ?_, fun line line' hwords => ?_⟩
  · have hkeywordWord := (isWord_of_mem_keywords command keyword hkeyword).1
    have hwords := hlaid.words_eq
      (List.forall_mem_cons.mpr ⟨hkeywordWord, Argument.forall_isWord hspells⟩) hfront
    exact ofText_eq_some_iff.mpr
      ⟨keyword, hkeyword, arguments, hwords, hspells.imp fun _ _ => Argument.Spells.isRead⟩
  · obtain ⟨arguments, hspells⟩ := Argument.exists_forall₂_spells hwritable
    obtain ⟨text, hlaid⟩ := exists_laid (List.cons_ne_nil keyword.toList arguments)
    exact ⟨arguments, text, hspells, hlaid⟩
  · rw [ofText_eq, ofText_eq, hwords]
    exact ofWords_cases _ _ _

/-- Blanks of several kinds, an identifier with its label and a value with an exponent. -/
theorem written_and_read_set :
    Command.ofText "\t set  membrane-7\u00A01,2\u30001.5e0 ".toList =
      .ok (some (.set ⟨7⟩ [1, 2] ⟨0x3FC00000⟩)) := by
  have hline : "\t set  membrane-7\u00A01,2\u30001.5e0 ".toList = ['\t', ' '] ++ ("set".toList ++
      ([' ', ' '] ++ ("membrane-7".toList ++ (['\u00A0'] ++ ("1,2".toList ++ (['\u3000'] ++
        ("1.5e0".toList ++ [' ']))))))) := by decide
  have hvalue : Argument.Spells (.value ⟨0x3FC00000⟩) "1.5e0".toList :=
    .value (isBlank_eq_false_of_all (by decide)) (by decide +kernel)
  have hblanks {blanks : List Char} (h : blanks.all isBlank = true) : ∀ c ∈ blanks, isBlank c = true :=
    List.all_eq_true.mp h
  rw [hline]
  refine written_and_read.1 (.set ⟨7⟩ [1, 2] ⟨0x3FC00000⟩) "set" _ _ _ (List.mem_singleton_self _)
    (.cons (.label ⟨7⟩) (.cons (.indices (List.cons_ne_nil _ _)) (.cons hvalue .nil)))
    (hblanks (by decide)) ?_
  exact .cons (List.cons_ne_nil _ _) (hblanks (by decide)) (.cons (List.cons_ne_nil _ _)
    (hblanks (by decide)) (.cons (List.cons_ne_nil _ _) (hblanks (by decide)) (.last (hblanks (by decide)))))

end Command

end Membranes
