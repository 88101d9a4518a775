import Membranes.Text.Numeral

/-!
# Strings, keys and the space between tokens

The lexical parts of a TOML document that hold text. A reader takes the rest of the document and gives
back what it read together with what follows, or nothing if the document is malformed there.
-/

namespace Membranes.Toml

/-- Reads something off the front of a document. -/
abbrev Reader (α : Type) := List Char → Option (α × List Char)

/-! ### Between tokens -/

/-- Whether a character is a space or a tab. -/
def isSpace (c : Char) : Bool := c = ' ' || c = '\t'

/-- A document without the spaces and tabs in front. -/
def skipSpaces (s : List Char) : List Char := s.dropWhile isSpace

/-- Whether a character may stand in a comment: no control character but the tab. -/
def isCommentChar (c : Char) : Bool := c = '\t' || (0x20 ≤ c.toNat && c.toNat ≠ 0x7F)

/-- What follows a line feed, with or without a carriage return. -/
def newline? : List Char → Option (List Char)
  | '\n' :: s => some s
  | '\r' :: '\n' :: s => some s
  | _ => none

/-- What follows the end of a line: spaces, perhaps a comment, then a line feed or nothing more. -/
def endOfLine? (s : List Char) : Option (List Char) :=
  let rest := match skipSpaces s with
    | '#' :: more => more.dropWhile isCommentChar
    | more => more
  if rest.isEmpty then some [] else newline? rest

/-- Skips spaces, line ends and whole comments, as they may stand inside an array. -/
def skipGap (inComment : Bool) : List Char → Option (List Char)
  | [] => some []
  | '\n' :: s => skipGap false s
  | '\r' :: '\n' :: s => skipGap false s
  | c :: s =>
    if inComment then if isCommentChar c then skipGap true s else none
    else if isSpace c then skipGap false s
    else if c = '#' then skipGap true s
    else some (c :: s)

/-! ### Strings on one line -/

/-- The double quote. -/
def quote : Char := '\x22'

/-- The single quote. -/
def apostrophe : Char := '\x27'

/-- The value of a hexadecimal digit. -/
def hexDigit? (c : Char) : Option Nat :=
  if '0' ≤ c ∧ c ≤ '9' then some (c.toNat - 48)
  else if 'a' ≤ c ∧ c ≤ 'f' then some (c.toNat - 87)
  else if 'A' ≤ c ∧ c ≤ 'F' then some (c.toNat - 55)
  else none

/-- The character that hexadecimal digits name. -/
def namedChar? (digits : List Char) : Option Char := do
  let value := (← digits.mapM hexDigit?).foldl (fun n d => n * 16 + d) 0
  if h : value.isValidChar then some (Char.ofNatAux value h) else none

/-- The character that a letter stands for behind a backslash. -/
def escaped? (c : Char) : Option Char :=
  if c = 'b' then some '\x08'
  else if c = 't' then some '\t'
  else if c = 'n' then some '\n'
  else if c = 'f' then some '\x0c'
  else if c = 'r' then some '\r'
  else if c = quote then some quote
  else if c = '\\' then some '\\'
  else none

/-- Reads what stands behind a backslash. -/
def readEscape : Reader Char
  | 'u' :: s =>
    if s.length < 4 then none else (namedChar? (s.take 4)).map fun c => (c, s.drop 4)
  | 'U' :: s =>
    if s.length < 8 then none else (namedChar? (s.take 8)).map fun c => (c, s.drop 8)
  | c :: s => (escaped? c).map fun e => (e, s)
  | [] => none

/-- Reads the rest of a string in double quotes, at most `fuel` characters of it. -/
def readBasic : Nat → List Char → Reader String
  | 0, _, _ => none
  | fuel + 1, done, s =>
    match s with
    | [] => none
    | c :: rest =>
      if c = quote then some (String.ofList done.reverse, rest)
      else if c = '\\' then do
        let (e, rest) ← readEscape rest
        readBasic fuel (e :: done) rest
      else if isCommentChar c then readBasic fuel (c :: done) rest
      else none

/-- Reads the rest of a string in single quotes. -/
def readLiteral (done : List Char) : Reader String
  | [] => none
  | c :: rest =>
    if c = apostrophe then some (String.ofList done.reverse, rest)
    else if isCommentChar c then readLiteral (c :: done) rest
    else none

/-! ### Strings over several lines -/

/-- The end of a string that closes with three quotes: up to two more quotes directly in front of the
closing ones belong to the string. Gives them and what follows. -/
def closing? (mark : Char) (s : List Char) : Option (List Char × List Char) :=
  let marks := (s.takeWhile (· = mark)).length
  if marks < 3 then none
  else
    let taken := min marks 5
    some (List.replicate (taken - 3) mark, s.drop taken)

/-- Skips spaces and line ends. A carriage return without its line feed is neither. -/
def skipBlankLines : List Char → List Char
  | [] => []
  | '\n' :: s => skipBlankLines s
  | '\r' :: '\n' :: s => skipBlankLines s
  | c :: s => if isSpace c then skipBlankLines s else c :: s

/-- Skips a folded line end behind a backslash: spaces, a line end, and all further space. -/
def skipFold? (s : List Char) : Option (List Char) :=
  (newline? (skipSpaces s)).map skipBlankLines

/-- Reads the rest of a string over several lines, at most `fuel` characters of it. Backslashes escape
in a string with double quotes only. -/
def readLong (mark : Char) : Nat → List Char → Reader String
  | 0, _, _ => none
  | fuel + 1, done, s =>
    match closing? mark s with
    | some (marks, rest) => some (String.ofList (done.reverse ++ marks), rest)
    | none =>
      match newline? s, s with
      | some rest, _ => readLong mark fuel ('\n' :: done) rest
      | none, [] => none
      | none, c :: rest =>
        if c = '\\' && mark = quote then
          match skipFold? rest with
          | some rest => readLong mark fuel done rest
          | none => do
            let (e, rest) ← readEscape rest
            readLong mark fuel (e :: done) rest
        else if isCommentChar c then readLong mark fuel (c :: done) rest
        else none

/-- Reads a string of any of the four kinds. A line feed directly behind three opening quotes is
dropped. -/
def readString : Reader String
  | [] => none
  | mark :: s =>
    if mark ≠ quote ∧ mark ≠ apostrophe then none
    else if [mark, mark].isPrefixOf s then
      let body := s.drop 2
      let body := (newline? body).getD body
      readLong mark (body.length + 1) [] body
    else if mark = quote then readBasic (s.length + 1) [] s
    else readLiteral [] s

/-! ### Keys -/

/-- Whether a character may stand in a key without quotes. -/
def isBareKeyChar (c : Char) : Bool :=
  ('A' ≤ c && c ≤ 'Z') || ('a' ≤ c && c ≤ 'z') || ('0' ≤ c && c ≤ '9') || c = '_' || c = '-'

/-- Reads one part of a key: bare, or a string on one line. -/
def readKeyPart : Reader String
  | [] => none
  | c :: s =>
    if c = quote then readBasic (s.length + 1) [] s
    else if c = apostrophe then readLiteral [] s
    else
      let bare := (c :: s).takeWhile isBareKeyChar
      if bare.isEmpty then none else some (String.ofList bare, (c :: s).dropWhile isBareKeyChar)

/-- Reads the parts of a key that are left, at most `fuel` of them, and the spaces behind. -/
def readKeyParts : Nat → Reader (List String)
  | 0, _ => none
  | fuel + 1, s => do
    let (part, rest) ← readKeyPart (skipSpaces s)
    match skipSpaces rest with
    | '.' :: rest =>
      let (parts, rest) ← readKeyParts fuel rest
      some (part :: parts, rest)
    | rest => some ([part], rest)

/-- The most parts of a key, and the most arrays and tables one inside the other. -/
def nestingLimit : Nat := 79

/-- Reads a key: parts with points between them. -/
def readKey : Reader (List String) := readKeyParts nestingLimit

end Membranes.Toml
