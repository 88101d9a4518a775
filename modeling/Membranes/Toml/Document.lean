import Membranes.Toml.Numbers

/-!
# Documents

`Document.read` reads a whole TOML 1.0 document into the fields of its root table. Values nest at most
`nestingLimit` deep, which is also what bounds the recursion; lists of elements and lines are bounded
by the number of characters left.
-/

namespace Membranes.Toml

/-! ### Values -/

/-- Reads the elements of an array up to the closing bracket; a comma may stand behind the last. -/
def readElements (readValue : Reader Value) : Nat → Reader (List Value)
  | 0, _ => none
  | fuel + 1, s => do
    match ← skipGap false s with
    | ']' :: rest => some ([], rest)
    | s =>
      let (value, rest) ← readValue s
      match ← skipGap false rest with
      | ']' :: rest => some ([value], rest)
      | ',' :: rest =>
        let (values, rest) ← readElements readValue fuel rest
        some (value :: values, rest)
      | _ => none

/-- Reads the fields of a table in braces, at least one of them, up to the closing brace. -/
def readFields (readValue : Reader Value) : Nat → Fields → Reader Fields
  | 0, _, _ => none
  | fuel + 1, fields, s => do
    let (key, rest) ← readKey s
    let rest ← after? '=' rest
    let (value, rest) ← readValue (skipSpaces rest)
    let fields ← fields.addDotted value key
    match skipSpaces rest with
    | '}' :: rest => some (fields, rest)
    | ',' :: rest => readFields readValue fuel fields rest
    | _ => none

/-- Reads a value with at most `depth` arrays and tables one inside the other. -/
def readValue : Nat → Reader Value
  | depth, s =>
    match s with
    | [] => none
    | c :: rest =>
      if c = quote ∨ c = apostrophe then (readString s).map fun (text, rest) => (.string text, rest)
      else if c = 't' then
        if "true".toList.isPrefixOf s then some (.boolean true, s.drop 4) else none
      else if c = 'f' then
        if "false".toList.isPrefixOf s then some (.boolean false, s.drop 5) else none
      else
        match depth with
        | 0 => readNumber s
        | depth + 1 =>
          if c = '[' then
            (readElements (readValue depth) s.length rest).map fun (elements, rest) =>
              (.array false elements, rest)
          else if c = '{' then
            match skipSpaces rest with
            | '}' :: rest => some (.table .braces [], rest)
            | rest =>
              (readFields (readValue depth) s.length [] rest).map fun (fields, rest) =>
                (.table .braces fields, rest)
          else readNumber s

/-! ### Lines -/

/-- A document as far as it is read: the fields of the root table, and the path of the last header. -/
structure Document where
  /-- The fields of the root table. -/
  root : Fields
  /-- The keys of the table that the next lines belong to. -/
  path : List String

namespace Document

/-- Opens a table at a path, with `openLast` for its last key. -/
def openAt (openLast : String → Fields → Option Fields) (path : List String)
    (document : Document) : Option Document := do
  let last ← path.getLast?
  some ⟨← document.root.withinHeader (openLast last) path.dropLast, path⟩

/-- Reads one line that is not blank: a comment, a header, or a key with its value. -/
def readLine (document : Document) (s : List Char) : Option (Document × List Char) :=
  match s with
  | '#' :: _ => (endOfLine? s).map fun rest => (document, rest)
  | '[' :: '[' :: rest => do
    let (path, rest) ← readKey rest
    let rest ← after? ']' (← after? ']' rest)
    some (← document.openAt Fields.openElement path, ← endOfLine? rest)
  | '[' :: rest => do
    let (path, rest) ← readKey rest
    let rest ← after? ']' rest
    some (← document.openAt Fields.openTable path, ← endOfLine? rest)
  | _ => do
    let (key, rest) ← readKey s
    let rest ← after? '=' rest
    let (value, rest) ← readValue nestingLimit (skipSpaces rest)
    let rest ← endOfLine? rest
    let root ← document.root.withinHeader (fun fields => fields.addDotted value key) document.path
    some ({ document with root }, rest)

/-- Reads the lines that are left, at most `fuel` of them. -/
def readLines : Nat → Document → List Char → Option Fields
  | 0, _, _ => none
  | fuel + 1, document, s =>
    match skipSpaces s with
    | [] => some document.root
    | rest =>
      match newline? rest with
      | some rest => readLines fuel document rest
      | none => do
        let (document, rest) ← document.readLine rest
        readLines fuel document rest

/-- Reads a document, perhaps behind a byte order mark. -/
def read (s : List Char) : Option Fields :=
  let body := match s with
    | '\ufeff' :: rest => rest
    | _ => s
  readLines (body.length + 1) ⟨[], []⟩ body

end Document

end Membranes.Toml
