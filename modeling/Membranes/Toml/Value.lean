import Membranes.Binary.Basic

/-!
# TOML values

A value of a TOML document. Tables remember how they came to be, since that decides which later lines
may still add to them, and arrays remember whether they were opened by headers.
-/

namespace Membranes.Toml

/-- How a table came to be. -/
inductive Origin where
  /-- Written between braces, and closed. -/
  | braces
  /-- Named by a header of its own. -/
  | header
  /-- Passed through by the header of a table inside it. -/
  | implied
  /-- Passed through by a dotted key. -/
  | dotted
deriving DecidableEq, Repr

/-- A value of a document. -/
inductive Value where
  /-- A text. -/
  | string (text : String)
  /-- A whole number of 64 bits with sign. -/
  | integer (i : Int)
  /-- A number with 64 bits. -/
  | number (x : Binary64)
  /-- A truth value. -/
  | boolean (b : Bool)
  /-- A date, a time, or both. Only its form is checked. -/
  | moment
  /-- A list of values; `opened` if its tables come from headers in double brackets. -/
  | array (opened : Bool) (elements : List Value)
  /-- A table from keys to values, in the order of their definition. -/
  | table (origin : Origin) (fields : List (String × Value))

/-- The fields of a table. -/
abbrev Fields := List (String × Value)

/-- The value under a key. -/
def Fields.get? (fields : Fields) (key : String) : Option Value :=
  (fields.find? fun field => field.1 == key).map (·.2)

/-- The fields with the value under a key replaced, or added at the end. -/
def Fields.set (fields : Fields) (key : String) (value : Value) : Fields :=
  if fields.any fun field => field.1 == key then
    fields.map fun field => if field.1 == key then (key, value) else field
  else fields ++ [(key, value)]

/-! ### Key paths -/

/-- Applies `edit` to the table that a path of header keys leads to. Missing tables on the way are
implied; an array opened by headers stands for its last table. -/
def Fields.withinHeader (edit : Fields → Option Fields) : List String → Fields → Option Fields
  | [], fields => edit fields
  | key :: path, fields =>
    match fields.get? key with
    | none => do fields.set key (.table .implied (← withinHeader edit path []))
    | some (.table .braces _) => none
    | some (.table origin inner) => do
      fields.set key (.table origin (← withinHeader edit path inner))
    | some (.array true elements) =>
      match elements.getLast? with
      | some (.table origin inner) => do
        let inner ← withinHeader edit path inner
        fields.set key (.array true (elements.dropLast ++ [.table origin inner]))
      | _ => none
    | some _ => none

/-- Adds a value under a dotted key. Tables on the way may be missing, and are then dotted, or must
have been passed through without a header of their own; the table that receives the value must be
dotted itself, so that dotted keys never extend what headers define. -/
def Fields.addDotted (value : Value) : List String → Fields → Option Fields
  | [], _ => none
  | [key], fields => if (fields.get? key).isSome then none else some (fields ++ [(key, value)])
  | key :: next :: path, fields =>
    let add (isDotted : Bool) (inner : Fields) : Option Fields :=
      if path.isEmpty && !isDotted then none else addDotted value (next :: path) inner
    match fields.get? key with
    | none => do fields.set key (.table .dotted (← add true []))
    | some (.table .dotted inner) => do fields.set key (.table .dotted (← add true inner))
    | some (.table .implied inner) => do fields.set key (.table .implied (← add false inner))
    | some (.array true elements) =>
      match elements.getLast? with
      | some (.table origin inner) => do
        let inner ← add false inner
        fields.set key (.array true (elements.dropLast ++ [.table origin inner]))
      | _ => none
    | some _ => none

/-- Opens the table of a header, which must be new or implied. -/
def Fields.openTable (key : String) (fields : Fields) : Option Fields :=
  match fields.get? key with
  | none => some (fields ++ [(key, .table .header [])])
  | some (.table .implied inner) => some (fields.set key (.table .header inner))
  | some _ => none

/-- Opens one more table of an array of tables. -/
def Fields.openElement (key : String) (fields : Fields) : Option Fields :=
  match fields.get? key with
  | none => some (fields ++ [(key, .array true [.table .header []])])
  | some (.array true elements) =>
    some (fields.set key (.array true (elements ++ [.table .header []])))
  | some _ => none

end Membranes.Toml
