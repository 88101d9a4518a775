import Membranes.Text.Blank
import Membranes.Text.Numeral

/-!
# Membrane identifiers

A store numbers its membranes by a counter and never reuses a number, so an identifier that has been
released can only be found missing.
-/

namespace Membranes

/-- The number of a membrane within one store. -/
structure MembraneId where
  /-- The number itself. -/
  value : UInt32
deriving DecidableEq, Repr, Inhabited

namespace MembraneId

/-- Identifiers are ordered by their numbers, which is the order of creation. -/
instance : LT MembraneId := ⟨fun a b => a.value < b.value⟩

instance (a b : MembraneId) : Decidable (a < b) :=
  inferInstanceAs (Decidable (a.value < b.value))

/-- An identifier as text. -/
def toText (id : MembraneId) : String := s!"membrane-{id.value}"

/-- The text in front of the number. -/
def label : List Char := "membrane-".toList

/-- A text without the label, if it starts with it. -/
def dropLabel (s : List Char) : List Char :=
  if label.isPrefixOf s then s.drop label.length else s

/-- Reads an identifier: the number alone or behind the label, with blanks at either end. -/
def ofText (s : List Char) : Except Text.NumeralFault MembraneId :=
  (Text.readUInt32 (dropLabel (Text.trim s))).map MembraneId.mk

end MembraneId

end Membranes
