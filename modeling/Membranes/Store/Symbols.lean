import Membranes.Store.Basic

/-!
# Symbols in membranes

A membrane holds each symbol at most once. Adding a symbol that is there already, and moving a symbol
from a membrane to itself, succeed and change nothing. A symbol needs a character that is not blank.
-/

namespace Membranes

/-- Whether a symbol is one that a membrane can hold. -/
def checkSymbol (symbol : String) : Except Refusal Unit :=
  require (Text.isBlankText symbol.toList = false) .blankSymbol

namespace Membrane

variable (membrane : Membrane)

/-- Whether there is room for one more symbol. -/
def checkSymbolRoom (limit : UInt32) : Except Refusal Unit :=
  require (membrane.symbols.length < limit.toNat) (.capacity .objects limit.toUInt64)

/-- The membrane after it was given a symbol. -/
def adding (limit : UInt32) (symbol : String) : Except Refusal Membrane :=
  if membrane.holds symbol then .ok membrane
  else (membrane.checkSymbolRoom limit).map fun _ => membrane.withSymbol symbol

/-- Whether the membrane holds a symbol, as a check. -/
def checkHolds (symbol : String) : Except Refusal Unit :=
  require (membrane.holds symbol) (.symbolNotFound membrane.id symbol)

end Membrane

namespace Store

variable (store : Store)

/-- Adds a symbol to a membrane, unless it is there. -/
def addSymbol (id : MembraneId) (symbol : String) : Outcome Unit :=
  store.checking (checkSymbol symbol) fun _ =>
    store.update id fun membrane =>
      return ((), ← membrane.adding store.config.limits.maxObjects symbol)

/-- Removes a symbol from a membrane; the others keep their order. -/
def removeSymbol (id : MembraneId) (symbol : String) : Outcome Unit :=
  store.update id fun membrane => do
    membrane.checkHolds symbol
    return ((), membrane.withoutSymbol symbol)

/-- Whether a membrane holds a symbol. -/
def holdsSymbol (id : MembraneId) (symbol : String) : Except Refusal Bool :=
  (store.membrane id).map (·.holds symbol)

/-- The symbols of a membrane in the order in which they came. -/
def symbols (id : MembraneId) : Except Refusal (List String) :=
  (store.membrane id).map (·.symbols)

/-- Whether a symbol can go from one membrane to another. -/
def checkMove (source target : MembraneId) (symbol : String) : Except Refusal Unit := do
  checkSymbol symbol
  let giver ← store.membrane source
  let taker ← store.membrane target
  giver.checkHolds symbol
  if source = target ∨ taker.holds symbol then return ()
  else taker.checkSymbolRoom store.config.limits.maxObjects

/-- Moves a symbol from one membrane to another: the second gets it if it lacks it, then the first
loses it. -/
def moveSymbol (source target : MembraneId) (symbol : String) : Outcome Unit :=
  store.checking (store.checkMove source target symbol) fun _ =>
    if source = target then ⟨.ok (), store⟩
    else
      (store.update target fun taker =>
        .ok ((), if taker.holds symbol then taker else taker.withSymbol symbol)).andThen
        fun _ store => store.update source fun giver => .ok ((), giver.withoutSymbol symbol)

end Store

end Membranes
