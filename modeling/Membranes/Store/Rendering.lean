import Membranes.Store.Basic

/-!
# The forest as text

One line for each membrane, one for each of its symbols, and then its children two blanks further in.
As in destruction the subtree is walked with an explicit stack, here of membranes and their depths.
-/

namespace Membranes

/-- The line of a membrane and the lines of its symbols. -/
def Membrane.toText (membrane : Membrane) (depth : Nat) : String :=
  let indent := String.ofList (List.replicate (2 * depth) ' ')
  let symbols := membrane.symbols.map fun symbol => s!"{indent}  obj: {symbol}\n"
  s!"{indent}Membrane {membrane.id.value}: {membrane.shape.toText} energy={membrane.energy} " ++
    s!"objects={membrane.symbols.length} children={membrane.children.length}\n" ++
    Text.joined "" symbols

namespace Store

variable (store : Store)

/-- Renders the membranes on a stack, each with the depth at which it stands. -/
def renderStack : Nat → List (MembraneId × Nat) → Except Refusal String
  | _, [] => .ok ""
  | 0, _ => .ok ""
  | fuel + 1, (id, depth) :: stack => do
    let membrane ← store.membrane id
    let rest ← renderStack fuel (membrane.children.map (·, depth + 1) ++ stack)
    return membrane.toText depth ++ rest

/-- A membrane and everything below it as text. Each membrane stands on the stack once. -/
def subtreeText (id : MembraneId) : Except Refusal String :=
  store.renderStack (store.size + 1) [(id, 0)]

/-- All roots as text in the order of their creation, without those that fail. -/
def toText : String :=
  Text.joined "" (store.roots.filterMap fun root => (store.subtreeText root).toOption)

end Store

end Membranes
