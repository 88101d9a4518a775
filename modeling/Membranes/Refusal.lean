import Membranes.MembraneId
import Membranes.Shape.Offset
import Membranes.Shape.Text

/-!
# Refusals

Everything a store can answer instead of carrying out an operation. A refusal is a cause with its data;
its broad kind, its stable number and its wording are functions of the cause.
-/

namespace Membranes

/-- A resource with a configured limit. -/
inductive Resource where
  /-- Membranes alive in one store. -/
  | membranes
  /-- Children of one membrane. -/
  | children
  /-- Nesting depth of the forest. -/
  | depth
  /-- Distinct symbols in one membrane. -/
  | objects
  /-- Elements of one buffer. -/
  | volume
  /-- Energy of one membrane. -/
  | energy
deriving DecidableEq, Repr

/-- The name of a resource in messages. -/
def Resource.name : Resource → String
  | .membranes => "membranes"
  | .children => "children"
  | .depth => "nesting depth"
  | .objects => "objects"
  | .volume => "volume"
  | .energy => "energy"

/-- Why a store refuses an operation. -/
inductive Refusal where
  /-- The shape is none, or none that a membrane of this store can have. -/
  | shape (fault : ShapeFault)
  /-- A buffer cannot change its volume. -/
  | incompatibleShape (source target : UInt64)
  /-- No live membrane has this identifier. -/
  | membraneNotFound (id : MembraneId)
  /-- The membrane does not hold the symbol. -/
  | symbolNotFound (id : MembraneId) (symbol : String)
  /-- A limit is reached. -/
  | capacity (resource : Resource) (limit : UInt64)
  /-- The indices are no coordinate of the shape. -/
  | index (fault : IndexFault)
  /-- The symbol has nothing but blanks. -/
  | blankSymbol
deriving DecidableEq

/-- The broad classes of refusals. -/
inductive RefusalKind where
  /-- Malformed, empty or oversized axis sizes. -/
  | invalidShape
  /-- Unknown membrane or symbol. -/
  | notFound
  /-- A limit was hit. -/
  | capacityExceeded
  /-- Two shapes of different volume. -/
  | incompatibleShape
  /-- Element access outside the shape. -/
  | indexOutOfBounds
  /-- A symbol that no membrane can hold. -/
  | invalidSymbol
deriving DecidableEq, Repr

namespace Refusal

/-- The class of a refusal. -/
def kind : Refusal → RefusalKind
  | .shape _ => .invalidShape
  | .incompatibleShape _ _ => .incompatibleShape
  | .membraneNotFound _ => .notFound
  | .symbolNotFound _ _ => .notFound
  | .capacity _ _ => .capacityExceeded
  | .index _ => .indexOutOfBounds
  | .blankSymbol => .invalidSymbol

/-- The stable number of a cause. -/
def code : Refusal → Nat
  | .shape _ => 100
  | .incompatibleShape _ _ => 101
  | .membraneNotFound _ => 200
  | .symbolNotFound _ _ => 201
  | .capacity _ _ => 300
  | .index (.wrongRank _ _) => 400
  | .index (.outOfBounds _ _ _) => 401
  | .blankSymbol => 500

/-- The wording of a refusal. -/
def message : Refusal → String
  | .shape fault => fault.message
  | .incompatibleShape source target =>
    s!"Incompatible shape: volume {source} cannot become volume {target}"
  | .membraneNotFound id => s!"Membrane not found: {id.toText}"
  | .symbolNotFound id symbol => s!"Object '{symbol}' not found in {id.toText}"
  | .capacity resource limit => s!"Capacity exceeded: {resource.name} limit is {limit}"
  | .index fault => fault.message
  | .blankSymbol => "Invalid symbol: symbol must contain a non-blank character"

end Refusal

/-! ### Checks -/

/-- The check that a condition holds. -/
def require (condition : Prop) [Decidable condition] (refusal : Refusal) : Except Refusal Unit :=
  if condition then .ok () else .error refusal

theorem require_eq_ok_iff {condition : Prop} [Decidable condition] {refusal : Refusal} :
    require condition refusal = .ok () ↔ condition := by
  unfold require
  split <;> simp [*]

theorem require_eq_error_iff {condition : Prop} [Decidable condition] {refusal other : Refusal} :
    require condition refusal = .error other ↔ ¬ condition ∧ refusal = other := by
  unfold require
  split <;> simp [*]

/-! ### Checks in sequence -/

section Checks

variable {ε α β : Type}

theorem bind_eq_ok_iff {check : Except ε α} {next : α → Except ε β} {result : β} :
    check >>= next = .ok result ↔ ∃ value, check = .ok value ∧ next value = .ok result := by
  cases check <;> simp [bind, Except.bind]

theorem bind_eq_error_iff {check : Except ε α} {next : α → Except ε β} {fault : ε} :
    check >>= next = .error fault ↔
      check = .error fault ∨ ∃ value, check = .ok value ∧ next value = .error fault := by
  cases check <;> simp [bind, Except.bind]

theorem check_bind_eq_ok_iff {check : Except ε Unit} {next : Unit → Except ε β}
    {result : β} : check >>= next = .ok result ↔ check = .ok () ∧ next () = .ok result := by
  cases check <;> simp [bind, Except.bind]

theorem check_bind_eq_error_iff {check : Except ε Unit} {next : Unit → Except ε β} {fault : ε} :
    check >>= next = .error fault ↔
      check = .error fault ∨ check = .ok () ∧ next () = .error fault := by
  cases check <;> simp [bind, Except.bind]

theorem map_eq_ok_iff {check : Except ε α} {f : α → β} {result : β} :
    check.map f = .ok result ↔ ∃ value, check = .ok value ∧ f value = result := by
  cases check <;> simp [Except.map]

theorem check_map_eq_ok_iff {check : Except ε Unit} {f : Unit → β} {result : β} :
    check.map f = .ok result ↔ check = .ok () ∧ f () = result := by
  cases check <;> simp [Except.map]

theorem mapError_eq_ok_iff {check : Except β α} {f : β → ε} {result : α} :
    check.mapError f = .ok result ↔ check = .ok result := by
  cases check with
  | ok value =>
    show Except.ok value = Except.ok result ↔ _
    rw [Except.ok.injEq, Except.ok.injEq]
  | error fault => exact iff_of_false nofun nofun

theorem toOption_eq_some_iff {check : Except ε α} {result : α} :
    check.toOption = some result ↔ check = .ok result := by
  cases check <;> simp [Except.toOption]

theorem pure_eq_ok_iff {value result : α} :
    (pure value : Except ε α) = .ok result ↔ value = result := by
  simp [pure, Except.pure]

end Checks

end Membranes
