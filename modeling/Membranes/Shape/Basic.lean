import Membranes.Primality
import Membranes.Word

/-!
# Shapes

A shape is an ordered list of axis sizes, each at least two, whose product fits 64 bits. The product is
the volume of the shape: the number of elements of a buffer with that shape. A shape with composite
axes is refined into primes by `Shape.canonical`, which keeps the order of the axes and the volume.

Both conditions are part of the type. `Shape.ofAxes` establishes them step by step, and factorization
and refinement preserve them.
-/

namespace Membranes

/-- The product of axis sizes as a natural number. -/
def axesProduct : List UInt32 → Nat
  | [] => 1
  | a :: axes => a.toNat * axesProduct axes

/-- What makes a list of axis sizes a shape. -/
def ValidAxes (axes : List UInt32) : Prop :=
  (∀ a ∈ axes, 2 ≤ a.toNat) ∧ axesProduct axes < UInt64.size

/-- An ordered list of axis sizes. -/
structure Shape where
  /-- The sizes, slowest axis first. -/
  axes : List UInt32
  /-- Every size is at least two and the volume fits 64 bits. -/
  valid : ValidAxes axes
deriving DecidableEq

/-- Why something is not a shape, or not one that a membrane can have. -/
inductive ShapeFault where
  /-- Zero has no factorization. -/
  | zero
  /-- An axis has fewer than two places. -/
  | thinAxis (axis : Nat) (size : UInt32)
  /-- The product of the sizes does not fit 64 bits. -/
  | overflow (axes : List UInt32)
  /-- A piece of a text is not a 32-bit numeral. -/
  | notInteger (piece : String)
  /-- A membrane needs at least one axis. -/
  | noAxes
  /-- There are more axes than a store allows. -/
  | tooManyAxes (rank : Nat) (limit : UInt32)
  /-- The elements of a buffer do not fill the shape. -/
  | wrongLength (held : Nat) (shape : Shape)
deriving DecidableEq

namespace Shape

theorem eq_of_axes_eq {shape other : Shape} (h : shape.axes = other.axes) : shape = other := by
  cases shape
  cases other
  simp_all

/-! ### The product of axis sizes -/

theorem axesProduct_append (xs ys : List UInt32) :
    axesProduct (xs ++ ys) = axesProduct xs * axesProduct ys := by
  induction xs with
  | nil => simp [axesProduct]
  | cons a xs ih => simp [axesProduct, ih, Nat.mul_assoc]

theorem two_pow_length_le_axesProduct {axes : List UInt32} (h : ∀ a ∈ axes, 2 ≤ a.toNat) :
    Nat.pow 2 axes.length ≤ axesProduct axes := by
  induction axes with
  | nil => exact Nat.le_refl 1
  | cons a axes ih =>
    have rest := ih fun b hb => h b (List.mem_cons_of_mem a hb)
    have step : Nat.pow 2 (a :: axes).length = Nat.pow 2 axes.length * 2 := rfl
    rw [step, Nat.mul_comm]
    exact Nat.mul_le_mul (h a List.mem_cons_self) rest

theorem axesProduct_pos {axes : List UInt32} (h : ∀ a ∈ axes, 2 ≤ a.toNat) :
    0 < axesProduct axes :=
  Nat.lt_of_lt_of_le (Nat.two_pow_pos axes.length) (two_pow_length_le_axesProduct h)

/-! ### Construction -/

/-- The first reason why axis sizes are not a shape. The sizes are multiplied up from the left:
`product` is the product of the first `axis` of `all`. -/
def firstFault (all : List UInt32) (axis product : Nat) : List UInt32 → Option ShapeFault
  | [] => none
  | a :: axes =>
    if a < 2 then some (.thinAxis axis a)
    else if product * a.toNat < UInt64.size then firstFault all (axis + 1) (product * a.toNat) axes
    else some (.overflow all)

theorem valid_of_firstFault {all : List UInt32} {axis product : Nat} {axes : List UInt32}
    (hp : product < UInt64.size) (h : firstFault all axis product axes = none) :
    (∀ a ∈ axes, 2 ≤ a.toNat) ∧ product * axesProduct axes < UInt64.size := by
  induction axes generalizing axis product with
  | nil => simpa [axesProduct] using hp
  | cons a axes ih =>
    simp only [firstFault] at h
    split at h
    · simp at h
    · rename_i thick
      split at h
      · rename_i fits
        obtain ⟨hall, hprod⟩ := ih fits h
        have two : 2 ≤ a.toNat := by
          have := UInt32.not_lt.mp thick
          simpa [UInt32.le_iff_toNat_le] using this
        refine ⟨?_, by simpa [axesProduct, Nat.mul_assoc] using hprod⟩
        intro b hb
        rcases List.mem_cons.mp hb with rfl | hb
        · exact two
        · exact hall b hb
      · simp at h

theorem firstFault_of_valid {all : List UInt32} {axis product : Nat} {axes : List UInt32}
    (hall : ∀ a ∈ axes, 2 ≤ a.toNat) (hprod : product * axesProduct axes < UInt64.size) :
    firstFault all axis product axes = none := by
  induction axes generalizing axis product with
  | nil => rfl
  | cons a axes ih =>
    have two : 2 ≤ a.toNat := hall a List.mem_cons_self
    have thick : ¬ a < 2 := by
      rw [UInt32.not_lt, UInt32.le_iff_toNat_le]
      exact two
    have rest : ∀ b ∈ axes, 2 ≤ b.toNat := fun b hb => hall b (List.mem_cons_of_mem a hb)
    have split : product * axesProduct (a :: axes) = product * a.toNat * axesProduct axes :=
      (Nat.mul_assoc product a.toNat (axesProduct axes)).symm
    rw [split] at hprod
    have fits : product * a.toNat < UInt64.size :=
      Nat.lt_of_le_of_lt (Nat.le_mul_of_pos_right _ (axesProduct_pos rest)) hprod
    unfold firstFault
    rw [if_neg thick, if_pos fits]
    exact ih rest hprod

/-- The shape with the given axis sizes, or the first reason against it. -/
def ofAxes (axes : List UInt32) : Except ShapeFault Shape :=
  match h : firstFault axes 0 1 axes with
  | none => .ok ⟨axes, by simpa [ValidAxes] using valid_of_firstFault (by decide) h⟩
  | some fault => .error fault

theorem ofAxes_eq_ok_iff {axes : List UInt32} {shape : Shape} :
    ofAxes axes = .ok shape ↔ shape.axes = axes := by
  constructor
  · intro h
    unfold ofAxes at h
    split at h
    · rw [← Except.ok.inj h]
    · exact nomatch h
  · rintro rfl
    have valid : firstFault shape.axes 0 1 shape.axes = none :=
      firstFault_of_valid shape.valid.1 (by rw [Nat.one_mul]; exact shape.valid.2)
    unfold ofAxes
    split
    · rfl
    · rename_i fault h
      exact nomatch h.symm.trans valid

/-- The shape without axes. -/
def scalar : Shape := ⟨[], by simp [ValidAxes, axesProduct, UInt64.size]⟩

/-! ### Measures -/

variable (shape : Shape)

/-- The number of axes. -/
def rank : Nat := shape.axes.length

/-- Axes of two places at least cannot be more than the bits of a volume. -/
theorem rank_lt : shape.rank < 64 := by
  have power : Nat.pow 2 shape.rank < Nat.pow 2 64 :=
    Nat.lt_of_le_of_lt (two_pow_length_le_axesProduct shape.valid.1) shape.valid.2
  exact (Nat.pow_lt_pow_iff_right (by decide)).mp power

/-- Whether there is no axis. -/
def isScalar : Bool := shape.axes.isEmpty

/-- The number of elements: the product of the sizes, one for the scalar. -/
def volume : UInt64 := shape.axes.foldl (fun product a => product * a.toUInt64) 1

/-- Multiplying sizes up stays exact as long as the whole product fits. -/
theorem toNat_foldl_mul (axes : List UInt32) (product : UInt64) (hthick : ∀ a ∈ axes, 2 ≤ a.toNat)
    (hfits : product.toNat * axesProduct axes < UInt64.size) :
    (axes.foldl (fun product a => product * a.toUInt64) product).toNat =
      product.toNat * axesProduct axes := by
  induction axes generalizing product with
  | nil => exact (Nat.mul_one _).symm
  | cons a axes ih =>
    have hrest : ∀ b ∈ axes, 2 ≤ b.toNat := fun b hb => hthick b (List.mem_cons_of_mem a hb)
    have hassoc : product.toNat * axesProduct (a :: axes) =
        product.toNat * a.toNat * axesProduct axes :=
      (Nat.mul_assoc product.toNat a.toNat (axesProduct axes)).symm
    rw [hassoc] at hfits ⊢
    have hstep : (product * a.toUInt64).toNat = product.toNat * a.toNat := by
      rw [UInt64.toNat_mul, UInt32.toNat_toUInt64]
      exact Nat.mod_eq_of_lt
        (Nat.lt_of_le_of_lt (Nat.le_mul_of_pos_right _ (axesProduct_pos hrest)) hfits)
    rw [← hstep] at hfits ⊢
    exact ih (product * a.toUInt64) hrest hfits

/-- The volume is the product of the sizes. -/
theorem toNat_volume : shape.volume.toNat = axesProduct shape.axes := by
  have hfits : (1 : UInt64).toNat * axesProduct shape.axes < UInt64.size :=
    (Nat.one_mul _).symm ▸ shape.valid.2
  exact (toNat_foldl_mul shape.axes 1 shape.valid.1 hfits).trans (Nat.one_mul _)

/-- The size of an axis. -/
def axis? (axis : Nat) : Option UInt32 := shape.axes[axis]?

/-- Row-major strides of a list of axis sizes together with the product of all of them. -/
def stridesAndVolume : List UInt32 → List UInt64 × UInt64
  | [] => ([], 1)
  | a :: axes =>
    let (strides, volume) := stridesAndVolume axes
    (volume :: strides, a.toUInt64 * volume)

/-- How far apart in a flat buffer the neighbours along each axis are; the last axis is the fastest. -/
def strides : List UInt64 := (stridesAndVolume shape.axes).1

/-- Whether two shapes have the same volume, so that a buffer can go from one to the other. -/
def reshapable (source target : Shape) : Bool := source.volume == target.volume

/-- The sizes as little-endian words, which stand in front of a buffer when it is hashed. -/
def bytes : List UInt8 :=
  shape.axes.flatMap fun (a : UInt32) => littleEndian 4 a.toNat

/-- The sizes without repeats, in the order of their first occurrence. -/
def distinctAxes : List UInt32 :=
  shape.axes.foldl (fun seen a => if seen.contains a then seen else seen ++ [a]) []

/-- Whether every axis size is prime. -/
def hasPrimeAxes : Bool := shape.axes.all isPrime

end Shape

end Membranes
