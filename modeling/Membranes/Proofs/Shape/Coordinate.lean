import Mathlib.Data.List.Forall2
import Membranes.Shape.Offset

/-!
# Coordinates and their places

* `Shape.InBounds`: the coordinates of a shape, one index for each axis and below its size.
* `placeIn` is the place of a coordinate in exact numbers. In the lexicographic order of coordinates
  places go up one by one: `placeIn_lt` and `exists_placeIn` give the range, `placeIn_lt_placeIn_iff`
  the order, and `placeIn_inj` follows from it.
* `Shape.offset_eq_ok_iff`: a shape answers this place for coordinates and nothing for other indices.
  Of those `exists_firstExcess` finds the first index that is too large.
* `Shape.checkedOffset_eq`: with every product and every sum on the way checked, the answer is the same,
  so none of them leaves 64 bits. The invariant is that the places still to come fit behind the
  offset (`exact_step`).

`Shape.offset_order_isomorphism` puts these together.
-/

namespace Membranes

/-- The indices are a coordinate of the shape: one for each axis, and below its size. -/
def Shape.InBounds (shape : Shape) (indices : List UInt32) : Prop :=
  List.Forall₂ (· < ·) indices shape.axes

instance (shape : Shape) (indices : List UInt32) : Decidable (shape.InBounds indices) :=
  inferInstanceAs (Decidable (List.Forall₂ (· < ·) indices shape.axes))

theorem Shape.isNone_firstFault_iff {axes : List UInt32} :
    (firstFault axes 0 1 axes).isNone = true ↔ ValidAxes axes := by
  rw [Option.isNone_iff_eq_none]
  constructor
  · intro hnone
    obtain ⟨hthick, hfits⟩ := valid_of_firstFault (by decide) hnone
    exact ⟨hthick, Nat.one_mul (axesProduct axes) ▸ hfits⟩
  · rintro ⟨hthick, hfits⟩
    exact firstFault_of_valid hthick ((Nat.one_mul (axesProduct axes)).symm ▸ hfits)

/-- The check with which shapes are made decides whether they can be. -/
instance (axes : List UInt32) : Decidable (ValidAxes axes) :=
  decidable_of_iff ((Shape.firstFault axes 0 1 axes).isNone = true) Shape.isNone_firstFault_iff

variable {axes indices indices' : List UInt32} {index size : UInt32}

theorem ValidAxes.tail (h : ValidAxes (size :: axes)) : ValidAxes axes := by
  obtain ⟨hthick, hfits⟩ := h
  have hsize : 2 ≤ size.toNat := hthick size List.mem_cons_self
  refine ⟨fun a ha => hthick a (List.mem_cons_of_mem _ ha), ?_⟩
  exact Nat.lt_of_le_of_lt (Nat.le_mul_of_pos_left _ (by omega)) hfits

theorem ValidAxes.pos (h : ValidAxes axes) : 0 < axesProduct axes :=
  Shape.axesProduct_pos h.1

/-! ### Places in exact numbers -/

/-- The place of indices among axes: an index counts as often as there are places for the indices behind
it. -/
def placeIn : List UInt32 → List UInt32 → ℕ
  | _ :: axes, index :: indices => index.toNat * axesProduct axes + placeIn axes indices
  | _, _ => 0

/-- The places under one index of an axis end where those under the next one begin, or before. -/
theorem block_le {index' : UInt32} (h : index < index') (axes : List UInt32) :
    index.toNat * axesProduct axes + axesProduct axes ≤ index'.toNat * axesProduct axes := by
  have hnext : index.toNat + 1 ≤ index'.toNat := UInt32.lt_iff_toNat_lt.mp h
  rw [← Nat.succ_mul]
  exact Nat.mul_le_mul_right _ hnext

theorem placeIn_lt (h : List.Forall₂ (· < ·) indices axes) : placeIn axes indices < axesProduct axes := by
  induction h with
  | nil => exact Nat.one_pos
  | @cons index size indices axes hindex _ ih =>
    calc index.toNat * axesProduct axes + placeIn axes indices
        < index.toNat * axesProduct axes + axesProduct axes := Nat.add_lt_add_left ih _
      _ ≤ size.toNat * axesProduct axes := block_le hindex axes

/-- The first index decides, whatever follows it. -/
theorem placeIn_cons_lt_cons {index' : UInt32} (hrest : List.Forall₂ (· < ·) indices axes)
    (hlt : index < index') :
    placeIn (size :: axes) (index :: indices) < placeIn (size :: axes) (index' :: indices') := by
  calc index.toNat * axesProduct axes + placeIn axes indices
      < index.toNat * axesProduct axes + axesProduct axes := Nat.add_lt_add_left (placeIn_lt hrest) _
    _ ≤ index'.toNat * axesProduct axes := block_le hlt axes
    _ ≤ index'.toNat * axesProduct axes + placeIn axes indices' := Nat.le_add_right ..

/-- **Places are in the lexicographic order of coordinates.** -/
theorem placeIn_lt_placeIn_iff (h : List.Forall₂ (· < ·) indices axes)
    (h' : List.Forall₂ (· < ·) indices' axes) :
    placeIn axes indices < placeIn axes indices' ↔ indices < indices' := by
  induction h generalizing indices' with
  | nil =>
    cases h'
    simp [placeIn]
  | @cons index size indices axes _ hrest ih =>
    obtain ⟨index', rest, _, hrest', rfl⟩ := List.forall₂_cons_right_iff.mp h'
    rw [List.cons_lt_cons_iff]
    -- The first indices decide unless they are equal; then the rest does, behind the same summand.
    by_cases heq : index = index'
    · subst heq
      show _ + placeIn axes indices < _ + placeIn axes rest ↔ _
      rw [Nat.add_lt_add_iff_left, ih hrest']
      simp
    · rcases UInt32.lt_or_lt_of_ne heq with hlt | hgt
      · simp [hlt, placeIn_cons_lt_cons hrest hlt]
      · have hback : placeIn (size :: axes) (index' :: rest) < placeIn (size :: axes) (index :: indices) :=
          placeIn_cons_lt_cons hrest' hgt
        simp [heq, UInt32.lt_asymm hgt, Nat.lt_asymm hback]

/-- Different coordinates have different places. -/
theorem placeIn_inj (h : List.Forall₂ (· < ·) indices axes)
    (h' : List.Forall₂ (· < ·) indices' axes) (heq : placeIn axes indices = placeIn axes indices') :
    indices = indices' := by
  have hnot : ¬ indices < indices' := by
    rw [← placeIn_lt_placeIn_iff h h', heq]
    exact Nat.lt_irrefl _
  have hnot' : ¬ indices' < indices := by
    rw [← placeIn_lt_placeIn_iff h' h, heq]
    exact Nat.lt_irrefl _
  exact List.le_antisymm hnot' hnot

/-- Every place below the product of the sizes is the place of a coordinate: the first index is the
quotient by the product of the other sizes, and the remainder is the place of the rest. -/
theorem exists_placeIn {place : ℕ} (hplace : place < axesProduct axes) :
    ∃ indices, List.Forall₂ (· < ·) indices axes ∧ placeIn axes indices = place := by
  induction axes generalizing place with
  | nil => exact ⟨[], .nil, (Nat.lt_one_iff.mp hplace).symm⟩
  | cons size axes ih =>
    have hpos : 0 < axesProduct axes := by
      rw [Nat.pos_iff_ne_zero]
      intro hzero
      rw [axesProduct, hzero, Nat.mul_zero] at hplace
      exact Nat.not_lt_zero _ hplace
    obtain ⟨indices, hbounds, hrest⟩ := ih (Nat.mod_lt place hpos)
    have hquotient : place / axesProduct axes < size.toNat :=
      Nat.div_lt_of_lt_mul (by rwa [Nat.mul_comm])
    have hword : (UInt32.ofNat (place / axesProduct axes)).toNat = place / axesProduct axes :=
      UInt32.toNat_ofNat_of_lt' (Nat.lt_trans hquotient size.toNat_lt)
    refine ⟨.ofNat (place / axesProduct axes) :: indices, .cons ?_ hbounds, ?_⟩
    · rw [UInt32.lt_iff_toNat_lt, hword]
      exact hquotient
    · rw [placeIn, hword, hrest, Nat.mul_comm]
      exact Nat.div_add_mod place (axesProduct axes)

/-! ### Products and sums that fit 64 bits -/

/-- The product of two numbers, if it fits 64 bits. -/
def product? (a b : UInt64) : Option UInt64 :=
  if a.toNat * b.toNat < UInt64.size then some (a * b) else none

/-- The sum of two numbers, if it fits 64 bits. -/
def sum? (a b : UInt64) : Option UInt64 :=
  if a.toNat + b.toNat < UInt64.size then some (a + b) else none

theorem product?_of_lt {a b : UInt64} (h : a.toNat * b.toNat < UInt64.size) :
    product? a b = some (a * b) ∧ (a * b).toNat = a.toNat * b.toNat := by
  refine ⟨if_pos h, ?_⟩
  rw [UInt64.toNat_mul]
  exact Nat.mod_eq_of_lt h

theorem sum?_of_lt {a b : UInt64} (h : a.toNat + b.toNat < UInt64.size) :
    sum? a b = some (a + b) ∧ (a + b).toNat = a.toNat + b.toNat := by
  refine ⟨if_pos h, ?_⟩
  rw [UInt64.toNat_add]
  exact Nat.mod_eq_of_lt h

namespace Shape

/-- Strides and volume with every product checked. -/
def checkedStrides : List UInt32 → Option (List UInt64 × UInt64)
  | [] => some ([], 1)
  | size :: axes => do
    let (strides, volume) ← checkedStrides axes
    return (volume :: strides, ← product? size.toUInt64 volume)

/-- What indices contribute to an offset, with every product and every sum checked. -/
def checkedOffsetFrom (axis : ℕ) (offset : UInt64) :
    List UInt32 → List UInt32 → List UInt64 → Option (Except IndexFault UInt64)
  | index :: indices, bound :: bounds, stride :: strides =>
    if bound ≤ index then some (.error (.outOfBounds axis index bound))
    else do
      let contribution ← product? index.toUInt64 stride
      checkedOffsetFrom (axis + 1) (← sum? offset contribution) indices bounds strides
  | _, _, _ => some (.ok offset)

/-- The place of a coordinate with every product and every sum checked, those for the strides
included. -/
def checkedOffset (shape : Shape) (indices : List UInt32) : Option (Except IndexFault ℕ) :=
  if indices.length ≠ shape.rank then some (.error (.wrongRank shape.rank indices.length))
  else do
    let (strides, _) ← checkedStrides shape.axes
    return (← checkedOffsetFrom 0 0 indices shape.axes strides).map UInt64.toNat

theorem checkedStrides_eq (h : ValidAxes axes) :
    checkedStrides axes = some (stridesAndVolume axes) ∧
      (stridesAndVolume axes).2.toNat = axesProduct axes := by
  induction axes with
  | nil => exact ⟨rfl, rfl⟩
  | cons size axes ih =>
    obtain ⟨hchecked, hvolume⟩ := ih h.tail
    have hfits : size.toUInt64.toNat * (stridesAndVolume axes).2.toNat < UInt64.size := by
      rw [UInt32.toNat_toUInt64, hvolume]
      exact h.2
    obtain ⟨hproduct, htoNat⟩ := product?_of_lt hfits
    rw [UInt32.toNat_toUInt64, hvolume] at htoNat
    refine ⟨?_, htoNat⟩
    rw [checkedStrides, hchecked]
    show (do return ((stridesAndVolume axes).2 :: (stridesAndVolume axes).1,
      ← product? size.toUInt64 (stridesAndVolume axes).2)) = _
    rw [hproduct]
    rfl

theorem checkedStrides_axes (shape : Shape) :
    checkedStrides shape.axes = some (shape.strides, shape.volume) := by
  obtain ⟨hchecked, htoNat⟩ := checkedStrides_eq shape.valid
  rw [← toNat_volume] at htoNat
  rw [hchecked, ← UInt64.toNat_inj.mp htoNat]
  rfl

theorem length_strides (axes : List UInt32) : (stridesAndVolume axes).1.length = axes.length := by
  induction axes with
  | nil => rfl
  | cons size axes ih => exact congrArg Nat.succ ih

/-- The stride of an axis is the product of the sizes behind it. -/
theorem toNat_stride (h : ValidAxes axes) {axis : ℕ} {stride : UInt64}
    (hstride : (stridesAndVolume axes).1[axis]? = some stride) :
    stride.toNat = axesProduct (axes.drop (axis + 1)) := by
  induction axes generalizing axis with
  | nil => exact nomatch hstride
  | cons size axes ih =>
    cases axis with
    | zero =>
      obtain rfl := Option.some.inj hstride
      exact (checkedStrides_eq h.tail).2
    | succ axis => exact ih h.tail hstride

/-- One step of the sum is exact as long as the places of the whole axis fit behind the offset, and the
places of the axes that follow fit behind the new one. -/
theorem exact_step {offset stride : UInt64} (hbehind : stride.toNat = axesProduct axes)
    (hpos : 0 < axesProduct axes) (hindex : index < size)
    (hroom : offset.toNat + axesProduct (size :: axes) ≤ UInt64.size) :
    product? index.toUInt64 stride = some (index.toUInt64 * stride) ∧
      sum? offset (index.toUInt64 * stride) = some (offset + index.toUInt64 * stride) ∧
      (offset + index.toUInt64 * stride).toNat = offset.toNat + index.toNat * axesProduct axes ∧
      (offset + index.toUInt64 * stride).toNat + axesProduct axes ≤ UInt64.size := by
  have hblock : index.toNat * axesProduct axes + axesProduct axes ≤ axesProduct (size :: axes) :=
    block_le hindex axes
  have hproduct : index.toUInt64.toNat * stride.toNat = index.toNat * axesProduct axes := by
    rw [UInt32.toNat_toUInt64, hbehind]
  have hproductFits : index.toUInt64.toNat * stride.toNat < UInt64.size := by omega
  obtain ⟨hchecked, hmul⟩ := product?_of_lt hproductFits
  rw [hproduct] at hmul
  have hsumFits : offset.toNat + (index.toUInt64 * stride).toNat < UInt64.size := by omega
  obtain ⟨hchecked', hadd⟩ := sum?_of_lt hsumFits
  rw [hmul] at hadd
  exact ⟨hchecked, hchecked', hadd, by omega⟩

/-- At the start all places fit behind the offset. -/
theorem zero_add_axesProduct_le (shape : Shape) :
    (0 : UInt64).toNat + axesProduct shape.axes ≤ UInt64.size := by
  rw [UInt64.toNat_zero, Nat.zero_add]
  exact Nat.le_of_lt shape.valid.2

theorem checkedOffsetFrom_eq (h : ValidAxes axes) (axis : ℕ) {offset : UInt64}
    (hroom : offset.toNat + axesProduct axes ≤ UInt64.size) (indices : List UInt32) :
    checkedOffsetFrom axis offset indices axes (stridesAndVolume axes).1 =
      some (offsetFrom axis offset indices axes (stridesAndVolume axes).1) := by
  -- From axis to axis the offset grows while the places behind it become fewer, so that `hroom` is kept.
  induction axes generalizing axis offset indices with
  | nil => cases indices <;> rfl
  | cons size axes ih =>
    cases indices with
    | nil => rfl
    | cons index indices =>
      have hstride := (checkedStrides_eq h.tail).2
      rw [stridesAndVolume, checkedOffsetFrom, offsetFrom]
      by_cases hbound : size ≤ index
      · rw [if_pos hbound, if_pos hbound]
      · obtain ⟨hproduct, hsum, -, hroom'⟩ :=
          exact_step hstride h.tail.pos (UInt32.not_le.mp hbound) hroom
        rw [if_neg hbound, if_neg hbound, hproduct]
        show (do checkedOffsetFrom (axis + 1) (← sum? offset _) indices axes _) = _
        rw [hsum]
        exact ih h.tail (axis + 1) hroom' indices

/-- **No product and no sum leaves 64 bits,** neither in the strides nor in the offset. -/
theorem checkedOffset_eq (shape : Shape) (indices : List UInt32) :
    shape.checkedOffset indices = some (shape.offset indices) := by
  unfold checkedOffset offset
  split
  · rfl
  · have hchecked := checkedOffsetFrom_eq shape.valid 0 shape.zero_add_axesProduct_le indices
    rw [(checkedStrides_eq shape.valid).1]
    show (do return (← checkedOffsetFrom 0 0 indices shape.axes (stridesAndVolume shape.axes).1).map _) =
      _
    rw [hchecked]
    rfl

/-! ### What a shape answers -/

/-- The first index that does not lie below the size of its axis: those in front of it do. -/
structure FirstExcess (axes indices : List UInt32) (axis : ℕ) (index bound : UInt32) : Prop where
  before : List.Forall₂ (· < ·) (indices.take axis) (axes.take axis)
  index_eq : indices[axis]? = some index
  bound_eq : axes[axis]? = some bound
  bound_le : bound ≤ index

theorem offsetFrom_of_forall₂ (hbounds : List.Forall₂ (· < ·) indices axes) (h : ValidAxes axes)
    (axis : ℕ) {offset : UInt64} (hroom : offset.toNat + axesProduct axes ≤ UInt64.size) :
    ∃ place, offsetFrom axis offset indices axes (stridesAndVolume axes).1 = .ok place ∧
      place.toNat = offset.toNat + placeIn axes indices := by
  induction hbounds generalizing axis offset with
  | nil => exact ⟨offset, rfl, rfl⟩
  | @cons index size indices axes hindex _ ih =>
    have hstride := (checkedStrides_eq h.tail).2
    obtain ⟨-, -, hadd, hroom'⟩ := exact_step hstride h.tail.pos hindex hroom
    obtain ⟨place, hplace, htoNat⟩ := ih h.tail (axis + 1) hroom'
    refine ⟨place, ?_, ?_⟩
    · rw [stridesAndVolume, offsetFrom, if_neg (UInt32.not_le.mpr hindex)]
      exact hplace
    · rw [htoNat, hadd, placeIn, Nat.add_assoc]

theorem exists_firstExcess (hlength : indices.length = axes.length)
    (hnot : ¬ List.Forall₂ (· < ·) indices axes) (axis : ℕ) (offset : UInt64) :
    ∃ behind index bound, FirstExcess axes indices behind index bound ∧
      offsetFrom axis offset indices axes (stridesAndVolume axes).1 =
        .error (.outOfBounds (axis + behind) index bound) := by
  induction axes generalizing axis offset indices with
  | nil =>
    rw [List.length_eq_zero_iff.mp hlength] at hnot
    exact absurd .nil hnot
  | cons size axes ih =>
    cases indices with
    | nil => exact nomatch hlength
    | cons index indices =>
      rw [stridesAndVolume, offsetFrom]
      by_cases hbound : size ≤ index
      · rw [if_pos hbound]
        exact ⟨0, index, size, ⟨.nil, rfl, rfl, hbound⟩, rfl⟩
      · -- The excess is further behind, since with the rest in bounds all would be.
        have hindex : index < size := UInt32.not_le.mp hbound
        have hrest : ¬ List.Forall₂ (· < ·) indices axes := fun hrest => hnot (.cons hindex hrest)
        obtain ⟨behind, index', bound, hexcess, herror⟩ :=
          ih (Nat.succ.inj hlength) hrest (axis + 1) (offset + index.toUInt64 * (stridesAndVolume axes).2)
        rw [if_neg hbound]
        refine ⟨behind + 1, index', bound, ⟨?_, hexcess.index_eq, hexcess.bound_eq, hexcess.bound_le⟩, ?_⟩
        · exact .cons hindex hexcess.before
        · rw [herror, Nat.add_right_comm, Nat.add_assoc]

variable {shape : Shape} {place place' : ℕ}

theorem InBounds.length_eq (h : shape.InBounds indices) : indices.length = shape.rank :=
  List.Forall₂.length_eq h

theorem InBounds.offset_eq (h : shape.InBounds indices) :
    shape.offset indices = .ok (placeIn shape.axes indices) := by
  obtain ⟨place, hplace, htoNat⟩ := offsetFrom_of_forall₂ h shape.valid 0 shape.zero_add_axesProduct_le
  unfold offset strides
  rw [if_neg (not_not_intro h.length_eq), hplace]
  show Except.ok place.toNat = _
  rw [htoNat, UInt64.toNat_zero, Nat.zero_add]

theorem offset_of_length_ne (h : indices.length ≠ shape.rank) :
    shape.offset indices = .error (.wrongRank shape.rank indices.length) :=
  if_pos h

theorem offset_of_not_inBounds (hlength : indices.length = shape.rank)
    (hnot : ¬ shape.InBounds indices) :
    ∃ axis index bound, FirstExcess shape.axes indices axis index bound ∧
      shape.offset indices = .error (.outOfBounds axis index bound) := by
  obtain ⟨axis, index, bound, hexcess, herror⟩ := exists_firstExcess hlength hnot 0 0
  refine ⟨axis, index, bound, hexcess, ?_⟩
  unfold offset strides
  rw [if_neg (not_not_intro hlength), herror, Nat.zero_add]
  rfl

/-- A shape answers the place of a coordinate, and has no answer for other indices. -/
theorem offset_eq_ok_iff :
    shape.offset indices = .ok place ↔ shape.InBounds indices ∧ placeIn shape.axes indices = place := by
  constructor
  · intro hok
    by_cases hlength : indices.length = shape.rank
    · by_cases hbounds : shape.InBounds indices
      · exact ⟨hbounds, Except.ok.inj (hbounds.offset_eq.symm.trans hok)⟩
      · obtain ⟨_, _, _, -, herror⟩ := offset_of_not_inBounds hlength hbounds
        exact nomatch herror.symm.trans hok
    · exact nomatch (offset_of_length_ne hlength).symm.trans hok
  · rintro ⟨hbounds, rfl⟩
    exact hbounds.offset_eq

theorem exists_offset_iff : (∃ place, shape.offset indices = .ok place) ↔ shape.InBounds indices := by
  simp [offset_eq_ok_iff]

theorem offset_lt_volume (h : shape.offset indices = .ok place) : place < shape.volume.toNat := by
  obtain ⟨hbounds, rfl⟩ := offset_eq_ok_iff.mp h
  rw [toNat_volume]
  exact placeIn_lt hbounds

theorem offset_lt_offset_iff (h : shape.offset indices = .ok place)
    (h' : shape.offset indices' = .ok place') : place < place' ↔ indices < indices' := by
  obtain ⟨hbounds, rfl⟩ := offset_eq_ok_iff.mp h
  obtain ⟨hbounds', rfl⟩ := offset_eq_ok_iff.mp h'
  exact placeIn_lt_placeIn_iff hbounds hbounds'

theorem offset_inj (h : shape.offset indices = .ok place) (h' : shape.offset indices' = .ok place) :
    indices = indices' := by
  obtain ⟨hbounds, hplace⟩ := offset_eq_ok_iff.mp h
  obtain ⟨hbounds', hplace'⟩ := offset_eq_ok_iff.mp h'
  exact placeIn_inj hbounds hbounds' (hplace.trans hplace'.symm)

theorem existsUnique_offset_eq (h : place < shape.volume.toNat) :
    ∃! indices, shape.offset indices = .ok place := by
  rw [toNat_volume] at h
  obtain ⟨indices, hbounds, hplace⟩ := exists_placeIn h
  have hoffset : shape.offset indices = .ok place := offset_eq_ok_iff.mpr ⟨hbounds, hplace⟩
  exact ⟨indices, hoffset, fun _ hother => offset_inj hother hoffset⟩

/-- **Offsets number the coordinates in lexicographic order.** A shape answers for its coordinates and for
nothing else, with the places below its volume, one for each coordinate, and greater coordinates have
greater places. Other indices are answered with their number if there are too many or too few of
them, and with the first one that is out of bounds otherwise. The stride of an axis is the exact product of
the sizes behind it, and no product or sum that is computed for strides or places leaves 64 bits. -/
theorem offset_order_isomorphism (shape : Shape) :
    (∀ indices, (∃ place, shape.offset indices = .ok place) ↔ shape.InBounds indices) ∧
    (∀ indices place, shape.offset indices = .ok place → place < shape.volume.toNat) ∧
    (∀ place < shape.volume.toNat, ∃! indices, shape.offset indices = .ok place) ∧
    (∀ indices indices' place place', shape.offset indices = .ok place →
      shape.offset indices' = .ok place' → (place < place' ↔ indices < indices')) ∧
    (∀ indices, indices.length ≠ shape.rank →
      shape.offset indices = .error (.wrongRank shape.rank indices.length)) ∧
    (∀ indices, indices.length = shape.rank → ¬ shape.InBounds indices →
      ∃ axis index bound, FirstExcess shape.axes indices axis index bound ∧
        shape.offset indices = .error (.outOfBounds axis index bound)) ∧
    (shape.strides.length = shape.rank ∧ ∀ axis stride, shape.strides[axis]? = some stride →
      stride.toNat = axesProduct (shape.axes.drop (axis + 1))) ∧
    checkedStrides shape.axes = some (shape.strides, shape.volume) ∧
    ∀ indices, shape.checkedOffset indices = some (shape.offset indices) := by
  refine ⟨fun indices => exists_offset_iff, fun indices place => offset_lt_volume, ?_, ?_, ?_, ?_,
    ⟨length_strides shape.axes, fun axis stride => toNat_stride shape.valid⟩, shape.checkedStrides_axes,
    shape.checkedOffset_eq⟩
  · exact fun place => existsUnique_offset_eq
  · exact fun indices indices' place place' => offset_lt_offset_iff
  · exact fun indices => offset_of_length_ne
  · exact fun indices => offset_of_not_inBounds

/-- A shape with almost as many places as 64 bits can number. -/
def vast : Shape := ⟨[65537, 4294967295, 65535], by decide⟩

/-- The last coordinate of `vast` has the last place, the one before it the place before, and indices that
are no coordinate are answered with the second of the three. -/
theorem offset_order_isomorphism_vast :
    vast.volume = 18446744065119617025 ∧
    vast.offset [65536, 4294967294, 65534] = .ok 18446744065119617024 ∧
    vast.offset [65536, 4294967294, 65533] = .ok 18446744065119617023 ∧
    ([65536, 4294967294, 65533] : List UInt32) < [65536, 4294967294, 65534] ∧
    (∃! indices, vast.offset indices = .ok 18446744065119617024) ∧
    vast.offset [0, 0] = .error (.wrongRank 3 2) ∧
    (∃ axis index bound, FirstExcess vast.axes [0, 4294967295, 65535] axis index bound ∧
      vast.offset [0, 4294967295, 65535] = .error (.outOfBounds axis index bound)) ∧
    vast.checkedOffset [65536, 4294967294, 65534] = some (.ok 18446744065119617024) := by
  have hvolume : vast.volume = 18446744065119617025 := by decide +kernel
  have hlast : vast.offset [65536, 4294967294, 65534] = .ok 18446744065119617024 := by decide +kernel
  have hbefore : vast.offset [65536, 4294967294, 65533] = .ok 18446744065119617023 := by decide +kernel
  obtain ⟨-, hrange, hunique, horder, hrank, hexcess, -, -, hchecked⟩ := offset_order_isomorphism vast
  refine ⟨hvolume, hlast, hbefore, ?_, ?_, ?_, ?_, ?_⟩
  · exact (horder _ _ _ _ hbefore hlast).mp (by decide)
  · exact hunique _ (hrange _ _ hlast)
  · exact hrank [0, 0] (by decide)
  · exact hexcess [0, 4294967295, 65535] (by decide) (by decide)
  · rw [hchecked, hlast]

end Shape

end Membranes
