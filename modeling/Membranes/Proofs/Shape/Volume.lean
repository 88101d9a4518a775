import Membranes.Proofs.Message.Bytes
import Membranes.Proofs.Shape.Text
import Membranes.Proofs.Shape.TrialDivision

/-!
# Volumes fit 64 bits

* `MultipliesUp` is the check of axis sizes as it is made: one size after the other, each product within 64
  bits. Sizes are two at least, so that no product is greater than the one after it, and the check is passed
  exactly when the last one fits (`exists_multipliesUp_iff`).
* `Shape.ofAxes_eq_error_iff`: the fault that is reported is the one at which multiplying up stops.
* `Shape.Origin` lists where shapes come from, and `Shape.Origin.Yields` says which sizes come from there,
  before anything is known about them. `Shape.Origin.Yields.valid`: all of them can be multiplied up, those
  included that no check looks at.
* `Shape.Measured`: the volume and the strides of a shape are exact.

`Shape.never_overflows` puts these together.
-/

namespace Membranes

variable {axes front rest : List UInt32} {product stop volume : UInt64}

/-! ### Multiplying up -/

/-- Sizes, each of them two at least, are multiplied up onto a product from the left, and no product on the
way leaves 64 bits. -/
inductive MultipliesUp : UInt64 → List UInt32 → UInt64 → Prop
  /-- All sizes are multiplied up. -/
  | done {product : UInt64} : MultipliesUp product [] product
  /-- The first size is multiplied on. -/
  | step {product next volume : UInt64} {size : UInt32} {axes : List UInt32} (hsize : 2 ≤ size.toNat)
      (hnext : product? product size.toUInt64 = some next) (h : MultipliesUp next axes volume) :
      MultipliesUp product (size :: axes) volume

theorem product?_size_eq_some_iff {next : UInt64} {size : UInt32} :
    product? product size.toUInt64 = some next ↔ next.toNat = product.toNat * size.toNat := by
  rw [product?_eq_some_iff, UInt32.toNat_toUInt64]

/-- What is multiplied up is the exact product. -/
theorem multipliesUp_iff : MultipliesUp product axes volume ↔
    (∀ a ∈ axes, 2 ≤ a.toNat) ∧ volume.toNat = product.toNat * axesProduct axes := by
  constructor
  · intro h
    induction h with
    | done => exact ⟨List.forall_mem_nil _, (Nat.mul_one _).symm⟩
    | step hsize hnext _ ih =>
      obtain ⟨hthick, hvolume⟩ := ih
      rw [product?_size_eq_some_iff] at hnext
      refine ⟨List.forall_mem_cons.mpr ⟨hsize, hthick⟩, ?_⟩
      rw [hvolume, hnext, axesProduct, Nat.mul_assoc]
  · rintro ⟨hthick, hvolume⟩
    induction axes generalizing product with
    | nil =>
      rw [axesProduct, Nat.mul_one] at hvolume
      rw [UInt64.toNat_inj.mp hvolume]
      exact .done
    | cons size axes ih =>
      obtain ⟨hsize, hrest⟩ := List.forall_mem_cons.mp hthick
      rw [axesProduct, ← Nat.mul_assoc] at hvolume
      -- The product so far is not greater than the last one, which fits, for no size behind it is zero.
      have hle : product.toNat * size.toNat ≤ volume.toNat := by
        rw [hvolume]
        exact Nat.le_mul_of_pos_right _ (Shape.axesProduct_pos hrest)
      have hfits : product.toNat * size.toUInt64.toNat < UInt64.size := by
        rw [UInt32.toNat_toUInt64]
        exact hle.trans_lt volume.toNat_lt
      obtain ⟨hnext, hexact⟩ := product?_of_lt hfits
      rw [UInt32.toNat_toUInt64] at hexact
      rw [← hexact] at hvolume
      exact .step hsize hnext (ih hrest hvolume)

/-- **Sizes can be multiplied up exactly when they are two at least and their exact product fits 64 bits.** -/
theorem exists_multipliesUp_iff : (∃ volume, MultipliesUp 1 axes volume) ↔ ValidAxes axes := by
  have hone : (1 : UInt64).toNat * axesProduct axes = axesProduct axes := Nat.one_mul _
  simp only [multipliesUp_iff, hone, exists_and_left]
  refine and_congr_right fun _ => ⟨?_, fun hfits => ?_⟩
  · rintro ⟨volume, hvolume⟩
    rw [← hvolume]
    exact volume.toNat_lt
  · exact ⟨.ofNat (axesProduct axes), UInt64.toNat_ofNat_of_lt' hfits⟩

/-- Multiplying up goes through, or it stops in front of a size that is too small or takes the product out
of 64 bits. -/
theorem multipliesUp_or_stops (axes : List UInt32) : ∀ product : UInt64,
    (∃ volume, MultipliesUp product axes volume) ∨
      ∃ front size behind stop, axes = front ++ size :: behind ∧ MultipliesUp product front stop ∧
        (size.toNat < 2 ∨ 2 ≤ size.toNat ∧ product? stop size.toUInt64 = none) := by
  induction axes with
  | nil => exact fun product => Or.inl ⟨product, .done⟩
  | cons size axes ih =>
    intro product
    by_cases hsize : 2 ≤ size.toNat
    · cases hnext : product? product size.toUInt64 with
      | none => exact Or.inr ⟨[], size, axes, product, rfl, .done, Or.inr ⟨hsize, hnext⟩⟩
      | some next =>
        rcases ih next with ⟨volume, hvolume⟩ | ⟨front, last, behind, stop, rfl, hfront, hstop⟩
        · exact Or.inl ⟨volume, .step hsize hnext hvolume⟩
        · exact Or.inr ⟨size :: front, last, behind, stop, rfl, .step hsize hnext hfront, hstop⟩
    · exact Or.inr ⟨[], size, axes, product, rfl, .done, Or.inl (Nat.lt_of_not_le hsize)⟩

namespace Shape

/-! ### The check of sizes -/

/-- The check goes on behind sizes that can be multiplied up. -/
theorem firstFault_append {all : List UInt32} (h : MultipliesUp product front stop) (axis : ℕ) :
    firstFault all axis product.toNat (front ++ rest) =
      firstFault all (axis + front.length) stop.toNat rest := by
  induction h generalizing axis with
  | done => rfl
  | @step product next volume size axes hsize hnext _ ih =>
    rw [product?_size_eq_some_iff] at hnext
    have hthick : ¬ size < 2 := UInt32.not_lt.mpr (UInt32.le_iff_toNat_le.mpr hsize)
    have hfits : next.toNat < UInt64.size := next.toNat_lt
    rw [List.cons_append, firstFault, if_neg hthick, ← hnext, if_pos hfits, ih, List.length_cons,
      Nat.add_right_comm, Nat.add_assoc]

/-- The first fault of sizes: those in front of it can be multiplied up. -/
inductive FirstFault (axes : List UInt32) : ShapeFault → Prop
  /-- A size is too small. -/
  | thin {front behind : List UInt32} {size : UInt32} {product : UInt64}
      (haxes : axes = front ++ size :: behind) (hfront : MultipliesUp 1 front product)
      (hthin : size.toNat < 2) : FirstFault axes (.thinAxis front.length size)
  /-- A size takes the product out of 64 bits. -/
  | overflow {front behind : List UInt32} {size : UInt32} {product : UInt64}
      (haxes : axes = front ++ size :: behind) (hfront : MultipliesUp 1 front product)
      (hsize : 2 ≤ size.toNat) (hproduct : product? product size.toUInt64 = none) :
      FirstFault axes (.overflow axes)

variable {fault : ShapeFault}

theorem FirstFault.firstFault_eq (h : FirstFault axes fault) : firstFault axes 0 1 axes = some fault := by
  cases h with
  | @thin front behind size product haxes hfront hthin =>
    have hstart : firstFault axes 0 1 (front ++ size :: behind) = _ := firstFault_append hfront 0
    have hlt : size < 2 := UInt32.lt_iff_toNat_lt.mpr hthin
    rw [← haxes, firstFault, if_pos hlt, Nat.zero_add] at hstart
    exact hstart
  | @overflow front behind size product haxes hfront hsize hproduct =>
    have hstart : firstFault axes 0 1 (front ++ size :: behind) = _ := firstFault_append hfront 0
    have hthick : ¬ size < 2 := UInt32.not_lt.mpr (UInt32.le_iff_toNat_le.mpr hsize)
    have hover : ¬ product.toNat * size.toNat < UInt64.size := by
      intro hfits
      rw [← UInt32.toNat_toUInt64] at hfits
      exact Option.some_ne_none _ ((product?_of_lt hfits).1.symm.trans hproduct)
    rw [← haxes, firstFault, if_neg hthick, if_neg hover] at hstart
    exact hstart

/-- Sizes that cannot be multiplied up have a first fault. -/
theorem exists_multipliesUp_or_firstFault (axes : List UInt32) :
    (∃ volume, MultipliesUp 1 axes volume) ∨ ∃ fault, FirstFault axes fault := by
  rcases multipliesUp_or_stops axes 1 with hvolume | ⟨front, size, behind, stop, haxes, hfront, hstop⟩
  · exact Or.inl hvolume
  · rcases hstop with hthin | ⟨hsize, hproduct⟩
    · exact Or.inr ⟨_, .thin haxes hfront hthin⟩
    · exact Or.inr ⟨_, .overflow haxes hfront hsize hproduct⟩

theorem ofAxes_eq_error_iff_firstFault :
    ofAxes axes = .error fault ↔ firstFault axes 0 1 axes = some fault := by
  unfold ofAxes
  split
  · rename_i hnone
    exact iff_of_false nofun fun hsome => nomatch hnone.symm.trans hsome
  · rename_i other hsome
    rw [hsome, Except.error.injEq, Option.some.injEq]

/-- **The fault that is reported is the first one.** -/
theorem ofAxes_eq_error_iff : ofAxes axes = .error fault ↔ FirstFault axes fault := by
  rw [ofAxes_eq_error_iff_firstFault]
  constructor
  · intro hfault
    -- There is a first fault, since the sizes are not accepted, and it is what the check comes to as well.
    rcases exists_multipliesUp_or_firstFault axes with hvolume | ⟨other, hother⟩
    · have hnone := isNone_firstFault_iff.mpr (exists_multipliesUp_iff.mp hvolume)
      rw [hfault] at hnone
      exact nomatch hnone
    · have heq := hother.firstFault_eq
      rw [hfault] at heq
      rwa [Option.some.inj heq]
  · exact FirstFault.firstFault_eq

theorem exists_ofAxes_iff : (∃ shape, ofAxes axes = .ok shape) ↔ ValidAxes axes := by
  constructor
  · rintro ⟨shape, hshape⟩
    rw [← ofAxes_eq_ok_iff.mp hshape]
    exact shape.valid
  · exact fun hvalid => ⟨⟨axes, hvalid⟩, ofAxes_eq_ok_iff.mpr rfl⟩

/-! ### Where shapes come from -/

/-- Where a shape comes from. -/
inductive Origin where
  /-- The shape without axes. -/
  | scalar
  /-- A list of sizes. -/
  | sizes (axes : List UInt32)
  /-- A text. -/
  | text (text : List Char)
  /-- The front of some bytes, as they stand in a message. -/
  | wire (bytes : List UInt8)
  /-- A JSON text, in which a reader of JSON finds a list of 32-bit numbers, or does not. -/
  | json (read : List Char → Option (List UInt32)) (text : List Char)
  /-- The prime factors of a number. -/
  | number (n : UInt32)
  /-- The refinement of a shape. -/
  | refinement (origin : Origin)

namespace Origin

/-- The shape that comes from there, if there is one. -/
def shape? : Origin → Option Shape
  | scalar => some .scalar
  | sizes axes => (ofAxes axes).toOption
  | text s => (ofText s).toOption
  | wire bytes => ((Wire.shape bytes).map Prod.fst).toOption
  | json read s => (read s).bind fun axes => (ofAxes axes).toOption
  | number n => (factorize n).toOption
  | refinement origin => origin.shape?.map canonical

/-- The sizes that come from there. Those that are read can be multiplied up; the prime factors of a number
and those of the sizes of a shape are taken as they are. -/
inductive Yields : Origin → List UInt32 → Prop
  /-- There are no sizes. -/
  | scalar : Yields .scalar []
  /-- The sizes of a list. -/
  | sizes {axes : List UInt32} {volume : UInt64} (h : MultipliesUp 1 axes volume) :
      Yields (.sizes axes) axes
  /-- The sizes that a text spells. -/
  | text {s : List Char} {axes : List UInt32} {volume : UInt64} (hspells : Spells s axes)
      (h : MultipliesUp 1 axes volume) : Yields (.text s) axes
  /-- The sizes behind their number, with anything following. -/
  | wire {axes : List UInt32} {volume : UInt64} (rest : List UInt8)
      (h : MultipliesUp 1 axes volume) : Yields (.wire (wordListBytes axes ++ rest)) axes
  /-- The sizes that a reader finds. -/
  | json {read : List Char → Option (List UInt32)} {s : List Char} {axes : List UInt32} {volume : UInt64}
      (hread : read s = some axes) (h : MultipliesUp 1 axes volume) : Yields (.json read s) axes
  /-- The prime factors of a number. -/
  | number {n : UInt32} (h : n ≠ 0) : Yields (.number n) (primeFactors n)
  /-- The prime factors of all sizes, one after the other. -/
  | refinement {origin : Origin} {axes : List UInt32} (h : Yields origin axes) :
      Yields (.refinement origin) (axes.flatMap primeFactors)

variable {origin : Origin} {shape : Shape}

/-- **All sizes that come from anywhere are two at least, and their exact product fits 64 bits.** -/
theorem Yields.valid (h : origin.Yields axes) : ValidAxes axes := by
  induction h with
  | scalar => exact Shape.scalar.valid
  | sizes h => exact exists_multipliesUp_iff.mp ⟨_, h⟩
  | text _ h => exact exists_multipliesUp_iff.mp ⟨_, h⟩
  | wire _ h => exact exists_multipliesUp_iff.mp ⟨_, h⟩
  | json _ h => exact exists_multipliesUp_iff.mp ⟨_, h⟩
  -- No check stands behind the last two: trial division keeps the product, so that it fits as before.
  | @number n hn =>
    obtain ⟨hthick, hproduct⟩ := primeFactors_valid n hn
    refine ⟨hthick, ?_⟩
    rw [hproduct]
    exact n.toNat_lt.trans (by decide)
  | refinement _ ih =>
    obtain ⟨hthick, hproduct⟩ := flatMap_primeFactors_valid _ ih.1
    refine ⟨hthick, ?_⟩
    rw [hproduct]
    exact ih.2

theorem exists_multipliesUp (shape : Shape) : ∃ volume, MultipliesUp 1 shape.axes volume :=
  exists_multipliesUp_iff.mpr shape.valid

theorem exists_axes_eq (h : MultipliesUp 1 axes volume) : ∃ shape : Shape, shape.axes = axes :=
  ⟨⟨axes, exists_multipliesUp_iff.mp ⟨volume, h⟩⟩, rfl⟩

theorem wire_shape? (shape : Shape) (rest : List UInt8) :
    (wire (wordListBytes shape.axes ++ rest)).shape? = some shape := by
  have hread : Wire.shape (wordListBytes shape.axes ++ rest) = .ok (shape, rest) :=
    Wire.shape_inverts.read_append trivial rest
  exact toOption_eq_some_iff.mpr (map_eq_ok_iff.mpr ⟨_, hread, rfl⟩)

/-- What a shape that comes from there is made of. -/
theorem yields_of_shape? (h : origin.shape? = some shape) : origin.Yields shape.axes := by
  induction origin generalizing shape with
  | scalar =>
    obtain rfl := Option.some.inj h
    exact .scalar
  | sizes axes =>
    obtain ⟨volume, hvolume⟩ := exists_multipliesUp shape
    obtain rfl := ofAxes_eq_ok_iff.mp (toOption_eq_some_iff.mp h)
    exact .sizes hvolume
  | text s =>
    obtain ⟨volume, hvolume⟩ := exists_multipliesUp shape
    exact .text (ofText_eq_ok_iff.mp (toOption_eq_some_iff.mp h)) hvolume
  | wire bytes =>
    obtain ⟨volume, hvolume⟩ := exists_multipliesUp shape
    obtain ⟨⟨read, rest⟩, hread, rfl⟩ := map_eq_ok_iff.mp (toOption_eq_some_iff.mp h)
    obtain ⟨-, rfl⟩ := Wire.shape_inverts.eq_ok_iff.mp hread
    exact .wire rest hvolume
  | json read s =>
    obtain ⟨volume, hvolume⟩ := exists_multipliesUp shape
    obtain ⟨axes, hread, hshape⟩ := Option.bind_eq_some_iff.mp h
    obtain rfl := ofAxes_eq_ok_iff.mp (toOption_eq_some_iff.mp hshape)
    exact .json hread hvolume
  | number n =>
    have hfactorize := toOption_eq_some_iff.mp h
    have hn : n ≠ 0 := by
      rintro rfl
      exact nomatch hfactorize
    obtain ⟨factors, hfactors, haxes⟩ := factorize_of_ne hn
    obtain rfl := Except.ok.inj (hfactors.symm.trans hfactorize)
    rw [haxes]
    exact .number hn
  | refinement origin ih =>
    obtain ⟨refined, hrefined, rfl⟩ := Option.map_eq_some_iff.mp h
    exact .refinement (ih hrefined)

/-- Sizes that come from there are those of a shape that does. -/
theorem Yields.exists_shape? (h : origin.Yields axes) :
    ∃ shape, origin.shape? = some shape ∧ shape.axes = axes := by
  induction h with
  | scalar => exact ⟨.scalar, rfl, rfl⟩
  | sizes h =>
    obtain ⟨shape, rfl⟩ := exists_axes_eq h
    exact ⟨shape, toOption_eq_some_iff.mpr (ofAxes_eq_ok_iff.mpr rfl), rfl⟩
  | text hspells h =>
    obtain ⟨shape, rfl⟩ := exists_axes_eq h
    exact ⟨shape, toOption_eq_some_iff.mpr (ofText_eq_ok_iff.mpr hspells), rfl⟩
  | wire rest h =>
    obtain ⟨shape, rfl⟩ := exists_axes_eq h
    exact ⟨shape, wire_shape? shape rest, rfl⟩
  | json hread h =>
    obtain ⟨shape, rfl⟩ := exists_axes_eq h
    have hshape := toOption_eq_some_iff.mpr (ofAxes_eq_ok_iff.mpr (Eq.refl shape.axes))
    exact ⟨shape, Option.bind_eq_some_iff.mpr ⟨shape.axes, hread, hshape⟩, rfl⟩
  | number hn =>
    obtain ⟨shape, hshape, haxes⟩ := factorize_of_ne hn
    exact ⟨shape, toOption_eq_some_iff.mpr hshape, haxes⟩
  | refinement _ ih =>
    obtain ⟨shape, hshape, rfl⟩ := ih
    exact ⟨shape.canonical, Option.map_eq_some_iff.mpr ⟨shape, hshape, rfl⟩, rfl⟩

/-- The sizes that come from there are those of the shapes that do. -/
theorem exists_shape?_iff :
    (∃ shape, origin.shape? = some shape ∧ shape.axes = axes) ↔ origin.Yields axes := by
  constructor
  · rintro ⟨shape, hshape, rfl⟩
    exact yields_of_shape? hshape
  · exact Yields.exists_shape?

/-- The shape in a message is the one at the front of its bytes behind the schema version, the number of the
payload and the id. -/
theorem shape?_of_decode {bytes : List UInt8} {message : Message} {snapshot : Snapshot}
    (hdecode : Message.decode bytes = .ok message) (hsnapshot : message.snapshot? = some snapshot) :
    (wire (bytes.drop 10)).shape? = some snapshot.shape := by
  obtain ⟨-, -, tail, rfl⟩ := Message.decode_eq_ok_iff.mp hdecode
  obtain ⟨schema, payload⟩ := message
  cases payload with
  | acknowledgment ack => exact nomatch hsnapshot
  | snapshot content =>
    obtain rfl := Option.some.inj hsnapshot
    have hlength : (littleEndian 2 schema.toNat ++ (littleEndian 4 0 ++ wordBytes content.id.value)).length =
        10 := by
      simp only [wordBytes, List.length_append, length_littleEndian]
    obtain ⟨rest, hbytes⟩ : ∃ rest, Message.encode ⟨schema, .snapshot content⟩ ++ tail =
        littleEndian 2 schema.toNat ++ (littleEndian 4 0 ++ wordBytes content.id.value) ++
          (wordListBytes content.shape.axes ++ rest) := by
      simp only [Message.encode, Payload.encode, Snapshot.encode, List.append_assoc]
      exact ⟨_, rfl⟩
    rw [hbytes, List.drop_left' hlength]
    exact wire_shape? content.shape rest

end Origin

/-! ### Measures -/

/-- What is computed in 64 bits for a shape is exact. -/
structure Measured (shape : Shape) : Prop where
  /-- Every product on the way to the volume fits. -/
  multipliesUp : MultipliesUp 1 shape.axes shape.volume
  volume_eq : shape.volume.toNat = axesProduct shape.axes
  /-- Every product on the way to the strides fits. -/
  checkedStrides_eq : checkedStrides shape.axes = some (shape.strides, shape.volume)
  length_strides : shape.strides.length = shape.rank
  /-- A stride is the product of the sizes behind its axis. -/
  stride_eq : ∀ axis stride, shape.strides[axis]? = some stride →
    stride.toNat = axesProduct (shape.axes.drop (axis + 1))
  /-- The stride of the first axis times its size is the volume. -/
  first_stride : ∀ size, shape.axes.head? = some size →
    ∃ stride, shape.strides.head? = some stride ∧ product? stride size.toUInt64 = some shape.volume
  rank_le : shape.rank ≤ 63

variable {shape : Shape}

theorem exists_first_stride {size : UInt32} (hsize : shape.axes.head? = some size) :
    ∃ stride, shape.strides.head? = some stride ∧ product? stride size.toUInt64 = some shape.volume := by
  obtain ⟨axes, haxes⟩ := List.head?_eq_some_iff.mp hsize
  have hstrides : shape.strides = (stridesAndVolume axes).2 :: (stridesAndVolume axes).1 := by
    rw [strides, haxes, stridesAndVolume]
  have hstride : (stridesAndVolume axes).2.toNat = axesProduct axes := by
    have hvalid := shape.valid
    rw [haxes] at hvalid
    exact (checkedStrides_eq hvalid.tail).2
  refine ⟨(stridesAndVolume axes).2, by rw [hstrides, List.head?_cons], ?_⟩
  rw [product?_size_eq_some_iff, toNat_volume, hstride, haxes, axesProduct, Nat.mul_comm]

theorem measured (shape : Shape) : shape.Measured where
  multipliesUp := by
    have hvolume : shape.volume.toNat = (1 : UInt64).toNat * axesProduct shape.axes := by
      rw [toNat_volume]
      exact (Nat.one_mul _).symm
    exact multipliesUp_iff.mpr ⟨shape.valid.1, hvolume⟩
  volume_eq := shape.toNat_volume
  checkedStrides_eq := shape.checkedStrides_axes
  length_strides := Shape.length_strides shape.axes
  stride_eq _ _ := toNat_stride shape.valid
  first_stride _ := exists_first_stride
  rank_le := Nat.le_of_lt_succ shape.rank_lt

/-- **No shape can overflow.** A list of sizes is accepted exactly when each of them is two at least and
their exact product fits 64 bits, which is when they can be multiplied up one by one; the fault of other lists
is the first one on the way. Wherever a shape comes from, its sizes are of this kind, also where no check is
made. So volume and strides are exact for every shape, and there are 63 axes at most. -/
theorem never_overflows :
    (∀ axes, (∃ shape, ofAxes axes = .ok shape) ↔
      (∀ a ∈ axes, 2 ≤ a.toNat) ∧ axesProduct axes < UInt64.size) ∧
    (∀ axes shape, ofAxes axes = .ok shape ↔ shape.axes = axes ∧ MultipliesUp 1 axes shape.volume) ∧
    (∀ axes fault, ofAxes axes = .error fault ↔ FirstFault axes fault) ∧
    (∀ (origin : Origin) axes,
      (∃ shape, origin.shape? = some shape ∧ shape.axes = axes) ↔ origin.Yields axes) ∧
    (∀ (origin : Origin) axes, origin.Yields axes →
      (∀ a ∈ axes, 2 ≤ a.toNat) ∧ axesProduct axes < UInt64.size) ∧
    (∀ bytes message snapshot, Message.decode bytes = .ok message → message.snapshot? = some snapshot →
      (Origin.wire (bytes.drop 10)).shape? = some snapshot.shape) ∧
    ∀ shape : Shape, shape.Measured := by
  refine ⟨fun axes => exists_ofAxes_iff, fun axes shape => ?_, fun axes fault => ofAxes_eq_error_iff,
    fun origin axes => Origin.exists_shape?_iff, fun origin axes => Origin.Yields.valid,
    fun bytes message snapshot => Origin.shape?_of_decode, measured⟩
  rw [ofAxes_eq_ok_iff]
  refine (and_iff_left_of_imp ?_).symm
  rintro rfl
  exact shape.measured.multipliesUp

/-- A shape with the greatest volume that 64 bits can hold. -/
def brimful : Shape := ⟨[3, 5, 17, 257, 65537, 641, 6700417], by decide⟩

/-- A message with a snapshot that announces the shape, though it holds none of its elements. -/
def announcement : Message := .ofSnapshot ⟨⟨7⟩, brimful, 9, 0xBAD, #[]⟩

/-- The greatest volume is reached by the refinement of what a text spells and by what a message announces.
Another axis is refused, and of two small sizes the first one is reported. -/
theorem never_overflows_brimful :
    axesProduct brimful.axes + 1 = UInt64.size ∧ brimful.volume = 18446744073709551615 ∧
    (∃ shape, ofAxes brimful.axes = .ok shape) ∧
    ofAxes (brimful.axes ++ [2]) = .error (.overflow (brimful.axes ++ [2])) ∧
    ofAxes [2, 1, 0] = .error (.thinAxis 1 1) ∧
    (∃ shape, (Origin.refinement (.text "4294967295, 641, 6700417".toList)).shape? = some shape ∧
      shape.axes = brimful.axes) ∧
    (∀ a ∈ brimful.axes, 2 ≤ a.toNat) ∧
    (Origin.wire (announcement.encode.drop 10)).shape? = some brimful ∧
    ∃ stride, brimful.strides.head? = some stride ∧ product? stride 3 = some brimful.volume := by
  obtain ⟨haccepts, -, hfault, horigin, hyields, hmessage, hmeasured⟩ := never_overflows
  have hproduct : axesProduct brimful.axes + 1 = UInt64.size := by decide +kernel
  have hvolume : brimful.volume = 18446744073709551615 := by decide +kernel
  have hthick : ∀ a ∈ brimful.axes, 2 ≤ a.toNat := brimful.valid.1
  have hup : MultipliesUp 1 brimful.axes brimful.volume := (hmeasured brimful).multipliesUp
  have htext : Origin.Yields (.text "4294967295, 641, 6700417".toList) [4294967295, 641, 6700417] :=
    (horigin _ _).mp ⟨⟨[4294967295, 641, 6700417], by decide⟩, by decide +kernel, rfl⟩
  have hfactors : [4294967295, 641, 6700417].flatMap primeFactors = brimful.axes := by decide +kernel
  have hrefined := Origin.Yields.refinement htext
  rw [hfactors] at hrefined
  refine ⟨hproduct, hvolume, (haccepts _).mpr ⟨hthick, by omega⟩, ?_, ?_, (horigin _ _).mpr hrefined,
    (hyields _ _ hrefined).1, ?_, ?_⟩
  · refine (hfault _ _).mpr (.overflow rfl hup (by decide) ?_)
    rw [hvolume]
    decide
  · exact (hfault _ _).mpr (.thin rfl (.step (by decide) rfl .done) (by decide))
  · have hcount : announcement.Countable := Nat.zero_lt_succ _
    exact hmessage _ announcement _ (Message.decode_encode rfl hcount) rfl
  · exact (hmeasured brimful).first_stride 3 rfl

/-- There are shapes of 63 axes, but none of 64. -/
example : (ofAxes (List.replicate 63 2)).map rank = .ok 63 ∧
    ofAxes (List.replicate 64 2) = .error (.overflow (List.replicate 64 2)) := by decide +kernel

end Shape

end Membranes
