import Mathlib.Data.Set.Card
import Mathlib.Order.Interval.Set.Nat
import Membranes.Proofs.Store.Elements

/-!
# Giving a buffer another shape

* `Shape.lexRank` counts the coordinates in front of one in lexicographic order, and `InBounds.lexRank_eq`
  says that this is its place. So two shapes of one volume have the same ranks, and each coordinate of
  the one has a partner in the other (`existsUnique_lexRank_eq`).
* `Sound.exists_reshape_iff`: the volume that a membrane has is within the limits already, so that only the
  axes of the new shape are in question.
* `Reachable.reshape_relabels`: what a coordinate reads after a change of the shape is what its partner read
  before, and another change takes back the first.
-/

namespace Membranes

/-! ### Ranks of coordinates -/

namespace Shape

variable {shape other : Shape} {indices : List UInt32}

/-- How many coordinates of the shape come before the given one. -/
noncomputable def lexRank (shape : Shape) (indices : List UInt32) : ℕ :=
  {before | shape.InBounds before ∧ before < indices}.ncard

theorem InBounds.lexRank_eq (h : shape.InBounds indices) :
    shape.lexRank indices = placeIn shape.axes indices := by
  -- The places of the coordinates in front are all numbers below the place of this one.
  have hplaces : placeIn shape.axes '' {before | shape.InBounds before ∧ before < indices} =
      Set.Iio (placeIn shape.axes indices) := by
    ext place
    constructor
    · rintro ⟨before, ⟨hbounds, hlt⟩, rfl⟩
      exact (placeIn_lt_placeIn_iff hbounds h).mpr hlt
    · intro hlt
      obtain ⟨before, hbounds, rfl⟩ := exists_placeIn (Nat.lt_trans hlt (placeIn_lt h))
      exact ⟨before, ⟨hbounds, (placeIn_lt_placeIn_iff hbounds h).mp hlt⟩, rfl⟩
  have hinj : Set.InjOn (placeIn shape.axes) {before | shape.InBounds before ∧ before < indices} :=
    fun _ hfirst _ hsecond heq => placeIn_inj hfirst.1 hsecond.1 heq
  rw [lexRank, ← hinj.ncard_image, hplaces, Set.ncard_Iio_nat]

theorem InBounds.offset_eq_lexRank (h : shape.InBounds indices) :
    shape.offset indices = .ok (shape.lexRank indices) := by
  rw [h.lexRank_eq, h.offset_eq]

/-- In another shape of the same volume each coordinate has one partner of the same rank. -/
theorem existsUnique_lexRank_eq (hvolume : shape.volume = other.volume) (h : shape.InBounds indices) :
    ∃! partner, other.InBounds partner ∧ other.lexRank partner = shape.lexRank indices := by
  have hlt : shape.lexRank indices < other.volume.toNat :=
    hvolume ▸ offset_lt_volume h.offset_eq_lexRank
  obtain ⟨partner, hpartner, hunique⟩ := existsUnique_offset_eq hlt
  have hbounds : other.InBounds partner := exists_offset_iff.mp ⟨_, hpartner⟩
  refine ⟨partner, ⟨hbounds, ?_⟩, ?_⟩
  · exact Except.ok.inj (hbounds.offset_eq_lexRank.symm.trans hpartner)
  · rintro candidate ⟨hcandidate, hrank⟩
    exact hunique candidate (hrank ▸ hcandidate.offset_eq_lexRank)

end Shape

/-! ### What a new shape reads -/

/-- A sound membrane that gets its content back after another one differs by two versions and two
operations: the checksum that is computed anew is the one that it had. -/
theorem Membrane.Sound.withContent_back {limits : Limits} {id : MembraneId} {membrane : Membrane}
    (h : membrane.Sound limits id) (shape : Shape) (buffer : Array Binary32) :
    (membrane.withContent shape buffer).withContent membrane.shape membrane.buffer =
      { membrane with version := membrane.version + 2, operations := membrane.operations + 2 } := by
  have hversion : membrane.version + 1 + 1 = membrane.version + 2 := UInt64.add_assoc _ 1 1
  have hoperations : membrane.operations + 1 + 1 = membrane.operations + 2 := UInt64.add_assoc _ 1 1
  show { membrane with version := membrane.version + 1 + 1, operations := membrane.operations + 1 + 1,
                       checksum := checksumOf membrane.shape membrane.buffer } = _
  rw [hversion, hoperations, ← h.checksum_eq]

namespace Store

variable {store after : Store} {id : MembraneId} {membrane : Membrane} {shape : Shape}

theorem reshape_of_admits (hfind : store.membranes.find? id = some membrane)
    (hadmits : store.config.limits.Admits shape) (hvolume : membrane.shape.volume = shape.volume) :
    store.reshape id shape =
      ⟨.ok (), store.put id (membrane.withContent shape membrane.buffer)⟩ := by
  have hreshaped : membrane.reshaped shape = .ok (membrane.withContent shape membrane.buffer) :=
    Membrane.reshaped_eq_ok_iff.mpr ⟨hvolume, rfl⟩
  unfold Store.reshape
  rw [membrane_of_find? hfind, checkShape_eq_ok_iff.mpr hadmits]
  show store.update id _ = _
  apply update_of_ok hfind
  rw [hreshaped]
  rfl

theorem eq_of_reshape (hfind : store.membranes.find? id = some membrane)
    (hreshape : store.reshape id shape = ⟨.ok (), after⟩) :
    store.config.limits.Admits shape ∧ membrane.shape.volume = shape.volume ∧
      after = store.put id (membrane.withContent shape membrane.buffer) := by
  obtain ⟨current, hcurrent, hadmits, hvolume, rfl⟩ := (store.reshape_atomically id shape).of_eq_ok hreshape
  obtain rfl := Option.some.inj (hfind.symm.trans hcurrent)
  exact ⟨hadmits, hvolume, rfl⟩

/-- A membrane takes the shapes of its volume that have an axis, and not too many of them. -/
theorem Sound.exists_reshape_iff (h : store.Sound) (hfind : store.membranes.find? id = some membrane)
    (shape : Shape) :
    (∃ after, store.reshape id shape = ⟨.ok (), after⟩) ↔
      shape.axes ≠ [] ∧ shape.rank ≤ store.config.limits.maxAxes.toNat ∧
        shape.volume = membrane.shape.volume := by
  have haxes : shape.isScalar = false ↔ shape.axes ≠ [] := List.isEmpty_eq_false_iff
  constructor
  · rintro ⟨after, hreshape⟩
    obtain ⟨hadmits, hvolume, -⟩ := eq_of_reshape hfind hreshape
    exact ⟨haxes.mp hadmits.hasAxis, hadmits.rank_le, hvolume.symm⟩
  · rintro ⟨hnonempty, hrank, hvolume⟩
    have hwithin : shape.volume ≤ store.config.limits.maxVolume :=
      hvolume ▸ (h.membrane hfind).admits.volume_le
    exact ⟨_, reshape_of_admits hfind ⟨haxes.mpr hnonempty, hrank, hwithin⟩ hvolume.symm⟩

/-- What a new shape reads under a coordinate is in the same place of the same buffer. -/
theorem Sound.get_of_reshape (h : store.Sound) (hfind : store.membranes.find? id = some membrane)
    (hreshape : store.reshape id shape = ⟨.ok (), after⟩) {indices partner : List UInt32}
    (hindices : shape.InBounds indices) (hpartner : membrane.shape.InBounds partner)
    (hrank : membrane.shape.lexRank partner = shape.lexRank indices) :
    ∃ value, store.get id partner = .ok value ∧ after.get id indices = .ok value := by
  obtain ⟨-, -, rfl⟩ := eq_of_reshape hfind hreshape
  -- Equal ranks are equal places, and the buffer is the same one.
  have hbefore : membrane.offset partner = .ok (shape.lexRank indices) :=
    Membrane.offset_eq_ok_iff.mpr (hrank ▸ hpartner.offset_eq_lexRank)
  have hafter : (membrane.withContent shape membrane.buffer).offset indices =
      .ok (shape.lexRank indices) := Membrane.offset_eq_ok_iff.mpr hindices.offset_eq_lexRank
  have hplace := Array.getElem?_eq_getElem ((h.membrane hfind).lt_size hbefore)
  rw [get_of_find? hfind, get_put]
  exact ⟨_, Membrane.element_of_offset hbefore hplace, Membrane.element_of_offset hafter hplace⟩

/-- The first shape is within the limits still, and gives the membrane back its content. -/
theorem Sound.reshape_back (h : store.Sound) (hfind : store.membranes.find? id = some membrane)
    (hreshape : store.reshape id shape = ⟨.ok (), after⟩) :
    after.reshape id membrane.shape = ⟨.ok (), store.put id { membrane with
      version := membrane.version + 2, operations := membrane.operations + 2 }⟩ := by
  obtain ⟨-, hvolume, rfl⟩ := eq_of_reshape hfind hreshape
  have hsound := h.membrane hfind
  have hrestored := hsound.withContent_back shape membrane.buffer
  rw [reshape_of_admits (find?_put_self store id _) hsound.admits hvolume.symm, put_put]
  exact congrArg (fun restored => (⟨.ok (), store.put id restored⟩ : Outcome Unit)) hrestored

/-! ### Reachable stores -/

/-- A change of the shape of a membrane is a change of the coordinates of its elements and no more. -/
structure Relabels (store : Store) (id : MembraneId) (membrane : Membrane) (shape : Shape)
    (after : Store) : Prop where
  /-- A coordinate reads what the one coordinate of the former shape with the same rank did. -/
  get : ∀ indices, shape.InBounds indices → ∃ partner value,
    (membrane.shape.InBounds partner ∧ membrane.shape.lexRank partner = shape.lexRank indices ∧
      ∀ other, membrane.shape.InBounds other →
        membrane.shape.lexRank other = shape.lexRank indices → other = partner) ∧
      store.get id partner = .ok value ∧ after.get id indices = .ok value
  /-- Elements, symbols, energy, owner and children are as they were, in this and in all other
  membranes. -/
  after_eq : after = store.put id { membrane with
    shape, checksum := checksumOf shape membrane.buffer, version := membrane.version + 1,
    operations := membrane.operations + 1 }
  /-- The former shape brings everything back but two versions and two operations. -/
  back : after.reshape id membrane.shape = ⟨.ok (), store.put id { membrane with
    version := membrane.version + 2, operations := membrane.operations + 2 }⟩
  /-- The version is two higher in fact, unless it is among the last two of all. -/
  version : membrane.version.toNat + 2 < UInt64.size →
    (membrane.version + 2).toNat = membrane.version.toNat + 2

/-- **Another shape relabels the elements of a membrane.** A live membrane takes a shape exactly if it has
an axis, not too many of them, and the volume of the membrane. -/
theorem Reachable.reshape_relabels (h : store.Reachable)
    (hfind : store.membranes.find? id = some membrane) (shape : Shape) :
    ((∃ after, store.reshape id shape = ⟨.ok (), after⟩) ↔
      shape.axes ≠ [] ∧ shape.rank ≤ store.config.limits.maxAxes.toNat ∧
        shape.volume = membrane.shape.volume) ∧
    ∀ after, store.reshape id shape = ⟨.ok (), after⟩ → store.Relabels id membrane shape after := by
  refine ⟨h.sound.exists_reshape_iff hfind shape, fun after hreshape => ?_⟩
  obtain ⟨-, hvolume, hafter⟩ := eq_of_reshape hfind hreshape
  refine ⟨fun indices hindices => ?_, hafter, h.sound.reshape_back hfind hreshape, fun hfits => ?_⟩
  · obtain ⟨partner, ⟨hpartner, hrank⟩, hunique⟩ :=
      Shape.existsUnique_lexRank_eq hvolume.symm hindices
    obtain ⟨value, hbefore, hget⟩ := h.sound.get_of_reshape hfind hreshape hindices hpartner hrank
    exact ⟨partner, value, ⟨hpartner, hrank, fun other hother heq => hunique other ⟨hother, heq⟩⟩,
      hbefore, hget⟩
  · rw [UInt64.toNat_add]
    exact Nat.mod_eq_of_lt hfits

/-- A shape of three rows with two places each. -/
def upright : Shape := ⟨[3, 2], by decide⟩

/-- On the board, the first element of the second row becomes the second one of that row with two places a
row. Two rows again put it back, and five places are refused. -/
theorem Reachable.reshape_relabels_board :
    board.Reachable ∧ ∃ membrane after, board.membranes.find? ⟨1⟩ = some membrane ∧
      membrane.shape = oblong ∧ board.reshape ⟨1⟩ upright = ⟨.ok (), after⟩ ∧
      board.get ⟨1⟩ [1, 0] = .ok ⟨0x3F800000⟩ ∧ after.get ⟨1⟩ [1, 1] = .ok ⟨0x3F800000⟩ ∧
      after.reshape ⟨1⟩ oblong = ⟨.ok (), board.put ⟨1⟩ { membrane with
        version := membrane.version + 2, operations := membrane.operations + 2 }⟩ ∧
      ¬ ∃ after, board.reshape ⟨1⟩ ⟨[5], by decide⟩ = ⟨.ok (), after⟩ := by
  have hreachable : board.Reachable := (Reachable.empty _ _).after _
  have hget : board.get ⟨1⟩ [1, 0] = .ok ⟨0x3F800000⟩ := by decide +kernel
  have hshape : (board.membranes.find? ⟨1⟩).map (·.shape) = some oblong := by decide +kernel
  obtain ⟨membrane, hfind, hshape⟩ := Option.map_eq_some_iff.mp hshape
  obtain ⟨htakes, hrelabels⟩ := hreachable.reshape_relabels hfind upright
  obtain ⟨after, hreshape⟩ := htakes.mpr ⟨by decide, by decide +kernel, by rw [hshape]; decide⟩
  have hafter := hrelabels after hreshape
  have hbefore : membrane.shape.InBounds [1, 0] := by
    rw [hshape]
    decide
  have hindices : upright.InBounds [1, 1] := by decide
  have hrank : membrane.shape.lexRank [1, 0] = upright.lexRank [1, 1] := by
    rw [hbefore.lexRank_eq, hindices.lexRank_eq, hshape]
    decide
  obtain ⟨partner, value, ⟨-, -, hunique⟩, hread, hget'⟩ := hafter.get [1, 1] hindices
  obtain rfl := hunique [1, 0] hbefore hrank
  obtain rfl := Except.ok.inj (hget.symm.trans hread)
  refine ⟨hreachable, membrane, after, hfind, hshape, hreshape, hget, hget', hshape ▸ hafter.back, ?_⟩
  intro hfive
  have hvolume := ((hreachable.reshape_relabels hfind _).1.mp hfive).2.2
  rw [hshape] at hvolume
  exact absurd hvolume (by decide)

end Store

end Membranes
