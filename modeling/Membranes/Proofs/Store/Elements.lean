import Membranes.Proofs.Exchange.Reachable
import Membranes.Proofs.Shape.Coordinate

/-!
# Elements under coordinates

* `Membrane.Sound.lt_size`: whatever place the shape of a sound membrane answers, its buffer has an element
  there.
* `Sound.inside`, `Sound.get_of_set`, `get_of_set_of_ne`, `set_comm_of_ne` and `Sound.get_of_fill` are the
  laws of an array; that different coordinates do not get into each other's way is `Shape.offset_inj`.
* `Store.Addressed` joins them, and `Reachable.elements_addressed` says that they hold of the live
  membranes of reachable stores.
-/

namespace Membranes

namespace Membrane

variable {limits : Limits} {id : MembraneId} {membrane : Membrane} {indices : List UInt32} {place : ℕ}

theorem offset_eq_ok_iff :
    membrane.offset indices = .ok place ↔ membrane.shape.offset indices = .ok place := by
  unfold Membrane.offset
  cases membrane.shape.offset indices <;> simp

theorem exists_offset_iff :
    (∃ place, membrane.offset indices = .ok place) ↔ membrane.shape.InBounds indices := by
  simp only [offset_eq_ok_iff]
  exact Shape.exists_offset_iff

/-- Different coordinates have different places. -/
theorem offset_inj {indices' : List UInt32} (h : membrane.offset indices = .ok place)
    (h' : membrane.offset indices' = .ok place) : indices = indices' :=
  Shape.offset_inj (offset_eq_ok_iff.mp h) (offset_eq_ok_iff.mp h')

/-- The places of a shape are inside the buffer that fills it. -/
theorem Sound.lt_size (h : membrane.Sound limits id) (hoffset : membrane.offset indices = .ok place) :
    place < membrane.buffer.size := by
  rw [h.size_eq]
  exact Shape.offset_lt_volume (offset_eq_ok_iff.mp hoffset)

theorem element_eq_ok_iff {value : Binary32} :
    membrane.element indices = .ok value ↔
      ∃ place, membrane.offset indices = .ok place ∧ membrane.buffer.getD place .zero = value := by
  unfold Membrane.element
  rw [bind_eq_ok_iff]
  simp only [pure_eq_ok_iff]

theorem element_of_offset (hoffset : membrane.offset indices = .ok place) {value : Binary32}
    (hvalue : membrane.buffer[place]? = some value) : membrane.element indices = .ok value := by
  refine element_eq_ok_iff.mpr ⟨place, hoffset, ?_⟩
  rw [Array.getD_eq_getD_getElem?, hvalue]
  rfl

theorem exists_element_iff :
    (∃ value, membrane.element indices = .ok value) ↔ membrane.shape.InBounds indices := by
  simp only [← exists_offset_iff, element_eq_ok_iff]
  exact ⟨fun ⟨_, place, hoffset, _⟩ => ⟨place, hoffset⟩, fun ⟨place, hoffset⟩ => ⟨_, place, hoffset, rfl⟩⟩

/-- The membrane with another value in one place of its buffer. -/
def withPlace (membrane : Membrane) (place : ℕ) (value : Binary32) : Membrane :=
  membrane.withContent membrane.shape (membrane.buffer.setIfInBounds place value)

theorem offset_withPlace (membrane : Membrane) (place : ℕ) (value : Binary32) (indices : List UInt32) :
    (membrane.withPlace place value).offset indices = membrane.offset indices := rfl

theorem withElement_of_offset (hoffset : membrane.offset indices = .ok place) (value : Binary32) :
    membrane.withElement indices value = .ok (membrane.withPlace place value) :=
  withElement_eq_ok_iff.mpr ⟨place, hoffset, rfl⟩

/-- Writing leaves the elements under all other indices alone; where there is none, there is none still. -/
theorem element_withPlace_of_ne {other : List UInt32} (hoffset : membrane.offset indices = .ok place)
    (hne : other ≠ indices) (value : Binary32) :
    (membrane.withPlace place value).element other = membrane.element other := by
  -- The shape is the same, so both sides look the place up in the same way before they read.
  show (do return (membrane.buffer.setIfInBounds place value).getD (← membrane.offset other) .zero) =
    (do return membrane.buffer.getD (← membrane.offset other) .zero : Except Refusal Binary32)
  cases hother : membrane.offset other with
  | error refusal => rfl
  | ok place' =>
    have hplaces : place ≠ place' := by
      rintro rfl
      exact hne (offset_inj hother hoffset)
    show Except.ok _ = Except.ok _
    rw [Array.getD_eq_getD_getElem?, Array.getElem?_setIfInBounds_ne hplaces,
      ← Array.getD_eq_getD_getElem?]

/-- Which of two places is written first makes no difference. -/
theorem withPlace_comm (membrane : Membrane) {place' : ℕ} (hne : place ≠ place') (value value' : Binary32) :
    (membrane.withPlace place value).withPlace place' value' =
      (membrane.withPlace place' value').withPlace place value := by
  have hbuffers : (membrane.buffer.setIfInBounds place value).setIfInBounds place' value' =
      (membrane.buffer.setIfInBounds place' value').setIfInBounds place value :=
    Array.setIfInBounds_comm value value' hne
  show (membrane.withContent membrane.shape _).withContent membrane.shape
    ((membrane.buffer.setIfInBounds place value).setIfInBounds place' value') = _
  rw [hbuffers]
  rfl

end Membrane

namespace Store

variable {store after : Store} {id : MembraneId} {membrane : Membrane} {indices : List UInt32} {place : ℕ}

theorem get_of_find? (hfind : store.membranes.find? id = some membrane) (indices : List UInt32) :
    store.get id indices = membrane.element indices := by
  unfold Store.get
  rw [membrane_of_find? hfind]
  rfl

theorem get_put (store : Store) (id : MembraneId) (membrane : Membrane) (indices : List UInt32) :
    (store.put id membrane).get id indices = membrane.element indices :=
  get_of_find? (store.find?_put_self id membrane) indices

theorem set_of_offset (hfind : store.membranes.find? id = some membrane)
    (hoffset : membrane.offset indices = .ok place) (value : Binary32) :
    store.set id indices value = ⟨.ok (), store.put id (membrane.withPlace place value)⟩ := by
  apply update_of_ok hfind
  rw [Membrane.withElement_of_offset hoffset]
  rfl

theorem set_put_of_offset (store : Store) (id : MembraneId)
    (hoffset : membrane.offset indices = .ok place) (value : Binary32) :
    (store.put id membrane).set id indices value =
      ⟨.ok (), store.put id (membrane.withPlace place value)⟩ := by
  rw [set_of_offset (store.find?_put_self id membrane) hoffset, put_put]

/-- What is written was written to a place of the shape. -/
theorem exists_offset_of_set (hfind : store.membranes.find? id = some membrane) {value : Binary32}
    (hset : store.set id indices value = ⟨.ok (), after⟩) :
    ∃ place, membrane.offset indices = .ok place ∧ after = store.put id (membrane.withPlace place value) := by
  obtain ⟨current, place, hcurrent, hoffset, rfl⟩ :=
    (store.set_atomically id indices value).of_eq_ok hset
  obtain rfl := Option.some.inj (hfind.symm.trans hcurrent)
  exact ⟨place, hoffset, rfl⟩

/-- Coordinates can be written, and nothing else. -/
theorem exists_set_iff (hfind : store.membranes.find? id = some membrane) (indices : List UInt32)
    (value : Binary32) :
    (∃ after, store.set id indices value = ⟨.ok (), after⟩) ↔ membrane.shape.InBounds indices := by
  rw [← Membrane.exists_offset_iff]
  constructor
  · rintro ⟨after, hset⟩
    obtain ⟨place, hoffset, -⟩ := exists_offset_of_set hfind hset
    exact ⟨place, hoffset⟩
  · rintro ⟨place, hoffset⟩
    exact ⟨_, set_of_offset hfind hoffset value⟩

/-- Elements are read and written inside the buffer. -/
theorem Sound.inside (h : store.Sound) (hfind : store.membranes.find? id = some membrane)
    (hoffset : membrane.offset indices = .ok place) :
    ∃ hplace : place < membrane.buffer.size, store.get id indices = .ok membrane.buffer[place] ∧
      ∀ value, store.set id indices value = ⟨.ok (), store.put id
        (membrane.withContent membrane.shape (membrane.buffer.set place value hplace))⟩ := by
  have hplace := (h.membrane hfind).lt_size hoffset
  refine ⟨hplace, ?_, fun value => ?_⟩
  · rw [get_of_find? hfind]
    exact Membrane.element_of_offset hoffset (Array.getElem?_eq_getElem hplace)
  · rw [set_of_offset hfind hoffset, Membrane.withPlace, Array.setIfInBounds_def, dif_pos hplace]

theorem Sound.get_of_set (h : store.Sound) (hfind : store.membranes.find? id = some membrane)
    {value : Binary32} (hset : store.set id indices value = ⟨.ok (), after⟩) :
    after.get id indices = .ok value := by
  obtain ⟨place, hoffset, rfl⟩ := exists_offset_of_set hfind hset
  have hplace := (h.membrane hfind).lt_size hoffset
  rw [get_put]
  exact Membrane.element_of_offset (membrane.offset_withPlace place value indices ▸ hoffset)
    (Array.getElem?_setIfInBounds_self_of_lt hplace)

theorem get_of_set_of_ne (hfind : store.membranes.find? id = some membrane) {value : Binary32}
    (hset : store.set id indices value = ⟨.ok (), after⟩) {other : List UInt32} (hne : other ≠ indices) :
    after.get id other = store.get id other := by
  obtain ⟨place, hoffset, rfl⟩ := exists_offset_of_set hfind hset
  rw [get_put, Membrane.element_withPlace_of_ne hoffset hne, get_of_find? hfind]

/-- Writing under two coordinates leaves the same store behind in either order. -/
theorem set_comm_of_ne (hfind : store.membranes.find? id = some membrane) {other : List UInt32}
    (hindices : membrane.shape.InBounds indices) (hother : membrane.shape.InBounds other)
    (hne : indices ≠ other) (value value' : Binary32) :
    ∃ first second after,
      store.set id indices value = ⟨.ok (), first⟩ ∧ first.set id other value' = ⟨.ok (), after⟩ ∧
      store.set id other value' = ⟨.ok (), second⟩ ∧ second.set id indices value = ⟨.ok (), after⟩ := by
  obtain ⟨place, hoffset⟩ := Membrane.exists_offset_iff.mpr hindices
  obtain ⟨place', hoffset'⟩ := Membrane.exists_offset_iff.mpr hother
  have hplaces : place ≠ place' := by
    rintro rfl
    exact hne (Membrane.offset_inj hoffset hoffset')
  have hthen := set_put_of_offset store id
    ((membrane.offset_withPlace place value other).trans hoffset') value'
  have hthen' := set_put_of_offset store id
    ((membrane.offset_withPlace place' value' indices).trans hoffset) value
  -- Both ways end with the same membrane, not only with the same elements.
  rw [membrane.withPlace_comm hplaces] at hthen
  exact ⟨_, _, _, set_of_offset hfind hoffset value, hthen, set_of_offset hfind hoffset' value', hthen'⟩

theorem Sound.get_of_fill (h : store.Sound) (hfind : store.membranes.find? id = some membrane)
    (hindices : membrane.shape.InBounds indices) (value : Binary32) :
    (store.put id (membrane.filled value)).get id indices = .ok value := by
  obtain ⟨place, hoffset⟩ := Membrane.exists_offset_iff.mpr hindices
  have hplace := (h.membrane hfind).lt_size hoffset
  have hfilled : (membrane.filled value).offset indices = .ok place := hoffset
  have hvalue : (Array.replicate membrane.buffer.size value)[place]? = some value := by
    rw [Array.getElem?_replicate, if_pos hplace]
  rw [get_put]
  exact Membrane.element_of_offset hfilled hvalue

/-! ### Reachable stores -/

/-- The elements of a membrane are those of an array whose indices are the coordinates of its shape. -/
structure Addressed (store : Store) (id : MembraneId) (membrane : Membrane) : Prop where
  /-- Coordinates can be read, and nothing else. -/
  get_iff : ∀ indices, (∃ value, store.get id indices = .ok value) ↔ membrane.shape.InBounds indices
  /-- Coordinates can be written, and nothing else. -/
  set_iff : ∀ indices value,
    (∃ after, store.set id indices value = ⟨.ok (), after⟩) ↔ membrane.shape.InBounds indices
  /-- The place of a coordinate is inside the buffer; there it is read and written. -/
  inside : ∀ indices place, membrane.offset indices = .ok place →
    ∃ hplace : place < membrane.buffer.size, store.get id indices = .ok membrane.buffer[place] ∧
      ∀ value, store.set id indices value = ⟨.ok (), store.put id
        (membrane.withContent membrane.shape (membrane.buffer.set place value hplace))⟩
  /-- What was written is read. -/
  get_set : ∀ indices value after, store.set id indices value = ⟨.ok (), after⟩ →
    after.get id indices = .ok value
  /-- Under other indices all is as before. -/
  get_set_of_ne : ∀ indices other value after, store.set id indices value = ⟨.ok (), after⟩ →
    other ≠ indices → after.get id other = store.get id other
  /-- Writing under two coordinates leaves the same store behind in either order. -/
  set_comm : ∀ indices other value value', membrane.shape.InBounds indices →
    membrane.shape.InBounds other → indices ≠ other → ∃ first second after,
      store.set id indices value = ⟨.ok (), first⟩ ∧ first.set id other value' = ⟨.ok (), after⟩ ∧
      store.set id other value' = ⟨.ok (), second⟩ ∧ second.set id indices value = ⟨.ok (), after⟩
  /-- What was written everywhere is read everywhere. -/
  get_fill : ∀ value, ∃ after, store.fill id value = ⟨.ok (), after⟩ ∧
    ∀ indices, membrane.shape.InBounds indices → after.get id indices = .ok value

/-- **The elements of a live membrane are addressed by the coordinates of its shape,** whatever has
happened to the store before. -/
theorem Reachable.elements_addressed (h : store.Reachable)
    (hfind : store.membranes.find? id = some membrane) : store.Addressed id membrane where
  get_iff indices := by
    rw [get_of_find? hfind]
    exact Membrane.exists_element_iff
  set_iff := exists_set_iff hfind
  inside _ _ hoffset := h.sound.inside hfind hoffset
  get_set _ _ _ hset := h.sound.get_of_set hfind hset
  get_set_of_ne _ _ _ _ hset hne := get_of_set_of_ne hfind hset hne
  set_comm _ _ value value' hindices hother hne :=
    set_comm_of_ne hfind hindices hother hne value value'
  get_fill value := ⟨_, update_of_ok hfind rfl, fun _ hindices => h.sound.get_of_fill hfind hindices value⟩

/-- A shape of two rows with three places each. -/
def oblong : Shape := ⟨[2, 3], by decide⟩

/-- A store with a membrane that was given two rows after it had got its first element. -/
def board : Store :=
  (Store.empty ⟨.standard, .zeros⟩ 0).after
    [.create ⟨[6], by decide⟩, .set ⟨1⟩ [3] ⟨0x3F800000⟩, .reshape ⟨1⟩ oblong]

/-- The element is the first one of the second row now. Writing beside it leaves it alone, and there is no
third row. -/
theorem Reachable.elements_addressed_board :
    board.Reachable ∧ ∃ membrane after, board.membranes.find? ⟨1⟩ = some membrane ∧
      membrane.shape = oblong ∧ board.get ⟨1⟩ [1, 0] = .ok ⟨0x3F800000⟩ ∧
      board.set ⟨1⟩ [0, 2] ⟨0x40000000⟩ = ⟨.ok (), after⟩ ∧
      after.get ⟨1⟩ [0, 2] = .ok ⟨0x40000000⟩ ∧ after.get ⟨1⟩ [1, 0] = .ok ⟨0x3F800000⟩ ∧
      ¬ ∃ value, board.get ⟨1⟩ [2, 0] = .ok value := by
  have hreachable : board.Reachable := (Reachable.empty _ _).after _
  have hget : board.get ⟨1⟩ [1, 0] = .ok ⟨0x3F800000⟩ := by decide +kernel
  have hshape : (board.membranes.find? ⟨1⟩).map (·.shape) = some oblong := by decide +kernel
  obtain ⟨membrane, hfind, hshape⟩ := Option.map_eq_some_iff.mp hshape
  have haddressed := hreachable.elements_addressed hfind
  obtain ⟨after, hset⟩ := (haddressed.set_iff [0, 2] ⟨0x40000000⟩).mpr (by rw [hshape]; decide)
  refine ⟨hreachable, membrane, after, hfind, hshape, hget, hset, haddressed.get_set _ _ _ hset, ?_, ?_⟩
  · rw [haddressed.get_set_of_ne _ [1, 0] _ _ hset (by decide), hget]
  · rw [haddressed.get_iff, hshape]
    decide

end Store

end Membranes
