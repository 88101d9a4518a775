import Mathlib.Logic.Relation
import Membranes.Proofs.Store.Outcome

/-!
# The steps of a store

`Store.Step` lists what can happen to a store at once: a membrane is mutated, gets installed content,
or spends energy; a membrane is created as a root or under an owner; a subtree is destroyed. Every
operation is described by one `…_atomically` theorem, which says exactly which store a success leaves
behind, and `Operation.run_atomically` joins them: what an operation leaves behind is reached by steps.
An invariant of stores is therefore shown by one case for each step.
-/

namespace Membranes

/-! ### What the checks let through -/

/-- A shape is one that membranes under these limits may take: it has an axis, not too many of them, and
not too many elements. -/
structure Limits.Admits (limits : Limits) (shape : Shape) : Prop where
  hasAxis : shape.isScalar = false
  rank_le : shape.rank ≤ limits.maxAxes.toNat
  volume_le : shape.volume ≤ limits.maxVolume

namespace Store

variable {store : Store}

theorem checkShape_eq_ok_iff {shape : Shape} :
    store.checkShape shape = .ok () ↔ store.config.limits.Admits shape := by
  unfold Store.checkShape
  simp only [check_bind_eq_ok_iff, require_eq_ok_iff]
  exact ⟨fun ⟨haxis, hrank, hvolume⟩ => ⟨haxis, hrank, hvolume⟩,
    fun ⟨haxis, hrank, hvolume⟩ => ⟨haxis, hrank, hvolume⟩⟩

theorem checkContent_eq_ok_iff {shape : Shape} {buffer : Array Binary32} :
    store.checkContent shape buffer = .ok () ↔
      store.config.limits.Admits shape ∧ buffer.size = shape.volume.toNat := by
  unfold Store.checkContent
  rw [check_bind_eq_ok_iff, checkShape_eq_ok_iff, require_eq_ok_iff]

theorem checkRoom_eq_ok_iff {shape : Shape} :
    store.checkRoom shape = .ok () ↔
      store.config.limits.Admits shape ∧ store.size < store.config.limits.maxMembranes.toNat ∧
        store.nextId.toNat + 1 < UInt32.size := by
  unfold Store.checkRoom
  rw [check_bind_eq_ok_iff, checkShape_eq_ok_iff, check_bind_eq_ok_iff, require_eq_ok_iff,
    require_eq_ok_iff]

theorem checkOwner_eq_ok_iff {owner : MembraneId} :
    store.checkOwner owner = .ok () ↔ ∃ membrane depth,
      store.membranes.find? owner = some membrane ∧
      membrane.children.length < store.config.limits.maxChildren.toNat ∧
      store.depth owner = .ok depth ∧ depth < store.config.limits.maxDepth := by
  unfold Store.checkOwner
  rw [bind_eq_ok_iff]
  constructor
  · rintro ⟨membrane, hfind, hrest⟩
    rw [check_bind_eq_ok_iff, require_eq_ok_iff, bind_eq_ok_iff] at hrest
    obtain ⟨hchildren, depth, hdepth, hlt⟩ := hrest
    exact ⟨membrane, depth, store.membrane_eq_ok_iff.mp hfind, hchildren, hdepth,
      require_eq_ok_iff.mp hlt⟩
  · rintro ⟨membrane, depth, hfind, hchildren, hdepth, hlt⟩
    refine ⟨membrane, membrane_of_find? hfind, ?_⟩
    rw [check_bind_eq_ok_iff, require_eq_ok_iff, bind_eq_ok_iff]
    exact ⟨hchildren, depth, hdepth, require_eq_ok_iff.mpr hlt⟩

theorem live_of_checkOwner {owner : MembraneId} (h : store.checkOwner owner = .ok ()) :
    store.contains owner = true := by
  obtain ⟨membrane, _, hfind, _⟩ := checkOwner_eq_ok_iff.mp h
  exact contains_iff.mpr ⟨membrane, hfind⟩

end Store

/-! ### Steps -/

/-- What a mutation makes of a membrane. The installation of a copy is not among these. -/
inductive Membrane.Mutates (limits : Limits) (membrane : Membrane) : Membrane → Prop
  /-- Other elements in the same shape. -/
  | rewrite {buffer : Array Binary32} (hsize : buffer.size = membrane.buffer.size) :
      Mutates limits membrane (membrane.withContent membrane.shape buffer)
  /-- The same elements in another shape. -/
  | reshape {shape : Shape} (hadmits : limits.Admits shape)
      (hvolume : membrane.shape.volume = shape.volume) :
      Mutates limits membrane (membrane.withContent shape membrane.buffer)
  /-- One more symbol. -/
  | gain {symbol : String} (hlacks : membrane.holds symbol = false)
      (hroom : membrane.symbols.length < limits.maxObjects.toNat) :
      Mutates limits membrane (membrane.withSymbol symbol)
  /-- One symbol less. -/
  | lose {symbol : String} (hholds : membrane.holds symbol = true) :
      Mutates limits membrane (membrane.withoutSymbol symbol)

namespace Store

/-- The store with one more membrane under the next identifier, which no owner names yet. -/
def withFresh (store : Store) (shape : Shape) (parent : Option MembraneId) : Store :=
  let id : MembraneId := ⟨store.nextId⟩
  let (buffer, draws) := store.freshBuffer shape.volume.toNat
  { store.put id (.fresh id shape buffer store.config.limits.initialEnergy parent) with
    nextId := store.nextId + 1
    draws }

/-- The store in which an owner names one more child. -/
def attach (store : Store) (owner child : MembraneId) : Store :=
  match store.membranes.find? owner with
  | some membrane => store.put owner { membrane with children := membrane.children ++ [child] }
  | none => store

@[simp]
theorem attach_config (store : Store) (owner child : MembraneId) :
    (store.attach owner child).config = store.config := by
  unfold Store.attach
  split <;> rfl

@[simp]
theorem attach_nextId (store : Store) (owner child : MembraneId) :
    (store.attach owner child).nextId = store.nextId := by
  unfold Store.attach
  split <;> rfl

@[simp]
theorem attach_draws (store : Store) (owner child : MembraneId) :
    (store.attach owner child).draws = store.draws := by
  unfold Store.attach
  split <;> rfl

/-- The store with one more root. -/
def withRoot (store : Store) (shape : Shape) : Store :=
  let fresh := store.withFresh shape none
  { fresh with roots := fresh.roots ++ [⟨store.nextId⟩] }

/-- The store with one more child of an owner. -/
def withChild (store : Store) (owner : MembraneId) (shape : Shape) : Store :=
  (store.withFresh shape (some owner)).attach owner ⟨store.nextId⟩

/-- The store without a membrane and everything below it. -/
def withoutSubtree (store : Store) (id : MembraneId) (owner : Option MembraneId) : Store :=
  ((store.release (store.descendants id)).detach id owner).release [id]

/-- What can happen to a store at once. -/
inductive Step (store : Store) : Store → Prop
  /-- A membrane is mutated. -/
  | mutate {id : MembraneId} {membrane changed : Membrane}
      (hfind : store.membranes.find? id = some membrane)
      (hmutates : membrane.Mutates store.config.limits changed) : Step store (store.put id changed)
  /-- A membrane gets the content of a copy with its version. -/
  | install {id : MembraneId} {membrane : Membrane} {shape : Shape} {buffer : Array Binary32}
      (version : UInt64) (hfind : store.membranes.find? id = some membrane)
      (hadmits : store.config.limits.Admits shape) (hsize : buffer.size = shape.volume.toNat) :
      Step store (store.put id { membrane.withContent shape buffer with version })
  /-- A membrane spends energy. -/
  | spend {id : MembraneId} {membrane : Membrane} {amount : UInt32}
      (hfind : store.membranes.find? id = some membrane) (hamount : amount ≤ membrane.energy) :
      Step store (store.put id { membrane with energy := membrane.energy - amount })
  /-- A root is created. -/
  | root {shape : Shape} (hroom : store.checkRoom shape = .ok ()) : Step store (store.withRoot shape)
  /-- A membrane is created under an owner. -/
  | child {owner : MembraneId} {shape : Shape} (howner : store.checkOwner owner = .ok ())
      (hroom : store.checkRoom shape = .ok ()) : Step store (store.withChild owner shape)
  /-- A membrane is destroyed with everything below it. -/
  | destroy {id : MembraneId} {membrane : Membrane}
      (hfind : store.membranes.find? id = some membrane) :
      Step store (store.withoutSubtree id membrane.parent)

/-- Any number of steps. -/
def Steps : Store → Store → Prop := Relation.ReflTransGen Step

theorem detach_config (store : Store) (id : MembraneId) (owner : Option MembraneId) :
    (store.detach id owner).config = store.config := by
  unfold Store.detach
  split
  · rfl
  · split <;> rfl

theorem detach_nextId (store : Store) (id : MembraneId) (owner : Option MembraneId) :
    (store.detach id owner).nextId = store.nextId := by
  unfold Store.detach
  split
  · rfl
  · split <;> rfl

@[simp]
theorem withoutSubtree_config (store : Store) (id : MembraneId) (owner : Option MembraneId) :
    (store.withoutSubtree id owner).config = store.config :=
  detach_config _ id owner

@[simp]
theorem withoutSubtree_nextId (store : Store) (id : MembraneId) (owner : Option MembraneId) :
    (store.withoutSubtree id owner).nextId = store.nextId :=
  detach_nextId _ id owner

variable {store after : Store}

/-- No step changes the limits, or how new buffers are filled. -/
theorem Step.config_eq (h : store.Step after) : after.config = store.config := by
  cases h with
  | mutate | install | spend | root => rfl
  | child => exact attach_config _ _ _
  | destroy => exact withoutSubtree_config _ _ _

theorem Steps.config_eq (h : store.Steps after) : after.config = store.config := by
  induction h with
  | refl => rfl
  | tail _ hstep ih => exact hstep.config_eq.trans ih

end Store

end Membranes
