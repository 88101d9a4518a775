import Membranes.Proofs.Store.Step

/-!
# What each operation does

One theorem for every operation of a store, named after it: `create_atomically`, `set_atomically` and
so on. Each says that a refusal leaves the store as it was and which store a success leaves behind.
What mutates a membrane is also a value (`Mutation`), with one theorem for all (`Mutation.run_atomically`).
`Operation.run_atomically` draws the common conclusion: operations are made of steps.
-/

namespace Membranes

/-! ### Changes of one membrane -/

namespace Membrane

variable {membrane changed : Membrane}

theorem reshaped_eq_ok_iff {shape : Shape} :
    membrane.reshaped shape = .ok changed ↔
      membrane.shape.volume = shape.volume ∧ membrane.withContent shape membrane.buffer = changed := by
  unfold Membrane.reshaped
  rw [check_bind_eq_ok_iff, require_eq_ok_iff, pure_eq_ok_iff]
  unfold Shape.reshapable
  rw [beq_iff_eq]

theorem withElement_eq_ok_iff {indices : List UInt32} {value : Binary32} :
    membrane.withElement indices value = .ok changed ↔
      ∃ offset, membrane.offset indices = .ok offset ∧
        membrane.withContent membrane.shape (membrane.buffer.setIfInBounds offset value) = changed := by
  unfold Membrane.withElement
  rw [bind_eq_ok_iff]
  simp only [pure_eq_ok_iff]

theorem spending_eq_ok_iff {amount : UInt32} :
    membrane.spending amount = .ok changed ↔
      amount ≤ membrane.energy ∧ { membrane with energy := membrane.energy - amount } = changed := by
  unfold Membrane.spending
  rw [check_bind_eq_ok_iff, require_eq_ok_iff, pure_eq_ok_iff]

theorem checkHolds_eq_ok_iff {symbol : String} :
    membrane.checkHolds symbol = .ok () ↔ membrane.holds symbol = true :=
  require_eq_ok_iff

theorem checkSymbolRoom_eq_ok_iff {limit : UInt32} :
    membrane.checkSymbolRoom limit = .ok () ↔ membrane.symbols.length < limit.toNat :=
  require_eq_ok_iff

theorem adding_eq_ok_iff {limit : UInt32} {symbol : String} :
    membrane.adding limit symbol = .ok changed ↔
      membrane.holds symbol = true ∧ membrane = changed ∨
      membrane.holds symbol = false ∧ membrane.symbols.length < limit.toNat ∧
        membrane.withSymbol symbol = changed := by
  unfold Membrane.adding
  cases membrane.holds symbol with
  | true => simp
  | false =>
    rw [if_neg Bool.false_ne_true, check_map_eq_ok_iff, checkSymbolRoom_eq_ok_iff]
    simp

end Membrane

/-! ### Creation and destruction -/

namespace Store

variable {store : Store}

theorem allocate_atomically (shape : Shape) (parent : Option MembraneId) :
    (store.allocate shape parent).Atomically store fun id after =>
      store.checkRoom shape = .ok () ∧ id = ⟨store.nextId⟩ ∧ after = store.withFresh shape parent :=
  atomically_checking fun _ hroom => ⟨hroom, rfl, rfl⟩

theorem create_atomically (shape : Shape) :
    (store.create shape).Atomically store fun id after =>
      store.checkRoom shape = .ok () ∧ id = ⟨store.nextId⟩ ∧ after = store.withRoot shape := by
  apply (allocate_atomically shape none).andThen
  rintro _ _ ⟨hroom, rfl, rfl⟩
  exact ⟨_, _, rfl, hroom, rfl, rfl⟩

@[simp]
theorem find?_withFresh (store : Store) (shape : Shape) (parent : Option MembraneId)
    (other : MembraneId) :
    (store.withFresh shape parent).membranes.find? other =
      if other = ⟨store.nextId⟩ then
        some (.fresh ⟨store.nextId⟩ shape (store.freshBuffer shape.volume.toNat).1
          store.config.limits.initialEnergy parent)
      else store.membranes.find? other :=
  store.membranes.find?_insert _ _ other

/-- Naming one more child is a look-up and an update, as long as the owner is live. -/
theorem update_attach {owner child : MembraneId} (h : store.contains owner = true) :
    (store.update owner fun membrane =>
      .ok (child, { membrane with children := membrane.children ++ [child] })) =
      ⟨.ok child, store.attach owner child⟩ := by
  obtain ⟨membrane, hfind⟩ := contains_iff.mp h
  rw [update_of_ok hfind rfl]
  unfold Store.attach
  rw [hfind]

theorem find?_attach (store : Store) (owner child other : MembraneId) :
    (store.attach owner child).membranes.find? other =
      if other = owner then
        (store.membranes.find? owner).map fun membrane =>
          { membrane with children := membrane.children ++ [child] }
      else store.membranes.find? other := by
  unfold Store.attach
  by_cases hother : other = owner
  · rw [if_pos hother, hother]
    cases hfind : store.membranes.find? owner with
    | none => exact hfind
    | some membrane => rw [find?_put, if_pos rfl]; rfl
  · rw [if_neg hother]
    split
    · rw [find?_put, if_neg hother]
    · rfl

@[simp]
theorem attach_roots (store : Store) (owner child : MembraneId) :
    (store.attach owner child).roots = store.roots := by
  unfold Store.attach
  split <;> rfl

theorem contains_withFresh {shape : Shape} {parent : Option MembraneId} {id : MembraneId}
    (h : store.contains id = true) : (store.withFresh shape parent).contains id = true := by
  rw [contains_iff] at h ⊢
  rw [find?_withFresh]
  split
  · exact ⟨_, rfl⟩
  · exact h

theorem createUnder_atomically (owner : MembraneId) (shape : Shape) :
    (store.createUnder owner shape).Atomically store fun id after =>
      store.checkOwner owner = .ok () ∧ store.checkRoom shape = .ok () ∧ id = ⟨store.nextId⟩ ∧
        after = store.withChild owner shape := by
  apply atomically_checking
  intro _ howner
  apply (allocate_atomically shape (some owner)).andThen
  rintro _ _ ⟨hroom, rfl, rfl⟩
  -- The owner that was checked is still there, so that naming the child is not refused any more.
  rw [update_attach (contains_withFresh (live_of_checkOwner howner))]
  exact ⟨_, _, rfl, howner, hroom, rfl, rfl⟩

theorem create_eq_ok_iff {shape : Shape} {id : MembraneId} :
    (store.create shape).answer = .ok id ↔ store.checkRoom shape = .ok () ∧ id = ⟨store.nextId⟩ := by
  unfold create allocate checking Outcome.andThen
  cases store.checkRoom shape <;> simp [eq_comm]

/-- A root is refused by nothing but the check. -/
theorem create_eq_error_iff {shape : Shape} {refusal : Refusal} :
    (store.create shape).answer = .error refusal ↔ store.checkRoom shape = .error refusal := by
  unfold create allocate checking Outcome.andThen
  cases store.checkRoom shape <;> simp

/-- A child is refused by nothing but the two checks. -/
theorem createUnder_eq_error_iff {owner : MembraneId} {shape : Shape} {refusal : Refusal} :
    (store.createUnder owner shape).answer = .error refusal ↔
      store.checkOwner owner = .error refusal ∨
        store.checkOwner owner = .ok () ∧ store.checkRoom shape = .error refusal := by
  unfold createUnder allocate
  cases howner : store.checkOwner owner with
  | error cause => simp [checking]
  | ok checked =>
    cases hroom : store.checkRoom shape with
    | error cause => simp [checking, Outcome.andThen]
    | ok checked' =>
      have hlive : (store.withFresh shape (some owner)).contains owner = true :=
        contains_withFresh (live_of_checkOwner howner)
      show ((store.withFresh shape (some owner)).update owner _).answer = _ ↔ _
      rw [update_attach hlive]
      simp

theorem destroy_atomically (id : MembraneId) :
    (store.destroy id).Atomically store fun ids after => ∃ membrane,
      store.membranes.find? id = some membrane ∧ ids = store.descendants id ++ [id] ∧
        after = store.withoutSubtree id membrane.parent := by
  apply atomically_checking
  intro owner howner
  obtain ⟨membrane, hmembrane, rfl⟩ := map_eq_ok_iff.mp howner
  exact ⟨membrane, store.membrane_eq_ok_iff.mp hmembrane, rfl, rfl⟩

/-- A live membrane is never refused to be destroyed. -/
theorem destroy_of_find? {id : MembraneId} {membrane : Membrane}
    (hfind : store.membranes.find? id = some membrane) :
    store.destroy id =
      ⟨.ok (store.descendants id ++ [id]), store.withoutSubtree id membrane.parent⟩ := by
  unfold destroy
  rw [parent_of_find? hfind]
  rfl

/-! ### Content and energy -/

theorem reshape_atomically (id : MembraneId) (shape : Shape) :
    (store.reshape id shape).Atomically store fun _ after => ∃ membrane,
      store.membranes.find? id = some membrane ∧ store.config.limits.Admits shape ∧
      membrane.shape.volume = shape.volume ∧
      after = store.put id (membrane.withContent shape membrane.buffer) := by
  apply atomically_checking
  intro _ _
  apply atomically_checking
  intro _ hshape
  apply atomically_update
  intro membrane _ changed hfind hchange
  obtain ⟨result, hreshaped, hpair⟩ := bind_eq_ok_iff.mp hchange
  obtain ⟨hvolume, rfl⟩ := Membrane.reshaped_eq_ok_iff.mp hreshaped
  obtain ⟨-, rfl⟩ := Prod.mk.inj (pure_eq_ok_iff.mp hpair)
  exact ⟨membrane, hfind, checkShape_eq_ok_iff.mp hshape, hvolume, rfl⟩

theorem spendEnergy_atomically (id : MembraneId) (amount : UInt32) :
    (store.spendEnergy id amount).Atomically store fun left after => ∃ membrane,
      store.membranes.find? id = some membrane ∧ amount ≤ membrane.energy ∧
      left = membrane.energy - amount ∧
      after = store.put id { membrane with energy := membrane.energy - amount } := by
  apply atomically_update
  intro membrane left changed hfind hchange
  obtain ⟨result, hspending, hpair⟩ := bind_eq_ok_iff.mp hchange
  obtain ⟨hamount, rfl⟩ := Membrane.spending_eq_ok_iff.mp hspending
  obtain ⟨rfl, rfl⟩ := Prod.mk.inj (pure_eq_ok_iff.mp hpair)
  exact ⟨membrane, hfind, hamount, rfl, rfl⟩

theorem replaceContent_atomically (id : MembraneId) (shape : Shape) (buffer : Array Binary32)
    (version : UInt64) :
    (store.replaceContent id shape buffer version).Atomically store fun _ after => ∃ membrane,
      store.membranes.find? id = some membrane ∧ store.config.limits.Admits shape ∧
      buffer.size = shape.volume.toNat ∧
      after = store.put id { membrane.withContent shape buffer with version } := by
  apply atomically_checking
  intro _ hcontent
  obtain ⟨hadmits, hsize⟩ := checkContent_eq_ok_iff.mp hcontent
  apply atomically_update
  intro membrane _ changed hfind hchange
  obtain ⟨-, rfl⟩ := Prod.mk.inj (Except.ok.inj hchange)
  exact ⟨membrane, hfind, hadmits, hsize, rfl⟩

/-- Content that fills a shape within the limits is never refused by a live membrane. -/
theorem replaceContent_of_admits {id : MembraneId} {membrane : Membrane} {shape : Shape}
    {buffer : Array Binary32} (version : UInt64) (hfind : store.membranes.find? id = some membrane)
    (hadmits : store.config.limits.Admits shape) (hsize : buffer.size = shape.volume.toNat) :
    store.replaceContent id shape buffer version =
      ⟨.ok (), store.put id { membrane.withContent shape buffer with version }⟩ := by
  unfold Store.replaceContent
  rw [checkContent_eq_ok_iff.mpr ⟨hadmits, hsize⟩]
  exact update_of_ok hfind rfl

theorem set_atomically (id : MembraneId) (indices : List UInt32) (value : Binary32) :
    (store.set id indices value).Atomically store fun _ after => ∃ membrane offset,
      store.membranes.find? id = some membrane ∧ membrane.offset indices = .ok offset ∧
      after = store.put id
        (membrane.withContent membrane.shape (membrane.buffer.setIfInBounds offset value)) := by
  apply atomically_update
  intro membrane _ changed hfind hchange
  obtain ⟨result, helement, hpair⟩ := bind_eq_ok_iff.mp hchange
  obtain ⟨offset, hoffset, rfl⟩ := Membrane.withElement_eq_ok_iff.mp helement
  obtain ⟨-, rfl⟩ := Prod.mk.inj (pure_eq_ok_iff.mp hpair)
  exact ⟨membrane, offset, hfind, hoffset, rfl⟩

theorem fill_atomically (id : MembraneId) (value : Binary32) :
    (store.fill id value).Atomically store fun _ after => ∃ membrane,
      store.membranes.find? id = some membrane ∧ after = store.put id (membrane.filled value) := by
  apply atomically_update
  intro membrane _ changed hfind hchange
  obtain ⟨-, rfl⟩ := Prod.mk.inj (Except.ok.inj hchange)
  exact ⟨membrane, hfind, rfl⟩

/-! ### Symbols -/

theorem addSymbol_atomically (id : MembraneId) (symbol : String) :
    (store.addSymbol id symbol).Atomically store fun _ after => ∃ membrane,
      store.membranes.find? id = some membrane ∧
      (membrane.holds symbol = true ∧ after = store ∨
        membrane.holds symbol = false ∧
          membrane.symbols.length < store.config.limits.maxObjects.toNat ∧
          after = store.put id (membrane.withSymbol symbol)) := by
  apply atomically_checking
  intro _ _
  apply atomically_update
  intro membrane _ changed hfind hchange
  obtain ⟨result, hadding, hpair⟩ := bind_eq_ok_iff.mp hchange
  obtain ⟨-, rfl⟩ := Prod.mk.inj (pure_eq_ok_iff.mp hpair)
  refine ⟨membrane, hfind, ?_⟩
  rcases Membrane.adding_eq_ok_iff.mp hadding with ⟨hholds, rfl⟩ | ⟨hlacks, hroom, rfl⟩
  · exact Or.inl ⟨hholds, put_self hfind⟩
  · exact Or.inr ⟨hlacks, hroom, rfl⟩

theorem removeSymbol_atomically (id : MembraneId) (symbol : String) :
    (store.removeSymbol id symbol).Atomically store fun _ after => ∃ membrane,
      store.membranes.find? id = some membrane ∧ membrane.holds symbol = true ∧
      after = store.put id (membrane.withoutSymbol symbol) := by
  apply atomically_update
  intro membrane _ changed hfind hchange
  obtain ⟨hholds, hpair⟩ := check_bind_eq_ok_iff.mp hchange
  obtain ⟨-, rfl⟩ := Prod.mk.inj (pure_eq_ok_iff.mp hpair)
  exact ⟨membrane, hfind, Membrane.checkHolds_eq_ok_iff.mp hholds, rfl⟩

theorem checkMove_eq_ok_iff {source target : MembraneId} {symbol : String} :
    store.checkMove source target symbol = .ok () ↔ checkSymbol symbol = .ok () ∧
      ∃ giver taker, store.membranes.find? source = some giver ∧
        store.membranes.find? target = some taker ∧ giver.holds symbol = true ∧
        (source = target ∨ taker.holds symbol = true ∨
          taker.symbols.length < store.config.limits.maxObjects.toNat) := by
  unfold Store.checkMove
  rw [check_bind_eq_ok_iff, bind_eq_ok_iff]
  apply and_congr_right'
  apply exists_congr
  intro giver
  rw [membrane_eq_ok_iff, bind_eq_ok_iff, ← exists_and_left]
  apply exists_congr
  intro taker
  rw [membrane_eq_ok_iff, check_bind_eq_ok_iff, Membrane.checkHolds_eq_ok_iff]
  apply and_congr_right'
  apply and_congr_right'
  apply and_congr_right'
  -- The limit of the taker is looked at only when the symbol is new to it.
  by_cases hneeds : source = target ∨ taker.holds symbol = true
  · rw [if_pos hneeds, pure_eq_ok_iff, ← or_assoc]
    simp [hneeds]
  · rw [if_neg hneeds, Membrane.checkSymbolRoom_eq_ok_iff, ← or_assoc]
    simp [hneeds]

theorem moveSymbol_atomically (source target : MembraneId) (symbol : String) :
    (store.moveSymbol source target symbol).Atomically store fun _ after => ∃ giver taker,
      store.membranes.find? source = some giver ∧ store.membranes.find? target = some taker ∧
      giver.holds symbol = true ∧
      (source = target ∧ after = store ∨
        source ≠ target ∧
          (taker.holds symbol = true ∨
            taker.symbols.length < store.config.limits.maxObjects.toNat) ∧
          after = (store.put target
            (if taker.holds symbol then taker else taker.withSymbol symbol)).put source
            (giver.withoutSymbol symbol)) := by
  apply atomically_checking
  intro _ hmove
  obtain ⟨-, giver, taker, hgiver, htaker, hholds, hroom⟩ := checkMove_eq_ok_iff.mp hmove
  by_cases hsame : source = target
  · rw [if_pos hsame]
    exact ⟨giver, taker, hgiver, htaker, hholds, Or.inl ⟨hsame, rfl⟩⟩
  · rw [if_neg hsame, update_of_ok htaker rfl]
    -- The giver is looked up once more, in a store in which only the taker has changed.
    have hgiver' : (store.put target
        (if taker.holds symbol then taker else taker.withSymbol symbol)).membranes.find? source =
        some giver := by
      rw [find?_put, if_neg hsame, hgiver]
    show Outcome.Atomically store (Store.update _ source _) _
    rw [update_of_ok hgiver' rfl]
    exact ⟨giver, taker, hgiver, htaker, hholds,
      Or.inr ⟨hsame, hroom.resolve_left hsame, rfl⟩⟩

end Store

/-! ### Mutations -/

theorem Membrane.Mutates.filled (limits : Limits) (membrane : Membrane) (value : Binary32) :
    membrane.Mutates limits (membrane.filled value) :=
  .rewrite Array.size_replicate

theorem Membrane.Mutates.version_eq {limits : Limits} {membrane changed : Membrane}
    (h : membrane.Mutates limits changed) : changed.version = membrane.version + 1 := by
  cases h <;> rfl

/-- A request to mutate a membrane. -/
inductive Mutation where
  /-- Write an element. -/
  | set (indices : List UInt32) (value : Binary32)
  /-- Write all elements. -/
  | fill (value : Binary32)
  /-- Give the buffer another shape of the same volume. -/
  | reshape (shape : Shape)
  /-- Add a symbol. -/
  | addSymbol (symbol : String)
  /-- Remove a symbol. -/
  | removeSymbol (symbol : String)
deriving DecidableEq

/-- The mutation of a membrane as an operation. -/
def Mutation.operation (id : MembraneId) : Mutation → Operation
  | set indices value => .set id indices value
  | fill value => .fill id value
  | reshape shape => .reshape id shape
  | addSymbol symbol => .addSymbol id symbol
  | removeSymbol symbol => .removeSymbol id symbol

/-- What a successful mutation can make of a store. -/
inductive Store.Mutated (store : Store) (id : MembraneId) : Store → Prop
  /-- A symbol that is there already is not added again. -/
  | idle : Mutated store id store
  /-- The membrane is mutated. -/
  | change {membrane changed : Membrane} (hfind : store.membranes.find? id = some membrane)
      (hmutates : membrane.Mutates store.config.limits changed) :
      Mutated store id (store.put id changed)

/-- A mutation changes one membrane. -/
theorem Mutation.run_atomically (mutation : Mutation) (id : MembraneId) (store : Store) :
    ((mutation.operation id).run store).Atomically store fun _ after => store.Mutated id after := by
  cases mutation with
  | set indices value =>
    apply Outcome.Atomically.reply
    refine (Store.set_atomically id indices value).imp ?_
    rintro _ _ ⟨membrane, offset, hfind, -, rfl⟩
    exact .change hfind (.rewrite Array.size_setIfInBounds)
  | fill value =>
    apply Outcome.Atomically.reply
    refine (Store.fill_atomically id value).imp ?_
    rintro _ _ ⟨membrane, hfind, rfl⟩
    exact .change hfind (.filled _ membrane value)
  | reshape shape =>
    apply Outcome.Atomically.reply
    refine (Store.reshape_atomically id shape).imp ?_
    rintro _ _ ⟨membrane, hfind, hadmits, hvolume, rfl⟩
    exact .change hfind (.reshape hadmits hvolume)
  | addSymbol symbol =>
    apply Outcome.Atomically.reply
    refine (Store.addSymbol_atomically id symbol).imp ?_
    rintro _ _ ⟨membrane, hfind, ⟨-, rfl⟩ | ⟨hlacks, hroom, rfl⟩⟩
    · exact .idle
    · exact .change hfind (.gain hlacks hroom)
  | removeSymbol symbol =>
    apply Outcome.Atomically.reply
    refine (Store.removeSymbol_atomically id symbol).imp ?_
    rintro _ _ ⟨membrane, hfind, hholds, rfl⟩
    exact .change hfind (.lose hholds)

/-! ### Operations are made of steps -/

namespace Store

variable {store : Store}

theorem Step.steps {after : Store} (h : store.Step after) : store.Steps after :=
  Relation.ReflTransGen.single h

/-- A moved symbol leaves one membrane, and before that enters the other one if it lacks it. -/
theorem steps_of_moveSymbol {source target : MembraneId} {symbol : String} {giver taker : Membrane}
    (hgiver : store.membranes.find? source = some giver)
    (htaker : store.membranes.find? target = some taker) (hholds : giver.holds symbol = true)
    (hdiffer : source ≠ target)
    (hroom : taker.holds symbol = true ∨
      taker.symbols.length < store.config.limits.maxObjects.toNat) :
    store.Steps ((store.put target
      (if taker.holds symbol then taker else taker.withSymbol symbol)).put source
        (giver.withoutSymbol symbol)) := by
  have hleave : ∀ {between : Store}, between.membranes.find? source = some giver →
      between.Step (between.put source (giver.withoutSymbol symbol)) :=
    fun hfind => .mutate hfind (.lose hholds)
  cases htakes : taker.holds symbol with
  | true =>
    -- The taker is put back as it was: only the giver makes a step.
    rw [if_pos rfl, put_self htaker]
    exact (hleave hgiver).steps
  | false =>
    rw [if_neg Bool.false_ne_true]
    have henter : store.Step (store.put target (taker.withSymbol symbol)) :=
      .mutate htaker (.gain htakes (hroom.resolve_left (by rw [htakes]; exact Bool.false_ne_true)))
    refine henter.steps.tail (hleave ?_)
    rw [find?_put, if_neg hdiffer, hgiver]

theorem Mutated.steps {id : MembraneId} {after : Store} (h : store.Mutated id after) :
    store.Steps after := by
  cases h with
  | idle => exact .refl
  | change hfind hmutates => exact (Step.mutate hfind hmutates).steps

end Store

/-- A mutation is made of steps. -/
theorem Mutation.run_steps (mutation : Mutation) (id : MembraneId) (store : Store) :
    ((mutation.operation id).run store).Atomically store fun _ after => store.Steps after :=
  (mutation.run_atomically id store).imp fun _ _ h => h.steps

/-- **What an operation leaves behind is reached by steps**, and after a refusal by none. -/
theorem Operation.run_atomically (operation : Operation) (store : Store) :
    (operation.run store).Atomically store fun _ after => store.Steps after := by
  cases operation with
  | create shape =>
    apply Outcome.Atomically.reply
    refine (Store.create_atomically shape).imp ?_
    rintro _ _ ⟨hroom, -, rfl⟩
    exact (Store.Step.root hroom).steps
  | createUnder owner shape =>
    apply Outcome.Atomically.reply
    refine (Store.createUnder_atomically owner shape).imp ?_
    rintro _ _ ⟨howner, hroom, -, rfl⟩
    exact (Store.Step.child howner hroom).steps
  | destroy id =>
    apply Outcome.Atomically.reply
    refine (Store.destroy_atomically id).imp ?_
    rintro _ _ ⟨membrane, hfind, -, rfl⟩
    exact (Store.Step.destroy hfind).steps
  | reshape id shape => exact (Mutation.reshape shape).run_steps id store
  | spendEnergy id amount =>
    apply Outcome.Atomically.reply
    refine (Store.spendEnergy_atomically id amount).imp ?_
    rintro _ _ ⟨membrane, hfind, hamount, -, rfl⟩
    exact (Store.Step.spend hfind hamount).steps
  | replaceContent id shape buffer version =>
    apply Outcome.Atomically.reply
    refine (Store.replaceContent_atomically id shape buffer version).imp ?_
    rintro _ _ ⟨membrane, hfind, hadmits, hsize, rfl⟩
    exact (Store.Step.install version hfind hadmits hsize).steps
  | set id indices value => exact (Mutation.set indices value).run_steps id store
  | fill id value => exact (Mutation.fill value).run_steps id store
  | addSymbol id symbol => exact (Mutation.addSymbol symbol).run_steps id store
  | removeSymbol id symbol => exact (Mutation.removeSymbol symbol).run_steps id store
  | moveSymbol source target symbol =>
    apply Outcome.Atomically.reply
    refine (Store.moveSymbol_atomically source target symbol).imp ?_
    rintro _ _ ⟨giver, taker, hgiver, htaker, hholds, ⟨-, rfl⟩ | ⟨hdiffer, hroom, rfl⟩⟩
    · exact .refl
    · exact Store.steps_of_moveSymbol hgiver htaker hholds hdiffer hroom
  | get id indices => exact Outcome.atomically_query _ .refl
  | holdsSymbol id symbol => exact Outcome.atomically_query _ .refl
  | symbols id => exact Outcome.atomically_query _ .refl

theorem Store.steps_run (operation : Operation) (store : Store) :
    store.Steps (operation.run store).store := by
  rcases (operation.run_atomically store).cases with ⟨refusal, hrun⟩ | ⟨reply, after, hrun, hsteps⟩
  · rw [hrun]
    exact .refl
  · rw [hrun]
    exact hsteps

end Membranes
