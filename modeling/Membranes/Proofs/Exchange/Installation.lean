import Membranes.Exchange.Installation
import Membranes.Proofs.Snapshot.Merge

/-!
# What carrying out a settlement does

* `createBeside_atomically` and `addSibling_atomically` describe the way of a copy into a membrane of its
  own. What the shape check and the verification let through is never refused by the installation
  (`replaceContent_of_createBeside`), so the new membrane is never destroyed again.
* `HasRoomBeside.gainsSibling`: the copy gets its membrane behind the others with the same owner, and
  nothing else happens (`Store.GainsSibling`).
* `carryOut_atomically`: of a settlement, a store sees that nothing happens, that the local membrane gets
  content, or that a copy is put beside it (`Store.Carried`). Each is made of steps (`Carried.steps`).
-/

namespace Membranes

namespace Store

/-! ### A membrane beside another one -/

/-- The store with one more root, or one more child of an owner. -/
def withNew (store : Store) (parent : Option MembraneId) (shape : Shape) : Store :=
  match parent with
  | none => store.withRoot shape
  | some owner => store.withChild owner shape

/-- The store with a copy in a membrane of its own, at version one. -/
def withCopy (store : Store) (parent : Option MembraneId) (copy : Snapshot) : Store :=
  let sibling : MembraneId := ⟨store.nextId⟩
  let between := store.withNew parent copy.shape
  match between.membranes.find? sibling with
  | some fresh =>
    between.put sibling { fresh.withContent copy.shape copy.buffer with version := 1 }
  | none => between

/-- A membrane with these parents may have a further one beside it. -/
structure HasRoomBeside (store : Store) (parent : Option MembraneId) (shape : Shape) : Prop where
  /-- There is an owner that may have one more child, if there is an owner. -/
  owner : ∀ owner, parent = some owner → store.checkOwner owner = .ok ()
  /-- The store may have one more membrane of the shape. -/
  room : store.checkRoom shape = .ok ()

variable {store after : Store} {parent : Option MembraneId} {shape : Shape} {copy : Snapshot}

theorem createBeside_atomically (id : MembraneId) (shape : Shape) :
    (store.createBeside id shape).Atomically store fun sibling after => ∃ mine,
      store.membranes.find? id = some mine ∧ store.HasRoomBeside mine.parent shape ∧
      sibling = ⟨store.nextId⟩ ∧ after = store.withNew mine.parent shape := by
  apply atomically_checking
  intro parent hparent
  obtain ⟨mine, hmine, rfl⟩ := map_eq_ok_iff.mp hparent
  have hfind := store.membrane_eq_ok_iff.mp hmine
  cases howner : mine.parent with
  | none =>
    apply (create_atomically shape).imp
    rintro _ _ ⟨hroom, rfl, rfl⟩
    exact ⟨mine, hfind, ⟨by simp [howner], hroom⟩, rfl, by rw [howner]; rfl⟩
  | some owner =>
    apply (createUnder_atomically owner shape).imp
    rintro _ _ ⟨hmay, hroom, rfl, rfl⟩
    refine ⟨mine, hfind, ⟨?_, hroom⟩, rfl, by rw [howner]; rfl⟩
    rw [howner]
    rintro _ ⟨⟩
    exact hmay

theorem contains_attach {owner child id : MembraneId} (h : store.contains id = true) :
    (store.attach owner child).contains id = true := by
  unfold Store.attach
  split
  · exact contains_put h
  · exact h

@[simp]
theorem withNew_config (store : Store) (parent : Option MembraneId) (shape : Shape) :
    (store.withNew parent shape).config = store.config := by
  cases parent with
  | none => rfl
  | some owner => exact attach_config _ owner _

theorem contains_withNew_nextId (store : Store) (parent : Option MembraneId) (shape : Shape) :
    (store.withNew parent shape).contains ⟨store.nextId⟩ = true := by
  have hfresh : ∀ owner, (store.withFresh shape owner).contains ⟨store.nextId⟩ = true := by
    intro owner
    rw [contains_iff, find?_withFresh, if_pos rfl]
    exact ⟨_, rfl⟩
  cases parent with
  | none => exact hfresh none
  | some owner => exact contains_attach (hfresh (some owner))

theorem contains_withNew {id : MembraneId} (h : store.contains id = true) :
    (store.withNew parent shape).contains id = true := by
  cases parent with
  | none => exact contains_withFresh h
  | some owner => exact contains_attach (contains_withFresh h)

/-! ### The way of a copy into the store -/

theorem HasRoomBeside.admits (h : store.HasRoomBeside parent shape) :
    (store.withNew parent shape).config.limits.Admits shape := by
  rw [withNew_config]
  exact (checkRoom_eq_ok_iff.mp h.room).1

theorem withCopy_of_find? {fresh : Membrane}
    (h : (store.withNew parent copy.shape).membranes.find? ⟨store.nextId⟩ = some fresh) :
    store.withCopy parent copy = (store.withNew parent copy.shape).put ⟨store.nextId⟩
      { fresh.withContent copy.shape copy.buffer with version := 1 } := by
  unfold withCopy
  simp only [h]

/-- Where a membrane for a whole copy could be made, the copy can be installed. -/
theorem replaceContent_withNew (hcopy : copy.verify = .ok ())
    (hroom : store.HasRoomBeside parent copy.shape) :
    (store.withNew parent copy.shape).replaceContent ⟨store.nextId⟩ copy.shape copy.buffer 1 =
      ⟨.ok (), store.withCopy parent copy⟩ := by
  obtain ⟨-, hsize, -⟩ := Snapshot.verify_eq_ok_iff.mp hcopy
  obtain ⟨fresh, hfresh⟩ := contains_iff.mp (store.contains_withNew_nextId parent copy.shape)
  rw [replaceContent_of_admits 1 hfresh hroom.admits hsize, withCopy_of_find? hfresh]

/-- **Installing a copy in the membrane made for it is never refused.** -/
theorem replaceContent_of_createBeside {id sibling : MembraneId} (hcopy : copy.verify = .ok ())
    (hcreate : store.createBeside id copy.shape = ⟨.ok sibling, after⟩) :
    (after.replaceContent sibling copy.shape copy.buffer 1).answer = .ok () := by
  obtain ⟨mine, -, hroom, rfl, rfl⟩ := (store.createBeside_atomically id copy.shape).of_eq_ok hcreate
  rw [replaceContent_withNew hcopy hroom]

theorem addSibling_atomically (id : MembraneId) (hcopy : copy.verify = .ok ()) :
    (store.addSibling id copy).Atomically store fun sibling after => ∃ mine,
      store.membranes.find? id = some mine ∧ store.HasRoomBeside mine.parent copy.shape ∧
      sibling = ⟨store.nextId⟩ ∧ after = store.withCopy mine.parent copy := by
  apply (createBeside_atomically id copy.shape).andThen
  rintro _ _ ⟨mine, hfind, hroom, rfl, rfl⟩
  -- The branch that destroys the new membrane goes away here.
  rw [replaceContent_withNew hcopy hroom]
  exact ⟨_, _, rfl, mine, hfind, hroom, rfl, rfl⟩

theorem contains_withCopy {id : MembraneId} (h : store.contains id = true) :
    (store.withCopy parent copy).contains id = true := by
  obtain ⟨fresh, hfresh⟩ := contains_iff.mp (store.contains_withNew_nextId parent copy.shape)
  rw [withCopy_of_find? hfresh]
  exact contains_put (contains_withNew h)

/-! ### The new membrane -/

/-- A store gains a membrane for a copy, behind all others with the same owner, and is otherwise as it
was. -/
structure GainsSibling (store after : Store) (parent : Option MembraneId) (copy : Snapshot)
    (sibling : MembraneId) : Prop where
  config_eq : after.config = store.config
  /-- The identifier is new. -/
  not_live : store.membranes.find? sibling = none
  /-- The membrane holds the copy at version one, without symbols and with all its energy. -/
  find?_sibling : after.membranes.find? sibling = some
    { id := sibling
      shape := copy.shape
      buffer := copy.buffer
      version := 1
      checksum := copy.checksum
      energy := store.config.limits.initialEnergy
      symbols := []
      parent
      children := []
      operations := 1 }
  /-- The owner names it last, and is otherwise as it was. -/
  find?_owner : ∀ owner, parent = some owner → ∃ membrane,
    store.membranes.find? owner = some membrane ∧
      after.membranes.find? owner =
        some { membrane with children := membrane.children ++ [sibling] }
  /-- Without an owner it is the last root. -/
  roots_eq : after.roots = if parent = none then store.roots ++ [sibling] else store.roots
  /-- The other membranes are as they were. -/
  find?_other : ∀ other, other ≠ sibling → parent ≠ some other →
    after.membranes.find? other = store.membranes.find? other

theorem withNew_roots (store : Store) (parent : Option MembraneId) (shape : Shape) :
    (store.withNew parent shape).roots =
      if parent = none then store.roots ++ [⟨store.nextId⟩] else store.roots := by
  cases parent with
  | none => rfl
  | some owner => exact attach_roots _ _ _

theorem HasRoomBeside.owner_live (h : store.HasRoomBeside parent shape) {owner : MembraneId}
    (howner : parent = some owner) : ∃ membrane, store.membranes.find? owner = some membrane :=
  contains_iff.mp (live_of_checkOwner (h.owner owner howner))

theorem HasRoomBeside.owner_ne (h : store.HasRoomBeside parent shape)
    (hnew : store.membranes.find? ⟨store.nextId⟩ = none) {owner : MembraneId}
    (howner : parent = some owner) : owner ≠ ⟨store.nextId⟩ := by
  rintro rfl
  obtain ⟨membrane, hfind⟩ := h.owner_live howner
  exact Option.some_ne_none membrane (hfind.symm.trans hnew)

theorem HasRoomBeside.find?_withNew (h : store.HasRoomBeside parent shape)
    (hnew : store.membranes.find? ⟨store.nextId⟩ = none) :
    (store.withNew parent shape).membranes.find? ⟨store.nextId⟩ =
      some (.fresh ⟨store.nextId⟩ shape (store.freshBuffer shape.volume.toNat).1
        store.config.limits.initialEnergy parent) := by
  cases parent with
  | none => exact (store.find?_withFresh shape none _).trans (if_pos rfl)
  | some owner =>
    -- Were the owner the new membrane itself, it would name itself as its child.
    show ((store.withFresh shape (some owner)).attach owner _).membranes.find? _ = _
    rw [find?_attach, if_neg (h.owner_ne hnew rfl).symm, find?_withFresh, if_pos rfl]

theorem find?_withNew_owner {owner : MembraneId} (hne : owner ≠ ⟨store.nextId⟩) :
    (store.withNew (some owner) shape).membranes.find? owner =
      (store.membranes.find? owner).map fun membrane =>
        { membrane with children := membrane.children ++ [⟨store.nextId⟩] } := by
  show ((store.withFresh shape (some owner)).attach owner _).membranes.find? _ = _
  rw [find?_attach, if_pos rfl, find?_withFresh, if_neg hne]

theorem find?_withNew_other {other : MembraneId} (hne : other ≠ ⟨store.nextId⟩)
    (hparent : parent ≠ some other) :
    (store.withNew parent shape).membranes.find? other = store.membranes.find? other := by
  cases parent with
  | none => exact (store.find?_withFresh shape none other).trans (if_neg hne)
  | some owner =>
    show ((store.withFresh shape (some owner)).attach owner _).membranes.find? _ = _
    rw [find?_attach, if_neg fun h => hparent (congrArg some h.symm), find?_withFresh, if_neg hne]

/-- A whole copy gets its membrane, and nothing else happens. -/
theorem HasRoomBeside.gainsSibling (h : store.HasRoomBeside parent copy.shape)
    (hnew : store.membranes.find? ⟨store.nextId⟩ = none) (hcopy : copy.verify = .ok ()) :
    store.GainsSibling (store.withCopy parent copy) parent copy ⟨store.nextId⟩ := by
  obtain ⟨-, -, hchecksum⟩ := Snapshot.verify_eq_ok_iff.mp hcopy
  rw [withCopy_of_find? (h.find?_withNew hnew)]
  constructor
  · rw [put_config, withNew_config]
  · exact hnew
  · rw [find?_put, if_pos rfl, hchecksum]
    rfl
  · rintro owner rfl
    obtain ⟨membrane, hfind⟩ := h.owner_live rfl
    have hne := h.owner_ne hnew rfl
    refine ⟨membrane, hfind, ?_⟩
    rw [find?_put, if_neg hne, find?_withNew_owner hne, hfind]
    rfl
  · rw [put_roots, withNew_roots]
  · intro other hne hparent
    rw [find?_put, if_neg hne, find?_withNew_other hne hparent]

/-! ### Settlements -/

/-- What carrying out a settlement for the membrane `mine` makes of a store, with the membrane made for a
copy beside it. -/
inductive Carried (store : Store) (id : MembraneId) (mine : Membrane) (settlement : Settlement) :
    Option MembraneId → Store → Prop
  /-- The local copy stays, and there is no other. -/
  | keep (hchanged : settlement.changed = false) (hsplit : settlement.split = none) :
      Carried store id mine settlement none store
  /-- The local membrane gets the result. -/
  | install (hchanged : settlement.changed = true) (hsplit : settlement.split = none)
      (hadmits : store.config.limits.Admits settlement.result.shape)
      (hsize : settlement.result.buffer.size = settlement.result.shape.volume.toNat) :
      Carried store id mine settlement none (store.put id
        { mine.withContent settlement.result.shape settlement.result.buffer with
          version := settlement.result.version })
  /-- The remote copy gets a membrane beside the local one. -/
  | beside {copy : Snapshot} (hchanged : settlement.changed = false)
      (hsplit : settlement.split = some copy)
      (hroom : store.HasRoomBeside mine.parent copy.shape) :
      Carried store id mine settlement (some ⟨store.nextId⟩) (store.withCopy mine.parent copy)

variable {id : MembraneId} {mine : Membrane} {settlement : Settlement}
  {sibling : Option MembraneId}

theorem carryOut_of_split_eq_none (hsplit : settlement.split = none) :
    store.carryOut id settlement =
      (store.adoptResult id settlement).andThen fun _ store => ⟨.ok none, store⟩ := by
  unfold carryOut
  rw [hsplit]
  rfl

theorem carryOut_of_changed (hfind : store.membranes.find? id = some mine)
    (hchanged : settlement.changed = true) (hsplit : settlement.split = none) :
    (store.carryOut id settlement).Atomically store (store.Carried id mine settlement) := by
  rw [carryOut_of_split_eq_none hsplit]
  unfold adoptResult
  rw [hchanged]
  apply (replaceContent_atomically id _ _ _).andThen
  rintro _ _ ⟨membrane, hmembrane, hadmits, hsize, rfl⟩
  obtain rfl := Option.some.inj (hfind.symm.trans hmembrane)
  exact ⟨_, _, rfl, .install hchanged hsplit hadmits hsize⟩

theorem carryOut_of_split (hfind : store.membranes.find? id = some mine)
    (hchanged : settlement.changed = false) (hsplit : settlement.split = some copy)
    (hcopy : copy.verify = .ok ()) :
    (store.carryOut id settlement).Atomically store (store.Carried id mine settlement) := by
  unfold carryOut adoptResult
  rw [hsplit, hchanged]
  -- The local membrane is not touched, so all that can be refused is the sibling.
  have hadd : (store.addSplit id (some copy)).Atomically store (store.Carried id mine settlement) := by
    apply (addSibling_atomically id hcopy).andThen
    rintro _ _ ⟨membrane, hmembrane, hroom, rfl, rfl⟩
    obtain rfl := Option.some.inj (hfind.symm.trans hmembrane)
    exact ⟨_, _, rfl, .beside hchanged hsplit hroom⟩
  apply hadd.andThen
  intro sibling after hcarried
  exact ⟨sibling, after, rfl, hcarried⟩

/-- Carrying out what a merge with a whole copy decided. -/
theorem carryOut_atomically {remote : Snapshot} (hfind : store.membranes.find? id = some mine)
    (hsettles : (Snapshot.ofMembrane mine).Settles remote settlement)
    (hremote : remote.verify = .ok ()) :
    (store.carryOut id settlement).Atomically store (store.Carried id mine settlement) := by
  cases hsettles with
  | keep => exact .keep rfl rfl
  | adopt => exact carryOut_of_changed hfind rfl rfl
  | blend => exact carryOut_of_changed hfind rfl rfl
  | split => exact carryOut_of_split hfind rfl rfl hremote

/-- A whole result within the limits is never refused. -/
theorem carryOut_of_admits (hfind : store.membranes.find? id = some mine)
    (hsplit : settlement.split = none) (hadmits : store.config.limits.Admits settlement.result.shape)
    (hresult : settlement.result.verify = .ok ()) :
    (store.carryOut id settlement).answer = .ok none := by
  obtain ⟨-, hsize, -⟩ := Snapshot.verify_eq_ok_iff.mp hresult
  rw [carryOut_of_split_eq_none hsplit]
  unfold adoptResult
  cases settlement.changed with
  | false => rfl
  | true =>
    -- Only a result that is something new meets the checks of the store.
    rw [if_pos rfl, replaceContent_of_admits _ hfind hadmits hsize]
    rfl

/-- The local membrane stays live. -/
theorem Carried.contains (h : store.Carried id mine settlement sibling after)
    (hlive : store.contains id = true) : after.contains id = true := by
  cases h with
  | keep => exact hlive
  | install => exact contains_put hlive
  | beside => exact contains_withCopy hlive

theorem HasRoomBeside.step (h : store.HasRoomBeside parent shape) :
    store.Step (store.withNew parent shape) := by
  cases parent with
  | none => exact .root h.room
  | some owner => exact .child (h.owner owner rfl) h.room

theorem steps_withCopy (hcopy : copy.verify = .ok ())
    (hroom : store.HasRoomBeside parent copy.shape) : store.Steps (store.withCopy parent copy) := by
  obtain ⟨-, hsize, -⟩ := Snapshot.verify_eq_ok_iff.mp hcopy
  obtain ⟨fresh, hfresh⟩ := contains_iff.mp (store.contains_withNew_nextId parent copy.shape)
  rw [withCopy_of_find? hfresh]
  exact hroom.step.steps.tail (.install 1 hfresh hroom.admits hsize)

theorem Carried.steps {remote : Snapshot} (h : store.Carried id mine settlement sibling after)
    (hfind : store.membranes.find? id = some mine)
    (hsettles : (Snapshot.ofMembrane mine).Settles remote settlement)
    (hremote : remote.verify = .ok ()) : store.Steps after := by
  cases h with
  | keep => exact .refl
  | install _ _ hadmits hsize => exact (Step.install _ hfind hadmits hsize).steps
  | beside _ hsplit hroom =>
    obtain rfl := hsettles.copy_eq hsplit
    exact steps_withCopy hremote hroom

end Store

end Membranes
