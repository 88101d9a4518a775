import Mathlib.Algebra.Order.BigOperators.Group.List
import Mathlib.Algebra.Order.Group.Nat
import Membranes.Proofs.Exchange.Installation
import Membranes.Proofs.Store.Capacity

/-!
# Filling a store

* `Store.Supplies`: there is room for a number of further membranes. Where there is, membranes are
  created (`HasRoomBeside.run_creation`), and each takes the place of one (`Stage.withNew`).
* `Store.exists_after`: what an operation can always take one step further, a run takes to its end. The
  steps are `Rooting.next` for the size of a store, `Populating.next` for the children of an owner,
  `Deepening.next` for the depth and `Collecting.next` for symbols.
* `Orderly.fillable`: so each of these counts can be brought up to its limit (`Store.Fillable`).
-/

namespace Membranes

theorem StoreConfig.limit_pos {config : StoreConfig} (h : config.validate = .ok config)
    (name : LimitName) : 1 ≤ name.value config.limits := by
  have hfault : config.fault? = none := by
    unfold validate at h
    split at h
    · assumption
    · exact nomatch h
  have hlimits : LimitName.all.find? (fun name => name.value config.limits == 0) = none := by
    unfold fault? at hfault
    split at hfault
    · exact nomatch hfault
    · assumption
  have hname : name ∈ LimitName.all := by cases name <;> decide
  have hpositive := List.find?_eq_none.mp hlimits name hname
  rw [beq_iff_eq] at hpositive
  exact Nat.one_le_iff_ne_zero.mpr hpositive

/-- Creates a membrane with this owner, or a root. -/
def Operation.creation (parent : Option MembraneId) (shape : Shape) : Operation :=
  match parent with
  | none => .create shape
  | some owner => .createUnder owner shape

namespace Store

variable {store : Store} {id owner : MembraneId} {parent : Option MembraneId} {shape : Shape}
  {membrane : Membrane} {count : ℕ}

/-! ### Room -/

/-- There is room for further membranes, and there are identifiers for them. -/
def Supplies (store : Store) (count : ℕ) : Prop :=
  store.size + count ≤ store.config.limits.maxMembranes.toNat ∧
    store.nextId.toNat + count < UInt32.size

theorem Supplies.checkRoom (h : store.Supplies (count + 1))
    (hadmits : store.config.limits.Admits shape) : store.checkRoom shape = .ok () := by
  obtain ⟨hsize, hcounter⟩ := h
  exact checkRoom_eq_ok_iff.mpr ⟨hadmits, by omega, by omega⟩

/-- Where there is room, a membrane is created. -/
theorem HasRoomBeside.run_creation (h : store.HasRoomBeside parent shape) :
    (Operation.creation parent shape).run store =
      ⟨.ok (.created ⟨store.nextId⟩), store.withNew parent shape⟩ := by
  cases parent with
  | none =>
    show (store.create shape).reply .created = _
    obtain ⟨refusal, hrun⟩ | ⟨_, _, hrun, -, rfl, rfl⟩ := (create_atomically shape).cases
    · have hrefused := create_eq_error_iff.mp (congrArg Outcome.answer hrun)
      exact nomatch h.room.symm.trans hrefused
    · rw [hrun]
      rfl
  | some owner =>
    have howner := h.owner owner rfl
    show (store.createUnder owner shape).reply .created = _
    obtain ⟨refusal, hrun⟩ | ⟨_, _, hrun, -, -, rfl, rfl⟩ := (createUnder_atomically owner shape).cases
    · obtain hrefused | ⟨-, hrefused⟩ := createUnder_eq_error_iff.mp (congrArg Outcome.answer hrun)
      · exact nomatch howner.symm.trans hrefused
      · exact nomatch h.room.symm.trans hrefused
    · rw [hrun]
      rfl

theorem Sound.size_withNew (h : store.Sound) (parent : Option MembraneId) (shape : Shape) :
    (store.withNew parent shape).size = store.size + 1 := by
  cases parent with
  | none => exact h.size_withRoot shape
  | some owner => exact h.size_withChild owner shape

theorem withNew_nextId (store : Store) (parent : Option MembraneId) (shape : Shape) :
    (store.withNew parent shape).nextId = store.nextId + 1 := by
  cases parent with
  | none => rfl
  | some owner => exact attach_nextId _ _ _

theorem childrenOf_nextId (h : store.Sound) : store.childrenOf ⟨store.nextId⟩ = [] := by
  rw [childrenOf_eq, h.find?_nextId]
  rfl

theorem HasRoomBeside.ownedBy_withNew (h : store.HasRoomBeside parent shape) (hsound : store.Sound)
    (other : Option MembraneId) :
    (store.withNew parent shape).ownedBy other =
      if other = parent then store.ownedBy other ++ [⟨store.nextId⟩] else store.ownedBy other := by
  cases parent with
  | none => exact ownedBy_withRoot hsound.find?_nextId shape other
  | some owner =>
    exact ownedBy_withChild hsound.find?_nextId (live_of_checkOwner (h.owner owner rfl)) shape other

/-- The other paths stay when a membrane is new. -/
theorem HasRoomBeside.path_withNew (h : store.HasRoomBeside parent shape) (hsound : store.Sound)
    {path : List MembraneId} (hpath : store.Path path id) :
    (store.withNew parent shape).Path path id := by
  refine hpath.of_ownedBy_subset fun other => ?_
  rw [h.ownedBy_withNew hsound]
  split
  · exact List.subset_append_left _ _
  · exact List.Subset.refl _

theorem Path.checkOwner {path : List MembraneId} (hpath : store.Path path owner) (h : store.Forest)
    (hchildren : (store.childrenOf owner).length < store.config.limits.maxChildren.toNat)
    (hdepth : path.length < store.config.limits.maxDepth.toNat) : store.checkOwner owner = .ok () := by
  obtain ⟨membrane, hfind⟩ := contains_iff.mp (hpath.live h owner hpath.last_mem)
  rw [childrenOf_of_find? hfind] at hchildren
  refine checkOwner_eq_ok_iff.mpr ⟨membrane, _, hfind, hchildren, hpath.depth_eq h, ?_⟩
  rwa [UInt32.lt_iff_toNat_lt, hpath.toNat_length h]

/-! ### Runs that fill a store -/

/-- What an allowed operation can always take one step further, a run of allowed operations takes to
its end. -/
theorem exists_after (Holds : ℕ → Store → Prop) (Allowed : Operation → Prop)
    (hstep : ∀ {left last}, Holds (left + 1) last →
      ∃ operation, Allowed operation ∧ Holds left (operation.run last).store)
    {left : ℕ} (h : Holds left store) :
    ∃ operations, (∀ operation ∈ operations, Allowed operation) ∧ Holds 0 (store.after operations) := by
  induction left generalizing store with
  | zero => exact ⟨[], nofun, h⟩
  | succ left ih =>
    obtain ⟨operation, hallowed, hnext⟩ := hstep h
    obtain ⟨operations, hoperations, hlast⟩ := ih hnext
    exact ⟨operation :: operations, List.forall_mem_cons.mpr ⟨hallowed, hoperations⟩, hlast⟩

/-- A stage of a run that creates membranes, of which some are still to come. -/
structure Stage (start : Store) (left : ℕ) (last : Store) : Prop where
  forest : last.Forest
  config_eq : last.config = start.config
  supplies : last.Supplies left

variable {start last : Store} {left target : ℕ}

theorem Stage.hasRoom (h : start.Stage (left + 1) last) (hadmits : start.config.limits.Admits shape)
    (howner : ∀ owner, parent = some owner → last.checkOwner owner = .ok ()) :
    last.HasRoomBeside parent shape :=
  ⟨howner, h.supplies.checkRoom (h.config_eq ▸ hadmits)⟩

/-- A new membrane takes the place of one that was to come. -/
theorem Stage.withNew (h : start.Stage (left + 1) last) (hroom : last.HasRoomBeside parent shape) :
    start.Stage left (last.withNew parent shape) := by
  obtain ⟨hsize, hcounter⟩ := h.supplies
  have hnext : (last.nextId + 1).toNat = last.nextId.toNat + 1 := by
    rw [UInt32.toNat_add]
    exact Nat.mod_eq_of_lt (by show _ + 1 < UInt32.size; omega)
  refine ⟨h.forest.step hroom.step, (withNew_config _ _ _).trans h.config_eq, ?_, ?_⟩
  · rw [h.forest.size_withNew, withNew_config]
    omega
  · rw [withNew_nextId, hnext]
    omega

theorem Stage.hasRoomUnder (h : start.Stage (left + 1) last) (hadmits : start.config.limits.Admits shape)
    {path : List MembraneId} (hpath : last.Path path owner)
    (hchildren : (last.childrenOf owner).length < start.config.limits.maxChildren.toNat)
    (hdepth : path.length < start.config.limits.maxDepth.toNat) :
    last.HasRoomBeside (some owner) shape := by
  rw [← h.config_eq] at hchildren hdepth
  apply h.hasRoom hadmits
  rintro _ ⟨⟩
  exact hpath.checkOwner h.forest hchildren hdepth

/-- A stage in filling a store with roots. -/
structure Rooting (start : Store) (target left : ℕ) (last : Store) : Prop
    extends Stage start left last where
  size_eq : last.size + left = target

theorem Rooting.next (h : start.Rooting target (left + 1) last)
    (hadmits : start.config.limits.Admits shape) :
    start.Rooting target left ((Operation.create shape).run last).store := by
  have hroom : last.HasRoomBeside none shape := h.hasRoom hadmits (by simp)
  have hrun : (Operation.create shape).run last = _ := hroom.run_creation
  have hsize := h.size_eq
  rw [hrun]
  refine ⟨h.toStage.withNew hroom, ?_⟩
  rw [h.forest.size_withNew]
  omega

/-- A stage in giving an owner children. -/
structure Populating (start : Store) (owner : MembraneId) (target left : ℕ) (last : Store) : Prop
    extends Stage start left last where
  path : ∃ path, last.Path path owner ∧ path.length < start.config.limits.maxDepth.toNat
  length_eq : (last.childrenOf owner).length + left = target

theorem Populating.next (h : start.Populating owner target (left + 1) last)
    (htarget : target ≤ start.config.limits.maxChildren.toNat)
    (hadmits : start.config.limits.Admits shape) :
    start.Populating owner target left ((Operation.createUnder owner shape).run last).store := by
  obtain ⟨path, hpath, hdepth⟩ := h.path
  have hlength := h.length_eq
  have hroom := h.hasRoomUnder hadmits hpath (by omega) hdepth
  have hrun : (Operation.createUnder owner shape).run last = _ := hroom.run_creation
  have howned : (last.withNew (some owner) shape).childrenOf owner =
      last.childrenOf owner ++ [⟨last.nextId⟩] :=
    (hroom.ownedBy_withNew h.forest.toSound (some owner)).trans (if_pos rfl)
  rw [hrun]
  refine ⟨h.toStage.withNew hroom, ⟨path, hroom.path_withNew h.forest.toSound hpath, hdepth⟩, ?_⟩
  rw [howned, List.length_append, List.length_singleton]
  omega

/-- A stage in going down to a level. -/
structure Deepening (start : Store) (target left : ℕ) (last : Store) : Prop
    extends Stage start left last where
  path : ∃ path id, last.Path path id ∧ last.childrenOf id = [] ∧ path.length + left = target

theorem Deepening.next (h : start.Deepening target (left + 1) last)
    (htarget : target ≤ start.config.limits.maxDepth.toNat)
    (hchildren : 1 ≤ start.config.limits.maxChildren.toNat)
    (hadmits : start.config.limits.Admits shape) :
    ∃ owner, start.Deepening target left ((Operation.createUnder owner shape).run last).store := by
  obtain ⟨path, owner, hpath, hbarren, hlength⟩ := h.path
  have hroom := h.hasRoomUnder hadmits hpath (by rw [hbarren]; exact hchildren) (by omega)
  have hrun : (Operation.createUnder owner shape).run last = _ := hroom.run_creation
  have howned := hroom.ownedBy_withNew h.forest.toSound
  have hnext : (last.withNew (some owner) shape).Owns owner ⟨last.nextId⟩ := by
    show _ ∈ (last.withNew (some owner) shape).ownedBy (some owner)
    rw [howned, if_pos rfl]
    exact List.mem_append_right _ List.mem_cons_self
  -- The new membrane is not its own owner, and nobody was named under its identifier before.
  have hbarren' : (last.withNew (some owner) shape).childrenOf ⟨last.nextId⟩ = [] := by
    have hne : (⟨last.nextId⟩ : MembraneId) ≠ owner := (hroom.owner_ne h.forest.find?_nextId rfl).symm
    have hchildren := (howned (some ⟨last.nextId⟩)).trans (if_neg (by simpa using hne))
    exact hchildren.trans (childrenOf_nextId h.forest.toSound)
  refine ⟨owner, ?_⟩
  rw [hrun]
  refine ⟨h.toStage.withNew hroom, _, _, .child (hroom.path_withNew h.forest.toSound hpath) hnext,
    hbarren', ?_⟩
  rw [List.length_append, List.length_singleton]
  omega

/-! ### Symbols -/

/-- There is always one more symbol. -/
theorem exists_symbol (held : List String) : ∃ symbol, checkSymbol symbol = .ok () ∧ symbol ∉ held := by
  -- A text that is longer than all others together is none of them.
  refine ⟨String.ofList (List.replicate ((held.map String.length).sum + 1) 'a'), ?_, fun hmem => ?_⟩
  · have hletter : Text.isBlank 'a' = false := by decide
    refine require_eq_ok_iff.mpr ?_
    rw [String.toList_ofList, Text.isBlankText, List.replicate_succ, List.all_cons, hletter,
      Bool.false_and]
  · have hle : _ ≤ (held.map String.length).sum := List.le_sum_of_mem (List.mem_map_of_mem hmem)
    rw [String.length_ofList, List.length_replicate] at hle
    omega

theorem addSymbol_of_adding {changed : Membrane} (hfind : store.membranes.find? id = some membrane)
    {symbol : String} (hsymbol : checkSymbol symbol = .ok ())
    (hadding : membrane.adding store.config.limits.maxObjects symbol = .ok changed) :
    store.addSymbol id symbol = ⟨.ok (), store.put id changed⟩ := by
  unfold addSymbol
  rw [hsymbol]
  exact update_of_ok hfind (by rw [hadding]; rfl)

/-- A membrane with room takes any symbol, be it new to it or not. -/
theorem exists_adding {limits : Limits} (hroom : membrane.symbols.length < limits.maxObjects.toNat)
    (symbol : String) : ∃ changed, membrane.adding limits.maxObjects symbol = .ok changed := by
  cases hholds : membrane.holds symbol with
  | true => exact ⟨_, Membrane.adding_eq_ok_iff.mpr (Or.inl ⟨hholds, rfl⟩)⟩
  | false => exact ⟨_, Membrane.adding_eq_ok_iff.mpr (Or.inr ⟨hholds, hroom, rfl⟩)⟩

/-- A stage in giving a membrane symbols. -/
structure Collecting (start : Store) (id : MembraneId) (target left : ℕ) (last : Store) : Prop where
  config_eq : last.config = start.config
  membrane : ∃ membrane, last.membranes.find? id = some membrane ∧
    membrane.symbols.length + left = target

theorem Collecting.next (h : start.Collecting id target (left + 1) last)
    (htarget : target ≤ start.config.limits.maxObjects.toNat) :
    ∃ symbol, start.Collecting id target left ((Operation.addSymbol id symbol).run last).store := by
  obtain ⟨membrane, hfind, hlength⟩ := h.membrane
  obtain ⟨symbol, hsymbol, hnew⟩ := exists_symbol membrane.symbols
  have hlacks : membrane.holds symbol = false := by
    rw [Membrane.holds, List.contains_eq_mem, decide_eq_false hnew]
  have hroom : membrane.symbols.length < last.config.limits.maxObjects.toNat := by
    rw [h.config_eq]
    omega
  have hadding := Membrane.adding_eq_ok_iff.mpr (Or.inr ⟨hlacks, hroom, rfl⟩)
  have hrun : (Operation.addSymbol id symbol).run last = (Outcome.mk _ _).reply _ :=
    congrArg (Outcome.reply _) (addSymbol_of_adding hfind hsymbol hadding)
  refine ⟨symbol, ?_⟩
  rw [hrun]
  refine ⟨h.config_eq, membrane.withSymbol symbol, ?_, ?_⟩
  · exact (find?_put last id id _).trans (if_pos rfl)
  · show (membrane.symbols ++ [symbol]).length + left = target
    rw [List.length_append, List.length_singleton]
    omega

/-! ### Every limit can be met -/

/-- Each count of a store can be brought up to its limit, if there is room for the membranes that this
takes. -/
structure Fillable (store : Store) : Prop where
  /-- Roots fill the store, if there are identifiers for them. -/
  membranes : ∀ {shape}, store.config.limits.Admits shape →
    store.nextId.toNat + (store.config.limits.maxMembranes.toNat - store.size) < UInt32.size →
      ∃ operations, (∀ operation ∈ operations, operation = .create shape) ∧
        (store.after operations).size = store.config.limits.maxMembranes.toNat
  /-- A membrane that is not on the deepest level gets all the children that it may have. -/
  children : ∀ {shape owner children depth}, store.config.limits.Admits shape →
    store.children owner = .ok children →
    store.depth owner = .ok depth → depth < store.config.limits.maxDepth →
    store.Supplies (store.config.limits.maxChildren.toNat - children.length) →
      ∃ operations more, (∀ operation ∈ operations, operation = .createUnder owner shape) ∧
        (store.after operations).children owner = .ok more ∧
        more.length = store.config.limits.maxChildren.toNat
  /-- A root and children of children lead to the deepest level. -/
  depth : ∀ {shape}, store.config.limits.Admits shape →
    store.Supplies store.config.limits.maxDepth.toNat →
      ∃ operations deepest, (∀ operation ∈ operations, ∃ parent, operation = .creation parent shape) ∧
        (store.after operations).depth deepest = .ok store.config.limits.maxDepth
  /-- A live membrane gets all the symbols that it may have. -/
  objects : ∀ {id}, store.contains id = true →
    ∃ operations symbols, (∀ operation ∈ operations, ∃ symbol, operation = .addSymbol id symbol) ∧
      (store.after operations).symbols id = .ok symbols ∧
      symbols.length = store.config.limits.maxObjects.toNat

theorem Forest.exists_after_size (h : store.Forest) (hadmits : store.config.limits.Admits shape)
    (hsupplies : store.Supplies count) :
    ∃ operations, (∀ operation ∈ operations, operation = .create shape) ∧
      (store.after operations).size = store.size + count := by
  have hstart : store.Rooting (store.size + count) count store := ⟨⟨h, rfl, hsupplies⟩, rfl⟩
  obtain ⟨operations, hoperations, hlast⟩ :=
    exists_after (store.Rooting _) (· = .create shape) (fun hstage => ⟨_, rfl, hstage.next hadmits⟩)
      hstart
  exact ⟨operations, hoperations, hlast.size_eq⟩

theorem children_eq_ok_iff {children : List MembraneId} :
    store.children id = .ok children ↔ store.contains id = true ∧ store.childrenOf id = children := by
  unfold Store.children
  rw [map_eq_ok_iff, contains_iff]
  simp only [membrane_eq_ok_iff]
  constructor
  · rintro ⟨membrane, hfind, rfl⟩
    exact ⟨⟨membrane, hfind⟩, childrenOf_of_find? hfind⟩
  · rintro ⟨⟨membrane, hfind⟩, rfl⟩
    exact ⟨membrane, hfind, (childrenOf_of_find? hfind).symm⟩

theorem Forest.exists_after_children (h : store.Forest) (hfits : store.Fits)
    (hadmits : store.config.limits.Admits shape) {path : List MembraneId}
    (hpath : store.Path path owner) (hdepth : path.length < store.config.limits.maxDepth.toNat)
    (hsupplies : store.Supplies
      (store.config.limits.maxChildren.toNat - (store.childrenOf owner).length)) :
    ∃ operations more, (∀ operation ∈ operations, operation = .createUnder owner shape) ∧
      (store.after operations).children owner = .ok more ∧
      more.length = store.config.limits.maxChildren.toNat := by
  have hstart : store.Populating owner store.config.limits.maxChildren.toNat _ store :=
    ⟨⟨h, rfl, hsupplies⟩, ⟨path, hpath, hdepth⟩, Nat.add_sub_of_le (hfits.children_le owner)⟩
  obtain ⟨operations, hoperations, hlast⟩ := exists_after (store.Populating owner _)
    (· = .createUnder owner shape) (fun hstage => ⟨_, rfl, hstage.next (Nat.le_refl _) hadmits⟩) hstart
  obtain ⟨path, hpath, -⟩ := hlast.path
  have hlive := hpath.live hlast.forest owner hpath.last_mem
  exact ⟨operations, _, hoperations, children_eq_ok_iff.mpr ⟨hlive, rfl⟩, hlast.length_eq⟩

theorem Forest.exists_after_depth (h : store.Forest) (hadmits : store.config.limits.Admits shape)
    (hchildren : 1 ≤ store.config.limits.maxChildren.toNat)
    (hdepth : 1 ≤ store.config.limits.maxDepth.toNat)
    (hsupplies : store.Supplies store.config.limits.maxDepth.toNat) :
    ∃ operations deepest, (∀ operation ∈ operations, ∃ parent, operation = .creation parent shape) ∧
      (store.after operations).depth deepest = .ok store.config.limits.maxDepth := by
  obtain ⟨below, hbelow⟩ := Nat.exists_eq_add_of_le' hdepth
  rw [hbelow] at hsupplies
  -- The root is on the first level.
  have hstage : store.Stage (below + 1) store := ⟨h, rfl, hsupplies⟩
  have hroom : store.HasRoomBeside none shape := hstage.hasRoom hadmits (by simp)
  have hrun : (Operation.creation none shape).run store = _ := hroom.run_creation
  have howned := hroom.ownedBy_withNew h.toSound
  have hroot : (store.withNew none shape).Path [⟨store.nextId⟩] ⟨store.nextId⟩ := by
    apply Path.root
    show _ ∈ (store.withNew none shape).ownedBy none
    rw [howned, if_pos rfl]
    exact List.mem_append_right _ List.mem_cons_self
  have hbarren : (store.withNew none shape).childrenOf ⟨store.nextId⟩ = [] :=
    (howned (some _)).trans ((if_neg nofun).trans (childrenOf_nextId h.toSound))
  have hstart : store.Deepening store.config.limits.maxDepth.toNat below
      ((Operation.creation none shape).run store).store := by
    rw [hrun]
    exact ⟨hstage.withNew hroom, _, _, hroot, hbarren, by rw [hbelow]; exact Nat.add_comm 1 below⟩
  obtain ⟨operations, hoperations, hlast⟩ := exists_after (store.Deepening _)
    (∃ parent, · = .creation parent shape)
    (fun hstage =>
      have ⟨owner, hnext⟩ := hstage.next (Nat.le_refl _) hchildren hadmits
      ⟨_, ⟨some owner, rfl⟩, hnext⟩) hstart
  obtain ⟨path, deepest, hpath, -, hlength⟩ := hlast.path
  refine ⟨_ :: operations, deepest, List.forall_mem_cons.mpr ⟨⟨none, rfl⟩, hoperations⟩, ?_⟩
  show (((Operation.creation none shape).run store).store.after operations).depth deepest = _
  rw [hpath.depth_eq hlast.forest, ← Nat.add_zero path.length, hlength, UInt32.ofNat_toNat]

theorem Fits.exists_after_symbols (h : store.Fits) (hlive : store.contains id = true) :
    ∃ operations symbols, (∀ operation ∈ operations, ∃ symbol, operation = .addSymbol id symbol) ∧
      (store.after operations).symbols id = .ok symbols ∧
      symbols.length = store.config.limits.maxObjects.toNat := by
  obtain ⟨membrane, hfind⟩ := contains_iff.mp hlive
  have hstart : store.Collecting id store.config.limits.maxObjects.toNat _ store :=
    ⟨rfl, membrane, hfind, Nat.add_sub_of_le (h.membrane hfind).symbols_le⟩
  obtain ⟨operations, hoperations, hlast⟩ := exists_after (store.Collecting id _)
    (∃ symbol, · = .addSymbol id symbol)
    (fun hstage =>
      have ⟨symbol, hnext⟩ := hstage.next (Nat.le_refl _)
      ⟨_, ⟨symbol, rfl⟩, hnext⟩) hstart
  obtain ⟨full, hfull, hlength⟩ := hlast.membrane
  exact ⟨operations, full.symbols, hoperations, symbols_of_find? hfull, hlength⟩

/-- **Each count of a store can be brought up to its limit.** -/
theorem Orderly.fillable (h : store.Orderly) (hvalid : store.config.validate = .ok store.config) :
    store.Fillable where
  membranes := by
    intro shape hadmits hcounter
    have hsize := Nat.add_sub_of_le h.fits.size_le
    have hrun := h.forest.exists_after_size hadmits ⟨Nat.le_of_eq hsize, hcounter⟩
    rwa [hsize] at hrun
  children := by
    intro shape owner children depth hadmits hchildren hdepth hlt hsupplies
    obtain ⟨hlive, rfl⟩ := children_eq_ok_iff.mp hchildren
    obtain ⟨path, hpath⟩ := h.forest.exists_path hlive
    obtain rfl := Except.ok.inj ((hpath.depth_eq h.forest).symm.trans hdepth)
    rw [UInt32.lt_iff_toNat_lt, hpath.toNat_length h.forest] at hlt
    exact h.forest.exists_after_children h.fits hadmits hpath hlt hsupplies
  depth hadmits hsupplies :=
    h.forest.exists_after_depth hadmits (StoreConfig.limit_pos hvalid .maxChildren) h.maxDepth_pos
      hsupplies
  objects := h.fits.exists_after_symbols

end Store

end Membranes
