import Membranes.Proofs.Store.Census
import Membranes.Proofs.Store.Depth

/-!
# Limits

* `Store.Fits`: a store holds no more than its limits allow. Steps keep this (`Forest.fits_step`).
* `Store.Orderly`: a forest for which this holds, and in which nothing on the deepest level owns anything.
  Its depths are within their limit as well (`Orderly.exists_depth`).
* `Store.Full` are the counts that can be at their limits, each as the refusal that says so.
* `Blames` says of a check that whenever a count stands against something, it is one of given ones; it
  is carried through the combinators of which checks and operations are made. So every operation that
  is refused because of a count meets a limit exactly (`Orderly.blames_run`).
-/

namespace Membranes

/-- The symbols and the energy of a membrane are within the limits. -/
structure Membrane.Fits (limits : Limits) (membrane : Membrane) : Prop where
  symbols_le : membrane.symbols.length ≤ limits.maxObjects.toNat
  energy_le : membrane.energy ≤ limits.initialEnergy

namespace Membrane

variable {limits : Limits} {membrane changed : Membrane}

theorem fits_fresh (limits : Limits) (id : MembraneId) (shape : Shape) (buffer : Array Binary32)
    (parent : Option MembraneId) : (fresh id shape buffer limits.initialEnergy parent).Fits limits :=
  ⟨Nat.zero_le _, UInt32.le_refl _⟩

theorem Fits.mutates (h : membrane.Fits limits) (hmutates : membrane.Mutates limits changed) :
    changed.Fits limits := by
  cases hmutates with
  | rewrite | reshape => exact ⟨h.symbols_le, h.energy_le⟩
  | @gain symbol _ hroom =>
    refine ⟨?_, h.energy_le⟩
    show (membrane.symbols ++ [symbol]).length ≤ _
    rw [List.length_append, List.length_singleton]
    exact hroom
  | lose => exact ⟨Nat.le_trans List.length_erase_le h.symbols_le, h.energy_le⟩

theorem Fits.withContent (h : membrane.Fits limits) (shape : Shape) (buffer : Array Binary32)
    (version : UInt64) :
    ({ membrane.withContent shape buffer with version } : Membrane).Fits limits :=
  ⟨h.symbols_le, h.energy_le⟩

theorem Fits.withEnergy (h : membrane.Fits limits) {energy : UInt32} (hle : energy ≤ membrane.energy) :
    ({ membrane with energy } : Membrane).Fits limits :=
  ⟨h.symbols_le, UInt32.le_trans hle h.energy_le⟩

theorem Fits.withChildren (h : membrane.Fits limits) (children : List MembraneId) :
    ({ membrane with children } : Membrane).Fits limits :=
  ⟨h.symbols_le, h.energy_le⟩

end Membrane

namespace Store

/-- What a store holds is within its limits. -/
structure Fits (store : Store) : Prop where
  size_le : store.size ≤ store.config.limits.maxMembranes.toNat
  children_le : ∀ owner, (store.childrenOf owner).length ≤ store.config.limits.maxChildren.toNat
  membrane : ∀ {id membrane}, store.membranes.find? id = some membrane →
    membrane.Fits store.config.limits

variable {store after : Store} {id owner : MembraneId} {membrane changed : Membrane} {shape : Shape}
  {parent : Option MembraneId}

/-! ### Steps keep the limits -/

theorem fits_empty (config : StoreConfig) (entropy : UInt64) : (Store.empty config entropy).Fits :=
  ⟨Nat.zero_le _, fun _ => Nat.zero_le _, nofun⟩

theorem Fits.put (h : store.Fits) (hfind : store.membranes.find? id = some membrane)
    (hchanged : changed.Fits store.config.limits) (hchildren : changed.children = membrane.children) :
    (store.put id changed).Fits where
  size_le := by
    rw [size_put hfind]
    exact h.size_le
  children_le owner := by
    have howned : (store.put id changed).childrenOf owner = store.childrenOf owner :=
      ownedBy_put hfind hchildren (some owner)
    rw [howned]
    exact h.children_le owner
  membrane := by
    intro other current hcurrent
    rw [find?_put] at hcurrent
    split at hcurrent
    · exact Option.some.inj hcurrent ▸ hchanged
    · exact h.membrane hcurrent

theorem Fits.find?_withFresh (h : store.Fits) {current : Membrane}
    (hcurrent : (store.withFresh shape parent).membranes.find? id = some current) :
    current.Fits store.config.limits := by
  rw [Store.find?_withFresh] at hcurrent
  split at hcurrent
  · exact Option.some.inj hcurrent ▸ Membrane.fits_fresh _ _ _ _ _
  · exact h.membrane hcurrent

theorem Sound.fits_withRoot (h : store.Sound) (hfits : store.Fits)
    (hroom : store.checkRoom shape = .ok ()) : (store.withRoot shape).Fits where
  size_le := by
    rw [h.size_withRoot]
    exact (checkRoom_eq_ok_iff.mp hroom).2.1
  children_le owner := by
    have howned : (store.withRoot shape).childrenOf owner = store.childrenOf owner :=
      ownedBy_withRoot h.find?_nextId shape (some owner)
    rw [howned]
    exact hfits.children_le owner
  membrane hcurrent := hfits.find?_withFresh hcurrent

theorem Sound.childrenOf_withChild (h : store.Sound) (hlive : store.contains owner = true)
    (shape : Shape) (other : MembraneId) :
    (store.withChild owner shape).childrenOf other =
      if other = owner then store.childrenOf other ++ [⟨store.nextId⟩] else store.childrenOf other := by
  have howned := ownedBy_withChild h.find?_nextId hlive shape (some other)
  simpa only [ownedBy, Option.some.injEq] using howned

theorem Sound.fits_withChild (h : store.Sound) (hfits : store.Fits)
    (howner : store.checkOwner owner = .ok ()) (hroom : store.checkRoom shape = .ok ()) :
    (store.withChild owner shape).Fits := by
  have hconfig : (store.withChild owner shape).config = store.config := attach_config _ _ _
  constructor
  · rw [hconfig, h.size_withChild]
    exact (checkRoom_eq_ok_iff.mp hroom).2.1
  · intro other
    rw [hconfig, h.childrenOf_withChild (live_of_checkOwner howner)]
    split
    · rename_i heq
      -- The owner is the only one with more children, and they were counted before.
      obtain ⟨membrane, _, hfind, hchildren, -⟩ := checkOwner_eq_ok_iff.mp howner
      rw [heq, childrenOf_of_find? hfind, List.length_append, List.length_singleton]
      exact hchildren
    · exact hfits.children_le other
  · intro other current hcurrent
    have hrenames : (store.withFresh shape (some owner)).Renames (store.withChild owner shape) owner
        (· ++ [⟨store.nextId⟩]) := find?_attach _ owner _
    obtain ⟨before, children, hbefore, rfl⟩ := hrenames.find?_eq_some hcurrent
    rw [hconfig]
    exact (hfits.find?_withFresh hbefore).withChildren children

theorem length_childrenOf_withoutSubtree_le :
    ((store.withoutSubtree id parent).childrenOf owner).length ≤ (store.childrenOf owner).length := by
  have howned : (store.withoutSubtree id parent).childrenOf owner = _ :=
    ownedBy_withoutSubtree parent (some owner)
  rw [howned]
  split
  · exact Nat.zero_le _
  · split
    · exact List.length_filter_le _ _
    · exact Nat.le_refl _

theorem Forest.fits_withoutSubtree (h : store.Forest) (hfits : store.Fits)
    (hfind : store.membranes.find? id = some membrane) :
    (store.withoutSubtree id membrane.parent).Fits := by
  constructor
  · rw [withoutSubtree_config]
    exact Nat.le_trans (Nat.le.intro (h.size_withoutSubtree hfind)) hfits.size_le
  · intro owner
    rw [withoutSubtree_config]
    exact Nat.le_trans length_childrenOf_withoutSubtree_le (hfits.children_le owner)
  · intro other current hcurrent
    obtain ⟨before, children, hbefore, rfl⟩ := find?_withoutSubtree_eq_some hcurrent
    rw [withoutSubtree_config]
    exact (hfits.membrane hbefore).withChildren children

/-- **Steps keep a store within its limits.** -/
theorem Forest.fits_step (h : store.Forest) (hfits : store.Fits) (hstep : store.Step after) :
    after.Fits := by
  cases hstep with
  | mutate hfind hmutates =>
    exact hfits.put hfind ((hfits.membrane hfind).mutates hmutates) hmutates.place_eq.2
  | install version hfind =>
    exact hfits.put hfind ((hfits.membrane hfind).withContent _ _ version) rfl
  | spend hfind hamount =>
    exact hfits.put hfind ((hfits.membrane hfind).withEnergy (UInt32.sub_le hamount)) rfl
  | root hroom => exact h.fits_withRoot hfits hroom
  | child howner hroom => exact h.fits_withChild hfits howner hroom
  | destroy hfind => exact h.fits_withoutSubtree hfits hfind

theorem Forest.fits_steps (h : store.Forest) (hfits : store.Fits) (hsteps : store.Steps after) :
    after.Fits := by
  induction hsteps with
  | refl => exact hfits
  | tail hsteps hstep ih => exact (h.steps hsteps).fits_step ih hstep

/-! ### Depths -/

/-- A path is no longer than the limits allow, since what owns something is not on the deepest level. -/
theorem Path.length_le_maxDepth {path : List MembraneId} (hpath : store.Path path id)
    (hshallow : store.Shallow) (hdepth : 1 ≤ store.config.limits.maxDepth.toNat) :
    path.length ≤ store.config.limits.maxDepth.toNat := by
  cases hpath with
  | root => exact hdepth
  | child hpath howns =>
    rw [List.length_append, List.length_singleton]
    exact hshallow _ _ _ hpath howns

/-- A forest within its limits, which has a first level at least. -/
structure Orderly (store : Store) : Prop where
  forest : store.Forest
  fits : store.Fits
  shallow : store.Shallow
  maxDepth_pos : 1 ≤ store.config.limits.maxDepth.toNat

theorem Orderly.exists_depth (h : store.Orderly) (hlive : store.contains id = true) :
    ∃ depth, store.depth id = .ok depth ∧ depth ≤ store.config.limits.maxDepth := by
  obtain ⟨path, hpath⟩ := h.forest.exists_path hlive
  refine ⟨_, hpath.depth_eq h.forest, ?_⟩
  rw [UInt32.le_iff_toNat_le, hpath.toNat_length h.forest]
  exact hpath.length_le_maxDepth h.shallow h.maxDepth_pos

end Store

/-! ### Counts that stand against something -/

/-- Whether a limit is on a count, so that the store fills up to it. -/
def Resource.isCounted : Resource → Bool
  | .membranes | .children | .depth | .objects => true
  | .volume | .energy => false

/-- Whether a refusal says that a count is at its limit. -/
def Refusal.isCounted : Refusal → Bool
  | .capacity resource _ => resource.isCounted
  | _ => false

/-- Where a count stands against something, it is one of which `full` holds. -/
def Blames {α : Type} (check : Except Refusal α) (full : Refusal → Prop) : Prop :=
  ∀ refusal, check = .error refusal → refusal.isCounted = true → full refusal

section Blames

variable {α β : Type} {full : Refusal → Prop} {check : Except Refusal α}

theorem blames_ok (result : α) : Blames (.ok result) full :=
  nofun

theorem blames_error {refusal : Refusal} (h : refusal.isCounted = true → full refusal) :
    Blames (.error refusal : Except Refusal α) full := by
  rintro _ ⟨⟩ hcounted
  exact h hcounted

theorem blames_require {condition : Prop} [Decidable condition] {refusal : Refusal}
    (h : ¬ condition → refusal.isCounted = true → full refusal) :
    Blames (require condition refusal) full := by
  intro other hrefused hcounted
  obtain ⟨hfails, rfl⟩ := require_eq_error_iff.mp hrefused
  exact h hfails hcounted

theorem Blames.bind (h : Blames check full) {next : α → Except Refusal β}
    (hnext : ∀ result, check = .ok result → Blames (next result) full) :
    Blames (check >>= next) full := by
  intro refusal hrefused
  obtain hcheck | ⟨result, hresult, hrefused⟩ := bind_eq_error_iff.mp hrefused
  · exact h refusal hcheck
  · exact hnext result hresult refusal hrefused

theorem Blames.map (h : Blames check full) (f : α → β) : Blames (check.map f) full := by
  cases check with
  | ok result => exact blames_ok (f result)
  | error refusal => exact blames_error (h refusal rfl)

theorem Blames.andThen {outcome : Outcome α} (h : Blames outcome.answer full)
    {next : α → Store → Outcome β}
    (hnext : ∀ result, Blames (next result outcome.store).answer full) :
    Blames (outcome.andThen next).answer full := by
  intro refusal hrefused
  obtain hanswer | ⟨result, -, hrefused⟩ := Outcome.andThen_eq_error_iff.mp hrefused
  · exact h refusal hanswer
  · exact hnext result refusal hrefused

namespace Store

variable {store : Store} {id : MembraneId}

theorem blames_membrane : Blames (store.membrane id) full := by
  intro refusal hrefused hcounted
  obtain ⟨-, rfl⟩ := store.membrane_eq_error_iff.mp hrefused
  exact nomatch hcounted

theorem blames_checking (h : Blames check full) {next : α → Outcome β}
    (hnext : ∀ result, check = .ok result → Blames (next result).answer full) :
    Blames (store.checking check next).answer full := by
  cases check with
  | ok result => exact hnext result rfl
  | error refusal => exact blames_error (h refusal rfl)

theorem blames_update {change : Membrane → Except Refusal (α × Membrane)}
    (h : ∀ membrane, store.membranes.find? id = some membrane → Blames (change membrane) full) :
    Blames (store.update id change).answer full := by
  refine blames_checking (blames_membrane.bind fun membrane hmembrane => ?_) fun _ _ => blames_ok _
  exact h membrane (store.membrane_eq_ok_iff.mp hmembrane)

end Store

end Blames

namespace Store

variable {store : Store} {id owner : MembraneId} {shape : Shape} {recipient : Option MembraneId}

/-! ### Full counts -/

/-- A count of a store that is at its limit, as the refusal that says so. `recipient` is the membrane
that was to get one more child or one more symbol. -/
inductive Full (store : Store) (recipient : Option MembraneId) : Refusal → Prop
  /-- The owner has all the children that it may have. -/
  | children {owner : MembraneId} {membrane : Membrane} (hrecipient : recipient = some owner)
      (hfind : store.membranes.find? owner = some membrane)
      (hfull : membrane.children.length = store.config.limits.maxChildren.toNat) :
      Full store recipient (.capacity .children store.config.limits.maxChildren.toUInt64)
  /-- The owner is on the deepest level. -/
  | depth {owner : MembraneId} (hrecipient : recipient = some owner)
      (hdeepest : store.depth owner = .ok store.config.limits.maxDepth) :
      Full store recipient (.capacity .depth store.config.limits.maxDepth.toUInt64)
  /-- The membrane holds all the symbols that it may hold. -/
  | objects {id : MembraneId} {membrane : Membrane} (hrecipient : recipient = some id)
      (hfind : store.membranes.find? id = some membrane)
      (hfull : membrane.symbols.length = store.config.limits.maxObjects.toNat) :
      Full store recipient (.capacity .objects store.config.limits.maxObjects.toUInt64)
  /-- The store has all the membranes that it may have. -/
  | membranes (hfull : store.size = store.config.limits.maxMembranes.toNat) :
      Full store recipient (.capacity .membranes store.config.limits.maxMembranes.toUInt64)
  /-- The counter is used up. -/
  | identifiers (hused : store.nextId.toNat + 1 = UInt32.size) :
      Full store recipient (.capacity .membranes 0xFFFFFFFF)

theorem blames_checkShape {full : Refusal → Prop} : Blames (store.checkShape shape) full := by
  refine (blames_require fun _ => nofun).bind fun _ _ => ?_
  exact (blames_require fun _ => nofun).bind fun _ _ => blames_require fun _ => nofun

theorem Fits.blames_checkRoom (h : store.Fits) :
    Blames (store.checkRoom shape) (store.Full recipient) := by
  refine blames_checkShape.bind fun _ _ => ?_
  refine (blames_require fun hsize _ => ?_).bind fun _ _ => blames_require fun hcounter _ => ?_
  · exact .membranes (Nat.le_antisymm h.size_le (Nat.le_of_not_lt hsize))
  · have hbound : store.nextId.toNat < UInt32.size := store.nextId.toNat_lt
    exact .identifiers (Nat.le_antisymm hbound (Nat.le_of_not_lt hcounter))

theorem Orderly.blames_checkOwner (h : store.Orderly) :
    Blames (store.checkOwner owner) (store.Full (some owner)) := by
  refine blames_membrane.bind fun membrane hmembrane => ?_
  have hfind := store.membrane_eq_ok_iff.mp hmembrane
  obtain ⟨deepest, hdepth, hle⟩ := h.exists_depth (contains_iff.mpr ⟨membrane, hfind⟩)
  rw [hdepth]
  refine (blames_require fun hchildren _ => ?_).bind fun _ _ =>
    (blames_ok _).bind fun depth hcounted => blames_require fun hdeep _ => ?_
  · have hmost := h.fits.children_le owner
    rw [childrenOf_of_find? hfind] at hmost
    exact .children rfl hfind (Nat.le_antisymm hmost (Nat.le_of_not_lt hchildren))
  -- The depth is within the limit and not below it.
  · obtain rfl := Except.ok.inj hcounted
    have hdeepest : deepest = store.config.limits.maxDepth :=
      UInt32.le_antisymm hle (UInt32.not_lt.mp hdeep)
    exact .depth rfl (hdepth.trans (congrArg _ hdeepest))

theorem Fits.blames_checkSymbolRoom (h : store.Fits) {membrane : Membrane}
    (hfind : store.membranes.find? id = some membrane) :
    Blames (membrane.checkSymbolRoom store.config.limits.maxObjects) (store.Full (some id)) :=
  blames_require fun hroom _ =>
    .objects rfl hfind (Nat.le_antisymm (h.membrane hfind).symbols_le (Nat.le_of_not_lt hroom))

theorem Fits.blames_adding (h : store.Fits) {membrane : Membrane}
    (hfind : store.membranes.find? id = some membrane) (symbol : String) :
    Blames (membrane.adding store.config.limits.maxObjects symbol) (store.Full (some id)) := by
  unfold Membrane.adding
  split
  · exact blames_ok _
  · exact (h.blames_checkSymbolRoom hfind).map _

theorem Fits.blames_checkMove (h : store.Fits) (source target : MembraneId) (symbol : String) :
    Blames (store.checkMove source target symbol) (store.Full (some target)) := by
  refine (blames_require fun _ => nofun).bind fun _ _ => ?_
  refine blames_membrane.bind fun _ _ => blames_membrane.bind fun taker htaker => ?_
  refine (blames_require fun _ => nofun).bind fun _ _ => ?_
  split
  · exact blames_ok _
  · exact h.blames_checkSymbolRoom (store.membrane_eq_ok_iff.mp htaker)

/-! ### Operations -/

theorem Fits.blames_allocate (h : store.Fits) (shape : Shape) (parent : Option MembraneId) :
    Blames (store.allocate shape parent).answer (store.Full recipient) :=
  blames_checking h.blames_checkRoom fun _ _ => blames_ok _

theorem Fits.blames_create (h : store.Fits) (shape : Shape) :
    Blames (store.create shape).answer (store.Full recipient) :=
  (h.blames_allocate shape none).andThen fun _ => blames_ok _

theorem Orderly.blames_createUnder (h : store.Orderly) (owner : MembraneId) (shape : Shape) :
    Blames (store.createUnder owner shape).answer (store.Full (some owner)) := by
  refine blames_checking h.blames_checkOwner fun _ _ => ?_
  exact (h.fits.blames_allocate shape (some owner)).andThen fun _ => blames_update fun _ _ => blames_ok _

theorem blames_replaceContent (id : MembraneId) (shape : Shape) (buffer : Array Binary32)
    (version : UInt64) (store : Store) (full : Refusal → Prop) :
    Blames (store.replaceContent id shape buffer version).answer full := by
  refine blames_checking ?_ fun _ _ => blames_update fun _ _ => blames_ok _
  exact blames_checkShape.bind fun _ _ => blames_require fun _ => nofun

theorem blames_destroy (id : MembraneId) (store : Store) (full : Refusal → Prop) :
    Blames (store.destroy id).answer full :=
  blames_checking (blames_membrane.map _) fun _ _ => blames_ok _

theorem blames_offset {full : Refusal → Prop} (membrane : Membrane) (indices : List UInt32) :
    Blames (membrane.offset indices) full := by
  unfold Membrane.offset
  split
  · exact blames_ok _
  · exact blames_error nofun

end Store

/-- The membrane that an operation gives a child or a symbol. -/
def Operation.recipient : Operation → Option MembraneId
  | .createUnder owner _ => some owner
  | .addSymbol id _ => some id
  | .moveSymbol _ target _ => some target
  | _ => none

/-- **An operation is refused because of a count only when the count is at its limit.** -/
theorem Store.Orderly.blames_run {store : Store} (h : store.Orderly) (operation : Operation) :
    Blames (operation.run store).answer (store.Full operation.recipient) := by
  cases operation with
  | create shape => exact (h.fits.blames_create shape).map _
  | createUnder owner shape => exact (h.blames_createUnder owner shape).map _
  | destroy id => exact (blames_destroy id store _).map _
  | reshape id shape =>
    refine Blames.map (blames_checking blames_membrane fun _ _ => ?_) _
    refine blames_checking blames_checkShape fun _ _ => blames_update fun _ _ => ?_
    exact ((blames_require fun _ => nofun).bind fun _ _ => blames_ok _).bind fun _ _ => blames_ok _
  | spendEnergy id amount =>
    refine Blames.map (blames_update fun _ _ => ?_) _
    exact ((blames_require fun _ => nofun).bind fun _ _ => blames_ok _).bind fun _ _ => blames_ok _
  | replaceContent id shape buffer version =>
    exact (blames_replaceContent id shape buffer version store _).map _
  | get id indices =>
    refine Blames.map (blames_membrane.bind fun membrane _ => ?_) _
    exact (blames_offset membrane indices).bind fun _ _ => blames_ok _
  | set id indices value =>
    refine Blames.map (blames_update fun membrane _ => ?_) _
    exact ((blames_offset membrane indices).bind fun _ _ => blames_ok _).bind fun _ _ => blames_ok _
  | fill id value => exact Blames.map (blames_update fun _ _ => blames_ok _) _
  | addSymbol id symbol =>
    refine Blames.map (blames_checking (blames_require fun _ => nofun) fun _ _ => ?_) _
    exact blames_update fun _ hfind => (h.fits.blames_adding hfind symbol).bind fun _ _ => blames_ok _
  | removeSymbol id symbol =>
    refine Blames.map (blames_update fun _ _ => ?_) _
    exact (blames_require fun _ => nofun).bind fun _ _ => blames_ok _
  | holdsSymbol id symbol => exact (blames_membrane.map _).map _
  | symbols id => exact (blames_membrane.map _).map _
  | moveSymbol source target symbol =>
    refine Blames.map (blames_checking (h.fits.blames_checkMove source target symbol) fun _ _ => ?_) _
    split
    · exact blames_ok _
    · refine (blames_update fun _ _ => blames_ok _).andThen fun _ => ?_
      exact blames_update fun _ _ => blames_ok _

end Membranes
