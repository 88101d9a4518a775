import Mathlib.Data.List.Perm.Subperm
import Membranes.Proofs.Store.Ownership

/-!
# Forests and their subtrees

* `Store.Forest` is what keeps a sound store together: the two sides of ownership agree, and whatever is
  named is named in ascending order. An owner is older than what it owns, so there are no cycles
  (`Forest.reaches_le`), and siblings have nothing below them in common (`Forest.eq_of_reaches`).
* `Forest.existsUnique_path`: one path leads to each live membrane, and it begins at a root.
* `PostOrder` lists rows of membranes with what is below them, owners behind what they own.
  `PostOrder.walk_eq` says that the walk with a stack produces this list, and
  `Forest.descendants_eq` that the steps allotted to the walk suffice. So what is destroyed with a
  membrane is what it reaches (`Forest.mem_descendants_iff`).
-/

namespace Membranes

namespace Store

open Relation

/-- The two sides of ownership of a sound store agree. -/
structure Forest (store : Store) : Prop extends Sound store where
  /-- What an owner names, or the store among its roots, is in the order of creation. -/
  ascending : ∀ owner, (store.ownedBy owner).Pairwise (· < ·)
  /-- What is named names its owner in turn, and the other way round. -/
  mem_ownedBy_iff : ∀ {owner id}, id ∈ store.ownedBy owner ↔ store.ownerOf? id = some owner

/-- A membrane names another one among its children. -/
def Owns (store : Store) (owner id : MembraneId) : Prop := id ∈ store.childrenOf owner

/-- Another membrane is the membrane itself, or is owned by one that it reaches. -/
abbrev Reaches (store : Store) : MembraneId → MembraneId → Prop := ReflTransGen store.Owns

variable {store : Store} {owner id other top : MembraneId}

theorem reaches_iff : store.Reaches id other ↔
    other = id ∨ ∃ child ∈ store.childrenOf id, store.Reaches child other := by
  rw [eq_comm]
  exact ReflTransGen.cases_head_iff

namespace Forest

/-! ### Owners -/

theorem nodup_childrenOf (h : store.Forest) (id : MembraneId) : (store.childrenOf id).Nodup :=
  (h.ascending (some id)).imp MembraneId.ne_of_lt

theorem mem_roots_iff (h : store.Forest) : id ∈ store.roots ↔ store.ownerOf? id = some none := by
  show id ∈ store.ownedBy none ↔ _
  exact h.mem_ownedBy_iff

theorem ownerOf?_eq (h : store.Forest) (howns : store.Owns owner id) :
    store.ownerOf? id = some (some owner) :=
  h.mem_ownedBy_iff.mp howns

theorem live_of_ownerOf? {place : Option MembraneId} (h : store.ownerOf? id = some place) :
    store.contains id = true := by
  obtain ⟨membrane, hfind, -⟩ := ownerOf?_eq_some_iff.mp h
  exact contains_iff.mpr ⟨membrane, hfind⟩

theorem owner_unique (h : store.Forest) (howns : store.Owns owner id) (hother : store.Owns other id) :
    owner = other := by
  have howner := (h.ownerOf?_eq howns).symm.trans (h.ownerOf?_eq hother)
  exact Option.some.inj (Option.some.inj howner)

theorem lt_nextId_of_live (h : store.Forest) (hlive : store.contains id = true) :
    id.value.toNat < store.nextId.toNat := by
  obtain ⟨membrane, hfind⟩ := contains_iff.mp hlive
  exact UInt32.lt_iff_toNat_lt.mp (h.lt_nextId hfind)

/-- An owner is older than what it owns. -/
theorem owns_lt (h : store.Forest) (howns : store.Owns owner id) :
    owner.value.toNat < id.value.toNat := by
  obtain ⟨membrane, hfind, hparent⟩ := ownerOf?_eq_some_iff.mp (h.ownerOf?_eq howns)
  exact MembraneId.lt_iff_toNat_lt.mp ((h.membrane hfind).owner_lt owner hparent)

/-- What names children is live, for it is where they have to be looked up. -/
theorem live_of_owns (howns : store.Owns owner id) : store.contains owner = true := by
  unfold Owns at howns
  rw [childrenOf_eq] at howns
  cases hfind : store.membranes.find? owner with
  | none =>
    rw [hfind] at howns
    exact absurd howns List.not_mem_nil
  | some membrane => exact contains_iff.mpr ⟨membrane, hfind⟩

theorem reaches_le (h : store.Forest) (hreaches : store.Reaches top id) :
    top.value.toNat ≤ id.value.toNat := by
  induction hreaches with
  | refl => exact Nat.le_refl _
  | tail _ howns ih =>
    have := h.owns_lt howns
    omega

/-- Going up from children to owners comes to an end. -/
theorem wellFounded_owns (h : store.Forest) : WellFounded store.Owns :=
  Subrelation.wf h.owns_lt (measure fun id : MembraneId => id.value.toNat).wf

/-- Going down from owners to children comes to an end, for the counter is above all of them. -/
theorem wellFounded_owned (h : store.Forest) : WellFounded (Function.swap store.Owns) := by
  refine Subrelation.wf ?_ (measure fun id : MembraneId => store.nextId.toNat - id.value.toNat).wf
  intro child owner howns
  have hlt := h.owns_lt howns
  have hcounter := h.lt_nextId_of_live (live_of_ownerOf? (h.ownerOf?_eq howns))
  show store.nextId.toNat - child.value.toNat < store.nextId.toNat - owner.value.toNat
  omega

/-- Of two membranes with one owner neither reaches the other. -/
theorem eq_of_sibling_reaches (h : store.Forest) {place : Option MembraneId}
    (hid : store.ownerOf? id = some place) (hother : store.ownerOf? other = some place)
    (hreaches : store.Reaches id other) : id = other := by
  rcases hreaches.cases_tail with heq | ⟨between, hbetween, howns⟩
  · exact heq.symm
  · -- The last step comes from their common owner, which is older than both.
    have hplace : place = some between :=
      (Option.some.inj (hother.symm.trans (h.ownerOf?_eq howns)))
    have hback : store.Owns between id := h.mem_ownedBy_iff.mpr (hplace ▸ hid)
    have hle := h.reaches_le hbetween
    have hlt := h.owns_lt hback
    omega

/-- Siblings have nothing below them in common. -/
theorem eq_of_reaches (h : store.Forest) {place : Option MembraneId}
    (hid : store.ownerOf? id = some place) (hother : store.ownerOf? other = some place)
    {below : MembraneId} (hbelow : store.Reaches id below) (hbelow' : store.Reaches other below) :
    id = other := by
  -- Upwards everything has one owner at most, so the two ways up from `below` share their beginning.
  have hunique : Relator.RightUnique (Function.swap store.Owns) :=
    fun _ _ _ howns howns' => h.owner_unique howns howns'
  rcases ReflTransGen.total_of_right_unique hunique hbelow.swap hbelow'.swap with hup | hup
  · exact (h.eq_of_sibling_reaches hother hid (reflTransGen_swap.mp hup)).symm
  · exact h.eq_of_sibling_reaches hid hother (reflTransGen_swap.mp hup)

end Forest

/-! ### Paths -/

/-- A list of identifiers that leads from a root to a membrane, each one owned by the one before it. -/
inductive Path (store : Store) : List MembraneId → MembraneId → Prop
  /-- A root is reached at once. -/
  | root {id : MembraneId} (hroot : id ∈ store.roots) : Path store [id] id
  /-- A child is reached through its owner. -/
  | child {path : List MembraneId} {owner id : MembraneId} (hpath : Path store path owner)
      (howns : store.Owns owner id) : Path store (path ++ [id]) id

theorem Forest.path_unique (h : store.Forest) {path path' : List MembraneId}
    (hpath : store.Path path id) (hpath' : store.Path path' id) : path' = path := by
  induction hpath generalizing path' with
  | root hroot =>
    cases hpath' with
    | root => rfl
    | child _ howns =>
      have hnone := h.mem_roots_iff.mp hroot
      exact nomatch Option.some.inj (hnone.symm.trans (h.ownerOf?_eq howns))
  | child _ howns ih =>
    cases hpath' with
    | root hroot =>
      have hnone := h.mem_roots_iff.mp hroot
      exact nomatch Option.some.inj (hnone.symm.trans (h.ownerOf?_eq howns))
    | child hbefore howns' =>
      obtain rfl := h.owner_unique howns howns'
      rw [ih hbefore]

theorem Forest.exists_path (h : store.Forest) (hlive : store.contains id = true) :
    ∃ path, store.Path path id := by
  induction id using h.wellFounded_owns.induction with
  | _ id ih =>
    obtain ⟨membrane, hfind⟩ := contains_iff.mp hlive
    have howner : store.ownerOf? id = some membrane.parent :=
      ownerOf?_eq_some_iff.mpr ⟨membrane, hfind, rfl⟩
    cases hparent : membrane.parent with
    | none =>
      rw [hparent] at howner
      exact ⟨_, .root (h.mem_roots_iff.mpr howner)⟩
    | some owner =>
      rw [hparent] at howner
      have howns : store.Owns owner id := h.mem_ownedBy_iff.mpr howner
      obtain ⟨path, hpath⟩ := ih owner howns (live_of_owns howns)
      exact ⟨_, .child hpath howns⟩

/-- **One path leads to a live membrane,** and from one root. -/
theorem Forest.existsUnique_path (h : store.Forest) (hlive : store.contains id = true) :
    ∃! path, store.Path path id := by
  obtain ⟨path, hpath⟩ := h.exists_path hlive
  exact ⟨path, hpath, fun _ hpath' => h.path_unique hpath hpath'⟩

/-! ### Post-order -/

/-- `order` lists a row of membranes and all below them: what is below a membrane, then the membrane,
then the rest of the row. -/
inductive PostOrder (store : Store) : List MembraneId → List MembraneId → Prop
  /-- There is nothing in an empty row. -/
  | nil : PostOrder store [] []
  /-- What is below the first membrane comes first. -/
  | cons {id : MembraneId} {row below order : List MembraneId}
      (hbelow : PostOrder store (store.childrenOf id) below) (hrow : PostOrder store row order) :
      PostOrder store (id :: row) (below ++ id :: order)

variable {row order : List MembraneId}

/-- Walking takes two steps for each membrane listed. -/
theorem PostOrder.walk_eq (h : store.PostOrder row order) (fuel : ℕ) (visits : List Visit) :
    store.walk (2 * order.length + fuel) (row.map .enter ++ visits) =
      order ++ store.walk fuel visits := by
  induction h generalizing fuel visits with
  | nil => simp
  | @cons id row below order hbelow hrow ihbelow ihrow =>
    have henter : 2 * (below ++ id :: order).length + fuel =
        2 * below.length + (2 * order.length + fuel + 1) + 1 := by
      simp only [List.length_append, List.length_cons]
      omega
    rw [henter]
    show store.walk (2 * below.length + (2 * order.length + fuel + 1))
      ((store.childrenOf id).map .enter ++ .leave id :: (row.map .enter ++ visits)) = _
    rw [ihbelow]
    show below ++ id :: store.walk (2 * order.length + fuel) (row.map .enter ++ visits) = _
    rw [ihrow, List.append_assoc, List.cons_append]

/-- What is listed is what the row reaches. -/
theorem PostOrder.mem_iff (h : store.PostOrder row order) :
    other ∈ order ↔ ∃ id ∈ row, store.Reaches id other := by
  induction h with
  | nil => simp
  | @cons id row below order hbelow hrow ihbelow ihrow =>
    have hhead : other ∈ below ∨ other = id ↔ store.Reaches id other := by
      rw [ihbelow, or_comm, ← reaches_iff]
    rw [List.mem_append, List.mem_cons, ihrow, ← or_assoc, hhead]
    simp

/-- There is no other order for a row. -/
theorem PostOrder.unique (h : store.PostOrder row order) {order' : List MembraneId}
    (h' : store.PostOrder row order') : order' = order := by
  induction h generalizing order' with
  | nil =>
    cases h'
    rfl
  | cons _ _ ihbelow ihrow =>
    cases h' with
    | cons hbelow hrow => rw [ihbelow hbelow, ihrow hrow]

theorem exists_postOrder_of_forall
    (h : ∀ id ∈ row, ∃ below, store.PostOrder (store.childrenOf id) below) :
    ∃ order, store.PostOrder row order := by
  induction row with
  | nil => exact ⟨[], .nil⟩
  | cons id row ih =>
    obtain ⟨below, hbelow⟩ := h id List.mem_cons_self
    obtain ⟨order, horder⟩ := ih fun other hother => h other (List.mem_cons_of_mem _ hother)
    exact ⟨_, .cons hbelow horder⟩

theorem Forest.exists_postOrder (h : store.Forest) (row : List MembraneId) :
    ∃ order, store.PostOrder row order := by
  have hbelow : ∀ id, ∃ below, store.PostOrder (store.childrenOf id) below := by
    intro id
    induction id using h.wellFounded_owned.induction with
    | _ id ih => exact exists_postOrder_of_forall ih
  exact exists_postOrder_of_forall fun id _ => hbelow id

/-- Below one owner nothing is listed before what it reaches. -/
theorem Forest.pairwise_postOrder (h : store.Forest) (hpost : store.PostOrder row order)
    {place : Option MembraneId} (hplace : ∀ id ∈ row, store.ownerOf? id = some place)
    (hnodup : row.Nodup) : order.Pairwise fun earlier later => ¬ store.Reaches earlier later := by
  induction hpost generalizing place with
  | nil => exact List.Pairwise.nil
  | @cons id row below order hbelow hrow ihbelow ihrow =>
    obtain ⟨hnotMem, hnodup⟩ := List.nodup_cons.mp hnodup
    have hid := hplace id List.mem_cons_self
    have hsiblings : ∀ sibling ∈ row, store.ownerOf? sibling = some place :=
      fun sibling hmem => hplace sibling (List.mem_cons_of_mem _ hmem)
    have hchildren := h.nodup_childrenOf id
    -- What is listed later is reached from a sibling of `id`, and so not from `id`.
    have hapart : ∀ other ∈ order, ¬ store.Reaches id other := by
      intro other hother hreaches
      obtain ⟨sibling, hmem, hsibling⟩ := hrow.mem_iff.mp hother
      have heq := h.eq_of_reaches hid (hsiblings sibling hmem) hreaches hsibling
      exact hnotMem (heq ▸ hmem)
    refine List.pairwise_append.mpr ⟨ihbelow (fun child howns => h.ownerOf?_eq howns) hchildren, ?_, ?_⟩
    · exact List.pairwise_cons.mpr ⟨hapart, ihrow hsiblings hnodup⟩
    · intro other hother later hlater hback
      obtain ⟨child, howns, hreaches⟩ := hbelow.mem_iff.mp hother
      rcases List.mem_cons.mp hlater with rfl | hlater
      · have hlt := h.owns_lt howns
        have hle := h.reaches_le (hreaches.trans hback)
        omega
      · exact hapart later hlater ((hreaches.head howns).trans hback)

/-- Nothing is listed twice below one owner. -/
theorem Forest.nodup_postOrder (h : store.Forest) (hpost : store.PostOrder row order)
    {place : Option MembraneId} (hplace : ∀ id ∈ row, store.ownerOf? id = some place)
    (hnodup : row.Nodup) : order.Nodup := by
  refine (h.pairwise_postOrder hpost hplace hnodup).imp ?_
  rintro earlier _ hnot rfl
  exact hnot .refl

/-! ### What is destroyed with a membrane -/

theorem Forest.live_of_reaches (h : store.Forest) (hlive : store.contains id = true)
    (hreaches : store.Reaches id other) : store.contains other = true := by
  cases hreaches with
  | refl => exact hlive
  | tail _ howns => exact live_of_ownerOf? (h.ownerOf?_eq howns)

/-- There are no more live membranes in a list without repetitions than there are membranes. -/
theorem length_le_size {ids : List MembraneId} (hnodup : ids.Nodup)
    (hlive : ∀ id ∈ ids, store.contains id = true) : ids.length ≤ store.size := by
  have hsubset : ids ⊆ store.membranes.ids := fun id hmem => IdMap.mem_ids_iff.mpr (hlive id hmem)
  have hle := (hnodup.subperm hsubset).length_le
  rwa [IdMap.ids, List.length_map] at hle

theorem Forest.length_postOrder_le (h : store.Forest)
    (hpost : store.PostOrder (store.childrenOf id) order) : order.length ≤ store.size := by
  have hchildren := h.nodup_childrenOf id
  apply length_le_size (h.nodup_postOrder hpost (fun child howns => h.ownerOf?_eq howns) hchildren)
  intro other hother
  obtain ⟨child, howns, hreaches⟩ := hpost.mem_iff.mp hother
  exact h.live_of_reaches (live_of_ownerOf? (h.ownerOf?_eq howns)) hreaches

/-- The steps allotted to the walk below a membrane suffice. -/
theorem Forest.descendants_eq (h : store.Forest)
    (hpost : store.PostOrder (store.childrenOf id) order) : store.descendants id = order := by
  obtain ⟨fuel, hfuel⟩ := Nat.exists_eq_add_of_le (Nat.mul_le_mul_left 2 (h.length_postOrder_le hpost))
  have hwalk := hpost.walk_eq fuel []
  rw [List.append_nil, ← hfuel] at hwalk
  unfold descendants
  rw [hwalk]
  cases fuel <;> exact List.append_nil order

/-- **What is destroyed with a membrane is what it reaches.** -/
theorem Forest.mem_descendants_iff (h : store.Forest) :
    other = id ∨ other ∈ store.descendants id ↔ store.Reaches id other := by
  obtain ⟨order, hpost⟩ := h.exists_postOrder (store.childrenOf id)
  rw [h.descendants_eq hpost, hpost.mem_iff, ← reaches_iff]

end Store

end Membranes
