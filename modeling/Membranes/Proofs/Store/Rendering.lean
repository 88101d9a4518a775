import Membranes.Proofs.Store.Depth
import Membranes.Proofs.Store.Destruction
import Membranes.Store.Rendering

/-!
# The text of a forest

* `Forest.lines` are the lines of a membrane and all below it by recursion: its own, and those of its
  children one level deeper. They end because owners are older than what they own.
* `Store.Traverses` is the walk with a stack of membranes and depths as it is meant: with no bound on its
  steps, and only through live membranes. `Traverses.renderStack_eq` says that as many steps as visits are
  as good as no bound.
* `PreOrder` lists the visits by recursion, owners in front of what they own. This is the walk
  (`PreOrder.traverses`) and gives the lines of the recursion (`PreOrder.lines_eq`), and it has the same
  membranes as the post-order (`PostOrder.exists_preOrder`), so that none is visited twice.

`Reachable.renders_shows` says with these what the text of a membrane is, and what is in the text of a
store.
-/

namespace Membranes

namespace Text

theorem joined_cons (item : String) (items : List String) :
    joined "" (item :: items) = item ++ joined "" items := by
  cases items with
  | nil =>
    rw [joined, joined, String.intercalate_singleton, String.intercalate_nil, String.append_empty]
  | cons next items =>
    rw [joined, joined, String.intercalate_cons_cons, String.append_empty]

theorem joined_append (items others : List String) :
    joined "" (items ++ others) = joined "" items ++ joined "" others := by
  induction items with
  | nil => exact (String.empty_append).symm
  | cons item items ih => rw [List.cons_append, joined_cons, joined_cons, ih, String.append_assoc]

theorem joined_flatMap {α : Type} (items : List α) (lines : α → List String) :
    joined "" (items.flatMap lines) = joined "" (items.map fun item => joined "" (lines item)) := by
  induction items with
  | nil => rfl
  | cons item items ih => rw [List.flatMap_cons, List.map_cons, joined_append, joined_cons, ih]

end Text

/-! ### Lines -/

/-- The lines of a membrane at a depth: one for itself and one for each of its symbols, with two blanks in
front for every level. -/
def Membrane.lines (membrane : Membrane) (depth : ℕ) : List String :=
  let indent := String.ofList (List.replicate (2 * depth) ' ')
  (s!"{indent}Membrane {membrane.id.value}: {membrane.shape.toText} energy={membrane.energy} " ++
      s!"objects={membrane.symbols.length} children={membrane.children.length}\n") ::
    membrane.symbols.map fun symbol => s!"{indent}  obj: {symbol}\n"

theorem Membrane.toText_eq (membrane : Membrane) (depth : ℕ) :
    membrane.toText depth = Text.joined "" (membrane.lines depth) :=
  (Text.joined_cons _ _).symm

namespace Store

variable {store : Store} {id other : MembraneId} {membrane : Membrane} {depth fuel : ℕ}
  {row order : List MembraneId} {stack visits rest : List (MembraneId × ℕ)}

/-- The lines of a live membrane at a depth. -/
def linesAt (store : Store) (visit : MembraneId × ℕ) : List String :=
  match store.membranes.find? visit.1 with
  | none => []
  | some membrane => membrane.lines visit.2

theorem linesAt_of_find? (hfind : store.membranes.find? id = some membrane) :
    store.linesAt (id, depth) = membrane.lines depth := by
  unfold linesAt
  rw [hfind]

/-- The lines of a membrane, and those of its children one level deeper. -/
def Forest.lines (h : store.Forest) (id : MembraneId) (depth : ℕ) : List String :=
  store.linesAt (id, depth) ++
    (store.childrenOf id).attach.flatMap fun child => h.lines child.1 (depth + 1)
termination_by h.wellFounded_owned.wrap id
decreasing_by exact child.2

theorem Forest.lines_eq (h : store.Forest) (id : MembraneId) (depth : ℕ) :
    h.lines id depth = store.linesAt (id, depth) ++
      (store.childrenOf id).flatMap fun child => h.lines child (depth + 1) := by
  rw [Forest.lines]
  simp

/-! ### The walk without a bound -/

/-- Working off the stack comes to an end, only meets live membranes, and visits them in this order. -/
inductive Traverses (store : Store) : List (MembraneId × ℕ) → List (MembraneId × ℕ) → Prop
  /-- Nothing is left to visit. -/
  | done : Traverses store [] []
  /-- A membrane is visited, and its children come before the rest of the stack. -/
  | visit {id : MembraneId} {depth : ℕ} {membrane : Membrane} {stack visits : List (MembraneId × ℕ)}
      (hfind : store.membranes.find? id = some membrane)
      (h : Traverses store (membrane.children.map (·, depth + 1) ++ stack) visits) :
      Traverses store ((id, depth) :: stack) ((id, depth) :: visits)

/-- As many steps as visits are as good as no bound. -/
theorem Traverses.renderStack_eq (h : store.Traverses stack visits) (hfuel : visits.length ≤ fuel) :
    store.renderStack fuel stack = .ok (Text.joined "" (visits.flatMap store.linesAt)) := by
  induction h generalizing fuel with
  | done => cases fuel <;> rfl
  | @visit id depth membrane stack visits hfind _ ih =>
    rw [List.length_cons] at hfuel
    obtain ⟨fuel, rfl⟩ := Nat.exists_eq_add_of_le' (show 1 ≤ fuel by omega)
    have hrest := ih (show visits.length ≤ fuel by omega)
    rw [renderStack, membrane_of_find? hfind]
    show (store.renderStack fuel (membrane.children.map (·, depth + 1) ++ stack) >>=
      fun rest => .ok (membrane.toText depth ++ rest)) = _
    rw [hrest, List.flatMap_cons, linesAt_of_find? hfind, Text.joined_append, Membrane.toText_eq]
    rfl

/-! ### Pre-order -/

/-- `visits` lists a row of membranes at a depth and all below them: a membrane, then what is below it one
level deeper, then the rest of the row. -/
inductive PreOrder (store : Store) : ℕ → List MembraneId → List (MembraneId × ℕ) → Prop
  /-- There is nothing in an empty row. -/
  | nil {depth : ℕ} : PreOrder store depth [] []
  /-- What is below the first membrane comes behind it. -/
  | cons {depth : ℕ} {id : MembraneId} {row : List MembraneId} {below visits : List (MembraneId × ℕ)}
      (hbelow : PreOrder store (depth + 1) (store.childrenOf id) below)
      (hrow : PreOrder store depth row visits) :
      PreOrder store depth (id :: row) ((id, depth) :: (below ++ visits))

/-- Both orders list the same membranes. -/
theorem PostOrder.exists_preOrder (h : store.PostOrder row order) (depth : ℕ) :
    ∃ visits, store.PreOrder depth row visits ∧ (visits.map Prod.fst).Perm order := by
  induction h generalizing depth with
  | nil => exact ⟨[], .nil, .nil⟩
  | @cons id row below order _ _ ihbelow ihrow =>
    obtain ⟨visitsBelow, hbelow, hpermBelow⟩ := ihbelow (depth + 1)
    obtain ⟨visits, hrow, hperm⟩ := ihrow depth
    refine ⟨_, .cons hbelow hrow, ?_⟩
    -- The owner moves from behind what it owns to the front.
    rw [List.map_cons, List.map_append]
    exact ((hpermBelow.append hperm).cons id).trans List.perm_middle.symm

/-- A row of live membranes is visited with all below them before the rest of the stack. -/
theorem PreOrder.traverses (h : store.PreOrder depth row visits) (hforest : store.Forest)
    (hlive : ∀ id ∈ row, store.contains id = true) (hrest : store.Traverses stack rest) :
    store.Traverses (row.map (·, depth) ++ stack) (visits ++ rest) := by
  induction h generalizing stack rest with
  | nil => exact hrest
  | @cons depth id row below visits _ _ ihbelow ihrow =>
    obtain ⟨membrane, hfind⟩ := contains_iff.mp (hlive id List.mem_cons_self)
    -- While what is below the membrane is visited, the rest of its row waits on the stack.
    have hrow := ihrow (fun other hmem => hlive other (List.mem_cons_of_mem _ hmem)) hrest
    have hchildren := ihbelow
      (fun child howns => Forest.live_of_ownerOf? (hforest.ownerOf?_eq howns)) hrow
    rw [childrenOf_of_find? hfind] at hchildren
    rw [List.cons_append, List.append_assoc]
    exact .visit hfind hchildren

/-- Where the walk visits a membrane is what the recursion gives. -/
theorem PreOrder.lines_eq (h : store.PreOrder depth row visits) (hforest : store.Forest) :
    visits.flatMap store.linesAt = row.flatMap (hforest.lines · depth) := by
  induction h with
  | nil => rfl
  | @cons depth id row below visits _ _ ihbelow ihrow =>
    rw [List.flatMap_cons, List.flatMap_append, List.flatMap_cons, ihbelow, ihrow, hforest.lines_eq,
      List.append_assoc]

/-- A visit is one level deeper than the way to the membrane has owners. -/
theorem PreOrder.depth_eq (h : store.PreOrder depth row visits) (hforest : store.Forest)
    (hpath : ∀ id ∈ row, ∃ path, store.Path path id ∧ path.length = depth + 1) :
    ∀ visit ∈ visits, store.depth visit.1 = .ok (.ofNat (visit.2 + 1)) := by
  induction h with
  | nil => exact List.forall_mem_nil _
  | @cons depth id row below visits _ _ ihbelow ihrow =>
    obtain ⟨path, hid, hlength⟩ := hpath id List.mem_cons_self
    have hbelow := ihbelow fun child howns =>
      ⟨path ++ [child], .child hid howns, by rw [List.length_append, hlength, List.length_singleton]⟩
    have hrow := ihrow fun other hmem => hpath other (List.mem_cons_of_mem _ hmem)
    have hdepth := hid.depth_eq hforest
    rw [hlength] at hdepth
    rintro visit (_ | ⟨_, hmem⟩)
    · exact hdepth
    · exact (List.mem_append.mp hmem).elim (hbelow visit) (hrow visit)

theorem PreOrder.traverses_singleton (h : store.PreOrder depth [id] visits) (hforest : store.Forest)
    (hlive : store.contains id = true) : store.Traverses [(id, depth)] visits := by
  have htraverses := h.traverses hforest (by simpa using hlive) .done
  rw [List.append_nil, List.append_nil] at htraverses
  exact htraverses

/-- Walks from the members of a row one by one visit what a walk through the row visits. -/
theorem PreOrder.exists_walks (h : store.PreOrder depth row visits) (hforest : store.Forest)
    (hlive : ∀ id ∈ row, store.contains id = true) :
    ∃ walks, List.Forall₂ (fun id walk => store.Traverses [(id, depth)] walk) row walks ∧
      visits = walks.flatten := by
  induction h with
  | nil => exact ⟨[], .nil, rfl⟩
  | @cons depth id row below visits hbelow _ _ ihrow =>
    obtain ⟨walks, hwalks, rfl⟩ := ihrow fun other hmem => hlive other (List.mem_cons_of_mem _ hmem)
    have hwalk := (PreOrder.cons hbelow .nil).traverses_singleton hforest (hlive id List.mem_cons_self)
    rw [List.append_nil] at hwalk
    exact ⟨_, .cons hwalk hwalks, by rw [List.flatten_cons, List.cons_append]⟩

/-- A row with one owner is visited with all that it reaches, and nothing is visited twice. -/
theorem Forest.exists_visits (h : store.Forest) {place : Option MembraneId}
    (hplace : ∀ id ∈ row, store.ownerOf? id = some place) (hnodup : row.Nodup) (depth : ℕ) :
    ∃ visits, store.PreOrder depth row visits ∧ (visits.map Prod.fst).Nodup ∧
      ∀ other, other ∈ visits.map Prod.fst ↔ ∃ id ∈ row, store.Reaches id other := by
  obtain ⟨order, hpost⟩ := h.exists_postOrder row
  obtain ⟨visits, hpre, hperm⟩ := hpost.exists_preOrder depth
  refine ⟨visits, hpre, hperm.nodup_iff.mpr (h.nodup_postOrder hpost hplace hnodup), fun other => ?_⟩
  rw [hperm.mem_iff, hpost.mem_iff]

/-! ### Membranes and stores -/

/-- The walk from a live membrane comes to an end, and the steps allotted to rendering suffice for it. -/
theorem Forest.subtreeText_eq (h : store.Forest) (hlive : store.contains id = true) :
    (∃ visits, store.Traverses [(id, 0)] visits) ∧
      store.subtreeText id = .ok (Text.joined "" (h.lines id 0)) := by
  obtain ⟨place, hplace⟩ := Option.isSome_iff_exists.mp (contains_iff_ownerOf?.mp hlive)
  have hrow : ∀ other ∈ [id], store.ownerOf? other = some place := by simpa using hplace
  obtain ⟨visits, hpre, hnodup, hmem⟩ := h.exists_visits hrow (by simp) 0
  have htraverses := hpre.traverses_singleton h hlive
  -- Nothing is visited twice, so there are no more visits than membranes.
  have hlength : (visits.map Prod.fst).length ≤ store.size := by
    refine length_le_size hnodup fun other hother => ?_
    obtain ⟨_, htop, hreaches⟩ := (hmem other).mp hother
    obtain rfl := List.mem_singleton.mp htop
    exact h.live_of_reaches hlive hreaches
  rw [List.length_map] at hlength
  refine ⟨⟨visits, htraverses⟩, ?_⟩
  show store.renderStack (store.size + 1) [(id, 0)] = _
  rw [htraverses.renderStack_eq (Nat.le_succ_of_le hlength), hpre.lines_eq h, List.flatMap_singleton]

theorem Forest.toText_eq (h : store.Forest) :
    store.toText = Text.joined "" (store.roots.flatMap (h.lines · 0)) := by
  have htexts : store.roots.filterMap (fun root => (store.subtreeText root).toOption) =
      store.roots.map fun root => Text.joined "" (h.lines root 0) := by
    rw [← List.filterMap_eq_map]
    refine List.filterMap_congr fun root hroot => ?_
    rw [(h.subtreeText_eq (live_of_ownerOf? (h.mem_roots_iff.mp hroot))).2]
    rfl
  unfold toText
  rw [htexts, Text.joined_flatMap]

/-- The text of each live membrane is the one that a recursion gives, and the text of the store is made
of those of all its roots. -/
structure Renders (store : Store) (lines : MembraneId → ℕ → List String) : Prop where
  /-- A membrane is found under the identifier on its line. -/
  id_eq : ∀ {id membrane}, store.membranes.find? id = some membrane → membrane.id = id
  /-- A membrane comes first, and then its children in their order, one level deeper. -/
  lines_eq : ∀ {id membrane} depth, store.membranes.find? id = some membrane →
    lines id depth = membrane.lines depth ++ membrane.children.flatMap (lines · (depth + 1))
  /-- The walk from a live membrane comes to an end and fails nowhere. -/
  exists_traverses : ∀ id, store.contains id = true → ∃ visits, store.Traverses [(id, 0)] visits
  /-- A live membrane is answered with its lines. -/
  subtreeText_eq : ∀ id, store.contains id = true →
    store.subtreeText id = .ok (Text.joined "" (lines id 0))
  /-- No root is left out of the text of the store. -/
  toText_eq : (∀ root ∈ store.roots, store.contains root = true) ∧
    store.toText = Text.joined "" (store.roots.flatMap (lines · 0))

/-- The text of the store is written by these walks, one from each root, which visit every live membrane
once. -/
structure Shows (store : Store) (walks : List (List (MembraneId × ℕ))) : Prop where
  /-- There is a walk from each root. -/
  traverses : List.Forall₂ (fun root walk => store.Traverses [(root, 0)] walk) store.roots walks
  /-- No two visits are to one membrane. -/
  nodup : (walks.flatten.map Prod.fst).Nodup
  /-- Visited is what is live. -/
  mem_iff : ∀ id, id ∈ walks.flatten.map Prod.fst ↔ store.contains id = true
  /-- A membrane is indented by its depth, less one. -/
  depth_eq : ∀ visit ∈ walks.flatten, store.depth visit.1 = .ok (.ofNat (visit.2 + 1))
  /-- The text consists of the lines of what is visited. -/
  toText_eq : store.toText = Text.joined "" (walks.flatten.flatMap store.linesAt)

theorem Forest.renders (h : store.Forest) : store.Renders h.lines where
  id_eq := fun hfind => (h.membrane hfind).id_eq
  lines_eq := fun depth hfind => by
    rw [h.lines_eq, linesAt_of_find? hfind, childrenOf_of_find? hfind]
  exists_traverses := fun _ hlive => (h.subtreeText_eq hlive).1
  subtreeText_eq := fun _ hlive => (h.subtreeText_eq hlive).2
  toText_eq := ⟨fun _ hroot => live_of_ownerOf? (h.mem_roots_iff.mp hroot), h.toText_eq⟩

/-- Every live membrane is reached from a root. -/
theorem Forest.contains_iff_reaches (h : store.Forest) :
    store.contains id = true ↔ ∃ root ∈ store.roots, store.Reaches root id := by
  constructor
  · intro hlive
    obtain ⟨path, hpath⟩ := h.exists_path hlive
    induction hpath with
    | @root id hroot => exact ⟨id, hroot, .refl⟩
    | child _ howns ih =>
      obtain ⟨root, hroot, hreaches⟩ := ih (live_of_owns howns)
      exact ⟨root, hroot, hreaches.tail howns⟩
  · rintro ⟨root, hroot, hreaches⟩
    exact h.live_of_reaches (live_of_ownerOf? (h.mem_roots_iff.mp hroot)) hreaches

theorem Forest.exists_shows (h : store.Forest) : ∃ walks, store.Shows walks := by
  have hplace : ∀ root ∈ store.roots, store.ownerOf? root = some none :=
    fun root hroot => h.mem_roots_iff.mp hroot
  have hroots : store.roots.Nodup := (h.ascending none).imp MembraneId.ne_of_lt
  obtain ⟨visits, hpre, hnodup, hmem⟩ := h.exists_visits hplace hroots 0
  obtain ⟨walks, hwalks, rfl⟩ := hpre.exists_walks h fun root hroot => live_of_ownerOf? (hplace root hroot)
  refine ⟨walks, hwalks, hnodup, fun id => ?_, ?_, ?_⟩
  · rw [hmem, h.contains_iff_reaches]
  · exact hpre.depth_eq h fun root hroot => ⟨[root], .root hroot, rfl⟩
  · rw [h.toText_eq, hpre.lines_eq h]

/-- **A reachable store renders every live membrane as the recursion does, and all of them once.** -/
theorem Reachable.renders_shows (h : store.Reachable) :
    store.Renders h.forest.lines ∧ ∃ walks, store.Shows walks :=
  ⟨h.forest.renders, h.forest.exists_shows⟩

/-- The two trees of the grove, in which 2 holds a symbol. -/
def furnished : Store := grove.after [.addSymbol ⟨2⟩ "glucose"]

/-- The children of 2 come one level deeper behind its symbol, and all six membranes are visited. -/
theorem Reachable.renders_shows_furnished :
    ∃ h : furnished.Reachable, furnished.contains ⟨2⟩ = true ∧
      Text.joined "" (h.forest.lines ⟨2⟩ 0) =
        "Membrane 2: [2] energy=100 objects=1 children=2\n" ++
        "  obj: glucose\n" ++
        "  Membrane 3: [2] energy=100 objects=0 children=0\n" ++
        "  Membrane 5: [2] energy=100 objects=0 children=0\n" ∧
      ∃ walks, furnished.Shows walks ∧ walks.length = 2 ∧
        (walks.flatten.map Prod.fst).Perm [⟨1⟩, ⟨2⟩, ⟨3⟩, ⟨4⟩, ⟨5⟩, ⟨6⟩] := by
  have hreachable : furnished.Reachable := ((Reachable.empty _ _).after _).after _
  obtain ⟨hrenders, walks, hshows⟩ := hreachable.renders_shows
  have hlive : furnished.contains ⟨2⟩ = true := by decide +kernel
  have hids : furnished.ids = [⟨1⟩, ⟨2⟩, ⟨3⟩, ⟨4⟩, ⟨5⟩, ⟨6⟩] := by decide +kernel
  have htext := hrenders.subtreeText_eq ⟨2⟩ hlive
  have hlength := hshows.traverses.length_eq
  refine ⟨hreachable, hlive, ?_, walks, hshows, hlength.symm.trans (by decide +kernel), ?_⟩
  · exact Except.ok.inj (htext.symm.trans (by decide +kernel))
  · refine (List.perm_ext_iff_of_nodup hshows.nodup (by decide)).mpr fun id => ?_
    rw [hshows.mem_iff, ← hids]
    exact mem_ids_iff.symm

end Store

end Membranes
