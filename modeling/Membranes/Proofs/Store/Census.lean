import Membranes.Proofs.Store.Forest

/-!
# Which membranes are live, and how many

* `Operation.contains_run`: only a destruction makes a live membrane not live.
* `Store.size_eq_length`: a store has as many membranes as a list without repetitions of the live ones is
  long. So writing to a membrane does not change the size, a new membrane adds one
  (`Sound.size_withRoot`, `Sound.size_withChild`), and a destruction takes away as many as it answers
  (`Forest.size_withoutSubtree`).
-/

namespace Membranes

namespace Store

variable {store after : Store} {id other owner : MembraneId} {parent : Option MembraneId} {shape : Shape}

/-! ### Which membranes are live -/

theorem contains_iff_ownerOf? : store.contains id = true ↔ (store.ownerOf? id).isSome = true := by
  unfold Store.contains IdMap.contains ownerOf?
  rw [Option.isSome_map]

/-- What a destruction leaves are the other membranes. -/
theorem contains_withoutSubtree :
    (store.withoutSubtree id parent).contains other = true ↔
      store.contains other = true ∧ other ∉ store.descendants id ++ [id] := by
  rw [contains_iff_ownerOf?, contains_iff_ownerOf?, ownerOf?_withoutSubtree]
  split
  · rename_i hgone
    simp [or_comm.mp hgone]
  · rename_i hstays
    rw [not_or] at hstays
    simp [hstays]

theorem contains_withFresh_iff :
    (store.withFresh shape parent).contains other = true ↔
      other = ⟨store.nextId⟩ ∨ store.contains other = true := by
  rw [contains_iff_ownerOf?, contains_iff_ownerOf?, ownerOf?_withFresh]
  split
  · rename_i heq
    simp [heq]
  · rename_i hne
    simp [hne]

theorem contains_attach_iff {child : MembraneId} :
    (store.attach owner child).contains other = true ↔ store.contains other = true := by
  rw [contains_iff_ownerOf?, contains_iff_ownerOf?, ownerOf?_attach]

theorem Mutated.contains (h : store.Mutated id after) (hlive : store.contains other = true) :
    after.contains other = true := by
  cases h with
  | idle => exact hlive
  | change => exact contains_put hlive

end Store

/-- An operation that destroys nothing. -/
def Operation.Spares : Operation → Prop
  | .destroy _ => False
  | _ => True

/-- An operation that destroys nothing leaves all membranes live. -/
theorem Operation.contains_run {operation : Operation} (hspares : operation.Spares) {store : Store}
    {other : MembraneId} (hlive : store.contains other = true) :
    (operation.run store).store.contains other = true := by
  have hstays : (operation.run store).Atomically store fun _ after => after.contains other = true := by
    have hmutates : ∀ (mutation : Mutation) id, ((mutation.operation id).run store).Atomically store
        fun _ after => after.contains other = true :=
      fun mutation id => (mutation.run_atomically id store).imp fun _ _ h => h.contains hlive
    cases operation with
    | create shape =>
      apply Outcome.Atomically.reply
      refine (Store.create_atomically shape).imp ?_
      rintro _ _ ⟨-, -, rfl⟩
      exact Store.contains_withFresh hlive
    | createUnder owner shape =>
      apply Outcome.Atomically.reply
      refine (Store.createUnder_atomically owner shape).imp ?_
      rintro _ _ ⟨-, -, -, rfl⟩
      exact Store.contains_attach_iff.mpr (Store.contains_withFresh hlive)
    | destroy => exact absurd hspares not_false
    | reshape id shape => exact hmutates (.reshape shape) id
    | spendEnergy id amount =>
      apply Outcome.Atomically.reply
      refine (Store.spendEnergy_atomically id amount).imp ?_
      rintro _ _ ⟨_, -, -, -, rfl⟩
      exact Store.contains_put hlive
    | replaceContent id shape buffer version =>
      apply Outcome.Atomically.reply
      refine (Store.replaceContent_atomically id shape buffer version).imp ?_
      rintro _ _ ⟨_, -, -, -, rfl⟩
      exact Store.contains_put hlive
    | set id indices value => exact hmutates (.set indices value) id
    | fill id value => exact hmutates (.fill value) id
    | addSymbol id symbol => exact hmutates (.addSymbol symbol) id
    | removeSymbol id symbol => exact hmutates (.removeSymbol symbol) id
    | moveSymbol source target symbol =>
      apply Outcome.Atomically.reply
      refine (Store.moveSymbol_atomically source target symbol).imp ?_
      rintro _ _ ⟨_, _, -, -, -, ⟨-, rfl⟩ | ⟨-, -, rfl⟩⟩
      · exact hlive
      · exact Store.contains_put (Store.contains_put hlive)
    | get => exact Outcome.atomically_query _ hlive
    | holdsSymbol => exact Outcome.atomically_query _ hlive
    | symbols => exact Outcome.atomically_query _ hlive
  rcases hstays.cases with ⟨refusal, hrun⟩ | ⟨reply, after, hrun, hafter⟩
  · rw [hrun]
    exact hlive
  · rw [hrun]
    exact hafter

theorem Operation.run_ne_released {operation : Operation} (hspares : operation.Spares) {store : Store}
    {ids : List MembraneId} : (operation.run store).answer ≠ .ok (.released ids) := by
  intro hanswer
  -- The other operations turn their answers into other replies.
  cases operation with
  | destroy => exact hspares
  | _ =>
    obtain ⟨_, -, hreply⟩ := map_eq_ok_iff.mp hanswer
    exact nomatch hreply

namespace Store

variable {store after : Store} {id other owner : MembraneId} {parent : Option MembraneId} {shape : Shape}

/-! ### How many membranes are live -/

theorem nodup_ids (store : Store) : store.ids.Nodup :=
  store.membranes.ids_ascending.imp MembraneId.ne_of_lt

theorem mem_ids_iff : id ∈ store.ids ↔ store.contains id = true :=
  IdMap.mem_ids_iff

theorem size_eq_length_ids (store : Store) : store.size = store.ids.length :=
  (List.length_map _).symm

/-- The size of a store is the length of any list of its live membranes that has each of them once. -/
theorem size_eq_length {ids : List MembraneId} (hnodup : ids.Nodup)
    (hids : ∀ id, id ∈ ids ↔ store.contains id = true) : store.size = ids.length := by
  have hperm : store.ids.Perm ids :=
    (List.perm_ext_iff_of_nodup store.nodup_ids hnodup).mpr fun id => mem_ids_iff.trans (hids id).symm
  rw [size_eq_length_ids, hperm.length_eq]

theorem size_eq_of_contains (h : ∀ id, after.contains id = true ↔ store.contains id = true) :
    after.size = store.size := by
  rw [size_eq_length_ids store]
  exact size_eq_length store.nodup_ids fun id => mem_ids_iff.trans (h id).symm

theorem size_put {membrane changed : Membrane} (hfind : store.membranes.find? id = some membrane) :
    (store.put id changed).size = store.size := by
  apply size_eq_of_contains
  intro other
  rw [contains_iff, contains_iff, find?_put]
  split
  · rename_i heq
    simp [heq, hfind]
  · rfl

/-- The identifier of a new membrane is new, so there is one membrane more. -/
theorem Sound.size_withFresh (h : store.Sound) (shape : Shape) (parent : Option MembraneId) :
    (store.withFresh shape parent).size = store.size + 1 := by
  have hnew : (⟨store.nextId⟩ : MembraneId) ∉ store.ids := by
    rw [mem_ids_iff, contains_iff, h.find?_nextId]
    rintro ⟨_, hfind⟩
    exact nomatch hfind
  rw [size_eq_length_ids store, ← List.length_cons]
  refine size_eq_length (List.nodup_cons.mpr ⟨hnew, store.nodup_ids⟩) fun other => ?_
  rw [List.mem_cons, mem_ids_iff, contains_withFresh_iff]

theorem Sound.size_withRoot (h : store.Sound) (shape : Shape) :
    (store.withRoot shape).size = store.size + 1 :=
  h.size_withFresh shape none

theorem Sound.size_withChild (h : store.Sound) (owner : MembraneId) (shape : Shape) :
    (store.withChild owner shape).size = store.size + 1 := by
  rw [← h.size_withFresh shape (some owner)]
  exact size_eq_of_contains fun _ => contains_attach_iff

theorem Forest.mem_released_iff (h : store.Forest) :
    other ∈ store.descendants id ++ [id] ↔ store.Reaches id other := by
  rw [← h.mem_descendants_iff, List.mem_append, List.mem_singleton, or_comm]

/-- The owner is older than what is destroyed, and is not among it. -/
theorem Forest.owner_stays (h : store.Forest) (hid : store.ownerOf? id = some (some owner)) :
    owner ∉ store.descendants id ++ [id] := by
  intro hgone
  have howns : store.Owns owner id := h.mem_ownedBy_iff.mpr hid
  have hle := h.reaches_le (h.mem_released_iff.mp hgone)
  have hlt := h.owns_lt howns
  omega

/-- What a destruction answers has every membrane once. -/
theorem Forest.nodup_descendants (h : store.Forest) {membrane : Membrane}
    (hfind : store.membranes.find? id = some membrane) : (store.descendants id ++ [id]).Nodup := by
  obtain ⟨below, hbelow⟩ := h.exists_postOrder (store.childrenOf id)
  rw [h.descendants_eq hbelow]
  have hid : ∀ other ∈ [id], store.ownerOf? other = some membrane.parent := by
    intro other hmem
    rw [List.mem_singleton.mp hmem]
    exact ownerOf?_eq_some_iff.mpr ⟨membrane, hfind, rfl⟩
  exact h.nodup_postOrder (.cons hbelow .nil) hid (List.pairwise_singleton _ id)

/-- A destruction takes away as many membranes as it answers. -/
theorem Forest.size_withoutSubtree (h : store.Forest) {membrane : Membrane}
    (hfind : store.membranes.find? id = some membrane) :
    (store.withoutSubtree id membrane.parent).size + (store.descendants id ++ [id]).length =
      store.size := by
  have hlive : ∀ other ∈ store.descendants id ++ [id], store.contains other = true :=
    fun other hmem => h.live_of_reaches (contains_iff.mpr ⟨membrane, hfind⟩) (h.mem_released_iff.mp hmem)
  rw [size_eq_length_ids (store.withoutSubtree id membrane.parent), ← List.length_append]
  refine (size_eq_length ?_ fun other => ?_).symm
  · refine List.nodup_append.mpr ⟨nodup_ids _, h.nodup_descendants hfind, ?_⟩
    rintro other hstays _ hgone rfl
    exact (contains_withoutSubtree.mp (mem_ids_iff.mp hstays)).2 hgone
  · rw [List.mem_append, mem_ids_iff, contains_withoutSubtree]
    by_cases hgone : other ∈ store.descendants id ++ [id]
    · simp only [hgone, not_true_eq_false, and_false, false_or, true_iff]
      exact hlive other hgone
    · simp only [hgone, not_false_eq_true, and_true, or_false]

end Store

end Membranes
