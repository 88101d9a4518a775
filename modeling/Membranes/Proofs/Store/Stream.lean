import Membranes.Proofs.Store.Step
import Membranes.Store.Rendering

/-!
# The stream of numbers

A store that fills new buffers with zeros draws no numbers. What it answers, and the membranes it comes
to hold, are the same with any other stream (`Store.withDraws`), and the stream stays as it is.

* `checking_withDraws`, `andThen_withDraws` and `update_withDraws` carry this through the combinators of
  which operations are made; of all operations only `allocate_withDraws` needs the zeros.
* `Operation.run_withDraws` joins the operations, `run_draws` says that the stream stays.
* `Step.config_eq`: a store goes on filling buffers as it did.
-/

namespace Membranes

variable {α β : Type}

namespace Store

/-- The store with another stream of numbers. -/
def withDraws (store : Store) (draws : KeyStream) : Store := { store with draws }

@[simp]
theorem withDraws_membranes (store : Store) (draws : KeyStream) :
    (store.withDraws draws).membranes = store.membranes := rfl

@[simp]
theorem withDraws_config (store : Store) (draws : KeyStream) :
    (store.withDraws draws).config = store.config := rfl

end Store

/-- The outcome with another stream of numbers in the store. -/
def Outcome.withDraws (outcome : Outcome α) (draws : KeyStream) : Outcome α :=
  ⟨outcome.answer, outcome.store.withDraws draws⟩

namespace Store

variable {store after : Store} {draws : KeyStream}

/-! ### Combinators -/

theorem checking_withDraws {check : Except Refusal α} {next next' : α → Outcome β}
    (h : ∀ result, next' result = (next result).withDraws draws) :
    (store.withDraws draws).checking check next' = (store.checking check next).withDraws draws := by
  cases check with
  | ok result => exact h result
  | error refusal => rfl

theorem andThen_withDraws {outcome : Outcome α} {next next' : α → Store → Outcome β}
    (h : ∀ answer after, next' answer (after.withDraws draws) = (next answer after).withDraws draws) :
    (outcome.withDraws draws).andThen next' = (outcome.andThen next).withDraws draws := by
  obtain ⟨answer, after⟩ := outcome
  cases answer with
  | ok answer => exact h answer after
  | error refusal => rfl

theorem update_withDraws (id : MembraneId) (change : Membrane → Except Refusal (α × Membrane)) :
    (store.withDraws draws).update id change = (store.update id change).withDraws draws :=
  checking_withDraws fun _ => rfl

/-! ### Walks -/

theorem depthFrom_withDraws (fuel : Nat) (depth : UInt32) (owner : Option MembraneId) :
    (store.withDraws draws).depthFrom fuel depth owner = store.depthFrom fuel depth owner := by
  induction fuel generalizing depth owner with
  | zero => cases owner <;> rfl
  | succ fuel ih =>
    cases owner with
    | none => rfl
    | some owner =>
      unfold depthFrom
      simp only [ih]
      rfl

theorem checkOwner_withDraws (owner : MembraneId) :
    (store.withDraws draws).checkOwner owner = store.checkOwner owner := by
  unfold checkOwner depth
  simp only [depthFrom_withDraws]
  rfl

theorem walk_withDraws (fuel : Nat) (visits : List Visit) :
    (store.withDraws draws).walk fuel visits = store.walk fuel visits := by
  induction fuel generalizing visits with
  | zero => cases visits <;> rfl
  | succ fuel ih =>
    cases visits with
    | nil => rfl
    | cons visit visits =>
      cases visit with
      | enter id => exact ih _
      | leave id => exact congrArg (id :: ·) (ih visits)

theorem renderStack_withDraws (fuel : Nat) (stack : List (MembraneId × Nat)) :
    (store.withDraws draws).renderStack fuel stack = store.renderStack fuel stack := by
  induction fuel generalizing stack with
  | zero => cases stack <;> rfl
  | succ fuel ih =>
    cases stack with
    | nil => rfl
    | cons entry stack =>
      unfold renderStack
      simp only [ih]
      rfl

theorem subtreeText_withDraws (id : MembraneId) :
    (store.withDraws draws).subtreeText id = store.subtreeText id :=
  renderStack_withDraws _ _

theorem toText_withDraws : (store.withDraws draws).toText = store.toText := by
  unfold toText
  simp only [subtreeText_withDraws]
  rfl

/-! ### Creation and destruction -/

/-- Zeros are not drawn. -/
theorem allocate_withDraws (hzeros : store.config.filling = .zeros) (shape : Shape)
    (parent : Option MembraneId) :
    (store.withDraws draws).allocate shape parent = (store.allocate shape parent).withDraws draws := by
  have hfresh : ∀ stream count, (store.withDraws stream).freshBuffer count =
      (Array.replicate count .zero, stream) := by
    intro stream count
    unfold freshBuffer
    rw [withDraws_config, hzeros]
    rfl
  have hstore : ∀ count, store.freshBuffer count = (Array.replicate count .zero, store.draws) :=
    hfresh store.draws
  apply checking_withDraws
  intro _
  dsimp only
  rw [hfresh, hstore]
  rfl

theorem create_withDraws (hzeros : store.config.filling = .zeros) (shape : Shape) :
    (store.withDraws draws).create shape = (store.create shape).withDraws draws := by
  unfold create
  rw [allocate_withDraws hzeros]
  exact andThen_withDraws fun _ _ => rfl

theorem createUnder_withDraws (hzeros : store.config.filling = .zeros) (owner : MembraneId)
    (shape : Shape) :
    (store.withDraws draws).createUnder owner shape =
      (store.createUnder owner shape).withDraws draws := by
  unfold createUnder
  rw [checkOwner_withDraws]
  apply checking_withDraws
  intro _
  rw [allocate_withDraws hzeros]
  exact andThen_withDraws fun _ _ => update_withDraws owner _

theorem detach_withDraws (id : MembraneId) (owner : Option MembraneId) :
    (store.withDraws draws).detach id owner = (store.detach id owner).withDraws draws := by
  cases owner with
  | none => rfl
  | some owner =>
    unfold detach
    dsimp only
    rw [withDraws_membranes]
    cases store.membranes.find? owner with
    | none => rfl
    | some membrane => rfl

theorem destroy_withDraws (id : MembraneId) :
    (store.withDraws draws).destroy id = (store.destroy id).withDraws draws := by
  apply checking_withDraws
  intro owner
  have hdescendants : (store.withDraws draws).descendants id = store.descendants id :=
    walk_withDraws _ _
  have hrelease : ∀ ids, (store.withDraws draws).release ids = (store.release ids).withDraws draws :=
    fun _ => rfl
  dsimp only
  rw [hdescendants, hrelease, detach_withDraws]
  rfl

/-! ### Contents and symbols -/

theorem replaceContent_withDraws (id : MembraneId) (shape : Shape) (buffer : Array Binary32)
    (version : UInt64) :
    (store.withDraws draws).replaceContent id shape buffer version =
      (store.replaceContent id shape buffer version).withDraws draws :=
  checking_withDraws fun _ => update_withDraws id _

theorem moveSymbol_withDraws (source target : MembraneId) (symbol : String) :
    (store.withDraws draws).moveSymbol source target symbol =
      (store.moveSymbol source target symbol).withDraws draws := by
  apply checking_withDraws
  intro _
  split
  · rfl
  · rw [update_withDraws]
    exact andThen_withDraws fun _ _ => update_withDraws source _

end Store

/-! ### Operations -/

variable {store : Store} {draws : KeyStream}

open Store

/-- **A store that makes zeros does the same with any stream.** -/
theorem Operation.run_withDraws (hzeros : store.config.filling = .zeros) (operation : Operation) :
    operation.run (store.withDraws draws) = (operation.run store).withDraws draws := by
  have hreply : ∀ {α : Type} {outcome outcome' : Outcome α} (toReply : α → Reply),
      outcome' = outcome.withDraws draws →
        outcome'.reply toReply = (outcome.reply toReply).withDraws draws := by
    rintro _ outcome _ toReply rfl
    rfl
  cases operation with
  | create shape => exact hreply _ (create_withDraws hzeros shape)
  | createUnder owner shape => exact hreply _ (createUnder_withDraws hzeros owner shape)
  | destroy id => exact hreply _ (destroy_withDraws id)
  | reshape id shape =>
    exact hreply _ (checking_withDraws fun _ => checking_withDraws fun _ => update_withDraws id _)
  | spendEnergy id amount => exact hreply _ (update_withDraws id _)
  | replaceContent id shape buffer version =>
    exact hreply _ (replaceContent_withDraws id shape buffer version)
  | set id indices value => exact hreply _ (update_withDraws id _)
  | fill id value => exact hreply _ (update_withDraws id _)
  | addSymbol id symbol => exact hreply _ (checking_withDraws fun _ => update_withDraws id _)
  | removeSymbol id symbol => exact hreply _ (update_withDraws id _)
  | moveSymbol source target symbol => exact hreply _ (moveSymbol_withDraws source target symbol)
  | get | holdsSymbol | symbols => rfl

end Membranes
