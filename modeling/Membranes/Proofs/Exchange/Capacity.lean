import Membranes.Proofs.Exchange.Acceptance
import Membranes.Proofs.Exchange.Recovery

/-!
# Limits of reachable stores

* `Engine.blames_receiveWith`: a snapshot is refused because of a count only when the count is at its
  limit.
* `Reachable.orderly`: reachable stores with valid configurations are forests within their limits, so
  that what holds of these holds of them.
* `Reachable.keeps_limits` joins it: a store holds no more than its limits allow (`Store.Bounded`),
  refusals are exact, each count can be filled, and what was released can be used again.
-/

namespace Membranes

namespace Store

variable {store : Store} {id : MembraneId} {mine : Membrane}

/-! ### Snapshots -/

theorem Orderly.blames_createBeside (h : store.Orderly) (hmine : store.membranes.find? id = some mine)
    (shape : Shape) : Blames (store.createBeside id shape).answer (store.Full mine.parent) := by
  unfold createBeside
  rw [parent_of_find? hmine]
  cases mine.parent with
  | none => exact h.fits.blames_create shape
  | some owner => exact h.blames_createUnder owner shape

theorem Orderly.blames_addSibling (h : store.Orderly) (hmine : store.membranes.find? id = some mine)
    (copy : Snapshot) : Blames (store.addSibling id copy).answer (store.Full mine.parent) := by
  refine (h.blames_createBeside hmine copy.shape).andThen fun sibling => ?_
  have hfilled := blames_replaceContent sibling copy.shape copy.buffer 1
    (store.createBeside id copy.shape).store (store.Full mine.parent)
  dsimp only
  split
  · exact blames_ok _
  -- The refusal is the one of the installation, whatever the destruction answers.
  · rename_i refusal hrefused
    rw [hrefused] at hfilled
    exact (blames_destroy _ _ _).andThen fun _ => blames_error (hfilled refusal rfl)

/-- What a merge decided is refused because of a count only where a copy is to be put beside the
membrane. -/
theorem Orderly.blames_carryOut (h : store.Orderly) (hmine : store.membranes.find? id = some mine)
    (settlement : Settlement) :
    Blames (store.carryOut id settlement).answer (store.Full mine.parent) := by
  have hadd : Blames (store.addSplit id settlement.split).answer (store.Full mine.parent) := by
    cases settlement.split with
    | none => exact blames_ok _
    | some copy =>
      exact (h.blames_addSibling hmine copy).andThen fun _ => blames_ok _
  refine hadd.andThen fun sibling => Blames.andThen ?_ fun _ => blames_ok _
  unfold adoptResult
  split
  · exact blames_replaceContent _ _ _ _ _ _
  · exact blames_ok _

end Store

namespace Engine

variable {σ : Type} [Outbound σ] {store : Store} {id : MembraneId} {remote : Snapshot}
  {strategy : ConflictStrategy} {refusal : Refusal}

theorem receiveWith_of_not_live (engine : Engine σ) (hremote : remote.verify = .ok ())
    (hdead : store.membranes.find? id = none) :
    (engine.receiveWith store id remote strategy).answer =
      .error (.refused (.membraneNotFound id)) := by
  unfold receiveWith absorb
  rw [hremote, Store.snapshot_of_not_live hdead]

/-- **A snapshot is refused because of a count only when the count is at its limit,** which is one of
the owner of the membrane it is meant for, or of the store. -/
theorem blames_receiveWith (engine : Engine σ) (h : store.Orderly)
    (hrefused : (engine.receiveWith store id remote strategy).answer = .error (.refused refusal))
    (hcounted : refusal.isCounted = true) :
    ∃ mine, store.membranes.find? id = some mine ∧ store.Full mine.parent refusal := by
  have hremote : remote.verify = .ok () := by
    cases hverify : remote.verify with
    | ok verified => rfl
    | error fault =>
      unfold receiveWith absorb at hrefused
      rw [hverify] at hrefused
      exact nomatch hrefused
  cases hmine : store.membranes.find? id with
  | none =>
    rw [receiveWith_of_not_live engine hremote hmine] at hrefused
    obtain rfl : .membraneNotFound id = refusal := by simpa using hrefused
    exact nomatch hcounted
  | some mine =>
    obtain ⟨cause, hcause, hcarry⟩ := refused_of_receiveWith hremote hmine hrefused
    obtain rfl : refusal = cause := ExchangeFault.refused.inj hcause
    exact ⟨mine, rfl, h.blames_carryOut hmine _ _ hcarry hcounted⟩

end Engine

namespace Store

variable {store : Store}

/-! ### Reachable stores -/

/-- What a store holds is within its limits, and its depths can be counted. -/
structure Bounded (store : Store) : Prop extends Fits store where
  admits : ∀ {id membrane}, store.membranes.find? id = some membrane →
    store.config.limits.Admits membrane.shape
  exists_depth : ∀ {id}, store.contains id = true →
    ∃ depth, store.depth id = .ok depth ∧ depth ≤ store.config.limits.maxDepth

theorem Orderly.bounded (h : store.Orderly) : store.Bounded where
  toFits := h.fits
  admits hfind := (h.forest.membrane hfind).admits
  exists_depth := h.exists_depth

theorem Reachable.fits (h : store.Reachable) : store.Fits := by
  obtain ⟨config, entropy, hsteps⟩ := h.exists_steps
  exact (forest_empty config entropy).fits_steps (fits_empty config entropy) hsteps

theorem Reachable.orderly (h : store.Reachable) (hvalid : store.config.validate = .ok store.config) :
    store.Orderly :=
  ⟨h.forest, h.fits, h.shallow, StoreConfig.limit_pos hvalid .maxDepth⟩

/-- **Limits are kept, and can be met.** A reachable store with a valid configuration holds no more than
its limits allow. An operation or a snapshot is refused because of the number of children, of symbols or
of membranes, or because of the depth, only when the limit in question is met exactly, or the counter of
identifiers is used up. Each of these numbers can be brought up to its limit, and what was destroyed or
removed leaves as much room behind. -/
theorem Reachable.keeps_limits (h : store.Reachable)
    (hvalid : store.config.validate = .ok store.config) :
    store.Bounded ∧
      (∀ (operation : Operation) resource limit,
        (operation.run store).answer = .error (.capacity resource limit) → resource.isCounted = true →
          store.Full operation.recipient (.capacity resource limit)) ∧
      (∀ {σ : Type} [Outbound σ] (engine : Engine σ) id remote strategy resource limit,
        (engine.receiveWith store id remote strategy).answer =
          .error (.refused (.capacity resource limit)) → resource.isCounted = true →
          ∃ mine, store.membranes.find? id = some mine ∧
            store.Full mine.parent (.capacity resource limit)) ∧
      store.Fillable ∧ store.Recovers := by
  have horderly := h.orderly hvalid
  refine ⟨horderly.bounded, ?_, ?_, horderly.fillable hvalid, horderly.recovers⟩
  · intro operation resource limit hrefused hcounted
    exact horderly.blames_run operation _ hrefused hcounted
  · intro _ _ engine id remote strategy resource limit hrefused hcounted
    exact engine.blames_receiveWith horderly hrefused hcounted

/-- A store in which every count is at its limit somewhere. -/
def brimful : Store :=
  (Store.empty ⟨{ Limits.standard with
    maxObjects := 1, maxChildren := 1, maxDepth := 2, maxMembranes := 3 }, .zeros⟩ 0).after
    [.create Snapshot.pairShape, .createUnder ⟨1⟩ Snapshot.pairShape, .create Snapshot.pairShape,
      .addSymbol ⟨1⟩ "a"]

/-- Each of four requests meets another limit, and the place of a child can be taken again. -/
theorem Reachable.keeps_limits_brimful :
    brimful.Reachable ∧ brimful.config.validate = .ok brimful.config ∧
      brimful.Full (some ⟨1⟩) (.capacity .children 1) ∧ brimful.Full (some ⟨2⟩) (.capacity .depth 2) ∧
      brimful.Full (some ⟨1⟩) (.capacity .objects 1) ∧ brimful.Full none (.capacity .membranes 3) ∧
      ∃ released after, brimful.destroy ⟨2⟩ = ⟨.ok released, after⟩ ∧
        after.size + released.length = 3 ∧
        ∃ new, ((Operation.createUnder ⟨1⟩ Snapshot.pairShape).run after).answer = .ok (.created new) := by
  have hreachable : brimful.Reachable := (Reachable.empty _ _).after _
  have hvalid : brimful.config.validate = .ok brimful.config := by decide +kernel
  obtain ⟨-, hexact, -, -, hrecovers⟩ := hreachable.keeps_limits hvalid
  have hparent : brimful.parent ⟨2⟩ = .ok (some ⟨1⟩) := by decide +kernel
  have hsize : brimful.size = 3 := by decide +kernel
  have hadmits : brimful.config.limits.Admits Snapshot.pairShape :=
    checkShape_eq_ok_iff.mp (by decide +kernel)
  refine ⟨hreachable, hvalid, ?_, ?_, ?_, ?_, ?_⟩
  · exact hexact (.createUnder ⟨1⟩ Snapshot.pairShape) .children 1 (by decide +kernel) rfl
  · exact hexact (.createUnder ⟨2⟩ Snapshot.pairShape) .depth 2 (by decide +kernel) rfl
  · exact hexact (.addSymbol ⟨1⟩ "b") .objects 1 (by decide +kernel) rfl
  · exact hexact (.create Snapshot.pairShape) .membranes 3 (by decide +kernel) rfl
  · obtain ⟨released, after, hdestroy, hafter, -, -, hcreate⟩ := hrecovers.destroy hparent
    rw [hsize] at hafter
    exact ⟨released, after, hdestroy, hafter, hcreate Snapshot.pairShape hadmits (by decide +kernel)⟩

end Store

end Membranes
