import Membranes.Proofs.Exchange.Room
import Membranes.Proofs.Exchange.Stale

/-!
# Usable configurations

* `Limits.Admits.pairShape`: limits that admit any shape admit the one of two elements on one axis. So a
  store without membranes can create one exactly when one axis, two elements and one membrane are allowed
  (`Store.exists_create_empty_iff`).
* `Operation.run_of_vacant`: where nothing is live and nothing can be created, every request is refused.
* `StoreConfig.usable_iff`: validation asks for all that a first membrane takes, except that it is content
  with one element. Under such a limit nothing is ever created.
-/

namespace Membranes

/-! ### The least shape -/

namespace Limits

variable {limits : Limits} {shape : Shape}

theorem admits_pairShape_iff :
    limits.Admits Snapshot.pairShape ↔ 1 ≤ limits.maxAxes.toNat ∧ 2 ≤ limits.maxVolume :=
  ⟨fun h => ⟨h.rank_le, h.volume_le⟩, fun h => ⟨rfl, h.1, h.2⟩⟩

/-- No shape of a membrane takes less room than one axis with two places. -/
theorem Admits.pairShape (h : limits.Admits shape) : limits.Admits Snapshot.pairShape := by
  have hrank : 1 ≤ shape.rank := by
    have haxis := h.hasAxis
    unfold Shape.isScalar at haxis
    exact List.length_pos_iff.mpr (List.isEmpty_eq_false_iff.mp haxis)
  have hvolume : 2 ≤ shape.volume.toNat := by
    rw [Shape.toNat_volume]
    calc 2 = 2 ^ 1 := rfl
      _ ≤ 2 ^ shape.rank := Nat.pow_le_pow_right (by decide) hrank
      _ ≤ axesProduct shape.axes := Shape.two_pow_length_le_axesProduct shape.valid.1
  have hlimit : shape.volume.toNat ≤ limits.maxVolume.toNat := UInt64.le_iff_toNat_le.mp h.volume_le
  exact admits_pairShape_iff.mpr ⟨hrank.trans h.rank_le, UInt64.le_iff_toNat_le.mpr (hvolume.trans hlimit)⟩

end Limits

namespace Store

variable {config : StoreConfig} {entropy : UInt64} {shape : Shape}

theorem contains_empty (id : MembraneId) : (Store.empty config entropy).contains id = false := rfl

theorem checkRoom_empty_iff : (Store.empty config entropy).checkRoom shape = .ok () ↔
    config.limits.Admits shape ∧ 1 ≤ config.limits.maxMembranes.toNat := by
  rw [checkRoom_eq_ok_iff]
  refine and_congr_right fun _ => and_iff_left ?_
  show 1 + 1 < 4294967296
  decide

/-- What the first membrane of a store takes. -/
theorem exists_create_empty_iff :
    (∃ shape id, ((Store.empty config entropy).create shape).answer = .ok id) ↔
      1 ≤ config.limits.maxAxes.toNat ∧ 2 ≤ config.limits.maxVolume ∧
        1 ≤ config.limits.maxMembranes.toNat := by
  simp only [create_eq_ok_iff, checkRoom_empty_iff, exists_and_left, exists_eq, and_true]
  rw [← and_assoc, ← Limits.admits_pairShape_iff, exists_and_right]
  exact and_congr_left' ⟨fun ⟨_, hadmits⟩ => hadmits.pairShape, fun hadmits => ⟨_, hadmits⟩⟩

end Store

/-! ### Stores in which nothing can be done -/

variable {store : Store}

/-- Where nothing is live and nothing can be created, every request is refused. -/
theorem Operation.run_of_vacant (hdead : ∀ id, store.contains id = false)
    (hroom : ∀ shape, store.checkRoom shape ≠ .ok ()) (operation : Operation) :
    ∃ refusal, operation.run store = ⟨.error refusal, store⟩ := by
  rcases (operation.run_atomically store).cases with hrefused | ⟨reply, after, hrun, -⟩
  · exact hrefused
  · have hanswer := congrArg Outcome.answer hrun
    cases operation with
    | create shape =>
      obtain ⟨id, hcreate, -⟩ := map_eq_ok_iff.mp hanswer
      exact absurd (Store.create_eq_ok_iff.mp hcreate).1 (hroom shape)
    | _ =>
      -- Every other request names a membrane, which would have to be live.
      have hlive := live_of_run hanswer List.mem_cons_self
      exact nomatch (hdead _).symm.trans hlive

/-- A store in which every request is refused stays as it is. -/
theorem Store.after_of_refused
    (h : ∀ operation : Operation, ∃ refusal, operation.run store = ⟨.error refusal, store⟩)
    (operations : List Operation) : store.after operations = store := by
  induction operations with
  | nil => rfl
  | cons operation operations ih =>
    obtain ⟨refusal, hrun⟩ := h operation
    show (operation.run store).store.after operations = store
    rw [hrun]
    exact ih

/-! ### Validation -/

namespace StoreConfig

/-- **Which validated configurations are usable.** A store with a validated configuration can create a
membrane exactly when its limit allows for two elements, the fewest that a membrane has. Validation is
content with one element, and under this limit the store stays without membranes and refuses every
request. -/
theorem usable_iff {config : StoreConfig} (h : config.validate = .ok config) (entropy : UInt64) :
    ((∃ shape id, ((Store.empty config entropy).create shape).answer = .ok id) ↔
      2 ≤ config.limits.maxVolume) ∧
    (config.limits.maxVolume < 2 → ∀ (operations : List Operation) (operation : Operation),
      ∃ refusal, operation.run ((Store.empty config entropy).after operations) =
        ⟨.error refusal, Store.empty config entropy⟩) := by
  have haxes : 1 ≤ config.limits.maxAxes.toNat := limit_pos h .maxAxes
  have hmembranes : 1 ≤ config.limits.maxMembranes.toNat := limit_pos h .maxMembranes
  have husable : (∃ shape id, ((Store.empty config entropy).create shape).answer = .ok id) ↔
      2 ≤ config.limits.maxVolume := by
    rw [Store.exists_create_empty_iff, and_iff_right haxes, and_iff_left hmembranes]
  refine ⟨husable, fun hvolume operations operation => ?_⟩
  have hroom : ∀ shape, (Store.empty config entropy).checkRoom shape ≠ .ok () := by
    intro shape hok
    have hcreate := husable.mp ⟨shape, _, Store.create_eq_ok_iff.mpr ⟨hok, rfl⟩⟩
    exact absurd hcreate (UInt64.not_le.mpr hvolume)
  have hrefused := Operation.run_of_vacant Store.contains_empty hroom
  rw [Store.after_of_refused hrefused]
  exact hrefused operation

/-- All limits but the one on elements as low as validation lets them be, and random elements below one
from the stream of a seed. -/
def tight (maxVolume : UInt64) : StoreConfig where
  limits :=
    { maxAxes := 1, maxObjects := 1, maxChildren := 1, maxDepth := 1, maxMembranes := 1, maxVolume,
      initialEnergy := 1 }
  filling := .random ⟨0x3F800000⟩ (some 42)

/-- Two elements are enough, and one is not, though it is validated as well. -/
theorem usable_iff_tight :
    (tight 2).validate = .ok (tight 2) ∧
      (∃ shape id, ((Store.empty (tight 2) 0).create shape).answer = .ok id) ∧
      (tight 1).validate = .ok (tight 1) ∧
      ∃ refusal, (Operation.create Snapshot.pairShape).run ((Store.empty (tight 1) 0).after []) =
        ⟨.error refusal, Store.empty (tight 1) 0⟩ := by
  have htwo : (tight 2).validate = .ok (tight 2) := by decide +kernel
  have hone : (tight 1).validate = .ok (tight 1) := by decide +kernel
  exact ⟨htwo, (usable_iff htwo 0).1.mpr (by decide), hone, (usable_iff hone 0).2 (by decide) [] _⟩

/-- A validated configuration, seeded as it may be, need not be usable. -/
theorem not_usable_of_validate :
    ¬ ∀ (config : StoreConfig) (entropy : UInt64), config.validate = .ok config →
      (config.filling = .zeros ∨ ∃ scale seed, config.filling = .random scale (some seed)) →
        ∃ shape id, ((Store.empty config entropy).create shape).answer = .ok id := by
  intro husable
  have hcreate := husable (tight 1) 0 (by decide +kernel) (Or.inr ⟨_, _, rfl⟩)
  exact absurd (Store.exists_create_empty_iff.mp hcreate).2.1 (by decide)

end StoreConfig

end Membranes
