import Mathlib.Data.Prod.Lex
import Membranes.Proofs.Store.Sound
import Membranes.Snapshot.Merge

/-!
# Merging, copy by copy

* `Snapshot.verify_eq_ok_iff` says which snapshots pass verification; the snapshot of a sound membrane
  does (`Membrane.Sound.verify`).
* `merge_settles`: whatever the strategy, a merge keeps the local copy, takes over the remote one,
  blends the two, or keeps the remote one beside the local one. What is new passes verification when
  both copies do (`Settles.verify`).
* `overwrittenBy_eq`: the last writer replaces the local copy exactly when it `Yields`. For two copies
  with one identifier the greater stamp stays (`stamp_overwrittenBy`).
* `overwrittenBy_comm_iff`: two remote copies may come in either order unless they race
  (`Snapshot.Race`). They do race in earnest: `not_overwrittenBy_comm`.
-/

namespace Membranes

namespace Snapshot

/-! ### Verification -/

theorem verify_eq_ok_iff {snapshot : Snapshot} :
    snapshot.verify = .ok () ↔
      snapshot.shape.isScalar = false ∧ snapshot.buffer.size = snapshot.shape.volume.toNat ∧
        snapshot.checksum = checksumOf snapshot.shape snapshot.buffer := by
  unfold verify
  cases snapshot.shape.isScalar with
  | true => simp
  | false =>
    by_cases hsize : snapshot.buffer.size = snapshot.shape.volume.toNat
    · by_cases hchecksum : checksumOf snapshot.shape snapshot.buffer = snapshot.checksum
      · simp [hsize, hchecksum]
      · simp [hsize, hchecksum, Ne.symm hchecksum]
    · simp [hsize]

theorem verify_withId {snapshot : Snapshot} (h : snapshot.verify = .ok ()) (id : MembraneId) :
    ({ snapshot with id } : Snapshot).verify = .ok () :=
  verify_eq_ok_iff.mpr (verify_eq_ok_iff.mp h)

theorem verify_ofContent {id : MembraneId} {shape : Shape} {version : UInt64}
    {buffer : Array Binary32} (haxis : shape.isScalar = false)
    (hsize : buffer.size = shape.volume.toNat) :
    (ofContent id shape version buffer).verify = .ok () :=
  verify_eq_ok_iff.mpr ⟨haxis, hsize, rfl⟩

end Snapshot

theorem Membrane.Sound.verify {limits : Limits} {id : MembraneId} {membrane : Membrane}
    (h : membrane.Sound limits id) : (Snapshot.ofMembrane membrane).verify = .ok () :=
  Snapshot.verify_eq_ok_iff.mpr ⟨h.admits.hasAxis, h.size_eq, h.checksum_eq⟩

namespace Snapshot

variable {mine other : Snapshot}

theorem verify_blend (hmine : mine.verify = .ok ()) (hother : other.verify = .ok ())
    (hsize : mine.buffer.size = other.buffer.size) : (mine.blend other).verify = .ok () := by
  obtain ⟨hmineAxis, hmineSize, -⟩ := verify_eq_ok_iff.mp hmine
  obtain ⟨hotherAxis, hotherSize, -⟩ := verify_eq_ok_iff.mp hother
  unfold blend
  apply verify_ofContent
  · split
    · exact hotherAxis
    · exact hmineAxis
  · rw [Array.size_zipWith, ← hsize, Nat.min_self]
    split
    · rw [hsize, hotherSize]
    · exact hmineSize

/-! ### What a merge can decide -/

/-- The settlements that a merge of two copies can end with. -/
inductive Settles (mine other : Snapshot) : Settlement → Prop
  /-- The local copy stays. -/
  | keep (comparison : Comparison) (decision : Decision) :
      Settles mine other (.keep comparison decision mine)
  /-- The remote copy is taken over. -/
  | adopt (comparison : Comparison) (decision : Decision) :
      Settles mine other (.adopt comparison decision mine other)
  /-- The copies are averaged. -/
  | blend (hsize : mine.buffer.size = other.buffer.size) :
      Settles mine other ⟨.conflict, .conflict .blended, mine.blend other, true, none⟩
  /-- The remote copy is kept beside the local one. -/
  | split : Settles mine other ⟨.conflict, .conflict .split, mine, false, some other⟩

theorem settleTie_settles (mine other : Snapshot) :
    mine.Settles other (mine.settleTie other) := by
  unfold settleTie
  split
  · exact .adopt _ _
  · exact .keep _ _

theorem merge_settles (mine other : Snapshot) (strategy : Option ConflictStrategy) :
    mine.Settles other (mine.merge other strategy) := by
  unfold merge
  split
  · exact .adopt _ _
  · exact .keep _ _
  · exact .keep _ _
  · unfold settle
    split
    · exact settleTie_settles mine other
    · split
      · exact .blend ‹_›
      · exact settleTie_settles mine other
    · exact .split

/-- What a merge of two whole copies leaves is whole. -/
theorem Settles.verify {settlement : Settlement} (h : mine.Settles other settlement)
    (hmine : mine.verify = .ok ()) (hother : other.verify = .ok ()) :
    settlement.result.verify = .ok () := by
  cases h with
  | keep => exact hmine
  | adopt => exact verify_withId hother _
  | blend hsize => exact verify_blend hmine hother hsize
  | split => exact hmine

/-- The shape of what a merge leaves is the one of either copy. -/
theorem Settles.admits {limits : Limits} {settlement : Settlement} (h : mine.Settles other settlement)
    (hmine : limits.Admits mine.shape) (hother : limits.Admits other.shape) :
    limits.Admits settlement.result.shape := by
  cases h with
  | keep => exact hmine
  | adopt => exact hother
  | blend =>
    show limits.Admits (if mine.losesTie other then other else mine).shape
    split
    · exact hother
    · exact hmine
  | split => exact hmine

theorem Settles.id_eq {settlement : Settlement} (h : mine.Settles other settlement) :
    settlement.result.id = mine.id := by
  cases h <;> rfl

/-- Only the remote copy is ever kept beside the local one. -/
theorem Settles.copy_eq {settlement : Settlement} (h : mine.Settles other settlement)
    {copy : Snapshot} (hcopy : settlement.split = some copy) : copy = other := by
  cases h with
  | keep | adopt | blend => exact absurd hcopy (Option.some_ne_none copy).symm
  | split => exact (Option.some.inj hcopy).symm

/-! ### The last writer -/

/-- What the last writer makes of a local copy when a remote one comes in. -/
def overwrittenBy (mine other : Snapshot) : Snapshot :=
  (mine.merge other (some .lastWriterWins)).result

/-- The last writer puts nothing beside the local copy. -/
theorem merge_lastWriter_split (mine other : Snapshot) :
    (mine.merge other (some .lastWriterWins)).split = none := by
  unfold merge
  split
  · rfl
  · rfl
  · rfl
  · show (mine.settleTie other).split = none
    unfold settleTie
    split <;> rfl

/-- The local copy gives way to the remote one: that one is newer, or wins the tie. -/
def Yields (mine other : Snapshot) : Prop :=
  mine.version < other.version ∨
    mine.version = other.version ∧ mine.checksum ≠ other.checksum ∧ mine.losesTie other = true

instance (mine other : Snapshot) : Decidable (mine.Yields other) :=
  inferInstanceAs (Decidable (_ ∨ _))

theorem overwrittenBy_eq (mine other : Snapshot) :
    mine.overwrittenBy other = if mine.Yields other then { other with id := mine.id } else mine := by
  unfold overwrittenBy merge compare Yields
  -- The four comparisons: lower, higher, same content, and the tie that is left to `losesTie`.
  by_cases hlower : other.version < mine.version
  · have hnot : ¬ mine.version < other.version := UInt64.lt_asymm hlower
    have hne : mine.version ≠ other.version := fun h => UInt64.lt_irrefl _ (h ▸ hlower)
    simp [hlower, hnot, hne, Settlement.keep]
  · by_cases hhigher : mine.version < other.version
    · simp [hlower, hhigher, Settlement.adopt]
    · have heq : mine.version = other.version :=
        UInt64.le_antisymm (UInt64.not_lt.mp hlower) (UInt64.not_lt.mp hhigher)
      by_cases hchecksum : mine.checksum = other.checksum
      · simp [hlower, hhigher, hchecksum, Settlement.keep]
      · by_cases hloses : mine.losesTie other = true
        · simp [heq, hchecksum, hloses, settle, settleTie, Settlement.adopt]
        · simp [heq, hchecksum, hloses, settle, settleTie, Settlement.keep]

theorem overwrittenBy_cases (mine other : Snapshot) :
    mine.overwrittenBy other = { other with id := mine.id } ∨ mine.overwrittenBy other = mine := by
  rw [overwrittenBy_eq]
  by_cases hyields : mine.Yields other
  · exact Or.inl (if_pos hyields)
  · exact Or.inr (if_neg hyields)

theorem overwrittenBy_id (mine other : Snapshot) : (mine.overwrittenBy other).id = mine.id :=
  (merge_settles mine other _).id_eq

theorem losesTie_iff :
    mine.losesTie other = true ↔
      mine.id < other.id ∨ mine.id = other.id ∧ mine.checksum < other.checksum := by
  unfold losesTie key
  simp

theorem overwrittenBy_of_lt (h : mine.version < other.version) :
    mine.overwrittenBy other = { other with id := mine.id } := by
  rw [overwrittenBy_eq, if_pos (show mine.Yields other from Or.inl h)]

theorem overwrittenBy_of_gt (h : other.version < mine.version) : mine.overwrittenBy other = mine := by
  rw [overwrittenBy_eq, if_neg]
  rintro (hlt | ⟨heq, -⟩)
  · exact UInt64.lt_asymm h hlt
  · exact UInt64.lt_irrefl _ (heq ▸ h)

theorem version_overwrittenBy (mine other : Snapshot) :
    (mine.overwrittenBy other).version.toNat = max mine.version.toNat other.version.toNat := by
  rw [overwrittenBy_eq]
  by_cases hyields : mine.Yields other
  · rw [if_pos hyields]
    rcases hyields with hlt | ⟨heq, -⟩
    · exact (max_eq_right (UInt64.lt_iff_toNat_lt.mp hlt).le).symm
    · rw [heq, max_self]
  · rw [if_neg hyields]
    refine (max_eq_left ?_).symm
    rw [← UInt64.le_iff_toNat_le, ← UInt64.not_lt]
    exact fun h => hyields (Or.inl h)

/-- In a tie the checksum of the winner stays. -/
theorem checksum_overwrittenBy_of_eq (h : mine.version = other.version) :
    (mine.overwrittenBy other).checksum =
      if mine.losesTie other then other.checksum else mine.checksum := by
  have hnot : ¬ mine.version < other.version := h ▸ UInt64.lt_irrefl _
  rw [overwrittenBy_eq]
  unfold Yields
  by_cases hchecksum : mine.checksum = other.checksum
  · simp [hnot, hchecksum]
  · by_cases hloses : mine.losesTie other = true <;> simp [h, hchecksum, hloses]

/-! ### Copies of one membrane -/

/-- What copies of one membrane are ordered by: the version, then the checksum. -/
def stamp (snapshot : Snapshot) : ℕ ×ₗ ℕ :=
  toLex (snapshot.version.toNat, snapshot.checksum.toNat)

theorem stamp_lt_iff : mine.stamp < other.stamp ↔ mine.version < other.version ∨
    mine.version = other.version ∧ mine.checksum < other.checksum := by
  unfold stamp
  rw [Prod.Lex.toLex_lt_toLex, UInt64.lt_iff_toNat_lt, UInt32.lt_iff_toNat_lt, UInt64.toNat_inj]

theorem stamp_inj (h : mine.stamp = other.stamp) :
    mine.version = other.version ∧ mine.checksum = other.checksum := by
  obtain ⟨hversion, hchecksum⟩ := Prod.mk.inj (toLex.injective h)
  exact ⟨UInt64.toNat_inj.mp hversion, UInt32.toNat_inj.mp hchecksum⟩

/-- The local copy gives way when its stamp is less. -/
theorem yields_iff_stamp_lt (h : mine.id = other.id) :
    mine.Yields other ↔ mine.stamp < other.stamp := by
  unfold Yields
  rw [stamp_lt_iff, losesTie_iff]
  constructor
  · rintro (hversion | ⟨hversion, -, hid | ⟨-, hchecksum⟩⟩)
    · exact Or.inl hversion
    · exact absurd hid (h ▸ UInt32.lt_irrefl _)
    · exact Or.inr ⟨hversion, hchecksum⟩
  · rintro (hversion | ⟨hversion, hchecksum⟩)
    · exact Or.inl hversion
    · exact Or.inr ⟨hversion, UInt32.ne_of_lt hchecksum, Or.inr ⟨h, hchecksum⟩⟩

/-- The greater stamp stays. -/
theorem stamp_overwrittenBy (h : mine.id = other.id) :
    (mine.overwrittenBy other).stamp = max mine.stamp other.stamp := by
  rw [overwrittenBy_eq]
  by_cases hyields : mine.Yields other
  · rw [if_pos hyields]
    exact (max_eq_right ((yields_iff_stamp_lt h).mp hyields).le).symm
  · rw [if_neg hyields]
    exact (max_eq_left (not_lt.mp ((yields_iff_stamp_lt h).not.mp hyields))).symm

/-! ### Two remote copies -/

/-- Held under the identifier `id`, the content of `mine` loses a tie against `other`. -/
def LosesUnder (mine : Snapshot) (id : MembraneId) (other : Snapshot) : Prop :=
  ({ mine with id } : Snapshot).losesTie other = true

/-- Two remote copies race for a local one when their order of arrival decides: they are different
copies of one version that the local one has not passed, and under the local identifier either each of
them beats the other, or neither does and both beat the local copy by their version. -/
structure Race (mine first second : Snapshot) : Prop where
  /-- The remote copies have one version. -/
  version_eq : first.version = second.version
  /-- The local copy is not ahead of it. -/
  reached : mine.version ≤ first.version
  /-- The remote copies differ. -/
  checksum_ne : first.checksum ≠ second.checksum
  /-- The tie between the remote copies is settled both ways, or neither way. -/
  unsettled : first.LosesUnder mine.id second ∧ second.LosesUnder mine.id first ∨
    mine.version < first.version ∧
      ¬ first.LosesUnder mine.id second ∧ ¬ second.LosesUnder mine.id first

variable {first second : Snapshot}

theorem losesUnder_iff {id : MembraneId} : mine.LosesUnder id other ↔
    id.value.toNat < other.id.value.toNat ∨
      id.value.toNat = other.id.value.toNat ∧ mine.checksum.toNat < other.checksum.toNat := by
  unfold LosesUnder
  rw [losesTie_iff, MembraneId.lt_iff_toNat_lt, MembraneId.eq_iff_toNat_eq,
    UInt32.lt_iff_toNat_lt]

/-- An older remote copy makes no difference to what a newer one leaves, before it or after it. -/
theorem overwrittenBy_of_older (mine : Snapshot) (h : first.version < second.version) :
    (mine.overwrittenBy first).overwrittenBy second = mine.overwrittenBy second ∧
      (mine.overwrittenBy second).overwrittenBy first = mine.overwrittenBy second := by
  constructor
  -- First the older copy: it leaves either the local copy or itself, and both are older than `second`.
  · by_cases hyields : mine.Yields first
    · have hmine : mine.version < second.version := by
        rcases hyields with hlt | ⟨heq, -⟩
        · exact UInt64.lt_trans hlt h
        · exact heq ▸ h
      rw [overwrittenBy_eq mine first, if_pos hyields, overwrittenBy_of_lt hmine]
      have hadopted : ({ first with id := mine.id } : Snapshot).version < second.version := h
      exact overwrittenBy_of_lt hadopted
    · rw [overwrittenBy_eq mine first, if_neg hyields]
  · apply overwrittenBy_of_gt
    rw [UInt64.lt_iff_toNat_lt, version_overwrittenBy]
    exact lt_of_lt_of_le (UInt64.lt_iff_toNat_lt.mp h) (le_max_right _ _)

theorem race_iff_of_lt (hversion : first.version = second.version)
    (hmine : mine.version < first.version) :
    mine.Race first second ↔ first.checksum ≠ second.checksum ∧
      (first.LosesUnder mine.id second ↔ second.LosesUnder mine.id first) := by
  constructor
  · intro hrace
    refine ⟨hrace.checksum_ne, ?_⟩
    rcases hrace.unsettled with ⟨hsecond, hfirst⟩ | ⟨-, hsecond, hfirst⟩
    · exact iff_of_true hsecond hfirst
    · exact iff_of_false hsecond hfirst
  · rintro ⟨hchecksum, hiff⟩
    refine ⟨hversion, UInt64.le_of_lt hmine, hchecksum, ?_⟩
    by_cases hsecond : first.LosesUnder mine.id second
    · exact Or.inl ⟨hsecond, hiff.mp hsecond⟩
    · exact Or.inr ⟨hmine, hsecond, fun hfirst => hsecond (hiff.mpr hfirst)⟩

theorem race_iff_of_eq (hversion : first.version = second.version)
    (hmine : mine.version = first.version) :
    mine.Race first second ↔ first.checksum ≠ second.checksum ∧
      first.LosesUnder mine.id second ∧ second.LosesUnder mine.id first := by
  constructor
  · intro hrace
    refine ⟨hrace.checksum_ne, ?_⟩
    rcases hrace.unsettled with hboth | ⟨hlt, -⟩
    · exact hboth
    · exact absurd (hmine ▸ hlt) (UInt64.lt_irrefl _)
  · rintro ⟨hchecksum, hboth⟩
    exact ⟨hversion, hmine ▸ UInt64.le_refl _, hchecksum, Or.inl hboth⟩

/-- Both remote copies are newer than the local one: each order ends with their tie. -/
theorem checksum_comm_iff_of_lt (hversion : first.version = second.version)
    (hmine : mine.version < first.version) :
    ((mine.overwrittenBy first).overwrittenBy second).checksum =
        ((mine.overwrittenBy second).overwrittenBy first).checksum ↔ ¬ mine.Race first second := by
  have hmine' : mine.version < second.version := hversion ▸ hmine
  have hfirst : ({ first with id := mine.id } : Snapshot).version = second.version := hversion
  have hsecond : ({ second with id := mine.id } : Snapshot).version = first.version := hversion.symm
  -- The copy that comes first is taken over under the local identifier, and then meets the other one.
  rw [overwrittenBy_of_lt hmine, overwrittenBy_of_lt hmine', checksum_overwrittenBy_of_eq hfirst,
    checksum_overwrittenBy_of_eq hsecond, race_iff_of_lt hversion hmine]
  unfold LosesUnder
  by_cases hsecond : ({ first with id := mine.id } : Snapshot).losesTie second = true <;>
    by_cases hfirst : ({ second with id := mine.id } : Snapshot).losesTie first = true <;>
    simp [hsecond, hfirst, eq_comm]

/-- All three copies have one version: the local one has to lose to both, in either order. -/
theorem checksum_comm_iff_of_eq (hversion : first.version = second.version)
    (hmine : mine.version = first.version) :
    ((mine.overwrittenBy first).overwrittenBy second).checksum =
        ((mine.overwrittenBy second).overwrittenBy first).checksum ↔ ¬ mine.Race first second := by
  have hmine' : mine.version = second.version := hmine.trans hversion
  have hfirst : (mine.overwrittenBy first).version = second.version := by
    rw [← UInt64.toNat_inj, version_overwrittenBy, hmine, max_self, hversion]
  have hsecond : (mine.overwrittenBy second).version = first.version := by
    rw [← UInt64.toNat_inj, version_overwrittenBy, hmine', max_self, hversion]
  rw [checksum_overwrittenBy_of_eq hfirst, checksum_overwrittenBy_of_eq hsecond,
    checksum_overwrittenBy_of_eq hmine, checksum_overwrittenBy_of_eq hmine',
    race_iff_of_eq hversion hmine]
  simp only [losesTie_iff, losesUnder_iff, overwrittenBy_id, checksum_overwrittenBy_of_eq hmine,
    checksum_overwrittenBy_of_eq hmine', MembraneId.lt_iff_toNat_lt, MembraneId.eq_iff_toNat_eq,
    UInt32.lt_iff_toNat_lt, ← UInt32.toNat_inj, ne_eq]
  -- Only three identifiers and three checksums are compared from here on.
  grind

/-- The local copy is ahead of both remote ones, which are then ignored. -/
theorem checksum_comm_iff_of_gt (hversion : first.version = second.version)
    (hmine : first.version < mine.version) :
    ((mine.overwrittenBy first).overwrittenBy second).checksum =
        ((mine.overwrittenBy second).overwrittenBy first).checksum ↔ ¬ mine.Race first second := by
  have hmine' : second.version < mine.version := hversion ▸ hmine
  rw [overwrittenBy_of_gt hmine, overwrittenBy_of_gt hmine', overwrittenBy_of_gt hmine]
  exact iff_of_true rfl fun hrace => UInt64.not_le.mpr hmine hrace.reached

theorem not_race_of_version_ne (h : first.version ≠ second.version) : ¬ mine.Race first second :=
  fun hrace => h hrace.version_eq

/-- **Two remote copies leave the same version in either order of arrival, and the same checksum
unless they race.** -/
theorem overwrittenBy_comm_iff (mine first second : Snapshot) :
    ((mine.overwrittenBy first).overwrittenBy second).version =
        ((mine.overwrittenBy second).overwrittenBy first).version ∧
      (((mine.overwrittenBy first).overwrittenBy second).checksum =
          ((mine.overwrittenBy second).overwrittenBy first).checksum ↔
        ¬ mine.Race first second) := by
  constructor
  · rw [← UInt64.toNat_inj]
    simp only [version_overwrittenBy]
    rw [max_assoc, max_assoc, max_comm first.version.toNat]
  -- Different versions settle the matter; with one version it depends on where the local copy is.
  · rcases lt_trichotomy first.version.toNat second.version.toNat with hlt | heq | hgt
    · obtain ⟨hbefore, hafter⟩ := overwrittenBy_of_older mine (UInt64.lt_iff_toNat_lt.mpr hlt)
      rw [hbefore, hafter]
      exact iff_of_true rfl (not_race_of_version_ne fun h => hlt.ne (congrArg UInt64.toNat h))
    · have hversion : first.version = second.version := UInt64.toNat_inj.mp heq
      rcases lt_trichotomy mine.version.toNat first.version.toNat with hlt | hsame | hgt
      · exact checksum_comm_iff_of_lt hversion (UInt64.lt_iff_toNat_lt.mpr hlt)
      · exact checksum_comm_iff_of_eq hversion (UInt64.toNat_inj.mp hsame)
      · exact checksum_comm_iff_of_gt hversion (UInt64.lt_iff_toNat_lt.mpr hgt)
    · obtain ⟨hbefore, hafter⟩ := overwrittenBy_of_older mine (UInt64.lt_iff_toNat_lt.mpr hgt)
      rw [hbefore, hafter]
      exact iff_of_true rfl (not_race_of_version_ne fun h => hgt.ne (congrArg UInt64.toNat h).symm)

/-- The shape of two elements in a row. -/
def pairShape : Shape := ⟨[2], List.forall_mem_singleton.mpr (by decide), by decide⟩

/-- A snapshot of two equal elements. -/
def ofPair (id : UInt32) (version : UInt64) (bits : UInt32) : Snapshot :=
  ofContent ⟨id⟩ pairShape version #[⟨bits⟩, ⟨bits⟩]

theorem verify_ofPair (id : UInt32) (version : UInt64) (bits : UInt32) :
    (ofPair id version bits).verify = .ok () :=
  verify_ofContent rfl rfl

/-- Membrane 1 ends with the content of whichever of 2 and 3 comes in last. -/
theorem not_overwrittenBy_comm : ¬ ∀ mine first second : Snapshot,
    mine.verify = .ok () → first.verify = .ok () → second.verify = .ok () →
      ((mine.overwrittenBy first).overwrittenBy second).version =
          ((mine.overwrittenBy second).overwrittenBy first).version ∧
        ((mine.overwrittenBy first).overwrittenBy second).checksum =
          ((mine.overwrittenBy second).overwrittenBy first).checksum := by
  intro h
  have hcomm := h (ofPair 1 1 0) (ofPair 2 2 0x3F800000) (ofPair 3 2 0x40000000)
    (verify_ofPair _ _ _) (verify_ofPair _ _ _) (verify_ofPair _ _ _)
  revert hcomm
  decide +kernel

end Snapshot

end Membranes
