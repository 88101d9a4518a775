import Membranes.Proofs.Snapshot.Exchange

/-!
# What a merge decides, and when

* `Snapshot.Decides` lists the seven decisions of a merge with their conditions on the two copies, and
  `merge_decides` says that there are no others.
* `Decides.le_version`, `Decides.changed_iff`, `Decides.split_eq` and `Decides.conflict_iff` read off
  what they have in common.
* `merge_truthful` joins this: the result is whole, has the local identifier and does not go back, and
  what the settlement says of it is true.
-/

namespace Membranes

namespace Snapshot

variable {mine other : Snapshot} {settlement : Settlement}

/-! ### The decisions -/

/-- The decisions of a merge, each with what leads to it. -/
inductive Decides (mine other : Snapshot) : Settlement → Prop
  /-- The remote copy is newer. -/
  | newer (hversion : mine.version < other.version) :
      Decides mine other (.adopt .remoteNewer .accept mine other)
  /-- The remote copy is older. -/
  | older (hversion : other.version < mine.version) :
      Decides mine other (.keep .localNewer .reject mine)
  /-- The copies are the same. -/
  | same (hversion : mine.version = other.version) (hchecksum : mine.checksum = other.checksum) :
      Decides mine other (.keep .equal .accept mine)
  /-- The local copy wins the tie. -/
  | localWins (hconflict : mine.compare other = .conflict) (hwins : mine.losesTie other = false) :
      Decides mine other (.keep .conflict (.conflict .localWins) mine)
  /-- The remote copy wins the tie. -/
  | remoteWins (hconflict : mine.compare other = .conflict) (hloses : mine.losesTie other = true) :
      Decides mine other (.adopt .conflict (.conflict .remoteWins) mine other)
  /-- The copies are averaged. -/
  | blended (hconflict : mine.compare other = .conflict) (hsize : mine.buffer.size = other.buffer.size) :
      Decides mine other ⟨.conflict, .conflict .blended, mine.blend other, true, none⟩
  /-- The remote copy is kept beside the local one. -/
  | split (hconflict : mine.compare other = .conflict) :
      Decides mine other ⟨.conflict, .conflict .split, mine, false, some other⟩

theorem settleTie_decides (hconflict : mine.compare other = .conflict) :
    mine.Decides other (mine.settleTie other) := by
  unfold settleTie
  split
  · exact .remoteWins hconflict ‹_›
  · exact .localWins hconflict (Bool.not_eq_true _ ▸ ‹_›)

/-- **A merge ends with one of the seven decisions,** whatever the strategy. -/
theorem merge_decides (mine other : Snapshot) (strategy : Option ConflictStrategy) :
    mine.Decides other (mine.merge other strategy) := by
  unfold merge
  cases hcompare : mine.compare other with
  | remoteNewer => exact .newer (lt_of_compare_remoteNewer hcompare)
  | localNewer => exact .older (lt_of_compare_localNewer hcompare)
  | equal =>
    obtain ⟨hversion, hchecksum⟩ := compare_eq_equal_iff.mp hcompare
    exact .same hversion hchecksum
  | conflict =>
    cases strategy.getD .lastWriterWins with
    | lastWriterWins => exact settleTie_decides hcompare
    | split => exact .split hcompare
    | blend =>
      show mine.Decides other (ite _ _ _)
      split
      · exact .blended hcompare ‹_›
      -- Buffers of different length fall back to the tie.
      · exact settleTie_decides hcompare

/-! ### What they have in common -/

/-- No decision goes back behind either copy. -/
theorem Decides.le_version (h : mine.Decides other settlement)
    (hversion : mine.version.toNat < UInt64.size - 1) :
    max mine.version.toNat other.version.toNat ≤ settlement.result.version.toNat := by
  have hequal : mine.compare other = .conflict → mine.version.toNat = other.version.toNat :=
    fun hconflict => congrArg UInt64.toNat (compare_eq_conflict_iff.mp hconflict).1
  cases h with
  | newer hlt => exact max_le (UInt64.lt_iff_toNat_lt.mp hlt).le le_rfl
  | older hlt => exact max_le le_rfl (UInt64.lt_iff_toNat_lt.mp hlt).le
  | same heq => exact max_le le_rfl (congrArg UInt64.toNat heq).ge
  | localWins hconflict => exact max_le le_rfl (hequal hconflict).ge
  | remoteWins hconflict => exact max_le (hequal hconflict).le le_rfl
  | blended hconflict =>
    have hlt : mine.version < (mine.blend other).version := version_lt_blend hversion
    have hle := (UInt64.lt_iff_toNat_lt.mp hlt).le
    exact max_le hle ((hequal hconflict).ge.trans hle)
  | split hconflict => exact max_le le_rfl (hequal hconflict).ge

/-- Two copies differ in more than their identifiers. -/
def Differs (mine other : Snapshot) : Prop :=
  mine.shape ≠ other.shape ∨ mine.version ≠ other.version ∨ mine.checksum ≠ other.checksum ∨
    mine.buffer ≠ other.buffer

theorem not_differs_self (snapshot : Snapshot) : ¬ snapshot.Differs snapshot := by
  unfold Differs
  simp

/-- What is called a change is one, and nothing else is. -/
theorem Decides.changed_iff (h : mine.Decides other settlement)
    (hversion : mine.version.toNat < UInt64.size - 1) :
    settlement.changed = true ↔ mine.Differs settlement.result := by
  cases h with
  | newer hlt =>
    have hne : mine.version ≠ other.version := fun heq => UInt64.lt_irrefl _ (heq ▸ hlt)
    exact iff_of_true rfl (Or.inr (Or.inl hne))
  | remoteWins hconflict =>
    exact iff_of_true rfl (Or.inr (Or.inr (Or.inl (compare_eq_conflict_iff.mp hconflict).2)))
  | blended =>
    have hlt : mine.version < (mine.blend other).version := version_lt_blend hversion
    have hne : mine.version ≠ (mine.blend other).version := fun heq => UInt64.lt_irrefl _ (heq ▸ hlt)
    exact iff_of_true rfl (Or.inr (Or.inl hne))
  | older | same | localWins | split => exact iff_of_false nofun mine.not_differs_self

/-- The remote copy is kept beside the local one when the decision says so. -/
theorem Decides.split_eq (h : mine.Decides other settlement) :
    settlement.split = if settlement.decision = .conflict .split then some other else none := by
  cases h <;> rfl

/-- A conflict is two contents with one version. -/
theorem Decides.conflict_iff (h : mine.Decides other settlement) :
    (∃ resolution, settlement.decision = .conflict resolution) ↔
      mine.version = other.version ∧ mine.checksum ≠ other.checksum := by
  cases h with
  | newer hlt | older hlt =>
    refine iff_of_false nofun ?_
    rintro ⟨heq, -⟩
    exact UInt64.lt_irrefl _ (heq ▸ hlt)
  | same _ hchecksum => exact iff_of_false nofun fun hconflict => hconflict.2 hchecksum
  | localWins hconflict | remoteWins hconflict | blended hconflict | split hconflict =>
    exact iff_of_true ⟨_, rfl⟩ (compare_eq_conflict_iff.mp hconflict)

/-- **A merge of whole copies is whole, and tells the truth about itself.** Whatever the strategy, the
result has the local identifier and is no older than either copy, as long as there is a further version;
it is called a change exactly if it differs from the local copy; a copy is kept beside it exactly if the
decision says so, and is then the remote one; and the decision is a conflict exactly if the versions are
the same and the checksums are not. -/
theorem merge_truthful (strategy : Option ConflictStrategy) (hmine : mine.verify = .ok ())
    (hother : other.verify = .ok ()) (hversion : mine.version.toNat < UInt64.size - 1) :
    let settlement := mine.merge other strategy
    settlement.result.verify = .ok () ∧ settlement.result.id = mine.id ∧
      max mine.version.toNat other.version.toNat ≤ settlement.result.version.toNat ∧
      (settlement.changed = true ↔ mine.Differs settlement.result) ∧
      (settlement.split = if settlement.decision = .conflict .split then some other else none) ∧
      ((∃ resolution, settlement.decision = .conflict resolution) ↔
        mine.version = other.version ∧ mine.checksum ≠ other.checksum) := by
  have hsettles := mine.merge_settles other strategy
  have hdecides := mine.merge_decides other strategy
  exact ⟨hsettles.verify hmine hother, hsettles.id_eq, hdecides.le_version hversion,
    hdecides.changed_iff hversion, hdecides.split_eq, hdecides.conflict_iff⟩

/-- Averaged, `wide` changes in all that can be compared; with `tall` kept beside it, in nothing. -/
theorem merge_truthful_wide :
    wide.verify = .ok () ∧ tall.verify = .ok () ∧ wide.version.toNat < UInt64.size - 1 ∧
      (wide.merge tall (some .blend)).result.verify = .ok () ∧
      max wide.version.toNat tall.version.toNat ≤
        (wide.merge tall (some .blend)).result.version.toNat ∧
      wide.Differs (wide.merge tall (some .blend)).result ∧
      ¬ wide.Differs (wide.merge tall (some .split)).result ∧
      (wide.merge tall (some .split)).split = some tall ∧
      (∃ resolution, (wide.merge tall none).decision = .conflict resolution) := by
  have hwide : wide.verify = .ok () := by decide +kernel
  have htall : tall.verify = .ok () := by decide +kernel
  have hversion : wide.version.toNat < UInt64.size - 1 := by decide
  obtain ⟨hverify, -, hle, hblended, -, -⟩ := merge_truthful (some .blend) hwide htall hversion
  obtain ⟨-, -, -, hkept, hsplit, -⟩ := merge_truthful (some .split) hwide htall hversion
  obtain ⟨-, -, -, -, -, hconflict⟩ := merge_truthful none hwide htall hversion
  have hdecision : (wide.merge tall (some .split)).decision = .conflict .split := by decide +kernel
  refine ⟨hwide, htall, hversion, hverify, hle, hblended.mp ?_, fun hdiffers => ?_, ?_, hconflict.mpr ?_⟩
  · decide +kernel
  · have hchanged := hkept.mpr hdiffers
    revert hchanged
    decide +kernel
  · rw [hsplit, if_pos hdecision]
  · decide +kernel

end Snapshot

end Membranes
