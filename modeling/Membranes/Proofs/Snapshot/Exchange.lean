import Membranes.Proofs.Snapshot.Merge

/-!
# Two copies that are exchanged

Each of two replicas merges the copy of the other one into its own.

* `Snapshot.Matches`: two copies have one content at one version, whatever their identifiers.
* `yields_cases`: of two copies the one yields to the other, or the other to the one, or their versions
  and checksums are the same. The side that the other one yields to prevails (`prevails_lastWriter`).
* `blend_matches`: an average has the same bits from both sides, where all its sums are numbers.
* `exchange_agrees`: both replicas end up with matching copies, when the two messages cross and when one
  replica answers with its result; and who has something to send out is settled alike.
-/

namespace Membranes

/-- A sum that is a number does not depend on the order of its terms. The bits of a sum that is not are
nothing to rely on, so nothing is said of them. -/
theorem Binary32.add_comm {x y : Binary32} (hsum : (x.add y).isNaN = false) : x.add y = y.add x := by
  have hnumber : nan.isNaN ≠ false := by decide
  have htotal : x.units + y.units = y.units + x.units := Int.add_comm _ _
  revert hsum
  unfold Binary32.add
  rw [htotal, Bool.and_comm x.isNegative, Bool.or_comm x.isNaN]
  by_cases hterms : (y.isNaN || x.isNaN) = true
  · rw [if_pos hterms]
    exact fun hsum => absurd hsum hnumber
  · rw [if_neg hterms, if_neg hterms]
    cases x.isInfinite with
    | false => cases y.isInfinite <;> exact fun _ => rfl
    | true =>
      cases y.isInfinite with
      | false => exact fun _ => rfl
      | true =>
        -- Two infinities have one sign or no sum.
        cases x.isNegative <;> cases y.isNegative
        · exact fun _ => rfl
        · exact fun hsum => absurd hsum hnumber
        · exact fun hsum => absurd hsum hnumber
        · exact fun _ => rfl

namespace Snapshot

/-! ### Matching copies -/

/-- Two copies have one content at one version. -/
structure Matches (mine other : Snapshot) : Prop where
  shape_eq : mine.shape = other.shape
  buffer_eq : mine.buffer = other.buffer
  version_eq : mine.version = other.version
  checksum_eq : mine.checksum = other.checksum

/-- The checksums of two copies tell their contents apart. -/
def ChecksumTells (mine other : Snapshot) : Prop :=
  mine.checksum = other.checksum → mine.shape = other.shape ∧ mine.buffer = other.buffer

/-- The elements at each place of two copies have a sum that is a number. -/
def SumsAreNumbers (mine other : Snapshot) : Prop :=
  ∀ sum ∈ mine.buffer.zipWith Binary32.add other.buffer, sum.isNaN = false

instance (mine other : Snapshot) : Decidable (mine.SumsAreNumbers other) :=
  inferInstanceAs (Decidable (∀ sum ∈ mine.buffer.zipWith Binary32.add other.buffer, sum.isNaN = false))

variable {mine other : Snapshot} {strategy : ConflictStrategy}

theorem Matches.symm (h : mine.Matches other) : other.Matches mine :=
  ⟨h.shape_eq.symm, h.buffer_eq.symm, h.version_eq.symm, h.checksum_eq.symm⟩

/-- A copy that is taken over matches the one it was taken from. -/
theorem matches_withId (snapshot : Snapshot) (id : MembraneId) :
    ({ snapshot with id } : Snapshot).Matches snapshot :=
  ⟨rfl, rfl, rfl, rfl⟩

/-! ### Who yields -/

theorem compare_eq_equal_iff : mine.compare other = .equal ↔
    mine.version = other.version ∧ mine.checksum = other.checksum := by
  unfold compare
  grind [UInt64.lt_irrefl, UInt64.le_antisymm, UInt64.not_lt]

theorem compare_eq_conflict_iff : mine.compare other = .conflict ↔
    mine.version = other.version ∧ mine.checksum ≠ other.checksum := by
  unfold compare
  grind [UInt64.lt_irrefl, UInt64.le_antisymm, UInt64.not_lt]

theorem lt_of_compare_localNewer (h : mine.compare other = .localNewer) :
    other.version < mine.version := by
  unfold compare at h
  grind

theorem lt_of_compare_remoteNewer (h : mine.compare other = .remoteNewer) :
    mine.version < other.version := by
  unfold compare at h
  grind

theorem merge_of_compare_equal {strategy : Option ConflictStrategy}
    (h : mine.compare other = .equal) : mine.merge other strategy = .keep .equal .accept mine := by
  unfold merge
  rw [h]

theorem merge_of_version_lt {strategy : Option ConflictStrategy} (h : mine.version < other.version) :
    mine.merge other strategy = .adopt .remoteNewer .accept mine other := by
  have hcompare : mine.compare other = .remoteNewer := by
    unfold compare
    rw [if_neg (UInt64.lt_asymm h), if_pos h]
  unfold merge
  rw [hcompare]

/-- Exactly one of two different copies loses a tie. -/
theorem losesTie_iff_not (h : mine.checksum ≠ other.checksum) :
    mine.losesTie other = true ↔ ¬ other.losesTie mine = true := by
  rw [losesTie_iff, losesTie_iff]
  simp only [MembraneId.lt_iff_toNat_lt, MembraneId.eq_iff_toNat_eq, UInt32.lt_iff_toNat_lt]
  rw [ne_eq, ← UInt32.toNat_inj] at h
  omega

/-- The other copy does not yield to one that yields to it. -/
theorem Yields.asymm (h : mine.Yields other) : ¬ other.Yields mine := by
  rintro (hlower | ⟨hversion, hchecksum, hloses⟩)
  · rcases h with hhigher | ⟨heq, -⟩
    · exact UInt64.lt_asymm hlower hhigher
    · exact UInt64.lt_irrefl _ (heq ▸ hlower)
  · rcases h with hhigher | ⟨-, -, hloses'⟩
    · exact UInt64.lt_irrefl _ (hversion ▸ hhigher)
    · exact (losesTie_iff_not hchecksum).mp hloses hloses'

/-- One of two copies yields to the other, unless versions and checksums are the same. -/
theorem yields_cases (mine other : Snapshot) :
    mine.Yields other ∨ other.Yields mine ∨
      mine.version = other.version ∧ mine.checksum = other.checksum := by
  rcases lt_trichotomy mine.version.toNat other.version.toNat with hlt | heq | hgt
  · exact Or.inl (Or.inl (UInt64.lt_iff_toNat_lt.mpr hlt))
  · have hversion : mine.version = other.version := UInt64.toNat_inj.mp heq
    by_cases hchecksum : mine.checksum = other.checksum
    · exact Or.inr (Or.inr ⟨hversion, hchecksum⟩)
    · by_cases hloses : mine.losesTie other = true
      · exact Or.inl (Or.inr ⟨hversion, hchecksum, hloses⟩)
      · have hloses' := (losesTie_iff_not (Ne.symm hchecksum)).mpr hloses
        exact Or.inr (Or.inl (Or.inr ⟨hversion.symm, Ne.symm hchecksum, hloses'⟩))
  · exact Or.inr (Or.inl (Or.inl (UInt64.lt_iff_toNat_lt.mpr hgt)))

/-- Neither of two copies with one version and one checksum yields. -/
theorem not_yields_of_compare_equal (h : mine.compare other = .equal) : ¬ mine.Yields other := by
  obtain ⟨hversion, hchecksum⟩ := compare_eq_equal_iff.mp h
  rintro (hlt | ⟨-, hne, -⟩)
  · exact UInt64.lt_irrefl _ (hversion ▸ hlt)
  · exact hne hchecksum

theorem compare_comm_equal (h : mine.compare other = .equal) : other.compare mine = .equal := by
  obtain ⟨hversion, hchecksum⟩ := compare_eq_equal_iff.mp h
  exact compare_eq_equal_iff.mpr ⟨hversion.symm, hchecksum.symm⟩

theorem compare_comm_conflict (h : mine.compare other = .conflict) :
    other.compare mine = .conflict := by
  obtain ⟨hversion, hchecksum⟩ := compare_eq_conflict_iff.mp h
  exact compare_eq_conflict_iff.mpr ⟨hversion.symm, hchecksum.symm⟩

/-! ### The last writer on both sides -/

/-- What the last writer leaves matches on both sides. -/
theorem overwrittenBy_matches (htells : mine.ChecksumTells other) :
    (mine.overwrittenBy other).Matches (other.overwrittenBy mine) := by
  rw [overwrittenBy_eq, overwrittenBy_eq]
  rcases yields_cases mine other with hyields | hyields | ⟨hversion, hchecksum⟩
  · rw [if_pos hyields, if_neg hyields.asymm]
    exact matches_withId other mine.id
  · rw [if_neg hyields.asymm, if_pos hyields]
    exact (matches_withId mine other.id).symm
  · have hequal := compare_eq_equal_iff.mpr ⟨hversion, hchecksum⟩
    obtain ⟨hshape, hbuffer⟩ := htells hchecksum
    rw [if_neg (not_yields_of_compare_equal hequal),
      if_neg (not_yields_of_compare_equal (compare_comm_equal hequal))]
    exact ⟨hshape, hbuffer, hversion, hchecksum⟩

/-- The side prevails to which the other one yields. -/
theorem prevails_lastWriter (mine other : Snapshot) :
    (mine.merge other (some .lastWriterWins)).prevails = decide (other.Yields mine) := by
  unfold merge
  cases hcompare : mine.compare other with
  | remoteNewer =>
    have hyields : mine.Yields other := Or.inl (lt_of_compare_remoteNewer hcompare)
    exact (decide_eq_false hyields.asymm).symm
  | localNewer =>
    have hyields : other.Yields mine := Or.inl (lt_of_compare_localNewer hcompare)
    exact (decide_eq_true hyields).symm
  | equal => exact (decide_eq_false (not_yields_of_compare_equal (compare_comm_equal hcompare))).symm
  | conflict =>
    obtain ⟨hversion, hchecksum⟩ := compare_eq_conflict_iff.mp hcompare
    show (mine.settleTie other).prevails = _
    unfold settleTie
    by_cases hloses : mine.losesTie other = true
    · have hyields : mine.Yields other := Or.inr ⟨hversion, hchecksum, hloses⟩
      rw [if_pos hloses]
      exact (decide_eq_false hyields.asymm).symm
    · have hloses' := (losesTie_iff_not (Ne.symm hchecksum)).mpr hloses
      have hyields : other.Yields mine := Or.inr ⟨hversion.symm, Ne.symm hchecksum, hloses'⟩
      rw [if_neg hloses]
      exact (decide_eq_true hyields).symm

/-- The last writer does not average. -/
theorem merge_lastWriter_ne_blended (mine other : Snapshot) :
    (mine.merge other (some .lastWriterWins)).decision ≠ .conflict .blended := by
  unfold merge
  cases mine.compare other with
  | remoteNewer | localNewer | equal => exact nofun
  | conflict =>
    show (mine.settleTie other).decision ≠ _
    unfold settleTie
    split <;> exact nofun

/-- Exactly one side prevails with the last writer, unless versions and checksums are the same. -/
theorem prevails_eq_not (h : mine.compare other ≠ .equal) :
    (mine.merge other (some .lastWriterWins)).prevails =
      !(other.merge mine (some .lastWriterWins)).prevails := by
  rw [prevails_lastWriter, prevails_lastWriter]
  rcases yields_cases mine other with hyields | hyields | hequal
  · rw [decide_eq_true hyields, decide_eq_false hyields.asymm]
    rfl
  · rw [decide_eq_true hyields, decide_eq_false hyields.asymm]
    rfl
  · exact absurd (compare_eq_equal_iff.mpr hequal) h

/-! ### Averages on both sides -/

/-- Two copies are averaged: they are in conflict, and have buffers of one length. -/
structure Blends (mine other : Snapshot) (strategy : ConflictStrategy) : Prop where
  strategy_eq : strategy = .blend
  conflict : mine.compare other = .conflict
  size_eq : mine.buffer.size = other.buffer.size

theorem Blends.symm (h : mine.Blends other strategy) : other.Blends mine strategy :=
  ⟨h.strategy_eq, compare_comm_conflict h.conflict, h.size_eq.symm⟩

theorem merge_of_blends (h : mine.Blends other strategy) : mine.merge other (some strategy) =
    ⟨.conflict, .conflict .blended, mine.blend other, true, none⟩ := by
  unfold merge
  rw [h.conflict, h.strategy_eq]
  exact if_pos h.size_eq

/-- Where copies are not averaged, and no copy is kept beside another, the last writer decides. -/
theorem merge_of_not_blends (hstrategy : strategy ≠ .split) (h : ¬ mine.Blends other strategy) :
    mine.merge other (some strategy) = mine.merge other (some .lastWriterWins) := by
  unfold merge
  cases hcompare : mine.compare other with
  | remoteNewer | localNewer | equal => rfl
  | conflict =>
    cases strategy with
    | lastWriterWins => rfl
    | split => exact absurd rfl hstrategy
    | blend => exact if_neg fun hsize => h ⟨rfl, hcompare, hsize⟩

/-- Two copies are both kept: they are in conflict, and conflicts are split. -/
structure Splits (mine other : Snapshot) (strategy : ConflictStrategy) : Prop where
  strategy_eq : strategy = .split
  conflict : mine.compare other = .conflict

theorem merge_of_splits (h : mine.Splits other strategy) : mine.merge other (some strategy) =
    ⟨.conflict, .conflict .split, mine, false, some other⟩ := by
  unfold merge
  rw [h.conflict, h.strategy_eq]
  rfl

theorem merge_of_not_splits (h : ¬ mine.Splits other strategy) :
    (mine.merge other (some strategy)).split = none := by
  by_cases hblends : mine.Blends other strategy
  · rw [merge_of_blends hblends]
  · by_cases hstrategy : strategy = .split
    · unfold merge
      cases hcompare : mine.compare other with
      | remoteNewer | localNewer | equal => rfl
      | conflict => exact absurd ⟨hstrategy, hcompare⟩ h
    · rw [merge_of_not_blends hstrategy hblends]
      exact merge_lastWriter_split mine other

/-- The sums of elements do not depend on the side from which they are taken. -/
theorem SumsAreNumbers.zipWith_comm (h : mine.SumsAreNumbers other) :
    mine.buffer.zipWith Binary32.add other.buffer = other.buffer.zipWith Binary32.add mine.buffer := by
  refine Array.ext (by rw [Array.size_zipWith, Array.size_zipWith, Nat.min_comm]) fun i hi _ => ?_
  have hnumber := h _ (Array.getElem_mem hi)
  rw [Array.getElem_zipWith] at hnumber ⊢
  rw [Array.getElem_zipWith]
  exact Binary32.add_comm hnumber

/-- **An average has the same bits from both sides**: the elements are added in either order, and the
winner of the tie, which gives the shape, is the same. -/
theorem blend_matches (h : mine.compare other = .conflict) (hsums : mine.SumsAreNumbers other) :
    (mine.blend other).Matches (other.blend mine) := by
  obtain ⟨hversion, hchecksum⟩ := compare_eq_conflict_iff.mp h
  have hbuffer : mine.buffer.zipWith (fun x y => (x.add y).half) other.buffer =
      other.buffer.zipWith (fun x y => (x.add y).half) mine.buffer := by
    have hhalves := congrArg (Array.map Binary32.half) hsums.zipWith_comm
    rwa [Array.map_zipWith, Array.map_zipWith] at hhalves
  have hwinner : (if mine.losesTie other then other else mine) =
      if other.losesTie mine then mine else other := by
    by_cases hloses : mine.losesTie other = true
    · rw [if_pos hloses, if_neg ((losesTie_iff_not hchecksum).mp hloses)]
    · rw [if_neg hloses, if_pos ((losesTie_iff_not (Ne.symm hchecksum)).mpr hloses)]
  unfold blend ofContent
  rw [hbuffer, hwinner, hversion]
  exact ⟨rfl, rfl, rfl, rfl⟩

/-- An average is newer than what was averaged. -/
theorem version_lt_blend (hversion : mine.version.toNat < UInt64.size - 1) :
    mine.version < (mine.blend other).version := by
  show mine.version < mine.version + 1
  rw [UInt64.lt_iff_toNat_lt, UInt64.toNat_add]
  show mine.version.toNat < (mine.version.toNat + 1) % UInt64.size
  rw [Nat.mod_eq_of_lt (by omega)]
  exact Nat.lt_succ_self _

theorem merge_blend_matches (hconflict : mine.compare other = .conflict)
    (hversion : mine.version.toNat < UInt64.size - 1) :
    (mine.merge (other.blend mine) (some strategy)).result.Matches (other.blend mine) := by
  obtain ⟨heq, -⟩ := compare_eq_conflict_iff.mp hconflict
  have hlt : mine.version < (other.blend mine).version := by
    rw [heq] at hversion ⊢
    exact version_lt_blend hversion
  rw [merge_of_version_lt hlt]
  exact matches_withId _ mine.id

/-! ### Exchanges -/

/-- The answer of the other side is its own copy, or the content that was sent to it. -/
theorem merge_answer_matches (hstrategy : strategy ≠ .split) (hblends : ¬ mine.Blends other strategy)
    (htells : mine.ChecksumTells other) :
    (mine.merge (other.overwrittenBy mine) (some strategy)).result.Matches
      (other.overwrittenBy mine) := by
  have hcross := overwrittenBy_matches htells
  rcases overwrittenBy_cases other mine with hanswer | hanswer
  · have hequal : mine.compare { mine with id := other.id } = .equal :=
      compare_eq_equal_iff.mpr ⟨rfl, rfl⟩
    rw [hanswer, merge_of_compare_equal hequal]
    exact (matches_withId mine other.id).symm
  · rw [hanswer] at hcross ⊢
    rw [merge_of_not_blends hstrategy hblends]
    exact hcross

/-- **Two replicas that exchange their copies agree**, be their conflicts averaged or left to the last
writer. Their results match when both messages cross, and when one side merges the result of the other.
With different versions, or a winner, exactly one side has something to send out; with an average both
have, and with equal copies neither.

Where the copies are averaged, the sums of their elements are numbers: the bits of a sum that is not one
are open (see `Binary32.add`), and two replicas need not choose alike. -/
theorem exchange_agrees (mine other : Snapshot) (strategy : ConflictStrategy)
    (hstrategy : strategy ≠ .split) (hversion : mine.version.toNat < UInt64.size - 1)
    (htells : mine.ChecksumTells other)
    (hsums : mine.Blends other strategy → mine.SumsAreNumbers other) :
    let here := mine.merge other (some strategy)
    let there := other.merge mine (some strategy)
    here.result.Matches there.result ∧
      (mine.merge there.result (some strategy)).result.Matches there.result ∧
      (mine.version ≠ other.version ∨ here.decision = .conflict .localWins ∨
        here.decision = .conflict .remoteWins → here.prevails = !there.prevails) ∧
      (here.decision = .conflict .blended → here.prevails = true ∧ there.prevails = true) ∧
      (mine.compare other = .equal → here.prevails = false ∧ there.prevails = false) := by
  intro here there
  by_cases hblends : mine.Blends other strategy
  · have hhere : here = _ := merge_of_blends hblends
    have hthere : there = _ := merge_of_blends hblends.symm
    obtain ⟨heq, -⟩ := compare_eq_conflict_iff.mp hblends.conflict
    rw [hhere, hthere]
    refine ⟨blend_matches hblends.conflict (hsums hblends),
      merge_blend_matches hblends.conflict hversion, ?_, fun _ => ⟨rfl, rfl⟩, ?_⟩
    · rintro (hne | hwins | hwins)
      · exact absurd heq hne
      · exact nomatch hwins
      · exact nomatch hwins
    · intro hequal
      exact nomatch hequal.symm.trans hblends.conflict
  · have hhere : here = _ := merge_of_not_blends hstrategy hblends
    have hthere : there = _ := merge_of_not_blends hstrategy fun h => hblends h.symm
    rw [hhere, hthere]
    refine ⟨overwrittenBy_matches htells, merge_answer_matches hstrategy hblends htells, ?_, ?_, ?_⟩
    · intro hdiffer
      apply prevails_eq_not
      intro hequal
      -- Equal copies have one version, and are accepted.
      obtain ⟨heq, -⟩ := compare_eq_equal_iff.mp hequal
      rw [merge_of_compare_equal hequal] at hdiffer
      rcases hdiffer with hne | hwins | hwins
      · exact hne heq
      · exact nomatch hwins
      · exact nomatch hwins
    · exact fun hblended => absurd hblended (merge_lastWriter_ne_blended mine other)
    · intro hequal
      rw [merge_of_compare_equal hequal, merge_of_compare_equal (compare_comm_equal hequal)]
      exact ⟨rfl, rfl⟩

/-- Six zeros in two rows. -/
def wide : Snapshot :=
  ofContent ⟨1⟩ ⟨[2, 3], by simp, by decide⟩ 4 (Array.replicate 6 .zero)

/-- Six twos in three rows, at the same version and under another identifier. -/
def tall : Snapshot :=
  ofContent ⟨7⟩ ⟨[3, 2], by simp, by decide⟩ 4 (Array.replicate 6 ⟨0x40000000⟩)

/-- Both sides end up with six ones in three rows, or else with the six twos. -/
theorem exchange_agrees_turned :
    wide.ChecksumTells tall ∧ wide.SumsAreNumbers tall ∧
      (wide.merge tall (some .blend)).result =
        ofContent ⟨1⟩ tall.shape 5 (Array.replicate 6 ⟨0x3F800000⟩) ∧
      (wide.merge tall (some .blend)).result.Matches (tall.merge wide (some .blend)).result ∧
      (wide.merge (tall.merge wide (some .blend)).result (some .blend)).result.Matches
        (tall.merge wide (some .blend)).result ∧
      ((wide.merge tall (some .blend)).prevails = true ∧
        (tall.merge wide (some .blend)).prevails = true) ∧
      (wide.merge tall (some .lastWriterWins)).result.Matches
        (tall.merge wide (some .lastWriterWins)).result ∧
      (wide.merge tall (some .lastWriterWins)).prevails =
        !(tall.merge wide (some .lastWriterWins)).prevails := by
  have htells : wide.ChecksumTells tall := by
    have hne : wide.checksum ≠ tall.checksum := by decide +kernel
    exact fun heq => absurd heq hne
  have hsums : wide.SumsAreNumbers tall := by decide +kernel
  have hblended : (wide.merge tall (some .blend)).decision = .conflict .blended := by decide +kernel
  have hwins : (wide.merge tall (some .lastWriterWins)).decision = .conflict .remoteWins := by
    decide +kernel
  obtain ⟨hcross, hanswer, -, hboth, -⟩ :=
    exchange_agrees wide tall .blend (by decide) (by decide) htells fun _ => hsums
  obtain ⟨hcross', -, hone, -, -⟩ :=
    exchange_agrees wide tall .lastWriterWins (by decide) (by decide) htells fun _ => hsums
  exact ⟨htells, hsums, by decide +kernel, hcross, hanswer, hboth hblended, hcross',
    hone (Or.inr (Or.inr hwins))⟩

end Snapshot

end Membranes
