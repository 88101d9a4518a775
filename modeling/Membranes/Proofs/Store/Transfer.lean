import Mathlib.Data.List.Nodup
import Mathlib.Data.List.Perm.Subperm
import Membranes.Proofs.Exchange.Reachable
import Membranes.Proofs.Store.Census

/-!
# Moving symbols

* `Reachable.distinct`: no membrane of a reachable store holds a symbol twice.
* `moveSymbol_eq_ok_iff`: when a symbol can be moved, and `Distinct.moved`: what becomes of the two
  membranes when it is.
* `Moved.held_eq`, `Moved.length_holders_le`: a move neither loses a symbol nor brings one to more
  membranes.
* `Reachable.transfers_conserve`: nor do any number of requests, carried out or refused.
-/

namespace Membranes

/-- A request to move a symbol. -/
structure Transfer where
  /-- The membrane that is to lose the symbol. -/
  source : MembraneId
  /-- The membrane that is to get it. -/
  target : MembraneId
  /-- The symbol. -/
  symbol : String

/-- The request as an operation. -/
def Transfer.operation (transfer : Transfer) : Operation :=
  .moveSymbol transfer.source transfer.target transfer.symbol

theorem checkSymbol_eq_ok_iff {symbol : String} :
    checkSymbol symbol = .ok () ↔ ∃ c ∈ symbol.toList, Text.isBlank c = false := by
  unfold checkSymbol Text.isBlankText
  rw [require_eq_ok_iff, List.all_eq_false]
  simp only [Bool.not_eq_true]

namespace Membrane

variable {limits : Limits} {membrane changed : Membrane} {symbol : String}

theorem holds_iff : membrane.holds symbol = true ↔ symbol ∈ membrane.symbols :=
  List.contains_iff_mem

theorem Mutates.nodup_symbols (h : membrane.Mutates limits changed)
    (hnodup : membrane.symbols.Nodup) : changed.symbols.Nodup := by
  cases h with
  | rewrite | reshape => exact hnodup
  | @gain symbol hlacks =>
    have hnew : symbol ∉ membrane.symbols := by
      rwa [← holds_iff, Bool.not_eq_true]
    exact hnodup.append (List.nodup_singleton symbol) (List.disjoint_singleton.mpr hnew)
  | lose => exact hnodup.erase _

end Membrane

namespace Store

variable {store after : Store} {source target id : MembraneId} {symbol : String}

/-! ### Symbols do not repeat -/

/-- No membrane holds a symbol twice. -/
def Distinct (store : Store) : Prop :=
  ∀ id membrane, store.membranes.find? id = some membrane → membrane.symbols.Nodup

theorem distinct_empty (config : StoreConfig) (entropy : UInt64) :
    (Store.empty config entropy).Distinct :=
  fun _ _ hfind => nomatch hfind

theorem Distinct.put (h : store.Distinct) {changed : Membrane} (hchanged : changed.symbols.Nodup) :
    (store.put id changed).Distinct := by
  intro other current hcurrent
  rw [find?_put] at hcurrent
  split at hcurrent
  · obtain rfl := Option.some.inj hcurrent
    exact hchanged
  · exact h other current hcurrent

theorem Distinct.withFresh (h : store.Distinct) (shape : Shape) (parent : Option MembraneId) :
    (store.withFresh shape parent).Distinct := by
  intro other current hcurrent
  rw [find?_withFresh] at hcurrent
  split at hcurrent
  · obtain rfl := Option.some.inj hcurrent
    exact List.nodup_nil
  · exact h other current hcurrent

/-- Other children of a membrane are no other symbols. -/
theorem Distinct.of_find? (h : store.Distinct)
    (hfind : ∀ id current, after.membranes.find? id = some current →
      ∃ before children, store.membranes.find? id = some before ∧ current = { before with children }) :
    after.Distinct := by
  intro id current hcurrent
  obtain ⟨before, children, hbefore, rfl⟩ := hfind id current hcurrent
  exact h id before hbefore

/-- **No step repeats a symbol.** -/
theorem Distinct.step (h : store.Distinct) (hstep : store.Step after) : after.Distinct := by
  cases hstep with
  | mutate hfind hmutates => exact h.put (hmutates.nodup_symbols (h _ _ hfind))
  | @install _ membrane _ _ _ hfind => exact h.put (h _ membrane hfind)
  | @spend _ membrane _ hfind => exact h.put (h _ membrane hfind)
  | root => exact h.withFresh _ none
  | @child owner shape =>
    have hrenames : (store.withFresh shape (some owner)).Renames (store.withChild owner shape) owner
        (· ++ [⟨store.nextId⟩]) := find?_attach _ owner _
    exact (h.withFresh shape (some owner)).of_find? fun _ _ => hrenames.find?_eq_some
  | destroy => exact h.of_find? fun _ _ => find?_withoutSubtree_eq_some

theorem Distinct.steps (h : store.Distinct) (hsteps : store.Steps after) : after.Distinct := by
  induction hsteps with
  | refl => exact h
  | tail _ hstep ih => exact ih.step hstep

/-- **No membrane of a reachable store holds a symbol twice.** -/
theorem Reachable.distinct (h : store.Reachable) : store.Distinct := by
  obtain ⟨config, entropy, hsteps⟩ := h.exists_steps
  exact (distinct_empty config entropy).steps hsteps

/-! ### A move -/

theorem symbols_eq_ok_iff {held : List String} :
    store.symbols id = .ok held ↔
      ∃ membrane, store.membranes.find? id = some membrane ∧ membrane.symbols = held := by
  unfold Store.symbols
  rw [map_eq_ok_iff]
  simp only [membrane_eq_ok_iff]

/-- A move is carried out when the check lets it through: what follows cannot fail. -/
theorem moveSymbol_eq_ok_iff_checkMove :
    (store.moveSymbol source target symbol).answer = .ok () ↔
      store.checkMove source target symbol = .ok () := by
  constructor
  · intro hok
    unfold moveSymbol checking at hok
    split at hok
    · assumption
    · exact nomatch hok
  · intro hcheck
    obtain ⟨-, giver, taker, hgiver, htaker, -⟩ := checkMove_eq_ok_iff.mp hcheck
    unfold moveSymbol
    rw [hcheck]
    show (ite _ _ _ : Outcome Unit).answer = _
    split
    · rfl
    · rename_i hdiffer
      rw [update_of_ok htaker rfl]
      show (Store.update _ source _).answer = _
      rw [update_of_ok (by rw [find?_put, if_neg hdiffer, hgiver]) rfl]

theorem moveSymbol_eq_ok_iff :
    (store.moveSymbol source target symbol).answer = .ok () ↔
      (∃ c ∈ symbol.toList, Text.isBlank c = false) ∧ ∃ given taken,
        store.symbols source = .ok given ∧ store.symbols target = .ok taken ∧ symbol ∈ given ∧
        (source = target ∨ symbol ∈ taken ∨
          taken.length < store.config.limits.maxObjects.toNat) := by
  rw [moveSymbol_eq_ok_iff_checkMove, checkMove_eq_ok_iff, checkSymbol_eq_ok_iff]
  simp only [symbols_eq_ok_iff, Membrane.holds_iff]
  apply and_congr_right'
  constructor
  · rintro ⟨giver, taker, hgiver, htaker, hrest⟩
    exact ⟨_, _, ⟨giver, hgiver, rfl⟩, ⟨taker, htaker, rfl⟩, hrest⟩
  · rintro ⟨_, _, ⟨giver, hgiver, rfl⟩, ⟨taker, htaker, rfl⟩, hrest⟩
    exact ⟨giver, taker, hgiver, htaker, hrest⟩

/-- A symbol went from one membrane to another. -/
structure Moved (store after : Store) (source target : MembraneId) (symbol : String) : Prop where
  /-- The first membrane has lost the symbol, and its other symbols keep their order. -/
  leaves : ∃ held, store.symbols source = .ok held ∧ symbol ∈ held ∧
    after.symbols source = .ok (held.filter (· != symbol))
  /-- The second one has the symbol where it was, or else behind its other symbols. -/
  arrives : ∃ held, store.symbols target = .ok held ∧
    after.symbols target = .ok (if symbol ∈ held then held else held ++ [symbol])
  /-- All other membranes are as they were. -/
  others : ∀ id, id ≠ source → id ≠ target →
    after.membranes.find? id = store.membranes.find? id

/-- **What a move from one membrane to another does.** -/
theorem Distinct.moved (h : store.Distinct) (hdiffer : source ≠ target)
    (hok : (store.moveSymbol source target symbol).answer = .ok ()) :
    store.Moved (store.moveSymbol source target symbol).store source target symbol := by
  obtain ⟨giver, taker, hgiver, htaker, hholds, ⟨hsame, -⟩ | ⟨-, -, hafter⟩⟩ :=
    (moveSymbol_atomically source target symbol).of_ok hok
  · exact absurd hsame hdiffer
  have hfind : ∀ id, (store.moveSymbol source target symbol).store.membranes.find? id =
      if id = source then some (giver.withoutSymbol symbol)
      else if id = target then some (if taker.holds symbol then taker else taker.withSymbol symbol)
      else store.membranes.find? id := by
    intro id
    rw [hafter, find?_put, find?_put]
  refine ⟨⟨giver.symbols, symbols_of_find? hgiver, Membrane.holds_iff.mp hholds, ?_⟩,
    ⟨taker.symbols, symbols_of_find? htaker, ?_⟩, fun id hsource htarget => ?_⟩
  · rw [symbols_of_find? ((hfind source).trans (if_pos rfl)),
      ← (h source giver hgiver).erase_eq_filter symbol]
    rfl
  · have htaken := hfind target
    rw [if_neg hdiffer.symm, if_pos rfl] at htaken
    rw [symbols_of_find? htaken]
    simp only [Membrane.holds_iff]
    split <;> rfl
  · rw [hfind, if_neg hsource, if_neg htarget]

/-- A move that is refused, and one that goes nowhere, changes nothing. -/
theorem moveSymbol_of_idle
    (hidle : (store.moveSymbol source target symbol).answer ≠ .ok () ∨ source = target) :
    (store.moveSymbol source target symbol).store = store := by
  rcases (moveSymbol_atomically source target symbol).cases with
    ⟨refusal, hrun⟩ | ⟨_, after, hrun, giver, taker, -, -, -, ⟨-, rfl⟩ | ⟨hdiffer, -⟩⟩
  · rw [hrun]
  · rw [hrun]
  · exact absurd (hidle.resolve_right hdiffer) (by rw [hrun]; exact not_not_intro rfl)

/-! ### Who holds what -/

/-- The symbols that are in some membrane. -/
def held (store : Store) : Set String :=
  {symbol | ∃ id, store.holdsSymbol id symbol = .ok true}

/-- The membranes that hold a symbol. -/
def holders (store : Store) (symbol : String) : List MembraneId :=
  store.ids.filter fun id => store.holdsSymbol id symbol = .ok true

variable {other : String}

theorem holdsSymbol_eq_true_iff :
    store.holdsSymbol id symbol = .ok true ↔ ∃ held, store.symbols id = .ok held ∧ symbol ∈ held := by
  unfold holdsSymbol
  rw [map_eq_ok_iff]
  simp only [symbols_eq_ok_iff, membrane_eq_ok_iff, Membrane.holds_iff]
  constructor
  · rintro ⟨membrane, hfind, hholds⟩
    exact ⟨_, ⟨membrane, hfind, rfl⟩, hholds⟩
  · rintro ⟨_, ⟨membrane, hfind, rfl⟩, hholds⟩
    exact ⟨membrane, hfind, hholds⟩

theorem holdsSymbol_iff_of_symbols {held : List String} (h : store.symbols id = .ok held) :
    store.holdsSymbol id symbol = .ok true ↔ symbol ∈ held := by
  rw [holdsSymbol_eq_true_iff, h]
  constructor
  · rintro ⟨_, heq, hmem⟩
    exact Except.ok.inj heq ▸ hmem
  · exact fun hmem => ⟨held, rfl, hmem⟩

theorem mem_holders_iff : id ∈ store.holders symbol ↔ store.holdsSymbol id symbol = .ok true := by
  unfold holders
  rw [List.mem_filter, mem_ids_iff, decide_eq_true_iff, and_iff_right_iff_imp,
    holdsSymbol_eq_true_iff]
  rintro ⟨held, hheld, -⟩
  obtain ⟨membrane, hfind, -⟩ := symbols_eq_ok_iff.mp hheld
  exact contains_iff.mpr ⟨membrane, hfind⟩

theorem mem_held_iff : symbol ∈ store.held ↔ ∃ id, id ∈ store.holders symbol := by
  simp only [mem_holders_iff]
  rfl

theorem nodup_holders (store : Store) (symbol : String) : (store.holders symbol).Nodup :=
  store.nodup_ids.filter _

/-- A move changes only who holds the symbol that is moved. -/
theorem Moved.mem_holders_iff (h : store.Moved after source target symbol) (hdiffer : source ≠ target) :
    id ∈ after.holders other ↔
      if other = symbol then id = target ∨ id ≠ source ∧ id ∈ store.holders other
      else id ∈ store.holders other := by
  obtain ⟨given, hgiven, hmem, hleft⟩ := h.leaves
  obtain ⟨taken, htaken, hgot⟩ := h.arrives
  rw [Store.mem_holders_iff, Store.mem_holders_iff]
  by_cases hsource : id = source
  · subst hsource
    rw [holdsSymbol_iff_of_symbols hleft, holdsSymbol_iff_of_symbols hgiven, List.mem_filter]
    by_cases hother : other = symbol <;> simp [hother, hdiffer]
  by_cases htarget : id = target
  · subst htarget
    rw [holdsSymbol_iff_of_symbols hgot, holdsSymbol_iff_of_symbols htaken]
    by_cases hother : other = symbol <;> by_cases hhas : symbol ∈ taken <;> simp [hother, hhas]
  · have hsame : after.holdsSymbol id other = store.holdsSymbol id other := by
      unfold holdsSymbol Store.membrane
      rw [h.others id hsource htarget]
    rw [hsame]
    by_cases hother : other = symbol <;> simp [hother, hsource, htarget]

theorem Moved.source_mem_holders (h : store.Moved after source target symbol) :
    source ∈ store.holders symbol := by
  obtain ⟨given, hgiven, hmem, -⟩ := h.leaves
  rw [Store.mem_holders_iff, holdsSymbol_iff_of_symbols hgiven]
  exact hmem

/-- **A move loses no symbol** and brings none from nowhere. -/
theorem Moved.held_eq (h : store.Moved after source target symbol) (hdiffer : source ≠ target) :
    after.held = store.held := by
  ext other
  rw [mem_held_iff, mem_held_iff]
  simp only [h.mem_holders_iff hdiffer]
  split
  · rename_i hother
    exact ⟨fun _ => ⟨source, hother ▸ h.source_mem_holders⟩, fun _ => ⟨target, Or.inl rfl⟩⟩
  · rfl

/-- **A move brings no symbol to more membranes.** -/
theorem Moved.length_holders_le (h : store.Moved after source target symbol)
    (hdiffer : source ≠ target) (other : String) :
    (after.holders other).length ≤ (store.holders other).length := by
  by_cases hother : other = symbol
  · subst hother
    -- The new holders are the target and the old holders without the source.
    have hsubset : after.holders other ⊆ target :: (store.holders other).erase source := by
      intro id hmem
      rw [h.mem_holders_iff hdiffer, if_pos rfl] at hmem
      rw [List.mem_cons, (store.nodup_holders other).mem_erase_iff]
      exact hmem
    have hle := ((after.nodup_holders other).subperm hsubset).length_le
    have hcount := List.length_erase_add_one h.source_mem_holders
    rw [List.length_cons] at hle
    omega
  · have hsubset : after.holders other ⊆ store.holders other := by
      intro id hmem
      rwa [h.mem_holders_iff hdiffer, if_neg hother] at hmem
    exact ((after.nodup_holders other).subperm hsubset).length_le

/-! ### Moves one after another -/

/-- A request to move a symbol leaves the store as it was, or moves the symbol to another membrane. -/
theorem Distinct.run_transfer (h : store.Distinct) (transfer : Transfer) :
    (transfer.operation.run store).store = store ∨
      transfer.source ≠ transfer.target ∧
        store.Moved (transfer.operation.run store).store transfer.source transfer.target
          transfer.symbol := by
  obtain ⟨source, target, symbol⟩ := transfer
  show (store.moveSymbol source target symbol).store = store ∨
    source ≠ target ∧ store.Moved (store.moveSymbol source target symbol).store source target symbol
  by_cases hmoves : (store.moveSymbol source target symbol).answer = .ok () ∧ source ≠ target
  · exact Or.inr ⟨hmoves.2, h.moved hmoves.2 hmoves.1⟩
  · rw [not_and_or, not_not] at hmoves
    exact Or.inl (moveSymbol_of_idle hmoves)

/-- The store after some requests to move symbols, whether they are carried out or refused. -/
def afterTransfers (store : Store) (transfers : List Transfer) : Store :=
  store.after (transfers.map Transfer.operation)

theorem afterTransfers_append (store : Store) (earlier later : List Transfer) :
    store.afterTransfers (earlier ++ later) = (store.afterTransfers earlier).afterTransfers later := by
  unfold afterTransfers Store.after
  rw [List.map_append, List.foldl_append]

theorem Reachable.afterTransfers (h : store.Reachable) (transfers : List Transfer) :
    (store.afterTransfers transfers).Reachable :=
  h.after _

theorem Reachable.held_afterTransfers (h : store.Reachable) (transfers : List Transfer) :
    (store.afterTransfers transfers).held = store.held := by
  induction transfers generalizing store with
  | nil => rfl
  | cons transfer transfers ih =>
    refine (ih (h.operation transfer.operation)).trans ?_
    obtain hsame | ⟨hdiffer, hmoved⟩ := h.distinct.run_transfer transfer
    · rw [hsame]
    · exact hmoved.held_eq hdiffer

theorem Reachable.length_holders_afterTransfers_le (h : store.Reachable) (transfers : List Transfer)
    (symbol : String) :
    ((store.afterTransfers transfers).holders symbol).length ≤ (store.holders symbol).length := by
  induction transfers generalizing store with
  | nil => exact Nat.le_refl _
  | cons transfer transfers ih =>
    refine (ih (h.operation transfer.operation)).trans ?_
    obtain hsame | ⟨hdiffer, hmoved⟩ := h.distinct.run_transfer transfer
    · rw [hsame]
    · exact hmoved.length_holders_le hdiffer symbol

/-- **Moves neither lose nor duplicate symbols,** in every reachable store and however many are asked
for. The membranes together hold the same symbols throughout, no symbol comes to more membranes than had
it, and none is in a membrane twice. One move is carried out exactly when the symbol is not blank, both
membranes are live, the first holds it, and the second is the first, or has the symbol, or has room for
it; a move to the same membrane and one that is refused change nothing. -/
theorem Reachable.transfers_conserve (h : store.Reachable) :
    (∀ transfers, (store.afterTransfers transfers).held = store.held ∧
      (store.afterTransfers transfers).Distinct) ∧
    (∀ earlier later symbol, ((store.afterTransfers (earlier ++ later)).holders symbol).length ≤
      ((store.afterTransfers earlier).holders symbol).length) ∧
    ∀ source target symbol,
      ((store.moveSymbol source target symbol).answer = .ok () ↔
        (∃ c ∈ symbol.toList, Text.isBlank c = false) ∧ ∃ given taken,
          store.symbols source = .ok given ∧ store.symbols target = .ok taken ∧ symbol ∈ given ∧
          (source = target ∨ symbol ∈ taken ∨
            taken.length < store.config.limits.maxObjects.toNat)) ∧
      ((store.moveSymbol source target symbol).answer = .ok () ∧ source ≠ target →
        store.Moved (store.moveSymbol source target symbol).store source target symbol) ∧
      ((store.moveSymbol source target symbol).answer ≠ .ok () ∨ source = target →
        (store.moveSymbol source target symbol).store = store) := by
  refine ⟨fun transfers => ⟨h.held_afterTransfers transfers, (h.afterTransfers transfers).distinct⟩,
    fun earlier later symbol => ?_, fun source target symbol =>
      ⟨moveSymbol_eq_ok_iff, fun ⟨hok, hdiffer⟩ => h.distinct.moved hdiffer hok, moveSymbol_of_idle⟩⟩
  rw [afterTransfers_append]
  exact (h.afterTransfers earlier).length_holders_afterTransfers_le later symbol

/-- Three membranes that may hold two symbols each. The first two share one symbol. -/
def bazaar : Store :=
  (Store.empty ⟨{ Limits.standard with maxObjects := 2 }, .zeros⟩ 0).after
    [.create Snapshot.pairShape, .create Snapshot.pairShape, .create Snapshot.pairShape,
      .addSymbol ⟨1⟩ "a", .addSymbol ⟨1⟩ "b", .addSymbol ⟨2⟩ "a", .addSymbol ⟨3⟩ "c"]

/-- Moves to where the symbol is already, to where it comes from, into the last place, to a full
membrane, to none, and of a blank. -/
def trades : List Transfer :=
  [⟨⟨1⟩, ⟨2⟩, "a"⟩, ⟨⟨1⟩, ⟨1⟩, "b"⟩, ⟨⟨1⟩, ⟨3⟩, "b"⟩, ⟨⟨2⟩, ⟨3⟩, "a"⟩, ⟨⟨3⟩, ⟨9⟩, "b"⟩,
    ⟨⟨3⟩, ⟨1⟩, " "⟩]

/-- The last three moves are refused. The symbol that was in two membranes is in one. -/
theorem Reachable.transfers_conserve_bazaar :
    bazaar.Reachable ∧ (bazaar.afterTransfers trades).held = bazaar.held ∧
      bazaar.answers (trades.map Transfer.operation) =
        [.ok .done, .ok .done, .ok .done, .error (.capacity .objects 2),
          .error (.membraneNotFound ⟨9⟩), .error .blankSymbol] ∧
      bazaar.holders "a" = [⟨1⟩, ⟨2⟩] ∧ (bazaar.afterTransfers trades).holders "a" = [⟨2⟩] ∧
      (bazaar.afterTransfers trades).symbols ⟨3⟩ = .ok ["c", "b"] ∧
      bazaar.Moved (bazaar.moveSymbol ⟨1⟩ ⟨3⟩ "b").store ⟨1⟩ ⟨3⟩ "b" := by
  have hreachable : bazaar.Reachable := (Reachable.empty _ _).after _
  obtain ⟨hruns, -, hmoves⟩ := hreachable.transfers_conserve
  obtain ⟨-, hmoved, -⟩ := hmoves ⟨1⟩ ⟨3⟩ "b"
  refine ⟨hreachable, (hruns trades).1, ?_, ?_, ?_, ?_, hmoved ?_⟩
  · decide +kernel
  · decide +kernel
  · decide +kernel
  · decide +kernel
  · decide +kernel

end Store

end Membranes
