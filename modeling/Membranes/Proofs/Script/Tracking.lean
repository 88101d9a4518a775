import Mathlib.Data.List.Induction
import Membranes.Proofs.Exchange.Refinement
import Membranes.Proofs.Script.Independence
import Membranes.Proofs.Store.Census

/-!
# What the engine of a session refers to

The engine remembers how the last exchange of a membrane ended, and forgets it when the membrane is
destroyed. A membrane that was made for a copy is remembered with the local membrane, and may be
destroyed before it.

* `Engine.receiveWith_tracks`: what is remembered of an exchange refers to live membranes.
* `Session.tracks_runBytes`: so what is remembered behind a line is new and refers to live membranes, or
  was remembered before, and then the line may have destroyed the sibling.
* `Session.remembers_live`: after any script, what the engine remembers is about live membranes, and the
  sibling of a split is live unless a line has destroyed it. It may be that: `Session.not_siblings_live`.
-/

namespace Membranes

/-! ### What is remembered -/

theorem Standing.ofDecision_eq_split {sibling : Option MembraneId} {decision : Decision} {added : MembraneId}
    (h : Standing.ofDecision sibling decision = .split added) : sibling = some added := by
  cases decision with
  | accept | reject => exact nomatch h
  | conflict resolution =>
    cases resolution with
    | localWins | remoteWins | blended => exact nomatch h
    | split =>
      cases sibling with
      | none => exact nomatch h
      | some other => exact congrArg some (Standing.split.inj h)

namespace Engine

variable {σ : Type}

theorem standings_foldl_forget (engine : Engine σ) (ids : List MembraneId) (id : MembraneId) :
    (ids.foldl forget engine).standings.find? id =
      if id ∈ ids then none else engine.standings.find? id := by
  have hfold : (ids.foldl forget engine).standings = ids.foldl IdMap.erase engine.standings := by
    induction ids generalizing engine with
    | nil => rfl
    | cons first ids ih => exact ih (engine.forget first)
  rw [hfold]
  exact Store.find?_foldl_erase ids engine.standings id

variable [Outbound σ]

/-- A fault leaves everything as it was; otherwise the membrane is remembered, and is live together with
the membrane that was made for a copy. -/
theorem receiveWith_tracks (engine : Engine σ) {store : Store} (h : store.Sound) (id : MembraneId)
    (remote : Snapshot) (strategy : ConflictStrategy) :
    let delivery := engine.receiveWith store id remote strategy
    (delivery.engine.standings = engine.standings ∧ delivery.store = store) ∨
      ∃ sibling decision,
        delivery.engine.standings = engine.standings.insert id (.ofDecision sibling decision) ∧
        delivery.store.contains id = true ∧
        ∀ other, delivery.store.contains other = true ↔
          store.contains other = true ∨ sibling = some other := by
  intro delivery
  obtain ⟨answer, engine', after, habsorb, habsorbs⟩ := engine.exists_absorbs store id remote strategy
  cases habsorbs with
  | corrupt | refused =>
    have hdelivery : delivery = _ := receiveWith_of_error habsorb
    rw [hdelivery]
    exact Or.inl ⟨rfl, rfl⟩
  | @settled mine current settlement sibling _ hremote hmine hsettlement hcarried hcurrent =>
    have hsettles := hsettlement ▸ Snapshot.merge_settles (.ofMembrane mine) remote (some strategy)
    obtain ⟨_, _, _, -, hreceive⟩ := receiveWith_of_ok habsorb
    have hdelivery : delivery = _ := hreceive
    rw [hdelivery]
    exact Or.inr ⟨sibling, settlement.decision, rfl, Store.contains_iff.mpr ⟨current, hcurrent⟩,
      fun _ => hcarried.contains_iff h hmine hsettles hremote⟩

end Engine

/-! ### Commands and lines -/

namespace Session

open Script

/-- All that something remembered of a membrane refers to is live. -/
def Refers (session : Session) (id : MembraneId) (standing : Standing) : Prop :=
  session.store.contains id = true ∧
    ∀ sibling, standing = .split sibling → session.store.contains sibling = true

/-- What is remembered afterwards is new and refers to live membranes, or was remembered before of a
membrane that is not `gone`. Only what is `gone` is not live any more. -/
def Tracks (session after : Session) (gone : MembraneId → Prop) : Prop :=
  ∀ id standing, after.engine.standings.find? id = some standing →
    after.Refers id standing ∨
      session.engine.standings.find? id = some standing ∧ ¬ gone id ∧
        ∀ other, session.store.contains other = true → after.store.contains other = true ∨ gone other

/-- A command destroys a membrane, with others or alone. -/
def Destroys (session : Session) (command : Command) (other : MembraneId) : Prop :=
  ∃ top released, command = .destroy top ∧ (session.store.destroy top).answer = .ok released ∧
    other ∈ released

variable {session : Session}

theorem tracks_self (gone : MembraneId → Prop) (hgone : ∀ id, ¬ gone id) : session.Tracks session gone :=
  fun id _ hfind => Or.inr ⟨hfind, hgone id, fun _ hlive => Or.inl hlive⟩

/-- The engine changes only with an operation that tells what it has destroyed. -/
theorem operate_engine (session : Session) (operation : Operation) :
    (session.operate operation).2.engine =
      match (operation.run session.store).answer with
      | .ok (.released ids) => ids.foldl Engine.forget session.engine
      | _ => session.engine := by
  unfold operate
  cases operation.run session.store with
  | mk answer after =>
    cases answer with
    | error refusal => rfl
    | ok reply => cases reply <;> rfl

theorem operate_of_spares (session : Session) {operation : Operation} (hspares : operation.Spares) :
    (session.operate operation).2.engine = session.engine := by
  rw [operate_engine]
  split
  · rename_i hanswer
    exact absurd hanswer (Operation.run_ne_released hspares)
  · rfl

theorem tracks_operate {operation : Operation} (hspares : operation.Spares)
    {gone : MembraneId → Prop} (hgone : ∀ id, ¬ gone id) :
    session.Tracks (session.operate operation).2 gone := by
  intro id standing hfind
  rw [operate_of_spares session hspares] at hfind
  refine Or.inr ⟨hfind, hgone id, fun other hlive => Or.inl ?_⟩
  rw [operate_store]
  exact Operation.contains_run hspares hlive

/-- The engine forgets what is destroyed. -/
theorem tracks_destroy (session : Session) (top : MembraneId) :
    session.Tracks (session.operate (.destroy top)).2 (session.Destroys (.destroy top)) := by
  have hrun : (Operation.destroy top).run session.store = (session.store.destroy top).reply .released :=
    rfl
  intro id standing hfind
  rw [operate_engine, hrun] at hfind
  rw [operate_store, hrun]
  rcases (Store.destroy_atomically top).cases with
    ⟨refusal, hrefused⟩ | ⟨released, after, hdestroyed, _, -, hreleased, rfl⟩
  · have hgone : ∀ other, ¬ session.Destroys (.destroy top) other := by
      rintro other ⟨_, _, ⟨⟩, hanswer, -⟩
      rw [hrefused] at hanswer
      exact nomatch hanswer
    rw [hrefused] at hfind ⊢
    exact Or.inr ⟨hfind, hgone id, fun _ hlive => Or.inl hlive⟩
  · have hgone : ∀ other, session.Destroys (.destroy top) other ↔ other ∈ released := by
      intro other
      constructor
      · rintro ⟨_, _, ⟨⟩, hanswer, hmem⟩
        rw [hdestroyed] at hanswer
        exact Except.ok.inj hanswer ▸ hmem
      · exact fun hmem => ⟨top, released, rfl, by rw [hdestroyed], hmem⟩
    rw [hdestroyed] at hfind ⊢
    have hstands : (released.foldl Engine.forget session.engine).standings.find? id = some standing := hfind
    rw [Engine.standings_foldl_forget] at hstands
    split at hstands
    · exact nomatch hstands
    · rename_i hstays
      refine Or.inr ⟨hstands, fun h => hstays ((hgone id).mp h), fun other hlive => ?_⟩
      by_cases hmem : other ∈ released
      · exact Or.inr ((hgone other).mpr hmem)
      · exact Or.inl (Store.contains_withoutSubtree.mpr ⟨hlive, hreleased ▸ hmem⟩)

/-- A membrane and what was made beside it are live when an exchange is remembered. -/
theorem tracks_receiveWith (h : session.store.Sound) (target : MembraneId) (remote : Snapshot)
    (strategy : ConflictStrategy) {gone : MembraneId → Prop} (hgone : ∀ id, ¬ gone id) :
    let delivery := session.engine.receiveWith session.store target remote strategy
    session.Tracks ⟨delivery.store, delivery.engine⟩ gone := by
  intro delivery id standing hfind
  dsimp only at hfind
  obtain ⟨hstandings, hstore⟩ | ⟨sibling, decision, hstandings, hlive, hcontains⟩ :=
    session.engine.receiveWith_tracks h target remote strategy
  · rw [hstandings] at hfind
    exact Or.inr ⟨hfind, hgone id, fun other hother => Or.inl (hstore.symm ▸ hother)⟩
  · rw [hstandings, IdMap.find?_insert] at hfind
    split at hfind
    · rename_i heq
      obtain rfl := Option.some.inj hfind
      refine Or.inl ⟨heq ▸ hlive, fun added hadded => ?_⟩
      exact (hcontains added).mpr (Or.inr (Standing.ofDecision_eq_split hadded))
    · exact Or.inr ⟨hfind, hgone id, fun other hother => Or.inl ((hcontains other).mpr (Or.inl hother))⟩

theorem tracks_sync (h : session.store.Sound) (target source : MembraneId) {gone : MembraneId → Prop}
    (hgone : ∀ id, ¬ gone id) : session.Tracks (session.sync target source).2 gone := by
  unfold sync
  cases session.store.snapshot source with
  | error refusal => exact tracks_self gone hgone
  | ok remote => exact tracks_receiveWith h target remote session.engine.policy.strategy hgone

theorem tracks_perform (h : session.store.Sound) (command : Command) :
    session.Tracks (session.perform command).2 (session.Destroys command) := by
  cases command with
  | destroy top => exact session.tracks_destroy top
  | sync target source => exact tracks_sync h target source fun _ ⟨_, _, heq, _⟩ => nomatch heq
  | print id => cases id <;> exact tracks_self _ fun _ ⟨_, _, heq, _⟩ => nomatch heq
  | snapshot | count => exact tracks_self _ fun _ ⟨_, _, heq, _⟩ => nomatch heq
  | _ => exact tracks_operate (by exact trivial) fun _ ⟨_, _, heq, _⟩ => nomatch heq

/-- **What is remembered behind a line** is new and refers to live membranes, or was remembered before. -/
theorem tracks_runBytes (h : session.store.Sound) (line : List UInt8) :
    session.Tracks (session.runBytes line).2 fun other =>
      ∃ command, readLine line = .ok (some command) ∧ session.Destroys command other := by
  rw [runBytes_eq]
  cases hread : readLine line with
  | error fault => exact tracks_self _ fun _ ⟨_, hcommand, _⟩ => nomatch hcommand
  | ok read =>
    cases read with
    | none => exact tracks_self _ fun _ ⟨_, hcommand, _⟩ => nomatch hcommand
    | some command =>
      have hgone : (fun other => ∃ ran, (Except.ok (some command) : Except ScriptFault _) = .ok (some ran) ∧
          session.Destroys ran other) = session.Destroys command := by
        funext other
        exact propext ⟨fun ⟨_, hran, hdestroys⟩ => Option.some.inj (Except.ok.inj hran) ▸ hdestroys,
          fun hdestroys => ⟨command, rfl, hdestroys⟩⟩
      rw [hgone]
      exact tracks_perform h command

/-! ### Scripts -/

theorem run_snoc (session : Session) (lines : List (List UInt8)) (line : List UInt8) :
    (session.run (lines ++ [line])).2 = ((session.run lines).2.runBytes line).2 := by
  induction lines generalizing session with
  | nil => rfl
  | cons first lines ih => exact ih (session.runBytes first).2

theorem sound_run_ofConfig (config : SessionConfig) (entropy : UInt64) (lines : List (List UInt8)) :
    ((ofConfig config entropy).run lines).2.store.Sound :=
  (Store.sound_empty config.store entropy).steps ((ofConfig config entropy).steps_run lines)

/-- **What the engine of a session refers to.** After any lines of a script, in a session with any
configuration, every membrane of which the engine remembers an exchange is live. If the copy was put
beside it then, the sibling is live as well, unless a line has destroyed it since. -/
theorem remembers_live (config : SessionConfig) (entropy : UInt64) (lines : List (List UInt8)) :
    let session := ((ofConfig config entropy).run lines).2
    ∀ id standing, session.engine.standings.find? id = some standing →
      session.store.contains id = true ∧
      ∀ sibling, standing = .split sibling → session.store.contains sibling = true ∨
        ∃ before line later top released, lines = before ++ line :: later ∧
          readLine line = .ok (some (.destroy top)) ∧
          let earlier := ((ofConfig config entropy).run before).2
          earlier.engine.standings.find? id = some (.split sibling) ∧
            earlier.store.contains sibling = true ∧
            (earlier.store.destroy top).answer = .ok released ∧ sibling ∈ released := by
  induction lines using List.reverseRecOn with
  | nil => exact fun _ _ hfind => nomatch hfind
  | append_singleton lines line ih =>
    intro session id standing hfind
    have hsnoc : session = (((ofConfig config entropy).run lines).2.runBytes line).2 := run_snoc _ lines line
    rw [hsnoc] at hfind ⊢
    obtain ⟨hlive, hsibling⟩ | ⟨hbefore, hkept, hstays⟩ :=
      tracks_runBytes (sound_run_ofConfig config entropy lines) line id standing hfind
    · exact ⟨hlive, fun sibling hsplit => Or.inl (hsibling sibling hsplit)⟩
    · obtain ⟨hlive, hsiblings⟩ := ih id standing hbefore
      refine ⟨(hstays id hlive).resolve_right hkept, ?_⟩
      rintro sibling rfl
      rcases hsiblings sibling rfl with hsibling | ⟨before, earlier, later, top, released, hlines, hrest⟩
      · rcases hstays sibling hsibling with hstill | ⟨_, hread, top, released, rfl, hanswer, hmem⟩
        · exact Or.inl hstill
        -- This is the line that has destroyed the sibling.
        · exact Or.inr ⟨lines, line, [], top, released, rfl, hread, hbefore, hsibling, hanswer, hmem⟩
      · refine Or.inr ⟨before, earlier, later ++ [line], top, released, ?_, hrest⟩
        rw [hlines, List.append_assoc, List.cons_append]

/-- Lines that split a conflict and destroy the second copy. -/
def severed : List UInt8 :=
  "create 2\ncreate 2\nfill 1 1\nfill 2 2\nsync 1 2\ndestroy 3".toUTF8.data.toList

/-- The session in which the second copy was destroyed. -/
def bereft : Session := ((ofConfig ⟨.standard, ⟨.split, true⟩⟩ 0).run (Script.lines severed)).2

/-- The engine still remembers where the second copy was put; the last line has destroyed it. -/
theorem remembers_live_severed :
    bereft.engine.standings.find? ⟨1⟩ = some (.split ⟨3⟩) ∧
      bereft.store.contains ⟨1⟩ = true ∧ bereft.store.contains ⟨3⟩ = false ∧
      ∃ line ∈ Script.lines severed, ∃ top, readLine line = .ok (some (.destroy top)) := by
  have hfind : bereft.engine.standings.find? ⟨1⟩ = some (.split ⟨3⟩) := by decide +kernel
  have hdead : bereft.store.contains ⟨3⟩ = false := by decide +kernel
  unfold bereft at hfind hdead ⊢
  obtain ⟨hlive, hsiblings⟩ :=
    remembers_live ⟨.standard, ⟨.split, true⟩⟩ 0 (Script.lines severed) ⟨1⟩ (.split ⟨3⟩) hfind
  refine ⟨hfind, hlive, hdead, ?_⟩
  rcases hsiblings ⟨3⟩ rfl with hsibling | ⟨before, line, later, top, _, hlines, hread, -⟩
  · exact nomatch hsibling.symm.trans hdead
  · exact ⟨line, hlines ▸ List.mem_append_right before List.mem_cons_self, top, hread⟩

/-- The sibling of a split may have been destroyed. -/
theorem not_siblings_live : ¬ ∀ (config : SessionConfig) (entropy : UInt64) (lines : List (List UInt8)),
    let session := ((ofConfig config entropy).run lines).2
    ∀ id standing, session.engine.standings.find? id = some standing →
      session.store.contains id = true ∧
        ∀ sibling, standing = .split sibling → session.store.contains sibling = true := by
  intro h
  have hfind : bereft.engine.standings.find? ⟨1⟩ = some (.split ⟨3⟩) := by decide +kernel
  have hdead : bereft.store.contains ⟨3⟩ = false := by decide +kernel
  unfold bereft at hfind hdead
  obtain ⟨-, hsiblings⟩ := h ⟨.standard, ⟨.split, true⟩⟩ 0 (Script.lines severed) ⟨1⟩ (.split ⟨3⟩) hfind
  exact nomatch (hsiblings ⟨3⟩ rfl).symm.trans hdead

end Session

end Membranes
