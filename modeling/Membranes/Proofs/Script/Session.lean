import Membranes.Proofs.Exchange.Reachable
import Membranes.Script.Session

/-!
# What a script does to its session

* `Session.steps_perform` and `Session.steps_run`: whatever a command or a whole script does to the store,
  it does by steps. `Session.Ran` says what can come of a line in between.
* `Session.run_ne_corrupt`: no line is told that a snapshot is damaged. A snapshot is taken from the store
  that it goes back into, and what cannot be read fails for another reason (`Command.ofText_ne_failed`).
-/

namespace Membranes

/-! ### Lines that cannot be read -/

section Reading

variable {ε δ α β : Type} {fault : ε}

theorem mapError_ne_error {read : Except δ α} {f : δ → ε} (hf : ∀ other, f other ≠ fault) :
    read.mapError f ≠ .error fault := by
  cases read with
  | error other => exact fun heq => hf other (Except.error.inj heq)
  | ok value => exact nofun

theorem mapM_ne_error {read : α → Except ε β} (hread : ∀ word, read word ≠ .error fault)
    (words : List α) : words.mapM read ≠ .error fault := by
  induction words with
  | nil => exact nofun
  | cons word words ih =>
    rw [List.mapM_cons, ne_eq, bind_eq_error_iff]
    rintro (hfirst | ⟨value, -, hrest⟩)
    · exact hread word hfirst
    · rcases bind_eq_error_iff.mp hrest with hmore | ⟨values, -, hpure⟩
      · exact ih hmore
      · exact nomatch hpure

end Reading

namespace Script

variable (word : List Char) (cause : ExchangeFault)

theorem readId_ne_failed : readId word ≠ .error (.failed cause) := mapError_ne_error nofun

theorem readShape_ne_failed : readShape word ≠ .error (.failed cause) := mapError_ne_error nofun

theorem readIndices_ne_failed : readIndices word ≠ .error (.failed cause) :=
  mapM_ne_error (fun _ => mapError_ne_error nofun) _

theorem readNumber_ne_failed : readNumber word ≠ .error (.failed cause) := by
  unfold readNumber
  split
  · exact nofun
  · exact nofun

theorem readAmount_ne_failed : readAmount word ≠ .error (.failed cause) := mapError_ne_error nofun

end Script

namespace Command

open Script

theorem ofWords?_ne_failed {keyword : String} {arguments : List (List Char)}
    {read : Except ScriptFault Command} (h : ofWords? keyword arguments = some read)
    (cause : ExchangeFault) : read ≠ .error (.failed cause) := by
  unfold ofWords? at h
  -- One case for each keyword; all read their arguments one after the other.
  split at h <;> cases h <;>
    simp [bind_eq_error_iff, readId_ne_failed, readShape_ne_failed, readIndices_ne_failed,
      readNumber_ne_failed, readAmount_ne_failed, pure, Except.pure]

/-- Nothing has failed yet when a line cannot be read. -/
theorem ofText_ne_failed (line : List Char) (cause : ExchangeFault) :
    ofText line ≠ .error (.failed cause) := by
  unfold ofText
  dsimp only
  split
  · exact nofun
  · split
    · exact nofun
    · split
      · rename_i command hcommand
        cases command with
        | ok command => exact nofun
        | error fault =>
          intro heq
          exact ofWords?_ne_failed hcommand cause (congrArg Except.error (Except.error.inj heq))
      · exact nofun

end Command

/-! ### Commands -/

namespace Session

variable (session : Session)

theorem operate_store (operation : Operation) :
    (session.operate operation).2.store = (operation.run session.store).store := by
  unfold operate
  dsimp only
  split
  · rfl
  · rfl

theorem steps_sync (target source : MembraneId) :
    session.store.Steps (session.sync target source).2.store := by
  unfold sync
  split
  · exact .refl
  · exact session.engine.steps_receiveWith _ _ _ _

/-- **What a command does to the store is made of steps.** -/
theorem steps_perform (command : Command) :
    session.store.Steps (session.perform command).2.store := by
  have hoperate : ∀ operation, session.store.Steps (session.operate operation).2.store := by
    intro operation
    rw [operate_store]
    exact Store.steps_run operation session.store
  cases command with
  | sync target source => exact session.steps_sync target source
  | print id => cases id <;> exact .refl
  | snapshot | count => exact .refl
  | _ => exact hoperate _

theorem operate_ne_corrupt (operation : Operation) (id : MembraneId) (fault : SnapshotFault) :
    (session.operate operation).1 ≠ .error (.failed (.corrupt id fault)) := by
  unfold operate
  dsimp only
  split
  · exact nofun
  · exact nofun

theorem ask_ne_corrupt (answer : Except Refusal String) (id : MembraneId) (fault : SnapshotFault) :
    (session.ask answer).1 ≠ .error (.failed (.corrupt id fault)) :=
  mapError_ne_error nofun

variable {session}

/-- **Whatever is brought from one membrane into another is whole.** -/
theorem sync_ne_corrupt (h : session.store.Sound) (target source id : MembraneId)
    (fault : SnapshotFault) :
    (session.sync target source).1 ≠ .error (.failed (.corrupt id fault)) := by
  unfold sync
  cases hfind : session.store.membranes.find? source with
  | none =>
    rw [Store.snapshot_of_not_live hfind]
    exact nofun
  | some membrane =>
    rw [Store.snapshot_of_find? hfind]
    dsimp only
    have hanswer : (session.engine.receive session.store target (.ofMembrane membrane)).answer ≠
        .error (.corrupt id fault) :=
      Engine.receiveWith_ne_corrupt (h.membrane hfind).verify id fault
    cases hreceive : (session.engine.receive session.store target (.ofMembrane membrane)).answer with
    | ok receipt => exact nofun
    | error cause =>
      rw [hreceive] at hanswer
      intro heq
      exact hanswer (congrArg Except.error (ScriptFault.failed.inj (Except.error.inj heq)))

theorem perform_ne_corrupt (h : session.store.Sound) (command : Command) (id : MembraneId)
    (fault : SnapshotFault) : (session.perform command).1 ≠ .error (.failed (.corrupt id fault)) := by
  cases command with
  | sync target source => exact sync_ne_corrupt h target source id fault
  | print printed => cases printed <;> exact session.ask_ne_corrupt _ id fault
  | snapshot | count => exact session.ask_ne_corrupt _ id fault
  | _ => exact session.operate_ne_corrupt _ id fault

/-! ### Lines -/

/-- What can come of a line. -/
inductive Ran (session : Session) : Except ScriptFault (Option String) × Session → Prop
  /-- The line cannot be read, so that nothing has failed yet. -/
  | unread {fault : ScriptFault} (hfault : ∀ cause, fault ≠ .failed cause) :
      Ran session (.error fault, session)
  /-- The line holds no command. -/
  | idle : Ran session (.ok none, session)
  /-- The line holds a command. -/
  | command (command : Command) :
      Ran session ((session.perform command).1.map some, (session.perform command).2)

theorem ran_runLine (session : Session) (line : List Char) : session.Ran (session.runLine line) := by
  unfold runLine
  cases hread : Command.ofText line with
  | error fault =>
    refine .unread ?_
    rintro cause rfl
    exact Command.ofText_ne_failed line cause hread
  | ok read =>
    cases read with
    | none => exact .idle
    | some command => exact .command command

theorem ran_runBytes (session : Session) (line : List UInt8) :
    session.Ran (session.runBytes line) := by
  unfold runBytes
  cases Text.decode line with
  | error fault => exact .unread nofun
  | ok text => exact session.ran_runLine text

theorem Ran.steps {line : Except ScriptFault (Option String) × Session} (h : session.Ran line) :
    session.store.Steps line.2.store := by
  cases h with
  | unread => exact .refl
  | idle => exact .refl
  | command command => exact session.steps_perform command

theorem Ran.ne_corrupt {line : Except ScriptFault (Option String) × Session} (h : session.Ran line)
    (hsound : session.store.Sound) (id : MembraneId) (fault : SnapshotFault) :
    line.1 ≠ .error (.failed (.corrupt id fault)) := by
  cases h with
  | unread hfault => exact fun heq => hfault _ (Except.error.inj heq)
  | idle => exact nofun
  | command command =>
    have hperform := perform_ne_corrupt hsound command id fault
    cases hanswer : (session.perform command).1 with
    | ok text => exact nofun
    | error cause =>
      rw [hanswer] at hperform
      exact fun heq => hperform (congrArg Except.error (Except.error.inj heq))

/-- **What a script does to the store is made of steps.** -/
theorem steps_run (session : Session) (lines : List (List UInt8)) :
    session.store.Steps (session.run lines).2.store := by
  induction lines generalizing session with
  | nil => exact .refl
  | cons line lines ih => exact (session.ran_runBytes line).steps.trans (ih (session.runBytes line).2)

/-- **No line of a script is told that a snapshot is damaged.** -/
theorem run_ne_corrupt (h : session.store.Sound) (lines : List (List UInt8)) :
    ∀ result ∈ (session.run lines).1, ∀ id fault, result ≠ .error (.failed (.corrupt id fault)) := by
  induction lines generalizing session with
  | nil => exact nofun
  | cons line lines ih =>
    intro result hresult
    rcases List.mem_cons.mp hresult with rfl | hlater
    · exact (session.ran_runBytes line).ne_corrupt h
    · exact ih (h.steps (session.ran_runBytes line).steps) result hlater

end Session

end Membranes
