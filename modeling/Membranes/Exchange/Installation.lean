import Membranes.Snapshot.Merge
import Membranes.Store.Content
import Membranes.Store.Lifecycle

/-!
# Installing what a merge decided

A settlement changes a store in at most two places: the membrane that was merged gets new content, and
a copy that is to be kept beside it gets a membrane of its own, with the same owner.
-/

namespace Membranes

namespace Store

variable (store : Store)

/-- Creates a membrane with the owner of another one: a child beside it, or a root beside a root. -/
def createBeside (id : MembraneId) (shape : Shape) : Outcome MembraneId :=
  store.checking (store.parent id) fun
    | some owner => store.createUnder owner shape
    | none => store.create shape

/-- Puts a copy beside a membrane, at version one. If its content cannot be installed, the membrane made
for it is destroyed again. -/
def addSibling (id : MembraneId) (copy : Snapshot) : Outcome MembraneId :=
  (store.createBeside id copy.shape).andThen fun sibling store =>
    let filled := store.replaceContent sibling copy.shape copy.buffer 1
    match filled.answer with
    | .ok () => ⟨.ok sibling, filled.store⟩
    | .error refusal =>
      (filled.store.destroy sibling).andThen fun _ store => ⟨.error refusal, store⟩

/-- Makes the membrane for a copy that is to be kept beside another, if there is one. -/
def addSplit (id : MembraneId) : Option Snapshot → Outcome (Option MembraneId)
  | none => ⟨.ok none, store⟩
  | some copy => (store.addSibling id copy).andThen fun sibling store => ⟨.ok (some sibling), store⟩

/-- Gives a membrane the content that a merge decided on, if that is something new. -/
def adoptResult (id : MembraneId) (settlement : Settlement) : Outcome Unit :=
  let result := settlement.result
  if settlement.changed then store.replaceContent id result.shape result.buffer result.version
  else ⟨.ok (), store⟩

/-- Carries out what a merge decided, and answers the membrane made for a copy beside the local one. -/
def carryOut (id : MembraneId) (settlement : Settlement) : Outcome (Option MembraneId) :=
  (store.addSplit id settlement.split).andThen fun sibling store =>
    (store.adoptResult id settlement).andThen fun _ store => ⟨.ok sibling, store⟩

end Store

end Membranes
