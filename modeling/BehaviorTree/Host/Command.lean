import BehaviorTree.Host

/-!
Operations on a host as data. Performing one always leaves a host behind: after a failed
operation, the one before it.
-/
namespace BehaviorTree

inductive Command (W : Type) where
  | createTree (name : Option String)
  | destroyTree (tree : TreeId)
  | createNode (tree : TreeId) (className : String) (overrides : Properties)
  | editTree (tree : TreeId) (edit : Edit W)
  | createSubject (tree : TreeId)
  | destroySubject (subject : SubjectId)
  | register (nodeClass : NodeClass W)
  | instantiate (className : String) (overrides : Properties)
  | run (subject : SubjectId) (plan : Plan W)

inductive Answer (W T : Type) where
  | treeCreated (result : Except HostError TreeId)
  | treeDestroyed (tree : Option (Tree W))
  | nodeCreated (result : Except HostError NodeId)
  | treeEdited (result : Option (Except TreeError (Option NodeId)))
  | subjectCreated (subject : SubjectId)
  | subjectDestroyed (found : Bool)
  | registered (result : Except CatalogError Unit)
  | instantiated (content : Option (Instance W))
  | ran (status : Status) (seen : T)

namespace Host
variable {W : Type}

/-- Performs a command in a world; `none` if it is a run and a tick was cut off. -/
def perform {T : Type} [Observer W T] (patience : Nat) (h : Host W) (world : W) :
    Command W → Option (Answer W T × Host W × W)
  | .createTree name =>
    some <| match h.createTree name with
      | .ok (id, changed) => (.treeCreated (.ok id), changed, world)
      | .error e => (.treeCreated (.error e), h, world)
  | .destroyTree tree =>
    some <| match h.destroyTree tree with
      | some (removed, changed) => (.treeDestroyed (some removed), changed, world)
      | none => (.treeDestroyed none, h, world)
  | .createNode tree className overrides =>
    some <| match h.createNode tree className overrides with
      | .ok (id, changed) => (.nodeCreated (.ok id), changed, world)
      | .error e => (.nodeCreated (.error e), h, world)
  | .editTree tree edit =>
    some <| match h.editTree tree edit with
      | some (.ok (added, changed)) => (.treeEdited (some (.ok added)), changed, world)
      | some (.error e) => (.treeEdited (some (.error e)), h, world)
      | none => (.treeEdited none, h, world)
  | .createSubject tree =>
    let (id, changed) := h.createSubject tree
    some (.subjectCreated id, changed, world)
  | .destroySubject subject =>
    some <| match h.destroySubject subject with
      | some changed => (.subjectDestroyed true, changed, world)
      | none => (.subjectDestroyed false, h, world)
  | .register nodeClass =>
    some <| match h.catalog.register nodeClass with
      | .ok catalog => (.registered (.ok ()), { h with catalog }, world)
      | .error e => (.registered (.error e), h, world)
  | .instantiate className overrides =>
    some <| match h.catalog.instantiate className overrides with
      | some (content, catalog) => (.instantiated (some content), { h with catalog }, world)
      | none => (.instantiated none, h, world)
  | .run subject plan =>
    (h.run plan patience subject world).map fun (report, changed) =>
      (.ran report.status report.seen, changed, report.world)

end Host
end BehaviorTree
