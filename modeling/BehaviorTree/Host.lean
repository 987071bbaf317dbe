import BehaviorTree.Catalog
import BehaviorTree.Evaluation.Run
import BehaviorTree.Settings

/-!
A host owns a catalog, trees by name, and subjects with the nodes they left open. A
subject may name a tree that does not exist; running it is then an error. Operations that
fail return no host, so the caller's stays as it was.
-/
namespace BehaviorTree

structure Subject where
  id : SubjectId
  tree : TreeId
  openNodes : OpenNodes := .empty
  deriving DecidableEq

inductive HostError where
  | duplicateTree (tree : TreeId)
  | unknownTree (tree : TreeId)
  | unknownClass (name : String)
  deriving DecidableEq, Repr

def HostError.message : HostError → String
  | duplicateTree tree => "tree `" ++ tree.text ++ "` already exists"
  | unknownTree tree => "tree `" ++ tree.text ++ "` does not exist"
  | unknownClass name => "no node class named `" ++ name ++ "` is registered"

structure Host (W : Type) where
  settings : Settings
  catalog : Catalog W
  trees : SortedMap TreeId (Tree W) := .empty
  subjects : SortedMap SubjectId Subject := .empty
  /-- The last number tried for a generated tree name. -/
  lastTree : UInt64 := 0
  lastSubject : UInt64 := 0

namespace Host
variable {W : Type}

def ofSettings (settings : Settings) : Host W where
  settings
  catalog := if settings.registerNatives then .natives else .empty

def plan (h : Host W) : Plan W := { maxDepth := h.settings.maxDepth }

def generatedName (number : UInt64) : TreeId := ⟨"tree-" ++ toString number⟩

/-- The first number after `last` whose name is free. With as many trials as there are
trees one more number is free. -/
def freeNumber (trees : SortedMap TreeId (Tree W)) : Nat → UInt64 → UInt64
  | 0, last => last + 1
  | trials + 1, last =>
    if trees.contains (generatedName (last + 1)) then freeNumber trees trials (last + 1)
    else last + 1

/-- Creates an empty tree; without a name, or with an empty one, a name is generated. -/
def createTree (h : Host W) (name : Option String) : Except HostError (TreeId × Host W) :=
  let (id, last) := match name with
    | some text => if text = "" then generated else (⟨text⟩, h.lastTree)
    | none => generated
  if h.trees.contains id then .error (.duplicateTree id)
  else
    let arity := if h.settings.strictArity then Arity.strict else .relaxed
    .ok (id, { h with trees := h.trees.insert id { id, arity }, lastTree := last })
where
  generated : TreeId × UInt64 :=
    let number := freeNumber h.trees h.trees.size h.lastTree
    (generatedName number, number)

/-- Removes a tree. Its subjects stay, with no node open. -/
def destroyTree (h : Host W) (id : TreeId) : Option (Tree W × Host W) :=
  (h.trees.get? id).map fun tree =>
    (tree,
      { h with
        trees := h.trees.erase id
        subjects := h.subjects.mapValues fun s =>
          if s.tree = id then { s with openNodes := .empty } else s })

def createNode (h : Host W) (tree : TreeId) (className : String) (overrides : Properties) :
    Except HostError (NodeId × Host W) :=
  match h.trees.get? tree with
  | none => .error (.unknownTree tree)
  | some target =>
    match h.catalog.instantiate className overrides with
    | none => .error (.unknownClass className)
    | some (content, catalog) =>
      .ok (target.nextId,
        { h with catalog, trees := h.trees.insert tree (target.addNode content) })

def editTree (h : Host W) (tree : TreeId) (edit : Edit W) :
    Option (Except TreeError (Option NodeId × Host W)) :=
  (h.trees.get? tree).map fun target =>
    (target.edit edit).map fun (added, changed) =>
      (added, { h with trees := h.trees.insert tree changed })

def createSubject (h : Host W) (tree : TreeId) : SubjectId × Host W :=
  let number := h.lastSubject + 1
  let id : SubjectId := ⟨number⟩
  (id, { h with subjects := h.subjects.insert id { id, tree }, lastSubject := number })

def destroySubject (h : Host W) (id : SubjectId) : Option (Host W) :=
  if h.subjects.contains id then some { h with subjects := h.subjects.erase id } else none

def resolve (h : Host W) (id : SubjectId) : Option (Subject × Tree W) :=
  match h.subjects.get? id with
  | none => none
  | some subject => (h.trees.get? subject.tree).map fun tree => (subject, tree)

def setOpenNodes (h : Host W) (id : SubjectId) (subject : Subject) (openNodes : OpenNodes) :
    Host W :=
  { h with subjects := h.subjects.insert id { subject with openNodes } }

def run {T : Type} [Observer W T] (h : Host W) (plan : Plan W) (patience : Nat) (id : SubjectId)
    (world : W) : Option (Report W T × Host W) :=
  match h.resolve id with
  | none => some (.idle world, h)
  | some (subject, tree) =>
    (plan.runTree patience tree id subject.openNodes world).map fun (report, openNodes) =>
      (report, h.setOpenNodes id subject openNodes)

end Host
end BehaviorTree
