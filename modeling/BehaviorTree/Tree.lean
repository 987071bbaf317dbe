import BehaviorTree.Behavior

/-!
Trees of nodes, built by three edits. A node's place in `nodes` is its number. Links are
kept on both sides; an edit that would break the forest is refused with the first reason
in a fixed order. A tree holds no execution state and is shared by its subjects.
-/
namespace BehaviorTree

structure Instance (W : Type) where
  name : String
  className : String
  kind : Kind
  properties : Properties
  behavior : Behavior W

namespace Instance

def detached {W : Type} (className : String) (kind : Kind) (behavior : Behavior W)
    (properties : Properties) : Instance W :=
  { name := className, className, kind, properties, behavior }

end Instance

structure Node (W : Type) where
  id : NodeId
  content : Instance W
  parent : Option NodeId := none
  children : List NodeId := []

namespace Node
variable {W : Type}

def kind (n : Node W) : Kind := n.content.kind

def view (n : Node W) : View where
  node := n.id
  kind := n.kind
  properties := n.content.properties
  childCount := if n.kind = .composite then n.children.length else 0

/-- The child a tick may ask for: the first one of a decorator, any one of a composite. -/
def locate (n : Node W) : Request → Except CallbackError NodeId
  | .child =>
    if n.kind = .decorator then
      match n.children with
      | first :: _ => .ok first
      | [] => .error (.missingChild 0 0)
    else .error (.noChildSurface n.kind .single)
  | .childAt index =>
    if n.kind = .composite then
      match n.children[index]? with
      | some child => .ok child
      | none => .error (.missingChild index n.children.length)
    else .error (.noChildSurface n.kind .indexed)

end Node

inductive Arity where
  | strict
  /-- Every node takes any number; a decorator still evaluates its first child only. -/
  | relaxed
  deriving DecidableEq, Repr, Inhabited

inductive TreeError where
  | unknownNode (node : NodeId)
  | selfChild (node : NodeId)
  | alreadyParented (child parent : NodeId)
  | rootAsChild (node : NodeId)
  | parentedRoot (node : NodeId)
  | cycle (parent child : NodeId)
  | arityExceeded (node : NodeId) (kind : Kind) (bound : Nat)
  deriving DecidableEq, Repr

def TreeError.message : TreeError → String
  | unknownNode node => node.display ++ " is not part of this tree"
  | selfChild node => node.display ++ " cannot be its own child"
  | alreadyParented child parent => child.display ++ " already has parent " ++ parent.display
  | rootAsChild node => node.display ++ " is the root node and cannot become a child"
  | parentedRoot node => node.display ++ " has a parent and cannot become the root"
  | cycle parent child =>
    "attaching " ++ child.display ++ " under " ++ parent.display ++ " would create a cycle"
  | arityExceeded node kind bound =>
    kind.name ++ " node " ++ node.display ++ s!" accepts at most {bound} children"

structure Tree (W : Type) where
  id : TreeId
  arity : Arity := .strict
  root : Option NodeId := none
  nodes : Array (Node W) := #[]

namespace Tree
variable {W : Type}

def node? (t : Tree W) (id : NodeId) : Option (Node W) := t.nodes[id.number.toNat]?

def size (t : Tree W) : Nat := t.nodes.size

def nextId (t : Tree W) : NodeId := ⟨UInt64.ofNat t.nodes.size⟩

def lineage (t : Tree W) : Nat → NodeId → List NodeId
  | 0, _ => []
  | fuel + 1, id =>
    id :: match (t.node? id).bind Node.parent with
      | some parent => lineage t fuel parent
      | none => []

/-- Whether `above` is `node` or lies over it. A forest has no longer lineage than nodes. -/
def isAncestor (t : Tree W) (above node : NodeId) : Bool := above ∈ t.lineage t.size node

def change (t : Tree W) (id : NodeId) (f : Node W → Node W) : Tree W :=
  { t with nodes := t.nodes.modify id.number.toNat f }

def addNode (t : Tree W) (content : Instance W) : Tree W :=
  { t with nodes := t.nodes.push { id := t.nextId, content } }

theorem nodeChange (t : Tree W) (id other : NodeId) (f : Node W → Node W) :
    (t.change id f).node? other = (t.node? other).map fun n => if other = id then f n else n := by
  have same : id.number.toNat = other.number.toNat ↔ other = id := by
    constructor
    · intro h
      cases id
      cases other
      exact congrArg NodeId.mk (UInt64.toNat_inj.1 h).symm
    · rintro rfl
      rfl
  simp only [node?, change, Array.getElem?_modify, same]
  split <;> simp

theorem nodeAddNode (t : Tree W) (content : Instance W) (id : NodeId) :
    (t.addNode content).node? id =
      if id.number.toNat = t.size then some { id := t.nextId, content } else t.node? id := by
  simp only [node?, addNode, size, Array.getElem?_push]
  rfl

def setRoot (t : Tree W) (node : NodeId) : Except TreeError (Tree W) :=
  match t.node? node with
  | none => .error (.unknownNode node)
  | some n =>
    if n.parent.isSome then .error (.parentedRoot node) else .ok { t with root := some node }

def fullAt (t : Tree W) (n : Node W) : Option Nat :=
  match t.arity, n.kind.maxChildren with
  | .strict, some bound => if bound ≤ n.children.length then some bound else none
  | _, _ => none

def addChild (t : Tree W) (parent child : NodeId) : Except TreeError (Tree W) :=
  if parent = child then .error (.selfChild child)
  else
    match t.node? parent, t.node? child with
    | none, _ => .error (.unknownNode parent)
    | some _, none => .error (.unknownNode child)
    | some p, some c =>
      match c.parent with
      | some existing => .error (.alreadyParented child existing)
      | none =>
        if t.root = some child then .error (.rootAsChild child)
        else
          match t.fullAt p with
          | some bound => .error (.arityExceeded parent p.kind bound)
          | none =>
            if t.isAncestor child parent then .error (.cycle parent child)
            else
              .ok ((t.change parent fun n => { n with children := n.children ++ [child] }).change
                child fun n => { n with parent := some parent })

end Tree

inductive Edit (W : Type) where
  | addNode (content : Instance W)
  | setRoot (node : NodeId)
  | addChild (parent child : NodeId)

def Tree.edit {W : Type} (t : Tree W) : Edit W → Except TreeError (Option NodeId × Tree W)
  | .addNode content => .ok (some t.nextId, t.addNode content)
  | .setRoot node => (t.setRoot node).map fun changed => (none, changed)
  | .addChild parent child => (t.addChild parent child).map fun changed => (none, changed)

end BehaviorTree
