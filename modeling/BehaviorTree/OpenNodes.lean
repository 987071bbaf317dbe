import BehaviorTree.Identifier
import BehaviorTree.SortedMap

/-!
The nodes a subject has left running: the only thing a run leaves behind. A node that is
not among them is closed.
-/
namespace BehaviorTree

structure OpenNodes where
  members : SortedMap NodeId Unit := .empty
  deriving DecidableEq

namespace OpenNodes

def empty : OpenNodes := {}

instance : Inhabited OpenNodes := ⟨empty⟩

def contains (s : OpenNodes) (node : NodeId) : Bool := s.members.contains node

def insert (s : OpenNodes) (node : NodeId) : OpenNodes := ⟨s.members.insert node ()⟩

def erase (s : OpenNodes) (node : NodeId) : OpenNodes := ⟨s.members.erase node⟩

def toList (s : OpenNodes) : List NodeId := s.members.keys

def ofList (nodes : List NodeId) : OpenNodes := nodes.foldl insert empty

def size (s : OpenNodes) : Nat := s.members.size

def isEmpty (s : OpenNodes) : Bool := s.members.isEmpty

@[simp] theorem containsEmpty (node : NodeId) : empty.contains node = false := rfl

theorem containsInsert (s : OpenNodes) (node other : NodeId) :
    (s.insert node).contains other = (decide (other = node) || s.contains other) := by
  by_cases h : other = node <;> simp [contains, insert, SortedMap.contains, SortedMap.getInsert, h]

theorem containsErase (s : OpenNodes) (node other : NodeId) :
    (s.erase node).contains other = (decide (other ≠ node) && s.contains other) := by
  by_cases h : other = node <;> simp [contains, erase, SortedMap.contains, SortedMap.getErase, h]

theorem extContains {a b : OpenNodes} (h : ∀ node, a.contains node = b.contains node) : a = b := by
  obtain ⟨a⟩ := a
  obtain ⟨b⟩ := b
  congr 1
  refine SortedMap.extGet fun node => ?_
  have := h node
  simp only [contains, SortedMap.contains] at this
  cases ha : a.get? node <;> cases hb : b.get? node <;> simp_all

end OpenNodes
end BehaviorTree
