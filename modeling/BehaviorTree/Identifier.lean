/-!
Identifiers. Subjects and nodes are numbered by words, so listings of them are
deterministic; a node's number is unique in its tree only. Trees have chosen names.
-/
namespace BehaviorTree

structure SubjectId where
  number : UInt64
  deriving DecidableEq, Repr, Inhabited, Hashable

structure NodeId where
  number : UInt64
  deriving DecidableEq, Repr, Inhabited, Hashable

structure TreeId where
  text : String
  deriving DecidableEq, Repr, Inhabited, Hashable

namespace SubjectId

def display (s : SubjectId) : String := s!"subject-{s.number}"

instance : Ord SubjectId := ⟨fun a b => compare a.number b.number⟩

instance : Std.TransOrd SubjectId where
  eq_swap {a b} := @Std.OrientedCmp.eq_swap UInt64 compare _ a.number b.number
  isLE_trans {a b c} := @Std.TransCmp.isLE_trans UInt64 compare _ a.number b.number c.number

instance : Std.LawfulEqOrd SubjectId where
  compare_self {a} := @Std.ReflCmp.compare_self UInt64 compare _ a.number
  eq_of_compare h := congrArg mk (@Std.LawfulEqCmp.eq_of_compare UInt64 compare _ _ _ h)

end SubjectId

namespace NodeId

def display (n : NodeId) : String := s!"node-{n.number}"

instance : Ord NodeId := ⟨fun a b => compare a.number b.number⟩

instance : Std.TransOrd NodeId where
  eq_swap {a b} := @Std.OrientedCmp.eq_swap UInt64 compare _ a.number b.number
  isLE_trans {a b c} := @Std.TransCmp.isLE_trans UInt64 compare _ a.number b.number c.number

instance : Std.LawfulEqOrd NodeId where
  compare_self {a} := @Std.ReflCmp.compare_self UInt64 compare _ a.number
  eq_of_compare h := congrArg mk (@Std.LawfulEqCmp.eq_of_compare UInt64 compare _ _ _ h)

end NodeId

namespace TreeId

instance : Ord TreeId := ⟨fun a b => compare a.text b.text⟩

instance : Std.TransOrd TreeId where
  eq_swap {a b} := @Std.OrientedCmp.eq_swap String compare _ a.text b.text
  isLE_trans {a b c} := @Std.TransCmp.isLE_trans String compare _ a.text b.text c.text

instance : Std.LawfulEqOrd TreeId where
  compare_self {a} := @Std.ReflCmp.compare_self String compare _ a.text
  eq_of_compare h := congrArg mk (@Std.LawfulEqCmp.eq_of_compare String compare _ _ _ h)

end TreeId
end BehaviorTree
