import BehaviorTree.Binary64
import BehaviorTree.SortedMap

/-!
JSON values. Whole numbers of at most a machine word, signed or not, are kept apart
from floating ones: `1.0` is not `1`. The fields of an object stand in increasing key
order, as `ofFields` arranges them; the last of two fields of one key wins.
-/
namespace BehaviorTree

universe u

inductive Json where
  | null
  | bool (value : Bool)
  | whole (value : Int)
  | float (value : Binary64)
  | text (value : String)
  | array (items : List Json)
  | object (fields : List (String × Json))
  deriving Repr, Inhabited

namespace Json

def IsWord (n : Int) : Prop := -9223372036854775808 ≤ n ∧ n < 18446744073709551616

instance (n : Int) : Decidable (IsWord n) := by unfold IsWord; infer_instance

def ofFields (fields : List (String × Json)) : Json :=
  object (SortedMap.ofList fields).toList

def field? (key : String) : Json → Option Json
  | object fields => SortedMap.Entries.find? key fields
  | _ => none

/-- An unsigned word; floating numbers are none, whole or not. -/
def word? : Json → Option UInt64
  | whole n => if 0 ≤ n ∧ n < 18446744073709551616 then some (UInt64.ofNat n.toNat) else none
  | _ => none

def ofNat (n : Nat) : Json := whole n

def ofWord (n : UInt64) : Json := whole n.toNat

def ofOption {α : Type u} (encode : α → Json) : Option α → Json
  | none => null
  | some a => encode a

def ofList {α : Type u} (encode : α → Json) (items : List α) : Json := array (items.map encode)

end Json

abbrev Properties := SortedMap String Json

def Properties.toJson (p : Properties) : Json := .object p.toList

end BehaviorTree
