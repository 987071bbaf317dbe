import BehaviorTree.Status
import BehaviorTree.Json.Compact

/-!
What a tick hands back before it is checked: a status, or a text that is none.
Texts are read as status names and small numbers as status codes; everything else
keeps a written form, so that the check can say what was returned.
-/
namespace BehaviorTree

inductive Outcome where
  | status (value : Status)
  | unrecognized (text : String)
  deriving DecidableEq, Repr, Inhabited

namespace Outcome

def ofName (name : String) : Outcome :=
  match Status.ofName? name with
  | some s => status s
  | none => unrecognized name

def ofCode (code : UInt8) : Outcome :=
  match Status.ofCode? code with
  | some s => status s
  | none => unrecognized (toString code)

/-- A text is a name, and a whole number of one byte is a code. -/
def ofJson : Json → Outcome
  | .text name => ofName name
  | .whole n =>
    if 0 ≤ n ∧ n < 256 then ofCode (UInt8.ofNat n.toNat) else unrecognized (Json.whole n).compact
  | other => unrecognized other.compact

structure InvalidStatus where
  text : String
  deriving DecidableEq, Repr

def InvalidStatus.message (e : InvalidStatus) : String :=
  "tick returned `" ++ e.text ++ "`, which is not a status"

def validate : Outcome → Except InvalidStatus Status
  | status s => .ok s
  | unrecognized text => .error ⟨text⟩

def effective : Outcome → Status
  | status s => s
  | unrecognized _ => .error

def invert : Outcome → Outcome
  | status s => status s.invert
  | unrecognized text => unrecognized text

end Outcome
end BehaviorTree
