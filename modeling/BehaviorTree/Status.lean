/-!
The four results of an evaluation. Names and codes are the written forms; both
readers are exact inverses of their writers, and no other text or number is read.
-/
namespace BehaviorTree

inductive Status where
  | success
  | failure
  | running
  | error
  deriving DecidableEq, Repr, Inhabited

namespace Status

def all : List Status := [success, failure, running, error]

def name : Status → String
  | success => "SUCCESS"
  | failure => "FAILURE"
  | running => "RUNNING"
  | error => "ERROR"

def code : Status → UInt8
  | success => 1
  | failure => 2
  | running => 3
  | error => 4

def rank (s : Status) : Nat := all.idxOf s

def ofName? (text : String) : Option Status := all.find? (·.name == text)

def ofCode? (number : UInt8) : Option Status := all.find? (·.code == number)

def isRunning : Status → Bool
  | running => true
  | _ => false

def invert : Status → Status
  | success => failure
  | failure => success
  | running => running
  | error => error

theorem ofNameIff {text : String} {s : Status} :
    ofName? text = some s ↔ text = s.name := by
  constructor
  · intro found
    unfold ofName? at found
    exact (beq_iff_eq.1 (List.find?_some found :)).symm
  · rintro rfl
    cases s <;> rfl

theorem ofCodeIff {number : UInt8} {s : Status} :
    ofCode? number = some s ↔ number = s.code := by
  constructor
  · intro found
    unfold ofCode? at found
    exact (beq_iff_eq.1 (List.find?_some found :)).symm
  · rintro rfl
    cases s <;> rfl

@[simp] theorem invertTwice (s : Status) : s.invert.invert = s := by cases s <;> rfl

end Status
end BehaviorTree
