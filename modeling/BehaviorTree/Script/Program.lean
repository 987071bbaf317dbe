import BehaviorTree.Script.SlotStep

/-!
Programs of scripted callbacks: lists of instructions over one register, which holds the
outcome a tick will return.
-/
namespace BehaviorTree.Script

inductive Instruction where
  | say (text : String)
  | sayLast
  | who
  | fail (error : CallbackError)
  | give (outcome : Outcome)
  | giveEntry (entry : Status)
  | setEntry (entry value : Status)
  | invert
  | slot (step : SlotStep)
  | logPhases (node : NodeId)
  | logCount (node : NodeId) (phase : Trace.Phase)
  | attempt (program : List Instruction)
  | ifSubject (subject : SubjectId) (yes no : List Instruction)
  | ifLast (status : Status) (yes no : List Instruction)
  | again (times : Nat) (program : List Instruction)
  /-- Says node, kind and child count; like those after it, only in ticks. -/
  | info
  | properties
  | giveProperty (name : String)
  | child
  | childAt (index : Nat)
  | each

abbrev Program := List Instruction

def nothingGiven : Outcome := .unrecognized "none"

/-- The programs of each callback: its calls take them in turn, and start over. -/
structure Callbacks where
  tick : Option (List Program) := none
  enter : Option (List Program) := none
  opening : Option (List Program) := none
  close : Option (List Program) := none
  exit : Option (List Program) := none

structure Policy where
  answers : List (Step × Status) := []
  default : Option Status := none

def Policy.answer (p : Policy) (step : Step) : Status :=
  ((p.answers.lookup step).or p.default).getD .error

structure Equipment where
  replacement : Option (SubjectId × TreeId) := none
  log : Bool := false
  sink : Bool := false
  table : List (Status × Status) := []
  slots : List (UInt64 × SlotValue) := []
  hook : Option Policy := none
  shown : Bool := false

end BehaviorTree.Script
