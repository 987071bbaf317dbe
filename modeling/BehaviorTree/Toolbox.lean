import BehaviorTree.SlotType

/-!
The toolbox handed to every callback of one run. `W` is the state of the world around
the run: callbacks, hooks and handlers may read and change it, the evaluation does not.
Two slots take the events of a run: the log slot appends an event to its log, and a
recording sink makes it part of the record. A slot of another type under either key takes
no part.
-/
namespace BehaviorTree

structure StatusTable where
  success : Status := .success
  failure : Status := .failure
  running : Status := .running
  error : Status := .error
  deriving DecidableEq, Repr, Inhabited

namespace StatusTable

/-- An entry of the table, named by the status it stands for at first. -/
def get (table : StatusTable) : Status → Status
  | .success => table.success
  | .failure => table.failure
  | .running => table.running
  | .error => table.error

def set (table : StatusTable) (entry value : Status) : StatusTable :=
  match entry with
  | .success => { table with success := value }
  | .failure => { table with failure := value }
  | .running => { table with running := value }
  | .error => { table with error := value }

end StatusTable

abbrev Hook (W : Type) := Fault → W → Status × W

structure Toolbox (W : Type) where
  subject : SubjectId
  tree : TreeId
  table : StatusTable := {}
  /-- Consulted on a fault when the run has no handler of its own. -/
  hook : Option (Hook W) := none
  slots : ToolSlots := .empty

namespace Trace

def logKey : SlotKey SlotType.traceLog := ⟨0xA4B07ACE00000001⟩

def sinkKey : SlotKey SlotType.traceSink := ⟨0xA4B07ACE00000002⟩

def isRecorded (slots : ToolSlots) : Bool :=
  match slots.get? sinkKey with
  | some .recording => true
  | _ => false

def received (event : Event) (slots : ToolSlots) : List Event :=
  if isRecorded slots then [event] else []

def emit (event : Event) (slots : ToolSlots) : ToolSlots :=
  slots.modify logKey fun log => Log.push log event

end Trace
end BehaviorTree
