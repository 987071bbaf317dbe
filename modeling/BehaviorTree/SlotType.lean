import BehaviorTree.Fault
import BehaviorTree.Slots
import BehaviorTree.Trace.Event

/-!
The types a toolbox slot can hold, with the names that mismatch messages show.
-/
namespace BehaviorTree

inductive SlotType where
  | u8
  | u32
  | i32
  | u64
  | bool
  | text
  | traceLog
  | traceSink
  deriving DecidableEq, Repr, Inhabited

namespace SlotType

def Carrier : SlotType → Type
  | u8 => UInt8
  | u32 => UInt32
  | i32 => Int32
  | u64 => UInt64
  | bool => Bool
  | text => String
  | traceLog => Trace.Log
  | traceSink => Trace.Sink

def name : SlotType → String
  | u8 => "u8"
  | u32 => "u32"
  | i32 => "i32"
  | u64 => "u64"
  | bool => "bool"
  | text => "alloc::string::String"
  | traceLog => "arbor_tools::trace::TraceLog"
  | traceSink => "alloc::boxed::Box<dyn arbor_tools::trace::TraceSink>"

end SlotType

def Mismatch.message (e : Mismatch SlotType) : String :=
  mismatchMessage e.key e.stored.name e.requested.name

def Mismatch.toError (e : Mismatch SlotType) : CallbackError :=
  .slotMismatch e.key e.stored.name e.requested.name

abbrev ToolSlots := Slots SlotType.Carrier

end BehaviorTree
