import BehaviorTree.Codec
import BehaviorTree.Inspection
import BehaviorTree.SlotType

/-!
Steps on toolbox slots given as data, each with an answer in JSON.
-/
namespace BehaviorTree

def Trace.Event.row (e : Trace.Event) : Json :=
  .array [e.subject.toJson, e.node.toJson, e.phase.toJson, .ofOption Status.toJson e.status]

def Trace.Log.rows (log : Trace.Log) : Json := .ofList Trace.Event.row log.events

namespace SlotType

def encode : (t : SlotType) → t.Carrier → Json
  | u8, n => .ofNat (UInt8.toNat n)
  | u32, n => .ofNat (UInt32.toNat n)
  | i32, n => .whole (Int32.toInt n)
  | u64, n => .ofNat (UInt64.toNat n)
  | bool, b => .bool b
  | text, s => .text s
  | traceLog, log => Trace.Log.rows log
  | traceSink, _ => .text "sink"

def bump : (t : SlotType) → t.Carrier → t.Carrier
  | u8, n => UInt8.add n 1
  | u32, n => UInt32.add n 1
  | i32, n => Int32.add n 1
  | u64, n => UInt64.add n 1
  | bool, b => !b
  | text, s => String.append s "!"
  | traceLog, log => log
  | traceSink, sink => sink

end SlotType

abbrev SlotValue := (t : SlotType) × t.Carrier

inductive SlotStep where
  | set (key : UInt64) (value : SlotValue)
  | contains (key : UInt64)
  | get (key : UInt64) (type : SlotType)
  | bump (key : UInt64) (type : SlotType)
  | read (key : UInt64) (type : SlotType)
  | update (key : UInt64) (type : SlotType)
  | take (key : UInt64) (type : SlotType)
  | keyNumber (key : UInt64)
  | size
  | isEmpty
  | inspect

namespace SlotStep

def perform (slots : ToolSlots) : SlotStep → Except (Mismatch SlotType) Json × ToolSlots
  | set key ⟨t, value⟩ => (.ok .null, slots.set (⟨key⟩ : SlotKey t) value)
  | contains key => (.ok (.bool (slots.contains (⟨key⟩ : SlotKey SlotType.u8))), slots)
  | get key t => (.ok (.ofOption t.encode (slots.get? (⟨key⟩ : SlotKey t))), slots)
  | bump key t =>
    let (found, changed) := slots.modifyGet? (⟨key⟩ : SlotKey t) t.bump
    (.ok (.ofOption t.encode found), changed)
  | read key t => ((slots.read (⟨key⟩ : SlotKey t)).map (.ofOption t.encode), slots)
  | update key t =>
    let (found, changed) := slots.update (⟨key⟩ : SlotKey t) t.bump
    (found.map (.ofOption t.encode), changed)
  | take key t =>
    let (found, changed) := slots.take (⟨key⟩ : SlotKey t)
    (found.map (.ofOption t.encode), changed)
  | keyNumber key => (.ok (.ofWord key), slots)
  | size => (.ok (.ofNat slots.size), slots)
  | isEmpty => (.ok (.bool slots.isEmpty), slots)
  | inspect => (.ok (.text (ToolSlots.inspect slots)), slots)

end SlotStep
end BehaviorTree
