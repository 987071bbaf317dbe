import BehaviorTree.Outcome
import BehaviorTree.Toolbox

/-!
Behaviors as callbacks over a stage: the toolbox together with the world. A tick is a
machine with a memory of its own: it either answers, or asks for a child and is resumed
with the reply. It keeps nothing from one activation to the next.
-/
namespace BehaviorTree

structure Stage (W : Type) where
  toolbox : Toolbox W
  world : W

abbrev Callback (W : Type) := Stage W → Except CallbackError Unit × Stage W

inductive Request where
  | child
  | childAt (index : Nat)
  deriving DecidableEq, Repr

/-- The status of the child, or why there is no such child. -/
abbrev Reply := Except CallbackError Status

inductive Move (W Memory : Type) where
  | answer (result : Except CallbackError Outcome) (stage : Stage W)
  | ask (request : Request) (stage : Stage W) (memory : Memory)

structure View where
  node : NodeId
  kind : Kind
  properties : Properties
  childCount : Nat

structure Tick (W : Type) where
  Memory : Type
  start : View → Stage W → Move W Memory
  resume : Memory → Reply → Stage W → Move W Memory

namespace Tick

def ofStatus {W : Type} (status : Status) : Tick W where
  Memory := Empty
  start _ stage := .answer (.ok (.status status)) stage
  resume memory := memory.elim

end Tick

def Callback.skip {W : Type} : Callback W := fun stage => (.ok (), stage)

structure Behavior (W : Type) where
  tick : Option (Tick W) := none
  onEnter : Callback W := .skip
  onOpen : Callback W := .skip
  onClose : Callback W := .skip
  onExit : Callback W := .skip

/-- A behavior without a tick fails when ticked, and no class can be made of it. -/
def Behavior.isTickable {W : Type} (b : Behavior W) : Bool := b.tick.isSome

end BehaviorTree
