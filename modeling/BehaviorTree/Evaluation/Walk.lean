import BehaviorTree.Evaluation.Timeline
import BehaviorTree.OpenNodes

/-!
Computations of an evaluation: they read and change a moment, which is the stage, the open
nodes and what an observer has seen. They end without a result only where a tick was cut
off because it asked for more children than its patience allows.
-/
namespace BehaviorTree

structure Moment (W T : Type) where
  stage : Stage W
  openNodes : OpenNodes
  seen : T

def Moment.see {W T : Type} [Observer W T] (m : Moment W T) (occurrence : Occurrence W) :
    Moment W T :=
  { m with seen := Observer.see m.seen occurrence }

abbrev Walk (W T : Type) := StateT (Moment W T) Option

namespace Walk
variable {W T : Type}

section
variable [Observer W T]

def note (occurrence : Occurrence W) : Walk W T Unit := fun m =>
  some ((), m.see occurrence)

def isOpen (node : NodeId) : Walk W T Bool := fun m =>
  some (m.openNodes.contains node, m)

def setOpen (node : NodeId) (isOpen : Bool) : Walk W T Unit := fun m =>
  let openNodes := if isOpen then m.openNodes.insert node else m.openNodes.erase node
  some ((), { m with openNodes }.see (.flagged node isOpen))

def call (node : NodeId) (step : Step) (callback : Callback W) :
    Walk W T (Except CallbackError Unit) := fun m =>
  let m := m.see (.called node step m.stage)
  let (result, stage) := callback m.stage
  some (result, { m with stage }.see (.returned node step (.ofResult result)))

def report (event : Trace.Event) : Walk W T Unit := fun m =>
  let m := m.see (.reported event (Trace.isRecorded m.stage.toolbox.slots))
  let toolbox := { m.stage.toolbox with slots := Trace.emit event m.stage.toolbox.slots }
  some ((), { m with stage := { m.stage with toolbox } })

end

theorem bindIff {α β : Type} {x : Walk W T α} {f : α → Walk W T β}
    {m last : Moment W T} {b : β} :
    (x >>= f) m = some (b, last) ↔
      ∃ a middle, x m = some (a, middle) ∧ f a middle = some (b, last) := by
  change (x m).bind (fun p => f p.1 p.2) = some (b, last) ↔ _
  rw [Option.bind_eq_some_iff]
  exact ⟨fun ⟨⟨a, middle⟩, hx, hf⟩ => ⟨a, middle, hx, hf⟩,
    fun ⟨a, middle, hx, hf⟩ => ⟨(a, middle), hx, hf⟩⟩

end Walk
end BehaviorTree
