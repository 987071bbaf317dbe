import BehaviorTree.Evaluation.Walk
import BehaviorTree.Tree

/-!
A plan says how runs are executed: who makes their toolboxes, who answers their faults, and
how deep they go.

One activation of a node: enter, open when closed, tick, close unless running, exit. The
first failing step skips the others up to exit, and its fault is answered before the exit.
`descend` evaluates a child; ticks reach it through the requests of their node only.
-/
namespace BehaviorTree

def defaultMaxDepth : UInt64 := 256

structure Plan (W : Type) where
  factory : Option (SubjectId → Stage W → Stage W) := none
  /-- Answers every fault; without it a fault goes to the hook of the toolbox, and becomes
  an error if there is none. -/
  handler : Option (Fault → Stage W → Status × W) := none
  /-- Nodes deeper than this, the root being at depth zero, are errors and run no callback. -/
  maxDepth : UInt64 := defaultMaxDepth

/-- What stays the same during a run. `patience` bounds the requests of a single tick. -/
structure Scene (W : Type) where
  plan : Plan W
  tree : Tree W
  subject : SubjectId
  patience : Nat

namespace Scene
variable {W T : Type} [Observer W T]

def report (scene : Scene W) (node : NodeId) (phase : Trace.Phase) (status : Option Status) :
    Walk W T Unit :=
  Walk.report { subject := scene.subject, node, phase, status }

def responder (scene : Scene W) (stage : Stage W) : Responder :=
  match scene.plan.handler, stage.toolbox.hook with
  | some _, _ => .handler
  | none, some _ => .hook
  | none, none => .nobody

def respond (scene : Scene W) (fault : Fault) (stage : Stage W) : Status × W :=
  match scene.plan.handler, stage.toolbox.hook with
  | some handler, _ => handler fault stage
  | none, some hook => hook fault stage.world
  | none, none => (.error, stage.world)

/-- Answers a fault, and reports the answer under the subject of the toolbox. -/
def contain (scene : Scene W) (fault : Fault) : Walk W T Status := fun m =>
  let m := m.see (.consulted fault (scene.responder m.stage) m.stage)
  let toolbox := m.stage.toolbox
  let (status, world) := scene.respond fault m.stage
  let m := { m with stage := { toolbox, world } }.see (.contained fault status)
  let event : Trace.Event :=
    { subject := toolbox.subject, node := fault.node, phase := .fault, status := some status }
  (Walk.report event m).map fun (_, m) => (status, m)

end Scene

namespace Activation
variable {W T : Type} [Observer W T]

/-- Plays a tick to its answer, serving its requests; asking for a child that is not there
evaluates nothing. -/
def converse (descend : NodeId → Walk W T Status) (node : Node W) (tick : Tick W) :
    Nat → Move W tick.Memory → OpenNodes → T → Option (Except CallbackError Outcome × Moment W T)
  | _, .answer result stage, openNodes, seen => some (result, { stage, openNodes, seen })
  | 0, .ask _ _ _, _, _ => none
  | patience + 1, .ask request stage memory, openNodes, seen =>
    match node.locate request with
    | .error e =>
      converse descend node tick patience (tick.resume memory (.error e) stage) openNodes seen
    | .ok child =>
      match descend child { stage, openNodes, seen } with
      | none => none
      | some (status, { stage, openNodes, seen }) =>
        converse descend node tick patience (tick.resume memory (.ok status) stage) openNodes seen

def tickNode (scene : Scene W) (descend : NodeId → Walk W T Status) (node : Node W) :
    Walk W T (Except CallbackError Outcome) := do
  let result ← played
  Walk.note (.returned node.id .tick (.ofOutcome result))
  pure result
where
  played : Walk W T (Except CallbackError Outcome) := fun m =>
    let m := m.see (.called node.id .tick m.stage)
    match node.content.behavior.tick with
    | some tick =>
      converse descend node tick scene.patience (tick.start node.view m.stage) m.openNodes m.seen
    | none => some (.error .missingTick, m)

def openWhenClosed (scene : Scene W) (node : Node W) : Walk W T (Except CallbackError Unit) := do
  if ← Walk.isOpen node.id then
    pure (.ok ())
  else
    scene.report node.id .opening none
    Walk.call node.id .opening node.content.behavior.onOpen

def closeUnlessRunning (scene : Scene W) (node : Node W) (status : Status) :
    Walk W T (Except Fault Status) := do
  if status.isRunning then
    Walk.setOpen node.id true
    pure (.ok status)
  else
    scene.report node.id .close none
    let closed ← Walk.call node.id .close node.content.behavior.onClose
    Walk.setOpen node.id false
    match closed with
    | .ok () => pure (.ok status)
    | .error e => pure (.error ⟨node.id, .close, e⟩)

def settle (scene : Scene W) (node : Node W) (outcome : Outcome) :
    Walk W T (Except Fault Status) := do
  match outcome with
  | .status _ => pure ()
  | .unrecognized _ => scene.report node.id .invalid (some .error)
  scene.report node.id .tick (some outcome.effective)
  closeUnlessRunning scene node outcome.effective

def steps (scene : Scene W) (descend : NodeId → Walk W T Status) (node : Node W) :
    Walk W T (Except Fault Status) := do
  scene.report node.id .enter none
  match ← Walk.call node.id .enter node.content.behavior.onEnter with
  | .error e => pure (.error ⟨node.id, .enter, e⟩)
  | .ok () =>
    match ← openWhenClosed scene node with
    | .error e => pure (.error ⟨node.id, .opening, e⟩)
    | .ok () =>
      match ← tickNode scene descend node with
      | .error e => pure (.error ⟨node.id, .tick, e⟩)
      | .ok outcome => settle scene node outcome

/-- Exits with the result so far; a failing exit replaces it. -/
def leave (scene : Scene W) (node : Node W) (status : Status) : Walk W T Status := do
  scene.report node.id .exit (some status)
  match ← Walk.call node.id .exit node.content.behavior.onExit with
  | .ok () => pure status
  | .error e => scene.contain ⟨node.id, .exit, e⟩

def activate (scene : Scene W) (descend : NodeId → Walk W T Status) (node : Node W) :
    Walk W T Status := do
  Walk.note (.began node.id)
  let status ← match ← steps scene descend node with
    | .ok status => pure status
    | .error fault => scene.contain fault
  let final ← leave scene node status
  Walk.note (.ended node.id final)
  pure final

end Activation
end BehaviorTree
