import BehaviorTree.Evaluation.Activation
import BehaviorTree.Routine
import BehaviorTree.Script.Program
import Std.Data.HashMap

/-!
What scripted callbacks, hooks, handlers and factories do. Their world keeps how often each
callback of each scripted behavior has been called, and the journal of the current run.
Behaviors are told apart by a number, and all nodes and subjects that share one share its
counts.
-/
namespace BehaviorTree.Script

structure World where
  calls : Std.HashMap (Nat × Step) Nat := {}
  journal : Array Json := #[]

namespace World

def enter (w : World) (entry : Json) : World := { w with journal := w.journal.push entry }

def say (w : World) (line : String) : World := w.enter (.text line)

def turnPage (w : World) : World := { w with journal := #[] }

def nextProgram (w : World) (behavior : Nat) (step : Step) (programs : List Program) :
    Program × World :=
  let n := w.calls.getD (behavior, step) 0
  (programs[n % programs.length]?.getD [],
    { w with calls := w.calls.insert (behavior, step) (n + 1) })

end World

abbrev Register := Option Outcome

/-- An error ends a program; the register keeps what was given before it. -/
abbrev Act := ExceptT CallbackError (StateT Register (Staged World))

namespace Act

def stage : Act (Stage World) := liftM (Staged.stage (W := World))

def modifyStage (f : Stage World → Stage World) : Act Unit := liftM (Staged.modify f)

def sayJson (entry : Json) : Act Unit :=
  modifyStage fun s => { s with world := s.world.enter entry }

def say (line : String) : Act Unit := sayJson (.text line)

def give (outcome : Outcome) : Act Unit := set (some outcome)

def request (r : Request) : Act Unit := do
  let reply : Reply ← liftM (Staged.request (W := World) r)
  match reply with
  | .ok status => give (.status status)
  | .error e => throw e

def slot (step : SlotStep) : Act Unit := do
  let before ← stage
  let (found, slots) := step.perform before.toolbox.slots
  modifyStage fun s => { s with toolbox := { s.toolbox with slots } }
  match found with
  | .ok answer => sayJson answer
  | .error e => throw e.toError

def sayLog (f : Trace.Log → Json) : Act Unit := do
  let s ← stage
  sayJson (.ofOption f (s.toolbox.slots.get? Trace.logKey))

def attempt (body : Act Unit) : Act Unit :=
  tryCatch body fun e => say ("caught " ++ e.label ++ ": " ++ e.display)

def again : Nat → Act Unit → Act Unit
  | 0, _ => pure ()
  | times + 1, body => do
    body
    again times body

end Act

def registerText : Register → String
  | none => "-"
  | some (.status s) => s.name
  | some (.unrecognized text) => "?" ++ text

def phasesJson (node : NodeId) (log : Trace.Log) : Json :=
  .ofList Trace.Phase.toJson (log.phases node)

def countJson (node : NodeId) (phase : Trace.Phase) (log : Trace.Log) : Json :=
  .ofNat (log.count node phase)

mutual

/-- One instruction; without a view of a node those for ticks do nothing. -/
def Instruction.perform (view : Option View) : Instruction → Act Unit
  | .say text => Act.say text
  | .sayLast => do Act.say (registerText (← get))
  | .who => do
    let s ← Act.stage
    Act.say (s.toolbox.subject.display ++ " in " ++ s.toolbox.tree.text)
  | .fail e => throw e
  | .give outcome => Act.give outcome
  | .giveEntry entry => do Act.give (.status ((← Act.stage).toolbox.table.get entry))
  | .setEntry entry value =>
    Act.modifyStage fun s =>
      { s with toolbox := { s.toolbox with table := s.toolbox.table.set entry value } }
  | .invert => modify fun last => last.map Outcome.invert
  | .slot step => Act.slot step
  | .logPhases node => Act.sayLog (phasesJson node)
  | .logCount node phase => Act.sayLog (countJson node phase)
  | .attempt program => Act.attempt (performAll view program)
  | .ifSubject subject yes no => do
    if (← Act.stage).toolbox.subject = subject then performAll view yes
    else performAll view no
  | .ifLast status yes no => do
    if (← get) = some (.status status) then performAll view yes else performAll view no
  | .again times program => Act.again times (performAll view program)
  | .info =>
    match view with
    | none => pure ()
    | some v => Act.say (v.node.display ++ " " ++ v.kind.name ++ " " ++ toString v.childCount)
  | .properties =>
    match view with
    | none => pure ()
    | some v => Act.sayJson v.properties.toJson
  | .giveProperty name =>
    match view with
    | none => pure ()
    | some v => Act.give (.ofJson ((v.properties.get? name).getD .null))
  | .child => if view.isSome then Act.request .child else pure ()
  | .childAt index => if view.isSome then Act.request (.childAt index) else pure ()
  | .each =>
    match view with
    | none => pure ()
    | some v => (List.range v.childCount).forM fun index => Act.request (.childAt index)

def performAll (view : Option View) : List Instruction → Act Unit
  | [] => pure ()
  | first :: rest => do
    first.perform view
    performAll view rest

end

def play (behavior : Nat) (step : Step) (programs : List Program) (view : Option View)
    (stage : Stage World) : Routine World (Except CallbackError Register) :=
  let (program, world) := stage.world.nextProgram behavior step programs
  ((performAll view program).run.run none { stage with world }).bind fun (result, last) stage =>
    .done (result.map fun _ => last) stage

def callback (behavior : Nat) (step : Step) : Option (List Program) → Callback World
  | none => .skip
  | some programs => fun stage =>
    let (result, stage) := (play behavior step programs none stage).alone
    (result.map fun _ => (), stage)

def tick (behavior : Nat) (programs : List Program) : Tick World :=
  .ofRoutine fun view stage =>
    (play behavior .tick programs (some view) stage).bind fun result stage =>
      .done (result.map fun last => last.getD nothingGiven) stage

def Callbacks.behavior (c : Callbacks) (number : Nat) : Behavior World where
  tick := c.tick.map (Script.tick number)
  onEnter := callback number .enter c.enter
  onOpen := callback number .opening c.opening
  onClose := callback number .close c.close
  onExit := callback number .exit c.exit

def Policy.hook (p : Policy) : Hook World := fun fault world =>
  (p.answer fault.step, world.say ("hook " ++ fault.error.label ++ ": " ++ fault.display))

def Policy.handler (p : Policy) : Fault → Stage World → Status × World := fun fault stage =>
  (p.answer fault.step,
    stage.world.say
      ("handler " ++ stage.toolbox.subject.display ++ " " ++ fault.error.label ++ ": " ++
        fault.display))

def Equipment.slotsWithTrace (e : Equipment) (slots : ToolSlots) : ToolSlots :=
  let slots := if e.log then slots.set Trace.logKey ({} : Trace.Log) else slots
  if e.sink then slots.set Trace.sinkKey Trace.Sink.recording else slots

def Equipment.factory (e : Equipment) (subject : SubjectId) (stage : Stage World) :
    Stage World :=
  let world := stage.world.say
    ("factory " ++ subject.display ++ " " ++ stage.toolbox.tree.text)
  let base : Toolbox World := match e.replacement with
    | some (subject, tree) => { subject, tree }
    | none => stage.toolbox
  let slots := e.slots.foldl (fun slots (key, value) =>
    slots.set (⟨key⟩ : SlotKey value.1) value.2) (e.slotsWithTrace base.slots)
  let table := e.table.foldl (fun table (entry, value) => table.set entry value) base.table
  let hook := match e.hook with
    | some policy => some policy.hook
    | none => base.hook
  let toolbox := { base with slots, table, hook }
  { toolbox, world := if e.shown then world.say toolbox.inspect else world }

end BehaviorTree.Script
