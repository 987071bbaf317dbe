import BehaviorTree.Proofs.Evaluation.Correction

/-! Tracing is inert. Callbacks that leave the trace slots alone go the same way whatever stands
in them: a run whose toolbox has a log, a sink or anything else there is the run without, except
that the log takes the events. An event changes no other slot, and no type of any slot. -/
namespace BehaviorTree

variable {W : Type}

def SortedMap.assign {κ ν : Type*} [Ord κ] [Std.TransOrd κ] [Std.LawfulEqOrd κ]
    (m : SortedMap κ ν) (key : κ) : Option ν → SortedMap κ ν
  | none => m.erase key
  | some value => m.insert key value

theorem SortedMap.getAssign {κ ν : Type*} [Ord κ] [Std.TransOrd κ] [Std.LawfulEqOrd κ]
    [DecidableEq κ] (m : SortedMap κ ν) (key other : κ) (value : Option ν) :
    (m.assign key value).get? other = if other = key then value else m.get? other := by
  cases value with
  | none => exact m.getErase key other
  | some value => exact m.getInsert key other value

structure Fittings where
  log : Option ((type : SlotType) × type.Carrier) := none
  sink : Option ((type : SlotType) × type.Carrier) := none

namespace Fittings

def after (f : Fittings) (events : List Trace.Event) : Fittings :=
  { f with log := f.log.map fun
      | ⟨.traceLog, log⟩ => ⟨.traceLog, .ofEvents (Trace.Log.events log ++ events)⟩
      | held => held }

def records (f : Fittings) : Bool :=
  match f.sink with
  | some ⟨.traceSink, .recording⟩ => true
  | _ => false

theorem afterNil (f : Fittings) : f.after [] = f := by
  have kept (log : Trace.Log) : Trace.Log.ofEvents (log.events ++ []) = log :=
    Trace.Log.extEvents (by simp)
  obtain ⟨_ | ⟨type, value⟩, sink⟩ := f
  · rfl
  · cases type with
    | traceLog => simp only [after, Option.map_some, kept value]
    | _ => rfl

theorem afterAppend (f : Fittings) (events more : List Trace.Event) :
    f.after (events ++ more) = (f.after events).after more := by
  obtain ⟨_ | ⟨type, value⟩, sink⟩ := f
  · rfl
  · cases type with
    | traceLog => simp [after]
    | _ => rfl

end Fittings

namespace ToolSlots

def fit (slots : ToolSlots) (f : Fittings) : ToolSlots :=
  ⟨(slots.held.assign Trace.logKey.number f.log).assign Trace.sinkKey.number f.sink⟩

theorem getFit (slots : ToolSlots) (f : Fittings) (number : UInt64) :
    (slots.fit f).held.get? number =
      if number = Trace.sinkKey.number then f.sink
      else if number = Trace.logKey.number then f.log
      else slots.held.get? number := by
  simp only [fit, SortedMap.getAssign]

theorem ext {a b : ToolSlots} (same : ∀ number, a.held.get? number = b.held.get? number) :
    a = b := by
  cases a
  cases b
  exact congrArg Slots.mk (SortedMap.extGet same)

theorem fitFit (slots : ToolSlots) (f g : Fittings) : (slots.fit f).fit g = slots.fit g := by
  refine ext fun number => ?_
  simp only [getFit]
  split
  · rfl
  · split <;> rfl

theorem readLog (slots : ToolSlots) (f : Fittings) :
    (slots.fit f).held.get? Trace.logKey.number = f.log := by
  rw [getFit, if_neg (by decide), if_pos rfl]

theorem readSink (slots : ToolSlots) (f : Fittings) :
    (slots.fit f).held.get? Trace.sinkKey.number = f.sink := by
  rw [getFit, if_pos rfl]

theorem emitFit (slots : ToolSlots) (f : Fittings) (event : Trace.Event) :
    Trace.emit event (slots.fit f) = slots.fit (f.after [event]) := by
  have read := slots.readLog f
  unfold Trace.emit Slots.modify Slots.update Slots.read
  rw [read]
  obtain ⟨_ | ⟨type, value⟩, sink⟩ := f
  · rfl
  · cases type with
    | traceLog =>
      refine ext fun number => ?_
      refine (SortedMap.getInsert _ _ _ _).trans ?_
      simp only [getFit]
      by_cases sink : number = Trace.sinkKey.number
      · simp [sink, Trace.sinkKey, Trace.logKey, Fittings.after]
      · have pushed : Trace.Log.push value event = .ofEvents (Trace.Log.events value ++ [event]) :=
          Trace.Log.extEvents ((Trace.Log.eventsPush value event).trans (by simp))
        simp only [if_neg sink, Fittings.after, Option.map_some, pushed]
        split <;> rfl
    | _ => rfl

theorem recordsFit (slots : ToolSlots) (f : Fittings) :
    Trace.isRecorded (slots.fit f) = f.records := by
  have read := slots.readSink f
  unfold Trace.isRecorded Slots.get? Slots.read
  rw [read]
  obtain ⟨log, _ | ⟨type, value⟩⟩ := f
  · rfl
  · cases type with
    | traceSink => cases value <;> rfl
    | _ => rfl

theorem typesEmit (event : Trace.Event) (slots : ToolSlots) :
    (Trace.emit event slots).types = slots.types := by
  unfold Trace.emit Slots.modify Slots.update Slots.read
  cases found : slots.held.get? Trace.logKey.number with
  | none => rfl
  | some held =>
    obtain ⟨type, value⟩ := held
    by_cases log : type = .traceLog
    · subst log
      have same : (slots.held.insert Trace.logKey.number
          ⟨.traceLog, Trace.Log.push value event⟩).mapValues Sigma.fst =
            slots.held.mapValues Sigma.fst := by
        refine SortedMap.extGet fun number => ?_
        rw [SortedMap.getMapValues, SortedMap.getMapValues, SortedMap.getInsert]
        split
        · rename_i here
          rw [here, found]
          rfl
        · rfl
      exact congrArg SortedMap.toList same
    · simp [log]

theorem getEmit (event : Trace.Event) (slots : ToolSlots) {number : UInt64}
    (other : number ≠ Trace.logKey.number) :
    (Trace.emit event slots).held.get? number = slots.held.get? number := by
  unfold Trace.emit Slots.modify Slots.update
  cases slots.read Trace.logKey with
  | error e => rfl
  | ok found =>
    cases found with
    | none => rfl
    | some log => exact (SortedMap.getInsert _ _ _ _).trans (if_neg other)

end ToolSlots

namespace Stage
variable {stage : Stage W} {f : Fittings}

def fit (stage : Stage W) (f : Fittings) : Stage W :=
  { stage with toolbox := { stage.toolbox with slots := stage.toolbox.slots.fit f } }

structure Holds (stage : Stage W) (f : Fittings) : Prop where
  log : stage.toolbox.slots.held.get? Trace.logKey.number = f.log
  sink : stage.toolbox.slots.held.get? Trace.sinkKey.number = f.sink

theorem holdsFit (stage : Stage W) (f : Fittings) : (stage.fit f).Holds f :=
  ⟨stage.toolbox.slots.readLog f, stage.toolbox.slots.readSink f⟩

theorem fitFit (stage : Stage W) (f g : Fittings) : (stage.fit f).fit g = stage.fit g := by
  unfold fit
  simp only [ToolSlots.fitFit]

theorem Holds.fit (holds : stage.Holds f) : stage.fit f = stage := by
  have same : stage.toolbox.slots.fit f = stage.toolbox.slots := by
    refine ToolSlots.ext fun number => ?_
    rw [ToolSlots.getFit]
    split
    · rename_i here
      rw [here, holds.sink]
    · split
      · rename_i here
        rw [here, holds.log]
      · rfl
  unfold Stage.fit
  rw [same]

theorem sentFit (stage : Stage W) (f : Fittings) (event : Trace.Event) :
    (stage.fit f).sent event = stage.fit (f.after [event]) := by
  unfold fit sent
  simp only [ToolSlots.emitFit]

theorem Holds.sent (holds : stage.Holds {}) (event : Trace.Event) : stage.sent event = stage := by
  have taken := stage.sentFit {} event
  rwa [show ({} : Fittings).after [event] = {} from rfl, holds.fit] at taken

end Stage

/- Takes no part in the trace: whatever stands in the trace slots, it does the same and leaves it
there. -/
def Callback.Aloof (callback : Callback W) : Prop :=
  ∀ stage f, callback (stage.fit f) = ((callback stage).1, (callback stage).2.fit f)

inductive Move.Fitted {Memory : Type} (S : Memory → Memory → Prop) (f : Fittings) :
    Move W Memory → Move W Memory → Prop where
  | answer (result stage) : Fitted S f (.answer result stage) (.answer result (stage.fit f))
  | ask (request stage) {memory memory'} (same : S memory memory') :
      Fitted S f (.ask request stage memory) (.ask request (stage.fit f) memory')

theorem Move.Fitted.stage {Memory : Type} {S : Memory → Memory → Prop} {f : Fittings}
    {move move' : Move W Memory} (fitted : Move.Fitted S f move move') :
    move'.stage = move.stage.fit f := by
  cases fitted <;> rfl

/- So does a tick. A stage that it has put aside in its memory may have other fittings. -/
def Tick.Aloof (tick : Tick W) : Prop :=
  ∃ S : tick.Memory → tick.Memory → Prop, (∀ memory, S memory memory) ∧
    (∀ view stage f, Move.Fitted S f (tick.start view stage) (tick.start view (stage.fit f))) ∧
      ∀ {memory memory'}, S memory memory' → ∀ reply stage f,
        Move.Fitted S f (tick.resume memory reply stage) (tick.resume memory' reply (stage.fit f))

structure Behavior.Aloof (b : Behavior W) : Prop where
  calls : ∀ callback ∈ Behavior.callbacks, (callback b).Aloof
  ticks : ∀ tick ∈ b.tick, tick.Aloof

structure Plan.Aloof (plan : Plan W) : Prop where
  factory : ∀ factory ∈ plan.factory, ∀ subject stage f,
    factory subject (stage.fit f) = (factory subject stage).fit f
  handler : ∀ handler ∈ plan.handler, ∀ fault stage f,
    handler fault (stage.fit f) = handler fault stage

def Plan.fitted (plan : Plan W) (f : Fittings) : Plan W :=
  { plan with factory := some fun subject stage =>
      ((plan.factory.getD fun _ stage => stage) subject stage).fit f }

def Occurrence.bare? : Occurrence W → Option (Occurrence W)
  | .equipped _ => none
  | .called node step stage => some (.called node step (stage.fit {}))
  | .consulted fault responder stage => some (.consulted fault responder (stage.fit {}))
  | .reported event _ => some (.reported event false)
  | o => some o

namespace Timeline

def bare (t : Timeline W) : Timeline W := t.filterMap Occurrence.bare?

-- Whoever is handed a stage finds the fittings in it, as the events so far have left them.
def Holds (t : Timeline W) (f : Fittings) : Prop :=
  ∀ (before after : Timeline W) o stage, t = before ++ o :: after → o.stage? = some stage →
    stage.Holds (f.after before.events)

theorem Holds.nil (f : Fittings) : Holds ([] : Timeline W) f := by
  intro before after o stage split
  simp at split

theorem Holds.snoc {t : Timeline W} {f : Fittings} (holds : t.Holds f) {o : Occurrence W}
    (here : ∀ stage, o.stage? = some stage → stage.Holds (f.after t.events)) :
    Holds (t ++ [o]) f := by
  intro before after o' stage split staged
  rcases List.eq_nil_or_concat after with rfl | ⟨rest, last, rfl⟩
  · obtain ⟨rfl, same⟩ := List.append_inj' split rfl
    cases same
    exact here stage staged
  · rw [List.concat_eq_append, ← List.cons_append, ← List.append_assoc] at split
    exact holds _ _ _ _ (List.append_inj' split rfl).1 staged

theorem bareAppend (t u : Timeline W) : (t ++ u).bare = t.bare ++ u.bare := List.filterMap_append

end Timeline

structure Beside (f : Fittings) (m n : Moment W (Timeline W)) : Prop where
  stage : n.stage = m.stage.fit (f.after n.seen.events)
  bare : m.stage.Holds {}
  openNodes : n.openNodes = m.openNodes
  seen : n.seen.bare = m.seen.bare
  without : m.seen.Holds {}
  held : n.seen.Holds f
  flags : ∀ {event recorded}, .reported event recorded ∈ n.seen → recorded = f.records

namespace Beside
variable {f : Fittings} {m n : Moment W (Timeline W)}

theorem holds (beside : Beside f m n) : n.stage.Holds (f.after n.seen.events) :=
  beside.stage ▸ m.stage.holdsFit _

theorem see (beside : Beside f m n) {o p : Occurrence W} (same : p.bare? = o.bare?)
    (quiet : p.event? = none) (here : ∀ stage, o.stage? = some stage → stage = m.stage)
    (here' : ∀ stage, p.stage? = some stage → stage = n.stage) :
    Beside f (m.see o) (n.see p) where
  stage := by
    have unsent : Timeline.events [p] = [] := List.filterMap_cons_none quiet
    have same : (n.see p).seen.events = n.seen.events := by
      simp only [Moment.see, Observer.see, Timeline.eventsAppend, unsent, List.append_nil]
    rw [same]
    exact beside.stage
  bare := beside.bare
  openNodes := beside.openNodes
  seen := by
    have one : Timeline.bare [p] = Timeline.bare [o] := by
      simp only [Timeline.bare, List.filterMap_cons, same]
    simp only [Moment.see, Observer.see, Timeline.bareAppend, beside.seen, one]
  without := beside.without.snoc fun stage staged => here stage staged ▸ beside.bare
  held := beside.held.snoc fun stage staged => here' stage staged ▸ beside.holds
  flags mem := by
    rcases List.mem_append.mp mem with old | new
    · exact beside.flags old
    · cases List.mem_singleton.mp new
      cases quiet

theorem noted {o : Occurrence W} (quiet : o.event? = none) (still : o.stage? = none) :
    Together (Beside f) Eq (Walk.note o) (Walk.note o) :=
  .note fun beside => beside.see rfl quiet (fun _ staged => by rw [still] at staged; cases staged)
    fun _ staged => by rw [still] at staged; cases staged

theorem restage (beside : Beside f m n) {stage : Stage W} (bare : stage.Holds {}) :
    Beside f { m with stage } { n with stage := stage.fit (f.after n.seen.events) } :=
  ⟨rfl, bare, beside.openNodes, beside.seen, beside.without, beside.held, beside.flags⟩

theorem report (event : Trace.Event) :
    Together (Beside (W := W) f) Eq (Walk.report event) (Walk.report event) := by
  intro m n beside
  have grown : Timeline.events (n.seen ++ [.reported event n.stage.records]) =
      n.seen.events ++ [event] := by
    rw [Timeline.eventsAppend]
    rfl
  have told : Beside f
      { m.see (.reported event m.stage.records) with stage := m.stage.sent event }
      { n.see (.reported event n.stage.records) with stage := n.stage.sent event } :=
    { stage := by
        change n.stage.sent event =
          (m.stage.sent event).fit (f.after (Timeline.events (n.seen ++ _)))
        rw [grown, beside.bare.sent, beside.stage, Stage.sentFit, Fittings.afterAppend]
      bare := (beside.bare.sent event).symm ▸ beside.bare
      openNodes := beside.openNodes
      seen := by
        simp only [Moment.see, Observer.see, Timeline.bareAppend, beside.seen]
        rfl
      without := beside.without.snoc (by simp)
      held := beside.held.snoc (by simp)
      flags := fun mem => by
        rcases List.mem_append.mp mem with old | new
        · exact beside.flags old
        · cases List.mem_singleton.mp new
          rw [beside.stage]
          exact m.stage.toolbox.slots.recordsFit _ }
  exact .some ⟨rfl, told⟩

theorem call {node step} {callback : Callback W} (aloof : callback.Aloof) :
    Together (Beside f) Eq (Walk.call node step callback) (Walk.call node step callback) := by
  intro m n beside
  have asked : Beside f (m.see (.called node step m.stage)) (n.see (.called node step n.stage)) :=
    beside.see (by simp only [Occurrence.bare?, beside.stage, Stage.fitFit]) rfl (by simp) (by simp)
  have fitted : n.stage = m.stage.fit (f.after (n.see (.called node step n.stage)).seen.events) :=
    asked.stage
  have came := aloof m.stage (f.after (n.see (.called node step n.stage)).seen.events)
  rw [← fitted] at came
  have left : (callback m.stage).2.Holds {} := by
    have bare := aloof m.stage {}
    rw [beside.bare.fit] at bare
    exact (congrArg Prod.snd bare).symm ▸ Stage.holdsFit _ _
  have told : Beside f
      ({ m.see (.called node step m.stage) with stage := (callback m.stage).2 }.see
        (.returned node step (.ofResult (callback m.stage).1)))
      ({ n.see (.called node step n.stage) with stage := (callback n.stage).2 }.see
        (.returned node step (.ofResult (callback n.stage).1))) := by
    rw [came]
    exact (asked.restage left).see (o := .returned node step (.ofResult (callback m.stage).1))
      (p := .returned node step (.ofResult (callback m.stage).1)) rfl rfl (by simp) (by simp)
  exact .some ⟨(congrArg Prod.fst came).symm, told⟩

theorem setOpen (node : NodeId) (isOpen : Bool) :
    Together (Beside (W := W) f) Eq (Walk.setOpen node isOpen) (Walk.setOpen node isOpen) :=
  .setOpen openNodes (fun beside _ => { beside with openNodes := rfl }) fun beside =>
    beside.see (o := .flagged node isOpen) (p := .flagged node isOpen) rfl rfl (by simp) (by simp)

theorem contain {scene scene' : Scene W} (aloof : scene.plan.Aloof)
    (handler : scene'.plan.handler = scene.plan.handler) (fault : Fault) :
    Together (Beside f) Eq (scene.contain fault) (scene'.contain fault) := by
  have responder {m n} (beside : Beside f m n) :
      scene'.responder n.stage = scene.responder m.stage := by
    unfold Scene.responder
    rw [handler, beside.stage]
    rfl
  refine .contain (fun {m n} beside => ?_) (fun beside => ?_) (fun {m n} beside => ?_)
    (fun beside world => ?_) (fun beside status => ?_) fun _ _ => report _
  · unfold Scene.respond
    rw [handler, beside.stage]
    cases given : scene.plan.handler with
    | none =>
      simp only [Stage.fit]
      cases m.stage.toolbox.hook <;> rfl
    | some handler => exact aloof.handler handler given fault m.stage _
  · rw [beside.stage]
    rfl
  · rw [responder beside]
    exact beside.see (by simp only [Occurrence.bare?, beside.stage, Stage.fitFit]) rfl (by simp)
      (by simp)
  · exact { beside with
      stage := congrArg (fun stage : Stage W => { stage with world }) beside.stage
      bare := ⟨beside.bare.log, beside.bare.sink⟩ }
  · exact beside.see (o := .contained fault status) (p := .contained fault status) rfl rfl
      (by simp) (by simp)

theorem told {scene scene' : Scene W} (subject : scene'.subject = scene.subject) (node : NodeId)
    (phase : Trace.Phase) (status : Option Status) :
    Together (Beside f) Eq (scene.report node phase status) (scene'.report node phase status) := by
  unfold Scene.report
  rw [subject]
  exact report _

theorem coupled {scene scene' : Scene W} {node : Node W} (aloof : scene.plan.Aloof)
    (handler : scene'.plan.handler = scene.plan.handler) (subject : scene'.subject = scene.subject)
    (behaves : node.content.behavior.Aloof) : Couples (Beside f) scene scene' node node where
  id := rfl
  began := noted rfl rfl
  ended _ := noted rfl rfl
  opened := .openWhenClosed rfl (.isOpen openNodes) (told subject _ _ _)
    (call (behaves.calls Behavior.onOpen (by simp [Behavior.callbacks])))
  flagged := setOpen node.id
  told _ _ := told subject _ _ _
  called _ callback mem := call (behaves.calls callback mem)
  contained := contain aloof handler

theorem attuned {tick : Tick W} (aloof : tick.Aloof) (view : View) :
    ∃ S, Attuned (Beside f) Eq view view tick tick S := by
  obtain ⟨S, same, starts, resumes⟩ := aloof
  -- A stage without the fittings is handed on without them.
  have stays {stage : Stage W} {play : Stage W → Move W tick.Memory} (bare : stage.Holds {})
      (fitted : Move.Fitted S {} (play stage) (play (stage.fit {}))) :
      (play stage).stage.Holds {} := by
    rw [bare.fit] at fitted
    exact fitted.stage ▸ Stage.holdsFit _ _
  have hands {m n : Moment W (Timeline W)} {move move' : Move W tick.Memory} (beside : Beside f m n)
      (bare : move.stage.Holds {}) (fitted : Move.Fitted S (f.after n.seen.events) move move') :
      Abreast Eq S move move' ∧ Beside f { m with stage := move.stage }
        { n with stage := move'.stage } := by
    cases fitted with
    | answer result stage => exact ⟨.answer (.same result), beside.restage bare⟩
    | ask request stage same => exact ⟨.ask same, beside.restage bare⟩
  refine ⟨S, fun {m n} beside => ?_, fun {m n memory memory'} beside remembered reply => ?_⟩
  · have fitted := starts view m.stage (f.after n.seen.events)
    rw [← beside.stage] at fitted
    exact hands beside (stays beside.bare (starts view m.stage {})) fitted
  · have fitted := resumes remembered reply m.stage (f.after n.seen.events)
    rw [← beside.stage] at fitted
    exact hands beside (stays beside.bare (resumes (same memory) reply m.stage {})) fitted

theorem paired {scene scene' : Scene W} {node : Node W} (aloof : scene.plan.Aloof)
    (handler : scene'.plan.handler = scene.plan.handler) (subject : scene'.subject = scene.subject)
    (patience : scene'.patience = scene.patience) (behaves : node.content.behavior.Aloof) :
    Paired (Beside f) Eq scene scene' node node := by
  refine (coupled aloof handler subject behaves).paired patience (fun beside => ?_)
    (fun _ => noted rfl rfl) (told subject _ _ _) fun ticks =>
      attuned (behaves.ticks _ ticks) node.view
  exact beside.see (by simp only [Occurrence.bare?, beside.stage, Stage.fitFit]) rfl (by simp)
    (by simp)

end Beside

def Plan.lastStage (plan : Plan W) (patience : Nat) (tree : Tree W) (subject : SubjectId)
    (openNodes : OpenNodes) (world : W) : Option (Stage W) := do
  let root ← tree.root
  let (_, last) ← evaluate { plan, tree, subject, patience } plan.room root
    (plan.equip subject tree.id openNodes world : Moment W (Timeline W))
  return last.stage

structure Inert (f : Fittings) (a b : Report W (Timeline W)) : Prop where
  status : b.status = a.status
  world : b.world = a.world
  -- The same callbacks on the same stages and with the same results, and the same faults to the
  -- same responders and with the same answers, but for what stands in the trace slots.
  seen : b.seen.bare = a.seen.bare
  without : a.seen.Holds {}
  held : b.seen.Holds f
  received : b.seen.record = if f.records then b.seen.events else []

section Run
variable {plan : Plan W} {tree : Tree W} {f : Fittings} {patience : Nat} {subject : SubjectId}
  {openNodes : OpenNodes} {world : W}

theorem Beside.start {stage : Stage W} (bare : stage.Holds {}) {seen : Timeline W}
    (made : seen = [] ∨ seen = [.equipped stage]) :
    Beside f { stage, openNodes, seen }
      { stage := stage.fit f, openNodes, seen := [.equipped (stage.fit f)] } where
  stage := by
    change stage.fit f = stage.fit (f.after [])
    rw [f.afterNil]
  bare := bare
  openNodes := rfl
  seen := by rcases made with rfl | rfl <;> rfl
  without := by
    rcases made with rfl | rfl
    · exact .nil _
    · refine Timeline.Holds.snoc (o := .equipped stage) (.nil _) fun _ staged => ?_
      exact Option.some.inj staged ▸ bare
  held := by
    refine Timeline.Holds.snoc (o := .equipped (stage.fit f)) (.nil _) fun _ staged => ?_
    have taken := f.afterNil
    exact taken.symm ▸ Option.some.inj staged ▸ stage.holdsFit f
  flags := by simp

theorem Plan.Aloof.starts (aloof : plan.Aloof) (f : Fittings) (subject : SubjectId) (tree : TreeId)
    (openNodes : OpenNodes) (world : W) :
    Beside f (plan.equip subject tree openNodes world)
      ((plan.fitted f).equip subject tree openNodes world) := by
  have bare : ({ toolbox := { subject, tree }, world } : Stage W).Holds {} := ⟨rfl, rfl⟩
  unfold Plan.equip Plan.fitted
  cases given : plan.factory with
  | none => exact .start bare (.inl rfl)
  | some factory =>
    refine .start ?_ (.inr rfl)
    have made := aloof.factory factory given subject { toolbox := { subject, tree }, world } {}
    rw [bare.fit] at made
    exact made ▸ Stage.holdsFit _ _

theorem Plan.Aloof.evaluates (aloof : plan.Aloof)
    (behaves : ∀ {id node}, tree.node? id = some node → node.content.behavior.Aloof)
    (root : NodeId) :
    Option.Rel (fun p q => p.1 = q.1 ∧ Beside f p.2 q.2)
      (evaluate { plan, tree, subject, patience } plan.room root
        (plan.equip subject tree.id openNodes world))
      (evaluate { plan := plan.fitted f, tree, subject, patience } plan.room root
        ((plan.fitted f).equip subject tree.id openNodes world)) := by
  have nodes (id : NodeId) : Option.Rel (Paired (Beside f) Eq { plan, tree, subject, patience }
      { plan := plan.fitted f, tree, subject, patience }) (tree.node? id) (tree.node? id) :=
    relSelf fun _ found => Beside.paired aloof rfl rfl rfl (behaves found)
  exact evaluateTogether nodes (fun _ => Beside.noted rfl rfl) (fun _ => Beside.noted rfl rfl)
    plan.room root _ _ (aloof.starts f subject tree.id openNodes world)

theorem Beside.inert {m n : Moment W (Timeline W)} (beside : Beside f m n) (status : Status) :
    Inert f ⟨status, m.seen, m.stage.world⟩ ⟨status, n.seen, n.stage.world⟩ where
  status := rfl
  world := by
    rw [beside.stage]
    rfl
  seen := beside.seen
  without := beside.without
  held := beside.held
  received := Timeline.recordOfFlags beside.flags

theorem Plan.Aloof.runs (aloof : plan.Aloof)
    (behaves : ∀ {id node}, tree.node? id = some node → node.content.behavior.Aloof) :
    Option.Rel (fun p q => Inert f p.1 q.1 ∧ q.2 = p.2)
      (plan.runTree patience tree subject openNodes world)
      ((plan.fitted f).runTree patience tree subject openNodes world) := by
  cases rooted : tree.root with
  | none =>
    rw [Plan.runUnrooted rooted, Plan.runUnrooted rooted]
    exact .some ⟨⟨rfl, rfl, rfl, .nil _, .nil _, by cases f.records <;> rfl⟩, rfl⟩
  | some root =>
    unfold Plan.runTree
    simp only [rooted, show (plan.fitted f).room = plan.room from rfl]
    rcases relCases (aloof.evaluates (f := f) behaves root) with
      ⟨cut, cut'⟩ | ⟨⟨status, m⟩, ⟨_, n⟩, came, came', same, beside⟩
    · rw [cut, cut']
      exact .none
    · cases same
      rw [came, came']
      exact .some ⟨beside.inert status, beside.openNodes⟩

theorem Plan.Aloof.leaves (aloof : plan.Aloof)
    (behaves : ∀ {id node}, tree.node? id = some node → node.content.behavior.Aloof)
    {report : Report W (Timeline W)} {left last}
    (ok : (plan.fitted f).runTree patience tree subject openNodes world = some (report, left))
    (leaves : (plan.fitted f).lastStage patience tree subject openNodes world = some last) :
    last.Holds (f.after report.seen.events) ∧
      plan.lastStage patience tree subject openNodes world = some (last.fit {}) := by
  unfold Plan.lastStage at leaves ⊢
  unfold Plan.runTree at ok
  cases rooted : tree.root with
  | none =>
    rw [rooted] at leaves
    cases leaves
  | some root =>
    simp only [rooted, bind, Option.bind_some, show (plan.fitted f).room = plan.room from rfl]
      at ok leaves ⊢
    rcases relCases (aloof.evaluates (f := f) behaves root) with
      ⟨cut, cut'⟩ | ⟨⟨status, m⟩, ⟨_, n⟩, came, came', same, beside⟩
    · rw [cut'] at ok
      cases ok
    · rw [came'] at ok leaves
      rw [came]
      cases ok
      cases leaves
      refine ⟨beside.holds, ?_⟩
      rw [beside.stage, Stage.fitFit, beside.bare.fit]
      rfl

end Run

theorem tracingInert {plan : Plan W} (aloof : plan.Aloof) {tree : Tree W}
    (behaves : ∀ {id node}, tree.node? id = some node → node.content.behavior.Aloof)
    (f : Fittings) (patience : Nat) (subject : SubjectId) (openNodes : OpenNodes) (world : W) :
    Option.Rel (fun p q => Inert f p.1 q.1 ∧ q.2 = p.2)
        (plan.runTree patience tree subject openNodes world)
        ((plan.fitted f).runTree patience tree subject openNodes world) ∧
      (∀ {report : Report W (Timeline W)} {left last},
        (plan.fitted f).runTree patience tree subject openNodes world = some (report, left) →
        (plan.fitted f).lastStage patience tree subject openNodes world = some last →
          last.Holds (f.after report.seen.events) ∧
            plan.lastStage patience tree subject openNodes world = some (last.fit {})) ∧
      ∀ (event : Trace.Event) (slots : ToolSlots),
        (Trace.emit event slots).types = slots.types ∧
          ∀ number ≠ Trace.logKey.number,
            (Trace.emit event slots).held.get? number = slots.held.get? number :=
  ⟨aloof.runs behaves, aloof.leaves behaves,
    fun event slots => ⟨slots.typesEmit event, fun _ other => slots.getEmit event other⟩⟩

def tallyKey : SlotKey SlotType.u64 := ⟨7⟩

def Stage.withSlots (stage : Stage W) (slots : ToolSlots) : Stage W :=
  { stage with toolbox := { stage.toolbox with slots } }

def Behavior.tallying : Behavior Unit where
  onEnter := fun stage =>
    (.ok (), stage.withSlots (stage.toolbox.slots.modify tallyKey (UInt64.add 1)))

theorem Behavior.Aloof.relaying : (Behavior.relaying : Behavior Unit).Aloof where
  calls callback mem stage f := by
    simp only [callbacks, List.mem_cons, List.not_mem_nil, or_false] at mem
    rcases mem with rfl | rfl | rfl | rfl <;> rfl
  ticks tick same := by
    cases same
    exact ⟨Eq, fun _ => rfl, fun _ _ _ => .ask _ _ rfl, fun _ _ _ _ => .answer _ _⟩

namespace ToolSlots
variable {type : SlotType}

theorem setFit (slots : ToolSlots) (key : SlotKey type) (f : Fittings)
    (apart : key.number ≠ Trace.logKey.number) (apart' : key.number ≠ Trace.sinkKey.number)
    (value : type.Carrier) :
    (slots.fit f).set key value = fit (slots.set key value) f := by
  refine ext fun number => ?_
  refine (SortedMap.getInsert _ _ _ _).trans ?_
  rw [getFit, getFit]
  by_cases here : number = key.number
  · rw [if_pos here, here, if_neg apart', if_neg apart]
    exact ((SortedMap.getInsert _ _ _ _).trans (if_pos rfl)).symm
  · have kept : (slots.set key value).held.get? number = slots.held.get? number :=
      (SortedMap.getInsert _ _ _ _).trans (if_neg here)
    rw [if_neg here, kept]

theorem modifyFit (slots : ToolSlots) (key : SlotKey type) (f : Fittings)
    (apart : key.number ≠ Trace.logKey.number) (apart' : key.number ≠ Trace.sinkKey.number)
    (change : type.Carrier → type.Carrier) :
    (slots.fit f).modify key change = fit (slots.modify key change) f := by
  have read : (slots.fit f).read key = slots.read key := by
    unfold Slots.read
    rw [getFit, if_neg apart', if_neg apart]
  unfold Slots.modify Slots.update
  rw [read]
  cases slots.read key with
  | error e => rfl
  | ok found =>
    cases found with
    | none => rfl
    | some value => exact slots.setFit key f apart apart' (change value)

end ToolSlots

theorem Behavior.Aloof.tallying : Behavior.tallying.Aloof where
  calls callback mem stage f := by
    simp only [callbacks, List.mem_cons, List.not_mem_nil, or_false] at mem
    rcases mem with rfl | rfl | rfl | rfl
    · have counted := stage.toolbox.slots.modifyFit tallyKey f (by decide) (by decide)
        (UInt64.add 1)
      exact congrArg (fun slots => (Except.ok (), stage.withSlots slots)) counted
    all_goals rfl
  ticks tick same := by cases same

def Plan.tallied : Plan Unit where
  factory := some fun _ stage =>
    stage.withSlots (stage.toolbox.slots.set tallyKey (UInt64.ofNat 0))
  handler := some fun _ _ => (.failure, ())

theorem Plan.Aloof.tallied : Plan.tallied.Aloof where
  factory factory given subject stage f := by
    cases given
    have made := stage.toolbox.slots.setFit tallyKey f (by decide) (by decide)
      (UInt64.ofNat 0)
    exact congrArg stage.withSlots made
  handler handler given fault stage f := by
    cases given
    rfl

theorem tracingInertTallying :
    let tree := Tree.pair .relaying .tallying
    let f : Fittings :=
      { log := some ⟨.traceLog, Trace.Log.ofEvents []⟩, sink := some ⟨.traceSink, .recording⟩ }
    ∃ a b, Plan.tallied.runTree 1 tree ⟨1⟩ .empty () = some a ∧
      (Plan.tallied.fitted f).runTree 1 tree ⟨1⟩ .empty () = some b ∧
      b.1.seen.record.map (fun event => event.phase) =
        [.enter, .opening, .enter, .opening, .fault, .exit, .tick, .close, .exit] ∧
      Inert f a.1 b.1 ∧ b.2 = a.2 := by
  intro tree f
  have behaves {id node} (found : tree.node? id = some node) : node.content.behavior.Aloof := by
    rcases Tree.pairBehavior found with same | same
    · exact same ▸ .relaying
    · exact same ▸ .tallying
  have phases : ((Plan.tallied.fitted f).runTree 1 tree ⟨1⟩ .empty ()).map
      (fun b : Report Unit (Timeline Unit) × OpenNodes =>
        b.1.seen.record.map fun event => event.phase) =
      some [.enter, .opening, .enter, .opening, .fault, .exit, .tick, .close, .exit] := by
    decide +kernel
  rcases relCases (tracingInert .tallied behaves f 1 ⟨1⟩ .empty ()).1 with
    ⟨_, cut⟩ | ⟨a, b, ran, ran', inert, same⟩
  · rw [cut] at phases
    cases phases
  · rw [ran'] at phases
    exact ⟨a, b, ran, ran', Option.some.inj phases, inert, same⟩

end BehaviorTree
