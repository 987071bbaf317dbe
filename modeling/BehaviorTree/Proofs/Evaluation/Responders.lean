import BehaviorTree.Proofs.Evaluation.Inertness
import BehaviorTree.Proofs.Native.Forecast

/-! Whoever answers the faults. Callbacks that leave the hook of their toolbox alone cannot tell a
hook from a handler that answers as it would, nor nobody from a handler that takes every fault for
an error; and where there is a handler, no hook is called. -/
namespace BehaviorTree

variable {W : Type}

def Stage.hooked (hook : Option (Hook W)) (stage : Stage W) : Stage W :=
  { stage with toolbox := { stage.toolbox with hook } }

theorem Stage.ofHooked {a b : Stage W} (same : b.hooked none = a.hooked none) :
    b = a.hooked b.toolbox.hook := by
  have rehooked := congrArg (Stage.hooked b.toolbox.hook) same
  exact rehooked

def Callback.Equivariant (change : Stage W → Stage W) (callback : Callback W) : Prop :=
  ∀ stage, callback (change stage) = ((callback stage).1, change (callback stage).2)

inductive Move.Changed {Memory : Type} (S : Memory → Memory → Prop) (change : Stage W → Stage W) :
    Move W Memory → Move W Memory → Prop where
  | answer (result stage) : Changed S change (.answer result stage) (.answer result (change stage))
  | ask (request stage) {memory memory'} (remembered : S memory memory') :
      Changed S change (.ask request stage memory) (.ask request (change stage) memory')

theorem Move.Changed.stage {Memory : Type} {S : Memory → Memory → Prop}
    {change : Stage W → Stage W} {move move' : Move W Memory}
    (changed : Move.Changed S change move move') : move'.stage = change move.stage := by
  cases changed <;> rfl

/- A stage that a tick has put aside in its memory may be changed or not. -/
structure Tick.Equivariant (change : Stage W → Stage W) (tick : Tick W)
    (S : tick.Memory → tick.Memory → Prop) : Prop where
  same : ∀ memory, S memory memory
  starts : ∀ view stage,
    Move.Changed S change (tick.start view stage) (tick.start view (change stage))
  resumes : ∀ {memory memory'}, S memory memory' → ∀ reply stage,
    Move.Changed S change (tick.resume memory reply stage)
      (tick.resume memory' reply (change stage))

structure Behavior.Equivariant (change : Stage W → Stage W) (b : Behavior W) : Prop where
  calls : ∀ callback ∈ callbacks, (callback b).Equivariant change
  ticks : ∀ tick ∈ b.tick, ∃ S, tick.Equivariant change S

def Behavior.Unaware (b : Behavior W) : Prop := ∀ hook, b.Equivariant (Stage.hooked hook)

namespace Native
open Policy
variable {change : Stage W → Stage W}

theorem Unstaged.changed {Memory : Type} {move : Stage W → Move W Memory}
    (unstaged : Unstaged move) (stage : Stage W) :
    Move.Changed Eq change (move stage) (move (change stage)) := by
  cases unstaged with
  | answers result => exact .answer result stage
  | asks request memory => exact .ask request stage rfl

theorem equivariant (n : Native) : (n.behavior : Behavior W).Equivariant change where
  calls callback mem := by
    rw [n.behaviorSkips (n.behavior.hasCallback mem)]
    exact fun _ => rfl
  ticks tick ticks := by
    cases n.behaviorTick.symm.trans ticks
    refine ⟨Eq, fun _ => rfl, fun view => (n.policy.startUnstaged view).changed, ?_⟩
    rintro memory _ rfl reply
    exact (n.policy.resumeUnstaged memory reply).changed

end Native

def Occurrence.unhooked? : Occurrence W → Option (Occurrence W)
  | .equipped _ => none
  | .called node step stage => some (.called node step (stage.hooked none))
  | .consulted fault _ stage => some (.consulted fault .nobody (stage.hooked none))
  | o => some o

namespace Timeline

def unhooked (t : Timeline W) : Timeline W := t.filterMap Occurrence.unhooked?

theorem unhookedAppend (t u : Timeline W) : (t ++ u).unhooked = t.unhooked ++ u.unhooked :=
  List.filterMap_append

theorem unhookedRecord (t : Timeline W) : t.unhooked.record = t.record := by
  unfold unhooked record
  rw [List.filterMap_filterMap]
  refine List.filterMap_congr fun o _ => ?_
  cases o <;> rfl

end Timeline

structure Rehooked (hook hook' : Option (Hook W)) (m n : Moment W (Timeline W)) : Prop where
  stage : n.stage = m.stage.hooked hook'
  hook : m.stage.hooked hook = m.stage
  openNodes : n.openNodes = m.openNodes
  seen : n.seen.unhooked = m.seen.unhooked

def Scene.Concurs (scene scene' : Scene W) (hook hook' : Option (Hook W)) : Prop :=
  ∀ fault (stage : Stage W),
    scene'.respond fault (stage.hooked hook') = scene.respond fault (stage.hooked hook)

namespace Rehooked
variable {hook hook' : Option (Hook W)} {m n : Moment W (Timeline W)}

theorem see (rehooked : Rehooked hook hook' m n) {o p : Occurrence W}
    (same : p.unhooked? = o.unhooked?) : Rehooked hook hook' (m.see o) (n.see p) where
  stage := rehooked.stage
  hook := rehooked.hook
  openNodes := rehooked.openNodes
  seen := by
    have one : Timeline.unhooked [p] = Timeline.unhooked [o] := by
      simp only [Timeline.unhooked, List.filterMap_cons, same]
    simp only [Moment.see, Observer.see, Timeline.unhookedAppend, rehooked.seen, one]

theorem noted (o : Occurrence W) :
    Together (Rehooked hook hook') Eq (Walk.note o) (Walk.note o) :=
  .note fun rehooked => rehooked.see rfl

theorem restage (rehooked : Rehooked hook hook' m n) {stage : Stage W}
    (kept : stage.hooked hook = stage) :
    Rehooked hook hook' { m with stage } { n with stage := stage.hooked hook' } :=
  ⟨rfl, kept, rehooked.openNodes, rehooked.seen⟩

theorem asked (rehooked : Rehooked hook hook' m n) (node : NodeId) (step : Step) :
    Rehooked hook hook' (m.see (.called node step m.stage)) (n.see (.called node step n.stage)) :=
  rehooked.see (by rw [rehooked.stage]; rfl)

theorem report (event : Trace.Event) :
    Together (Rehooked (W := W) hook hook') Eq (Walk.report event) (Walk.report event) := by
  intro m n rehooked
  have records : n.stage.records = m.stage.records := by
    rw [rehooked.stage]
    rfl
  have told := rehooked.see (o := .reported event m.stage.records)
    (p := .reported event n.stage.records) (by rw [records])
  have sent : n.stage.sent event = (m.stage.sent event).hooked hook' := by
    rw [rehooked.stage]
    rfl
  have kept : (m.stage.sent event).hooked hook = m.stage.sent event :=
    congrArg (fun stage : Stage W => stage.sent event) rehooked.hook
  have after := told.restage kept
  rw [← sent] at after
  exact .some ⟨rfl, after⟩

theorem call {node step} {callback : Callback W}
    (kept : callback.Equivariant (Stage.hooked hook))
    (other : callback.Equivariant (Stage.hooked hook')) :
    Together (Rehooked hook hook') Eq (Walk.call node step callback)
      (Walk.call node step callback) := by
  intro m n rehooked
  have came := other m.stage
  rw [← rehooked.stage] at came
  have left := congrArg Prod.snd (kept m.stage)
  rw [rehooked.hook] at left
  have returned := ((rehooked.asked node step).restage left.symm).see
    (o := .returned node step (.ofResult (callback m.stage).1)) rfl
  have told : Rehooked hook hook'
      ({ m.see (.called node step m.stage) with stage := (callback m.stage).2 }.see
        (.returned node step (.ofResult (callback m.stage).1)))
      ({ n.see (.called node step n.stage) with stage := (callback n.stage).2 }.see
        (.returned node step (.ofResult (callback n.stage).1))) := by
    rw [came]
    exact returned
  exact .some ⟨(congrArg Prod.fst came).symm, told⟩

theorem setOpen (node : NodeId) (isOpen : Bool) :
    Together (Rehooked (W := W) hook hook') Eq (Walk.setOpen node isOpen)
      (Walk.setOpen node isOpen) :=
  .setOpen openNodes (fun rehooked _ => { rehooked with openNodes := rfl }) fun rehooked =>
    rehooked.see (o := .flagged node isOpen) rfl

variable {scene scene' : Scene W}

theorem contain (concurs : scene.Concurs scene' hook hook') (fault : Fault) :
    Together (Rehooked hook hook') Eq (scene.contain fault) (scene'.contain fault) := by
  have inWorld {a b : Stage W} (same : a = b) (world : W) :
      ({ a with world } : Stage W) = { b with world } := by rw [same]
  refine .contain (fun {m n} rehooked => ?_) (fun rehooked => ?_) (fun rehooked => ?_)
    (fun rehooked world => { rehooked with
      stage := inWorld rehooked.stage world
      hook := inWorld rehooked.hook world })
    (fun rehooked status => rehooked.see (o := .contained fault status) rfl) fun _ _ => report _
  · rw [rehooked.stage, concurs fault m.stage, rehooked.hook]
  · rw [rehooked.stage]
    rfl
  · exact rehooked.see (by rw [rehooked.stage]; rfl)

theorem told (subject : scene'.subject = scene.subject) (node : NodeId) (phase : Trace.Phase)
    (status : Option Status) :
    Together (Rehooked hook hook') Eq (scene.report node phase status)
      (scene'.report node phase status) := by
  unfold Scene.report
  rw [subject]
  exact report _

variable {node : Node W}

theorem coupled (concurs : scene.Concurs scene' hook hook')
    (subject : scene'.subject = scene.subject) (behaves : node.content.behavior.Unaware) :
    Couples (Rehooked hook hook') scene scene' node node where
  id := rfl
  began := noted _
  ended _ := noted _
  opened := by
    have among : Behavior.onOpen ∈ Behavior.callbacks (W := W) := by simp [Behavior.callbacks]
    exact .openWhenClosed rfl (.isOpen openNodes) (told subject _ _ _)
      (call ((behaves hook).calls _ among) ((behaves hook').calls _ among))
  flagged := setOpen node.id
  told _ _ := told subject _ _ _
  called _ callback mem :=
    call ((behaves hook).calls callback mem) ((behaves hook').calls callback mem)
  contained := contain concurs

theorem attuned {tick : Tick W} {S T : tick.Memory → tick.Memory → Prop}
    (kept : tick.Equivariant (Stage.hooked hook) S)
    (other : tick.Equivariant (Stage.hooked hook') T)
    (view : View) : Attuned (Rehooked hook hook') Eq view view tick tick T := by
  have hands {m n : Moment W (Timeline W)} {move move' : Move W tick.Memory}
      (rehooked : Rehooked hook hook' m n) (stays : move.stage.hooked hook = move.stage)
      (changed : Move.Changed T (Stage.hooked hook') move move') :
      Abreast Eq T move move' ∧ Rehooked hook hook' { m with stage := move.stage }
        { n with stage := move'.stage } := by
    cases changed with
    | answer result stage => exact ⟨.answer (.same result), rehooked.restage stays⟩
    | ask request stage remembered => exact ⟨.ask remembered, rehooked.restage stays⟩
  refine ⟨fun {m n} rehooked => ?_, fun {m n memory memory'} rehooked remembered reply => ?_⟩
  · have stays := (kept.starts view m.stage).stage
    rw [rehooked.hook] at stays
    have changed := other.starts view m.stage
    rw [← rehooked.stage] at changed
    exact hands rehooked stays.symm changed
  · have stays := (kept.resumes (kept.same memory) reply m.stage).stage
    rw [rehooked.hook] at stays
    have changed := other.resumes remembered reply m.stage
    rw [← rehooked.stage] at changed
    exact hands rehooked stays.symm changed

theorem paired (concurs : scene.Concurs scene' hook hook')
    (subject : scene'.subject = scene.subject) (patience : scene'.patience = scene.patience)
    (behaves : node.content.behavior.Unaware) :
    Paired (Rehooked hook hook') Eq scene scene' node node := by
  refine (coupled concurs subject behaves).paired patience
    (fun rehooked => rehooked.asked node.id .tick) (fun _ => noted _) (told subject _ _ _)
    fun {tick} ticks => ?_
  obtain ⟨S, kept⟩ := (behaves hook).ticks tick ticks
  obtain ⟨T, other⟩ := (behaves hook').ticks tick ticks
  exact ⟨T, attuned kept other node.view⟩

end Rehooked

inductive Plan.Concurs (plan plan' : Plan W) (subject : SubjectId) (tree : TreeId) : Prop where
  | hook {hook : Hook W} (unhandled : plan.handler = none)
      (installs : ∀ world, plan.firstHook subject tree world = some hook)
      (handler : plan'.handler = some fun fault stage => hook fault stage.world)
  -- A handler that takes every fault for an error, in place of nobody.
  | nobody (unhandled : plan.handler = none)
      (bare : ∀ world, plan.firstHook subject tree world = none)
      (handler : plan'.handler = some fun _ stage => (.error, stage.world))
  | handler {handler} (given : plan.handler = some handler) (given' : plan'.handler = some handler)
      (unaware : ∀ hook fault stage, handler fault (stage.hooked hook) = handler fault stage)

structure Round.Concurs (tree : TreeId) (round round' : Round W) : Prop where
  subject : round'.subject = round.subject
  maxDepth : round'.plan.maxDepth = round.plan.maxDepth
  starts : ∀ openNodes world,
    (round'.plan.equip round.subject tree openNodes world :
        Moment W (Timeline W)).stage.hooked none =
      (round.plan.equip round.subject tree openNodes world :
        Moment W (Timeline W)).stage.hooked none
  answers : round.plan.Concurs round'.plan round.subject tree

structure Concordant (a b : Report W (Timeline W)) : Prop where
  status : b.status = a.status
  world : b.world = a.world
  -- The same callbacks on the same stages and with the same results, the same flags, the same
  -- faults with the same answers, and the same events.
  seen : b.seen.unhooked = a.seen.unhooked
  record : b.seen.record = a.seen.record

section Run
variable {plan plan' : Plan W} {tree : Tree W} {patience : Nat} {subject : SubjectId}

theorem Plan.Concurs.scenes {id : TreeId} (concurs : plan.Concurs plan' subject id) (world : W) :
    Scene.Concurs { plan, tree, subject, patience } { plan := plan', tree, subject, patience }
      (plan.firstHook subject id world) (plan'.firstHook subject id world) := by
  intro fault stage
  unfold Scene.respond
  cases concurs with
  | hook unhandled installs handler =>
    rw [unhandled, handler, installs]
    rfl
  | nobody unhandled bare handler =>
    rw [unhandled, handler, bare]
    rfl
  | handler given given' unaware =>
    rw [given, given']
    exact (unaware _ fault stage).trans (unaware _ fault stage).symm

theorem Rehooked.concordant {hook hook' : Option (Hook W)} {m n : Moment W (Timeline W)}
    (rehooked : Rehooked hook hook' m n) (status : Status) :
    Concordant ⟨status, m.seen, m.stage.world⟩ ⟨status, n.seen, n.stage.world⟩ where
  status := rfl
  world := by
    rw [rehooked.stage]
    rfl
  seen := rehooked.seen
  record := by
    change n.seen.record = m.seen.record
    rw [← n.seen.unhookedRecord, ← m.seen.unhookedRecord, rehooked.seen]

variable {round round' : Round W}

theorem Round.Concurs.start {id : TreeId} (concurs : round.Concurs id round')
    (openNodes : OpenNodes) (world : W) :
    Rehooked (round.plan.firstHook round.subject id world)
      (round'.plan.firstHook round.subject id world)
      (round.plan.equip round.subject id openNodes world)
      (round'.plan.equip round.subject id openNodes world) := by
  have unseen (plan : Plan W) : Timeline.unhooked
      (plan.equip round.subject id openNodes world : Moment W (Timeline W)).seen = [] := by
    rcases plan.equipSeen round.subject id openNodes world with none | made
    · rw [none]
      rfl
    · rw [made]
      rfl
  rw [← Plan.equipHook _ _ _ openNodes, ← Plan.equipHook _ _ _ openNodes]
  exact {
    stage := Stage.ofHooked (concurs.starts openNodes world)
    hook := rfl
    openNodes := (Plan.equipOpenNodes _ _ _ _ _).trans (Plan.equipOpenNodes _ _ _ _ _).symm
    seen := (unseen _).trans (unseen _).symm
  }

theorem Round.Concurs.runs (concurs : round.Concurs tree.id round')
    (behaves : ∀ {id node}, tree.node? id = some node → node.content.behavior.Unaware)
    (openNodes : OpenNodes) (world : W) :
    Option.Rel (fun p q => Concordant p.1 q.1 ∧ q.1.world = p.1.world ∧ q.2 = p.2)
      (round.plan.runTree patience tree round.subject openNodes world)
      (round'.plan.runTree patience tree round'.subject openNodes world) := by
  rw [concurs.subject]
  cases rooted : tree.root with
  | none =>
    rw [Plan.runUnrooted rooted, Plan.runUnrooted rooted]
    exact .some ⟨⟨rfl, rfl, rfl, rfl⟩, rfl, rfl⟩
  | some root =>
    let scene : Scene W := { plan := round.plan, tree, subject := round.subject, patience }
    let scene' : Scene W := { scene with plan := round'.plan }
    have nodes (id : NodeId) : Option.Rel
        (Paired (Rehooked (round.plan.firstHook round.subject tree.id world)
          (round'.plan.firstHook round.subject tree.id world)) Eq scene scene')
        (tree.node? id) (tree.node? id) :=
      relSelf fun _ found =>
        Rehooked.paired (concurs.answers.scenes world) rfl rfl (behaves found)
    have meets := Plan.runTogether rooted rooted concurs.maxDepth (concurs.start openNodes world)
      nodes (fun _ => Rehooked.noted _) fun _ => Rehooked.noted _
    rcases relCases meets with ⟨cut, cut'⟩ | ⟨_, _, ran, ran', status, m, n, rehooked, rfl, rfl⟩
    · rw [cut, cut']
      exact .none
    · rw [ran, ran']
      have concordant := rehooked.concordant status
      exact .some ⟨concordant, concordant.world, rehooked.openNodes⟩

end Run

def Occurrence.Handled : Occurrence W → Prop
  | .consulted _ responder _ => responder = .handler
  | _ => True

namespace Derivation
variable {scene : Scene W} {node : Node W} {handler : Fault → Stage W → Status × W}

theorem handledCarries (given : scene.plan.handler = some handler) :
    Carries scene node fun _ t _ => ∀ o ∈ t, o.Handled where
  nil _ := by simp
  append left right o mem := (List.mem_append.mp mem).elim (left o) (right o)
  told _ _ _ _ := by simp [Occurrence.Handled]
  called _ _ _ _ _ := by simp [Occurrence.Handled]
  answered _ answered := by
    cases answered
    simp [Occurrence.Handled, responderGiven given]
  flagged _ _ := by simp [Occurrence.Handled]
  ticks _ := by simp [Occurrence.Handled]
  starts _ _ := by simp
  resumes _ _ _ _ := by simp
  ticked _ _ := by simp [Occurrence.Handled]

end Derivation

theorem Plan.runHandled {plan : Plan W} {handler} (given : plan.handler = some handler) {patience}
    {tree : Tree W} {subject openNodes world left} {report : Report W (Timeline W)}
    (ok : plan.runTree patience tree subject openNodes world = some (report, left)) :
    ∀ o ∈ report.seen, o.Handled := by
  rcases Plan.runSound ok with ⟨_, rfl, _⟩ |
    ⟨root, equipped, t, stage, last, _, shown, seen, _, _, evaluates⟩
  · simp [Report.idle, Observer.start]
  · have bounded {o : Occurrence W} (bounds : o.Bounds) : ∀ p ∈ [o], p.Handled := by
      rintro p mem
      obtain rfl := List.mem_singleton.mp mem
      cases p <;> trivial
    have ran := Derivation.evaluatesCarried (R := fun _ t _ => ∀ o ∈ t, o.Handled)
      (fun _ => Derivation.handledCarries given) (fun _ _ => bounded) evaluates
    rw [seen]
    intro o mem
    rcases List.mem_append.mp mem with early | late
    · rcases shown with rfl | ⟨stage, rfl⟩
      · cases early
      · obtain rfl := List.mem_singleton.mp early
        trivial
    · exact ran o late

theorem respondersInterchangeable {tree : Tree W}
    (behaves : ∀ {id node}, tree.node? id = some node → node.content.behavior.Unaware) :
    (∀ {rounds rounds' : List (Round W)}, List.Forall₂ (Round.Concurs tree.id) rounds rounds' →
      ∀ (patience : Nat) (openNodes : OpenNodes) (world : W),
        Option.Rel (Series.Beside Concordant) (tree.runs patience rounds openNodes world)
          (tree.runs patience rounds' openNodes world)) ∧
    ∀ {plan : Plan W} {handler}, plan.handler = some handler →
      ∀ {patience subject openNodes world left} {report : Report W (Timeline W)},
        plan.runTree patience tree subject openNodes world = some (report, left) →
          ∀ {fault responder stage}, .consulted fault responder stage ∈ report.seen →
            responder = .handler := by
  refine ⟨fun each patience openNodes world => ?_, fun given => fun {_ _ _ _ _ _} ok => ?_⟩
  · refine Tree.runsTogether (each.imp fun round round' concurs => ?_) openNodes world
    exact concurs.runs behaves
  · intro fault responder stage mem
    exact Plan.runHandled given ok _ mem

def Tree.barren : Tree Nat := .pair Native.inverter.behavior Native.inverter.behavior

def Hook.counting : Hook Nat := fun _ world => (.failure, world + 1)

def Plan.waiting : Plan Nat where
  handler := some fun _ stage => (.running, stage.world + 10)

def Plan.hooking (plan : Plan Nat) : Plan Nat :=
  { plan with factory := some fun _ stage => stage.hooked (some Hook.counting) }

theorem respondersInterchangeableCounting :
    let counting : Plan Nat :=
      { handler := some fun fault stage => Hook.counting fault stage.world }
    let failing : Plan Nat := { handler := some fun _ stage => (.error, stage.world) }
    let rounds : List (Round Nat) := [⟨.hooking {}, ⟨1⟩⟩, ⟨{}, ⟨1⟩⟩, ⟨.hooking .waiting, ⟨1⟩⟩]
    let rounds' : List (Round Nat) := [⟨counting, ⟨1⟩⟩, ⟨failing, ⟨1⟩⟩, ⟨.waiting, ⟨1⟩⟩]
    (∃ a b, Tree.barren.runs 1 rounds .empty 0 = some a ∧
      Tree.barren.runs 1 rounds' .empty 0 = some b ∧
      a.reports.map (fun report => report.status) = [.success, .error, .running] ∧
      a.openNodes.toList = [⟨0⟩] ∧ a.world = 11 ∧ a.Beside Concordant b) ∧
    ∃ (report : Report Nat (Timeline Nat)) (left : OpenNodes),
      (Plan.hooking .waiting).runTree 1 Tree.barren ⟨1⟩ .empty 0 = some (report, left) ∧
      report.seen.failures.length = 1 ∧
      ∀ {fault responder stage}, .consulted fault responder stage ∈ report.seen →
        responder = .handler := by
  intro counting failing rounds rounds'
  have behaves {id node} (found : Tree.barren.node? id = some node) :
      node.content.behavior.Unaware := by
    intro hook
    rcases Tree.pairBehavior found with same | same <;> exact same ▸ Native.inverter.equivariant
  have each : List.Forall₂ (Round.Concurs Tree.barren.id) rounds rounds' :=
    .cons ⟨rfl, rfl, fun _ _ => rfl, .hook rfl (fun _ => rfl) rfl⟩ <|
      .cons ⟨rfl, rfl, fun _ _ => rfl, .nobody rfl (fun _ => rfl) rfl⟩ <|
        .cons ⟨rfl, rfl, fun _ _ => rfl, .handler rfl rfl fun _ _ _ => rfl⟩ .nil
  obtain ⟨runs, handled⟩ := respondersInterchangeable behaves
  constructor
  · have shown : (Tree.barren.runs 1 rounds .empty 0).map (fun a =>
        (a.reports.map fun report => report.status, a.openNodes.toList, a.world)) =
        some ([.success, .error, .running], [⟨0⟩], 11) := by
      decide +kernel
    rcases relCases (runs each 1 .empty 0) with ⟨cut, _⟩ | ⟨a, b, ran, ran', beside⟩
    · rw [cut] at shown
      cases shown
    · rw [ran] at shown
      obtain ⟨statuses, rest⟩ := Prod.mk.inj (Option.some.inj shown)
      obtain ⟨flags, world⟩ := Prod.mk.inj rest
      exact ⟨a, b, ran, ran', statuses, flags, world, beside⟩
  · have shown : ((Plan.hooking .waiting).runTree 1 Tree.barren ⟨1⟩ .empty 0).map
        (fun ran : Report Nat (Timeline Nat) × OpenNodes => ran.1.seen.failures.length) =
        some 1 := by
      decide +kernel
    obtain ⟨⟨report, left⟩, ok, failures⟩ := Option.map_eq_some_iff.mp shown
    exact ⟨report, left, ok, failures, handled rfl ok⟩

end BehaviorTree
