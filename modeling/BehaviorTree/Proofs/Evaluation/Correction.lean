import BehaviorTree.Proofs.Evaluation.Coupling
import BehaviorTree.Proofs.Evaluation.Routing

/-! An unrecognised outcome is an error. Beside a tree stands one whose ticks answer with an
error where those of the first answer with what is no status. As long as nobody reads the trace,
runs of the two go alike: they call the same callbacks and handlers, answer and leave the same,
and the trace of the second is that of the first without the invalid events. -/
namespace BehaviorTree

variable {W : Type}

def Move.corrected {Memory : Type} : Move W Memory → Move W Memory
  | answer result stage => answer (result.map fun outcome => .status outcome.effective) stage
  | ask request stage memory => ask request stage memory

def Tick.corrected (tick : Tick W) : Tick W where
  Memory := tick.Memory
  start view stage := (tick.start view stage).corrected
  resume memory reply stage := (tick.resume memory reply stage).corrected

def Behavior.corrected (b : Behavior W) : Behavior W := { b with tick := b.tick.map Tick.corrected }

def Node.corrected (n : Node W) : Node W :=
  { n with content := { n.content with behavior := n.content.behavior.corrected } }

def Tree.corrected (t : Tree W) : Tree W := { t with nodes := t.nodes.map Node.corrected }

namespace Stage

def unlogged (stage : Stage W) : Stage W :=
  { stage with toolbox := { stage.toolbox with
      slots := stage.toolbox.slots.modify Trace.logKey fun _ => {} } }

def Alike (a b : Stage W) : Prop := a.unlogged = b.unlogged

namespace Alike
variable {a b : Stage W}

theorem refl (a : Stage W) : Alike a a := rfl

theorem world (alike : Alike a b) : b.world = a.world :=
  (congrArg (fun stage : Stage W => stage.world) alike).symm

theorem subject (alike : Alike a b) : b.toolbox.subject = a.toolbox.subject :=
  (congrArg (fun stage : Stage W => stage.toolbox.subject) alike).symm

theorem hook (alike : Alike a b) : b.toolbox.hook = a.toolbox.hook :=
  (congrArg (fun stage : Stage W => stage.toolbox.hook) alike).symm

theorem records (alike : Alike a b) : b.records = a.records := by
  have sink (stage : Stage W) : stage.unlogged.sink? = stage.sink? :=
    Slots.getModifyOther _ _ (by decide)
  have same : b.sink? = a.sink? := by rw [← sink a, ← sink b, alike]
  unfold Stage.sink? at same
  unfold Stage.records Trace.isRecorded
  rw [same]

theorem inWorld (alike : Alike a b) (world : W) : Alike { a with world } { b with world } :=
  congrArg (fun stage : Stage W => ({ stage with world } : Stage W)) alike

end Alike

def sent (stage : Stage W) (event : Trace.Event) : Stage W :=
  { stage with toolbox := { stage.toolbox with slots := Trace.emit event stage.toolbox.slots } }

theorem alikeSent (stage : Stage W) (event : Trace.Event) : Alike (stage.sent event) stage := by
  have slots : (Trace.emit event stage.toolbox.slots).modify Trace.logKey (fun _ => {}) =
      stage.toolbox.slots.modify Trace.logKey fun _ => {} :=
    Slots.modifyTwice _ _ _ _
  simp only [Alike, unlogged, sent, slots]

end Stage

inductive Move.Alike {Memory : Type} (S : Memory → Memory → Prop) :
    Move W Memory → Move W Memory → Prop where
  | answer (result) {a b : Stage W} (alike : a.Alike b) :
      Alike S (.answer result a) (.answer result b)
  | ask (request) {a b : Stage W} {memory memory'} (alike : a.Alike b) (same : S memory memory') :
      Alike S (.ask request a memory) (.ask request b memory')

/- Does not read the log: on stages that are alike it does alike. A tick may have put a stage
aside in its memory. -/
def Tick.Blind (tick : Tick W) : Prop :=
  ∃ S : tick.Memory → tick.Memory → Prop,
    (∀ view {a b}, a.Alike b → Move.Alike S (tick.start view a) (tick.start view b)) ∧
      ∀ {memory memory'}, S memory memory' → ∀ reply {a b}, a.Alike b →
        Move.Alike S (tick.resume memory reply a) (tick.resume memory' reply b)

structure Behavior.Blind (b : Behavior W) : Prop where
  calls : ∀ callback ∈ callbacks, ∀ {a a' : Stage W}, a.Alike a' →
    (callback b a).1 = (callback b a').1 ∧ (callback b a).2.Alike (callback b a').2
  ticks : ∀ tick ∈ b.tick, tick.Blind

def Plan.Blind (plan : Plan W) : Prop :=
  ∀ handler ∈ plan.handler, ∀ fault {a b : Stage W}, a.Alike b → handler fault a = handler fault b

namespace Occurrence

def Recognized : Occurrence W → Prop
  | .returned _ _ (.answered (.unrecognized _)) => False
  | _ => True

-- The same, but for the log of a stage and the outcome of a tick, which is the effective one.
inductive Alike : Occurrence W → Occurrence W → Prop where
  | same {o} (recognized : o.Recognized) : Alike o o
  | called {node step} {a b : Stage W} (alike : a.Alike b) :
      Alike (.called node step a) (.called node step b)
  | answered (node outcome) :
      Alike (.returned node .tick (.answered outcome))
        (.returned node .tick (.answered (.status outcome.effective)))
  | consulted {fault responder} {a b : Stage W} (alike : a.Alike b) :
      Alike (.consulted fault responder a) (.consulted fault responder b)

def valid : Occurrence W → Bool
  | .reported event _ => event.phase ≠ .invalid
  | _ => true

end Occurrence

def Timeline.valid (t : Timeline W) : Timeline W := t.filter Occurrence.valid

structure Pruned (m n : Moment W (Timeline W)) : Prop where
  stage : m.stage.Alike n.stage
  openNodes : n.openNodes = m.openNodes
  seen : List.Forall₂ Occurrence.Alike m.seen.valid n.seen

namespace Pruned
variable {m n : Moment W (Timeline W)}

theorem see (linked : Pruned m n) {o o' : Occurrence W} (alike : o.Alike o')
    (valid : o.valid = true) : Pruned (m.see o) (n.see o') where
  stage := linked.stage
  openNodes := linked.openNodes
  seen := by
    have both : List.Forall₂ Occurrence.Alike (m.seen.valid ++ [o]) (n.seen ++ [o']) :=
      List.rel_append linked.seen (.cons alike .nil)
    simpa only [Moment.see, Observer.see, Timeline.valid, List.filter_append, List.filter_cons,
      valid, List.filter_nil, if_true] using both

theorem noted {o : Occurrence W} (recognized : o.Recognized) (valid : o.valid = true) :
    Together Pruned Eq (Walk.note o) (Walk.note o) :=
  .note fun linked => linked.see (.same recognized) valid

theorem sent (linked : Pruned m n) (event : Trace.Event) :
    Pruned { m with stage := m.stage.sent event } { n with stage := n.stage.sent event } where
  stage := (m.stage.alikeSent event).trans (linked.stage.trans (n.stage.alikeSent event).symm)
  openNodes := linked.openNodes
  seen := linked.seen

theorem report {event : Trace.Event} (valid : event.phase ≠ .invalid) :
    Together (Pruned (W := W)) Eq (Walk.report event) (Walk.report event) := by
  intro m n linked
  have told := linked.see (o := .reported event m.stage.records) (.same trivial)
    (decide_eq_true valid)
  have told : Pruned (m.see (.reported event m.stage.records))
      (n.see (.reported event n.stage.records)) := linked.stage.records ▸ told
  exact .some ⟨rfl, told.sent event⟩

theorem invalid (linked : Pruned m n) {event : Trace.Event} (invalid : event.phase = .invalid) :
    Pruned { (m.see (.reported event m.stage.records)) with stage := m.stage.sent event } n where
  stage := (m.stage.alikeSent event).trans linked.stage
  openNodes := linked.openNodes
  seen := by
    have dropped : (Occurrence.reported event m.stage.records : Occurrence W).valid = false := by
      simp [Occurrence.valid, invalid]
    simpa only [Moment.see, Observer.see, Timeline.valid, List.filter_append, List.filter_cons,
      dropped, Bool.false_eq_true, if_false, List.filter_nil, List.append_nil] using linked.seen

theorem call {node step} {callback callback' : Callback W}
    (blind : ∀ {a a' : Stage W}, a.Alike a' →
      (callback a).1 = (callback' a').1 ∧ (callback a).2.Alike (callback' a').2) :
    Together Pruned Eq (Walk.call node step callback) (Walk.call node step callback') := by
  intro m n linked
  have asked := linked.see (.called linked.stage) (o := .called node step m.stage) rfl
  obtain ⟨same, alike⟩ := blind linked.stage
  have came : Pruned { m.see (.called node step m.stage) with stage := (callback m.stage).2 }
      { n.see (.called node step n.stage) with stage := (callback' n.stage).2 } :=
    ⟨alike, asked.openNodes, asked.seen⟩
  refine .some ⟨same, ?_⟩
  have recognized : (Occurrence.returned node step (.ofResult (callback m.stage).1) :
      Occurrence W).Recognized := by
    cases (callback m.stage).1 <;> trivial
  have returned := came.see (.same recognized) rfl
  exact same ▸ returned

theorem setOpen (node : NodeId) (isOpen : Bool) :
    Together (Pruned (W := W)) Eq (Walk.setOpen node isOpen) (Walk.setOpen node isOpen) :=
  .setOpen openNodes (fun linked _ => ⟨linked.stage, rfl, linked.seen⟩) fun linked =>
    linked.see (o := .flagged node isOpen) (.same trivial) rfl

theorem contain {scene scene' : Scene W} (plan : scene'.plan = scene.plan)
    (blind : scene.plan.Blind) (fault : Fault) :
    Together Pruned Eq (scene.contain fault) (scene'.contain fault) := by
  refine .contain (fun {m n} linked => ?_) (fun linked => linked.stage.subject)
    (fun {m n} linked => ?_)
    (fun linked world => ⟨linked.stage.inWorld world, linked.openNodes, linked.seen⟩)
    (fun linked status => linked.see (o := .contained fault status) (.same trivial) rfl)
    fun _ _ => report nofun
  · unfold Scene.respond
    rw [plan, linked.stage.hook, linked.stage.world]
    cases given : scene.plan.handler with
    | none => cases m.stage.toolbox.hook <;> rfl
    | some handler => exact (blind handler given fault linked.stage).symm
  · have responder : scene'.responder n.stage = scene.responder m.stage := by
      unfold Scene.responder
      rw [plan, linked.stage.hook]
    rw [responder]
    exact linked.see (.consulted linked.stage) rfl

theorem corrected {scene : Scene W} {node : Node W} (blind : scene.plan.Blind)
    (behaves : node.content.behavior.Blind) :
    Couples Pruned scene { scene with tree := scene.tree.corrected } node node.corrected where
  id := rfl
  began := noted trivial rfl
  ended _ := noted trivial rfl
  opened :=
    .openWhenClosed rfl (.isOpen openNodes) (report (show Trace.Phase.opening ≠ .invalid by decide))
      (call (behaves.calls Behavior.onOpen (by simp [Behavior.callbacks])))
  flagged := setOpen node.id
  told valid _ := report valid
  called _ callback mem := by
    have same : callback node.corrected.content.behavior = callback node.content.behavior := by
      simp only [Behavior.callbacks, List.mem_cons, List.not_mem_nil, or_false] at mem
      rcases mem with rfl | rfl | rfl | rfl <;> rfl
    rw [same]
    exact call (behaves.calls callback mem)
  contained := contain rfl blind

end Pruned

def Outcome.Corrects (outcome outcome' : Outcome) : Prop := outcome' = .status outcome.effective

theorem Move.Alike.corrected {Memory : Type} {S : Memory → Memory → Prop}
    {move move' : Move W Memory} (alike : Move.Alike S move move') :
    Abreast Outcome.Corrects S move move'.corrected ∧ move.stage.Alike move'.corrected.stage := by
  cases alike with
  | answer result alike =>
    cases result with
    | error e => exact ⟨.answer (.failed e), alike⟩
    | ok outcome => exact ⟨.answer (.answered rfl), alike⟩
  | ask request alike same => exact ⟨.ask same, alike⟩

theorem Tick.Blind.attuned {tick : Tick W} (blind : tick.Blind) (view : View) :
    ∃ S, Attuned Pruned Outcome.Corrects view view tick tick.corrected S := by
  obtain ⟨S, starts, resumes⟩ := blind
  refine ⟨S, fun linked => ?_, fun linked same reply => ?_⟩
  · obtain ⟨abreast, alike⟩ := (starts view linked.stage).corrected
    exact ⟨abreast, alike, linked.openNodes, linked.seen⟩
  · obtain ⟨abreast, alike⟩ := (resumes same reply linked.stage).corrected
    exact ⟨abreast, alike, linked.openNodes, linked.seen⟩

theorem Couples.settled {scene scene' : Scene W} {node node' : Node W}
    (couples : Couples Pruned scene scene' node node') (outcome : Outcome) :
    Together Pruned Eq (Activation.settle scene node outcome)
      (Activation.settle scene' node' (.status outcome.effective)) := by
  unfold Activation.settle
  rw [couples.id]
  have told (status : Status) : Together Pruned Eq
      (do
        scene.report node.id .tick (some status)
        Activation.closeUnlessRunning scene node status)
      (do
        scene'.report node.id .tick (some status)
        Activation.closeUnlessRunning scene' node' status) :=
    (couples.told (by decide) _).bindEq fun _ => couples.closeUnlessRunning status
  cases outcome with
  | status status => exact told status
  | unrecognized text => exact fun _ _ linked => told .error _ _ (linked.invalid rfl)

theorem Pruned.paired {scene : Scene W} {node : Node W} (blind : scene.plan.Blind)
    (behaves : node.content.behavior.Blind) :
    Paired Pruned Outcome.Corrects scene { scene with tree := scene.tree.corrected } node
      node.corrected where
  toCouples := corrected blind behaves
  located request := by cases request <;> rfl
  patience := rfl
  asked linked := linked.see (.called linked.stage) rfl
  ticks := by
    change Option.Rel _ _ (node.content.behavior.tick.map Tick.corrected)
    cases ticks : node.content.behavior.tick with
    | none => exact .none
    | some tick => exact .some ((behaves.ticks tick ticks).attuned node.view)
  answered returned := by
    cases returned with
    | failed e => exact noted trivial rfl
    | answered corrects =>
      cases corrects
      exact .note fun linked => linked.see (.answered node.id _) rfl
  settles corrects := by
    cases corrects
    exact (corrected blind behaves).settled _

theorem Tree.correctedNode (t : Tree W) (id : NodeId) :
    t.corrected.node? id = (t.node? id).map Node.corrected := by
  simp [node?, Tree.corrected]

theorem Move.correctedStage {Memory : Type} (move : Move W Memory) :
    move.corrected.stage = move.stage := by
  cases move <;> rfl

theorem Behavior.Discreet.corrected {b : Behavior W} (discreet : b.Discreet) :
    b.corrected.Discreet where
  calls has := discreet.calls has
  starts same view stage := by
    obtain ⟨tick, ticks, rfl⟩ := Option.map_eq_some_iff.mp same
    exact (tick.start view stage).correctedStage ▸ discreet.starts ticks view stage
  resumes same memory reply stage := by
    obtain ⟨tick, ticks, rfl⟩ := Option.map_eq_some_iff.mp same
    exact (tick.resume memory reply stage).correctedStage ▸
      discreet.resumes ticks memory reply stage

def Occurrence.callback? : Occurrence W → Option (NodeId × Step × Stage W)
  | .called node step stage => some (node, step, stage)
  | _ => none

namespace Timeline

def callbacks (t : Timeline W) : List (NodeId × Step × Stage W) := t.filterMap Occurrence.callback?

theorem validFilterMap {β : Type} {f : Occurrence W → Option β}
    (silent : ∀ o : Occurrence W, o.valid = false → f o = none) (t : Timeline W) :
    t.valid.filterMap f = t.filterMap f := by
  unfold valid
  rw [List.filterMap_filter]
  refine List.filterMap_congr fun o _ => ?_
  cases valid : o.valid with
  | true => rfl
  | false => exact (silent o valid).symm

def withoutInvalid (events : List Trace.Event) : List Trace.Event :=
  events.filter fun event => event.phase ≠ .invalid

theorem validEvents (t : Timeline W) : t.valid.events = withoutInvalid t.events := by
  unfold valid events withoutInvalid
  rw [List.filterMap_filter, List.filter_filterMap]
  refine List.filterMap_congr fun o _ => ?_
  cases o with
  | reported event _ => simp [Occurrence.valid, Option.filter]
  | _ => rfl

theorem validRecord (t : Timeline W) : t.valid.record = withoutInvalid t.record := by
  unfold valid record withoutInvalid
  rw [List.filterMap_filter, List.filter_filterMap]
  refine List.filterMap_congr fun o _ => ?_
  cases o with
  | reported event recorded => cases recorded <;> simp [Occurrence.valid, Option.filter]
  | _ => rfl

variable {t u : Timeline W} (alike : List.Forall₂ Occurrence.Alike t u)
include alike

theorem alikeCallbacks : List.Forall₂ (fun c d => c.1 = d.1 ∧ c.2.1 = d.2.1 ∧ c.2.2.Alike d.2.2)
    t.callbacks u.callbacks := by
  refine List.rel_filterMap (fun o o' alike => ?_) alike
  cases alike with
  | @same o => cases o <;> first | exact .none | exact .some ⟨rfl, rfl, .refl _⟩
  | called alike => exact .some ⟨rfl, rfl, alike⟩
  | _ => exact .none

theorem alikeHandled : List.Forall₂ (fun c d => c.1 = d.1 ∧ c.2.Alike d.2) t.handled u.handled := by
  refine List.rel_filterMap (fun o o' alike => ?_) alike
  cases alike with
  | @same o =>
    cases o with
    | consulted _ responder =>
      cases responder <;> first | exact .none | exact .some ⟨rfl, .refl _⟩
    | _ => exact .none
  | @consulted _ responder _ _ alike =>
    cases responder <;> first | exact .none | exact .some ⟨rfl, alike⟩
  | _ => exact .none

theorem alikeSame {β : Type} {f : Occurrence W → Option β}
    (same : ∀ {o o'}, Occurrence.Alike o o' → f o' = f o) : u.filterMap f = t.filterMap f := by
  induction alike with
  | nil => rfl
  | cons head _ ih => simp only [List.filterMap_cons, same head, ih]

theorem alikeEvents : u.events = t.events :=
  alikeSame alike fun alike => by cases alike <;> rfl

theorem alikeRecord : u.record = t.record :=
  alikeSame alike fun alike => by cases alike <;> rfl

omit alike in
theorem alikeSplit {before' after' : Timeline W} {o' : Occurrence W}
    (alike : List.Forall₂ Occurrence.Alike t.valid (before' ++ o' :: after')) :
    ∃ (before after : Timeline W) (o : Occurrence W), t = before ++ o :: after ∧ o.Alike o' ∧
      List.Forall₂ Occurrence.Alike before.valid before' := by
  have first := List.forall₂_take_append _ _ _ alike
  have rest := List.forall₂_drop_append _ _ _ alike
  obtain ⟨o, _, here, _, dropped⟩ := List.forall₂_cons_right_iff.mp rest
  have whole := (List.take_append_drop before'.length t.valid).symm
  rw [dropped] at whole
  generalize t.valid.take before'.length = kept at first whole
  obtain ⟨early, late, rfl, earlyValid, lateValid⟩ := List.filter_eq_append_iff.mp whole
  obtain ⟨gone, after, rfl, invalid, _, _⟩ := List.filter_eq_cons_iff.mp lateValid
  have same : Timeline.valid (early ++ gone) = kept := by
    rw [valid, List.filter_append, earlyValid, List.filter_eq_nil_iff.mpr invalid, List.append_nil]
  exact ⟨early ++ gone, after, o, by simp, here, same ▸ first⟩

end Timeline

structure Corrected (tree : Tree W) (a b : Report W (Timeline W)) : Prop where
  status : b.status = a.status
  world : b.world = a.world
  seen : List.Forall₂ Occurrence.Alike a.seen.valid b.seen
  callbacks : List.Forall₂ (fun c d => c.1 = d.1 ∧ c.2.1 = d.2.1 ∧ c.2.2.Alike d.2.2)
    a.seen.callbacks b.seen.callbacks
  handled : List.Forall₂ (fun c d => c.1 = d.1 ∧ c.2.Alike d.2) a.seen.handled b.seen.handled
  events : b.seen.events = Timeline.withoutInvalid a.seen.events
  record : b.seen.record = Timeline.withoutInvalid a.seen.record
  logged : (∀ {id node}, tree.node? id = some node → node.content.behavior.Discreet) →
    ∃ base : Option Trace.Log, ∀ {before' after' : Timeline W} {o' stage'},
      b.seen = before' ++ o' :: after' → o'.stage? = some stage' →
        ∃ (before after : Timeline W) (o : Occurrence W) (stage : Stage W),
          a.seen = before ++ o :: after ∧ o.stage? = some stage ∧ o.Alike o' ∧
          stage.log? = base.map (fun log => .ofEvents (log.events ++ before.events)) ∧
          stage'.log? = base.map fun log =>
            .ofEvents (log.events ++ Timeline.withoutInvalid before.events)

theorem Occurrence.Alike.stage {o o' : Occurrence W} (alike : o.Alike o') {stage'}
    (staged : o'.stage? = some stage') : ∃ stage, o.stage? = some stage := by
  cases alike with
  | same => exact ⟨_, staged⟩
  | called | consulted => exact ⟨_, rfl⟩
  | answered => cases staged

theorem Tree.correctedDiscreet {tree : Tree W}
    (discreet : ∀ {id node}, tree.node? id = some node → node.content.behavior.Discreet) {id node}
    (found : tree.corrected.node? id = some node) : node.content.behavior.Discreet := by
  rw [tree.correctedNode] at found
  obtain ⟨_, original, rfl⟩ := Option.map_eq_some_iff.mp found
  exact (discreet original).corrected

section Run
variable {plan : Plan W} {tree : Tree W} {patience : Nat} {subject : SubjectId}
  {openNodes : OpenNodes} {world : W}

theorem Corrected.ofSeen {a b : Report W (Timeline W)} {left left'}
    (ok : plan.runTree patience tree subject openNodes world = some (a, left))
    (ok' : plan.runTree patience tree.corrected subject openNodes world = some (b, left'))
    (status : b.status = a.status) (leaves : b.world = a.world)
    (seen : List.Forall₂ Occurrence.Alike a.seen.valid b.seen) : Corrected tree a b where
  status := status
  world := leaves
  seen := seen
  callbacks := by
    have kept : a.seen.valid.callbacks = a.seen.callbacks :=
      Timeline.validFilterMap (fun o gone => by cases o <;> first | rfl | cases gone) _
    exact kept ▸ Timeline.alikeCallbacks seen
  handled := by
    have kept : a.seen.valid.handled = a.seen.handled :=
      Timeline.validFilterMap (fun o gone => by cases o <;> first | rfl | cases gone) _
    exact kept ▸ Timeline.alikeHandled seen
  events := (Timeline.alikeEvents seen).trans a.seen.validEvents
  record := (Timeline.alikeRecord seen).trans a.seen.validRecord
  logged discreet := by
    obtain ⟨_, first⟩ := Plan.runRecorded discreet ok
    obtain ⟨_, second⟩ := Plan.runRecorded (Tree.correctedDiscreet discreet) ok'
    refine ⟨(plan.equip subject tree.id openNodes world : Moment W (Timeline W)).stage.log?, ?_⟩
    intro before' after' o' stage' split' staged'
    obtain ⟨before, after, o, split, alike, upTo⟩ := Timeline.alikeSplit (split' ▸ seen)
    obtain ⟨stage, staged⟩ := alike.stage staged'
    have events := (Timeline.alikeEvents upTo).trans before.validEvents
    exact ⟨before, after, o, stage, split, staged, alike, (first.shown split staged).log,
      events ▸ (second.shown split' staged').log⟩

theorem Plan.runCorrected (blind : plan.Blind)
    (behaves : ∀ {id node}, tree.node? id = some node → node.content.behavior.Blind) :
    Option.Rel (fun p q => Corrected tree p.1 q.1 ∧ q.1.world = p.1.world ∧ q.2 = p.2)
      (plan.runTree patience tree subject openNodes world)
      (plan.runTree patience tree.corrected subject openNodes world) := by
  cases rooted : tree.root with
  | none =>
    have rooted' : tree.corrected.root = none := rooted
    have ok := Plan.runUnrooted rooted plan patience subject openNodes world
    have ok' := Plan.runUnrooted rooted' plan patience subject openNodes world
    rw [ok, ok']
    exact .some ⟨.ofSeen ok ok' rfl rfl .nil, rfl, rfl⟩
  | some root =>
    have rooted' : tree.corrected.root = some root := rooted
    let start : Moment W (Timeline W) := plan.equip subject tree.id openNodes world
    have startSeen : List.Forall₂ Occurrence.Alike start.seen.valid start.seen := by
      rcases plan.equipSeen subject tree.id openNodes world with none | equipped
      · rw [show start.seen = [] from none]
        exact .nil
      · rw [show start.seen = [.equipped start.stage] from equipped]
        exact .cons (.same trivial) .nil
    have linked : Pruned start start := ⟨.refl _, rfl, startSeen⟩
    have nodes (id : NodeId) : Option.Rel
        (Paired Pruned Outcome.Corrects { plan, tree, subject, patience }
          { plan, tree := tree.corrected, subject, patience })
        (tree.node? id) (tree.corrected.node? id) := by
      rw [tree.correctedNode]
      cases found : tree.node? id with
      | none => exact .none
      | some node => exact .some (Pruned.paired blind (behaves found))
    have together := Plan.runTogether rooted rooted' rfl linked nodes
      (fun _ => Pruned.noted trivial rfl) fun _ => Pruned.noted trivial rfl
    rcases relCases together with ⟨cut, cut'⟩ | ⟨_, _, ok, ok', status, m, n, linked, rfl, rfl⟩
    · rw [cut, cut']
      exact .none
    · rw [ok, ok']
      have world := linked.stage.world
      exact .some ⟨.ofSeen ok ok' rfl world linked.seen, world, linked.openNodes⟩

end Run

/- As long as nobody reads the trace, and whatever was left open before. -/
theorem unrecognizedAsError {tree : Tree W} {rounds : List (Round W)}
    (behaves : ∀ {id node}, tree.node? id = some node → node.content.behavior.Blind)
    (blind : ∀ round ∈ rounds, round.plan.Blind) (patience : Nat) (openNodes : OpenNodes)
    (world : W) :
    Option.Rel (Series.Beside (Corrected tree)) (tree.runs patience rounds openNodes world)
      (tree.corrected.runs patience rounds openNodes world) :=
  Tree.runsTogether (List.forall₂_same.mpr fun round mem _ _ =>
    Plan.runCorrected (blind round mem) behaves) openNodes world

theorem Behavior.Blind.ofTick {tick : Tick W} (blind : tick.Blind) :
    Behavior.Blind { tick := some tick } where
  calls callback mem a a' alike := by
    simp only [callbacks, List.mem_cons, List.not_mem_nil, or_false] at mem
    rcases mem with rfl | rfl | rfl | rfl <;> exact ⟨rfl, alike⟩
  ticks tick same := by
    cases same
    exact blind

theorem oddAsError :
    let tree := Tree.pair .relaying .odd
    let rounds : List (Round Unit) := [⟨Plan.logged, ⟨1⟩⟩, ⟨Plan.lenient, ⟨1⟩⟩]
    ∃ a b, tree.runs 1 rounds .empty () = some a ∧
      tree.corrected.runs 1 rounds .empty () = some b ∧
      a.reports.map (·.seen.record.map fun event => event.phase) = List.replicate 2
        [.enter, .opening, .enter, .opening, .invalid, .tick, .close, .exit, .tick, .close, .exit] ∧
      Series.Beside (Corrected tree) a b := by
  intro tree rounds
  have relaying : (Behavior.relaying : Behavior Unit).Blind :=
    .ofTick ⟨Eq, fun _ _ _ alike => .ask _ alike rfl, fun _ _ _ _ alike => .answer _ alike⟩
  have odd : Behavior.odd.Blind := .ofTick ⟨Eq, fun _ _ _ alike => .answer _ alike,
    fun {memory} => memory.elim⟩
  have phases : (tree.runs 1 rounds .empty ()).map
      (fun a => a.reports.map (·.seen.record.map fun event => event.phase)) =
      some (.replicate 2 [.enter, .opening, .enter, .opening, .invalid, .tick, .close, .exit, .tick,
        .close, .exit]) := by
    decide +kernel
  have behaves {id node} (found : tree.node? id = some node) : node.content.behavior.Blind := by
    rcases Tree.pairBehavior found with same | same
    · exact same ▸ relaying
    · exact same ▸ odd
  have blind : ∀ round ∈ rounds, round.plan.Blind := by
    intro round mem handler given fault a b alike
    simp only [rounds, List.mem_cons, List.not_mem_nil, or_false] at mem
    rcases mem with rfl | rfl
    · cases given
    · cases given
      exact congrArg (Prod.mk Status.failure) alike.world.symm
  rcases relCases (unrecognizedAsError behaves blind 1 .empty ()) with
    ⟨cut, _⟩ | ⟨a, b, ran, ran', beside⟩
  · rw [cut] at phases
    cases phases
  · rw [ran] at phases
    exact ⟨a, b, ran, ran', Option.some.inj phases, beside⟩

end BehaviorTree
