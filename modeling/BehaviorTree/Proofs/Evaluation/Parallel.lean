import BehaviorTree.Proofs.Evaluation.Depth
import BehaviorTree.Proofs.Evaluation.Inertness

/-! Evaluations that go alike but for some nodes, which stand aside. With nothing in the trace
slots an event leaves no mark on a toolbox, so a node whose callbacks do nothing is noticed by no
other node. What the others see and leave is then the same with it and without it. -/
namespace BehaviorTree
open Relation

variable {W : Type} {α β γ : Type}

/- Where nothing stands in the trace slots, nothing is put there. -/
def Callback.Untracing (callback : Callback W) : Prop :=
  ∀ stage, stage.Holds {} → (callback stage).2.Holds {}

inductive Move.Untraced {Memory : Type} (S : Memory → Prop) : Move W Memory → Prop where
  | answer {result stage} (bare : stage.Holds {}) : Untraced S (.answer result stage)
  | ask {request stage memory} (bare : stage.Holds {}) (remembered : S memory) :
      Untraced S (.ask request stage memory)

def Tick.Untracing (tick : Tick W) : Prop :=
  ∃ S : tick.Memory → Prop,
    (∀ view stage, stage.Holds {} → Move.Untraced S (tick.start view stage)) ∧
      ∀ {memory}, S memory → ∀ reply stage, stage.Holds {} →
        Move.Untraced S (tick.resume memory reply stage)

structure Behavior.Untracing (b : Behavior W) : Prop where
  calls : ∀ callback ∈ Behavior.callbacks, (callback b).Untracing
  ticks : ∀ tick ∈ b.tick, tick.Untracing

namespace Timeline

def without (aside : List NodeId) (t : Timeline W) : Timeline W :=
  t.filter fun o => o.node?.all (· ∉ aside)

theorem withoutSnoc (aside : List NodeId) (t : Timeline W) (o : Occurrence W) :
    without aside (t ++ [o]) = t.without aside ++ without aside [o] := List.filter_append ..

theorem withoutAside {aside : List NodeId} {o : Occurrence W} {id} (node : o.node? = some id)
    (stands : id ∈ aside) : without aside [o] = [] := by
  simp [without, node, stands]

end Timeline

/- Moments with the same stage, and the same flags and history of whatever does not stand
aside. -/
structure Parallel (aside : List NodeId) (m n : Moment W (Timeline W)) : Prop where
  stage : n.stage = m.stage
  bare : m.stage.Holds {}
  flags : ∀ id ∉ aside, n.openNodes.contains id = m.openNodes.contains id
  seen : n.seen.without aside = m.seen.without aside

namespace Parallel
variable {aside : List NodeId} {m n last : Moment W (Timeline W)}

theorem refl (bare : m.stage.Holds {}) : Parallel aside m m := ⟨rfl, bare, fun _ _ => rfl, rfl⟩

theorem symm (parallel : Parallel aside m n) : Parallel aside n m where
  stage := parallel.stage.symm
  bare := parallel.stage ▸ parallel.bare
  flags id apart := (parallel.flags id apart).symm
  seen := parallel.seen.symm

theorem trans (first : Parallel aside m n) (second : Parallel aside n last) :
    Parallel aside m last where
  stage := second.stage.trans first.stage
  bare := first.bare
  flags id apart := (second.flags id apart).trans (first.flags id apart)
  seen := second.seen.trans first.seen

theorem see (parallel : Parallel aside m n) (o : Occurrence W) :
    Parallel aside (m.see o) (n.see o) where
  stage := parallel.stage
  bare := parallel.bare
  flags := parallel.flags
  seen := by
    simp only [Moment.see, Observer.see, Timeline.withoutSnoc, parallel.seen]

theorem seeAside (bare : m.stage.Holds {}) {o : Occurrence W} {id} (node : o.node? = some id)
    (stands : id ∈ aside) : Parallel aside m (m.see o) where
  stage := rfl
  bare := bare
  flags _ _ := rfl
  seen := by
    simp only [Moment.see, Observer.see, Timeline.withoutSnoc,
      Timeline.withoutAside node stands, List.append_nil]

theorem restage (parallel : Parallel aside m n) {stage : Stage W} (bare : stage.Holds {}) :
    Parallel aside { m with stage } { n with stage } :=
  ⟨rfl, bare, parallel.flags, parallel.seen⟩

end Parallel

def Calm (aside : List NodeId) (walk : Walk W (Timeline W) α) (result : α) : Prop :=
  ∀ m, m.stage.Holds {} → ∃ last, walk m = some (result, last) ∧ Parallel aside m last

namespace Calm
variable {aside : List NodeId} {id : NodeId} (stands : id ∈ aside)

theorem pure (a : α) : Calm (W := W) aside (Pure.pure a) a :=
  fun m bare => ⟨m, rfl, .refl bare⟩

theorem bind {x : Walk W (Timeline W) α} {a : α} {f : α → Walk W (Timeline W) β} {b : β}
    (first : Calm aside x a) (rest : Calm aside (f a) b) : Calm aside (x >>= f) b := by
  intro m bare
  obtain ⟨middle, came, beside⟩ := first m bare
  obtain ⟨last, came', beside'⟩ := rest middle beside.symm.bare
  exact ⟨last, Walk.bindIff.mpr ⟨a, middle, came, came'⟩, beside.trans beside'⟩

include stands

theorem note {o : Occurrence W} (node : o.node? = some id) : Calm aside (Walk.note o) () :=
  fun _ bare => ⟨_, rfl, .seeAside bare node stands⟩

theorem report {event : Trace.Event} (about : event.node = id) :
    Calm (W := W) aside (Walk.report event) () := by
  intro m bare
  have seen : Parallel aside m (m.see (.reported event m.stage.records)) :=
    .seeAside bare (congrArg some about) stands
  refine ⟨_, rfl, { seen with stage := bare.sent event }⟩

theorem skip (step : Step) : Calm (W := W) aside (Walk.call id step .skip) (.ok ()) := by
  intro m bare
  have called : Parallel aside m (m.see (.called id step m.stage)) := .seeAside bare rfl stands
  exact ⟨_, rfl, called.trans (.seeAside (m := m.see _) called.symm.bare rfl stands)⟩

theorem setOpen (isOpen : Bool) : Calm (W := W) aside (Walk.setOpen id isOpen) () := by
  intro m bare
  have seen : Parallel aside m (m.see (.flagged id isOpen)) := .seeAside bare rfl stands
  refine ⟨_, rfl, { seen with flags := fun other apart => ?_ }⟩
  have different : other ≠ id := fun same => apart (same ▸ stands)
  cases isOpen <;> simp [Moment.see, OpenNodes.containsInsert, OpenNodes.containsErase, different]

end Calm

namespace Together
variable {aside : List NodeId} {A : α → β → Prop} {B : α → γ → Prop}
  {x : Walk W (Timeline W) α}

theorem imp {L : Link W} {A' : α → β → Prop} {y : Walk W (Timeline W) β} (both : Together L A x y)
    (imp : ∀ {a b}, A a b → A' a b) : Together L A' x y := by
  intro m n linked
  rcases relCases (both m n linked) with ⟨cut, cut'⟩ | ⟨_, _, came, came', related, linked⟩
  · rw [cut, cut']
    exact .none
  · rw [came, came']
    exact .some ⟨imp related, linked⟩

theorem flip {y : Walk W (Timeline W) β} (both : Together (Parallel aside) A x y) :
    Together (Parallel aside) (fun b a => A a b) y x := by
  intro m n linked
  rcases relCases (both n m linked.symm) with ⟨cut, cut'⟩ | ⟨p, q, came, came', related, linked⟩
  · rw [cut, cut']
    exact .none
  · rw [came, came']
    exact .some ⟨related, linked.symm⟩

theorem afterCalm {y : Walk W (Timeline W) γ} {c : γ} {f : γ → Walk W (Timeline W) β}
    (calm : Calm aside y c) (rest : Together (Parallel aside) A x (f c)) :
    Together (Parallel aside) A x (y >>= f) := by
  intro m n linked
  obtain ⟨last, came, beside⟩ := calm n linked.symm.bare
  have := rest m last (linked.trans beside)
  change Option.Rel _ (x m) ((y n).bind fun p => f p.1 p.2)
  rwa [came]

theorem beforeCalm {y : Walk W (Timeline W) β} {f : β → Walk W (Timeline W) γ}
    (both : Together (Parallel aside) A x y)
    (rest : ∀ {a b}, A a b → ∃ c, Calm aside (f b) c ∧ B a c) :
    Together (Parallel aside) B x (y >>= f) := by
  intro m n linked
  change Option.Rel _ (x m) ((y n).bind fun p => f p.1 p.2)
  rcases relCases (both m n linked) with
    ⟨cut, cut'⟩ | ⟨⟨a, m⟩, ⟨b, n⟩, came, came', related, linked⟩
  · rw [cut, cut']
    exact .none
  · obtain ⟨c, calm, related⟩ := rest related
    obtain ⟨last, ends, beside⟩ := calm n linked.symm.bare
    rw [came, came', Option.bind_some, ends]
    exact .some ⟨related, linked.trans beside⟩

end Together

namespace Parallel
variable {aside : List NodeId} {id : NodeId}

theorem noted (o : Occurrence W) : Together (Parallel aside) Eq (Walk.note o) (Walk.note o) :=
  .note fun parallel => parallel.see o

theorem report (event : Trace.Event) :
    Together (Parallel (W := W) aside) Eq (Walk.report event) (Walk.report event) := by
  intro m n parallel
  have sent : Parallel aside
      { m.see (.reported event m.stage.records) with stage := m.stage.sent event }
      { n.see (.reported event n.stage.records) with stage := n.stage.sent event } := by
    rw [parallel.stage, parallel.bare.sent]
    exact (parallel.see _).restage parallel.bare
  exact .some ⟨rfl, sent⟩

theorem told {scene scene' : Scene W} (subject : scene'.subject = scene.subject)
    (phase : Trace.Phase) (status : Option Status) :
    Together (Parallel aside) Eq (scene.report id phase status)
      (scene'.report id phase status) := by
  unfold Scene.report
  rw [subject]
  exact report _

theorem isOpen (apart : id ∉ aside) :
    Together (Parallel (W := W) aside) Eq (Walk.isOpen id) (Walk.isOpen id) :=
  fun _ _ parallel => .some ⟨(parallel.flags id apart).symm, parallel⟩

theorem setOpen (id : NodeId) (isOpen : Bool) :
    Together (Parallel (W := W) aside) Eq (Walk.setOpen id isOpen) (Walk.setOpen id isOpen) := by
  intro m n parallel
  have seen := parallel.see (.flagged id isOpen)
  refine .some ⟨rfl, { seen with flags := fun other apart => ?_ }⟩
  have same := parallel.flags other apart
  cases isOpen <;> simp [Moment.see, OpenNodes.containsInsert, OpenNodes.containsErase, same]

theorem call {step : Step} {callback : Callback W} (untracing : callback.Untracing) :
    Together (Parallel aside) Eq (Walk.call id step callback) (Walk.call id step callback) := by
  intro m n parallel
  have came : Parallel aside
      ({ m.see (.called id step m.stage) with stage := (callback m.stage).2 }.see
        (.returned id step (.ofResult (callback m.stage).1)))
      ({ n.see (.called id step n.stage) with stage := (callback n.stage).2 }.see
        (.returned id step (.ofResult (callback n.stage).1))) := by
    rw [parallel.stage]
    exact ((parallel.see _).restage (untracing m.stage parallel.bare)).see _
  exact .some ⟨congrArg (fun stage => (callback stage).1) parallel.stage.symm, came⟩

theorem contain {scene scene' : Scene W} (handler : scene'.plan.handler = scene.plan.handler)
    (fault : Fault) :
    Together (Parallel aside) Eq (scene.contain fault) (scene'.contain fault) := by
  refine .contain (fun {m n} parallel => ?_) (fun parallel => ?_) (fun {m n} parallel => ?_)
    (fun parallel world => ?_) (fun parallel status => parallel.see _) fun _ _ => report _
  · unfold Scene.respond
    rw [handler, parallel.stage]
  · rw [parallel.stage]
  · have responder : scene'.responder n.stage = scene.responder m.stage := by
      unfold Scene.responder
      rw [handler, parallel.stage]
    rw [responder, parallel.stage]
    exact parallel.see _
  · rw [parallel.stage]
    exact parallel.restage ⟨parallel.bare.log, parallel.bare.sink⟩

theorem attuned {tick : Tick W} (untracing : tick.Untracing) (view : View) :
    ∃ S, Attuned (Parallel aside) Eq view view tick tick S := by
  obtain ⟨S, starts, resumes⟩ := untracing
  have hands {m n : Moment W (Timeline W)} {move : Move W tick.Memory}
      (parallel : Parallel aside m n) (untraced : Move.Untraced S move) :
      Abreast Eq (fun memory memory' => S memory ∧ memory' = memory) move move ∧
        Parallel aside { m with stage := move.stage } { n with stage := move.stage } := by
    cases untraced with
    | answer bare => exact ⟨.answer (.same _), parallel.restage bare⟩
    | ask bare remembered => exact ⟨.ask ⟨remembered, rfl⟩, parallel.restage bare⟩
  refine ⟨fun memory memory' => S memory ∧ memory' = memory, fun {m n} parallel => ?_,
    fun {m n memory memory'} parallel remembered reply => ?_⟩
  · rw [parallel.stage]
    exact hands parallel (starts view m.stage parallel.bare)
  · obtain ⟨kept, rfl⟩ := remembered
    rw [parallel.stage]
    exact hands parallel (resumes kept reply m.stage parallel.bare)

theorem coupled {scene scene' : Scene W} {node node' : Node W} (scenes : scene.Twin scene')
    (id : node'.id = node.id) (behavior : node'.content.behavior = node.content.behavior)
    (untracing : node.content.behavior.Untracing) (apart : node.id ∉ aside) :
    Couples (Parallel aside) scene scene' node node' where
  id := id
  began := noted _
  ended _ := noted _
  opened := .openWhenClosed id (isOpen apart) (told scenes.subject _ _) (by
    rw [behavior]
    exact call (untracing.calls Behavior.onOpen (by simp [Behavior.callbacks])))
  flagged := setOpen node.id
  told _ := told scenes.subject _
  called _ callback mem := by
    rw [behavior]
    exact call (untracing.calls callback mem)
  contained := contain scenes.handler

theorem paired {scene scene' : Scene W} {node node' : Node W} (scenes : scene.Twin scene')
    (nodes : node.Twin node') (untracing : node.content.behavior.Untracing)
    (apart : node.id ∉ aside) : Paired (Parallel aside) Eq scene scene' node node' := by
  have couples : Couples (Parallel aside) scene scene' node node' :=
    coupled scenes nodes.id (congrArg Instance.behavior nodes.content) untracing apart
  exact {
    toCouples := couples
    located := nodes.located
    patience := scenes.patience
    asked := fun parallel => by
      rw [parallel.stage]
      exact parallel.see _
    ticks := by
      rw [nodes.content, nodes.view]
      exact relSelf fun _ ticks => attuned (untracing.ticks _ ticks) node.view
    answered := fun returned => by
      cases returned with
      | failed => exact noted _
      | answered same => exact same ▸ noted _
    settles := fun same => same ▸ couples.settle _ (told scenes.subject _ _)
  }

end Parallel

namespace Tree
variable {t t' : Tree W} {room depth : Nat} {id : NodeId}

inductive Fits (t : Tree W) : Nat → NodeId → Prop where
  | node {room id node} (found : t.node? id = some node)
      (below : ∀ {request child}, node.locate request = .ok child → Fits t room child) :
      Fits t (room + 1) id

theorem Fits.asked (fits : t.Fits room id) : ∃ node, t.node? id = some node ∧
    ∀ {request child}, node.locate request = .ok child → t.Fits (room - 1) child := by
  cases fits with
  | node found below => exact ⟨_, found, below⟩

theorem Forest.fits (forest : t.Forest) (known : (t.node? id).isSome) (here : t.AtDepth depth id)
    (shallow : ∀ {deeper other}, t.AtDepth deeper other → deeper < depth + room) :
    t.Fits room id := by
  induction room generalizing depth id with
  | zero => exact absurd (shallow here) (Nat.lt_irrefl _)
  | succ room ih =>
    obtain ⟨node, found⟩ := Option.isSome_iff_exists.mp known
    refine .node found fun located => ?_
    have mem := locatedChild located
    have under := (forest.linked found).mp mem
    refine ih (Tree.Forest.knownOfParent under)
      (.child here (by simpa [childrenOf, found] using mem)) fun deep => ?_
    have bound := shallow deep
    omega

structure Shares (t t' : Tree W) (id : NodeId) : Prop where
  twins : Option.Rel Node.Twin (t.node? id) (t'.node? id)
  untracing : ∀ {node}, t.node? id = some node → node.content.behavior.Untracing

theorem Shares.asks (shares : t.Shares t' id) {child} (asks : t.Asks id child) :
    t'.Asks id child := by
  obtain ⟨node, request, found, located⟩ := asks
  rcases relCases shares.twins with ⟨none, _⟩ | ⟨_, node', found', there, twins⟩
  · cases none.symm.trans found
  · cases found.symm.trans found'
    exact ⟨node', request, there, (twins.located request).trans located⟩

theorem Shares.reaches {aside : List NodeId}
    (shares : ∀ {other}, t.Reaches id other → other ∉ aside → t.Shares t' other)
    (never : ∀ other ∈ aside, t.Reaches id other → ¬ t'.Reaches id other) {other}
    (reaches : t.Reaches id other) : other ∉ aside ∧ t'.Reaches id other := by
  induction reaches with
  | refl => exact ⟨fun stands => never id stands .refl .refl, .refl⟩
  | tail before asks ih =>
    have further := ih.2.tail ((shares before ih.1).asks asks)
    exact ⟨fun stands => never _ stands (before.tail asks) further, further⟩

end Tree

def Node.leaf (id parent : NodeId) (behavior : Behavior W) : Node W where
  id
  content := .detached "Leaf" .leaf behavior .empty
  parent := some parent

namespace Tree
variable {t t' : Tree W}

theorem Shares.leaf {behavior : Behavior W} (untracing : behavior.Untracing)
    {child other id parent parent'} (found : t.node? child = some (.leaf other parent behavior))
    (found' : t'.node? child = some (.leaf other parent' behavior)) (reaches : t.Reaches child id) :
    t.Shares t' id := by
  rcases ReflTransGen.cases_head reaches with rfl | ⟨_, ⟨node, _, there, located⟩, _⟩
  · refine ⟨?_, fun there => ?_⟩
    · rw [found, found']
      exact .some ⟨rfl, rfl, rfl, fun _ => rfl⟩
    · cases found.symm.trans there
      exact untracing
  · cases found.symm.trans there
    cases locatedChild located

namespace Forest
variable {parent other child : NodeId}

theorem asksOnce (forest : t.Forest) (asks : t.Asks parent child) (asks' : t.Asks other child) :
    parent = other :=
  Option.some.inj ((forest.underOfAsks asks).symm.trans (forest.underOfAsks asks'))

theorem noReturnFar (forest : t.Forest) (below : TransGen t.Asks parent child) :
    ¬ t.Reaches child parent := by
  obtain ⟨next, asks, rest⟩ := TransGen.head'_iff.mp below
  exact fun reaches => forest.noReturn asks (rest.trans reaches)

theorem reachesOver (forest : t.Forest) (asks : t.Asks parent child)
    (reaches : t.Reaches other child) : other = child ∨ t.Reaches other parent := by
  rcases ReflTransGen.cases_tail reaches with same | ⟨above, reaches, asks'⟩
  · exact .inl same.symm
  · exact .inr (forest.asksOnce asks asks' ▸ reaches)

end Forest

end Tree

section Evaluation
variable {aside : List NodeId} {scene scene' : Scene W}

/- Nodes are evaluated alike if they are known to be, or if both trees share them and this holds of
whatever they ask for. -/
theorem evaluateParallel (inside : NodeId → Prop) (twin : scene.Twin scene')
    (forest : scene.tree.Forest)
    (each : ∀ {id}, inside id →
      (id ∉ aside ∧ scene.tree.Shares scene'.tree id ∧
        ∀ {child}, scene.tree.Asks id child → inside child) ∨
      ∀ {room room'}, scene.tree.Fits room id → scene'.tree.Fits room' id →
        Together (Parallel aside) Eq (evaluate scene room id) (evaluate scene' room' id))
    {id : NodeId} {room room' : Nat} (here : inside id) (fits : scene.tree.Fits room id)
    (fits' : scene'.tree.Fits room' id) :
    Together (Parallel aside) Eq (evaluate scene room id) (evaluate scene' room' id) := by
  induction room generalizing room' id with
  | zero => cases fits
  | succ room ih =>
    rcases each here with ⟨apart, shares, closed⟩ | known
    · obtain ⟨node, found, below⟩ := fits.asked
      obtain ⟨node', found', below'⟩ := fits'.asked
      have twins : node.Twin node' := by
        rcases relCases shares.twins with ⟨none, _⟩ | ⟨_, _, there, there', twins⟩
        · cases none.symm.trans found
        · cases there.symm.trans found
          cases there'.symm.trans found'
          exact twins
      have apart : node.id ∉ aside := forest.numbered found ▸ apart
      cases room' with
      | zero => cases fits'
      | succ room' =>
        unfold evaluate
        simp only [found, found']
        refine (Parallel.paired twin twins (shares.untracing found) apart).activate ?_
        intro request child located
        exact ih (closed ⟨node, request, found, located⟩) (below located)
          (below' ((twins.located request).trans located))
    · exact known fits fits'

theorem sharedParallel (twin : scene.Twin scene') (forest : scene.tree.Forest) {id : NodeId}
    (shares : ∀ {other}, scene.tree.Reaches id other → other ∉ aside →
      scene.tree.Shares scene'.tree other)
    (never : ∀ other ∈ aside, scene.tree.Reaches id other → ¬ scene'.tree.Reaches id other)
    {room room' : Nat} (fits : scene.tree.Fits room id) (fits' : scene'.tree.Fits room' id) :
    Together (Parallel aside) Eq (evaluate scene room id) (evaluate scene' room' id) := by
  have apart {other} (reaches : scene.tree.Reaches id other) : other ∉ aside :=
    (Tree.Shares.reaches shares never reaches).1
  exact evaluateParallel (scene.tree.Reaches id) twin forest (fun reaches =>
    .inl ⟨apart reaches, shares reaches (apart reaches), fun asks => .tail reaches asks⟩) .refl fits
    fits'

end Evaluation

def Plan.Covers (plan : Plan W) (t : Tree W) : Prop :=
  ∀ {depth id}, t.AtDepth depth id → depth ≤ plan.maxDepth.toNat

theorem Plan.Covers.fits {plan : Plan W} {t : Tree W} (covers : plan.Covers t)
    (forest : t.Forest) {root} (rooted : t.root = some root) : t.Fits plan.room root := by
  obtain ⟨node, found, _⟩ := forest.rooted rooted
  refine forest.fits (Option.isSome_of_eq_some found) (.root rooted) fun deep => ?_
  rw [Plan.room]
  have bound := covers deep
  omega

theorem Plan.Covers.ofSize {plan : Plan W} {t : Tree W} (forest : t.Forest)
    (small : t.size ≤ plan.room) : plan.Covers t := by
  intro depth id deep
  obtain ⟨root, rooted⟩ := deep.rooted
  have fewer := forest.depthLess rooted deep
  rw [Plan.room] at small
  omega

theorem Plan.runParallel {plan : Plan W} {t t' : Tree W} {aside : List NodeId} {patience subject}
    {openNodes openNodes' : OpenNodes} {world root root'} (rooted : t.root = some root)
    (rooted' : t'.root = some root') (named : t'.id = t.id)
    (bare : (plan.equip subject t.id openNodes world : Moment W (Timeline W)).stage.Holds {})
    (flags : ∀ id ∉ aside, openNodes'.contains id = openNodes.contains id)
    (together : Together (Parallel aside) Eq
      (evaluate { plan, tree := t, subject, patience } plan.room root)
      (evaluate { plan, tree := t', subject, patience } plan.room root')) :
    Option.Rel (Link.Meets (Parallel aside)) (plan.runTree patience t subject openNodes world)
      (plan.runTree patience t' subject openNodes' world) := by
  refine Plan.runBeside rooted rooted' ?_ together
  rw [named]
  unfold Plan.equip at bare ⊢
  generalize plan.factory = factory at bare ⊢
  cases factory <;> exact ⟨rfl, bare, flags, rfl⟩

end BehaviorTree
