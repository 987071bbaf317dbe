import BehaviorTree.Proofs.Evaluation.Parallel
import BehaviorTree.Proofs.Evaluation.Surplus
import BehaviorTree.Proofs.Native.Composite
import BehaviorTree.Proofs.Native.Forecast
import BehaviorTree.Proofs.Native.Repeater

/-! Native nodes as wrappers of what is below them. Each of them comes to what its children come to,
one after the other, and adds only what concerns itself. So it may stand aside: a walk through the
children alone is parallel to the evaluation of the node. -/
namespace BehaviorTree

variable {W T : Type} {α : Type}

structure Tree.Over (t : Tree W) (id : NodeId) (n : Native) (children : List NodeId)
    (node : Node W) : Prop where
  found : t.node? id = some node
  kind : node.kind = n.kind
  carries : node.content.behavior = n.behavior
  served : node.served = children

namespace Tree.Over
variable {t : Tree W} {id : NodeId} {n : Native} {children : List NodeId} {node : Node W}
  (heads : t.Over id n children node)
include heads

theorem indexed (composite : n.kind = .composite) : node.indexed = children := by
  have kind := heads.kind.trans composite
  have served := heads.served
  rw [Node.served, kind] at served
  exact (if_pos kind).trans served

theorem located {child rest} (decorator : n.kind = .decorator) (first : children = child :: rest) :
    node.locate .child = .ok child := by
  have kind := heads.kind.trans decorator
  have served := heads.served
  rw [Node.served, kind, first] at served
  rw [Node.locate, if_pos kind]
  cases below : node.children with
  | nil => simp [below] at served
  | cons other rest =>
    rw [below] at served
    cases served
    rfl

theorem asks {child} (mem : child ∈ children) : t.Asks id child := by
  have mem : child ∈ node.served := heads.served ▸ mem
  refine asksExact.mpr ?_
  unfold Node.served at mem
  split at mem
  · rename_i kind
    exact .composite heads.found kind mem
  · rename_i kind
    cases below : node.children with
    | nil => simp [below] at mem
    | cons first rest =>
      rw [below] at mem
      cases List.mem_singleton.mp mem
      exact .decorator heads.found kind below
  · cases mem

theorem fits {room} (fits : t.Fits room id) :
    ∃ below, room = below + 1 ∧ ∀ child ∈ children, t.Fits below child := by
  cases fits with
  | node found below =>
    refine ⟨_, rfl, fun child mem => ?_⟩
    obtain ⟨_, _, found', located⟩ := heads.asks mem
    cases found.symm.trans found'
    exact below located

end Tree.Over

namespace Native

def march (descend : NodeId → Walk W T Status) (passing : Status) : List NodeId → Walk W T Status
  | [] => pure passing
  | child :: rest => do
    let status ← descend child
    if status = passing then march descend passing rest else pure status

-- One child again and again, as far as the bound and the patience go.
def rounds (descend : Walk W T Status) (again : Status → Bool) (bound : Option UInt64) :
    Nat → UInt64 → Walk W T Status
  | 0, _ => fun _ => none
  | patience + 1, done => do
    let status ← descend
    if Rounds.another ⟨bound, done⟩ && again status then
      rounds descend again bound patience (done + 1)
    else pure status

def answering (walk : Walk W T Status) : Walk W T (Except CallbackError Outcome) := do
  let status ← walk
  pure (.ok (.status status))

def talk (scene : Scene W) (descend : NodeId → Walk W T Status) (node : Node W) (tick : Tick W) :
    Walk W T (Except CallbackError Outcome) := fun m =>
  Activation.converse descend node tick scene.patience (tick.start node.view m.stage) m.openNodes
    m.seen

variable {descend : NodeId → Walk W T Status} {passing status : Status}
  {children : List NodeId} {visits : List (NodeId × Status)} {m last middle : Moment W T}

theorem answeringEq (walk : Walk W T Status) (m : Moment W T) :
    answering walk m = (walk m).map fun (status, last) => (.ok (.status status), last) := by
  change (walk m).bind _ = _
  cases walk m <;> rfl

theorem marchPlays (succession : Succession descend m visits last)
    (upTo : UpTo passing children visits status) :
    march descend passing children m = some (status, last) := by
  induction upTo generalizing m with
  | nothing =>
    cases succession
    rfl
  | stops other =>
    cases succession with
    | next came later =>
      cases later
      refine Walk.bindIff.mpr ⟨_, _, came, ?_⟩
      rw [if_neg other]
      rfl
  | passes _ ih =>
    cases succession with
    | next came later =>
      refine Walk.bindIff.mpr ⟨_, _, came, ?_⟩
      rw [if_pos rfl]
      exact ih later

theorem marchStuck {child rest} (succession : Succession descend m visits middle)
    (passed : ∀ visit ∈ visits, visit.2 = passing) (stuck : descend child middle = none) :
    march descend passing (visits.map Prod.fst ++ child :: rest) m = none := by
  induction visits generalizing m with
  | nil =>
    cases succession
    change (descend child middle).bind _ = none
    rw [stuck]
    rfl
  | cons visit visits ih =>
    obtain ⟨rfl, passed⟩ := List.forall_mem_cons.mp passed
    cases succession with
    | next came later =>
      change (descend _ m).bind _ = none
      rw [came]
      simpa using ih later passed

theorem marchAppend (descend : NodeId → Walk W T Status) (passing : Status)
    (before after : List NodeId) :
    march descend passing (before ++ after) = (do
      let status ← march descend passing before
      if status = passing then march descend passing after else pure status) := by
  induction before with
  | nil => simp [march]
  | cons child rest ih =>
    simp only [List.cons_append, march, ih, bind_assoc]
    refine bind_congr fun status => ?_
    split
    · rfl
    · rename_i other
      rw [pure_bind, if_neg other]

theorem marchBeside {L : Link W} {descend descend' : NodeId → Walk W (Timeline W) Status}
    {change : Status → Status} {passing passing' : Status}
    (alike : ∀ status, change status = passing' ↔ status = passing) {children children'}
    (each : List.Forall₂ (fun child child' => Together L (fun status status' =>
      status' = change status) (descend child) (descend' child')) children children') :
    Together L (fun status status' => status' = change status)
      (march descend passing children) (march descend' passing' children') := by
  induction each with
  | nil => exact .pure ((alike passing).mpr rfl).symm
  | cons first _ ih =>
    refine first.bind ?_
    rintro status _ rfl
    by_cases passes : status = passing
    · rw [if_pos passes, if_pos ((alike status).mpr passes)]
      exact ih
    · rw [if_neg passes, if_neg fun same => passes ((alike status).mp same)]
      exact .pure rfl

theorem marchSame {L : Link W} {descend descend' : NodeId → Walk W (Timeline W) Status}
    (passing : Status) {children : List NodeId}
    (each : ∀ child ∈ children, Together L Eq (descend child) (descend' child)) :
    Together L Eq (march descend passing children) (march descend' passing children) := by
  have same : List.Forall₂ (fun child child' => Together L (fun status status' =>
      status' = id status) (descend child) (descend' child')) children children :=
    List.forall₂_same.mpr fun child mem => (each child mem).imp Eq.symm
  exact (marchBeside (fun _ => Iff.rfl) same).imp Eq.symm

theorem roundsBeside {L : Link W} {x y : Walk W (Timeline W) Status} {change : Status → Status}
    (again again' : Status → Bool) (alike : ∀ status, again' (change status) = again status)
    (each : Together L (fun status status' => status' = change status) x y)
    (bound : Option UInt64) (patience : Nat) (done : UInt64) :
    Together L (fun status status' => status' = change status)
      (rounds x again bound patience done) (rounds y again' bound patience done) := by
  induction patience generalizing done with
  | zero => exact fun _ _ _ => .none
  | succ patience ih =>
    refine each.bind ?_
    rintro status _ rfl
    rw [alike]
    split
    · exact ih (done + 1)
    · exact .pure rfl

variable {scene : Scene W} {node : Node W}

theorem talkInOrder (patient : node.indexed.length ≤ scene.patience) :
    talk scene descend node (inOrder passing) =
      answering (march descend passing node.indexed) := by
  funext m
  rw [answeringEq]
  rcases Succession.upTo descend passing node.indexed m with
    ⟨visits, status, last, succession, upTo⟩ |
    ⟨visits, child, rest, middle, succession, children, passed, stuck⟩
  · have few : visits.length ≤ scene.patience := by
      have inOrder := upTo.needed.inOrder.length_le
      rw [List.length_map] at inOrder
      exact inOrder.trans patient
    rw [marchPlays succession upTo, talk, inOrderPlays succession upTo, if_pos few]
    rfl
  · rw [talk, inOrderStuck succession children passed stuck, children,
      marchStuck succession passed stuck]
    rfl

theorem converseOffered {tick : Tick W} {request child} (located : node.locate request = .ok child)
    (patience : Nat) (memory : tick.Memory) (m : Moment W T) :
    Activation.converse descend node tick (patience + 1) (.ask request m.stage memory) m.openNodes
        m.seen =
      (descend child m).bind fun (status, middle) =>
        Activation.converse descend node tick patience
          (tick.resume memory (.ok status) middle.stage) middle.openNodes middle.seen := by
  rw [Activation.converseAsk, Activation.serveOffered located]
  cases descend child m <;> rfl

theorem talkInverting {child} (located : node.locate .child = .ok child)
    (patient : 0 < scene.patience) :
    talk scene descend node inverting = answering (Status.invert <$> descend child) := by
  funext m
  obtain ⟨more, enough⟩ : ∃ more, scene.patience = more + 1 := ⟨scene.patience - 1, by omega⟩
  rw [talk, enough, answeringEq]
  refine (converseOffered located more _ m).trans ?_
  change _ = ((descend child m).bind _).map _
  cases descend child m with
  | none => rfl
  | some came => cases more <;> rfl

theorem converseRounds {unbounded : Bool} {again : Status → Bool} {bound : Option UInt64} {child}
    (located : node.locate .child = .ok child) (patience : Nat) (done : UInt64) (m : Moment W T) :
    Activation.converse descend node (repeating unbounded again) patience
        (.ask .child m.stage (Rounds.mk bound done)) m.openNodes m.seen =
      answering (rounds (descend child) again bound patience done) m := by
  induction patience generalizing done m with
  | zero => rfl
  | succ patience ih =>
    refine (converseOffered located patience _ m).trans ?_
    rw [answeringEq]
    change _ = ((descend child m).bind _).map _
    cases descend child m with
    | none => rfl
    | some came =>
      obtain ⟨status, middle⟩ := came
      simp only [Option.bind_some]
      by_cases more : (Rounds.another ⟨bound, done⟩ && again status) = true
      · have asks : (repeating unbounded again).resume (Rounds.mk bound done) (.ok status)
            middle.stage = .ask .child middle.stage (Rounds.mk bound (done + 1)) := if_pos more
        rw [asks, ih, if_pos more, answeringEq]
      · have answers : (repeating unbounded again).resume (Rounds.mk bound done) (.ok status)
            middle.stage = .answer (.ok (.status status)) middle.stage := if_neg more
        rw [answers, if_neg more]
        cases patience <;> rfl

theorem talkRepeating {unbounded : Bool} {again : Status → Bool} {bound : Option UInt64} {child}
    (valid : maxLoop node.content.properties unbounded = .ok bound)
    (located : node.locate .child = .ok child) :
    talk scene descend node (repeating unbounded again) =
      answering (rounds (descend child) again bound scene.patience 1) := by
  funext m
  have valid : maxLoop node.view.properties unbounded = .ok bound := valid
  rw [talk, repeatingStarts valid, converseRounds located]

end Native

section Activations
variable {aside : List NodeId} {scene : Scene W} {node : Node W}
  {descend : NodeId → Walk W (Timeline W) Status} {x : Walk W (Timeline W) α}
  {A : α → Status → Prop}

theorem Together.answering {y : Walk W (Timeline W) Status} {L : Link W}
    (inner : Together L A x y) :
    Together L (fun a result => ∃ status, result = .ok (.status status) ∧ A a status) x
      (Native.answering y) := by
  intro m n linked
  rw [Native.answeringEq]
  rcases relCases (inner m n linked) with ⟨cut, cut'⟩ | ⟨_, _, came, came', related, linked⟩
  · rw [cut, cut']
    exact .none
  · rw [came, came']
    exact .some ⟨⟨_, rfl, related⟩, linked⟩

namespace Calm
variable (stands : node.id ∈ aside)
include stands

theorem openWhenClosed (skips : node.content.behavior.onOpen = .skip) :
    Calm aside (Activation.openWhenClosed scene node) (.ok ()) := by
  intro m bare
  unfold Activation.openWhenClosed
  rw [skips]
  change ∃ last, (if m.openNodes.contains node.id then _ else _ : Walk W _ _) m = _ ∧ _
  split
  · exact ⟨m, rfl, .refl bare⟩
  · exact ((report stands rfl).bind (skip stands .opening)) m bare

theorem settle (skips : node.content.behavior.onClose = .skip) (status : Status) :
    Calm aside (Activation.settle scene node (.status status)) (.ok status) := by
  have told (phase : Trace.Phase) (status : Option Status) :
      Calm aside (scene.report node.id phase status) () := report stands rfl
  have closes : Calm aside (Activation.closeUnlessRunning scene node status) (.ok status) := by
    unfold Activation.closeUnlessRunning
    rw [skips]
    split
    · exact (setOpen stands true).bind (pure _)
    · exact (told _ _).bind ((skip stands .close).bind ((setOpen stands false).bind (pure _)))
  exact (told _ _).bind closes

theorem leave (skips : node.content.behavior.onExit = .skip) (status : Status) :
    Calm aside (Activation.leave scene node status) status := by
  unfold Activation.leave
  rw [skips]
  exact (report stands rfl).bind ((skip stands .exit).bind (pure _))

end Calm

namespace Parallel
variable (stands : node.id ∈ aside)
include stands

theorem tickNode {tick : Tick W} (ticks : node.content.behavior.tick = some tick)
    {R : α → Except CallbackError Outcome → Prop}
    (talks : Together (Parallel aside) R x (Native.talk scene descend node tick)) :
    Together (Parallel aside) R x (Activation.tickNode scene descend node) := by
  intro m n linked
  have called : Parallel aside m (node.called n) :=
    linked.trans (.seeAside linked.symm.bare rfl stands)
  rw [Activation.tickNodePlays ticks]
  rcases relCases (talks m _ called) with ⟨cut, cut'⟩ | ⟨p, q, came, came', related, told⟩
  · rw [Native.talk] at cut'
    rw [cut, cut']
    exact .none
  · rw [Native.talk] at came'
    rw [came, came']
    exact .some ⟨related, told.trans (.seeAside told.symm.bare rfl stands)⟩

theorem activate {n : Native} (carries : node.content.behavior = n.behavior)
    (talks : Together (Parallel aside) (fun a result => ∃ s, result = .ok (.status s) ∧ A a s) x
      (Native.talk scene descend node n.tick)) :
    Together (Parallel aside) A x (Activation.activate scene descend node) := by
  have skips {callback : Behavior W → Callback W} (mem : callback ∈ Behavior.callbacks) :
      callback node.content.behavior = .skip := by
    rw [carries]
    exact n.behaviorSkips (n.behavior.hasCallback mem)
  have enters : node.content.behavior.onEnter = .skip := skips (by simp [Behavior.callbacks])
  have opens : node.content.behavior.onOpen = .skip := skips (by simp [Behavior.callbacks])
  have closes : node.content.behavior.onClose = .skip := skips (by simp [Behavior.callbacks])
  have exits : node.content.behavior.onExit = .skip := skips (by simp [Behavior.callbacks])
  have ticked := tickNode stands (by rw [carries]; rfl) talks
  have stepped : Together (Parallel aside) (fun a result => ∃ s, result = .ok s ∧ A a s) x
      (Activation.steps scene descend node) := by
    unfold Activation.steps
    refine .afterCalm (.report stands rfl) ?_
    rw [enters]
    refine .afterCalm (.skip stands .enter) (.afterCalm (.openWhenClosed stands opens) ?_)
    refine ticked.beforeCalm ?_
    rintro a _ ⟨s, rfl, related⟩
    exact ⟨.ok s, .settle stands closes s, s, rfl, related⟩
  refine .afterCalm (.note stands rfl) (stepped.beforeCalm ?_)
  rintro a _ ⟨s, rfl, related⟩
  exact ⟨s, (Calm.pure s).bind ((Calm.leave stands exits s).bind
    ((Calm.note stands rfl).bind (.pure s))), related⟩

end Parallel

theorem Native.Unstaged.untraced {Memory : Type} {move : Stage W → Move W Memory}
    (unstaged : Native.Unstaged move) {stage : Stage W} (bare : stage.Holds {}) :
    Move.Untraced (fun _ => True) (move stage) := by
  cases unstaged with
  | answers result => exact .answer bare
  | asks request memory => exact .ask bare trivial

theorem Behavior.Untracing.native (n : Native) : (n.behavior : Behavior W).Untracing where
  calls callback mem := by
    rw [n.behaviorSkips (n.behavior.hasCallback mem)]
    exact fun _ bare => bare
  ticks tick same := by
    rw [n.behaviorTick] at same
    cases same
    exact ⟨fun _ => True, fun view _ bare => (n.policy.startUnstaged view).untraced bare,
      fun {memory} _ reply _ bare => (n.policy.resumeUnstaged memory reply).untraced bare⟩

theorem Behavior.Untracing.improving : Behavior.improving.Untracing where
  calls callback mem stage bare := by
    simp only [callbacks, List.mem_cons, List.not_mem_nil, or_false] at mem
    rcases mem with rfl | rfl | rfl | rfl <;> exact bare
  ticks tick same := by
    cases same
    exact ⟨fun _ => True, fun _ _ bare => .answer ⟨bare.log, bare.sink⟩,
      fun {memory} => memory.elim⟩

/- A native node that does not stand aside, over other children in the one tree than in the
other. What its tick comes to is the same. -/
theorem Parallel.activateBoth {scene' : Scene W} {node' : Node W}
    {descend' : NodeId → Walk W (Timeline W) Status} (twin : scene.Twin scene') {n : Native}
    (id : node'.id = node.id) (carries : node.content.behavior = n.behavior)
    (carries' : node'.content.behavior = n.behavior) (apart : node.id ∉ aside)
    (talks : Together (Parallel aside) Eq (Native.talk scene descend node n.tick)
      (Native.talk scene' descend' node' n.tick)) :
    Together (Parallel aside) Eq (Activation.activate scene descend node)
      (Activation.activate scene' descend' node') := by
  have couples : Couples (Parallel aside) scene scene' node node' :=
    coupled twin id (carries'.trans carries.symm) (carries ▸ .native n) apart
  have ticks : node.content.behavior.tick = some n.tick := by rw [carries]; rfl
  have ticks' : node'.content.behavior.tick = some n.tick := by rw [carries']; rfl
  have ticked : Together (Parallel aside) (Returned Eq) (Activation.tickNode scene descend node)
      (Activation.tickNode scene' descend' node') := by
    intro m n linked
    have called : Parallel aside (node.called m) (node'.called n) := by
      unfold Node.called
      rw [id, linked.stage]
      exact linked.see _
    rw [Activation.tickNodePlays ticks, Activation.tickNodePlays ticks']
    rcases relCases (talks _ _ called) with
      ⟨cut, cut'⟩ | ⟨⟨result, _⟩, ⟨_, _⟩, came, came', rfl, told⟩
    · rw [Native.talk] at cut cut'
      rw [cut, cut']
      exact .none
    · rw [Native.talk] at came came'
      rw [came, came']
      refine .some ⟨.same result, ?_⟩
      unfold Node.returned
      rw [id]
      exact told.see _
  exact couples.activate ticked fun same => same ▸ couples.settle _ (told twin.subject _ _)

end Activations

section Evaluation
variable {aside : List NodeId} {scene : Scene W} (forest : scene.tree.Forest) {id child : NodeId}
  (stands : id ∈ aside) {n : Native} {node : Node W} {children : List NodeId} {room : Nat}
  {x : Walk W (Timeline W) α} {A : α → Status → Prop}
include forest stands

theorem Tree.Over.evaluate (heads : scene.tree.Over id n children node)
    {y : Walk W (Timeline W) Status}
    (talks : Native.talk scene (BehaviorTree.evaluate scene room) node n.tick =
      Native.answering y) (inner : Together (Parallel aside) A x y) :
    Together (Parallel aside) A x (BehaviorTree.evaluate scene (room + 1) id) := by
  have stands : node.id ∈ aside := (forest.numbered heads.found).symm ▸ stands
  simp only [BehaviorTree.evaluate, heads.found]
  exact Parallel.activate stands heads.carries (talks.symm ▸ inner.answering)

theorem compositeParallel {passing : Status} (passes : n.Passes passing)
    (heads : scene.tree.Over id n children node) (patient : children.length ≤ scene.patience)
    (inner : Together (Parallel aside) A x
      (Native.march (evaluate scene room) passing children)) :
    Together (Parallel aside) A x (evaluate scene (room + 1) id) := by
  have indexed := heads.indexed (by cases passes <;> rfl)
  refine heads.evaluate forest stands ?_ inner
  rw [passes.tick, Native.talkInOrder (indexed ▸ patient), indexed]

theorem inverterParallel (heads : scene.tree.Over id .inverter [child] node)
    (patient : 0 < scene.patience)
    (inner : Together (Parallel aside) A x (evaluate scene room child)) :
    Together (Parallel aside) (fun a status => A a status.invert) x
      (evaluate scene (room + 1) id) := by
  refine heads.evaluate forest stands (Native.talkInverting (heads.located rfl rfl) patient) ?_
  rw [← bind_pure_comp, ← bind_pure x]
  exact inner.bind fun related => .pure (by simpa using related)

theorem repeaterParallel (heads : scene.tree.Over id n [child] node) {unbounded : Bool}
    {again : Status → Bool} {bound : Option UInt64}
    (policy : n.policy = .repeating unbounded again) (decorator : n.kind = .decorator)
    (valid : Native.maxLoop node.content.properties unbounded = .ok bound)
    (inner : Together (Parallel aside) A x
      (Native.rounds (evaluate scene room child) again bound scene.patience 1)) :
    Together (Parallel aside) A x (evaluate scene (room + 1) id) := by
  refine heads.evaluate forest stands ?_ inner
  rw [n.tickOfPolicy, policy]
  exact Native.talkRepeating valid (heads.located decorator rfl)

end Evaluation

theorem compositeBoth {aside : List NodeId} {scene scene' : Scene W} (twin : scene.Twin scene')
    (forest : scene.tree.Forest) (forest' : scene'.tree.Forest) {n : Native} {passing : Status}
    (passes : n.Passes passing) {id : NodeId} (apart : id ∉ aside) {children children' : List NodeId}
    {node node' : Node W} (heads : scene.tree.Over id n children node)
    (heads' : scene'.tree.Over id n children' node') (patient : children.length ≤ scene.patience)
    (patient' : children'.length ≤ scene'.patience) {room room' : Nat}
    (inner : Together (Parallel aside) Eq (Native.march (evaluate scene room) passing children)
      (Native.march (evaluate scene' room') passing children')) :
    Together (Parallel aside) Eq (evaluate scene (room + 1) id)
      (evaluate scene' (room' + 1) id) := by
  have composite : n.kind = .composite := by cases passes <;> rfl
  have indexed := heads.indexed composite
  have indexed' := heads'.indexed composite
  have numbered := forest.numbered heads.found
  have numbered' := forest'.numbered heads'.found
  simp only [evaluate, heads.found, heads'.found]
  refine Parallel.activateBoth twin (numbered'.trans numbered.symm) heads.carries heads'.carries
    (numbered.symm ▸ apart) ?_
  rw [passes.tick, Native.talkInOrder (indexed ▸ patient), Native.talkInOrder (indexed' ▸ patient'),
    indexed, indexed']
  exact inner.bindEq fun _ => .pure rfl

end BehaviorTree
