import BehaviorTree.Proofs.Evaluation.Recounting
import BehaviorTree.Proofs.Tree.Edits

/-! The place of an occurrence in an evaluation. It lies in one innermost activation: it begins
that one, is beside its tick, or calls its tick. From the place one gets back what is known of
the whole activation, the flags that it started from, and how far below it lies. -/
namespace BehaviorTree

variable {W : Type}

namespace Occurrence

def flag (openNodes : OpenNodes) : Occurrence W → OpenNodes
  | .flagged node isOpen => if isOpen then openNodes.insert node else openNodes.erase node
  | _ => openNodes

def Aside (id : NodeId) (o : Occurrence W) : Prop :=
  o.node? = some id ∧ (o ≠ .refused id ∧ o ≠ .absent id ∧ o ≠ .began id) ∧
    ∀ stage, o ≠ .called id .tick stage

namespace Aside
variable {id other : NodeId}

theorem notRefused (aside : (.refused other : Occurrence W).Aside id) : False := by
  obtain ⟨⟨⟩, apart, _⟩ := aside
  exact apart.1 rfl

theorem notAbsent (aside : (.absent other : Occurrence W).Aside id) : False := by
  obtain ⟨⟨⟩, apart, _⟩ := aside
  exact apart.2.1 rfl

theorem notBegan (aside : (.began other : Occurrence W).Aside id) : False := by
  obtain ⟨⟨⟩, apart, _⟩ := aside
  exact apart.2.2 rfl

theorem notTicks {stage} (aside : (.called other .tick stage : Occurrence W).Aside id) : False := by
  obtain ⟨⟨⟩, _, apart⟩ := aside
  exact apart stage rfl

end Aside

end Occurrence

namespace Timeline
variable {t u : Timeline W} {openNodes : OpenNodes}

def flags (t : Timeline W) (openNodes : OpenNodes) : OpenNodes := t.foldl Occurrence.flag openNodes

theorem flagsAppend (t u : Timeline W) (openNodes : OpenNodes) :
    (t ++ u).flags openNodes = u.flags (t.flags openNodes) :=
  List.foldl_append

theorem flagsKept {id} (never : ∀ isOpen, .flagged id isOpen ∉ t) :
    (t.flags openNodes).contains id = openNodes.contains id := by
  induction t generalizing openNodes with
  | nil => rfl
  | cons o rest ih =>
    have later : (flags rest (o.flag openNodes)).contains id = (o.flag openNodes).contains id :=
      ih fun isOpen mem => never isOpen (List.mem_cons_of_mem _ mem)
    refine later.trans ?_
    cases o with
    | flagged node isOpen =>
      have other : id ≠ node := by
        rintro rfl
        exact never isOpen List.mem_cons_self
      cases isOpen <;>
        simp [Occurrence.flag, OpenNodes.containsInsert, OpenNodes.containsErase, other]
    | _ => rfl

end Timeline

namespace Derivation
variable {scene : Scene W} {evaluated : Judgement W} {node : Node W} {s last : Standing W}
  {t : Timeline W}

theorem flagsCarries (scene : Scene W) (node : Node W) :
    Carries scene node fun s t last => last.openNodes = t.flags s.openNodes where
  nil _ := rfl
  append left right := by rw [Timeline.flagsAppend, ← left, right]
  told _ _ _ _ := rfl
  called _ _ _ _ _ := rfl
  answered _ answered := by
    cases answered
    rfl
  flagged _ _ := rfl
  ticks _ := rfl
  starts _ _ := rfl
  resumes _ _ _ _ := rfl
  ticked _ _ := rfl

section Aside

theorem Called.aside {id step status callback result} (ordinary : step ≠ .tick)
    (called : Called scene id step status callback s t result last) : ∀ o ∈ t, o.Aside id := by
  cases called
  simp [Occurrence.Aside, Occurrence.node?, Scene.event, ordinary]

theorem Resolved.aside {soFar status} (resolved : Resolved scene s soFar t status last)
    (own : ∀ fault, soFar = .error fault → fault.node = node.id) : ∀ o ∈ t, o.Aside node.id := by
  cases resolved with
  | fine => simp
  | faulty answered =>
    cases answered
    simp [Occurrence.Aside, Occurrence.node?, Fault.event, own _ rfl]

theorem Opened.aside {result} (opened : Opened scene node s t result last) :
    ∀ o ∈ t, o.Aside node.id := by
  cases opened with
  | already => simp
  | called _ called => exact called.aside (by decide)

theorem asideAppend {id} {t u : Timeline W} (left : ∀ o ∈ t, o.Aside id)
    (right : ∀ o ∈ u, o.Aside id) : ∀ o ∈ t ++ u, o.Aside id := fun o mem =>
  (List.mem_append.mp mem).elim (left o) (right o)

theorem Judged.aside {outcome} (judged : Judged scene node.id s outcome t last) :
    ∀ o ∈ t, o.Aside node.id := by
  cases judged <;> simp [Occurrence.Aside, Occurrence.node?, Scene.event]

theorem Settled.aside {outcome result} (settled : Settled scene node outcome s t result last) :
    ∀ o ∈ t, o.Aside node.id := by
  have flagged (isOpen : Bool) :
      ∀ o ∈ ([.flagged node.id isOpen] : Timeline W), o.Aside node.id := by
    simp [Occurrence.Aside, Occurrence.node?]
  cases settled with
  | stays judged => exact asideAppend judged.aside (flagged true)
  | closes judged _ called | closeFails judged _ called =>
    exact asideAppend (asideAppend judged.aside (called.aside (by decide))) (flagged false)

end Aside

/- A stretch of an activation: its tick, if it comes to it, and what is beside it. -/
inductive Parted (evaluated : Judgement W) (node : Node W) (s : Standing W) (t : Timeline W) :
    Prop where
  | unticked (aside : ∀ o ∈ t, o.Aside node.id) : Parted evaluated node s t
  | ticked {before block after : Timeline W} {ready result told}
      (whole : t = before ++ block ++ after) (aside : ∀ o ∈ before ++ after, o.Aside node.id)
      (flags : ready.openNodes = before.flags s.openNodes)
      (ticked : Ticked evaluated node ready block result told) : Parted evaluated node s t

theorem Parted.precedes (parted : Parted evaluated node s t) {u : Timeline W}
    (later : ∀ o ∈ u, o.Aside node.id) : Parted evaluated node s (t ++ u) := by
  cases parted with
  | unticked aside => exact .unticked (asideAppend aside later)
  | ticked whole aside flags ticked =>
    refine .ticked (by rw [whole, List.append_assoc]) ?_ flags ticked
    rw [← List.append_assoc]
    exact asideAppend aside later

theorem Stepped.parted {result} (stepped : Stepped scene evaluated node s t result last) :
    Parted evaluated node s t := by
  have pieces := (flagsCarries scene node).toPieces
  cases stepped with
  | enterFails entered => exact .unticked (entered.aside (by decide))
  | openFails entered opened =>
    exact .unticked (asideAppend (entered.aside (by decide)) opened.aside)
  | @tickFails t u v _ _ _ _ entered opened ticked =>
    have flags := pieces.append (entered.carried pieces rfl) (opened.carried pieces)
    refine .ticked (List.append_nil _).symm ?_ flags ticked
    rw [List.append_nil]
    exact asideAppend (entered.aside (by decide)) opened.aside
  | @settles t u v w _ _ _ _ _ _ entered opened ticked settled =>
    have flags := pieces.append (entered.carried pieces rfl) (opened.carried pieces)
    refine .ticked rfl ?_ flags ticked
    exact asideAppend (asideAppend (entered.aside (by decide)) opened.aside) settled.aside

theorem Activated.parted {final} (activated : Activated scene evaluated node s t final last) :
    ∃ body, t = .began node.id :: body ++ [.ended node.id final] ∧
      Parted evaluated node s body := by
  obtain ⟨steps, u, v, w, _, _, _, _, _, _, whole, stepped, resolves, exited, ends⟩ :=
    activated.parts
  refine ⟨_, whole, stepped.parted.precedes (asideAppend (asideAppend ?_ ?_) ?_)⟩
  · exact resolves.aside fun fault same => by
      subst same
      exact stepped.faultNode
  · exact exited.aside (by decide)
  · exact ends.aside fun fault same => (exitResultFault.mp same).1

def Honest (evaluated : Judgement W) : Prop :=
  ∀ {id s t status last}, evaluated id s t status last → last.openNodes = t.flags s.openNodes

theorem Activated.flags (honest : Honest evaluated) {final}
    (activated : Activated scene evaluated node s t final last) :
    last.openNodes = t.flags s.openNodes := by
  obtain ⟨inside, rfl, flags⟩ :=
    activated.carried (flagsCarries scene node) fun _ asked => honest asked
  rw [Timeline.flagsAppend, Timeline.flagsAppend]
  exact flags

/- A place inside an activation: beside its tick, at the call of it, or in the evaluation of a
child that it asks for. -/
inductive Place (evaluated : Judgement W) (node : Node W) (openNodes : OpenNodes)
    (before : Timeline W) : Occurrence W → Timeline W → Prop where
  | aside {o} (aside : o.Aside node.id) (after) : Place evaluated node openNodes before o after
  | ticks {stage} {after block later : Timeline W} {result told}
      (ticked : Ticked evaluated node ⟨stage, before.flags openNodes⟩ block result told)
      (whole : .called node.id .tick stage :: after = block ++ later) :
      Place evaluated node openNodes before (.called node.id .tick stage) after
  | asked {o} {after outer inner rest later : Timeline W} {request id s status last}
      (located : node.locate request = .ok id) (prior : before = outer ++ inner)
      (next : after = rest ++ later) (flags : s.openNodes = outer.flags openNodes)
      (asked : evaluated id s (inner ++ o :: rest) status last) :
      Place evaluated node openNodes before o after

theorem Place.follows {openNodes} {first before after : Timeline W} {o}
    (place : Place evaluated node (first.flags openNodes) before o after) (later : Timeline W) :
    Place evaluated node openNodes (first ++ before) o (after ++ later) := by
  cases place with
  | aside aside => exact .aside aside _
  | ticks ticked whole =>
    rw [← Timeline.flagsAppend] at ticked
    have longer := congrArg (· ++ later) whole
    exact .ticks ticked (longer.trans (List.append_assoc _ _ _))
  | asked located prior next flags asked =>
    have before := congrArg (first ++ ·) prior
    have after := congrArg (· ++ later) next
    exact .asked located (before.trans (List.append_assoc _ _ _).symm)
      (after.trans (List.append_assoc _ _ _)) (flags.trans (Timeline.flagsAppend _ _ _).symm) asked

theorem Conversed.place (honest : Honest evaluated) {tick : Tick W} {move openNodes result}
    (conversed : Conversed evaluated node tick move openNodes t result last)
    {before after : Timeline W} {o} (split : t = before ++ o :: after) :
    Place evaluated node openNodes before o after := by
  induction conversed generalizing before after with
  | answer => simp at split
  | misses _ _ ih => exact ih split
  | @child _ _ _ openNodes _ first _ middle _ _ _ located asked _ ih =>
    rcases Timeline.splitAppend split with ⟨rest, rfl, rfl⟩ | ⟨inner, rfl, here⟩
    · exact .asked located (List.nil_append before).symm rfl rfl asked
    · have left : middle.openNodes = first.flags openNodes := honest asked
      have place := ih here
      rw [left] at place
      simpa using place.follows []

theorem Ticked.place (honest : Honest evaluated) {block : Timeline W} {result}
    (ticked : Ticked evaluated node s block result last) {before after : Timeline W} {o}
    (split : block = before ++ o :: after) : Place evaluated node s.openNodes before o after := by
  have returned (result) :
      (Occurrence.returned node.id .tick result : Occurrence W).Aside node.id := by
    simp [Occurrence.Aside, Occurrence.node?]
  cases before with
  | nil =>
    have here : o = .called node.id .tick s.stage := by
      cases ticked <;> exact (List.cons.inj split).1.symm
    rw [here] at split ⊢
    exact .ticks ticked ((List.append_nil block).trans split).symm
  | cons first before =>
    cases ticked with
    | missing =>
      obtain ⟨_, rfl, _⟩ := Timeline.splitSingle (List.cons.inj split).2
      exact .aside (returned _) _
    | @played tick talk _ _ _ conversed =>
      obtain ⟨same, inside⟩ := List.cons.inj split
      rcases Timeline.splitAppend inside with ⟨rest, here, later⟩ | ⟨_, _, here⟩
      · rw [later]
        have flags : s.openNodes = Timeline.flags [first] s.openNodes := by
          rw [← same]
          rfl
        have place := conversed.place honest here
        rw [flags] at place
        exact place.follows _
      · obtain ⟨_, rfl, _⟩ := Timeline.splitSingle here
        exact .aside (returned _) _

theorem Parted.place (honest : Honest evaluated) (parted : Parted evaluated node s t)
    {before after : Timeline W} {o} (split : t = before ++ o :: after) :
    Place evaluated node s.openNodes before o after := by
  cases parted with
  | unticked aside => exact .aside (aside o (by simp [split])) _
  | ticked whole aside flags ticked =>
    rcases Timeline.splitAppend (whole.symm.trans split) with ⟨rest, here, later⟩ | ⟨_, _, here⟩
    · rcases Timeline.splitAppend here with ⟨_, here, _⟩ | ⟨inner, prior, here⟩
      · exact .aside (aside o (by simp [here])) _
      · have place := ticked.place honest here
        rw [flags] at place
        rw [prior, later]
        exact place.follows _
    · exact .aside (aside o (by simp [here])) _

theorem Activated.place (honest : Honest evaluated) {final}
    (activated : Activated scene evaluated node s t final last) {before after : Timeline W} {o}
    (split : t = before ++ o :: after) :
    (before = [] ∧ o = .began node.id) ∨ Place evaluated node s.openNodes before o after := by
  obtain ⟨body, whole, parted⟩ := activated.parted
  rw [whole] at split
  cases before with
  | nil => exact .inl ⟨rfl, (List.cons.inj split).1.symm⟩
  | cons first before =>
    obtain ⟨same, inside⟩ := List.cons.inj split
    rcases Timeline.splitAppend inside with ⟨rest, here, later⟩ | ⟨_, _, here⟩
    · rw [later]
      have flags : s.openNodes = Timeline.flags [first] s.openNodes := by
        rw [← same]
        rfl
      have place := parted.place honest here
      rw [flags] at place
      exact .inr (place.follows _)
    · obtain ⟨_, rfl, _⟩ := Timeline.splitSingle here
      refine .inr (.aside ?_ _)
      simp [Occurrence.Aside, Occurrence.node?]

end Derivation

open BehaviorTree.Derivation

variable {scene : Scene W} {room : Nat} {s last : Standing W} {t : Timeline W} {status : Status}

theorem Evaluates.flags {id} (evaluates : Evaluates scene room id s t status last) :
    last.openNodes = t.flags s.openNodes := by
  have quiet (s : Standing W) {o : Occurrence W} (bounds : o.Bounds) :
      s.openNodes = Timeline.flags [o] s.openNodes := by
    cases o <;> first | rfl | cases bounds
  exact evaluatesCarried (fun _ => flagsCarries _ _) quiet evaluates

structure Lies (scene : Scene W) (room : Nat) (id : NodeId) (node : Node W) (below : Nat) :
    Prop where
  found : scene.tree.node? node.id = some node
  up : ∃ steps, scene.tree.climb steps node.id = some id ∧ room = steps + below + 1

inductive Enclosed (scene : Scene W) (room : Nat) (id : NodeId) (openNodes : OpenNodes)
    (before : Timeline W) : Occurrence W → Timeline W → Prop where
  | absent (none : scene.tree.node? id = none) (after) :
      Enclosed scene room id openNodes before (.absent id) after
  | refused {inner} (up : scene.tree.climb room inner = some id) (after) :
      Enclosed scene room id openNodes before (.refused inner) after
  | begins {node below s} {after block later : Timeline W} {final last}
      (lies : Lies scene room id node below) (flags : s.openNodes = before.flags openNodes)
      (activated : Activated scene (Evaluates scene below) node s block final last)
      (whole : .began node.id :: after = block ++ later) :
      Enclosed scene room id openNodes before (.began node.id) after
  | aside {node below o} (lies : Lies scene room id node below) (aside : o.Aside node.id) (after) :
      Enclosed scene room id openNodes before o after
  | ticks {node below stage} {after block later : Timeline W} {result told}
      (lies : Lies scene room id node below)
      (ticked : Ticked (Evaluates scene below) node ⟨stage, before.flags openNodes⟩ block result
        told) (whole : .called node.id .tick stage :: after = block ++ later) :
      Enclosed scene room id openNodes before (.called node.id .tick stage) after

theorem Lies.above {id child node below} (lies : Lies scene room child node below)
    (under : scene.tree.Under child id) : Lies scene (room + 1) id node below := by
  obtain ⟨found, steps, up, depth⟩ := lies
  exact ⟨found, steps + 1, Tree.climbOn up under, by omega⟩

theorem Enclosed.above {id child} {openNodes : OpenNodes} {outer inner rest : Timeline W} {o}
    (under : scene.tree.Under child id)
    (enclosed : Enclosed scene room child (outer.flags openNodes) inner o rest)
    (later : Timeline W) :
    Enclosed scene (room + 1) id openNodes (outer ++ inner) o (rest ++ later) := by
  cases enclosed with
  | absent none =>
    have known := Tree.Forest.knownOfParent under
    rw [none] at known
    contradiction
  | refused up => exact .refused (Tree.climbOn up under) _
  | begins lies flags activated whole =>
    rw [← Timeline.flagsAppend] at flags
    have longer := congrArg (· ++ later) whole
    exact .begins (lies.above under) flags activated (longer.trans (List.append_assoc _ _ _))
  | aside lies aside => exact .aside (lies.above under) aside _
  | ticks lies ticked whole =>
    rw [← Timeline.flagsAppend] at ticked
    have longer := congrArg (· ++ later) whole
    exact .ticks (lies.above under) ticked (longer.trans (List.append_assoc _ _ _))

theorem Evaluates.enclosed (forest : scene.tree.Forest) {id}
    (evaluates : Evaluates scene room id s t status last) {before after : Timeline W} {o}
    (split : t = before ++ o :: after) : Enclosed scene room id s.openNodes before o after := by
  induction room generalizing id s t status last before after with
  | zero =>
    cases evaluates with
    | absent none =>
      obtain ⟨_, rfl, _⟩ := Timeline.splitSingle split
      exact .absent none _
    | refused =>
      obtain ⟨_, rfl, _⟩ := Timeline.splitSingle split
      exact .refused rfl _
    | activated _ room => cases room
  | succ room ih =>
    cases evaluates with
    | absent none =>
      obtain ⟨_, rfl, _⟩ := Timeline.splitSingle split
      exact .absent none _
    | refused _ limit => cases limit
    | @activated _ _ node _ _ _ _ found room activated =>
      cases room
      obtain rfl : node.id = id := forest.numbered found
      have lies : Lies scene (room + 1) node.id node room := ⟨found, 0, rfl, by omega⟩
      rcases activated.place (fun evaluates => evaluates.flags) split with ⟨rfl, rfl⟩ | place
      · exact .begins lies rfl activated (split.symm.trans (List.append_nil _).symm)
      · cases place with
        | aside aside => exact .aside lies aside _
        | ticks ticked whole => exact .ticks lies ticked whole
        | asked located prior next flags asked =>
          have under := forest.underOfAsks ⟨node, _, found, located⟩
          have inner := ih asked rfl
          rw [flags] at inner
          rw [prior, next]
          exact inner.above under _

inductive Owned (scene : Scene W) (id : NodeId) (step : Step) (stage : Stage W)
    (after : Timeline W) : Prop where
  | intro {node below ready call left rest} (found : scene.tree.node? id = some node)
      (given : ready.stage = stage)
      (performed : Performed (Evaluates scene below) node ready step call left)
      (whole : .called id step stage :: after = call ++ rest) : Owned scene id step stage after

theorem Owned.longer {id step stage} {after : Timeline W} (owned : Owned scene id step stage after)
    (later : Timeline W) : Owned scene id step stage (after ++ later) := by
  cases owned with
  | intro found given performed whole =>
    have longer := congrArg (· ++ later) whole
    exact .intro found given performed (longer.trans (List.append_assoc _ _ _))

theorem Evaluates.owned (forest : scene.tree.Forest) {id}
    (evaluates : Evaluates scene room id s t status last) {before after : Timeline W}
    {other step stage} (split : t = before ++ .called other step stage :: after) :
    Owned scene other step stage after := by
  induction room generalizing id s t status last before after with
  | zero =>
    cases evaluates with
    | absent | refused =>
      obtain ⟨_, impossible, _⟩ := Timeline.splitSingle split
      cases impossible
    | activated _ room => cases room
  | succ room ih =>
    cases evaluates with
    | absent =>
      obtain ⟨_, impossible, _⟩ := Timeline.splitSingle split
      cases impossible
    | refused _ limit => cases limit
    | @activated _ _ node _ _ _ _ found room activated =>
      cases room
      obtain rfl := forest.numbered found
      by_cases here : other = node.id
      · subst here
        cases activated.enacted.performance (apartOfForest forest found) split with
        | intro whole led given performed goesOn => exact .intro found given performed whole
      · rcases activated.place (fun evaluates => evaluates.flags) split with ⟨_, impossible⟩ | place
        · cases impossible
        · cases place with
          | aside aside => exact absurd (Option.some.inj aside.1) here
          | ticks => exact absurd rfl here
          | asked located prior next flags asked =>
            rw [next]
            exact (ih asked rfl).longer _

end BehaviorTree
