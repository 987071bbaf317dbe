import BehaviorTree.Proofs.Evaluation.Depth
import BehaviorTree.Proofs.Native.Policy

/-! The children that a native tick visits in a run. A visit is an activation of the child, or its
refusal where it lies beyond the depth limit, and nothing else that goes on during the tick
activates a child of the node. -/
namespace BehaviorTree

variable {W : Type}

namespace Timeline
variable {t u : Timeline W} {id : NodeId}

def begins (t : Timeline W) (id : NodeId) : Nat :=
  t.countP fun
    | .began node => node = id
    | _ => false

theorem beginsAppend (t u : Timeline W) (id : NodeId) :
    (t ++ u).begins id = t.begins id + u.begins id :=
  List.countP_append

theorem beginsNone (never : .began id ∉ t) : t.begins id = 0 := by
  refine List.countP_eq_zero.mpr fun o mem => ?_
  cases o with
  | began node =>
    refine mt (fun same => ?_) never
    exact of_decide_eq_true same ▸ mem
  | _ => exact Bool.false_ne_true

theorem beginsOnce (id : NodeId) : Timeline.begins ([.began id] : Timeline W) id = 1 := by
  simp [begins]

theorem beginsElsewhere (elsewhere : ∀ o ∈ t, o.node? ≠ some id) : t.begins id = 0 :=
  beginsNone fun mem => elsewhere _ mem rfl

end Timeline

/- From one child of a node no tick comes to another. -/
theorem Tree.Forest.apartSiblings {t : Tree W} (forest : t.Forest) {parent id other}
    (asks : t.Asks parent id) (under : t.Under other parent) (apart : id ≠ other) :
    ¬ t.Reaches id other := by
  intro reach
  rcases Relation.ReflTransGen.cases_tail reach with same | ⟨above, reach, last⟩
  · exact apart same.symm
  · have same : above = parent :=
      Option.some.inj ((forest.underOfAsks last).symm.trans under)
    exact forest.noReturn asks (same ▸ reach)

open BehaviorTree.Derivation BehaviorTree.Native

variable {scene : Scene W} {room : Nat} {s last : Standing W} {t : Timeline W} {status : Status}

theorem Derivation.Activated.begins (forest : scene.tree.Forest) {node : Node W}
    (found : scene.tree.node? node.id = some node)
    (activated : Activated scene (Evaluates scene room) node s t status last) :
    t.begins node.id = 1 := by
  obtain ⟨body, rfl, parted⟩ := activated.parted
  have inside : .began node.id ∉ body := fun mem => by
    cases parted with
    | unticked aside => exact (aside _ mem).notBegan
    | @ticked before block after _ _ _ whole aside _ ticked =>
      obtain ⟨talk, rfl, quiet⟩ := ticked.below forest found
      rw [whole] at mem
      simp only [List.mem_append, List.mem_cons, List.not_mem_nil, or_false, reduceCtorEq,
        false_or] at mem
      rcases mem with (early | talked) | late
      · exact (aside _ (List.mem_append_left after early)).notBegan
      · exact (quiet .refl).seen _ talked rfl
      · exact (aside _ (List.mem_append_right before late)).notBegan
  have ended : .began node.id ∉ ([.ended node.id status] : Timeline W) := by simp
  rw [← List.singleton_append, List.append_assoc, Timeline.beginsAppend, Timeline.beginsAppend,
    Timeline.beginsOnce, Timeline.beginsNone inside, Timeline.beginsNone ended]

theorem Evaluates.begins (forest : scene.tree.Forest) {id node}
    (found : scene.tree.node? id = some node)
    (evaluates : Evaluates scene room id s t status last) :
    t.begins id = if room = 0 then 0 else 1 := by
  cases room with
  | zero =>
    obtain ⟨rfl, _, _⟩ := evaluates.refused found
    rfl
  | succ room =>
    have numbered := forest.numbered found
    subst numbered
    exact (evaluates.activated found).begins forest found

namespace Derivation.InTurn
variable {evaluated evaluated' : Judgement W} {visits : List (NodeId × Status)}

theorem imp (inTurn : InTurn evaluated s visits t last)
    (imp : ∀ visit ∈ visits, ∀ {s t last}, evaluated visit.1 s t visit.2 last →
      evaluated' visit.1 s t visit.2 last) : InTurn evaluated' s visits t last := by
  induction inTurn with
  | done => exact .done _
  | next asked _ ih =>
    exact .next (imp _ List.mem_cons_self asked) (ih fun visit mem => imp visit (.tail _ mem))

theorem begins {id once} (inTurn : InTurn evaluated s visits t last)
    (each : ∀ visit ∈ visits, ∀ {s t last}, evaluated visit.1 s t visit.2 last →
      t.begins id = if visit.1 = id then once else 0) :
    t.begins id = once * visits.countP (·.1 = id) := by
  induction inTurn with
  | done => rfl
  | @next s first _ _ _ _ _ _ asked _ ih =>
    rw [Timeline.beginsAppend, each _ List.mem_cons_self asked,
      ih fun visit mem => each visit (.tail _ mem), List.countP_cons]
    by_cases same : first = id <;> simp [same, Nat.mul_add, Nat.add_comm]

end Derivation.InTurn

theorem Plan.runPlaced {plan : Plan W} {patience tree subject openNodes world}
    {report : Report W (Timeline W)} {left}
    (ok : plan.runTree patience tree subject openNodes world = some (report, left))
    {before after : Timeline W} {o} (split : report.seen = before ++ o :: after)
    (concerns : o.node? ≠ none) :
    ∃ root inner stage last, tree.root = some root ∧
      before.flags openNodes = inner.flags openNodes ∧
      Evaluates { plan, tree, subject, patience } plan.room root ⟨stage, openNodes⟩
        (inner ++ o :: after) report.status last := by
  rcases Plan.runSound ok with ⟨_, rfl, _⟩ |
    ⟨root, equipped, t, stage, last, rooted, shown, seen, _, _, evaluates⟩
  · simp [Report.idle, Observer.start] at split
  · rw [seen] at split
    rcases shown with rfl | ⟨made, rfl⟩
    · obtain rfl : t = before ++ o :: after := split
      exact ⟨root, before, stage, last, rooted, rfl, evaluates⟩
    · obtain ⟨inner, rfl, rfl⟩ := Timeline.splitEquipped split concerns
      exact ⟨root, inner, stage, last, rooted, rfl, evaluates⟩

theorem Plan.runTicked {plan : Plan W} {patience tree subject openNodes world}
    (forest : tree.Forest) {report : Report W (Timeline W)} {left}
    (ok : plan.runTree patience tree subject openNodes world = some (report, left))
    {before after : Timeline W} {id stage}
    (split : report.seen = before ++ .called id .tick stage :: after) :
    let scene : Scene W := { plan, tree, subject, patience }
    ∃ node depth below block later result told, node.id = id ∧
      tree.node? node.id = some node ∧ tree.AtDepth depth id ∧
      depth + below = plan.maxDepth.toNat ∧
      Ticked (Evaluates scene below) node ⟨stage, before.flags openNodes⟩ block result told ∧
      .called id .tick stage :: after = block ++ later := by
  obtain ⟨root, inner, _, last, rooted, flags, evaluates⟩ := Plan.runPlaced ok split nofun
  rw [flags]
  cases evaluates.enclosed forest rfl with
  | aside _ aside => exact aside.notTicks.elim
  | @ticks node below _ _ block later result told lies ticked whole =>
    obtain ⟨depth, deep, within⟩ := lies.depth forest rooted
    exact ⟨node, depth, below, block, later, result, told, rfl, lies.found, deep, within, ticked,
      whole⟩

structure Toured (scene : Scene W) (node : Node W) (depth : Nat) (start : Standing W)
    (visits : List (NodeId × Status)) (talk : Timeline W) (told : Standing W) : Prop where
  here : scene.tree.AtDepth depth node.id
  within : depth ≤ scene.plan.maxDepth.toNat
  inTurn : InTurn (if depth = scene.plan.maxDepth.toNat then Refused else Lived scene) start visits
    talk told
  begins : ∀ child ∈ node.children, talk.begins child =
    if depth = scene.plan.maxDepth.toNat then 0 else visits.countP (·.1 = child)

theorem Toured.ofInTurn (forest : scene.tree.Forest) {node : Node W}
    (found : scene.tree.node? node.id = some node) {depth visits} {talk : Timeline W} {told}
    (here : scene.tree.AtDepth depth node.id) (within : depth + room = scene.plan.maxDepth.toNat)
    (located : ∀ visit ∈ visits, ∃ request, node.locate request = .ok visit.1)
    (inTurn : InTurn (Evaluates scene room) s visits talk told) :
    Toured scene node depth s visits talk told := by
  have known {visit} (mem : visit ∈ visits) :
      scene.tree.Asks node.id visit.1 ∧ ∃ below, scene.tree.node? visit.1 = some below := by
    obtain ⟨request, located⟩ := located visit mem
    have asks : scene.tree.Asks node.id visit.1 := ⟨node, request, found, located⟩
    exact ⟨asks, Option.isSome_iff_exists.mp
      (Tree.Forest.knownOfParent (forest.underOfAsks asks))⟩
  refine ⟨here, by omega, inTurn.imp fun visit mem {s t last} evaluates => ?_,
    fun child mem => ?_⟩
  · obtain ⟨_, _, there⟩ := known mem
    split
    · obtain rfl : room = 0 := by omega
      exact evaluates.refused there
    · obtain ⟨less, rfl⟩ : ∃ less, room = less + 1 := ⟨room - 1, by omega⟩
      exact evaluates.lived forest there
  · have counted : talk.begins child = (if room = 0 then 0 else 1) * visits.countP (·.1 = child) :=
      inTurn.begins fun visit visited {s t last} evaluates => by
        obtain ⟨asks, _, there⟩ := known visited
        split
        · rename_i same
          rw [← same]
          exact evaluates.begins forest there
        · rename_i apart
          refine Timeline.beginsElsewhere fun o seen here => ?_
          obtain ⟨_, concerns, reach⟩ := (evaluates.confined forest).seen o seen
          cases concerns.symm.trans here
          exact forest.apartSiblings asks ((forest.linked found).mp mem) apart reach
    rw [counted]
    by_cases last : room = 0
    · rw [if_pos last, if_pos (by omega), Nat.zero_mul]
    · rw [if_neg last, if_neg (by omega), Nat.one_mul]

def Node.Ticks (node : Node W)
    (way : List (NodeId × Status) → Except CallbackError Outcome → Prop) : Prop :=
  ∀ tree : Tree W, tree.Built → tree.node? node.id = some node →
    ∀ {plan patience subject openNodes world} {report : Report W (Timeline W)} {left},
      plan.runTree patience tree subject openNodes world = some (report, left) →
      ∀ {before after : Timeline W} {stage},
        report.seen = before ++ .called node.id .tick stage :: after →
        ∃ depth visits result talk told later,
          after = talk ++ .returned node.id .tick (.ofOutcome result) :: later ∧
          way visits result ∧
          Toured { plan, tree, subject, patience } node depth ⟨stage, before.flags openNodes⟩ visits
            talk told

section Ticks
variable {node : Node W} {way way' : List (NodeId × Status) → Except CallbackError Outcome → Prop}

theorem Node.Ticks.imp (ticks : node.Ticks way)
    (imp : ∀ {visits result}, node.children.Nodup → way visits result → way' visits result) :
    node.Ticks way' := by
  intro tree built found plan patience subject openNodes world report left ok before after stage
    split
  obtain ⟨depth, visits, result, talk, told, later, rest, goes, toured⟩ :=
    ticks tree built found ok split
  exact ⟨depth, visits, result, talk, told, later, rest, imp (built.forest.distinct found) goes,
    toured⟩

theorem Native.ticks {native : Native} (carries : node.content.behavior.tick = some native.tick) :
    node.Ticks fun visits result =>
      ∃ decision, native.policy.Decides node visits decision ∧ result = decision.map .status := by
  intro tree built found plan patience subject openNodes world report left ok before after stage
    split
  obtain ⟨other, depth, below, block, later, result, told, same, there, deep, within, ticked,
    whole⟩ := Plan.runTicked built.forest ok split
  rw [same] at there
  cases there.symm.trans found
  rw [tickOfPolicy] at carries
  obtain ⟨talk, visits, decision, inTurn, decides, rfl, rfl⟩ := ticked.decides carries
  have rest := (List.cons.inj whole).2.trans (List.append_assoc _ _ _)
  exact ⟨depth, visits, _, talk, told, later, rest, ⟨decision, decides, rfl⟩,
    .ofInTurn built.forest found deep within decides.located inTurn⟩

end Ticks

end BehaviorTree
