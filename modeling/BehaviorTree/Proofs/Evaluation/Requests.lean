import BehaviorTree.Proofs.Evaluation.Depth
import BehaviorTree.Proofs.Evaluation.Routing
import BehaviorTree.Proofs.Evaluation.Termination

/-! What a tick gets for its requests. A request that the node has no child for is denied, and
nothing happens. For any other the child is evaluated, and its status comes back: a fault below
has been answered there, and is never handed up to the tick above. -/
namespace BehaviorTree

variable {W : Type}

namespace Node
variable {node : Node W}

inductive Denies (node : Node W) : Request → CallbackError → Prop where
  | notDecorator (other : node.kind ≠ .decorator) :
      Denies node .child (.noChildSurface node.kind .single)
  | childless (decorator : node.kind = .decorator) (children : node.children = []) :
      Denies node .child (.missingChild 0 0)
  | notComposite {index} (other : node.kind ≠ .composite) :
      Denies node (.childAt index) (.noChildSurface node.kind .indexed)
  | beyond {index} (composite : node.kind = .composite) (most : node.children.length ≤ index) :
      Denies node (.childAt index) (.missingChild index node.children.length)

inductive Offers (node : Node W) : Request → NodeId → Prop where
  | child {first rest} (decorator : node.kind = .decorator)
      (children : node.children = first :: rest) : Offers node .child first
  | childAt {index id} (composite : node.kind = .composite)
      (there : node.children[index]? = some id) : Offers node (.childAt index) id

theorem deniesExact {request e} : node.locate request = .error e ↔ node.Denies request e := by
  constructor
  · intro located
    cases request with
    | child =>
      by_cases decorator : node.kind = .decorator
      · cases children : node.children with
        | nil =>
          simp only [locate, decorator, if_true, children, Except.error.injEq] at located
          exact located ▸ .childless decorator children
        | cons => simp [locate, decorator, children] at located
      · simp only [locate, decorator, if_false, Except.error.injEq] at located
        exact located ▸ .notDecorator decorator
    | childAt index =>
      by_cases composite : node.kind = .composite
      · cases there : node.children[index]? with
        | none =>
          simp only [locate, composite, if_true, there, Except.error.injEq] at located
          exact located ▸ .beyond composite (List.getElem?_eq_none_iff.mp there)
        | some => simp [locate, composite, there] at located
      · simp only [locate, composite, if_false, Except.error.injEq] at located
        exact located ▸ .notComposite composite
  · intro denies
    cases denies with
    | notDecorator other => simp [locate, other]
    | childless decorator children => simp [locate, decorator, children]
    | notComposite other => simp [locate, other]
    | beyond composite most =>
      simp [locate, composite, List.getElem?_eq_none_iff.mpr most]

theorem offersExact {request id} : node.locate request = .ok id ↔ node.Offers request id := by
  constructor
  · intro located
    cases request with
    | child =>
      by_cases decorator : node.kind = .decorator
      · cases children : node.children with
        | nil => simp [locate, decorator, children] at located
        | cons =>
          simp only [locate, decorator, if_true, children, Except.ok.injEq] at located
          exact located ▸ .child decorator children
      · simp [locate, decorator] at located
    | childAt index =>
      by_cases composite : node.kind = .composite
      · cases there : node.children[index]? with
        | none => simp [locate, composite, there] at located
        | some =>
          simp only [locate, composite, if_true, there, Except.ok.injEq] at located
          exact located ▸ .childAt composite there
      · simp [locate, composite] at located
  · intro offers
    cases offers with
    | child decorator children => simp [locate, decorator, children]
    | childAt composite there => simp [locate, composite, there]

theorem offered {request} (granted : ∀ e, ¬ node.Denies request e) :
    ∃ child, node.locate request = .ok child := by
  cases located : node.locate request with
  | ok child => exact ⟨child, rfl⟩
  | error e => exact absurd (deniesExact.mp located) (granted e)

end Node

namespace Activation
variable {T : Type} {descend : NodeId → Walk W T Status} {node : Node W}

def serve (descend : NodeId → Walk W T Status) (node : Node W) (request : Request) :
    Walk W T Reply :=
  match node.locate request with
  | .error e => pure (.error e)
  | .ok child => do
    let status ← descend child
    pure (.ok status)

theorem serveDenied {request e} (located : node.locate request = .error e) (m : Moment W T) :
    serve descend node request m = some (.error e, m) := by
  unfold serve
  rw [located]
  rfl

theorem serveOffered {request child} (located : node.locate request = .ok child)
    (m : Moment W T) :
    serve descend node request m =
      (descend child m).map fun (status, last) => (.ok status, last) := by
  unfold serve
  rw [located]
  change (descend child m).bind _ = _
  cases descend child m <;> rfl

/- A tick that asks goes on with the reply, from where it has led. -/
theorem converseAsk (tick : Tick W) (patience : Nat) (request : Request) (memory : tick.Memory)
    (m : Moment W T) :
    converse descend node tick (patience + 1) (.ask request m.stage memory) m.openNodes m.seen =
      (serve descend node request m).bind fun (reply, m) =>
        converse descend node tick patience (tick.resume memory reply m.stage) m.openNodes
          m.seen := by
  obtain ⟨stage, openNodes, seen⟩ := m
  simp only [converse]
  cases located : node.locate request with
  | error e => rw [serveDenied located, Option.bind_some]
  | ok child =>
    rw [serveOffered located]
    dsimp only
    cases descend child ⟨stage, openNodes, seen⟩ <;> rfl

end Activation

structure Exchange (W : Type) where
  request : Request
  before : Standing W
  shown : Timeline W
  reply : Reply
  after : Standing W

namespace Derivation

inductive Exchanged (tick : Tick W) :
    Move W tick.Memory → OpenNodes → List (Exchange W) → Except CallbackError Outcome →
      Standing W → Prop where
  | answer (result stage openNodes) :
      Exchanged tick (.answer result stage) openNodes [] result ⟨stage, openNodes⟩
  | asks {request stage memory openNodes shown reply after xs result last}
      (rest : Exchanged tick (tick.resume memory reply after.stage) after.openNodes xs result
        last) :
      Exchanged tick (.ask request stage memory) openNodes
        (⟨request, ⟨stage, openNodes⟩, shown, reply, after⟩ :: xs) result last

/- The tick gets an error for a denied request only, and then nothing has happened; for any other
it gets what the child has come to. -/
structure Contained (evaluated : Judgement W) (node : Node W) (x : Exchange W) : Prop where
  denied : ∀ {e}, x.reply = .error e ↔ node.Denies x.request e
  quiet : ∀ {e}, x.reply = .error e → x.shown = [] ∧ x.after = x.before
  answered : (∀ e, ¬ node.Denies x.request e) →
    ∃ child status, node.Offers x.request child ∧ x.reply = .ok status ∧
      evaluated child x.before x.shown status x.after

variable {evaluated : Judgement W} {node : Node W} {tick : Tick W} {t : Timeline W}
  {last : Standing W}

theorem Contained.misses {request e} (located : node.locate request = .error e) (s : Standing W) :
    Contained evaluated node ⟨request, s, [], .error e, s⟩ where
  denied {other} := by
    rw [← Node.deniesExact, located]
    simp only [Except.error.injEq]
  quiet _ := ⟨rfl, rfl⟩
  answered granted := absurd (Node.deniesExact.mp located) (granted e)

theorem Contained.child {request id s status} (located : node.locate request = .ok id)
    (asked : evaluated id s t status last) :
    Contained evaluated node ⟨request, s, t, .ok status, last⟩ where
  denied {e} := by
    rw [← Node.deniesExact, located]
    exact ⟨nofun, nofun⟩
  quiet := nofun
  answered _ := ⟨id, status, Node.offersExact.mp located, rfl, asked⟩

theorem Conversed.exchanged {move openNodes result}
    (conversed : Conversed evaluated node tick move openNodes t result last) :
    ∃ xs, Exchanged tick move openNodes xs result last ∧ t = xs.flatMap Exchange.shown ∧
      ∀ x ∈ xs, Contained evaluated node x := by
  induction conversed with
  | answer result stage openNodes => exact ⟨[], .answer result stage openNodes, rfl, by simp⟩
  | @misses _ stage _ openNodes _ _ _ _ located _ ih =>
    obtain ⟨xs, exchanged, rfl, contained⟩ := ih
    exact ⟨_, @Exchanged.asks _ _ _ _ _ _ [] _ ⟨stage, openNodes⟩ _ _ _ exchanged, rfl,
      List.forall_mem_cons.mpr ⟨.misses located _, contained⟩⟩
  | child located asked _ ih =>
    obtain ⟨xs, exchanged, rfl, contained⟩ := ih
    exact ⟨_, .asks exchanged, rfl, List.forall_mem_cons.mpr ⟨.child located asked, contained⟩⟩

end Derivation

open BehaviorTree.Derivation

theorem Activation.serveEnds {scene : Scene W} {node : Node W} {request child}
    (located : node.locate request = .ok child) (settles : scene.SettlesUnder child) (room : Nat)
    (m : Moment W (Timeline W)) :
    ∃ status last enough, ∀ patience, enough ≤ patience →
      serve (evaluate (scene.patient patience) room) node request m = some (.ok status, last) := by
  obtain ⟨⟨status, last⟩, enough, came⟩ := Ends.evaluate child settles room m
  refine ⟨status, last, enough, fun patience le => ?_⟩
  have asked : evaluate (scene.patient patience) room child m = some (status, last) :=
    came patience le
  rw [serveOffered located, asked]
  rfl

structure Granted (scene : Scene W) (node : Node W) (request : Request) (child : NodeId) : Prop where
  offers : node.Offers request child
  refused : ∀ m : Moment W (Timeline W),
    Activation.serve (evaluate scene 0) node request m =
      some (.ok .error, m.see (.refused child))
  activated : ∃ below, scene.tree.node? child = some below ∧
    ∀ (room : Nat) (m : Moment W (Timeline W)),
      Activation.serve (evaluate scene (room + 1)) node request m =
        (Activation.activate scene (evaluate scene room) below m).map
          fun (status, last) => (.ok status, last)
  ends : scene.SettlesUnder child → ∀ (room : Nat) (m : Moment W (Timeline W)),
    ∃ status last enough, ∀ patience, enough ≤ patience →
      Activation.serve (evaluate (scene.patient patience) room) node request m =
        some (.ok status, last)

theorem Granted.ofLocated {scene : Scene W} (forest : scene.tree.Forest) {node : Node W}
    (found : scene.tree.node? node.id = some node) {request child}
    (located : node.locate request = .ok child) : Granted scene node request child := by
  have under := forest.underOfAsks ⟨node, request, found, located⟩
  obtain ⟨below, there⟩ := Option.isSome_iff_exists.mp (Tree.Forest.knownOfParent under)
  exact {
    offers := Node.offersExact.mp located
    refused := fun m => by
      rw [Activation.serveOffered located]
      simp only [evaluate, there]
      rfl
    activated := ⟨below, there, fun room m => by
      rw [Activation.serveOffered located]
      simp only [evaluate, there]⟩
    ends := Activation.serveEnds located
  }

theorem requestsContained {tree : Tree W} (built : tree.Built) :
    (∀ {plan patience subject openNodes world} {report : Report W (Timeline W)} {left},
      plan.runTree patience tree subject openNodes world = some (report, left) →
      ∀ {before after : Timeline W} {id stage node tick},
        report.seen = before ++ .called id .tick stage :: after → tree.node? id = some node →
        node.content.behavior.tick = some tick →
          ∃ depth ≤ plan.maxDepth.toNat, tree.AtDepth depth id ∧
            ∃ exchanges result last later,
              after = exchanges.flatMap Exchange.shown ++
                .returned id .tick (.ofOutcome result) :: later ∧
              Exchanged tick (tick.start node.view stage) (before.flags openNodes) exchanges
                result last ∧
              ∀ x ∈ exchanges, Contained
                (if depth = plan.maxDepth.toNat then Refused
                  else Lived { plan, tree, subject, patience }) node x) ∧
    ∀ {scene : Scene W}, scene.tree = tree → ∀ {id node}, tree.node? id = some node →
      ∀ request : Request,
        (∀ (room patience : Nat) (tick : Tick W) (memory : tick.Memory)
          (m : Moment W (Timeline W)),
          Activation.converse (evaluate scene room) node tick (patience + 1)
              (.ask request m.stage memory) m.openNodes m.seen =
            (Activation.serve (evaluate scene room) node request m).bind fun (reply, m) =>
              Activation.converse (evaluate scene room) node tick patience
                (tick.resume memory reply m.stage) m.openNodes m.seen) ∧
        (∀ e, node.Denies request e → ∀ (room : Nat) (m : Moment W (Timeline W)),
          Activation.serve (evaluate scene room) node request m = some (.error e, m)) ∧
        ((∀ e, ¬ node.Denies request e) → ∃ child, Granted scene node request child) := by
  refine ⟨?_, ?_⟩
  · intro plan patience subject openNodes world report left ok before after id stage node tick
      split found ticks
    obtain ⟨depth, within, deep, talk, result, last, later, rfl, conversed⟩ :=
      (Plan.runLimited built.forest ok).asks split found ticks
    obtain ⟨exchanges, exchanged, rfl, contained⟩ := conversed.exchanged
    exact ⟨depth, within, deep, exchanges, result, last, later, rfl, exchanged, contained⟩
  · rintro scene rfl id node found request
    refine ⟨fun room patience tick memory m => ?_, fun e denies room m => ?_, fun granted => ?_⟩
    · exact Activation.converseAsk tick patience request memory m
    · exact Activation.serveDenied (Node.deniesExact.mpr denies) m
    · obtain ⟨child, located⟩ := Node.offered granted
      have numbered := built.forest.numbered found
      exact ⟨child, .ofLocated built.forest (numbered ▸ found) located⟩

theorem requestsContainedShaky :
    let tree := Tree.pair .shaky .shut
    let scene : Scene Unit := { plan := .lenient, tree, subject := ⟨1⟩, patience := 1 }
    ∃ (report : Report Unit (Timeline Unit)) (left : OpenNodes) (node : Node Unit),
      Plan.lenient.runTree 1 tree ⟨1⟩ .empty () = some (report, left) ∧
      report.seen.failures =
        [⟨⟨1⟩, .enter, .message "shut"⟩, ⟨⟨0⟩, .exit, .message "shaky"⟩] ∧
      tree.node? ⟨0⟩ = some node ∧
      (∃ x status, Contained (Lived scene) node x ∧ x.request = .child ∧ x.reply = .ok status) ∧
      (∀ m : Moment Unit (Timeline Unit),
        Activation.serve (evaluate scene 1) node (.childAt 0) m =
          some (.error (.noChildSurface .decorator .indexed), m)) ∧
      ∃ child, Granted scene node .child child ∧ scene.SettlesUnder child := by
  intro tree scene
  obtain ⟨ticked, requests⟩ := requestsContained (.pair .shaky .shut : tree.Built)
  have came : ((Plan.lenient.runTree 1 tree ⟨1⟩ .empty () :
      Option (Report Unit (Timeline Unit) × OpenNodes)).any fun (report, _) =>
        report.seen.failures =
          [⟨⟨1⟩, .enter, .message "shut"⟩, ⟨⟨0⟩, .exit, .message "shaky"⟩] ∧
        .called .tick ∈ report.seen.marks ⟨0⟩) = true := by
    decide +kernel
  obtain ⟨⟨report, left⟩, ok, shown⟩ := (Option.any_eq_true _ _).mp came
  obtain ⟨failures, marked⟩ := of_decide_eq_true shown
  obtain ⟨stage, called⟩ := Timeline.marksCalled.mp marked
  obtain ⟨before, after, split⟩ := List.append_of_mem called
  obtain ⟨node, found, own, other, ticks⟩ : ∃ node, tree.node? ⟨0⟩ = some node ∧
      node.locate .child = .ok ⟨1⟩ ∧
      node.locate (.childAt 0) = .error (.noChildSurface .decorator .indexed) ∧
      node.content.behavior.tick = Behavior.shaky.tick := ⟨_, rfl, rfl, rfl, rfl⟩
  have offered (e : CallbackError) : ¬ node.Denies .child e := fun denies => by
    cases own.symm.trans (Node.deniesExact.mpr denies)
  have here : scene.tree = tree := rfl
  refine ⟨report, left, node, ok, failures, found, ?_, ?_, ?_⟩
  · obtain ⟨depth, _, deep, _, _, _, _, _, exchanged, contained⟩ := ticked ok split found ticks
    have limit : Plan.lenient.maxDepth.toNat = 256 := rfl
    have top : depth ≠ Plan.lenient.maxDepth.toNat := by
      rcases Tree.depthOfPair deep with ⟨rfl, _⟩ | ⟨rfl, _⟩ <;> omega
    rw [if_neg top] at contained
    cases exchanged with
    | asks =>
      have first := contained _ List.mem_cons_self
      obtain ⟨_, status, _, same, _⟩ := first.answered offered
      exact ⟨_, status, first, rfl, same⟩
  · obtain ⟨_, denied, _⟩ := requests here found (.childAt 0)
    exact denied _ (Node.deniesExact.mp other) 1
  · obtain ⟨child, granted⟩ := (requests here found .child).2.2 offered
    have settles : scene.Settles := Scene.settlesOfRoutines fun {id node tick} found ticks => by
      rcases Tree.pairBehavior found with same | same
      · rw [same] at ticks
        exact ⟨_, (Option.some.inj ticks).symm⟩
      · rw [same] at ticks
        cases ticks
    exact ⟨child, granted, fun _ => settles⟩

end BehaviorTree
