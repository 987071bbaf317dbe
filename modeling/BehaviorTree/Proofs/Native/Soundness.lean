import BehaviorTree.Proofs.Catalog
import BehaviorTree.Proofs.Native.Activation
import BehaviorTree.Proofs.Session
import BehaviorTree.Proofs.Tree.Edits

/-! Well-formed native trees never fail. Where every node is an instance of a native class, every
decorator has a child and every bound on repetitions is one, a tick always comes to a status; and
that is an error only if one of its children has come to it, unless it is the one leaf that
answers nothing else. So an error of a run goes back to such a leaf, or to the depth limit. -/
namespace BehaviorTree
open Relation

variable {W : Type}

def Instance.Stock (content : Instance W) : Prop :=
  ∃ (catalog next : Catalog W) (name : String) (overrides : Properties),
    catalog.classes = Catalog.natives.classes ∧
      catalog.instantiate name overrides = some (content, next)

theorem Instance.Stock.native {content : Instance W} (stock : content.Stock) :
    ∃ n : Native, content.className = n.name ∧ content.kind = n.kind ∧
      content.behavior = n.behavior := by
  obtain ⟨catalog, _, name, overrides, classes, made⟩ := stock
  obtain ⟨cls, found, same⟩ := Option.map_eq_some_iff.mp made
  unfold Catalog.get? at found
  rw [classes] at found
  obtain ⟨n, _, here⟩ := List.mem_map.mp (SortedMap.memOfList found)
  cases here
  cases same
  exact ⟨n, rfl, rfl, rfl⟩

namespace Native

def Allows (unbounded : Bool) (value : Json) : Prop :=
  ∃ n : Int, value = .whole n ∧
    (1 ≤ n ∧ n.toNat < UInt64.size ∨ n = -1 ∧ unbounded = true)

theorem maxLoopAllowed {properties : Properties} {unbounded : Bool}
    (allowed : ∀ value ∈ properties.get? maxLoopName, Allows unbounded value) :
    ∃ bound, maxLoop properties unbounded = .ok bound := by
  cases found : properties.get? maxLoopName with
  | none => exact ⟨some 1, by simp only [maxLoop, found]⟩
  | some value =>
    obtain ⟨n, rfl, ⟨positive, word⟩ | ⟨rfl, rfl⟩⟩ := allowed value found
    · obtain ⟨most, rfl⟩ := Int.eq_ofNat_of_zero_le (show 0 ≤ n by omega)
      exact ⟨_, maxLoopWhole found (by omega) word unbounded⟩
    · exact ⟨none, by simp only [maxLoop, found]; rfl⟩

variable {node : Node W} {visits : List (NodeId × Status)}

theorem UpTo.last {passing : Status} {children status} (upTo : UpTo passing children visits status)
    (other : status ≠ passing) : ∃ visit ∈ visits, visit.2 = status := by
  induction upTo with
  | nothing => exact absurd rfl other
  | stops => exact ⟨_, List.mem_cons_self, rfl⟩
  | passes _ ih =>
    obtain ⟨visit, mem, same⟩ := ih other
    exact ⟨visit, List.mem_cons_of_mem _ mem, same⟩

theorem Repeats.last {bound : Option UInt64} {again : Status → Bool} {id done status}
    (rounds : Repeats bound again id done visits status) :
    ∃ visit ∈ visits, visit.2 = status := by
  induction rounds with
  | stops => exact ⟨_, List.mem_cons_self, rfl⟩
  | goesOn _ _ ih =>
    obtain ⟨visit, mem, same⟩ := ih
    exact ⟨visit, List.mem_cons_of_mem _ mem, same⟩

theorem locatedOfDecorator (decorator : node.kind = .decorator) (parental : node.children ≠ []) :
    ∃ id, node.locate .child = .ok id := by
  unfold Node.locate
  rw [if_pos decorator]
  cases children : node.children with
  | nil => exact absurd children parental
  | cons first rest => exact ⟨first, rfl⟩

structure Suits (n : Native) (node : Node W) : Prop where
  kind : node.kind = n.kind
  parental : node.kind = .decorator → node.children ≠ []
  loops : ∀ value ∈ node.content.properties.get? maxLoopName,
    Allows (n == .repeatUntilFailure || n == .repeatUntilSuccess) value

theorem Suits.decides {n : Native} (suits : n.Suits node) {decision}
    (decides : n.policy.Decides node visits decision) :
    ∃ status, decision = .ok status ∧
      (status = .error → n = .error ∨ ∃ visit ∈ visits, visit.2 = .error) := by
  have child (decorator : n.kind = .decorator) : ∃ id, node.locate .child = .ok id := by
    have kind := suits.kind.trans decorator
    exact locatedOfDecorator kind (suits.parental kind)
  cases policy : n.policy with
  | constant status =>
    rw [policy] at decides
    cases decides
    refine ⟨status, rfl, fun error => .inl ?_⟩
    cases error
    cases n <;> cases policy
    rfl
  | inOrder passing =>
    rw [policy] at decides
    cases decides with
    | @inOrder _ _ status upTo =>
      refine ⟨status, rfl, fun error => .inr ?_⟩
      have other : Status.error ≠ passing := by cases n <;> cases policy <;> decide
      exact error ▸ upTo.last (error ▸ other)
  | inverting =>
    rw [policy] at decides
    have decorator : n.kind = .decorator := by
      cases n <;> cases policy
      rfl
    cases decides with
    | inverts located status =>
      refine ⟨_, rfl, fun error => .inr ⟨_, List.mem_cons_self, ?_⟩⟩
      cases status <;> first | rfl | cases error
    | invertsNone missing =>
      obtain ⟨id, located⟩ := child decorator
      cases located.symm.trans missing
  | repeating unbounded again =>
    rw [policy] at decides
    have decorator : n.kind = .decorator := by cases n <;> cases policy <;> rfl
    have unbounded : unbounded = (n == .repeatUntilFailure || n == .repeatUntilSuccess) := by
      cases n <;> cases policy <;> rfl
    obtain ⟨bound, valid⟩ := maxLoopAllowed suits.loops
    cases decides with
    | @repeats _ _ _ _ _ status _ _ rounds =>
      exact ⟨status, rfl, fun error => .inr (error ▸ rounds.last)⟩
    | repeatsNone _ missing =>
      obtain ⟨id, located⟩ := child decorator
      cases located.symm.trans missing
    | invalid refused =>
      rw [unbounded] at refused
      cases valid.symm.trans refused

end Native

def Instance.Loops (content : Instance W) (value : Json) : Prop :=
  ∃ n : Int, value = .whole n ∧ (1 ≤ n ∧ n.toNat < UInt64.size ∨
    n = -1 ∧ (content.className = "RepeatUntilFailure" ∨ content.className = "RepeatUntilSuccess"))

namespace Tree

/- The nodes are made from the native classes, and fit for their place as far as the root
reaches. -/
structure WellFormed (tree : Tree W) : Prop where
  stock : ∀ {id node}, tree.node? id = some node → node.content.Stock
  parental : ∀ {root id node}, tree.root = some root → tree.Reaches root id →
    tree.node? id = some node → node.kind = .decorator → node.children ≠ []
  loops : ∀ {root id node}, tree.root = some root → tree.Reaches root id →
    tree.node? id = some node →
      ∀ value ∈ node.content.properties.get? Native.maxLoopName, node.content.Loops value

theorem WellFormed.suits {tree : Tree W} (wellFormed : tree.WellFormed) {root id node}
    (rooted : tree.root = some root) (reach : tree.Reaches root id)
    (found : tree.node? id = some node) :
    ∃ n : Native, node.content.className = n.name ∧ node.content.behavior = n.behavior ∧
      n.Suits node := by
  obtain ⟨n, name, kind, behavior⟩ := (wellFormed.stock found).native
  refine ⟨n, name, behavior, kind, wellFormed.parental rooted reach found, fun value mem => ?_⟩
  obtain ⟨count, same, bounded | ⟨unbounded, unlimited⟩⟩ :=
    wellFormed.loops rooted reach found value mem
  · exact ⟨count, same, .inl bounded⟩
  · refine ⟨count, same, .inr ⟨unbounded, ?_⟩⟩
    rw [name] at unlimited
    cases n <;> first | rfl | exact absurd unlimited (by decide)

/- What an error may go back to. -/
def Excuses (tree : Tree W) (t : Timeline W) : Prop :=
  (∃ id node stage, .called id .tick stage ∈ t ∧ tree.node? id = some node ∧
      node.content.className = "Error") ∨
    ∃ id, .refused id ∈ t

theorem Excuses.within {tree : Tree W} {t u : Timeline W} (excuses : tree.Excuses t)
    (within : ∀ o ∈ t, o ∈ u) : tree.Excuses u := by
  rcases excuses with ⟨id, node, stage, called, found⟩ | ⟨id, refused⟩
  · exact .inl ⟨id, node, stage, within _ called, found⟩
  · exact .inr ⟨id, within _ refused⟩

end Tree

def Occurrence.Harmless : Occurrence W → Prop
  | .consulted _ _ _ => False
  | .reported event _ => event.phase ≠ .fault ∧ event.phase ≠ .invalid
  | _ => True

theorem Occurrence.Smooth.harmless {id} {o : Occurrence W} (smooth : o.Smooth id) :
    o.Harmless := by
  cases o with
  | reported => exact smooth.2
  | consulted => exact smooth
  | _ => trivial

namespace Derivation
variable {scene : Scene W} {evaluated : Judgement W} {node : Node W} {n : Native}
  {s : Standing W} {t : Timeline W} {status : Status}

theorem Played.harmless (suits : n.Suits node)
    (played : Played scene evaluated node n.policy s t status)
    (below : ∀ {request id s t status last}, node.locate request = .ok id →
      evaluated id s t status last →
        (∀ o ∈ t, o.Harmless) ∧ (status = .error → scene.tree.Excuses t)) :
    (∀ o ∈ t, o.Harmless) ∧
      (status = .error → (n = .error ∧ ∃ stage, .called node.id .tick stage ∈ t) ∨
        scene.tree.Excuses t) := by
  have kept {id s t status last} (_ : evaluated id s t status last) (_ : True) : True := trivial
  cases played with
  | fails _ _ decides => cases (suits.decides decides).choose_spec.1
  | @answers before talk after ready _ _ _ _ inTurn decides smooth =>
    obtain ⟨_, same, erring⟩ := suits.decides decides
    cases same
    refine ⟨fun o mem => ?_, fun error => ?_⟩
    · simp only [List.mem_append, List.mem_singleton] at mem
      rcases mem with ((((rfl | mem) | rfl) | mem) | mem) | rfl
      · trivial
      · exact (smooth o (List.mem_append_left _ mem)).harmless
      · trivial
      · obtain ⟨visit, among, _, _, _, _, asked, mem⟩ := inTurn.shown kept trivial mem
        obtain ⟨_, located⟩ := decides.located visit among
        exact (below located asked).1 o mem
      · exact (smooth o (List.mem_append_right _ mem)).harmless
      · trivial
    · rcases erring error with leaf | ⟨visit, among, same⟩
      · exact .inl ⟨leaf, ready.stage, by simp⟩
      · obtain ⟨_, _, _, _, asked, within⟩ := inTurn.each kept trivial visit among
        obtain ⟨_, located⟩ := decides.located visit among
        exact .inr (((below located asked).2 same).within fun o mem => by simp [within o mem])

end Derivation

section Evaluation
open BehaviorTree.Derivation
variable {scene : Scene W} {root id : NodeId} {room : Nat} {s last : Standing W} {t : Timeline W}
  {status : Status}

theorem Evaluates.sound (forest : scene.tree.Forest) (wellFormed : scene.tree.WellFormed)
    (rooted : scene.tree.root = some root) (reach : scene.tree.Reaches root id)
    (known : (scene.tree.node? id).isSome) (evaluates : Evaluates scene room id s t status last) :
    (∀ o ∈ t, o.Harmless) ∧ (status = .error → scene.tree.Excuses t) := by
  induction room generalizing id s t status last with
  | zero =>
    cases evaluates with
    | absent none => simp [none] at known
    | refused => exact ⟨by simp [Occurrence.Harmless], fun _ => .inr ⟨id, by simp⟩⟩
    | activated _ room => cases room
  | succ room ih =>
    cases evaluates with
    | absent none => simp [none] at known
    | refused _ limit => cases limit
    | @activated _ _ node _ _ _ _ found room activated =>
      cases room
      obtain ⟨n, name, carries, suits⟩ := wellFormed.suits rooted reach found
      have played := activated.played carries
      obtain ⟨harmless, excused⟩ := played.harmless suits fun {request child _ _ _ _} located asked =>
        have asks : scene.tree.Asks id child := ⟨node, request, found, located⟩
        ih (reach.tail asks) (Tree.Forest.knownOfParent (forest.underOfAsks asks)) asked
      refine ⟨harmless, fun error => ?_⟩
      rcases excused error with ⟨rfl, stage, called⟩ | excused
      · have same := forest.numbered found
        exact .inl ⟨id, node, stage, same ▸ called, found, name⟩
      · exact excused

end Evaluation

structure Untroubled (tree : Tree W) (report : Report W (Timeline W)) : Prop where
  unasked : ∀ {fault responder stage}, .consulted fault responder stage ∉ report.seen
  fine : ∀ {event recorded}, .reported event recorded ∈ report.seen →
    event.phase ≠ .fault ∧ event.phase ≠ .invalid
  error : report.status = .error → tree.root = none ∨ tree.Excuses report.seen

theorem wellFormedNeverFaults {tree : Tree W} (built : tree.Built) (wellFormed : tree.WellFormed)
    {plan : Plan W} {patience subject openNodes world left} {report : Report W (Timeline W)}
    (ok : plan.runTree patience tree subject openNodes world = some (report, left)) :
    Untroubled tree report := by
  have assemble (harmless : ∀ o ∈ report.seen, o.Harmless)
      (error : report.status = .error → tree.root = none ∨ tree.Excuses report.seen) :
      Untroubled tree report :=
    ⟨fun mem => harmless _ mem, fun mem => harmless _ mem, error⟩
  rcases Plan.runSound ok with ⟨unrooted, rfl, _⟩ |
    ⟨root, equipped, t, stage, last, rooted, shown, seen, _, _, evaluates⟩
  · exact assemble (by simp [Report.idle, Observer.start]) fun _ => .inl unrooted
  · obtain ⟨node, found, _⟩ := built.forest.rooted rooted
    obtain ⟨harmless, excused⟩ := evaluates.sound built.forest wellFormed rooted .refl
      (Option.isSome_of_eq_some found)
    rw [seen] at assemble
    refine assemble (fun o mem => ?_) fun error => .inr ?_
    · rcases List.mem_append.mp mem with first | mem
      · rcases shown with rfl | ⟨_, rfl⟩
        · cases first
        · cases List.mem_singleton.mp first
          trivial
      · exact harmless o mem
    · exact (excused error).within fun o mem => List.mem_append_right _ mem

def Native.stock (n : Native) (overrides : Properties) : Instance W where
  name := n.name ++ "-" ++ toString (1 : UInt64)
  className := n.name
  kind := n.kind
  properties := n.parameters.insertAll overrides.toList
  behavior := n.behavior

theorem Instance.Stock.first (n : Native) (overrides : Properties) :
    (n.stock overrides : Instance W).Stock := by
  refine ⟨.natives, { Catalog.natives with issued := 1 }, n.name, overrides, rfl, ?_⟩
  unfold Catalog.instantiate
  rw [n.found]
  rfl

def Tree.erring : Tree Unit where
  id := ⟨"erring"⟩
  root := some ⟨0⟩
  nodes := #[{ id := ⟨0⟩, content := repeater, children := [⟨1⟩] },
    { id := ⟨1⟩, content := Native.error.stock .empty, parent := some ⟨0⟩ }]
where
  repeater : Instance Unit :=
    Native.repeatUntilSuccess.stock (.ofList [(Native.maxLoopName, .whole (-1))])

theorem Tree.Built.erring : Tree.erring.Built := by
  have step {t changed : Tree Unit} (edit : Edit Unit) {answer} (built : t.Built)
      (ok : t.edit edit = .ok (answer, changed)) : changed.Built := built.edited ok
  have one := step (.addNode erring.repeater) (.empty ⟨"erring"⟩ .strict) rfl
  have two := step (.addNode (Native.error.stock .empty)) one rfl
  have rooted := step (.setRoot ⟨0⟩) two rfl
  exact step (.addChild ⟨0⟩ ⟨1⟩) rooted rfl

theorem Tree.WellFormed.erring : Tree.erring.WellFormed := by
  have nodes {id node} (found : Tree.erring.node? id = some node) :
      node.content = Tree.erring.repeater ∧ node.children = [⟨1⟩] ∨
        node.content = Native.error.stock .empty := by
    have member : node ∈ Tree.erring.nodes := Array.mem_of_getElem? found
    simp only [Tree.erring, List.mem_toArray, List.mem_cons, List.not_mem_nil, or_false] at member
    rcases member with rfl | rfl
    · exact .inl ⟨rfl, rfl⟩
    · exact .inr rfl
  constructor
  · intro id node found
    rcases nodes found with ⟨same, _⟩ | same <;> exact same ▸ .first _ _
  · intro root id node _ _ found decorator
    rcases nodes found with ⟨_, children⟩ | same
    · simp [children]
    · rw [Node.kind, same] at decorator
      cases decorator
  · intro root id node _ _ found value mem
    rcases nodes found with ⟨same, _⟩ | same
    · rw [same] at mem ⊢
      have unlimited : Tree.erring.repeater.properties.get? Native.maxLoopName =
          some (.whole (-1)) := (SortedMap.getInsert _ _ _ _).trans (if_pos rfl)
      cases unlimited.symm.trans mem
      exact ⟨-1, rfl, .inr ⟨rfl, .inr rfl⟩⟩
    · rw [same] at mem
      cases mem

theorem neverFaultsErring : ∃ (report : Report Unit (Timeline Unit)) (left : OpenNodes),
    ({} : Plan Unit).runTree 1 Tree.erring ⟨1⟩ .empty () = some (report, left) ∧
      report.status = .error ∧ Untroubled Tree.erring report := by
  have error : (({} : Plan Unit).runTree 1 Tree.erring ⟨1⟩ .empty ()).map
      (fun ran : Report Unit (Timeline Unit) × OpenNodes => ran.1.status) = some .error := by
    decide +kernel
  obtain ⟨⟨report, left⟩, ok, same⟩ := Option.map_eq_some_iff.mp error
  exact ⟨report, left, ok, same, wellFormedNeverFaults .erring .erring ok⟩

/- A tree whose one leaf is not its root. -/
def Tree.rootless : Tree Unit where
  id := ⟨"rootless"⟩
  nodes := #[{ id := ⟨0⟩, content := Native.succeeder.stock .empty }]

theorem Tree.WellFormed.rootless : Tree.rootless.WellFormed where
  stock found := by
    have member := Array.mem_of_getElem? found
    simp only [Tree.rootless, List.mem_toArray, List.mem_cons, List.not_mem_nil, or_false] at member
    subst member
    exact .first _ _
  parental rooted := by cases rooted
  loops rooted := by cases rooted

theorem rootlessErrs : Tree.rootless.arity = .strict ∧ Tree.rootless.Built ∧
    Tree.rootless.WellFormed ∧
    ∃ (report : Report Unit (Timeline Unit)) (left : OpenNodes),
      ({} : Plan Unit).runTree 1 Tree.rootless ⟨1⟩ .empty () = some (report, left) ∧
        report.status = .error ∧ ¬ Tree.rootless.Excuses report.seen := by
  let bare : Tree Unit := { id := ⟨"rootless"⟩ }
  have added : bare.edit (.addNode (Native.succeeder.stock .empty)) =
      .ok (some ⟨0⟩, Tree.rootless) := rfl
  have built : Tree.rootless.Built := .edited (.empty bare.id .strict) added
  refine ⟨rfl, built, .rootless, .idle (), .empty, rfl, rfl, ?_⟩
  rintro (⟨id, node, stage, called, _⟩ | ⟨id, refused⟩)
  · cases called
  · cases refused

end BehaviorTree
