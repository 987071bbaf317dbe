import BehaviorTree.Host.Command
import BehaviorTree.Proofs.Session

/-! A host over time. What a command does to the trees and subjects of a host is said here
once, by what it did to the two maps; what holds of every host reached is read off from it.
Only a run writes the nodes that a subject has left open, apart from clearing them. -/
namespace BehaviorTree

variable {W : Type}

inductive Answer.Refusal {T : Type} : Answer W T → Prop where
  | treeCreated (e) : Refusal (.treeCreated (.error e))
  | treeDestroyed : Refusal (.treeDestroyed none)
  | nodeCreated (e) : Refusal (.nodeCreated (.error e))
  | treeMissing : Refusal (.treeEdited none)
  | treeEdited (e) : Refusal (.treeEdited (some (.error e)))
  | subjectDestroyed : Refusal (.subjectDestroyed false)
  | registered (e) : Refusal (.registered (.error e))
  | instantiated : Refusal (.instantiated none)

namespace Host

/- What the commands on a host leave behind. Each run has a patience and a world of its own. -/
inductive Leads (first : Host W) : List (Command W) → Host W → Prop where
  | start : Leads first [] first
  | next {commands middle command last world' patience world} {answer : Answer W (Timeline W)}
      (before : Leads first commands middle)
      (ok : middle.perform patience world command = some (answer, last, world')) :
      Leads first (commands ++ [command]) last

def performAll (patience : Nat) :
    Host W → W → List (Command W) → Option (List (Answer W (Timeline W)) × Host W × W)
  | h, world, [] => some ([], h, world)
  | h, world, command :: rest => do
    let (answer, middle, world) ← h.perform patience world command
    let (answers, last, world) ← performAll patience middle world rest
    some (answer :: answers, last, world)

inductive Effect (h last : Host W) : Command W → Prop where
  | none {command} (trees : last.trees = h.trees) (subjects : last.subjects = h.subjects) :
      Effect h last command
  | treeCreated {name id arity} (fresh : h.trees.get? id = none)
      (trees : last.trees = h.trees.insert id { id, arity })
      (subjects : last.subjects = h.subjects) : Effect h last (.createTree name)
  | nodeCreated {id className overrides tree content} (stored : h.trees.get? id = some tree)
      (trees : last.trees = h.trees.insert id (tree.addNode content))
      (subjects : last.subjects = h.subjects) : Effect h last (.createNode id className overrides)
  | treeEdited {id tree changed edit answer} (stored : h.trees.get? id = some tree)
      (edited : tree.edit edit = .ok (answer, changed))
      (trees : last.trees = h.trees.insert id changed)
      (subjects : last.subjects = h.subjects) : Effect h last (.editTree id edit)
  | treeDestroyed {id} (trees : last.trees = h.trees.erase id)
      (subjects : last.subjects = h.subjects.mapValues fun s =>
        if s.tree = id then { s with openNodes := .empty } else s) :
      Effect h last (.destroyTree id)
  | subjectCreated {id tree} (trees : last.trees = h.trees)
      (subjects : last.subjects = h.subjects.insert id { id, tree }) :
      Effect h last (.createSubject tree)
  | subjectDestroyed {id} (trees : last.trees = h.trees)
      (subjects : last.subjects = h.subjects.erase id) : Effect h last (.destroySubject id)
  | ran {id plan subject tree patience world left} {report : Report W (Timeline W)}
      (bound : h.subjects.get? id = some subject) (stored : h.trees.get? subject.tree = some tree)
      (ok : plan.runTree patience tree id subject.openNodes world = some (report, left))
      (trees : last.trees = h.trees)
      (subjects : last.subjects = h.subjects.insert id { subject with openNodes := left }) :
      Effect h last (.run id plan)

section
variable {h last : Host W} {patience : Nat} {world : W}

theorem performAllCons {command rest} {answers : List (Answer W (Timeline W))} {world'}
    (ok : performAll patience h world (command :: rest) = some (answers, last, world')) :
    ∃ answer middle between more,
      h.perform patience world command = some (answer, middle, between) ∧
      performAll patience middle between rest = some (more, last, world') ∧
      answers = answer :: more := by
  simp only [performAll, bind, Option.bind_eq_some_iff] at ok
  obtain ⟨⟨answer, middle, between⟩, first, ⟨more, last, world'⟩, others, same⟩ := ok
  cases same
  exact ⟨answer, middle, between, more, first, others, rfl⟩

theorem Leads.append {middle : Host W} {commands more} (left : Leads h commands middle)
    (right : Leads middle more last) : Leads h (commands ++ more) last := by
  induction right with
  | start => simpa using left
  | next _ ok ih =>
    rw [← List.append_assoc]
    exact ih.next ok

theorem Leads.ofPerformAll {commands} {answers : List (Answer W (Timeline W))} {world'}
    (ok : performAll patience h world commands = some (answers, last, world')) :
    Leads h commands last := by
  induction commands generalizing h world answers with
  | nil =>
    cases ok
    exact .start
  | cons command rest ih =>
    obtain ⟨_, middle, _, _, first, others, _⟩ := performAllCons ok
    exact (Leads.start.next first).append (ih others)

theorem createTreeExact {name id} (ok : h.createTree name = .ok (id, last)) :
    h.trees.get? id = none ∧ ∃ arity number,
      last = { h with trees := h.trees.insert id { id, arity }, lastTree := number } := by
  unfold createTree at ok
  split at ok
  split at ok
  · contradiction
  · rename_i fresh
    cases ok
    exact ⟨by simpa [SortedMap.contains] using fresh, _, _, rfl⟩

theorem resolveExact {id subject tree} (ok : h.resolve id = some (subject, tree)) :
    h.subjects.get? id = some subject ∧ h.trees.get? subject.tree = some tree := by
  unfold resolve at ok
  split at ok
  · contradiction
  · rename_i subject bound
    obtain ⟨tree, stored, same⟩ := Option.map_eq_some_iff.mp ok
    cases same
    exact ⟨bound, stored⟩

theorem runExact {plan id} {report : Report W (Timeline W)}
    (ok : h.run plan patience id world = some (report, last)) :
    (h.resolve id = none ∧ report = .idle world ∧ last = h) ∨
      ∃ subject tree left, h.resolve id = some (subject, tree) ∧
        plan.runTree patience tree id subject.openNodes world = some (report, left) ∧
        last = h.setOpenNodes id subject left := by
  unfold run at ok
  split at ok
  · rename_i unresolved
    cases ok
    exact .inl ⟨unresolved, rfl, rfl⟩
  · rename_i subject tree resolved
    obtain ⟨⟨_, left⟩, ran, same⟩ := Option.map_eq_some_iff.mp ok
    cases same
    exact .inr ⟨subject, tree, left, resolved, ran, rfl⟩

theorem destroyTreeExact {id tree} (ok : h.destroyTree id = some (tree, last)) :
    last = { h with
      trees := h.trees.erase id
      subjects := h.subjects.mapValues fun s =>
        if s.tree = id then { s with openNodes := .empty } else s } := by
  obtain ⟨_, _, same⟩ := Option.map_eq_some_iff.mp ok
  cases same
  rfl

theorem createNodeExact {id className overrides node}
    (ok : h.createNode id className overrides = .ok (node, last)) :
    ∃ tree content catalog, h.trees.get? id = some tree ∧
      last = { h with catalog, trees := h.trees.insert id (tree.addNode content) } := by
  unfold createNode at ok
  split at ok
  · contradiction
  · rename_i tree stored
    split at ok
    · contradiction
    · cases ok
      exact ⟨tree, _, _, stored, rfl⟩

theorem editTreeExact {id edit answer} (ok : h.editTree id edit = some (.ok (answer, last))) :
    ∃ tree changed, h.trees.get? id = some tree ∧ tree.edit edit = .ok (answer, changed) ∧
      last = { h with trees := h.trees.insert id changed } := by
  obtain ⟨tree, stored, same⟩ := Option.map_eq_some_iff.mp ok
  cases edited : tree.edit edit with
  | error e =>
    rw [edited] at same
    cases same
  | ok result =>
    rw [edited] at same
    cases same
    exact ⟨tree, _, stored, edited, rfl⟩

theorem destroySubjectExact {id} (ok : h.destroySubject id = some last) :
    (h.subjects.get? id).isSome ∧ last = { h with subjects := h.subjects.erase id } := by
  unfold destroySubject at ok
  split at ok
  · rename_i known
    cases ok
    exact ⟨known, rfl⟩
  · contradiction

inductive Does (h : Host W) (patience : Nat) (world : W) :
    Command W → Answer W (Timeline W) → Host W → Prop where
  | refused {command answer} (refusal : answer.Refusal) : Does h patience world command answer h
  | treeCreated {name id last} (done : h.createTree name = .ok (id, last)) :
      Does h patience world (.createTree name) (.treeCreated (.ok id)) last
  | treeDestroyed {id tree last} (done : h.destroyTree id = some (tree, last)) :
      Does h patience world (.destroyTree id) (.treeDestroyed (some tree)) last
  | nodeCreated {tree className overrides id last}
      (done : h.createNode tree className overrides = .ok (id, last)) :
      Does h patience world (.createNode tree className overrides) (.nodeCreated (.ok id)) last
  | treeEdited {id edit added last} (done : h.editTree id edit = some (.ok (added, last))) :
      Does h patience world (.editTree id edit) (.treeEdited (some (.ok added))) last
  | subjectCreated (tree) :
      Does h patience world (.createSubject tree) (.subjectCreated (h.createSubject tree).1)
        (h.createSubject tree).2
  | subjectDestroyed {id last} (done : h.destroySubject id = some last) :
      Does h patience world (.destroySubject id) (.subjectDestroyed true) last
  | registered {cls catalog} (done : h.catalog.register cls = .ok catalog) :
      Does h patience world (.register cls) (.registered (.ok ())) { h with catalog }
  | instantiated {className overrides content catalog}
      (done : h.catalog.instantiate className overrides = some (content, catalog)) :
      Does h patience world (.instantiate className overrides) (.instantiated (some content))
        { h with catalog }
  | ran {id plan report last} (done : h.run plan patience id world = some (report, last)) :
      Does h patience world (.run id plan) (.ran report.status report.seen) last

theorem does {command world'} {answer : Answer W (Timeline W)}
    (ok : h.perform patience world command = some (answer, last, world')) :
    Does h patience world command answer last := by
  cases command with
  | createTree name =>
    simp only [perform] at ok
    split at ok <;> cases ok
    · exact .treeCreated ‹_›
    · exact .refused (.treeCreated _)
  | destroyTree id =>
    simp only [perform] at ok
    split at ok <;> cases ok
    · exact .treeDestroyed ‹_›
    · exact .refused .treeDestroyed
  | createNode id className overrides =>
    simp only [perform] at ok
    split at ok <;> cases ok
    · exact .nodeCreated ‹_›
    · exact .refused (.nodeCreated _)
  | editTree id edit =>
    simp only [perform] at ok
    split at ok <;> cases ok
    · exact .treeEdited ‹_›
    · exact .refused (.treeEdited _)
    · exact .refused .treeMissing
  | createSubject tree =>
    cases ok
    exact .subjectCreated tree
  | destroySubject id =>
    simp only [perform] at ok
    split at ok <;> cases ok
    · exact .subjectDestroyed ‹_›
    · exact .refused .subjectDestroyed
  | register cls =>
    simp only [perform] at ok
    split at ok <;> cases ok
    · exact .registered ‹_›
    · exact .refused (.registered _)
  | instantiate className overrides =>
    simp only [perform] at ok
    split at ok <;> cases ok
    · exact .instantiated ‹_›
    · exact .refused .instantiated
  | run id plan =>
    obtain ⟨⟨_, _⟩, ran, same⟩ := Option.map_eq_some_iff.mp ok
    cases same
    exact .ran ran

theorem Does.effect {command} {answer : Answer W (Timeline W)}
    (does : Does h patience world command answer last) : Effect h last command := by
  cases does with
  | refused | registered | instantiated => exact .none rfl rfl
  | treeCreated done =>
    obtain ⟨fresh, _, _, rfl⟩ := createTreeExact done
    exact .treeCreated fresh rfl rfl
  | treeDestroyed done =>
    obtain rfl := destroyTreeExact done
    exact .treeDestroyed rfl rfl
  | nodeCreated done =>
    obtain ⟨_, _, _, stored, rfl⟩ := createNodeExact done
    exact .nodeCreated stored rfl rfl
  | treeEdited done =>
    obtain ⟨_, _, stored, edited, rfl⟩ := editTreeExact done
    exact .treeEdited stored edited rfl rfl
  | subjectCreated => exact .subjectCreated rfl rfl
  | subjectDestroyed done =>
    obtain ⟨_, rfl⟩ := destroySubjectExact done
    exact .subjectDestroyed rfl rfl
  | ran done =>
    rcases runExact done with ⟨_, _, rfl⟩ | ⟨subject, tree, left, resolved, played, rfl⟩
    · exact .none rfl rfl
    · obtain ⟨bound, stored⟩ := resolveExact resolved
      exact .ran bound stored played rfl rfl

theorem effect {command world'} {answer : Answer W (Timeline W)}
    (ok : h.perform patience world command = some (answer, last, world')) :
    Effect h last command :=
  (does ok).effect

end

def afterwards (h : Host Unit) (commands : List (Command Unit)) : Host Unit :=
  ((performAll 0 h () commands).map fun result => result.2.1).getD h

theorem Leads.afterwards {h : Host Unit} {commands}
    (ends : (performAll 0 h () commands).isSome = true) :
    Leads h commands (h.afterwards commands) := by
  obtain ⟨⟨answers, last, world⟩, ok⟩ := Option.isSome_iff_exists.mp ends
  rw [Host.afterwards, ok]
  exact .ofPerformAll ok

def leavingOpen : List (Command Unit) :=
  let leaf : Instance Unit := .detached "Leaf" .leaf { tick := some (.ofStatus .running) } .empty
  [.createTree (some "tree"), .editTree ⟨"tree"⟩ (.addNode leaf),
    .editTree ⟨"tree"⟩ (.setRoot ⟨0⟩), .createSubject ⟨"tree"⟩, .run ⟨1⟩ {}]

end Host
end BehaviorTree
