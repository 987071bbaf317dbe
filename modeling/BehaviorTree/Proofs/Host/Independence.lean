import BehaviorTree.Proofs.Host

/-! Subjects do not interfere. What a subject sees of its host is itself and the tree it is
bound to; a command that does not concern it leaves that as it is, and one that does goes the
same way on any host where it sees the same. So a schedule has for each subject the outcome
of the commands that concern it, done alone, and two schedules that have these in the same
order agree. Callbacks know nothing but their arguments here: the world is empty. -/
namespace BehaviorTree

variable {W : Type}

namespace Command

def Scheduled : Command W → Prop
  | .run _ _ | .destroySubject _ | .destroyTree _ => True
  | _ => False

def addresses (s : SubjectId) : Command W → Bool
  | .run id _ | .destroySubject id => id = s
  | _ => false

/- The runs and the end of a subject concern it, and so does the end of the tree that it is
bound to, as long as it is there. -/
def concerns (s : SubjectId) (bound : Option TreeId) : Command W → Bool
  | .destroyTree tree => bound = some tree
  | command => command.addresses s

def binding (s : SubjectId) (bound : Option TreeId) : Command W → Option TreeId
  | .destroySubject id => if id = s then none else bound
  | _ => bound

def concerning (s : SubjectId) : Option TreeId → List (Command W) → List (Command W)
  | _, [] => []
  | bound, command :: rest =>
    let more := concerning s (command.binding s bound) rest
    if command.concerns s bound then command :: more else more

def answersTo {T : Type} (s : SubjectId) : List (Command W) → List (Answer W T) → List (Answer W T)
  | command :: commands, answer :: answers =>
    let more := answersTo s commands answers
    if command.addresses s then answer :: more else more
  | _, _ => []

theorem concernedOfAddressed {s : SubjectId} {command : Command W} (bound : Option TreeId)
    (addressed : command.addresses s = true) : command.concerns s bound = true := by
  cases command with
  | destroyTree => cases addressed
  | _ => exact addressed

end Command

namespace Host

def bound (h : Host W) (s : SubjectId) : Option TreeId := (h.subjects.get? s).map Subject.tree

def outlook (h : Host W) (s : SubjectId) : Option (Subject × Option (Tree W)) :=
  (h.subjects.get? s).map fun subject => (subject, h.trees.get? subject.tree)

section
variable {g h last : Host W} {s : SubjectId}

theorem subjectOfOutlook (h : Host W) (s : SubjectId) :
    h.subjects.get? s = (h.outlook s).map Prod.fst := by
  unfold outlook
  cases h.subjects.get? s <;> rfl

theorem resolveOfOutlook (h : Host W) (s : SubjectId) :
    h.resolve s = (h.outlook s).bind fun seen => seen.2.map fun tree => (seen.1, tree) := by
  unfold resolve outlook
  cases h.subjects.get? s <;> rfl

theorem outlookKept (subject : last.subjects.get? s = h.subjects.get? s)
    (tree : ∀ id, h.bound s = some id → last.trees.get? id = h.trees.get? id) :
    last.outlook s = h.outlook s := by
  unfold outlook
  rw [subject]
  cases found : h.subjects.get? s with
  | none => rfl
  | some subject =>
    have same := tree subject.tree (by rw [bound, found]; rfl)
    simp only [Option.map_some, same]

theorem outlookElsewhere {patience world command world'} {answer : Answer W (Timeline W)}
    (scheduled : command.Scheduled)
    (ok : h.perform patience world command = some (answer, last, world'))
    (apart : command.concerns s (h.bound s) = false) : last.outlook s = h.outlook s := by
  cases effect ok with
  | none trees subjects => exact outlookKept (by rw [subjects]) fun _ _ => by rw [trees]
  | @treeDestroyed gone trees subjects =>
    have other : h.bound s ≠ some gone := by simpa [Command.concerns] using apart
    refine outlookKept ?_ fun id here => ?_
    · rw [subjects, SortedMap.getMapValues]
      cases found : h.subjects.get? s with
      | none => rfl
      | some subject =>
        have elsewhere : subject.tree ≠ gone := by simpa [bound, found] using other
        rw [Option.map_some, if_neg elsewhere]
    · have elsewhere : id ≠ gone := fun same => other (same ▸ here)
      rw [trees, SortedMap.getErase, if_neg elsewhere]
  | @subjectDestroyed id trees subjects =>
    have other : id ≠ s := by simpa [Command.concerns, Command.addresses] using apart
    refine outlookKept ?_ fun _ _ => by rw [trees]
    rw [subjects, SortedMap.getErase, if_neg other.symm]
  | @ran id _ _ _ _ _ _ _ _ _ _ trees subjects =>
    have other : id ≠ s := by simpa [Command.concerns, Command.addresses] using apart
    refine outlookKept ?_ fun _ _ => by rw [trees]
    rw [subjects, SortedMap.getInsert, if_neg other.symm]
  | treeCreated | nodeCreated | treeEdited | subjectCreated => exact scheduled.elim

theorem runAlike {patience world plan} {report : Report W (Timeline W)}
    (same : g.outlook s = h.outlook s)
    (ok : h.run plan patience s world = some (report, last)) :
    ∃ last', g.run plan patience s world = some (report, last') ∧
      last'.outlook s = last.outlook s := by
  have alike : g.resolve s = h.resolve s := by rw [resolveOfOutlook, resolveOfOutlook, same]
  rcases runExact ok with ⟨unresolved, rfl, rfl⟩ | ⟨subject, tree, left, resolved, ran, rfl⟩
  · exact ⟨g, by simp only [run, alike, unresolved], same⟩
  · refine ⟨g.setOpenNodes s subject left, ?_, ?_⟩
    · simp only [run, alike.trans resolved, ran, Option.map_some]
    · obtain ⟨found, stored⟩ := resolveExact resolved
      obtain ⟨found', stored'⟩ := resolveExact (alike.trans resolved)
      simp only [outlook, setOpenNodes, SortedMap.getInsert, if_true, Option.map_some, stored,
        stored']

theorem treeOfOutlook (same : g.outlook s = h.outlook s) {id} (bound : h.bound s = some id) :
    g.trees.get? id = h.trees.get? id := by
  obtain ⟨subject, found, rfl⟩ := Option.map_eq_some_iff.mp bound
  unfold outlook at same
  rw [found] at same
  obtain ⟨other, _, pair⟩ := Option.map_eq_some_iff.mp same
  obtain ⟨self, trees⟩ := Prod.mk.inj pair
  rw [self] at trees
  exact trees

theorem destroySubjectAlike (same : g.outlook s = h.outlook s) :
    (h.destroySubject s = none ∧ g.destroySubject s = none) ∨
      ∃ lastH lastG, h.destroySubject s = some lastH ∧ g.destroySubject s = some lastG ∧
        lastG.outlook s = lastH.outlook s := by
  have alike : g.subjects.contains s = h.subjects.contains s := by
    rw [SortedMap.contains, SortedMap.contains, subjectOfOutlook, subjectOfOutlook, same]
  unfold destroySubject
  rw [alike]
  cases h.subjects.contains s with
  | false => exact .inl ⟨rfl, rfl⟩
  | true =>
    refine .inr ⟨_, _, rfl, rfl, ?_⟩
    simp only [outlook, SortedMap.getErase, if_true, Option.map_none]

theorem destroyTreeAlike (same : g.outlook s = h.outlook s) {id} (bound : h.bound s = some id) :
    (h.destroyTree id = none ∧ g.destroyTree id = none) ∨
      ∃ tree lastH lastG, h.destroyTree id = some (tree, lastH) ∧
        g.destroyTree id = some (tree, lastG) ∧ lastG.outlook s = lastH.outlook s := by
  have subjects : g.subjects.get? s = h.subjects.get? s := by
    rw [subjectOfOutlook, subjectOfOutlook, same]
  unfold destroyTree
  rw [treeOfOutlook same bound]
  cases h.trees.get? id with
  | none => exact .inl ⟨rfl, rfl⟩
  | some tree =>
    refine .inr ⟨tree, _, _, rfl, rfl, ?_⟩
    obtain ⟨subject, found, rfl⟩ := Option.map_eq_some_iff.mp bound
    simp only [outlook, SortedMap.getMapValues, subjects, found, Option.map_some, if_true,
      SortedMap.getErase]

theorem performAlike {patience world command world'} {answer : Answer W (Timeline W)}
    (scheduled : command.Scheduled) (concerns : command.concerns s (h.bound s) = true)
    (same : g.outlook s = h.outlook s)
    (ok : h.perform patience world command = some (answer, last, world')) :
    ∃ last', g.perform patience world command = some (answer, last', world') ∧
      last'.outlook s = last.outlook s := by
  cases command with
  | run id plan =>
    cases of_decide_eq_true concerns
    obtain ⟨⟨report, changed⟩, ran, eq⟩ := Option.map_eq_some_iff.mp ok
    cases eq
    obtain ⟨last', ran', seen⟩ := runAlike same ran
    exact ⟨last', by simp only [perform, ran', Option.map_some], seen⟩
  | destroySubject id =>
    cases of_decide_eq_true concerns
    rcases destroySubjectAlike same with ⟨none, none'⟩ | ⟨lastH, lastG, done, done', seen⟩
    · simp only [perform, none] at ok
      cases ok
      exact ⟨g, by simp only [perform, none'], same⟩
    · simp only [perform, done] at ok
      cases ok
      exact ⟨lastG, by simp only [perform, done'], seen⟩
  | destroyTree id =>
    have bound := of_decide_eq_true concerns
    rcases destroyTreeAlike same bound with ⟨none, none'⟩ | ⟨tree, lastH, lastG, done, done', seen⟩
    · simp only [perform, none] at ok
      cases ok
      exact ⟨g, by simp only [perform, none'], same⟩
    · simp only [perform, done] at ok
      cases ok
      exact ⟨lastG, by simp only [perform, done'], seen⟩
  | _ => exact scheduled.elim

theorem boundAfterwards {patience world command world'} {answer : Answer W (Timeline W)}
    (scheduled : command.Scheduled)
    (ok : h.perform patience world command = some (answer, last, world')) (s : SubjectId) :
    last.bound s = command.binding s (h.bound s) := by
  cases command with
  | run id plan =>
    change last.bound s = h.bound s
    cases effect ok with
    | none _ subjects => rw [bound, subjects, bound]
    | ran found _ _ _ subjects =>
      rw [bound, subjects, SortedMap.getInsert]
      split
      · rename_i here
        rw [here, bound, found]
        rfl
      · rfl
  | destroyTree id =>
    change last.bound s = h.bound s
    cases effect ok with
    | none _ subjects => rw [bound, subjects, bound]
    | treeDestroyed _ subjects =>
      rw [bound, subjects, SortedMap.getMapValues, Option.map_map, bound]
      congr 1
      funext subject
      simp only [Function.comp_apply]
      split <;> rfl
  | destroySubject id =>
    simp only [Command.binding]
    cases there : h.subjects.contains id with
    | false =>
      simp only [perform, destroySubject, there] at ok
      cases ok
      split
      · rename_i here
        have absent : h.subjects.get? id = none := by simpa [SortedMap.contains] using there
        rw [← here, bound, absent]
        rfl
      · rfl
    | true =>
      simp only [perform, destroySubject, there] at ok
      cases ok
      simp only [bound, SortedMap.getErase]
      by_cases here : s = id
      · simp [here]
      · simp [here, Ne.symm here]
  | _ => exact scheduled.elim

end

theorem performAllAlone {patience : Nat} {s : SubjectId} {commands : List (Command Unit)}
    {g h last : Host Unit} {answers} (scheduled : ∀ command ∈ commands, command.Scheduled)
    (same : g.outlook s = h.outlook s)
    (ok : h.performAll patience () commands = some (answers, last, ())) :
    ∃ answers' last',
      g.performAll patience () (Command.concerning s (h.bound s) commands) =
        some (answers', last', ()) ∧
      Command.answersTo s (Command.concerning s (h.bound s) commands) answers' =
        Command.answersTo s commands answers ∧
      last'.outlook s = last.outlook s := by
  induction commands generalizing g h answers with
  | nil =>
    cases ok
    exact ⟨[], g, rfl, rfl, same⟩
  | cons command rest ih =>
    obtain ⟨answer, middle, _, more, first, others, rfl⟩ := performAllCons ok
    have here := scheduled command List.mem_cons_self
    have later := fun c mem => scheduled c (List.mem_cons_of_mem _ mem)
    have bound := boundAfterwards here first s
    simp only [Command.concerning]
    cases concerns : command.concerns s (h.bound s) with
    | true =>
      obtain ⟨middle', first', seen⟩ := performAlike here concerns same first
      obtain ⟨answers', last', ok', told, seen⟩ := ih later seen others
      rw [bound] at ok' told
      refine ⟨answer :: answers', last', ?_, ?_, seen⟩
      · simp only [if_true, performAll, first', bind, Option.bind_some, ok']
      · simp only [if_true, Command.answersTo, told]
    | false =>
      have unseen := outlookElsewhere here first concerns
      obtain ⟨answers', last', ok', told, seen⟩ := ih later (same.trans unseen.symm) others
      rw [bound] at ok' told
      have unaddressed : command.addresses s = false :=
        Bool.eq_false_iff.mpr fun addressed => by
          simp [Command.concernedOfAddressed _ addressed] at concerns
      refine ⟨answers', last', ok', ?_, seen⟩
      simp only [Bool.false_eq_true, if_false, Command.answersTo, unaddressed, told]

theorem performAllEnds {patience : Nat} {commands : List (Command Unit)} {h : Host Unit}
    (scheduled : ∀ command ∈ commands, command.Scheduled)
    (alone : ∀ s, ∃ (g last : Host Unit) (answers : List (Answer Unit (Timeline Unit))),
      g.outlook s = h.outlook s ∧
      g.performAll patience () (Command.concerning s (h.bound s) commands) =
        some (answers, last, ())) :
    ∃ answers last, h.performAll patience () commands = some (answers, last, ()) := by
  induction commands generalizing h with
  | nil => exact ⟨_, _, rfl⟩
  | cons command rest ih =>
    have here := scheduled command List.mem_cons_self
    obtain ⟨answer, middle, first⟩ :
        ∃ (answer : Answer Unit (Timeline Unit)) (middle : Host Unit),
          h.perform patience () command = some (answer, middle, ()) := by
      cases command with
      | run id plan =>
        obtain ⟨g, last, answers, same, ok⟩ := alone id
        have own {bound} : (Command.run id plan).concerns id bound = true :=
          decide_eq_true rfl
        simp only [Command.concerning, own, if_true] at ok
        obtain ⟨_, _, _, _, first, _⟩ := performAllCons ok
        obtain ⟨middle, first', _⟩ := performAlike here own same.symm first
        exact ⟨_, middle, first'⟩
      | _ => exact ⟨_, _, rfl⟩
    obtain ⟨answers, last, others⟩ := ih (fun c mem => scheduled c (List.mem_cons_of_mem _ mem))
      fun s => by
        obtain ⟨g, last, answers, same, ok⟩ := alone s
        rw [boundAfterwards here first s]
        simp only [Command.concerning] at ok
        cases concerns : command.concerns s (h.bound s) with
        | true =>
          simp only [concerns, if_true] at ok
          obtain ⟨_, middleG, _, more, firstG, others, _⟩ := performAllCons ok
          obtain ⟨middleG', firstG', seen⟩ := performAlike here concerns same first
          cases firstG.symm.trans firstG'
          exact ⟨middleG, last, more, seen, others⟩
        | false =>
          simp only [concerns, Bool.false_eq_true, if_false] at ok
          exact ⟨g, last, answers, same.trans (outlookElsewhere here first concerns).symm, ok⟩
    refine ⟨answer :: answers, last, ?_⟩
    simp only [performAll, first, bind, Option.bind_some, others]

theorem schedulesAgree {patience : Nat} {h last : Host Unit} {first second : List (Command Unit)}
    {answers} (scheduled : ∀ command ∈ first ++ second, command.Scheduled)
    (order : ∀ s, Command.concerning s (h.bound s) first = Command.concerning s (h.bound s) second)
    (ok : h.performAll patience () first = some (answers, last, ())) :
    (∃ answers' last', h.performAll patience () second = some (answers', last', ()) ∧
      ∀ s, Command.answersTo s first answers = Command.answersTo s second answers' ∧
        last.subjects.get? s = last'.subjects.get? s) ∧
    ∀ {s plan changed} {report : Report Unit (Timeline Unit)},
      h.run plan patience s () = some (report, changed) →
        changed.trees = h.trees ∧ ∀ other, other ≠ s →
          changed.subjects.get? other = h.subjects.get? other := by
  have ofFirst := fun c mem => scheduled c (List.mem_append_left second mem)
  have ofSecond := fun c mem => scheduled c (List.mem_append_right first mem)
  have aloneFirst := fun s => performAllAlone (s := s) ofFirst rfl ok
  constructor
  · obtain ⟨answers', last', ok'⟩ : ∃ answers last,
        h.performAll patience () second = some (answers, last, ()) :=
      performAllEnds ofSecond fun s => by
        obtain ⟨alone, lastAlone, ran, _⟩ := aloneFirst s
        exact ⟨h, lastAlone, alone, rfl, order s ▸ ran⟩
    refine ⟨answers', last', ok', fun s => ?_⟩
    obtain ⟨alone, lastAlone, ran, told, seen⟩ := aloneFirst s
    obtain ⟨alone', lastAlone', ran', told', seen'⟩ := performAllAlone (s := s) ofSecond rfl ok'
    rw [order s] at ran told
    cases ran.symm.trans ran'
    refine ⟨told.symm.trans told', ?_⟩
    rw [subjectOfOutlook, subjectOfOutlook, ← seen, seen']
  · intro s plan changed report ran
    rcases runExact ran with ⟨_, _, rfl⟩ | ⟨subject, tree, left, _, _, rfl⟩
    · exact ⟨rfl, fun _ _ => rfl⟩
    · refine ⟨rfl, fun other apart => ?_⟩
      rw [setOpenNodes, SortedMap.getInsert, if_neg apart]

theorem schedulesAgreeOnSharedTree :
    let h := afterwards (ofSettings { registerNatives := false })
      (leavingOpen ++ [.createSubject ⟨"tree"⟩])
    let first : List (Command Unit) := [.run ⟨1⟩ {}, .run ⟨2⟩ {}, .destroySubject ⟨1⟩,
      .destroyTree ⟨"tree"⟩, .run ⟨1⟩ {}, .run ⟨2⟩ {}]
    let second : List (Command Unit) := [.run ⟨2⟩ {}, .run ⟨1⟩ {}, .destroySubject ⟨1⟩,
      .run ⟨1⟩ {}, .destroyTree ⟨"tree"⟩, .run ⟨2⟩ {}]
    ∃ answers last answers' last', h.performAll 0 () first = some (answers, last, ()) ∧
      h.performAll 0 () second = some (answers', last', ()) ∧
      ∀ s, Command.answersTo s first answers = Command.answersTo s second answers' ∧
        last.subjects.get? s = last'.subjects.get? s := by
  intro h first second
  have order (s : SubjectId) :
      Command.concerning s (h.bound s) first = Command.concerning s (h.bound s) second := by
    by_cases one : s = ⟨1⟩
    · cases one
      rfl
    · by_cases two : s = ⟨2⟩
      · cases two
        rfl
      · simp [first, second, Command.concerning, Command.concerns, Command.addresses,
          Command.binding, Ne.symm one, Ne.symm two]
  have ends : (h.performAll 0 () first).isSome = true := by decide +kernel
  obtain ⟨⟨answers, last, _⟩, ok⟩ := Option.isSome_iff_exists.mp ends
  obtain ⟨⟨answers', last', ok', agree⟩, _⟩ :=
    schedulesAgree (by simp [first, second, Command.Scheduled]) order ok
  exact ⟨answers, last, answers', last', ok, ok', agree⟩

end Host
end BehaviorTree
