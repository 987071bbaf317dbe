import BehaviorTree.Proofs.Host
import BehaviorTree.Proofs.Host.Naming
import BehaviorTree.Proofs.Tree.Edits
import Mathlib.Data.Nat.Find
import Mathlib.Order.Bounds.Basic

/-! The numbers that a host gives out. Only finitely many names are taken, so a search for a free
one ends, and it ends at the first. The counters go up, whatever is created under chosen names or
destroyed in between, so a number that has been given out is never given out again. -/
namespace BehaviorTree

variable {W : Type}

namespace Host

section Search
variable {trees : SortedMap TreeId (Tree W)}

def Vacant (trees : SortedMap TreeId (Tree W)) (last : Nat) : Set Nat :=
  { number | last < number ∧ trees.contains (numberedName number) = false }

theorem someVacant (trees : SortedMap TreeId (Tree W)) (last : Nat) :
    ∃ number ∈ Vacant trees last, number ≤ last + trees.size + 1 := by
  by_contra none
  have distinct (count : Nat) :
      ((List.range count).map fun i => numberedName (last + 1 + i)).Nodup := by
    refine List.nodup_range.map fun i j same => ?_
    have := numberedNameInjective same
    omega
  have all : ((List.range (trees.size + 1)).map fun i => numberedName (last + 1 + i)) ⊆
      trees.keys := by
    intro name mem
    obtain ⟨i, below, rfl⟩ := List.mem_map.mp mem
    rw [List.mem_range] at below
    refine SortedMap.memKeys (Bool.not_eq_false _ ▸ fun free => none ⟨_, ⟨?_, free⟩, ?_⟩)
    · omega
    · omega
  have fits := (List.subperm_of_subset (distinct _) all).length_le
  rw [List.length_map, List.length_range, SortedMap.keys, List.length_map] at fits
  exact absurd fits (Nat.not_succ_le_self _)

theorem firstVacant (trees : SortedMap TreeId (Tree W)) (last : Nat) :
    ∃ number, IsLeast (Vacant trees last) number ∧ number ≤ last + trees.size + 1 := by
  classical
  obtain ⟨some, vacant, near⟩ := someVacant trees last
  have any : ∃ number, number ∈ Vacant trees last := ⟨some, vacant⟩
  exact ⟨Nat.find any, ⟨Nat.find_spec any, fun _ => Nat.find_min' any⟩,
    (Nat.find_min' any vacant).trans near⟩

theorem freeNumberLeast {trials number : Nat} {last : UInt64}
    (least : IsLeast (Vacant trees last.toNat) number) (near : number ≤ last.toNat + trials + 1)
    (word : number < UInt64.size) : (freeNumber trees trials last).toNat = number := by
  obtain ⟨above, free⟩ := least.1
  have next (last : UInt64) (above : last.toNat < number) : (last + 1).toNat = last.toNat + 1 := by
    rw [UInt64.toNat_add, UInt64.toNat_one, Nat.mod_eq_of_lt]
    exact Nat.lt_of_le_of_lt above word
  induction trials generalizing last with
  | zero =>
    rw [freeNumber, next last above]
    omega
  | succ trials ih =>
    have name : generatedName (last + 1) = numberedName (last.toNat + 1) := by
      rw [generatedNumbered, next last above]
    rw [freeNumber, name]
    cases taken : trees.contains (numberedName (last.toNat + 1)) with
    | false =>
      have first := least.2 ⟨Nat.lt_succ_self _, taken⟩
      rw [if_neg Bool.false_ne_true, next last above]
      omega
    | true =>
      have further : last.toNat + 1 < number := by
        refine Nat.lt_of_le_of_ne above fun same => ?_
        rw [← same, taken] at free
        contradiction
      rw [if_pos rfl]
      rw [← next last above] at further
      refine ih ⟨⟨further, free⟩, fun other vacant => least.2 ⟨?_, vacant.2⟩⟩ ?_ further
      · have less := vacant.1
        rw [next last above] at less
        omega
      · rw [next last above]
        omega

end Search

def Unnamed (name : Option String) : Prop := name.getD "" = ""

instance (name : Option String) : Decidable (Unnamed name) := inferInstanceAs (Decidable (_ = _))

def Spares (h : Host W) : Command W → Prop
  | .createTree name =>
    Unnamed name → ∃ number ∈ Vacant h.trees h.lastTree.toNat, number < UInt64.size
  | .createSubject _ => h.lastSubject.toNat + 1 < UInt64.size
  | _ => True

structure Deed (W : Type) where
  command : Command W
  answer : Answer W (Timeline W)

namespace Deed

def generated? : Deed W → Option TreeId
  | ⟨.createTree name, .treeCreated (.ok id)⟩ => if Unnamed name then some id else none
  | _ => none

def createdSubject? : Deed W → Option SubjectId
  | ⟨.createSubject _, .subjectCreated id⟩ => some id
  | _ => none

def destroyedSubject? : Deed W → Option SubjectId
  | ⟨.destroySubject id, .subjectDestroyed true⟩ => some id
  | _ => none

theorem refused {command : Command W} {answer : Answer W (Timeline W)}
    (refusal : answer.Refusal) :
    generated? ⟨command, answer⟩ = none ∧ createdSubject? ⟨command, answer⟩ = none ∧
      destroyedSubject? ⟨command, answer⟩ = none := by
  cases refusal <;> cases command <;> exact ⟨rfl, rfl, rfl⟩

end Deed

inductive Lives (first : Host W) : List (Deed W) → Host W → Prop where
  | start : Lives first [] first
  | next {deeds middle command answer last patience world world'}
      (before : Lives first deeds middle)
      (spares : middle.Spares command)
      (ok : middle.perform patience world command = some (answer, last, world')) :
      Lives first (deeds ++ [⟨command, answer⟩]) last

section Step
variable {h last : Host W} {patience : Nat} {world world' : W} {command : Command W}
  {answer : Answer W (Timeline W)}

theorem createTreeUnnamed {name : Option String} (unnamed : Unnamed name) :
    h.createTree name =
      if h.trees.contains (generatedName (freeNumber h.trees h.trees.size h.lastTree)) then
        .error (.duplicateTree (generatedName (freeNumber h.trees h.trees.size h.lastTree)))
      else
        .ok (generatedName (freeNumber h.trees h.trees.size h.lastTree),
          { h with
            trees := h.trees.insert (generatedName (freeNumber h.trees h.trees.size h.lastTree))
              { id := generatedName (freeNumber h.trees h.trees.size h.lastTree)
                arity := if h.settings.strictArity then .strict else .relaxed }
            lastTree := freeNumber h.trees h.trees.size h.lastTree }) := by
  unfold createTree
  cases name with
  | none => rfl
  | some text =>
    have empty : text = "" := unnamed
    simp only [if_pos empty]
    rfl

theorem createTreeNamed {name : Option String} {id} (named : ¬ Unnamed name)
    (ok : h.createTree name = .ok (id, last)) : last.lastTree = h.lastTree := by
  unfold createTree at ok
  cases name with
  | none => exact absurd rfl named
  | some text =>
    have some : text ≠ "" := named
    simp only [if_neg some] at ok
    split at ok
    · contradiction
    · cases ok
      rfl

theorem createTreeGenerated {name : Option String} {id} (unnamed : Unnamed name)
    (ok : h.createTree name = .ok (id, last)) :
    id = generatedName last.lastTree ∧
      last.lastTree = freeNumber h.trees h.trees.size h.lastTree := by
  rw [createTreeUnnamed unnamed] at ok
  split at ok
  · contradiction
  · cases ok
    exact ⟨rfl, rfl⟩

inductive Advances (h last : Host W) : Deed W → Prop where
  | kept {deed} (unnamed : deed.generated? = none) (unborn : deed.createdSubject? = none)
      (trees : last.lastTree = h.lastTree) (subjects : last.lastSubject = h.lastSubject) :
      Advances h last deed
  | tree {name} (unnamed : Unnamed name)
      (trees : last.lastTree = freeNumber h.trees h.trees.size h.lastTree)
      (subjects : last.lastSubject = h.lastSubject) :
      Advances h last ⟨.createTree name, .treeCreated (.ok (generatedName last.lastTree))⟩
  | subject {tree} (trees : last.lastTree = h.lastTree)
      (subjects : last.lastSubject = h.lastSubject + 1) :
      Advances h last ⟨.createSubject tree, .subjectCreated ⟨last.lastSubject⟩⟩

theorem createTreeAdvances {name : Option String} {id} (ok : h.createTree name = .ok (id, last)) :
    Advances h last ⟨.createTree name, .treeCreated (.ok id)⟩ := by
  have subjects : last.lastSubject = h.lastSubject := by
    obtain ⟨_, _, _, rfl⟩ := createTreeExact ok
    rfl
  by_cases unnamed : Unnamed name
  · obtain ⟨rfl, trees⟩ := createTreeGenerated unnamed ok
    exact .tree unnamed trees subjects
  · exact .kept (if_neg unnamed) rfl (createTreeNamed unnamed ok) subjects

theorem advances (ok : h.perform patience world command = some (answer, last, world')) :
    Advances h last ⟨command, answer⟩ := by
  cases does ok with
  | treeCreated done => exact createTreeAdvances done
  | subjectCreated => exact .subject rfl rfl
  | refused refusal =>
    obtain ⟨unnamed, unborn, _⟩ := Deed.refused refusal
    exact .kept unnamed unborn rfl rfl
  | registered | instantiated => exact .kept rfl rfl rfl rfl
  | treeDestroyed done =>
    obtain rfl := destroyTreeExact done
    exact .kept rfl rfl rfl rfl
  | nodeCreated done =>
    obtain ⟨_, _, _, _, rfl⟩ := createNodeExact done
    exact .kept rfl rfl rfl rfl
  | treeEdited done =>
    obtain ⟨_, _, _, _, rfl⟩ := editTreeExact done
    exact .kept rfl rfl rfl rfl
  | subjectDestroyed done =>
    obtain ⟨_, rfl⟩ := destroySubjectExact done
    exact .kept rfl rfl rfl rfl
  | ran done =>
    rcases runExact done with ⟨_, _, rfl⟩ | ⟨_, _, _, _, _, rfl⟩
    · exact .kept rfl rfl rfl rfl
    · exact .kept rfl rfl rfl rfl

theorem Effect.own (effect : Effect h last command)
    (before : ∀ {id tree}, h.trees.get? id = some tree → tree.id = id) {id tree}
    (stored : last.trees.get? id = some tree) : tree.id = id := by
  cases effect with
  | none trees | subjectCreated trees | subjectDestroyed trees | ran _ _ _ trees =>
    rw [trees] at stored
    exact before stored
  | treeCreated _ trees =>
    rw [trees, SortedMap.getInsert] at stored
    split at stored
    · rename_i here
      cases stored
      exact here.symm
    · exact before stored
  | nodeCreated held trees =>
    rw [trees, SortedMap.getInsert] at stored
    split at stored
    · rename_i here
      cases stored
      exact (before held).trans here.symm
    · exact before stored
  | treeEdited held edited trees =>
    rw [trees, SortedMap.getInsert] at stored
    split at stored
    · rename_i here
      cases stored
      exact (Tree.idByEdit edited).trans ((before held).trans here.symm)
    · exact before stored
  | treeDestroyed trees =>
    rw [trees, SortedMap.getErase] at stored
    split at stored
    · contradiction
    · exact before stored

theorem Effect.people (effect : Effect h last command)
    (unborn : ∀ tree, command ≠ .createSubject tree)
    (undying : ∀ id, command ≠ .destroySubject id) (id : SubjectId) :
    (last.subjects.get? id).isSome = (h.subjects.get? id).isSome := by
  cases effect with
  | none _ subjects | treeCreated _ _ subjects | nodeCreated _ _ subjects
  | treeEdited _ _ _ subjects => rw [subjects]
  | treeDestroyed _ subjects => rw [subjects, SortedMap.getMapValues, Option.isSome_map]
  | subjectCreated => exact absurd rfl (unborn _)
  | subjectDestroyed => exact absurd rfl (undying _)
  | ran bound _ _ _ subjects =>
    rw [subjects, SortedMap.getInsert]
    split
    · rename_i here
      rw [here, bound]
      rfl
    · rfl

/- Whatever subjects there are afterwards have been there before, or have just been created. -/
theorem peopled (ok : h.perform patience world command = some (answer, last, world'))
    (id : SubjectId) :
    (last.subjects.get? id).isSome ↔ Deed.createdSubject? ⟨command, answer⟩ = some id ∨
      (h.subjects.get? id).isSome ∧ Deed.destroyedSubject? ⟨command, answer⟩ ≠ some id := by
  have kept (subjects : (last.subjects.get? id).isSome = (h.subjects.get? id).isSome)
      (unborn : Deed.createdSubject? ⟨command, answer⟩ = none)
      (undying : Deed.destroyedSubject? ⟨command, answer⟩ = none) :
      (last.subjects.get? id).isSome ↔ Deed.createdSubject? ⟨command, answer⟩ = some id ∨
        (h.subjects.get? id).isSome ∧ Deed.destroyedSubject? ⟨command, answer⟩ ≠ some id := by
    simp [subjects, unborn, undying]
  cases does ok with
  | refused refusal =>
    obtain ⟨_, unborn, undying⟩ := Deed.refused refusal
    exact kept rfl unborn undying
  | subjectCreated tree =>
    simp only [createSubject, SortedMap.getInsert, Deed.createdSubject?, Deed.destroyedSubject?]
    by_cases here : id = ⟨h.lastSubject + 1⟩
    · simp [here]
    · simp [here, Ne.symm here]
  | @subjectDestroyed gone _ done =>
    obtain ⟨_, rfl⟩ := destroySubjectExact done
    simp only [SortedMap.getErase, Deed.createdSubject?, Deed.destroyedSubject?]
    by_cases here : id = gone
    · simp [here]
    · simp [here, Ne.symm here]
  | _ => exact kept ((effect ok).people (by simp) (by simp) id) rfl rfl

theorem destroyedLived {id}
    (ok : h.perform patience world command = some (answer, last, world'))
    (destroyed : Deed.destroyedSubject? ⟨command, answer⟩ = some id) :
    (h.subjects.get? id).isSome := by
  cases does ok with
  | subjectDestroyed done =>
    cases destroyed
    exact (destroySubjectExact done).1
  | refused refusal =>
    rw [(Deed.refused refusal).2.2] at destroyed
    contradiction
  | _ => cases destroyed

theorem generatedAbove {name : Option String} (unnamed : Unnamed name)
    (spares : h.Spares (.createTree name)) :
    h.lastTree.toNat < (freeNumber h.trees h.trees.size h.lastTree).toNat := by
  obtain ⟨number, least, near⟩ := firstVacant h.trees h.lastTree.toNat
  obtain ⟨some, vacant, word⟩ := spares unnamed
  rw [freeNumberLeast least near (Nat.lt_of_le_of_lt (least.2 vacant) word)]
  exact least.1.1

theorem subjectAbove {tree : TreeId} (spares : h.Spares (.createSubject tree)) :
    (h.lastSubject + 1).toNat = h.lastSubject.toNat + 1 := by
  rw [UInt64.toNat_add, UInt64.toNat_one]
  exact Nat.mod_eq_of_lt spares

structure Issued (h : Host W) (deeds : List (Deed W)) (numbers : List Nat) : Prop where
  own : ∀ {id tree}, h.trees.get? id = some tree → tree.id = id
  names : deeds.filterMap Deed.generated? = numbers.map numberedName
  rising : numbers.Pairwise (· < ·)
  tried : ∀ number ∈ numbers, number ≤ h.lastTree.toNat
  distinct : (deeds.filterMap Deed.createdSubject?).Nodup
  given : ∀ id ∈ deeds.filterMap Deed.createdSubject?, id.number.toNat ≤ h.lastSubject.toNat
  live : ∀ {id}, (h.subjects.get? id).isSome → id ∈ deeds.filterMap Deed.createdSubject?
  gone : ∀ id ∈ deeds.filterMap Deed.destroyedSubject?,
    id ∈ deeds.filterMap Deed.createdSubject? ∧ h.subjects.get? id = none

theorem Issued.fresh (settings : Settings) : (ofSettings settings : Host W).Issued [] [] where
  own found := by simp [ofSettings] at found
  names := rfl
  rising := .nil
  tried := by simp
  distinct := .nil
  given := by simp
  live found := by simp [ofSettings] at found
  gone := by simp

section Issued
variable {deeds : List (Deed W)} {numbers : List Nat} (issued : h.Issued deeds numbers)
  (spares : h.Spares command)
  (ok : h.perform patience world command = some (answer, last, world'))
include issued spares ok

theorem Issued.namesNext : ∃ numbers' : List Nat,
    (deeds ++ [Deed.mk command answer]).filterMap Deed.generated? = numbers'.map numberedName ∧
      numbers'.Pairwise (· < ·) ∧ ∀ number ∈ numbers', number ≤ last.lastTree.toNat := by
  rw [List.filterMap_append, issued.names]
  cases advances ok with
  | kept unnamed _ trees =>
    exact ⟨numbers, by simp [unnamed], issued.rising, trees ▸ issued.tried⟩
  | subject trees => exact ⟨numbers, by simp [Deed.generated?], issued.rising, trees ▸ issued.tried⟩
  | tree unnamed trees =>
    have above := generatedAbove unnamed spares
    rw [← trees] at above
    refine ⟨numbers ++ [last.lastTree.toNat], ?_, ?_, ?_⟩
    · simp [Deed.generated?, unnamed, generatedNumbered]
    · refine List.pairwise_append.mpr ⟨issued.rising, by simp, fun number mem other new => ?_⟩
      rw [List.mem_singleton.mp new]
      exact Nat.lt_of_le_of_lt (issued.tried number mem) above
    · intro number mem
      rcases List.mem_append.mp mem with early | new
      · exact (issued.tried number early).trans above.le
      · exact (List.mem_singleton.mp new).le

theorem Issued.subjectsNext :
    ((deeds ++ [Deed.mk command answer]).filterMap Deed.createdSubject?).Nodup ∧
      ∀ id ∈ (deeds ++ [Deed.mk command answer]).filterMap Deed.createdSubject?,
        id.number.toNat ≤ last.lastSubject.toNat := by
  rw [List.filterMap_append]
  cases advances ok with
  | kept _ unborn _ subjects =>
    simp only [List.filterMap_cons, unborn, List.filterMap_nil, List.append_nil, subjects]
    exact ⟨issued.distinct, issued.given⟩
  | tree _ _ subjects =>
    simp only [List.filterMap_cons, Deed.createdSubject?, List.filterMap_nil, List.append_nil,
      subjects]
    exact ⟨issued.distinct, issued.given⟩
  | subject _ subjects =>
    have above := subjectAbove spares
    rw [← subjects] at above
    simp only [List.filterMap_cons, Deed.createdSubject?, List.filterMap_nil]
    refine ⟨List.nodup_append.mpr ⟨issued.distinct, List.nodup_singleton _, ?_⟩, ?_⟩
    · rintro id mem _ new rfl
      have old := issued.given id mem
      rw [List.mem_singleton.mp new] at old
      exact Nat.not_succ_le_self _ (above ▸ old)
    · intro id mem
      rcases List.mem_append.mp mem with early | new
      · exact (issued.given id early).trans (above ▸ Nat.le_succ _)
      · rw [List.mem_singleton.mp new]

theorem Issued.next : ∃ numbers', last.Issued (deeds ++ [Deed.mk command answer]) numbers' := by
  obtain ⟨numbers', names, rising, tried⟩ := issued.namesNext spares ok
  obtain ⟨distinct, given⟩ := issued.subjectsNext spares ok
  -- A subject that has just been created is new, so none that was destroyed comes back.
  have once {id} (created : Deed.createdSubject? ⟨command, answer⟩ = some id)
      (early : id ∈ deeds.filterMap Deed.createdSubject?) : False := by
    rw [List.filterMap_append, List.nodup_append] at distinct
    exact distinct.2.2 id early id (by simp [created]) rfl
  refine ⟨numbers', (effect ok).own issued.own, names, rising, tried, distinct, given, ?_, ?_⟩
  · intro id found
    rw [List.filterMap_append, List.mem_append]
    rcases (peopled ok id).mp found with created | ⟨before, _⟩
    · exact .inr (by simp [created])
    · exact .inl (issued.live before)
  · intro id mem
    rw [List.filterMap_append, List.mem_append] at mem ⊢
    have known : id ∈ deeds.filterMap Deed.createdSubject? := by
      rcases mem with early | now
      · exact (issued.gone id early).1
      · exact issued.live (destroyedLived ok (by simpa using now))
    refine ⟨.inl known, Option.not_isSome_iff_eq_none.mp fun found => ?_⟩
    rcases (peopled ok id).mp found with created | ⟨before, kept⟩
    · exact once created known
    · rcases mem with early | now
      · rw [(issued.gone id early).2] at before
        contradiction
      · exact kept (by simpa using now)

end Issued

end Step

section
variable {h : Host W}

theorem Lives.issued {settings : Settings} {deeds : List (Deed W)}
    (lives : Lives (ofSettings settings) deeds h) : ∃ numbers, h.Issued deeds numbers := by
  induction lives with
  | start => exact ⟨[], .fresh settings⟩
  | next _ spares ok ih =>
    obtain ⟨numbers, issued⟩ := ih
    exact issued.next spares ok

/- With as many numbers left as there are trees and one more, one of them is free. -/
theorem sparesEarly (trees : h.lastTree.toNat + h.trees.size + 1 < UInt64.size)
    (subjects : h.lastSubject.toNat + 1 < UInt64.size) (command : Command W) :
    h.Spares command := by
  cases command with
  | createTree name =>
    intro _
    obtain ⟨number, vacant, near⟩ := someVacant h.trees h.lastTree.toNat
    exact ⟨number, vacant, Nat.lt_of_le_of_lt near trees⟩
  | createSubject _ => exact subjects
  | _ => trivial

theorem createTreeVacant {number : Nat} {name : Option String} (unnamed : Unnamed name)
    (least : IsLeast (Vacant h.trees h.lastTree.toNat) number) (word : number < UInt64.size) :
    ∃ created arity, h.createTree name = .ok (numberedName number, created) ∧
      created.trees = h.trees.insert (numberedName number) { id := numberedName number, arity } := by
  obtain ⟨first, least', near⟩ := firstVacant h.trees h.lastTree.toNat
  obtain rfl := least.unique least'
  have found := freeNumberLeast least near word
  have free : h.trees.contains (generatedName (freeNumber h.trees h.trees.size h.lastTree)) =
      false := by
    rw [generatedNumbered, found]
    exact least.1.2
  rw [createTreeUnnamed unnamed, free, if_neg Bool.false_ne_true, generatedNumbered, found]
  exact ⟨_, _, rfl, rfl⟩

theorem numbersFresh {settings : Settings} {deeds : List (Deed W)}
    (lives : Lives (ofSettings settings) deeds h) :
    (∀ {id tree}, h.trees.get? id = some tree → tree.id = id) ∧
    (deeds.filterMap Deed.createdSubject?).Nodup ∧
    (∀ id ∈ deeds.filterMap Deed.destroyedSubject?, h.resolve id = none) ∧
    ∃ numbers : List Nat, deeds.filterMap Deed.generated? = numbers.map numberedName ∧
      numbers.Pairwise (· < ·) ∧
      ∃ number, IsLeast (Vacant h.trees h.lastTree.toNat) number ∧
        number ≤ h.lastTree.toNat + h.trees.size + 1 ∧
        (∀ earlier ∈ numbers, earlier < number) ∧
        ∀ name, Unnamed name → number < UInt64.size →
          ∃ created arity, h.createTree name = .ok (numberedName number, created) ∧
            created.trees.get? (numberedName number) =
              some { id := numberedName number, arity } ∧
            ∀ {id tree}, h.trees.get? id = some tree → created.trees.get? id = some tree := by
  obtain ⟨numbers, issued⟩ := lives.issued
  obtain ⟨number, least, near⟩ := firstVacant h.trees h.lastTree.toNat
  refine ⟨issued.own, issued.distinct, fun id mem => ?_, numbers, issued.names, issued.rising,
    number, least, near, fun earlier mem => ?_, fun _ unnamed word => ?_⟩
  · rw [resolve, (issued.gone id mem).2]
  · exact Nat.lt_of_le_of_lt (issued.tried earlier mem) least.1.1
  · obtain ⟨created, arity, ok, trees⟩ := createTreeVacant unnamed least word
    refine ⟨created, arity, ok, by rw [trees, SortedMap.getInsert, if_pos rfl], ?_⟩
    intro id tree stored
    rw [trees, SortedMap.getInsert, if_neg, stored]
    rintro rfl
    have free := least.1.2
    rw [SortedMap.contains, stored] at free
    contradiction

end

section
variable {h : Host Unit}

def deeds? (h : Host Unit) : List (Command Unit) → Option (List (Deed Unit) × Host Unit)
  | [] => some ([], h)
  | command :: rest =>
    if h.lastTree.toNat + h.trees.size + 1 < UInt64.size ∧
        h.lastSubject.toNat + 1 < UInt64.size then do
      let (answer, middle, _) ← h.perform 0 () command
      let (deeds, last) ← middle.deeds? rest
      some (⟨command, answer⟩ :: deeds, last)
    else none

theorem Lives.ofDeeds {first last : Host Unit} {before deeds commands}
    (lives : Lives first before h) (done : h.deeds? commands = some (deeds, last)) :
    Lives first (before ++ deeds) last := by
  induction commands generalizing h before deeds with
  | nil =>
    cases done
    simpa using lives
  | cons command rest ih =>
    rw [deeds?] at done
    split at done
    · rename_i early
      simp only [bind, Option.bind_eq_some_iff] at done
      obtain ⟨⟨answer, middle, _⟩, ok, ⟨more, _⟩, others, same⟩ := done
      cases same
      rw [List.append_cons]
      exact ih (lives.next (sparesEarly early.1 early.2 command) ok) others
    · contradiction

def reissuing : List (Command Unit) :=
  [.createTree (some "tree-1"), .createTree none, .createTree (some "tree-03"),
    .destroyTree ⟨"tree-2"⟩, .createTree (some ""), .createSubject ⟨"tree-1"⟩,
    .destroySubject ⟨1⟩, .createSubject ⟨"tree-1"⟩, .createTree (some "tree-4")]

theorem numbersFreshReissuing :
    ∃ (deeds : List (Deed Unit)) (h : Host Unit), Lives (ofSettings {}) deeds h ∧
      deeds.filterMap Deed.generated? = [⟨"tree-2"⟩, ⟨"tree-3"⟩] ∧
      deeds.filterMap Deed.createdSubject? = [⟨1⟩, ⟨2⟩] ∧ h.resolve ⟨1⟩ = none ∧
      ∃ number created, h.createTree none = .ok (numberedName number, created) := by
  have done : ((deeds? (ofSettings {}) reissuing).any fun (deeds, h) =>
      deeds.filterMap Deed.generated? = [⟨"tree-2"⟩, ⟨"tree-3"⟩] ∧
      deeds.filterMap Deed.createdSubject? = [⟨1⟩, ⟨2⟩] ∧
      ⟨1⟩ ∈ deeds.filterMap Deed.destroyedSubject? ∧
      h.lastTree.toNat + h.trees.size + 1 < UInt64.size) = true := by
    decide +kernel
  obtain ⟨⟨deeds, h⟩, done, facts⟩ := (Option.any_eq_true _ _).mp done
  obtain ⟨generated, created, destroyed, few⟩ := of_decide_eq_true facts
  have lives := Lives.start.ofDeeds done
  obtain ⟨_, _, gone, _, _, _, number, _, near, _, ok⟩ := numbersFresh lives
  obtain ⟨host, _, ok, _⟩ := ok none rfl (Nat.lt_of_le_of_lt near few)
  exact ⟨deeds, h, lives, generated, created, gone _ destroyed, number, host, ok⟩

end

end Host
end BehaviorTree
