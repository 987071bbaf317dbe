import BehaviorTree.Text
import BehaviorTree.Yaml.Entry
import Mathlib.Data.List.Basic

/-! Texts without marks. Where no character has a meaning of its own the lexer finds unquoted scalars
and nothing else, so that there is no key; a blank text is one of these. -/
namespace BehaviorTree.Yaml

def marks : List Char :=
  ['%', '-', '.', '[', ']', '\x7b', '\x7d', ',', '?', ':', '*', '&', '!', '\x27', '\x22', '|', '>',
    '#', '@', '\x60']

namespace Cursor
variable (c : Cursor)

theorem skipRest (n : Nat) : (c.skip n).rest ⊆ c.rest := List.drop_subset _ _

theorem nextLineRest : c.nextLine.rest ⊆ c.rest := List.drop_subset _ _

theorem pastRest (cs : List Char) : (past cs c).rest ⊆ c.rest := by
  induction cs generalizing c with
  | nil => exact List.Subset.refl _
  | cons d ds ih =>
    refine List.Subset.trans (ih _) ?_
    split
    · exact c.nextLineRest
    · exact c.skipRest 1

theorem skipCommentRest : c.skipComment.rest ⊆ c.rest := by
  unfold skipComment
  split
  · exact c.skipRest _
  · exact List.Subset.refl _

end Cursor

namespace Plain
variable {least fuel : Nat} {c after : Cursor} {text : List Char} {broken : Bool}

theorem wordCons {d : Char} {rest : List Char} (unmarked : d ∉ marks) (solid : isGap d = false) :
    word? false (d :: rest) = (word? false rest).map (d :: ·) := by
  have noColon : d ≠ ':' := fun same => unmarked (same ▸ by decide)
  simp [word?, solid, noColon]

theorem wordsRest {inFlow : Bool} {gap : Gap}
    (read : words? inFlow least fuel gap c = some (text, broken, after)) :
    after.rest ⊆ c.rest := by
  induction fuel generalizing c gap text with
  | zero => contradiction
  | succ fuel ih =>
    unfold words? at read
    split at read
    · cases read
      exact List.Subset.refl _
    · obtain ⟨word, -, read⟩ := Option.bind_eq_some_iff.mp read
      have moved (n : Nat) (gap : List Char) : (Cursor.past gap (c.skip n)).rest ⊆ c.rest :=
        List.Subset.trans ((c.skip n).pastRest gap) (c.skipRest n)
      dsimp only at read
      split at read
      · cases read
        exact c.skipRest _
      · split at read
        · contradiction
        · split at read
          · cases read
            exact moved _ _
          · obtain ⟨⟨more, last⟩, further, same⟩ := Option.bind_eq_some_iff.mp read
            cases same
            exact List.Subset.trans (ih further) (moved _ _)

theorem scanNonempty {d : Char} {rest : List Char} (here : c.rest = d :: rest)
    (unmarked : d ∉ marks) (solid : isGap d = false)
    (read : scan? false least fuel c = some (text, broken, after)) : text ≠ [] := by
  have other (mark : Char) (known : mark ∈ marks) : d ≠ mark := fun same => unmarked (same ▸ known)
  unfold scan? at read
  cases fuel with
  | zero => contradiction
  | succ fuel =>
    unfold words? at read
    have plain : ¬((c.atMarker || decide (c.rest.head? = some '#')) = true) := by
      simp [Cursor.atMarker, Cursor.atMarkerOf, here, other '-' (by decide),
        other '.' (by decide), other '#' (by decide)]
    rw [if_neg plain] at read
    obtain ⟨word, found, read⟩ := Option.bind_eq_some_iff.mp read
    rw [here, wordCons unmarked solid] at found
    obtain ⟨tail, -, rfl⟩ := Option.map_eq_some_iff.mp found
    dsimp only at read
    split at read
    · contradiction
    · split at read
      · contradiction
      · split at read
        · cases read
          simp [Gap.text]
        · obtain ⟨⟨more, last⟩, -, same⟩ := Option.bind_eq_some_iff.mp read
          cases same
          simp [Gap.text]

end Plain

namespace Lexer
variable {s t : Lexer} {fuel : Nat}

theorem nextUnmarked {c : Char} {rest : List Char} (here : s.cursor.rest = c :: rest)
    (unmarked : c ∉ marks) : s.next? fuel = if isGap c then none else s.plain? fuel := by
  have other (mark : Char) (known : mark ∈ marks) : c ≠ mark := fun same => unmarked (same ▸ known)
  have marker (mark : Char) (known : mark ∈ marks) : s.cursor.atMarkerOf mark = false := by
    simp [Cursor.atMarkerOf, here, other mark known]
  have directive :
      ¬((decide (s.cursor.column = 0) && decide (s.cursor.rest.head? = some '%')) = true) := by
    simp [here, other '%' (by decide)]
  have reserved : "#%@\x60".toList.contains c = false := by
    simp [other '#' (by decide), other '%' (by decide),
      other '@' (by decide), other '\x60' (by decide)]
  unfold next?
  simp only [if_neg directive, marker '-' (by decide), marker '.' (by decide),
    Bool.false_eq_true, if_false]
  rw [here]
  split
  case h_16 =>
    rename_i same
    cases same
    rw [reserved, Bool.or_false]
  case h_17 => contradiction
  all_goals
    rename_i same
    cases same
    exact absurd (by decide) unmarked

/- What is true of a lexer on a text without marks: no collection is open, and all that it has found
are unquoted scalars. -/
structure Inert (s : Lexer) : Prop where
  unmarked : ∀ c ∈ s.cursor.rest, c ∉ marks
  indents : s.indents = []
  outerKeys : s.outerKeys = []
  tokens : ∀ token ∈ s.tokens, ∃ text, token = .scalar .plain text ∧ text ≠ ""

theorem Inert.outside (inert : s.Inert) : s.inFlow = false := by
  rw [inFlow, inert.outerKeys]
  rfl

theorem Inert.moved (inert : s.Inert) (rest : t.cursor.rest ⊆ s.cursor.rest)
    (indents : t.indents = s.indents) (outerKeys : t.outerKeys = s.outerKeys)
    (tokens : t.tokens = s.tokens) : t.Inert where
  unmarked c mem := inert.unmarked c (rest mem)
  indents := indents.trans inert.indents
  outerKeys := outerKeys.trans inert.outerKeys
  tokens := tokens ▸ inert.tokens

theorem Inert.closeBlocks (inert : s.Inert) (isOver : Nat → Bool) :
    (s.closeBlocks isOver).Inert := by
  have outside : ¬s.inFlow = true := by simp [inert.outside]
  rw [Lexer.closeBlocks, if_neg outside, inert.indents]
  exact ⟨inert.unmarked, rfl, inert.outerKeys, by simpa using inert.tokens⟩

theorem Inert.dropKey (inert : s.Inert) (dropped : s.dropKey? = some t) : t.Inert := by
  unfold dropKey? at dropped
  split at dropped
  · contradiction
  · cases dropped
    exact inert.moved (List.Subset.refl _) rfl rfl rfl

theorem Inert.dropStaleKey (inert : s.Inert) (dropped : s.dropStaleKey? = some t) : t.Inert := by
  unfold dropStaleKey? at dropped
  split at dropped
  · exact inert.dropKey dropped
  · cases dropped
    exact inert

theorem Inert.saveKey (inert : s.Inert) (saved : s.saveKey? = some t) :
    t.Inert ∧ t.cursor = s.cursor := by
  unfold saveKey? at saved
  split at saved
  · obtain ⟨u, dropped, same⟩ := Option.bind_eq_some_iff.mp saved
    cases same
    have kept := inert.dropKey dropped
    have cursor : u.cursor = s.cursor := by
      unfold dropKey? at dropped
      split at dropped <;> cases dropped
      rfl
    exact ⟨kept.moved (List.Subset.refl _) rfl rfl rfl, cursor⟩
  · cases saved
    exact ⟨inert, rfl⟩

theorem Inert.skipGap (inert : s.Inert) : (s.skipGap fuel).Inert := by
  induction fuel generalizing s with
  | zero => exact inert
  | succ fuel ih =>
    have start : (if s.cursor.column = 0 && s.cursor.rest.head? = some '\ufeff' then s.cursor.skip 1
        else s.cursor).rest ⊆ s.cursor.rest := by
      split
      · exact s.cursor.skipRest 1
      · exact List.Subset.refl _
    unfold Lexer.skipGap
    dsimp only
    generalize (if s.cursor.column = 0 && s.cursor.rest.head? = some '\ufeff' then s.cursor.skip 1
        else s.cursor) = c at start ⊢
    have blanks (p : Char → Bool) : (c.skipWhile p).skipComment.rest ⊆ s.cursor.rest :=
      List.Subset.trans (List.Subset.trans (Cursor.skipCommentRest _) (c.skipRest _)) start
    split
    · exact ih (inert.moved (List.Subset.trans (Cursor.nextLineRest _) (blanks _)) rfl rfl rfl)
    · exact inert.moved (blanks _) rfl rfl rfl

theorem Inert.settle (inert : s.Inert) (settled : s.settle? fuel = some t) : t.Inert := by
  obtain ⟨u, dropped, same⟩ := Option.bind_eq_some_iff.mp settled
  cases same
  exact (inert.skipGap.dropStaleKey dropped).closeBlocks _

theorem Inert.leave (inert : s.Inert) (left : s.leave? = some t) : t.Inert := by
  obtain ⟨u, dropped, same⟩ := Option.bind_eq_some_iff.mp left
  cases same
  exact ((inert.closeBlocks _).dropKey dropped).moved (List.Subset.refl _) rfl rfl rfl

theorem Inert.plain (inert : s.Inert) {c : Char} {rest : List Char}
    (here : s.cursor.rest = c :: rest) (solid : isGap c = false)
    (read : s.plain? fuel = some t) : t.Inert := by
  have unmarked := inert.unmarked c (here ▸ List.mem_cons_self)
  obtain ⟨u, saved, read⟩ := Option.bind_eq_some_iff.mp read
  obtain ⟨⟨text, broken, after⟩, scanned, same⟩ := Option.bind_eq_some_iff.mp read
  obtain ⟨kept, cursor⟩ := inert.saveKey saved
  rw [kept.outside] at scanned
  have nonempty : text ≠ [] := Plain.scanNonempty (cursor ▸ here) unmarked solid scanned
  cases same
  refine ⟨fun d mem => kept.unmarked d (Plain.wordsRest scanned mem), kept.indents, kept.outerKeys,
    fun token mem => ?_⟩
  rcases Array.mem_push.mp mem with earlier | rfl
  · exact kept.tokens token earlier
  · exact ⟨_, rfl, by simpa using nonempty⟩

theorem Inert.next (inert : s.Inert) (left : s.cursor.rest ≠ []) (read : s.next? fuel = some t) :
    t.Inert := by
  obtain ⟨c, rest, here⟩ := List.exists_cons_of_ne_nil left
  have unmarked := inert.unmarked c (here ▸ List.mem_cons_self)
  rw [nextUnmarked here unmarked] at read
  split at read
  · contradiction
  · rename_i solid
    exact inert.plain here (Bool.eq_false_iff.mpr solid) read

theorem Inert.run (inert : s.Inert) (ran : run? fuel s = some t) : t.Inert := by
  induction fuel generalizing s with
  | zero => contradiction
  | succ fuel ih =>
    obtain ⟨u, settled, ran⟩ := Option.bind_eq_some_iff.mp ran
    have kept := inert.settle settled
    split at ran
    · exact kept.leave ran
    · rename_i left
      obtain ⟨v, read, ran⟩ := Option.bind_eq_some_iff.mp ran
      exact ih (kept.next (by simpa using left) read) ran

end Lexer

theorem tokensUnmarked {cs : List Char} {tokens : List Token} (unmarked : ∀ c ∈ cs, c ∉ marks)
    (scanned : Token.scan? cs = some tokens) :
    ∀ token ∈ tokens, ∃ text, token = .scalar .plain text ∧ text ≠ "" := by
  obtain ⟨s, ran, same⟩ := Option.bind_eq_some_iff.mp scanned
  cases same
  have start : Lexer.Inert { cursor := { rest := cs } } :=
    ⟨unmarked, rfl, rfl, fun token mem => by simp at mem⟩
  exact fun token mem => (start.run ran).tokens token (Array.mem_toList_iff.mp mem)

theorem pairsOfScalar {text : String} {rest : List Token} {root : Option Node}
    (nonempty : text ≠ "") (built : Node.ofTokens? (.scalar .plain text :: rest) = some root) :
    ∃ node, root = some node ∧ node.pairs? = none := by
  have undirected : Node.directives? false [] (.scalar .plain text :: rest) =
      some (Node.Handles.standard, .scalar .plain text :: rest) := rfl
  have first (handles : Node.Handles) (fuel : Nat) :
      Node.read? handles (fuel + 1) .item (.scalar .plain text :: rest) =
        some (.scalar none { text }, rest) := by
    simp [Node.read?, Node.marks?, Node.ofScalar]
  rw [Node.ofTokens?, if_neg (by simp), undirected] at built
  simp only [bind, Option.bind_some, if_true, first] at built
  split at built <;> cases built
  exact ⟨_, rfl, by simp [Node.pairs?, nonempty]⟩

theorem unifiedMem {cs : List Char} : ∀ c ∈ unifyBreaks cs, c = '\n' ∨ c ∈ cs := by
  fun_induction unifyBreaks cs with
  | case1 rest ih =>
    intro c mem
    rcases List.mem_cons.mp mem with rfl | later
    · exact .inl rfl
    · exact (ih c later).imp_right fun mem => List.mem_cons_of_mem _ (List.mem_cons_of_mem _ mem)
  | case2 d rest other ih =>
    intro c mem
    rcases List.mem_cons.mp mem with here | later
    · split at here
      · exact .inl here
      · exact .inr (here ▸ List.mem_cons_self)
    · exact (ih c later).imp_right (List.mem_cons_of_mem d)
  | case3 => simp

theorem blankPairs {text : String} {pairs : List Pair} (blank : Text.isBlankText text)
    (read : pairs? text = some pairs) : pairs = [] := by
  have blanks : ∀ c ∈ text.toList, Text.isBlank c := List.all_eq_true.mp blank
  obtain ⟨cs, found, read⟩ := Option.bind_eq_some_iff.mp read
  obtain ⟨tokens, scanned, read⟩ := Option.bind_eq_some_iff.mp read
  obtain ⟨root, built, read⟩ := Option.bind_eq_some_iff.mp read
  have blankAll : ∀ c ∈ cs, Text.isBlank c := by
    intro c mem
    unfold characters? at found
    dsimp only at found
    split at found
    · cases found
      rcases unifiedMem c mem with rfl | earlier
      · rfl
      · exact blanks c earlier
    · contradiction
  have unmarked : ∀ c ∈ cs, c ∉ marks := by
    have none : marks.all (!Text.isBlank ·) = true := by decide
    intro c mem known
    have dark := List.all_eq_true.mp none c known
    rw [blankAll c mem] at dark
    contradiction
  cases tokens with
  | nil =>
    cases built
    cases read
    rfl
  | cons token rest =>
    obtain ⟨shown, rfl, nonempty⟩ := tokensUnmarked unmarked scanned token List.mem_cons_self
    obtain ⟨node, rfl, none⟩ := pairsOfScalar nonempty built
    cases none.symm.trans read

end BehaviorTree.Yaml
