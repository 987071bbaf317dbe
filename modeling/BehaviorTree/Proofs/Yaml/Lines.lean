import BehaviorTree.Proofs.Yaml.Unmarked

/-! Lines of a block mapping and what is read of them. Each line is cut into a key and a value, and so
the mapping has the pairs of the lines, in their order. -/
namespace BehaviorTree.Yaml

def isWordChar (c : Char) : Bool := c.isAlphanum || c = '_'

section Words
variable {c : Char} (word : isWordChar c)
include word

theorem wordApart (d : Char) (aside : isWordChar d = false) : c ≠ d := by
  rintro rfl
  rw [word] at aside
  contradiction

theorem wordUnmarked : c ∉ marks := by
  have none : marks.all (!isWordChar ·) = true := by decide
  intro known
  have aside := List.all_eq_true.mp none c known
  rw [word] at aside
  contradiction

theorem wordSolid : isGap c = false := by
  simp [isGap, isSpace, isBreak, wordApart word ' ' (by decide), wordApart word '\t' (by decide),
    wordApart word '\n' (by decide), wordApart word '\u2028' (by decide),
    wordApart word '\u2029' (by decide)]

theorem wordRange : 48 ≤ c.toNat ∧ c.toNat ≤ 122 := by
  have shape : isWordChar c = (((decide (65 ≤ c.val ∧ c.val ≤ 90) ||
      (decide (97 ≤ c.val) && decide (c.val ≤ 122))) ||
      (decide (48 ≤ c.val) && decide (c.val ≤ 57))) || decide (c = '_')) := rfl
  rw [shape] at word
  simp only [Bool.or_eq_true, Bool.and_eq_true, decide_eq_true_eq, UInt32.le_iff_toNat_le] at word
  change (((65 ≤ c.toNat ∧ c.toNat ≤ 90) ∨ (97 ≤ c.toNat ∧ c.toNat ≤ 122)) ∨
    (48 ≤ c.toNat ∧ c.toNat ≤ 57)) ∨ c = '_' at word
  rcases word with letterOrDigit | rfl
  · omega
  · decide

theorem wordAllowed : isAllowed c := by
  have range := wordRange word
  have printed : 0x20 ≤ c.toNat ∧ c.toNat ≤ 0x7E := by omega
  simp [isAllowed, printed]

theorem wordSize : c.utf8Size = 1 := by
  have range := wordRange word
  have small : c.val ≤ 0x7F := by
    rw [UInt32.le_iff_toNat_le]
    change c.toNat ≤ 127
    omega
  simp [Char.utf8Size, small]

end Words

structure IsWord (cs : List Char) : Prop where
  nonempty : cs ≠ []
  each : ∀ c ∈ cs, isWordChar c

namespace Cursor

theorem skipWord {w rest : List Char} {line column offset : Nat} (each : ∀ c ∈ w, isWordChar c) :
    skip w.length { rest := w ++ rest, line, column, offset } =
      { rest, line, column := column + w.length, offset := offset + w.length } := by
  have octets : w.foldl (fun size d => size + d.utf8Size) offset = offset + w.length := by
    induction w generalizing offset with
    | nil => rfl
    | cons c w ih =>
      rw [List.foldl_cons, wordSize (each c List.mem_cons_self), List.length_cons,
        ih fun d mem => each d (List.mem_cons_of_mem c mem)]
      omega
  simp [skip, octets]

end Cursor

namespace Plain
variable {w rest : List Char} {least fuel line column offset : Nat}

theorem wordAppend (each : ∀ c ∈ w, isWordChar c) (ends : word? false rest = some []) :
    word? false (w ++ rest) = some w := by
  induction w with
  | nil => exact ends
  | cons c w ih =>
    have word := each c List.mem_cons_self
    rw [List.cons_append, wordCons (wordUnmarked word) (wordSolid word),
      ih fun d mem => each d (List.mem_cons_of_mem c mem)]
    rfl

theorem scanWord {spaces : List Char} (word : IsWord w) (ends : word? false rest = some [])
    (gap : rest.takeWhile isGap = spaces) (early : hasEarlyTab least none spaces = false)
    (stop : spaces = [] ∨ (Cursor.past spaces
      { rest, line, column := column + w.length, offset := offset + w.length }).column < least) :
    scan? false least (fuel + 1) { rest := w ++ rest, line, column, offset } =
      some (w, (Gap.ofList spaces).isBroken, Cursor.past spaces
        { rest, line, column := column + w.length, offset := offset + w.length }) := by
  obtain ⟨c, cs, rfl⟩ := List.exists_cons_of_ne_nil word.nonempty
  have first := word.each c List.mem_cons_self
  have plain : ¬((Cursor.atMarker { rest := c :: cs ++ rest, line, column, offset } ||
      decide ((c :: cs ++ rest).head? = some '#')) = true) := by
    simp [Cursor.atMarker, Cursor.atMarkerOf, wordApart first '-' (by decide),
      wordApart first '.' (by decide), wordApart first '#' (by decide)]
  have stops : (spaces.isEmpty || (!false && decide ((Cursor.past spaces
      { rest, line, column := column + (c :: cs).length,
        offset := offset + (c :: cs).length }).column < least))) = true := by
    rcases stop with rfl | left
    · rfl
    · simpa using .inr left
  rw [scan?, words?, if_neg plain]
  simp only [wordAppend word.each ends, bind, Option.bind_some, Cursor.skipWord word.each, gap,
    early, Gap.text, List.nil_append, List.isEmpty_cons, Bool.false_eq_true, if_false]
  rw [if_pos stops]

end Plain

namespace Lexer
variable {s : Lexer} {fuel : Nat}

/- The lexer may stay where it is: its possible key is not too far back, and all collections that are
open reach as far in as it stands. -/
structure Ready (s : Lexer) : Prop where
  fresh : s.key.any (·.isStale s.cursor) = false
  inside : ∀ column ∈ s.indents, column ≤ s.cursor.column

theorem Ready.closeNone (ready : s.Ready) : s.closeBlocks (s.cursor.column < ·) = s := by
  have none : s.indents.takeWhile (s.cursor.column < ·) = [] := by
    cases indents : s.indents with
    | nil => rfl
    | cons column rest =>
      have within := ready.inside column (indents ▸ List.mem_cons_self)
      exact List.takeWhile_cons_of_neg (by simpa using within)
  unfold closeBlocks
  split
  · rfl
  · simp [none]

theorem skipBlanks {blanks rest : List Char} (here : s.cursor.rest = blanks ++ rest)
    (spaces : ∀ d ∈ blanks, d = ' ')
    (ends : ∀ c ∈ rest.head?, isGap c = false ∧ c ≠ '#' ∧ c ≠ '\ufeff') :
    s.skipGap (fuel + 1) = { s with cursor := s.cursor.skip blanks.length } := by
  have unmarked : s.cursor.rest.head? ≠ some '\ufeff' := by
    rw [here]
    cases blanks with
    | nil => exact fun mark => (ends _ mark).2.2 rfl
    | cons d ds => simp [spaces d List.mem_cons_self]
  have start : ¬((decide (s.cursor.column = 0) &&
      decide (s.cursor.rest.head? = some '\ufeff')) = true) := by simp [unmarked]
  have taken (tabs : Bool) :
      s.cursor.rest.takeWhile (fun d => d = ' ' || (tabs && d = '\t')) = blanks := by
    have stopped : rest.takeWhile (fun d => d = ' ' || (tabs && d = '\t')) = [] := by
      cases rest with
      | nil => rfl
      | cons c rest =>
        have solid := (ends c rfl).1
        simp only [isGap, isSpace, Bool.or_eq_false_iff, decide_eq_false_iff_not] at solid
        simp [solid.1.1, solid.1.2]
    rw [here, List.takeWhile_append_of_pos (fun d mem => by simp [spaces d mem]), stopped,
      List.append_nil]
  have behind : (s.cursor.skip blanks.length).rest = rest := by
    rw [Cursor.skip, here, List.drop_left]
  have uncommented : (s.cursor.skip blanks.length).skipComment = s.cursor.skip blanks.length := by
    have other : rest.head? ≠ some '#' := fun comment => (ends _ comment).2.1 rfl
    rw [Cursor.skipComment, behind, if_neg other]
  have unbroken : ¬rest.head?.any isBreak = true := by
    intro broken
    obtain ⟨c, head, mark⟩ := (Option.any_eq_true _ _).mp broken
    have solid := (ends c head).1
    rw [isGap, mark, Bool.or_true] at solid
    contradiction
  unfold skipGap
  dsimp only
  rw [if_neg start, Cursor.skipWhile, taken, uncommented, behind, if_neg unbroken]

theorem settleBlanks (blanks : List Char) {rest : List Char} (here : s.cursor.rest = blanks ++ rest)
    (spaces : ∀ d ∈ blanks, d = ' ')
    (ends : ∀ c ∈ rest.head?, isGap c = false ∧ c ≠ '#' ∧ c ≠ '\ufeff')
    (ready : Ready { s with cursor := s.cursor.skip blanks.length }) :
    s.settle? (fuel + 1) = some { s with cursor := s.cursor.skip blanks.length } := by
  have kept : dropStaleKey? { s with cursor := s.cursor.skip blanks.length } =
      some { s with cursor := s.cursor.skip blanks.length } := by
    rw [dropStaleKey?, ready.fresh]
    rfl
  rw [settle?, skipBlanks here spaces ends, kept]
  simp only [bind, Option.bind_some]
  rw [ready.closeNone]

theorem runNext {t u : Lexer} (settled : s.settle? (fuel + 1) = some t)
    (left : t.cursor.rest ≠ []) (read : t.next? (fuel + 1) = some u) :
    run? (fuel + 1) s = run? fuel u := by
  have more : ¬t.cursor.rest.isEmpty = true := by simpa using left
  rw [run?, settled]
  simp only [bind, Option.bind_some]
  rw [if_neg more, read]
  rfl

theorem insertBetween (before after : List Token) (t : Token) :
    (before ++ after).insertIdx before.length t = before ++ t :: after := by
  induction before with
  | nil => rfl
  | cons first before ih => simp [ih]

def atLine (found : List Token) (indents : List Nat) (rest : List Char) (line : Nat) : Lexer :=
  { cursor := { rest, line }, tokens := found.toArray, indents }

def behindKey (found : List Token) (indents : List Nat) (key rest : List Char) (line : Nat) :
    Lexer where
  cursor := { rest := ':' :: ' ' :: rest, line, column := key.length, offset := key.length }
  tokens := (found ++ [Token.scalar .plain (String.ofList key)]).toArray
  indents
  keyAllowed := false
  key := some ⟨found.length, { rest := key ++ ':' :: ' ' :: rest, line }, indents.head? = some 0⟩

def behindColon (found : List Token) (rest : List Char) (line column : Nat) : Lexer where
  cursor := { rest := ' ' :: rest, line, column, offset := column }
  tokens := found.toArray
  indents := [0]
  keyAllowed := false

variable {found : List Token} {indents : List Nat} {key value rest : List Char} {line : Nat}

theorem wordEnds {w : List Char} (word : IsWord w) :
    ∀ c ∈ (w ++ rest).head?, isGap c = false ∧ c ≠ '#' ∧ c ≠ '\ufeff' := by
  intro c first
  rw [List.head?_append_of_ne_nil _ word.nonempty] at first
  have each := word.each c (List.mem_of_head? first)
  exact ⟨wordSolid each, wordApart each '#' (by decide), wordApart each '\ufeff' (by decide)⟩

theorem plainOfWord {w : List Char} (word : IsWord w) (here : s.cursor.rest = w ++ rest) :
    s.next? fuel = s.plain? fuel := by
  obtain ⟨c, cs, rfl⟩ := List.exists_cons_of_ne_nil word.nonempty
  have first := word.each c List.mem_cons_self
  rw [nextUnmarked (here.trans (List.cons_append ..)) (wordUnmarked first), wordSolid first]
  rfl

theorem runKey (level : ∀ column ∈ indents, column = 0) (word : IsWord key) :
    run? (fuel + 1) (atLine found indents (key ++ ':' :: ' ' :: rest) line) =
      run? fuel (behindKey found indents key rest line) := by
  have settled : (atLine found indents (key ++ ':' :: ' ' :: rest) line).settle? (fuel + 1) =
      some (atLine found indents (key ++ ':' :: ' ' :: rest) line) :=
    settleBlanks [] rfl (by simp) (wordEnds word)
      ⟨rfl, fun column mem => Nat.le_of_eq (level column mem)⟩
  have scanned (least : Nat) :
      Plain.scan? false least (fuel + 1) { rest := key ++ ':' :: ' ' :: rest, line } =
        some (key, false,
          { rest := ':' :: ' ' :: rest, line, column := 0 + key.length,
            offset := 0 + key.length }) :=
    Plain.scanWord word rfl rfl rfl (.inl rfl)
  refine runNext settled (by simp [atLine]) ?_
  rw [plainOfWord word rfl]
  simp [plain?, saveKey?, dropKey?, atLine, behindKey, inFlow, emit, scanned]

theorem runColon (level : indents = [] ∨ indents = [0]) (short : key.length ≤ 1024) :
    run? (fuel + 1) (behindKey found indents key rest line) =
      run? fuel (behindColon (found ++ (if indents = [] then [.blockMappingStart] else []) ++
        [.key, .scalar .plain (String.ofList key), .value]) rest line (key.length + 1)) := by
  have settled : (behindKey found indents key rest line).settle? (fuel + 1) =
      some (behindKey found indents key rest line) := by
    refine settleBlanks [] rfl (by simp) (fun c first => ?_) ⟨?_, ?_⟩
    · cases first
      decide
    · have recent : ¬1024 < key.length := by omega
      simp [behindKey, Cursor.skip, PendingKey.isStale, recent]
    · rcases level with rfl | rfl <;> simp [behindKey, Cursor.skip]
  have turn : (behindKey found indents key rest line).next? (fuel + 1) =
      (behindKey found indents key rest line).value? := by
    simp [next?, behindKey, Cursor.atMarkerOf, inFlow, endsWord, isGap, isSpace]
  have size : ':'.utf8Size = 1 := by decide
  refine runNext settled (by simp [behindKey]) (turn.trans ?_)
  rcases level with rfl | rfl <;>
    simp [value?, behindKey, behindColon, openBlock, inFlow, emitMark, emit, insertBetween,
      Cursor.skip, size]

theorem runValue {column : Nat} (word : IsWord value) (ends : ∀ c ∈ rest.head?, isGap c = false) :
    run? (fuel + 1) (behindColon found (value ++ '\n' :: rest) line column) =
      run? fuel (atLine (found ++ [.scalar .plain (String.ofList value)]) [0] rest (line + 1)) := by
  have size : ' '.utf8Size = 1 := by decide
  have settled : (behindColon found (value ++ '\n' :: rest) line column).settle? (fuel + 1) =
      some { behindColon found (value ++ '\n' :: rest) line column with
        cursor := (behindColon found (value ++ '\n' :: rest) line column).cursor.skip 1 } :=
    settleBlanks [' '] rfl (by simp) (wordEnds word) ⟨rfl, by simp [behindColon]⟩
  have stopped : rest.takeWhile isGap = [] := by
    cases rest with
    | nil => rfl
    | cons c rest => exact List.takeWhile_cons_of_neg (by simp [ends c rfl])
  have gap : ('\n' :: rest).takeWhile isGap = ['\n'] := by
    rw [List.takeWhile_cons_of_pos (by decide), stopped]
  have scanned :
      Plain.scan? false 1 (fuel + 1)
        { rest := value ++ '\n' :: rest, line, column := column + 1, offset := column + 1 } =
        some (value, true, { rest, line := line + 1 }) :=
    Plain.scanWord word rfl gap rfl (.inr Nat.one_pos)
  refine runNext settled (by simp [behindColon, Cursor.skip]) ?_
  rw [plainOfWord word rfl]
  simp [plain?, saveKey?, behindColon, atLine, inFlow, leastColumn, emit, Cursor.skip, size, scanned]

end Lexer

section Mappings

structure Line.Plain (l : Line) : Prop where
  key : IsWord l.key.toList
  value : IsWord l.value.toList
  short : l.key.toList.length ≤ 1024

def Line.chars (l : Line) : List Char := l.key.toList ++ ':' :: ' ' :: (l.value.toList ++ ['\n'])

def Line.tokens (l : Line) : List Token :=
  [.key, .scalar .plain l.key, .value, .scalar .plain l.value]

def Line.pair (l : Line) : Pair := (.scalar { text := l.key }, .scalar { text := l.value })

variable {l : Line} {lines : List Line}

theorem writeChars : (writeLines lines).toList = lines.flatMap Line.chars := by
  have one : (fun l : Line => l.write.toList) = Line.chars := by
    funext l
    simp [Line.write, Line.chars]
  simp [writeLines, List.flatMap_map, one]

theorem charsLong (lines : List Line) : 3 * lines.length ≤ (lines.flatMap Line.chars).length := by
  induction lines with
  | nil => exact Nat.zero_le _
  | cons l lines ih =>
    simp only [List.flatMap_cons, List.length_append, List.length_cons, Line.chars]
    omega

theorem charsStart (plain : ∀ l ∈ lines, l.Plain) :
    ∀ c ∈ (lines.flatMap Line.chars).head?, isGap c = false := by
  cases lines with
  | nil => simp
  | cons l lines =>
    have key := (plain l List.mem_cons_self).key
    rw [List.flatMap_cons, Line.chars, List.append_assoc]
    exact fun c first => (Lexer.wordEnds key c first).1

theorem runLine {found : List Token} {indents : List Nat} {rest : List Char} {fuel line : Nat}
    (plain : l.Plain) (level : indents = [] ∨ indents = [0])
    (ends : ∀ c ∈ rest.head?, isGap c = false) :
    Lexer.run? (fuel + 3) (.atLine found indents (l.chars ++ rest) line) =
      Lexer.run? fuel (.atLine (found ++ (if indents = [] then [.blockMappingStart] else []) ++
        l.tokens) [0] rest (line + 1)) := by
  have zero : ∀ column ∈ indents, column = 0 := by rcases level with rfl | rfl <;> simp
  have shape : l.chars ++ rest =
      l.key.toList ++ ':' :: ' ' :: (l.value.toList ++ '\n' :: rest) := by simp [Line.chars]
  rw [shape, Lexer.runKey zero plain.key, Lexer.runColon level plain.short,
    Lexer.runValue plain.value ends]
  simp [Line.tokens]

/- The lines of an open mapping are read one after another, and its end is noted at the end. -/
theorem runLines {found : List Token} {fuel line : Nat} (plain : ∀ l ∈ lines, l.Plain)
    (enough : 3 * lines.length < fuel) :
    (Lexer.run? fuel (.atLine found [0] (lines.flatMap Line.chars) line)).map (·.tokens.toList) =
      some (found ++ lines.flatMap Line.tokens ++ [.blockEnd]) := by
  induction lines generalizing found fuel line with
  | nil =>
    obtain ⟨fuel, rfl⟩ := Nat.exists_eq_add_one_of_ne_zero (Nat.ne_of_gt enough)
    have settled : (Lexer.atLine found [0] [] line).settle? (fuel + 1) =
        some (.atLine found [0] [] line) :=
      Lexer.settleBlanks [] rfl (by simp) (by simp) ⟨rfl, by simp [Lexer.atLine, Cursor.skip]⟩
    rw [Lexer.run?, List.flatMap_nil, settled]
    simp [Lexer.leave?, Lexer.closeBlocks, Lexer.dropKey?, Lexer.inFlow, Lexer.atLine]
  | cons l lines ih =>
    have later : ∀ l ∈ lines, l.Plain := fun l mem => plain l (List.mem_cons_of_mem _ mem)
    obtain ⟨fuel, rfl⟩ : ∃ rest, fuel = rest + 3 := ⟨fuel - 3, by simp at enough; omega⟩
    rw [List.flatMap_cons, runLine (plain l List.mem_cons_self) (.inr rfl) (charsStart later),
      ih later (by simp at enough; omega)]
    simp

theorem scanLines (plain : ∀ l ∈ lines, l.Plain) (nonempty : lines ≠ []) :
    Token.scan? (lines.flatMap Line.chars) =
      some (.blockMappingStart :: (lines.flatMap Line.tokens ++ [.blockEnd])) := by
  obtain ⟨l, more, rfl⟩ := List.exists_cons_of_ne_nil nonempty
  have later : ∀ l ∈ more, l.Plain := fun l mem => plain l (List.mem_cons_of_mem _ mem)
  have long := charsLong (l :: more)
  rw [List.length_cons] at long
  obtain ⟨fuel, length⟩ : ∃ fuel, ((l :: more).flatMap Line.chars).length + 1 = fuel + 3 :=
    ⟨((l :: more).flatMap Line.chars).length - 2, by omega⟩
  have first : Lexer.run? (fuel + 3) (.atLine [] [] (l.chars ++ more.flatMap Line.chars) 0) =
      Lexer.run? fuel
        (.atLine (.blockMappingStart :: l.tokens) [0] (more.flatMap Line.chars) 1) :=
    runLine (plain l List.mem_cons_self) (.inl rfl) (charsStart later)
  have others : (Lexer.run? fuel
      (.atLine (.blockMappingStart :: l.tokens) [0] (more.flatMap Line.chars) 1)).map
        (·.tokens.toList) =
      some (.blockMappingStart :: l.tokens ++ more.flatMap Line.tokens ++ [.blockEnd]) :=
    runLines later (by omega)
  obtain ⟨s, ran, same⟩ := Option.map_eq_some_iff.mp others
  have start : Lexer.run? (((l :: more).flatMap Line.chars).length + 1)
      { cursor := { rest := (l :: more).flatMap Line.chars } } = some s := by
    rw [length, List.flatMap_cons]
    exact first.trans ran
  rw [Token.scan?, start]
  simp only [bind, Option.bind_some, same]
  simp

def Line.nodes (l : Line) : Node × Node :=
  (.scalar none { text := l.key }, .scalar none { text := l.value })

theorem readWord {handles : Node.Handles} {position : Node.Position} {stops rest : List Token}
    {text : String} (fuel : Nat) (other : Token.scalar .plain text ∉ stops) :
    Node.readUnless? handles (fuel + 2) stops position (.scalar .plain text :: rest) =
      some (.scalar none { text }, rest) := by
  simp [Node.readUnless?, Node.read?, Node.marks?, Node.ofScalar, other]

theorem readEntries {handles : Node.Handles} {fuel : Nat} (enough : lines.length + 3 < fuel) :
    Node.blockEntries? handles fuel (lines.flatMap Line.tokens ++ [.blockEnd]) =
      some (lines.map Line.nodes, []) := by
  induction lines generalizing fuel with
  | nil => cases fuel <;> rfl
  | cons l lines ih =>
    rw [List.length_cons] at enough
    obtain ⟨more, rfl⟩ : ∃ more, fuel = more + 4 := ⟨fuel - 4, by omega⟩
    have later := ih (by omega : lines.length + 3 < more + 3)
    rw [List.flatMap_cons, Line.tokens]
    simp [Node.blockEntries?, Node.valueUnless?, readWord, later, Line.nodes]

theorem visitLines (a : Anchors) :
    a.visitEntries? (lines.map Line.nodes) =
      some (lines.map fun l => (.value l.pair.1, .value l.pair.2), a) := by
  induction lines with
  | nil => rfl
  | cons l lines ih =>
    simp only [List.map_cons, Line.nodes, Anchors.visitEntries?, Anchors.visit?, Anchors.note, bind,
      Option.bind_some]
    rw [ih]
    rfl

theorem followLines (a : Anchors) :
    (lines.map fun l => (Outline.value l.pair.1, Outline.value l.pair.2)).mapM a.pair? =
      some (lines.map Line.pair) := by
  induction lines with
  | nil => rfl
  | cons l lines ih =>
    rw [List.map_cons, List.mapM_cons, ih]
    rfl

theorem unifiedSame {cs : List Char} (same : ∀ c ∈ cs, c ≠ '\r' ∧ c ≠ '\u0085') :
    unifyBreaks cs = cs := by
  fun_induction unifyBreaks cs with
  | case1 rest ih => exact absurd rfl (same '\r' List.mem_cons_self).1
  | case2 c rest other ih =>
    have kept := same c List.mem_cons_self
    rw [ih fun d mem => same d (List.mem_cons_of_mem c mem)]
    simp [kept.1, kept.2]
  | case3 => rfl

theorem charsKnown (plain : ∀ l ∈ lines, l.Plain) :
    ∀ c ∈ lines.flatMap Line.chars, isWordChar c ∨ c ∈ [':', ' ', '\n'] := by
  intro c mem
  obtain ⟨l, listed, here⟩ := List.mem_flatMap.mp mem
  have key := (plain l listed).key.each c
  have value := (plain l listed).value.each c
  simp only [Line.chars, List.mem_append, List.mem_cons, List.not_mem_nil, or_false] at here ⊢
  tauto

theorem charactersOfLines (plain : ∀ l ∈ lines, l.Plain) :
    characters? (writeLines lines) = some (lines.flatMap Line.chars) := by
  have known := charsKnown plain
  have allowed : (lines.flatMap Line.chars).all isAllowed = true := by
    refine List.all_eq_true.mpr fun c mem => ?_
    rcases known c mem with word | mark
    · exact wordAllowed word
    · simp only [List.mem_cons, List.not_mem_nil, or_false] at mark
      rcases mark with rfl | rfl | rfl <;> rfl
  have same : unifyBreaks (lines.flatMap Line.chars) = lines.flatMap Line.chars := by
    refine unifiedSame fun c mem => ?_
    rcases known c mem with word | mark
    · exact ⟨wordApart word '\r' (by decide), wordApart word '\u0085' (by decide)⟩
    · simp only [List.mem_cons, List.not_mem_nil, or_false] at mark
      rcases mark with rfl | rfl | rfl <;> decide
  simp only [characters?, writeChars, allowed, same, if_true]

theorem tokensLength : (lines.flatMap Line.tokens).length = 4 * lines.length := by
  induction lines with
  | nil => rfl
  | cons l lines ih =>
    rw [List.flatMap_cons, List.length_append, ih, List.length_cons, Line.tokens]
    simp only [List.length_cons, List.length_nil]
    omega

theorem nodeOfLines :
    Node.ofTokens? (.blockMappingStart :: (lines.flatMap Line.tokens ++ [.blockEnd])) =
      some (some (.mapping none (lines.map Line.nodes))) := by
  have undirected : Node.directives? false []
      (.blockMappingStart :: (lines.flatMap Line.tokens ++ [.blockEnd])) =
      some (Node.Handles.standard,
        .blockMappingStart :: (lines.flatMap Line.tokens ++ [.blockEnd])) := rfl
  have enough : lines.length + 3 <
      4 * (Token.blockMappingStart :: (lines.flatMap Line.tokens ++ [.blockEnd])).length + 3 := by
    rw [List.length_cons, List.length_append, tokensLength]
    omega
  have root (handles : Node.Handles) {fuel : Nat} (enough : lines.length + 3 < fuel) :
      Node.read? handles (fuel + 1) .item
        (.blockMappingStart :: (lines.flatMap Line.tokens ++ [.blockEnd])) =
        some (.mapping none (lines.map Line.nodes), []) := by
    simp [Node.read?, Node.marks?, readEntries enough]
  rw [Node.ofTokens?, if_neg (by simp), undirected]
  simp only [bind, Option.bind_some, if_true]
  rw [root Node.Handles.standard enough]
  rfl

theorem pairsOfLines (plain : ∀ l ∈ lines, l.Plain) :
    pairs? (writeLines lines) = some (lines.map Line.pair) := by
  rw [pairs?, charactersOfLines plain]
  cases lines with
  | nil => rfl
  | cons l more =>
    have scanned := scanLines plain (List.cons_ne_nil l more)
    simp only [bind, Option.bind_some, scanned, nodeOfLines, Node.pairs?, Anchors.note, visitLines]
    exact followLines _

end Mappings

end BehaviorTree.Yaml
