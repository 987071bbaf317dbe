import BehaviorTree.Json.Compact
import BehaviorTree.Json.Reader
import BehaviorTree.Proofs.SortedMap

/-! Values and their texts. A value without floating numbers is read back from its compact text:
numbers by their digits, texts character by character, arrays and objects by what stands between
their brackets. -/
namespace BehaviorTree.Json

/- The values that texts without floating numbers stand for: whole numbers are words, and the fields
of an object stand in the order of their keys. -/
inductive Tidy : Json → Prop where
  | null : Tidy .null
  | bool (b : Bool) : Tidy (.bool b)
  | whole {n : Int} (word : IsWord n) : Tidy (.whole n)
  | text (s : String) : Tidy (.text s)
  | array {items : List Json} (each : ∀ item ∈ items, Tidy item) : Tidy (.array items)
  | object {fields : List (String × Json)}
      (increasing : fields.Pairwise fun a b => compare a.1 b.1 = .lt)
      (each : ∀ field ∈ fields, Tidy field.2) : Tidy (.object fields)

theorem Tidy.ofKeys {fields : List (String × Json)}
    (increasing : (fields.map Prod.fst).Pairwise fun a b => compare a b = .lt)
    (each : ∀ field ∈ fields, Tidy field.2) : Tidy (.object fields) :=
  .object (List.pairwise_map.mp increasing) each

theorem Tidy.ofWord (n : UInt64) : (Json.ofWord n).Tidy := by
  have bound : n.toNat < 18446744073709551616 := n.toNat_lt
  exact .whole ⟨by omega, by omega⟩

/- What may stand behind a value: nothing, or the rest of the array or object around it. -/
def Ends : List Char → Prop
  | [] => True
  | c :: _ => c = ',' ∨ c = ']' ∨ c = '\x7d'

section Numbers

theorem digitsEncoded {shown rest : List Char} (all : ∀ c ∈ shown, c.isDigit) (ends : Ends rest) :
    Reader.digits (shown ++ rest) = (Nat.ofDigitChars 10 shown 0, shown.length, rest) := by
  have stopped : rest.takeWhile Char.isDigit = [] ∧ rest.dropWhile Char.isDigit = rest := by
    cases rest with
    | nil => exact ⟨rfl, rfl⟩
    | cons c rest =>
      have other : c.isDigit = false := by rcases ends with rfl | rfl | rfl <;> rfl
      simp [other]
  have value :
      shown.foldl (fun n c => n * 10 + (c.toNat - 48)) 0 = Nat.ofDigitChars 10 shown 0 := by
    rw [Nat.ofDigitChars]
    congr 1
    funext n c
    rw [Nat.mul_comm]
    rfl
  rw [Reader.digits, List.takeWhile_append_of_pos all, List.dropWhile_append_of_pos all, stopped.1,
    stopped.2, List.append_nil, value]

theorem numeralDigits {m : Nat} : ∀ c ∈ Nat.toDigits 10 m, c.isDigit := fun _ mem =>
  Nat.isDigit_of_mem_toDigits (by decide) (by decide) mem

theorem leadingDigit {m : Nat} (positive : 0 < m) : (Nat.toDigits 10 m).head? ≠ some '0' := by
  have digits : ∀ n < 10, 0 < n → [n.digitChar].head? ≠ some '0' := by decide
  induction m using Nat.strongRecOn with
  | ind m ih =>
    rcases Nat.lt_or_ge m 10 with small | large
    · rw [Nat.toDigits_of_lt_base small]
      exact digits m small positive
    · rw [Nat.toDigits_of_base_le (by decide) large,
        List.head?_append_of_ne_nil _ Nat.toDigits_ne_nil]
      exact ih (m / 10) (by omega) (by omega)

theorem numberEncoded (negative : Bool) (m : Nat) {rest : List Char} (ends : Ends rest)
    (word : IsWord (if negative then -(m : Int) else m)) (signed : negative → 0 < m) :
    Reader.number negative (Nat.toDigits 10 m ++ rest) =
      some (whole (if negative then -(m : Int) else m), rest) := by
  have read : Reader.digits (Nat.toDigits 10 m ++ rest) =
      (m, (Nat.toDigits 10 m).length, rest) := by
    rw [digitsEncoded numeralDigits ends, Nat.ofDigitChars_ten_toDigits]
  obtain ⟨more, width⟩ := Nat.exists_eq_succ_of_ne_zero
    (Nat.ne_of_gt (Nat.length_toDigits_pos (b := 10) (n := m)))
  have plain : ¬((Nat.toDigits 10 m ++ rest).head? = some '0' ∧ 1 < more + 1) := by
    rintro ⟨zero, long⟩
    rw [List.head?_append_of_ne_nil _ Nat.toDigits_ne_nil] at zero
    rcases Nat.eq_zero_or_pos m with rfl | positive
    · rw [Nat.toDigits_zero] at width
      cases width
      contradiction
    · exact leadingDigit positive zero
  have whole : Reader.fraction? rest = some (none, rest) ∧
      Reader.exponent? rest = some (none, rest) := by
    cases rest with
    | nil => exact ⟨rfl, rfl⟩
    | cons c rest => rcases ends with rfl | rfl | rfl <;> exact ⟨rfl, rfl⟩
  have nonzero : ¬(negative = true ∧ m = 0) := fun both => absurd (signed both.1) (by omega)
  rw [width] at read
  unfold Reader.number
  rw [read]
  simp only [if_neg plain, whole.1, whole.2, bind, Option.bind]
  exact if_pos ⟨rfl, rfl, word, nonzero⟩

end Numbers

section Texts

def escaped (cs : List Char) : List Char := cs.flatMap fun c => (escape c).toList

theorem quoteToList (s : String) : (quote s).toList = '"' :: (escaped s.toList ++ ['"']) := by
  simp [quote, escaped, List.flatMap_map]

theorem escapedLength (cs : List Char) : cs.length ≤ (escaped cs).length := by
  have one (c : Char) : 1 ≤ (escape c).toList.length := by
    unfold escape
    split
    case h_8 => split <;> simp [Char.toString]
    all_goals decide
  induction cs with
  | nil => exact Nat.zero_le _
  | cons c cs ih =>
    have first := one c
    rw [escaped, List.flatMap_cons, List.length_append, ← escaped, List.length_cons]
    omega

theorem hexEncoded {n : Nat} (control : n < 32) :
    Text.numeral? 16 ['0', '0', hexDigit (n / 16), hexDigit (n % 16)] = some n := by
  have all : ∀ n < 32,
      Text.numeral? 16 ['0', '0', hexDigit (n / 16), hexDigit (n % 16)] = some n := by decide
  exact all n control

theorem escapeEncoded (c : Char) (fuel : Nat) (seen rest : List Char) :
    Reader.string (fuel + 1) seen ((escape c).toList ++ rest) =
      Reader.string fuel (c :: seen) rest := by
  unfold escape
  split
  case h_8 _ quote backslash _ _ _ _ _ =>
    split
    · rename_i control
      have unit : Reader.codePoint? c.toNat rest = some (c, rest) := by
        have below : c.toNat < 0xD800 := by omega
        unfold Reader.codePoint?
        rw [if_pos (.inl below), Char.ofNat_toNat]
      simp [Reader.string, hexEncoded control, unit]
    · rename_i printed
      have plain : Reader.string (fuel + 1) seen (c :: rest) =
          if c.toNat < 0x20 then none else Reader.string fuel (c :: seen) rest := by
        conv_lhs => unfold Reader.string
        split <;> simp_all
      rw [Char.toString, String.toList_singleton, List.singleton_append, plain, if_neg printed]
  all_goals rfl

theorem stringEncoded {cs rest seen : List Char} {fuel : Nat} (enough : cs.length < fuel) :
    Reader.string fuel seen (escaped cs ++ '"' :: rest) =
      some (String.ofList (seen.reverse ++ cs), rest) := by
  induction cs generalizing fuel seen with
  | nil =>
    obtain ⟨fuel, rfl⟩ := Nat.exists_eq_succ_of_ne_zero (Nat.ne_of_gt enough)
    rw [List.append_nil]
    rfl
  | cons c cs ih =>
    obtain ⟨fuel, rfl⟩ := Nat.exists_eq_succ_of_ne_zero (Nat.ne_of_gt (Nat.zero_lt_of_lt enough))
    rw [escaped, List.flatMap_cons, List.append_assoc, escapeEncoded, ← escaped,
      ih (Nat.lt_of_succ_lt_succ enough), List.reverse_cons, List.append_assoc,
      List.singleton_append]

theorem quoteEncoded {s : String} {rest : List Char} {fuel : Nat}
    (enough : (quote s).toList.length ≤ fuel + 1) :
    Reader.string fuel [] (escaped s.toList ++ '"' :: rest) = some (s, rest) := by
  have long := escapedLength s.toList
  rw [quoteToList, List.length_cons, List.length_append, List.length_singleton] at enough
  rw [stringEncoded (by omega), List.reverse_nil, List.nil_append, String.ofList_toList]

end Texts

section Characters

def chars (j : Json) : List Char := j.compact.toList

def itemChars (items : List Json) : List Char := (writeItems "" items).toList

def fieldChars (fields : List (String × Json)) : List Char := (writeFields "" fields).toList

theorem wholeChars (n : Int) :
    (whole n).chars =
      if 0 ≤ n then Nat.toDigits 10 n.toNat else '-' :: Nat.toDigits 10 (-n).toNat := by
  have shown : (whole n).compact = n.repr := by
    rw [compact, write, String.empty_append]
    rfl
  rw [chars, shown, Int.repr_eq_if]
  split <;> simp

theorem textChars (s : String) : (text s).chars = '"' :: (escaped s.toList ++ ['"']) := by
  rw [chars, compact, write, String.empty_append, quoteToList]

theorem arrayChars (items : List Json) :
    (array items).chars = '[' :: (itemChars items ++ [']']) := by
  have opened : writeItems "[" items = "[" ++ writeItems "" items := writeItemsAppend "[" "" items
  simp [chars, compact, write, opened, itemChars]

theorem objectChars (fields : List (String × Json)) :
    (object fields).chars = '\x7b' :: (fieldChars fields ++ ['\x7d']) := by
  have opened : writeFields "\x7b" fields = "\x7b" ++ writeFields "" fields :=
    writeFieldsAppend "\x7b" "" fields
  simp [chars, compact, write, opened, fieldChars]

theorem itemCharsCons (item next : Json) (rest : List Json) :
    itemChars (item :: next :: rest) = item.chars ++ ',' :: itemChars (next :: rest) := by
  have after : writeItems (item.compact ++ ",") (next :: rest) =
      item.compact ++ "," ++ writeItems "" (next :: rest) := by
    rw [← writeItemsAppend, String.append_empty]
  rw [itemChars, writeItems, writeCompact, String.empty_append, after]
  · simp [chars, itemChars]
  · simp

theorem fieldCharsOne (key : String) (value : Json) :
    fieldChars [(key, value)] = (quote key).toList ++ ':' :: value.chars := by
  rw [fieldChars, writeFields, writeCompact, String.empty_append]
  simp [chars]

theorem fieldCharsCons (key : String) (value : Json) (next : String × Json)
    (rest : List (String × Json)) :
    fieldChars ((key, value) :: next :: rest) =
      (quote key).toList ++ ':' :: (value.chars ++ ',' :: fieldChars (next :: rest)) := by
  have after : writeFields (quote key ++ ":" ++ value.compact ++ ",") (next :: rest) =
      quote key ++ ":" ++ value.compact ++ "," ++ writeFields "" (next :: rest) := by
    rw [← writeFieldsAppend, String.append_empty]
  rw [fieldChars, writeFields, writeCompact, String.empty_append, after]
  · simp [chars, fieldChars]
  · simp

theorem digitApart {c other : Char} (digit : c.isDigit) (no : other.isDigit = false) :
    c ≠ other := by
  rintro rfl
  rw [no] at digit
  contradiction

theorem digitShown {c : Char} (digit : c.isDigit) : Reader.isBlank c = false := by
  have space : c ≠ ' ' := digitApart digit rfl
  have line : c ≠ '\n' := digitApart digit rfl
  have tab : c ≠ '\t' := digitApart digit rfl
  have back : c ≠ '\r' := digitApart digit rfl
  simp [Reader.isBlank, space, line, tab, back]

theorem numeralStarts (m : Nat) : ∃ c cs, Nat.toDigits 10 m = c :: cs ∧ c.isDigit := by
  obtain ⟨c, cs, same⟩ := List.exists_cons_of_ne_nil (Nat.toDigits_ne_nil (n := m) (b := 10))
  exact ⟨c, cs, same, numeralDigits c (same ▸ List.mem_cons_self)⟩

theorem Tidy.starts {j : Json} (tidy : j.Tidy) :
    ∃ c cs, j.chars = c :: cs ∧ Reader.isBlank c = false ∧ c ≠ ']' := by
  cases tidy with
  | null => exact ⟨_, _, rfl, rfl, by decide⟩
  | bool b => cases b <;> exact ⟨_, _, rfl, rfl, by decide⟩
  | whole =>
    rw [wholeChars]
    split
    · obtain ⟨c, cs, same, digit⟩ := numeralStarts (Int.toNat _)
      exact ⟨c, cs, same, digitShown digit, digitApart digit rfl⟩
    · exact ⟨_, _, rfl, rfl, by decide⟩
  | text s => exact ⟨_, _, textChars s, rfl, by decide⟩
  | array => exact ⟨_, _, arrayChars _, rfl, by decide⟩
  | object => exact ⟨_, _, objectChars _, rfl, by decide⟩

theorem itemsStart {item : Json} (tidy : item.Tidy) (items : List Json) :
    ∃ c cs, itemChars (item :: items) = c :: cs ∧ Reader.isBlank c = false ∧ c ≠ ']' := by
  obtain ⟨c, cs, same, shown, other⟩ := tidy.starts
  cases items with
  | nil => exact ⟨c, cs, same, shown, other⟩
  | cons next items =>
    rw [itemCharsCons, same]
    exact ⟨c, _, rfl, shown, other⟩

theorem fieldsStart (field : String × Json) (fields : List (String × Json)) :
    ∃ cs, fieldChars (field :: fields) = '"' :: cs := by
  cases fields with
  | nil =>
    rw [fieldCharsOne, quoteToList]
    exact ⟨_, rfl⟩
  | cons next fields =>
    rw [fieldCharsCons, quoteToList]
    exact ⟨_, rfl⟩

end Characters

/- Where a value is read back from its text: with fuel enough, whatever may stand behind. -/
def ReadsBack (j : Json) : Prop :=
  ∀ fuel rest, 2 * j.chars.length ≤ fuel → Ends rest →
    Reader.value fuel (j.chars ++ rest) = some (j, rest)

section Values
variable {fuel : Nat} {rest : List Char}

theorem valueDigit {c : Char} {cs : List Char} (digit : c.isDigit) :
    Reader.value (fuel + 1) (c :: cs) = Reader.number false (c :: cs) := by
  have shown : Reader.skipBlank (c :: cs) = c :: cs := by
    rw [Reader.skipBlank, List.dropWhile_cons_of_neg (by simp [digitShown digit])]
  unfold Reader.value
  rw [shown]
  split
  case h_8 => rfl
  all_goals
    rename_i same
    exact absurd (List.cons.inj same).1 (digitApart digit rfl)

theorem valueArray {c : Char} {cs : List Char} (shown : Reader.isBlank c = false)
    (other : c ≠ ']') :
    Reader.value (fuel + 1) ('[' :: c :: cs) =
      (Reader.items fuel (c :: cs)).map fun found => (array found.1, found.2) := by
  have stays : Reader.skipBlank (c :: cs) = c :: cs := by
    rw [Reader.skipBlank, List.dropWhile_cons_of_neg (by simp [shown])]
  have opened : Reader.skipBlank ('[' :: c :: cs) = '[' :: c :: cs := rfl
  unfold Reader.value
  simp only [opened, stays]
  split
  · rename_i same
    exact absurd (List.cons.inj same).1 other
  · cases Reader.items fuel (c :: cs) <;> rfl

theorem lastItem {item : Json} (back : item.ReadsBack) (enough : 2 * item.chars.length ≤ fuel) :
    Reader.items (fuel + 1) (item.chars ++ ']' :: rest) = some ([item], rest) := by
  rw [Reader.items, back fuel (']' :: rest) enough (.inr (.inl rfl))]
  rfl

theorem nextItem {item : Json} (back : item.ReadsBack) (enough : 2 * item.chars.length ≤ fuel) :
    Reader.items (fuel + 1) (item.chars ++ ',' :: rest) =
      (Reader.items fuel rest).map fun found => (item :: found.1, found.2) := by
  rw [Reader.items, back fuel (',' :: rest) enough (.inl rfl)]
  change (Reader.items fuel rest).bind _ = _
  cases Reader.items fuel rest <;> rfl

theorem itemsEncoded {items : List Json} (nonempty : items ≠ [])
    (each : ∀ item ∈ items, ReadsBack item) (enough : 2 * (itemChars items).length < fuel) :
    Reader.items fuel (itemChars items ++ ']' :: rest) = some (items, rest) := by
  induction items generalizing fuel with
  | nil => contradiction
  | cons item items ih =>
    obtain ⟨fuel, rfl⟩ := Nat.exists_eq_succ_of_ne_zero (Nat.ne_of_gt (Nat.zero_lt_of_lt enough))
    have here := each item List.mem_cons_self
    cases items with
    | nil => exact lastItem here (Nat.le_of_lt_succ enough)
    | cons next items =>
      rw [itemCharsCons, List.length_append, List.length_cons] at enough
      have later : Reader.items fuel (itemChars (next :: items) ++ ']' :: rest) =
          some (next :: items, rest) :=
        ih (List.cons_ne_nil _ _) (fun j mem => each j (List.mem_cons_of_mem _ mem)) (by omega)
      rw [itemCharsCons, List.append_assoc, List.cons_append, nextItem here (by omega), later]
      rfl

theorem memberEncoded {key : String} {value : Json} (back : value.ReadsBack) (ends : Ends rest)
    (enough : 2 * ((quote key).toList.length + value.chars.length) ≤ fuel) :
    Reader.string fuel [] (escaped key.toList ++ '"' :: ':' :: (value.chars ++ rest)) =
        some (key, ':' :: (value.chars ++ rest)) ∧
      Reader.value fuel (value.chars ++ rest) = some (value, rest) :=
  ⟨quoteEncoded (by omega), back fuel rest (by omega) ends⟩

theorem lastMember {key : String} {value : Json} (back : value.ReadsBack)
    (enough : 2 * ((quote key).toList.length + value.chars.length) ≤ fuel) :
    Reader.members (fuel + 1) ((quote key).toList ++ ':' :: (value.chars ++ '\x7d' :: rest)) =
      some ([(key, value)], rest) := by
  have ends : Ends ('\x7d' :: rest) := .inr (.inr rfl)
  obtain ⟨name, here⟩ := memberEncoded back ends enough
  rw [quoteToList, List.cons_append, List.append_assoc, List.singleton_append]
  change (Reader.string fuel [] _).bind _ = _
  rw [name]
  change (Reader.value fuel _).bind _ = _
  rw [here]
  rfl

theorem nextMember {key : String} {value : Json} (back : value.ReadsBack)
    (enough : 2 * ((quote key).toList.length + value.chars.length) ≤ fuel) :
    Reader.members (fuel + 1) ((quote key).toList ++ ':' :: (value.chars ++ ',' :: rest)) =
      (Reader.members fuel rest).map fun found => ((key, value) :: found.1, found.2) := by
  have ends : Ends (',' :: rest) := .inl rfl
  obtain ⟨name, here⟩ := memberEncoded back ends enough
  rw [quoteToList, List.cons_append, List.append_assoc, List.singleton_append]
  change (Reader.string fuel [] _).bind _ = _
  rw [name]
  change (Reader.value fuel _).bind _ = _
  rw [here]
  change (Reader.members fuel rest).bind _ = _
  cases Reader.members fuel rest <;> rfl

theorem fieldsEncoded {fields : List (String × Json)} (nonempty : fields ≠ [])
    (each : ∀ field ∈ fields, ReadsBack field.2) (enough : 2 * (fieldChars fields).length < fuel) :
    Reader.members fuel (fieldChars fields ++ '\x7d' :: rest) = some (fields, rest) := by
  induction fields generalizing fuel with
  | nil => contradiction
  | cons field fields ih =>
    obtain ⟨fuel, rfl⟩ := Nat.exists_eq_succ_of_ne_zero (Nat.ne_of_gt (Nat.zero_lt_of_lt enough))
    obtain ⟨key, value⟩ := field
    have here : value.ReadsBack := each (key, value) List.mem_cons_self
    cases fields with
    | nil =>
      rw [fieldCharsOne, List.length_append, List.length_cons] at enough
      rw [fieldCharsOne, List.append_assoc, List.cons_append, lastMember here (by omega)]
    | cons next fields =>
      rw [fieldCharsCons, List.length_append, List.length_cons, List.length_append,
        List.length_cons] at enough
      have later : Reader.members fuel (fieldChars (next :: fields) ++ '\x7d' :: rest) =
          some (next :: fields, rest) :=
        ih (List.cons_ne_nil _ _) (fun j mem => each j (List.mem_cons_of_mem _ mem)) (by omega)
      rw [fieldCharsCons, List.append_assoc, List.cons_append, List.append_assoc, List.cons_append,
        nextMember here (by omega), later]
      rfl

theorem wholeEncoded {n : Int} (word : IsWord n) (ends : Ends rest) :
    Reader.value (fuel + 1) ((whole n).chars ++ rest) = some (whole n, rest) := by
  rw [wholeChars]
  split
  · rename_i plain
    obtain ⟨c, cs, same, digit⟩ := numeralStarts n.toNat
    have read := numberEncoded false n.toNat ends
      (by rwa [if_neg Bool.false_ne_true, Int.toNat_of_nonneg plain]) (by simp)
    rw [if_neg Bool.false_ne_true, Int.toNat_of_nonneg plain] at read
    rw [same, List.cons_append, valueDigit digit, ← List.cons_append, ← same, read]
  · have size : -((-n).toNat : Int) = n := by omega
    have read := numberEncoded true (-n).toNat ends
      (by rwa [if_pos rfl, size]) (fun _ => by omega)
    rw [if_pos rfl, size] at read
    exact read

theorem textEncoded {s : String} (enough : 2 * (text s).chars.length ≤ fuel + 1) :
    Reader.value (fuel + 1) ((text s).chars ++ rest) = some (text s, rest) := by
  have quoted : (quote s).toList.length ≤ fuel + 1 := by
    rw [textChars, ← quoteToList] at enough
    omega
  rw [textChars, List.cons_append, List.append_assoc, List.singleton_append]
  change (Reader.string fuel [] _).bind _ = _
  rw [quoteEncoded quoted]
  rfl

theorem arrayEncoded {items : List Json} (tidy : ∀ item ∈ items, Tidy item)
    (each : ∀ item ∈ items, ReadsBack item) (enough : 2 * (array items).chars.length ≤ fuel + 1) :
    Reader.value (fuel + 1) ((array items).chars ++ rest) = some (array items, rest) := by
  cases items with
  | nil => rfl
  | cons item items =>
    obtain ⟨c, cs, same, shown, other⟩ := itemsStart (tidy item List.mem_cons_self) items
    rw [arrayChars, List.length_cons, List.length_append, List.length_singleton] at enough
    have read : Reader.items fuel (itemChars (item :: items) ++ ']' :: rest) =
        some (item :: items, rest) := itemsEncoded (List.cons_ne_nil _ _) each (by omega)
    rw [same, List.cons_append] at read
    rw [arrayChars, List.cons_append, List.append_assoc, List.singleton_append, same,
      List.cons_append, valueArray shown other, read]
    rfl

theorem objectEncoded {fields : List (String × Json)}
    (increasing : fields.Pairwise fun a b => compare a.1 b.1 = .lt)
    (each : ∀ field ∈ fields, ReadsBack field.2)
    (enough : 2 * (object fields).chars.length ≤ fuel + 1) :
    Reader.value (fuel + 1) ((object fields).chars ++ rest) = some (object fields, rest) := by
  have sorted : ofFields fields = object fields := by
    rw [ofFields, SortedMap.ofListIncreasing increasing, SortedMap.toList]
  cases fields with
  | nil => rfl
  | cons field fields =>
    obtain ⟨cs, same⟩ := fieldsStart field fields
    rw [objectChars, List.length_cons, List.length_append, List.length_singleton] at enough
    have read : Reader.members fuel (fieldChars (field :: fields) ++ '\x7d' :: rest) =
        some (field :: fields, rest) := fieldsEncoded (List.cons_ne_nil _ _) each (by omega)
    rw [same, List.cons_append] at read
    rw [objectChars, List.cons_append, List.append_assoc, List.singleton_append, same,
      List.cons_append]
    change (Reader.members fuel _).bind _ = _
    rw [read, ← sorted]
    rfl

end Values

theorem Tidy.readsBackOf {j : Json} (tidy : j.Tidy)
    (encoded : ∀ {fuel : Nat} {rest : List Char}, 2 * j.chars.length ≤ fuel + 1 → Ends rest →
      Reader.value (fuel + 1) (j.chars ++ rest) = some (j, rest)) : j.ReadsBack := by
  intro fuel rest enough ends
  obtain ⟨c, cs, same, -⟩ := tidy.starts
  cases fuel with
  | zero =>
    rw [same] at enough
    contradiction
  | succ fuel => exact encoded enough ends

theorem Tidy.readsBack {j : Json} (tidy : j.Tidy) : j.ReadsBack := by
  induction tidy with
  | null => exact Tidy.null.readsBackOf fun _ _ => rfl
  | bool b => exact (Tidy.bool b).readsBackOf fun _ _ => by cases b <;> rfl
  | whole word => exact (Tidy.whole word).readsBackOf fun _ => wholeEncoded word
  | text s => exact (Tidy.text s).readsBackOf fun enough _ => textEncoded enough
  | array each ih => exact (Tidy.array each).readsBackOf fun enough _ => arrayEncoded each ih enough
  | object increasing each ih =>
    exact (Tidy.object increasing each).readsBackOf fun enough _ =>
      objectEncoded increasing ih enough

theorem readCompact {j : Json} (tidy : j.Tidy) : read? j.compact = some j := by
  have enough : 2 * j.chars.length ≤ 2 * j.compact.length + 2 := by
    rw [chars, String.length_toList]
    omega
  have all := tidy.readsBack (2 * j.compact.length + 2) [] enough trivial
  rw [List.append_nil] at all
  rw [read?, ← chars, all]
  rfl

end BehaviorTree.Json
