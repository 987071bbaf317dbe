import BehaviorTree.Json

/-!
The compact text of a JSON value: no spaces, control characters escaped, all other
characters as they are.
-/
namespace BehaviorTree.Json

def hexDigit (n : Nat) : Char := (Nat.toDigits 16 n).headD '0'

def escape (c : Char) : String :=
  match c with
  | '"' => "\\\""
  | '\\' => "\\\\"
  | '\n' => "\\n"
  | '\t' => "\\t"
  | '\r' => "\\r"
  | '\x08' => "\\b"
  | '\x0c' => "\\f"
  | c =>
    if c.toNat < 0x20 then
      String.ofList ['\\', 'u', '0', '0', hexDigit (c.toNat / 16), hexDigit (c.toNat % 16)]
    else c.toString

def quote (s : String) : String := "\"" ++ String.join (s.toList.map escape) ++ "\""

mutual

def write (out : String) : Json → String
  | null => out ++ "null"
  | bool b => out ++ if b then "true" else "false"
  | whole n => out ++ toString n
  | float b => out ++ b.text
  | text s => out ++ quote s
  | array items => writeItems (out ++ "[") items ++ "]"
  | object fields => writeFields (out ++ "\x7b") fields ++ "\x7d"

def writeItems (out : String) : List Json → String
  | [] => out
  | [item] => write out item
  | item :: rest => writeItems (write out item ++ ",") rest

def writeFields (out : String) : List (String × Json) → String
  | [] => out
  | [(key, value)] => write (out ++ quote key ++ ":") value
  | (key, value) :: rest => writeFields (write (out ++ quote key ++ ":") value ++ ",") rest

end

def compact (j : Json) : String := write "" j

mutual

theorem writeAppend (a b : String) : (j : Json) → write (a ++ b) j = a ++ write b j
  | null => by simp [write, String.append_assoc]
  | bool _ => by simp [write, String.append_assoc]
  | whole _ => by simp [write, String.append_assoc]
  | float _ => by simp [write, String.append_assoc]
  | text _ => by simp [write, String.append_assoc]
  | array items => by simp [write, String.append_assoc, writeItemsAppend a]
  | object fields => by simp [write, String.append_assoc, writeFieldsAppend a]

theorem writeItemsAppend (a b : String) :
    (items : List Json) → writeItems (a ++ b) items = a ++ writeItems b items
  | [] => rfl
  | [item] => by simp [writeItems, writeAppend a b item]
  | item :: next :: rest => by
    simp [writeItems, String.append_assoc, writeAppend a b item, writeItemsAppend a _ (next :: rest)]

theorem writeFieldsAppend (a b : String) :
    (fields : List (String × Json)) → writeFields (a ++ b) fields = a ++ writeFields b fields
  | [] => rfl
  | [(key, value)] => by simp [writeFields, String.append_assoc, writeAppend a _ value]
  | (key, value) :: next :: rest => by
    simp [writeFields, String.append_assoc, writeAppend a _ value,
      writeFieldsAppend a _ (next :: rest)]

end

theorem writeCompact (out : String) (j : Json) : write out j = out ++ j.compact := by
  rw [compact, ← writeAppend, String.append_empty]

end BehaviorTree.Json
