import EventKernel.Json.Token
import EventKernel.Text.Integer

/-!
# JSON values

Values are read from tokens by a machine that keeps the open arrays and objects on a stack, and
written without blanks or indented by two spaces.
-/

namespace EventKernel

/-- A JSON value. Members of objects are in the order of the text and may repeat. -/
inductive Json where
  | null
  | bool (b : Bool)
  /-- A number written as an integer. -/
  | integer (n : Int)
  /-- Any other number. -/
  | real
  /-- A string, `none` if some escapes in it form no character. -/
  | string (s : Option String)
  | array (items : List Json)
  | object (members : List (Option String × Json))

namespace Json

/-! ### Reading -/

/-- An array or an object whose end has not been reached; what it holds is kept backwards. -/
inductive Open where
  | array (items : List Json)
  | object (members : List (Option String × Json)) (key : Option String)

/-- What may come next. -/
inductive Expect where
  /-- A value. -/
  | value
  /-- A value, or the end of an array without items. -/
  | valueOrEnd
  /-- A comma, or the end of the innermost array or object. -/
  | commaOrEnd
  /-- The key of a member. -/
  | key (members : List (Option String × Json))
  /-- The key of a member, or the end of an object without members. -/
  | keyOrEnd
  /-- The colon behind a key. -/
  | colon (members : List (Option String × Json)) (key : Option String)
  /-- Nothing: the text is complete. -/
  | nothing (result : Json)

/-- A state of the reader. -/
structure Reader where
  stack : List Open
  expect : Expect

/-- Put a complete value where it belongs. -/
def deliver (v : Json) : List Open → Reader
  | [] => ⟨[], .nothing v⟩
  | .array items :: stack => ⟨.array (v :: items) :: stack, .commaOrEnd⟩
  | .object members key :: stack => ⟨.object ((key, v) :: members) key :: stack, .commaOrEnd⟩

def startValue (stack : List Open) : Token → Option Reader
  | .null => some (deliver .null stack)
  | .bool b => some (deliver (.bool b) stack)
  | .integer n => some (deliver (.integer n) stack)
  | .real _ => some (deliver .real stack)
  | .string s => some (deliver (.string s) stack)
  | .leftBracket => some ⟨.array [] :: stack, .valueOrEnd⟩
  | .leftBrace => some ⟨stack, .keyOrEnd⟩
  | _ => none

def readStep : Reader → Token → Option Reader
  | ⟨stack, .value⟩, t => startValue stack t
  | ⟨.array [] :: stack, .valueOrEnd⟩, .rightBracket => some (deliver (.array []) stack)
  | ⟨stack, .valueOrEnd⟩, t => startValue stack t
  | ⟨.array items :: stack, .commaOrEnd⟩, .comma => some ⟨.array items :: stack, .value⟩
  | ⟨.array items :: stack, .commaOrEnd⟩, .rightBracket =>
    some (deliver (.array items.reverse) stack)
  | ⟨.object members _ :: stack, .commaOrEnd⟩, .comma => some ⟨stack, .key members⟩
  | ⟨.object members _ :: stack, .commaOrEnd⟩, .rightBrace =>
    some (deliver (.object members.reverse) stack)
  | ⟨stack, .key members⟩, .string s => some ⟨stack, .colon members s⟩
  | ⟨stack, .keyOrEnd⟩, .string s => some ⟨stack, .colon [] s⟩
  | ⟨stack, .keyOrEnd⟩, .rightBrace => some (deliver (.object []) stack)
  | ⟨stack, .colon members key⟩, .colon => some ⟨.object members key :: stack, .value⟩
  | _, _ => none

def readTokens : Reader → List Token → Option Json
  | ⟨_, .nothing v⟩, [] => some v
  | _, [] => none
  | r, t :: ts =>
    match readStep r t with
    | none => none
    | some r => readTokens r ts

/-- Read a text that holds one value. -/
def read? (s : String) : Option Json :=
  (lex .plain s.toList).bind (readTokens ⟨[], .value⟩)

/-! ### Looking into a value -/

/-- The values of the fields of a record with the given names, `none` for those that are missing.
A record is an object, in which no field stands twice and other members are skipped, or an array of
all its fields in order. -/
def fields? (names : List String) : Json → Option (List (Option Json))
  | .array items => if items.length = names.length then some (items.map some) else none
  | .object members =>
    if members.all fun m => m.1.isSome then
      names.mapM fun name =>
        match members.filter fun m => m.1 = some name with
        | [] => some none
        | [m] => some (some m.2)
        | _ => none
    else none
  | _ => none

/-- The name and the content of a variant: a string, or an object with one member. -/
def variant? : Json → Option (String × Option Json)
  | .string (some s) => some (s, none)
  | .object [(some s, v)] => some (s, some v)
  | _ => none

/-- Whether a variant has no content. -/
def isBare : Option Json → Bool
  | none => true
  | some .null => true
  | _ => false

def integerIn? (r : IntRange) : Json → Option Int
  | .integer n => if r.holds n then some n else none
  | _ => none

/-! ### Writing -/

/-- A hexadecimal digit. -/
def hexChar (n : Nat) : Char := Char.ofNat (if n < 10 then 48 + n else 87 + n)

/-- The text of a character inside a string. -/
def quoteChar (c : Char) : List Char :=
  if c = '"' then ['\\', '"']
  else if c = '\\' then ['\\', '\\']
  else if c = '\x08' then ['\\', 'b']
  else if c = '\x0c' then ['\\', 'f']
  else if c = '\n' then ['\\', 'n']
  else if c = '\r' then ['\\', 'r']
  else if c = '\t' then ['\\', 't']
  else if c.toNat < 0x20 then ['\\', 'u', '0', '0', hexChar (c.toNat / 16), hexChar (c.toNat % 16)]
  else [c]

/-- The text of a string. -/
def quote (s : String) : List Char :=
  '"' :: (s.toList.flatMap quoteChar ++ ['"'])

/-- A line break and the indentation of a line inside `depth` arrays or objects. -/
def newline (depth : Nat) : List Char :=
  '\n' :: List.replicate (2 * depth) ' '

mutual

/-- The text of a value, indented from the given depth on, or without blanks. -/
def write (pretty : Option Nat) : Json → List Char
  | .null => ['n', 'u', 'l', 'l']
  | .bool true => ['t', 'r', 'u', 'e']
  | .bool false => ['f', 'a', 'l', 's', 'e']
  | .integer n => (toString n).toList
  | .real => ['0', '.', '0']
  | .string s => quote (s.getD "")
  | .array [] => ['[', ']']
  | .array (v :: vs) =>
    match pretty with
    | none => '[' :: (write none v ++ writeItems none vs ++ [']'])
    | some d => '[' :: (newline (d + 1) ++ write (some (d + 1)) v ++ writeItems (some (d + 1)) vs
        ++ newline d ++ [']'])
  | .object [] => ['\x7b', '\x7d']
  | .object ((k, v) :: ms) =>
    match pretty with
    | none => '\x7b' :: (quote (k.getD "") ++ ':' :: (write none v ++ writeMembers none ms
        ++ ['\x7d']))
    | some d => '\x7b' :: (newline (d + 1) ++ quote (k.getD "") ++ ':' :: ' ' ::
        (write (some (d + 1)) v ++ writeMembers (some (d + 1)) ms ++ newline d ++ ['\x7d']))

/-- The text of the items behind the first one. -/
def writeItems (pretty : Option Nat) : List Json → List Char
  | [] => []
  | v :: vs =>
    match pretty with
    | none => ',' :: (write none v ++ writeItems none vs)
    | some d => ',' :: (newline d ++ write (some d) v ++ writeItems (some d) vs)

/-- The text of the members behind the first one. -/
def writeMembers (pretty : Option Nat) : List (Option String × Json) → List Char
  | [] => []
  | (k, v) :: ms =>
    match pretty with
    | none => ',' :: (quote (k.getD "") ++ ':' :: (write none v ++ writeMembers none ms))
    | some d => ',' :: (newline d ++ quote (k.getD "") ++ ':' :: ' ' ::
        (write (some d) v ++ writeMembers (some d) ms))

end

/-- The text of a value without blanks. -/
def compact (v : Json) : String := String.ofList (v.write none)

/-- The text of a value with a line for each item and member. -/
def pretty (v : Json) : String := String.ofList (v.write (some 0))

end Json

end EventKernel
