/-!
# JSON tokens

A text is cut into tokens by a machine that looks at one character at a time. Blanks between tokens
are space, tab, line feed and carriage return. A string may hold `\u` escapes that do not form a
character; such a string is a token without a value.
-/

namespace EventKernel.Json

/-- A lexical unit of JSON. -/
inductive Token where
  | leftBrace | rightBrace | leftBracket | rightBracket | colon | comma
  | null
  | bool (b : Bool)
  /-- A number written as an integer. -/
  | integer (n : Int)
  /-- A number with a fraction or an exponent, or the negative zero. -/
  | real (text : List Char)
  /-- A string, `none` if some escapes in it form no character. -/
  | string (s : Option String)
  deriving DecidableEq, Repr

/-! ### Strings -/

/-- A piece of a string: a character, or a 16-bit unit written as an escape. -/
inductive Piece where
  | char (c : Char)
  | unit (n : Nat)
  deriving DecidableEq, Repr

/-- The characters of a string's pieces. Units stand for characters as in UTF-16. -/
def joinPieces : List Piece → Option (List Char)
  | [] => some []
  | .char c :: ps => (joinPieces ps).map (c :: ·)
  | .unit n :: ps =>
    if n < 0xD800 ∨ 0xDFFF < n then (joinPieces ps).map (Char.ofNat n :: ·)
    else match ps with
      | .unit m :: ps =>
        if n ≤ 0xDBFF ∧ 0xDC00 ≤ m ∧ m ≤ 0xDFFF then
          (joinPieces ps).map (Char.ofNat (0x10000 + (n - 0xD800) * 0x400 + (m - 0xDC00)) :: ·)
        else none
      | _ => none

/-- The character that a letter stands for behind a backslash. -/
def escaped? : Char → Option Char
  | '"' => some '"'
  | '\\' => some '\\'
  | '/' => some '/'
  | 'b' => some '\x08'
  | 'f' => some '\x0c'
  | 'n' => some '\n'
  | 'r' => some '\r'
  | 't' => some '\t'
  | _ => none

/-- The value of a hexadecimal digit. -/
def hexDigit? (c : Char) : Option Nat :=
  if c.isDigit then some (c.toNat - 48)
  else if 'a' ≤ c ∧ c ≤ 'f' then some (c.toNat - 87)
  else if 'A' ≤ c ∧ c ≤ 'F' then some (c.toNat - 55)
  else none

/-! ### Numbers and words -/

/-- Whether a character can stand in a number. -/
def isNumeric (c : Char) : Bool :=
  c.isDigit || c = '-' || c = '+' || c = '.' || c = 'e' || c = 'E'

/-- Drop the digits at the front; at least one is needed. -/
def dropDigits? : List Char → Option (List Char)
  | [] => none
  | c :: cs => if c.isDigit then some (cs.dropWhile Char.isDigit) else none

/-- Drop an integer without sign at the front: no zero stands in front of another digit. -/
def dropInteger? : List Char → Option (List Char)
  | '0' :: cs => if (cs.head?).any Char.isDigit then none else some cs
  | cs => dropDigits? cs

/-- Drop a fraction at the front, if there is one. -/
def dropFraction? : List Char → Option (List Char)
  | '.' :: cs => dropDigits? cs
  | cs => some cs

/-- Drop the sign of an exponent at the front, if there is one. -/
def dropSign : List Char → List Char
  | '+' :: cs => cs
  | '-' :: cs => cs
  | cs => cs

/-- Drop an exponent at the front, if there is one. -/
def dropExponent? : List Char → Option (List Char)
  | 'e' :: cs => dropDigits? (dropSign cs)
  | 'E' :: cs => dropDigits? (dropSign cs)
  | cs => some cs

/-- The value of decimal digits. -/
def valueOf (cs : List Char) : Nat :=
  cs.foldl (fun n c => n * 10 + (c.toNat - 48)) 0

/-- The token of a number without sign. -/
def unsignedToken? (cs : List Char) : Option Token := do
  let rest ← dropInteger? cs
  let end_ ← (dropFraction? rest).bind dropExponent?
  if end_.isEmpty then
    if rest.isEmpty then some (.integer (valueOf cs)) else some (.real cs)
  else none

def numberToken? : List Char → Option Token
  | '-' :: cs => (unsignedToken? cs).map fun
    | .integer n => if n = 0 then .real ['-', '0'] else .integer (-n)
    | t => t
  | cs => unsignedToken? cs

def wordToken? (cs : List Char) : Option Token :=
  if cs = ['n', 'u', 'l', 'l'] then some .null
  else if cs = ['t', 'r', 'u', 'e'] then some (.bool true)
  else if cs = ['f', 'a', 'l', 's', 'e'] then some (.bool false)
  else none

/-! ### The machine -/

/-- What the characters read so far belong to; collected ones are held backwards. -/
inductive Mode where
  | plain
  | word (cs : List Char)
  | number (cs : List Char)
  | string (ps : List Piece)
  | escape (ps : List Piece)
  | hex (ps : List Piece) (digits value : Nat)

/-- The token of a character that is one by itself. -/
def punctuation? : Char → Option Token
  | '\x7b' => some .leftBrace
  | '\x7d' => some .rightBrace
  | '[' => some .leftBracket
  | ']' => some .rightBracket
  | ':' => some .colon
  | ',' => some .comma
  | _ => none

/-- Whether a character may stand between tokens. -/
def isSpace (c : Char) : Bool :=
  c = ' ' || c = '\t' || c = '\n' || c = '\r'

/-- Look at a character between tokens. -/
def plainStep (c : Char) : Option (List Token × Mode) :=
  if isSpace c then some ([], .plain)
  else match punctuation? c with
    | some t => some ([t], .plain)
    | none =>
      if c = '"' then some ([], .string [])
      else if c.isDigit || c = '-' then some ([], .number [c])
      else if c.isAlpha then some ([], .word [c])
      else none

/-- Look at a character behind a token that just ended. -/
def after (t : Option Token) (c : Char) : Option (List Token × Mode) := do
  let t ← t
  let (ts, mode) ← plainStep c
  return (t :: ts, mode)

/-- Look at one character. -/
def lexStep : Mode → Char → Option (List Token × Mode)
  | .plain, c => plainStep c
  | .word cs, c =>
    if c.isAlpha then some ([], .word (c :: cs)) else after (wordToken? cs.reverse) c
  | .number cs, c =>
    if isNumeric c then some ([], .number (c :: cs)) else after (numberToken? cs.reverse) c
  | .string ps, c =>
    if c = '"' then some ([.string ((joinPieces ps.reverse).map String.ofList)], .plain)
    else if c = '\\' then some ([], .escape ps)
    else if c.toNat < 0x20 then none
    else some ([], .string (.char c :: ps))
  | .escape ps, c =>
    if c = 'u' then some ([], .hex ps 0 0)
    else (escaped? c).map fun c => ([], .string (.char c :: ps))
  | .hex ps digits value, c =>
    (hexDigit? c).map fun d =>
      let value := value * 16 + d
      if digits = 3 then ([], .string (.unit value :: ps)) else ([], .hex ps (digits + 1) value)

def lexEnd : Mode → Option (List Token)
  | .plain => some []
  | .word cs => (wordToken? cs.reverse).map ([·])
  | .number cs => (numberToken? cs.reverse).map ([·])
  | _ => none

def lex (mode : Mode) : List Char → Option (List Token)
  | [] => lexEnd mode
  | c :: cs =>
    match lexStep mode c with
    | none => none
    | some (ts, mode) => (lex mode cs).map (ts ++ ·)

end EventKernel.Json
