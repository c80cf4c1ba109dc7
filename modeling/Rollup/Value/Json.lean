import Rollup.Text.Runs
import Rollup.Value

/-!
# Values as JSON text

Reading and writing values in JSON. A numeral without point and exponent is an integer, any other
is a binary64 number. The reader's recursion is bounded by the length of the text, which no
nesting can exceed.
-/

namespace Rollup.Value

/-! ## Reading -/

/-- Drops the white space that JSON allows between tokens. -/
def skipSpace (cs : List Char) : List Char :=
  cs.dropWhile fun c => c = ' ' || c = '\t' || c = '\n' || c = '\r'

/-- The value of a hexadecimal digit. -/
def hexDigit? (c : Char) : Option Nat :=
  if c.isDigit then some (c.toNat - '0'.toNat)
  else if 'a' ≤ c ∧ c ≤ 'f' then some (c.toNat - 'a'.toNat + 10)
  else if 'A' ≤ c ∧ c ≤ 'F' then some (c.toNat - 'A'.toNat + 10)
  else none

/-- The value of four hexadecimal digits. -/
def hex4? (a b c d : Char) : Option Nat := do
  let a ← hexDigit? a
  let b ← hexDigit? b
  let c ← hexDigit? c
  let d ← hexDigit? d
  some (((a * 16 + b) * 16 + c) * 16 + d)

/-- The character of a one-letter escape. -/
def escaped? : Char → Option Char
  | '"' => some '"'
  | '\\' => some '\\'
  | '/' => some '/'
  | 'b' => some '\x08'
  | 'f' => some '\x0c'
  | 'n' => some '\n'
  | 'r' => some '\r'
  | 't' => some '\t'
  | _ => none

/-- The rest of a string after its opening quote: its characters, and what follows the closing
    quote. `acc` holds the characters read so far, last first. -/
def readString : List Char → (acc : List Char) → Option (String × List Char)
  | [], _ => none
  | '"' :: rest, acc => some (String.ofList acc.reverse, rest)
  | '\\' :: 'u' :: a :: b :: c :: d :: '\\' :: 'u' :: e :: f :: g :: h :: rest, acc =>
    match hex4? a b c d, hex4? e f g h with
    | some hi, some lo =>
      if 0xD800 ≤ hi ∧ hi < 0xDC00 then
        if 0xDC00 ≤ lo ∧ lo < 0xE000 then
          readString rest (Char.ofNat (0x10000 + (hi - 0xD800) * 0x400 + (lo - 0xDC00)) :: acc)
        else none
      else readString ('\\' :: 'u' :: e :: f :: g :: h :: rest) (Char.ofNat hi :: acc)
    | _, _ => none
  | '\\' :: 'u' :: a :: b :: c :: d :: rest, acc =>
    match hex4? a b c d with
    | some n => if 0xD800 ≤ n ∧ n < 0xE000 then none else readString rest (Char.ofNat n :: acc)
    | none => none
  | '\\' :: c :: rest, acc =>
    match escaped? c with
    | some e => readString rest (e :: acc)
    | none => none
  | c :: rest, acc => readString rest (c :: acc)
termination_by cs => cs.length

/-- A numeral and what follows it. -/
def readNumber (cs : List Char) : Option (Value × List Char) :=
  let inNumeral := fun (c : Char) =>
    c.isDigit || c = '-' || c = '+' || c = '.' || c = 'e' || c = 'E'
  let numeral := cs.takeWhile inNumeral
  let rest := cs.dropWhile inNumeral
  match Decimal.readInt? numeral with
  | some n => if n = 0 && numeral.head? = some '-' then
      some (.number ⟨true, 0, Binary64.minExponent⟩, rest) else some (.int n, rest)
  | none => ((Decimal.read? numeral).bind Decimal.toBinary64?).map fun x => (.number x, rest)

mutual

/-- A value and what follows it. -/
def readValue : (fuel : Nat) → List Char → Option (Value × List Char)
  | 0, _ => none
  | fuel + 1, cs =>
    match skipSpace cs with
    | 'n' :: 'u' :: 'l' :: 'l' :: rest => some (.null, rest)
    | 't' :: 'r' :: 'u' :: 'e' :: rest => some (.bool true, rest)
    | 'f' :: 'a' :: 'l' :: 's' :: 'e' :: rest => some (.bool false, rest)
    | '"' :: rest => (readString rest []).map fun (s, rest) => (.text s, rest)
    | '[' :: rest =>
      match skipSpace rest with
      | ']' :: rest => some (.list [], rest)
      | rest => (readItems fuel rest).map fun (items, rest) => (.list items, rest)
    | '\x7b' :: rest =>
      match skipSpace rest with
      | '\x7d' :: rest => some (.object [], rest)
      | rest => (readFields fuel rest).map fun (fields, rest) => (.object fields, rest)
    | rest => readNumber rest

/-- The items of a list up to its closing bracket. -/
def readItems : (fuel : Nat) → List Char → Option (List Value × List Char)
  | 0, _ => none
  | fuel + 1, cs => do
    let (item, rest) ← readValue fuel cs
    match skipSpace rest with
    | ']' :: rest => some ([item], rest)
    | ',' :: rest =>
      let (items, rest) ← readItems fuel rest
      some (item :: items, rest)
    | _ => none

/-- The fields of an object up to its closing brace. -/
def readFields : (fuel : Nat) → List Char → Option (List (String × Value) × List Char)
  | 0, _ => none
  | fuel + 1, cs =>
    match skipSpace cs with
    | '"' :: rest => do
      let (name, rest) ← readString rest []
      match skipSpace rest with
      | ':' :: rest =>
        let (item, rest) ← readValue fuel rest
        match skipSpace rest with
        | '\x7d' :: rest => some ([(name, item)], rest)
        | ',' :: rest =>
          let (fields, rest) ← readFields fuel rest
          some ((name, item) :: fields, rest)
        | _ => none
      | _ => none
    | _ => none

end

/-- The value that a JSON text denotes. -/
def parse? (s : String) : Option Value := do
  let cs := s.toList
  let (v, rest) ← readValue (cs.length + 1) cs
  if (skipSpace rest).isEmpty then some v else none

/-! ## Writing -/

/-- The hexadecimal digit of a number below sixteen. -/
def hexChar (n : Nat) : Char :=
  Nat.digitChar n

/-- One character inside a JSON string. -/
def escape (c : Char) : List Char :=
  match c with
  | '"' => ['\\', '"']
  | '\\' => ['\\', '\\']
  | '\n' => ['\\', 'n']
  | '\r' => ['\\', 'r']
  | '\t' => ['\\', 't']
  | '\x08' => ['\\', 'b']
  | '\x0c' => ['\\', 'f']
  | c =>
    if c.toNat < 0x20 then ['\\', 'u', '0', '0', hexChar (c.toNat / 16), hexChar (c.toNat % 16)]
    else [c]

/-- A text as a JSON string. -/
def quote (s : String) : String :=
  String.ofList ('"' :: s.toList.flatMap escape ++ ['"'])

/-- A number as a JSON numeral; a whole number keeps a point to stay apart from the integers. -/
def numeral (x : Binary64) : String :=
  let t := x.text
  if t.toList.contains '.' then t else t ++ ".0"

mutual

/-- A value as JSON text without white space. -/
def compact : Value → String
  | .null => "null"
  | .bool b => if b then "true" else "false"
  | .int n => toString n
  | .number x => numeral x
  | .text s => quote s
  | .list items => "[" ++ Text.join "," (compactItems items) ++ "]"
  | .object fields => "\x7b" ++ Text.join "," (compactFields fields) ++ "\x7d"

/-- The texts of the items of a list. -/
def compactItems : List Value → List String
  | [] => []
  | v :: rest => compact v :: compactItems rest

/-- The texts of the fields of an object. -/
def compactFields : List (String × Value) → List String
  | [] => []
  | (name, v) :: rest => (quote name ++ ":" ++ compact v) :: compactFields rest

end

/-- A line break and the indentation of a nesting depth. -/
def newLine (depth : Nat) : String :=
  String.ofList ('\n' :: List.replicate (2 * depth) ' ')

mutual

/-- A value as JSON text with one item or field a line, two blanks deeper per nesting. -/
def pretty (depth : Nat) : Value → String
  | .list [] => "[]"
  | .object [] => "\x7b\x7d"
  | .list items =>
    "[" ++ newLine (depth + 1) ++
      Text.join ("," ++ newLine (depth + 1)) (prettyItems (depth + 1) items) ++
      newLine depth ++ "]"
  | .object fields =>
    "\x7b" ++ newLine (depth + 1) ++
      Text.join ("," ++ newLine (depth + 1)) (prettyFields (depth + 1) fields) ++
      newLine depth ++ "\x7d"
  | .null => "null"
  | .bool b => if b then "true" else "false"
  | .int n => toString n
  | .number x => numeral x
  | .text s => quote s

/-- The indented texts of the items of a list. -/
def prettyItems (depth : Nat) : List Value → List String
  | [] => []
  | v :: rest => pretty depth v :: prettyItems depth rest

/-- The indented texts of the fields of an object. -/
def prettyFields (depth : Nat) : List (String × Value) → List String
  | [] => []
  | (name, v) :: rest => (quote name ++ ": " ++ pretty depth v) :: prettyFields depth rest

end

end Rollup.Value
