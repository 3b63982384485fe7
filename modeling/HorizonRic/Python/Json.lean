import HorizonRic.Python.Value
import HorizonRic.Python.Bytes
import Mathlib.Data.List.Sort
import Mathlib.Data.String.Basic

/-!
The `json` module: `dumps` with sorted keys and ASCII output, and `loads`. The
scanner follows the C accelerator: `NaN` and the infinities are accepted, the
last of several equal keys wins, and what follows the value is an error.
Strings are sequences of Unicode scalar values, so a lone surrogate has no value
and is refused.
-/
namespace Py.Json

/-- The separators of `dumps`. -/
structure Style where
  itemSep : List Char
  keySep : List Char

def spaced : Style := ⟨[',', ' '], [':', ' ']⟩
def compact : Style := ⟨[','], [':']⟩

def hex4 (n : Nat) : List Char :=
  [hexDigit (n / 4096 % 16), hexDigit (n / 256 % 16), hexDigit (n / 16 % 16), hexDigit (n % 16)]

def unicodeEscape (n : Nat) : List Char := '\\' :: 'u' :: hex4 n

/-- The letter of a two-character escape. -/
def shortEscape (c : Char) : Option Char :=
  if c = '"' then some '"'
  else if c = '\\' then some '\\'
  else if c = '\n' then some 'n'
  else if c = '\r' then some 'r'
  else if c = '\t' then some 't'
  else if c = '\x0c' then some 'f'
  else if c = '\x08' then some 'b'
  else none

def escapeChar (c : Char) : List Char :=
  match shortEscape c with
  | some letter => ['\\', letter]
  | none =>
    if 0x20 ≤ c.toNat ∧ c.toNat < 0x7f then [c]
    else if c.toNat < 0x10000 then unicodeEscape c.toNat
    else
      let n := c.toNat - 0x10000
      unicodeEscape (0xd800 + n / 1024) ++ unicodeEscape (0xdc00 + n % 1024)

def quote (s : String) : List Char := '"' :: (s.toList.flatMap escapeChar ++ ['"'])

section
variable (py : Interpreter) (style : Style)

def floatText : Number → List Char
  | .nan => "NaN".toList
  | .inf negative => if negative then "-Infinity".toList else "Infinity".toList
  | .fin q => (py.floatRepr (.fin q)).toList

mutual
def print : Value → List Char
  | .null => "null".toList
  | .bool b => if b then "true".toList else "false".toList
  | .int n => (toString n).toList
  | .float x => floatText py x
  | .str s => quote s
  | .list xs => '[' :: (printElements xs ++ [']'])
  | .dict entries => '\x7b' :: (printMembers entries ++ ['\x7d'])

def printElements : List Value → List Char
  | [] => []
  | [x] => print x
  | x :: xs => print x ++ style.itemSep ++ printElements xs

def printMembers : List (String × Value) → List Char
  | [] => []
  | [(k, x)] => quote k ++ style.keySep ++ print x
  | (k, x) :: rest => quote k ++ style.keySep ++ print x ++ style.itemSep ++ printMembers rest
end

end

mutual
/-- Every mapping in key order, as `sort_keys=True` writes it. -/
def sortKeys : Value → Value
  | .list xs => .list (sortKeysList xs)
  | .dict entries => .dict ((sortKeysItems entries).insertionSort (fun a b => a.1 ≤ b.1))
  | v => v

def sortKeysList : List Value → List Value
  | [] => []
  | x :: xs => sortKeys x :: sortKeysList xs

def sortKeysItems : List (String × Value) → List (String × Value)
  | [] => []
  | (k, x) :: rest => (k, sortKeys x) :: sortKeysItems rest
end

/-- `json.dumps(value, sort_keys=True)`. -/
def dumps (py : Interpreter) (style : Style) (v : Value) : Except PyErr String :=
  if v.digitsOk then .ok (String.ofList (print py style (sortKeys v))) else .error .valueError

def isSpace (c : Char) : Bool := c == ' ' || c == '\t' || c == '\n' || c == '\r'

def skipSpace (cs : List Char) : List Char := cs.dropWhile isSpace

def hexNumber (a b c d : Char) : Option Nat := do
  let a ← hexValue a
  let b ← hexValue b
  let c ← hexValue c
  let d ← hexValue d
  some (4096 * a + 256 * b + 16 * c + d)

/-- The character of a two-character escape. -/
def unescape (letter : Char) : Option Char :=
  if letter = '"' then some '"'
  else if letter = '\\' then some '\\'
  else if letter = '/' then some '/'
  else if letter = 'n' then some '\n'
  else if letter = 'r' then some '\r'
  else if letter = 't' then some '\t'
  else if letter = 'f' then some '\x0c'
  else if letter = 'b' then some '\x08'
  else none

def isHigh (n : Nat) : Bool := decide (0xd800 ≤ n) && decide (n < 0xdc00)
def isLow (n : Nat) : Bool := decide (0xdc00 ≤ n) && decide (n < 0xe000)

/-- One character of a string literal and what follows it; the closing quote and a
    control character are none. -/
def scanChar : List Char → Option (Char × List Char)
  | '\\' :: 'u' :: a :: b :: c :: d :: rest =>
    match hexNumber a b c d with
    | none => none
    | some n =>
      if isHigh n then
        match rest with
        | '\\' :: 'u' :: a :: b :: c :: d :: rest =>
          match hexNumber a b c d with
          | none => none
          | some low =>
            if isLow low then
              some (Char.ofNat (0x10000 + (n - 0xd800) * 1024 + (low - 0xdc00)), rest)
            else none
        | _ => none
      else if isLow n then none
      else some (Char.ofNat n, rest)
  | '\\' :: letter :: rest => (unescape letter).map fun c => (c, rest)
  | c :: rest => if c = '"' ∨ c = '\\' ∨ c.toNat < 0x20 then none else some (c, rest)
  | [] => none

/-- The characters up to the closing quote, with at most `fuel` of them. -/
def scanString : Nat → List Char → Option (List Char × List Char)
  | _, '"' :: rest => some ([], rest)
  | 0, _ => none
  | fuel + 1, cs => do
    let (c, rest) ← scanChar cs
    let (more, rest) ← scanString fuel rest
    some (c :: more, rest)

def scanDigits (cs : List Char) : List Char × List Char :=
  (cs.takeWhile Char.isDigit, cs.dropWhile Char.isDigit)

def scanWhole : List Char → Option (List Char × List Char)
  | '0' :: rest => some (['0'], rest)
  | c :: rest => if c.isDigit then some (scanDigits (c :: rest)) else none
  | [] => none

def scanFraction : List Char → List Char × List Char
  | '.' :: c :: rest =>
    if c.isDigit then
      ('.' :: (scanDigits (c :: rest)).1, (scanDigits (c :: rest)).2)
    else ([], '.' :: c :: rest)
  | cs => ([], cs)

def scanSign : List Char → List Char × List Char
  | '+' :: rest => (['+'], rest)
  | '-' :: rest => (['-'], rest)
  | cs => ([], cs)

def scanExponent : List Char → List Char × List Char
  | e :: rest =>
    if e = 'e' ∨ e = 'E' then
      let (sign, digits) := scanSign rest
      match digits with
      | c :: _ =>
        if c.isDigit then (e :: (sign ++ (scanDigits digits).1), (scanDigits digits).2)
        else ([], e :: rest)
      | [] => ([], e :: rest)
    else ([], e :: rest)
  | [] => ([], [])

def scanMinus : List Char → List Char × List Char
  | '-' :: rest => (['-'], rest)
  | cs => ([], cs)

/-- A number token: its sign and digits, its fraction with its exponent, and the rest. -/
def scanNumber (cs : List Char) : Option (List Char × List Char × List Char) :=
  let (minus, cs) := scanMinus cs
  match scanWhole cs with
  | none => none
  | some (whole, cs) =>
    let (fraction, cs) := scanFraction cs
    let (exponent, cs) := scanExponent cs
    some (minus ++ whole, fraction ++ exponent, cs)

/-- `int(text)` for a number token without fraction and exponent. -/
def intOfToken : List Char → Int
  | '-' :: digits => -(Nat.ofDigitChars 10 digits 0 : Int)
  | digits => (Nat.ofDigitChars 10 digits 0 : Int)

section
variable (py : Interpreter)

def parseNumber (cs : List Char) : Except PyErr (Value × List Char) :=
  match scanNumber cs with
  | none => .error .jsonDecodeError
  | some (whole, [], rest) =>
    if intDigitsOk (intOfToken whole) then .ok (.int (intOfToken whole), rest)
    else .error .valueError
  | some (whole, tail, rest) =>
    match py.floatOfStr (String.ofList (whole ++ tail)) with
    | some x => .ok (.float x, rest)
    | none => .error .jsonDecodeError

/-- The literals, and the numbers. -/
def parseAtom (cs : List Char) : Except PyErr (Value × List Char) :=
  match cs with
  | 'n' :: 'u' :: 'l' :: 'l' :: rest => .ok (.null, rest)
  | 't' :: 'r' :: 'u' :: 'e' :: rest => .ok (.bool true, rest)
  | 'f' :: 'a' :: 'l' :: 's' :: 'e' :: rest => .ok (.bool false, rest)
  | 'N' :: 'a' :: 'N' :: rest => .ok (.float .nan, rest)
  | 'I' :: 'n' :: 'f' :: 'i' :: 'n' :: 'i' :: 't' :: 'y' :: rest => .ok (.float (.inf false), rest)
  | '-' :: 'I' :: 'n' :: 'f' :: 'i' :: 'n' :: 'i' :: 't' :: 'y' :: rest =>
    .ok (.float (.inf true), rest)
  | cs => parseNumber py cs

def parseString (cs : List Char) : Except PyErr (String × List Char) :=
  match scanString cs.length cs with
  | some (s, rest) => .ok (String.ofList s, rest)
  | none => .error .jsonDecodeError

/-- Equal keys keep the first position and the last value. -/
def dictOfPairs (pairs : List (String × Value)) : Dict Value :=
  pairs.foldl (fun d pair => d.set pair.1 pair.2) []

mutual
def parseValue : Nat → List Char → Except PyErr (Value × List Char)
  | 0, _ => .error .jsonDecodeError
  | fuel + 1, cs =>
    match cs with
    | '"' :: rest => do
      let (s, rest) ← parseString rest
      .ok (.str s, rest)
    | '[' :: rest =>
      match skipSpace rest with
      | ']' :: rest => .ok (.list [], rest)
      | body => do
        let (xs, rest) ← parseElements fuel body
        .ok (.list xs, rest)
    | '\x7b' :: rest =>
      match skipSpace rest with
      | '\x7d' :: rest => .ok (.dict [], rest)
      | body => do
        let (pairs, rest) ← parseMembers fuel body
        .ok (.dict (dictOfPairs pairs), rest)
    | cs => parseAtom py cs

def parseElements : Nat → List Char → Except PyErr (List Value × List Char)
  | 0, _ => .error .jsonDecodeError
  | fuel + 1, cs => do
    let (x, rest) ← parseValue fuel cs
    match skipSpace rest with
    | ']' :: rest => .ok ([x], rest)
    | ',' :: rest => do
      let (xs, rest) ← parseElements fuel (skipSpace rest)
      .ok (x :: xs, rest)
    | _ => .error .jsonDecodeError

def parseMembers : Nat → List Char → Except PyErr (List (String × Value) × List Char)
  | 0, _ => .error .jsonDecodeError
  | fuel + 1, cs =>
    match cs with
    | '"' :: rest => do
      let (key, rest) ← parseString rest
      match skipSpace rest with
      | ':' :: rest => do
        let (x, rest) ← parseValue fuel (skipSpace rest)
        match skipSpace rest with
        | '\x7d' :: rest => .ok ([(key, x)], rest)
        | ',' :: rest => do
          let (pairs, rest) ← parseMembers fuel (skipSpace rest)
          .ok ((key, x) :: pairs, rest)
        | _ => .error .jsonDecodeError
      | _ => .error .jsonDecodeError
    | _ => .error .jsonDecodeError
end

/-- `json.loads(text)`: one value, and nothing but whitespace around it. -/
def loads (text : List Char) : Except PyErr Value := do
  let (v, rest) ← parseValue py (2 * text.length + 2) (skipSpace text)
  if skipSpace rest = [] then .ok v else .error .jsonDecodeError

end
end Py.Json
