import AppManifest.Json.Basic
import AppManifest.Text.Quoted

namespace AppManifest.Json

def escapeUnit (unit : Nat) : List Char :=
  '\\' :: 'u' :: Text.hex 4 unit

/-- How a character is written in a JSON string that holds ASCII only. -/
def escapeChar (c : Char) : List Char :=
  if c = '"' || c = '\\' then ['\\', c]
  else if c = '\n' then ['\\', 'n']
  else if c = '\r' then ['\\', 'r']
  else if c = '\t' then ['\\', 't']
  else if c = '\x08' then ['\\', 'b']
  else if c = '\x0c' then ['\\', 'f']
  else if 0x20 ≤ c.toNat && c.toNat < 0x7F then [c]
  else if c.toNat < 0x10000 then escapeUnit c.toNat
  else
    let rest := c.toNat - 0x10000
    escapeUnit (0xD800 + rest / 0x400) ++ escapeUnit (0xDC00 + rest % 0x400)

/-- A JSON string with its quotes. -/
def printString (s : String) : String :=
  String.ofList ('"' :: s.toList.flatMap escapeChar ++ ['"'])

/-- A number with a fraction, all of its places written, or with a positive exponent. -/
def printDecimal (x : Decimal) : String :=
  if 0 ≤ x.exponent then toString x.mantissa ++ "e" ++ toString x.exponent
  else
    let places := (-x.exponent).toNat
    let digits := Nat.toDigits 10 x.mantissa.natAbs
    let padded := List.replicate (places + 1 - digits.length) '0' ++ digits
    let whole := padded.take (padded.length - places)
    let fraction := padded.drop (padded.length - places)
    String.ofList ((if x.mantissa < 0 then ['-'] else []) ++ whole ++ '.' :: fraction)

/-- A line end followed by the indentation of a depth. -/
def newline (depth : Nat) : String :=
  String.ofList ('\n' :: List.replicate (2 * depth) ' ')

mutual

/-- The value in two-space indentation, its first line continuing the current one. -/
def printAt (depth : Nat) : Json → String
  | .null => "null"
  | .bool b => if b then "true" else "false"
  | .int n => toString n
  | .decimal x => printDecimal x
  | .infinity negative => if negative then "-Infinity" else "Infinity"
  | .notANumber => "NaN"
  | .str s => printString s
  | .arr [] => "[]"
  | .arr (item :: items) =>
    "[" ++ newline (depth + 1) ++ printAt (depth + 1) item ++ printItems (depth + 1) items
      ++ newline depth ++ "]"
  | .obj [] => "\x7b\x7d"
  | .obj (member :: members) =>
    "\x7b" ++ newline (depth + 1) ++ printMember (depth + 1) member
      ++ printMembers (depth + 1) members ++ newline depth ++ "\x7d"

/-- The items of an array after its first. -/
def printItems (depth : Nat) : List Json → String
  | [] => ""
  | item :: items => "," ++ newline depth ++ printAt depth item ++ printItems depth items

def printMember (depth : Nat) : String × Json → String
  | (key, value) => printString key ++ ": " ++ printAt depth value

def printMembers (depth : Nat) : List (String × Json) → String
  | [] => ""
  | member :: members =>
    "," ++ newline depth ++ printMember depth member ++ printMembers depth members

end

def print (value : Json) : String :=
  printAt 0 value ++ "\n"

end AppManifest.Json
