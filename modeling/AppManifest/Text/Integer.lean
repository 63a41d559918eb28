import AppManifest.Text.Blank
import AppManifest.Text.Numeral

namespace AppManifest.Text

inductive IntegerError
  | malformed
  | tooLong
  deriving DecidableEq, Repr

/-- Whether a minus sign stands in front of a text, and the text after it. -/
def takeMinus : List Char → Bool × List Char
  | '-' :: rest => (true, rest)
  | s => (false, s)

/-- An integer in its shortest spelling. -/
def plainInteger? (s : List Char) : Option Int :=
  let (negative, digits) := takeMinus s
  if isNumeral digits && (digits.length = 1 || digits.head? != some '0') then
    some (if negative then -(numeralValue digits : Int) else numeralValue digits)
  else none

/-- Whether a text begins with an integer that is too long; its sign counts as a digit. -/
def beginsTooLong (s : List Char) : Bool :=
  let (negative, rest) := takeMinus s
  let digits := rest.takeWhile Char.isDigit
  digits.head? != some '0' && maxDigits < digits.length + (if negative then 1 else 0)

/-- Drops zeros and underscores after a character, which stays where nothing or a point follows
them. Only digits may follow otherwise. -/
def dropZeros (last : Char) : List Char → Option (List Char)
  | [] => some [last]
  | c :: rest =>
    if c = '0' || c = '_' then dropZeros c rest
    else if c = '.' then some (last :: c :: rest)
    else if c.isDigit then some (c :: rest)
    else none

/-- The text without the zeros that it begins with; it must begin with a digit. -/
def withoutLeadingZeros : List Char → Option (List Char)
  | [] => none
  | c :: rest =>
    if c = '0' then dropZeros c rest else if c.isDigit then some (c :: rest) else none

/-- The text without a point and the zeros after it, where nothing else follows the point. -/
def withoutZeroFraction (s : List Char) : List Char :=
  match s.dropWhile (· != '.') with
  | _ :: zero :: zeros =>
    if (zero :: zeros).all (· = '0') then s.takeWhile (· != '.') else s
  | _ => s

/-- The text without its underscores, each of which must stand alone inside it. -/
def withoutUnderscores (s : List Char) : Option (List Char) :=
  let groups := split (· = '_') s
  if groups.all fun g => !g.isEmpty then some groups.flatten else none

/-- The shortest spelling of an integer that has spaces around it, a sign, zeros in front, a
fraction of zeros or underscores between its digits. -/
def shortest? (s : List Char) : Option (List Char) := do
  let trimmed := trim isSpace s
  let (negative, body) := match trimmed with
    | '+' :: rest => (false, rest)
    | rest => takeMinus rest
  let digits ← withoutUnderscores (withoutZeroFraction (← withoutLeadingZeros body))
  return if negative then '-' :: digits else digits

def integer? (s : List Char) : Except IntegerError Int :=
  if beginsTooLong s then .error .tooLong
  else
    match shortest? s with
    | none => .error .malformed
    | some plain =>
      match plainInteger? plain with
      | some n => if plain.length ≤ maxDigits then .ok n else .error .malformed
      | none => .error .malformed

end AppManifest.Text
