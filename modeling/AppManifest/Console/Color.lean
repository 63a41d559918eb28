import AppManifest.Console.ColorTable
import AppManifest.Text.Blank
import AppManifest.Text.Digit
import AppManifest.Text.Numeral

namespace AppManifest.Console

inductive StyleError
  | unknownWord
  /-- One of the three parts of a color is no number. -/
  | badColorPart
  deriving DecidableEq, Repr

def colorPart (digits : List Char) : Except StyleError Nat :=
  if digits.isEmpty || Text.maxDigits < digits.length then .error .badColorPart
  else .ok (digits.foldl (fun n c => 10 * n + (Text.digitValue? c).getD 0) 0)

/-- Reads three parts of a color, each of which must be less than 256. -/
def checkParts (parts : List (List Char)) : Except StyleError Unit :=
  match parts with
  | [red, green, blue] => do
    let numbers := [← colorPart red, ← colorPart green, ← colorPart blue]
    if numbers.all (· < 256) then return () else throw .unknownWord
  | _ => .error .unknownWord

/-- What stands between the parentheses of a call. -/
def argument? (function word : List Char) : Option (List Char) :=
  let inside := (word.drop (function.length + 1)).dropLast
  if word = function ++ '(' :: inside ++ [')'] then some inside else none

/-- Whether a text is a color by six hexadecimal digits or by its number. -/
def isNumberedColor (word : List Char) : Bool :=
  match word, argument? "color".toList word with
  | '#' :: digits, _ =>
    digits.length = 6 && digits.all fun c => c.isDigit || ('a' ≤ c && c ≤ 'f')
  | _, some number =>
    Text.isNumeral number && number.length ≤ 3 && Text.numeralValue number < 256
  | _, none => false

/-- Reads a color in lower case: by name, by six hexadecimal digits, by its number or by its three
parts. A word has no blanks. -/
def checkColor (word : String) : Except StyleError Unit :=
  if word = "default" || word ∈ colorNames || isNumberedColor word.toList then .ok ()
  else
    match argument? "rgb".toList word.toList with
    | some parts =>
      if !parts.isEmpty && parts.all fun c => c = ',' || (Text.digitValue? c).isSome then
        checkParts (Text.split (· = ',') parts)
      else .error .unknownWord
    | none => .error .unknownWord

end AppManifest.Console
