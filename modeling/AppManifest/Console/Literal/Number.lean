import AppManifest.Number.Binary64
import AppManifest.Text.Blank
import AppManifest.Text.Numeral

namespace AppManifest.Console.Literal

structure Number where
  imaginary : Bool
  /-- Whether it is an integer too large for a 64-bit binary number. -/
  oversized : Bool := false
  deriving DecidableEq, Repr

/-- One or more digits with single underscores between them. -/
def isDigits (digit : Char → Bool) (s : List Char) : Bool :=
  (Text.split (· = '_') s).all fun group => !group.isEmpty && group.all digit

def hexValue (c : Char) : Nat :=
  if c.isDigit then c.toNat - '0'.toNat else c.toLower.toNat - 'a'.toNat + 10

def isHexDigit (c : Char) : Bool :=
  c.isDigit || ('a' ≤ c.toLower && c.toLower ≤ 'f')

/-- The number that digits spell to a base, whatever underscores stand between them. -/
def valueOf (base : Nat) (s : List Char) : Nat :=
  (s.filter (· != '_')).foldl (fun n c => base * n + hexValue c) 0

def Number.ofNat (n : Nat) : Number :=
  ⟨false, match Binary64.ofQuotient false n 1 with
    | .infinite _ => true
    | _ => false⟩

/-- An integer to a base other than ten, after its two letters. -/
def basedInteger? (base : Nat) (digit : Char → Bool) (s : List Char) : Option Number :=
  let digits := match s with
    | '_' :: rest => rest
    | rest => rest
  if isDigits digit digits then some (.ofNat (valueOf base digits)) else none

/-- A decimal integer; only zero begins with a zero. -/
def decimalInteger? (s : List Char) : Option Number :=
  let digits := s.filter (· != '_')
  if isDigits Char.isDigit s && digits.length ≤ Text.maxDigits
      && (digits.head? != some '0' || digits.all (· = '0')) then
    some (.ofNat (valueOf 10 s))
  else none

/-- Whether a text is digits with a point before, between or after them. -/
def isPointed (s : List Char) : Bool :=
  let whole := s.takeWhile (· != '.')
  match s.dropWhile (· != '.') with
  | [] => isDigits Char.isDigit whole
  | _ :: [] => isDigits Char.isDigit whole
  | _ :: fraction =>
    (whole.isEmpty || isDigits Char.isDigit whole) && isDigits Char.isDigit fraction

def isExponentMark (c : Char) : Bool :=
  c = 'e' || c = 'E'

/-- Whether a text is a decimal number, which may have a point and an exponent. -/
def isDecimal (s : List Char) : Bool :=
  isPointed (s.takeWhile (!isExponentMark ·)) &&
    match s.dropWhile (!isExponentMark ·) with
    | [] => true
    | _ :: '+' :: digits => isDigits Char.isDigit digits
    | _ :: '-' :: digits => isDigits Char.isDigit digits
    | _ :: digits => isDigits Char.isDigit digits

def number? (s : List Char) : Option Number :=
  match s with
  | '0' :: c :: rest =>
    if c.toLower = 'x' then basedInteger? 16 isHexDigit rest
    else if c.toLower = 'o' then basedInteger? 8 (fun d => '0' ≤ d && d ≤ '7') rest
    else if c.toLower = 'b' then basedInteger? 2 (fun d => d = '0' || d = '1') rest
    else decimal? ('0' :: c :: rest)
  | s => decimal? s
where
  decimal? (s : List Char) : Option Number :=
    match s.reverse with
    | [] => none
    | last :: before =>
      if last.toLower = 'j' then if isDecimal before.reverse then some ⟨true, false⟩ else none
      else if s.any fun c => c = '.' || isExponentMark c then
        if isDecimal s then some ⟨false, false⟩ else none
      else decimalInteger? s

end AppManifest.Console.Literal
