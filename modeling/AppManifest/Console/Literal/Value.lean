import AppManifest.Console.Literal.Token

namespace AppManifest.Console.Literal

/-- What a literal stands for, as far as it decides where it may be written. -/
inductive Value
  /-- A number, which takes a sign only once. -/
  | number (n : Number) (signed : Bool)
  /-- A value that a set may hold. -/
  | item
  /-- A value that no set may hold. -/
  | collection
  | setName
  deriving DecidableEq, Repr

/-- A token, or what stands between brackets. -/
inductive Part
  | token (t : Token)
  | group (v : Value)
  | unit
  deriving DecidableEq, Repr

/-- The value after the name of the function that makes an empty set. -/
def afterSetName : List Part → Value × List Part
  | .unit :: rest => (.collection, rest)
  | rest => (.setName, rest)

/-- The value without operators that parts begin with. Quoted texts that follow each other are one,
and stand all for bytes or all for characters. -/
def primary? : List Part → Option (Value × List Part)
  | .token (.number n) :: rest => some (.number n false, rest)
  | .token .constant :: rest => some (.item, rest)
  | .token .setName :: rest => some (afterSetName rest)
  | .group .setName :: rest => some (afterSetName rest)
  | .group v :: rest => some (v, rest)
  | .unit :: rest => some (.item, rest)
  | .token (.text bytes) :: rest =>
    let isText (bytes : Bool) (p : Part) : Bool := p = .token (.text bytes)
    let after := rest.dropWhile (isText bytes)
    if after.head?.any (isText (!bytes)) then none else some (.item, after)
  | _ => none

def operand? : List Part → Option (Value × List Part)
  | .token .sign :: rest =>
    match primary? rest with
    | some (.number n false, rest) => some (.number n true, rest)
    | _ => none
  | parts => primary? parts

/-- The value of parts between commas: an operand, or a real number to which an imaginary one is
added. -/
def expression? (parts : List Part) : Option Value :=
  match operand? parts with
  | some (v, []) => some v
  | some (.number real _, .token .sign :: rest) =>
    match primary? rest with
    | some (.number imaginary false, []) =>
      if !real.imaginary && !real.oversized && imaginary.imaginary then some .item else none
    | _ => none
  | _ => none

def complete? (parts : List Part) : Option Value :=
  (expression? parts).filter (· != .setName)

/-- The parts between commas; a comma at the end adds none. -/
def betweenCommas (parts : List Part) : List (List Part) :=
  let pieces := Text.split (· = .token .comma) parts
  if pieces.getLast? = some [] then pieces.dropLast else pieces

/-- The value of parts between parentheses or outside all brackets. With a comma they are a
tuple, which a set may hold if it may hold all of its items. -/
def tuple? (parts : List Part) : Option Value :=
  if .token .comma ∈ parts then
    ((betweenCommas parts).mapM complete?).map fun vs =>
      if .collection ∈ vs then .collection else .item
  else expression? parts

/-- Whether parts are a value that a set may hold. -/
def isItem (parts : List Part) : Bool :=
  (complete? parts).any (· != .collection)

/-- Whether parts are a key and a value with a colon between them. -/
def isEntry (parts : List Part) : Bool :=
  match Text.split (· = .token .colon) parts with
  | [key, value] => isItem key && (complete? value).isSome
  | _ => false

/-- The value of parts between braces: items only, or keys with values only. -/
def braced? (parts : List Part) : Option Value :=
  let pieces := betweenCommas parts
  if parts.isEmpty || !pieces.isEmpty && (pieces.all isItem || pieces.all isEntry) then
    some .collection
  else none

/-- What brackets make of the parts between them. -/
def enclosed? (opening closing : Char) (parts : List Part) : Option Part :=
  if opening != closing then none
  else if opening = '\x7b' then (braced? parts).map .group
  else if parts.isEmpty then some .unit
  else (tuple? parts).map .group

/-- The number of brackets that may be open at a time. -/
def depthLimit : Nat := 200

/-- Joins tokens to the parts outside all brackets. The parts before each open bracket wait for
its end, all of them reversed, and lines end only outside brackets. -/
def outerParts? (opened : List (Char × List Part)) (parts : List Part) :
    List Token → Option (List Part)
  | [] => if opened.isEmpty then some parts.reverse else none
  | .opening bracket :: rest =>
    if opened.length < depthLimit then outerParts? ((bracket, parts) :: opened) [] rest else none
  | .closing bracket :: rest =>
    match opened with
    | [] => none
    | (opening, before) :: opened =>
      match enclosed? opening bracket parts.reverse with
      | some part => outerParts? opened (part :: before) rest
      | none => none
  | t :: rest =>
    if (t = .newLine || t = .indentedLine) && !opened.isEmpty then outerParts? opened parts rest
    else outerParts? opened (.token t :: parts) rest

/-- The text with one character for each line end. -/
def withPlainLineEnds : List Char → List Char
  | '\r' :: '\n' :: rest => '\n' :: withPlainLineEnds rest
  | '\r' :: rest => '\n' :: withPlainLineEnds rest
  | c :: rest => c :: withPlainLineEnds rest
  | [] => []

/-- Whether a text is a literal: a number, a quoted text, a constant or a collection of literals.
Empty lines may stand before and after it, but its line is not indented. -/
def isLiteral (s : List Char) : Bool :=
  let isLineEnd (p : Part) : Bool := p = .token .newLine
  let lines := '\n' :: withPlainLineEnds (s.dropWhile fun c => c = ' ' || c = '\t')
  let parts := (tokens? lines).bind (outerParts? [] [])
  !s.contains '\x00' && parts.any fun parts =>
    let line := ((parts.dropWhile isLineEnd).reverse.dropWhile isLineEnd).reverse
    (tuple? line).any (· != .setName)

end AppManifest.Console.Literal
