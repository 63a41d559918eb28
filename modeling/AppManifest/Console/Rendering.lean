import AppManifest.Console.Literal.Value
import AppManifest.Console.Markup
import AppManifest.Console.StyleName
import AppManifest.Console.Terminal
import AppManifest.Text.WordTable

namespace AppManifest.Console

inductive MarkupFault
  | unmatchedTag
  /-- The parameters of an action are no literal. -/
  | badParameters
  | badColorPart
  deriving DecidableEq, Repr

def MarkupFault.message : MarkupFault → String
  | unmatchedTag => "A closing tag closes nothing"
  | badParameters => "The parameters of an action cannot be read"
  | badColorPart => "A part of a color is no number"

/-- What a text in markup does, in order. An opening tag may have parameters after an equals
sign. -/
inductive Piece
  | plain (text : List Char)
  | opening (name : String) (parameters : Option String)
  | closing (name : String)

def Piece.ofTag (body : List Char) : Piece :=
  match body.takeWhile (· != '='), body.dropWhile (· != '=') with
  | '/' :: name, _ => closing (String.ofList (Text.trim Text.isBlank name))
  | name, [] => opening (String.ofList name) none
  | name, _ :: parameters => opening (String.ofList name) (some (String.ofList parameters))

def Piece.ofReversed (plain : List Char) : List Piece :=
  if plain.isEmpty then [] else [.plain plain.reverse]

/-- Joins characters to pieces. Of the backslashes before a tag each two print one, and an odd one
makes the tag print as it is. -/
def pieces (plain : List Char) : List Token → List Piece
  | [] => Piece.ofReversed plain
  | .char c :: rest => pieces (c :: plain) rest
  | .tag n body :: rest =>
    Piece.ofReversed plain ++ Piece.ofReversed (List.replicate (n / 2) '\\')
      ++ (if n % 2 = 1 then .plain ('[' :: body ++ [']']) else Piece.ofTag body)
      :: pieces [] rest

/-- A tag that is open, with the number of characters printed before it. -/
structure OpenTag where
  start : Nat
  name : String
  parameters : Option String
  deriving DecidableEq, Repr

namespace OpenTag

/-- The style that a tag asks for: its name, with its parameters as further words. -/
def style (tag : OpenTag) : String :=
  match tag.parameters with
  | none => tag.name
  | some parameters => tag.name ++ " " ++ parameters

/-- Whether a tag gives its text an action instead of a style. -/
def isAction (tag : OpenTag) : Bool :=
  tag.name.toList.head? = some '@'

/-- What is read of the parameters of an action: where they are a name with or without a call, what
the call passes. -/
def actionArguments (parameters : String) : List Char :=
  let trimmed := Text.trim Text.isBlank parameters.toList
  let isNamePart (c : Char) : Bool := c = '.' || Text.inRanges Text.wordCharacters c
  match trimmed.dropWhile isNamePart with
  | [] => "()".toList
  | c :: rest =>
    if c = '(' && rest.getLast? = some ')' && !rest.contains '\n' then c :: rest else trimmed

/-- Whether the parameters of an action can be read; it need not have any. -/
def hasReadableParameters (tag : OpenTag) : Bool :=
  match tag.parameters with
  | none => true
  | some "" => true
  | some parameters => Literal.isLiteral (actionArguments parameters)

end OpenTag

structure Span where
  start : Nat
  stop : Nat
  style : String
  deriving DecidableEq, Repr

/-- A text that is being printed: its tags that are open, the last opened first, and the styles of
its stretches. -/
structure Rendering where
  text : List Char := []
  opened : List OpenTag := []
  spans : List Span := []

/-- Removes the tag that a closing one closes: the last of its name or, if it has none, the last of
all. -/
def closeTag (name : String) (opened : List OpenTag) :
    Except MarkupFault (OpenTag × List OpenTag) :=
  if name = "" then
    match opened with
    | [] => .error .unmatchedTag
    | tag :: rest => .ok (tag, rest)
  else
    match StyleName.normalize name with
    | .error _ => .error .badColorPart
    | .ok normal =>
      match opened.find? (·.name = normal) with
      | none => .error .unmatchedTag
      | some tag => .ok (tag, opened.eraseP (·.name = normal))

/-- The text without the backslashes before brackets. -/
def unescapeBrackets : List Char → List Char
  | '\\' :: '[' :: rest => '[' :: unescapeBrackets rest
  | c :: rest => c :: unescapeBrackets rest
  | [] => []

/-- The characters that a terminal acts on instead of showing them. -/
def isControl (c : Char) : Bool :=
  c.toNat ∈ [7, 8, 11, 12, 13]

namespace Rendering

def spanOf (r : Rendering) (tag : OpenTag) : Span :=
  ⟨tag.start, r.text.length, tag.style⟩

/-- Adds one piece, a plain one with its pictures. -/
def add (T : Terminal) (r : Rendering) : Piece → Except MarkupFault Rendering
  | .plain text =>
    .ok { r with text := r.text
      ++ (T.withPictures (unescapeBrackets text)).filter (fun c => !isControl c) }
  | .opening name parameters =>
    match StyleName.normalize name with
    | .error _ => .error .badColorPart
    | .ok normal => .ok { r with opened := ⟨r.text.length, normal, parameters⟩ :: r.opened }
  | .closing name => do
    let (tag, opened) ← closeTag name r.opened
    if !tag.isAction then return { r with opened, spans := r.spanOf tag :: r.spans }
    else if tag.hasReadableParameters then return { r with opened }
    else throw .badParameters

/-- The text with its styles, if those can be read that are still there when it is shown. A style
that nobody knows is no fault. -/
def finish (T : Terminal) (r : Rendering) : Except MarkupFault (List Char) :=
  let spans := (r.opened.map r.spanOf ++ r.spans).filter fun s => T.keeps r.text s.start s.stop
  if spans.any fun s => StyleName.ofText s.style matches .error .badColorPart then
    .error .badColorPart
  else .ok r.text

end Rendering

def printPieces (T : Terminal) (ps : List Piece) : Except MarkupFault (List Char) := do
  (← ps.foldlM (Rendering.add T) {}).finish T

/-- What a text in markup prints, with its line end. -/
def printMarkup (T : Terminal) (s : String) : Except MarkupFault String :=
  (printPieces T (pieces [] (tokens s.toList))).map fun printed =>
    String.ofList (T.layOut printed ++ ['\n'])

end AppManifest.Console
