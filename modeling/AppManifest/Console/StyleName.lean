import AppManifest.Console.Color
import AppManifest.Text.LowerCase

namespace AppManifest.Console

structure StyleName where
  attributes : List (String × Bool) := []
  color : Option String := none
  background : Option String := none
  link : Option String := none

/-- The attributes of a style, in the order in which they are written. -/
def attributeOrder : List String :=
  ["bold", "dim", "italic", "underline", "blink", "blink2", "reverse", "conceal", "strike",
    "underline2", "frame", "encircle", "overline"]

def shortAttributes : List (String × String) :=
  [("b", "bold"), ("d", "dim"), ("i", "italic"), ("u", "underline"), ("r", "reverse"),
    ("c", "conceal"), ("s", "strike"), ("uu", "underline2"), ("o", "overline")]

/-- The attribute that a word names, in full or in short. -/
def attribute? (word : String) : Option String :=
  if word ∈ attributeOrder then some word else shortAttributes.lookup word

namespace StyleName

def ofWords (s : StyleName) : List String → Except StyleError StyleName
  | [] => .ok s
  | word :: rest =>
    match Text.lower word, rest with
    | "on", color :: rest => do
      checkColor (Text.lower color)
      ofWords { s with background := some (Text.lower color) } rest
    | "not", word :: rest =>
      match attribute? word with
      | some a => ofWords { s with attributes := (a, false) :: s.attributes } rest
      | none => .error .unknownWord
    | "link", url :: rest => ofWords { s with link := some url } rest
    | word, rest =>
      match attribute? word with
      | some a => ofWords { s with attributes := (a, true) :: s.attributes } rest
      | none => do
        checkColor word
        ofWords { s with color := some word } rest

def ofText (s : String) : Except StyleError StyleName :=
  if Text.trim Text.isBlank s.toList = "none".toList then .ok {}
  else ofWords {} ((Text.words s.toList).map String.ofList)

/-- The one spelling of a style. -/
def text (s : StyleName) : String :=
  let attributes := attributeOrder.filterMap fun a =>
    (s.attributes.lookup a).map fun on => if on then a else "not " ++ a
  let words := attributes ++ s.color.toList ++ (s.background.toList.map ("on " ++ ·))
    ++ s.link.toList.map ("link " ++ ·)
  if words.isEmpty then "none" else " ".intercalate words

/-- The name under which a tag is opened and closed: the one spelling of its style, or else its
own in lower case. Only a bad part of a color makes it fail. -/
def normalize (name : String) : Except StyleError String :=
  match ofText name with
  | .ok s => .ok s.text
  | .error .unknownWord => .ok (Text.lower (String.ofList (Text.trim Text.isBlank name.toList)))
  | .error .badColorPart => .error .badColorPart

end StyleName

end AppManifest.Console
