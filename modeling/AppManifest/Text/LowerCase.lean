import AppManifest.Text.CaseTable
import AppManifest.Text.Range

namespace AppManifest.Text

namespace CaseTable

def Run.contains (r : Run) (c : Char) : Bool :=
  r.first ≤ c.toNat && c.toNat ≤ r.last && (c.toNat - r.first) % r.stride == 0

def Run.lower (r : Run) (c : Char) : Char :=
  Char.ofNat (c.toNat + r.shift).toNat

end CaseTable

/-- Whether the nearest character that is not ignored has a case. -/
def besideCased (s : List Char) : Bool :=
  match s.dropWhile (inRanges CaseTable.ignorable) with
  | [] => false
  | c :: _ => inRanges CaseTable.cased c

/-- The lower case of a letter where its surroundings do not matter. -/
def lowerChar (c : Char) : List Char :=
  if c = 'İ' then ['i', '\u0307']
  else match CaseTable.lowered.find? (·.contains c) with
    | some run => [run.lower c]
    | none => [c]

/-- The lower case of the rest of a text, given the characters before it from the nearest on.

A capital sigma becomes a final one at the end of a word. -/
def lowerFrom (before : List Char) : List Char → List Char
  | [] => []
  | c :: s =>
    let here :=
      if c = 'Σ' then if besideCased before && !besideCased s then ['ς'] else ['σ']
      else lowerChar c
    here ++ lowerFrom (c :: before) s

def lower (s : String) : String :=
  String.ofList (lowerFrom [] s.toList)

end AppManifest.Text
