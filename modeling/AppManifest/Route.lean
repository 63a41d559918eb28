import AppManifest.Marker
import AppManifest.Text.Blank

namespace AppManifest

namespace Document

/-- The operator of a complete `/` expression, one that has both sides. -/
def slash? (d : Document) (n : Node) : Except Fault (Option Node) := do
  if (← d.kind n) = .binaryOperator then
    match n.field? "operator" with
    | none => return none
    | some operator =>
      if (← d.kind operator) = .slashToken ∧ (n.field? "left").isSome
          ∧ (n.field? "right").isSome then
        return some operator
      else
        return none
  else
    return none

mutual

/-- The segments of the path expression that a tree holds. -/
def segmentsFrom (d : Document) (above : List Tree) : Tree → Except Fault (List Node)
  | .node type first last field children => do
    let here := .node type first last field children
    match ← d.slash? ⟨here, above⟩ with
    | none => return [⟨here, above⟩]
    | some operator =>
      let left ← d.segmentsOfField (here :: above) "left" children
      let right ← d.segmentsOfField (here :: above) "right" children
      return left ++ operator :: right

/-- The segments of the first tree that fills a field. -/
def segmentsOfField (d : Document) (above : List Tree) (name : String) :
    List Tree → Except Fault (List Node)
  | [] => return []
  | t :: trees =>
    if t.field = name then d.segmentsFrom above t else d.segmentsOfField above name trees

end

/-- The leaves of a `/`-joined expression with the operators between them, left to right. -/
def segments (d : Document) (n : Node) : Except Fault (List Node) :=
  d.segmentsFrom n.above n.tree

/-- What a segment adds to a path: the inside of a string, a slash, or a name. -/
def contribution? (d : Document) (segment : Node) : Except Fault (Option String) := do
  match ← d.kind segment with
  | .stringLiteral => return some (withoutDelimiters (← d.text segment))
  | .slashToken => return some (← d.text segment)
  | .identifier => return some (← d.text segment)
  | _ => return none

end Document

inductive PathError
  | fault (f : Fault)
  /-- The segment is no string, slash or name. -/
  | unsupported (segment : Node)

def unsupportedSegmentMessage (text : String) : String :=
  "Unsupported resource path segment: " ++ text

namespace Document

/-- The contributions of the segments, one after the other.

A segment without one is left out, or ends a strict reading. -/
def contributions (d : Document) (strict : Bool) : List Node → Except PathError (List String)
  | [] => return []
  | segment :: rest => do
    match ← (d.contribution? segment).mapError PathError.fault with
    | some text => return text :: (← d.contributions strict rest)
    | none =>
      if strict then throw (.unsupported segment) else d.contributions strict rest

end Document

/-- The text without one leading slash. -/
def withoutLeadingSlash (s : String) : String :=
  match s.toList with
  | '/' :: rest => String.ofList rest
  | _ => s

/-- The route that the segments spell, without a leading slash. -/
def Document.resolvePath (d : Document) (strict : Bool) (segments : List Node) :
    Except PathError String :=
  return withoutLeadingSlash (String.join (← d.contributions strict segments))

def trimSlashes (s : String) : String :=
  String.ofList (Text.trim (· = '/') s.toList)

/-- Joins routes by single slashes; parts that hold nothing else do not count. -/
def joinRoute (parts : List String) : String :=
  "/".intercalate ((parts.map trimSlashes).filter fun p => p != "")

end AppManifest
