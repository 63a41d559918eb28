import AppManifest.Analysis.Progress
import AppManifest.Route
import AppManifest.Settings
import AppManifest.Symbol

namespace AppManifest

/-- What the analysis of every declaration of a document has in common. -/
structure Scope where
  document : Document
  settings : Settings
  symbols : SymbolTable

namespace Scope

def diagnostic (c : Scope) (n : Node) (f : Finding) : Diagnostic :=
  f.diagnostic (c.document.location n)

/-- Abandons the declaration over a finding. -/
def reject (c : Scope) (n : Node) (f : Finding) : Except Halt α :=
  .error (.rejected (c.diagnostic n f))

def nameOf (c : Scope) (definition : Node) : Except Halt String :=
  match definition.field? "name" with
  | some token => do return ← c.document.text token
  | none => return "<anonymous>"

/-- Where a finding about a field points: at the field, or else at its marker. -/
def anchor (a : Marker) (name : String) : Node :=
  match a.field? name with
  | some f => f.node
  | none => a.node

def literal (c : Scope) (f : MarkerField) : Except Halt String := do
  match ← c.document.literal? f with
  | some value => return value
  | none => c.reject f.node (.nonLiteralFieldValue f.name)

def required (c : Scope) (a : Marker) (name : String) : Except Halt String :=
  match a.field? name with
  | some f => c.literal f
  | none => c.reject a.node (.missingRequiredField name a.name)

def optional (c : Scope) (a : Marker) (name : String) : Except Halt (Option String) :=
  match a.field? name with
  | some f => some <$> c.literal f
  | none => return none

/-- The positive number that a field supplies. -/
def positive? (c : Scope) (a : Marker) (name : String) : Except Halt (Option Nat) := do
  match ← c.optional a name with
  | none => return none
  | some value =>
    if Text.isNumeral value.toList then
      if Text.maxDigits < value.toList.length then throw (.fault .oversizedNumeral)
      else if Text.numeralValue value.toList = 0 then
        c.reject (anchor a name) (.invalidFieldValue value name)
      else return some (Text.numeralValue value.toList)
    else c.reject (anchor a name) (.invalidFieldValue value name)

/-- The route that a field spells; an absent field spells the empty one. -/
def pathValue (c : Scope) (a : Marker) (name : String) : Except Halt String := do
  match a.field? name with
  | none => return ""
  | some f =>
    let expression ← Document.valueExpression f
    let segments ← c.document.segments expression
    match c.document.resolvePath c.settings.strictPaths segments with
    | .ok path => return path
    | .error (.fault e) => throw (.fault e)
    | .error (.unsupported n) => c.reject n (.unsupportedPathSegment (← c.document.text n))

def single (c : Scope) (role : String) (more : List Marker) : Except Halt Unit :=
  match more with
  | [] => return ()
  | second :: _ => c.reject second.node (.multipleMarkers role)

/-- The warnings about the arguments of a marker: its unknown fields, then its positional
arguments. -/
def argumentWarnings (c : Scope) (a : Marker) : List Diagnostic :=
  (a.fields.filter fun f => f.name ∉ allowedFields a.name).map
      (fun f => c.diagnostic f.node (.unknownField a.name f.name))
    ++ a.positional.map fun n => c.diagnostic n .positionalArgument

end Scope

end AppManifest
