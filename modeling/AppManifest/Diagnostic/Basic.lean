import AppManifest.Diagnostic.Code
import AppManifest.Json.Basic
import AppManifest.Location

namespace AppManifest

/-- A named detail of a diagnostic. -/
structure Property where
  key : String
  value : Json

structure Diagnostic where
  code : Code
  message : String
  location : SourceLocation
  properties : List Property

namespace Diagnostic

def severity (d : Diagnostic) : Severity := d.code.severity

def isError (d : Diagnostic) : Bool := d.severity = .error

def text (d : Diagnostic) : String :=
  d.location.text ++ ": " ++ d.severity.name ++ " " ++ d.code.id ++ ": " ++ d.message

/-- The diagnostic of a code, where the arguments fit its template. -/
def create (code : Code) (location : SourceLocation) (arguments : List String)
    (properties : List Property) : Except ArgumentError Diagnostic :=
  return ⟨code, ← code.render arguments, location, properties⟩

end Diagnostic

/-- What the analysis finds, with the texts that its message names. -/
inductive Finding
  | invalidFieldValue (value field : String)
  | nonLiteralFieldValue (field : String)
  | missingRequiredField (field marker : String)
  | unsupportedHttpMethod (method : String)
  | duplicateFunctionName (name : String)
  | unsupportedPathSegment (text : String)
  | noTriggerFunctions
  | unsupportedParameterType (text : String)
  | invalidFunctionName (name : String)
  | unknownField (marker field : String)
  | multipleMarkers (role : String)
  | positionalArgument
  | missingParameterType (parameter : String)
  | triggerNotAllowed (trigger service : String)
  | acceptsAllMethods (name : String)
  | conflictingHostSetting (field : String) (kept : Int)

namespace Finding

def code : Finding → Code
  | invalidFieldValue .. => .invalidFieldValue
  | nonLiteralFieldValue .. => .nonLiteralFieldValue
  | missingRequiredField .. => .missingRequiredField
  | unsupportedHttpMethod .. => .unsupportedHttpMethod
  | duplicateFunctionName .. => .duplicateFunctionName
  | unsupportedPathSegment .. => .unsupportedPathSegment
  | noTriggerFunctions => .noTriggerFunctions
  | unsupportedParameterType .. => .unsupportedParameterType
  | invalidFunctionName .. => .invalidFunctionName
  | unknownField .. => .unknownField
  | multipleMarkers .. => .multipleMarkers
  | positionalArgument => .positionalArgument
  | missingParameterType .. => .missingParameterType
  | triggerNotAllowed .. => .triggerNotAllowed
  | acceptsAllMethods .. => .acceptsAllMethods
  | conflictingHostSetting .. => .conflictingHostSetting

def arguments : Finding → List String
  | invalidFieldValue value field => [value, field]
  | nonLiteralFieldValue field => [field]
  | missingRequiredField field marker => [field, marker]
  | unsupportedHttpMethod method => [method]
  | duplicateFunctionName name => [name]
  | unsupportedPathSegment text => [text]
  | noTriggerFunctions => []
  | unsupportedParameterType text => [text]
  | invalidFunctionName name => [name]
  | unknownField _ field => [field]
  | multipleMarkers role => [role]
  | positionalArgument => []
  | missingParameterType parameter => [parameter]
  | triggerNotAllowed trigger service => [trigger, service]
  | acceptsAllMethods name => [name]
  | conflictingHostSetting field kept => [field, toString kept]

def properties : Finding → List Property
  | unknownField marker field => [⟨"annotation", .str marker⟩, ⟨"field", .str field⟩]
  | _ => []

def message (f : Finding) : String :=
  String.ofList (Template.fill f.code.template.toList f.arguments)

def diagnostic (f : Finding) (location : SourceLocation) : Diagnostic :=
  ⟨f.code, f.message, location, f.properties⟩

theorem length_arguments (f : Finding) : f.arguments.length = f.code.arity := by
  cases f <;> rfl

/-- The arguments of a finding always fit the template of its code. -/
theorem render_arguments (f : Finding) : f.code.render f.arguments = .ok f.message := by
  simp [Code.render, Template.render, Code.placeholders_template, length_arguments, message]

end Finding

abbrev Log := List Diagnostic

/-- What a caller asks to be reported. -/
inductive Report
  | message (code : Code) (location : SourceLocation) (arguments : List String)
  | detailed (code : Code) (location : SourceLocation) (properties : List Property)
      (argument : String)
  | diagnostic (d : Diagnostic)

def Report.create : Report → Except ArgumentError Diagnostic
  | message code location arguments => Diagnostic.create code location arguments []
  | detailed code location properties argument =>
    Diagnostic.create code location [argument] properties
  | diagnostic d => .ok d

namespace Log

def hasErrors (log : Log) : Bool := log.any Diagnostic.isError

/-- Puts one diagnostic at the end, or nothing where the arguments do not fit. -/
def report (log : Log) (r : Report) : Except ArgumentError Diagnostic × Log :=
  match r.create with
  | .ok d => (.ok d, log ++ [d])
  | .error e => (.error e, log)

end Log

end AppManifest
