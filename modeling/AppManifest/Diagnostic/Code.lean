import AppManifest.Diagnostic.Template

namespace AppManifest

inductive Severity
  | error
  | warning
  | info
  deriving DecidableEq, Repr

def Severity.name : Severity → String
  | error => "ERROR"
  | warning => "WARNING"
  | info => "INFO"

/-- What a diagnostic is about. -/
inductive Code
  | invalidFieldValue
  | nonLiteralFieldValue
  | missingRequiredField
  | unsupportedHttpMethod
  | duplicateFunctionName
  | unsupportedPathSegment
  | noTriggerFunctions
  | unsupportedParameterType
  | invalidFunctionName
  | unknownField
  | multipleMarkers
  | positionalArgument
  | missingParameterType
  | triggerNotAllowed
  | acceptsAllMethods
  | conflictingHostSetting
  deriving DecidableEq, Repr

namespace Code

def all : List Code :=
  [invalidFieldValue, nonLiteralFieldValue, missingRequiredField, unsupportedHttpMethod,
    duplicateFunctionName, unsupportedPathSegment, noTriggerFunctions, unsupportedParameterType,
    invalidFunctionName, unknownField, multipleMarkers, positionalArgument,
    missingParameterType, triggerNotAllowed, acceptsAllMethods, conflictingHostSetting]

/-- The stable identifier that users see. -/
def id : Code → String
  | invalidFieldValue => "AZ0001"
  | nonLiteralFieldValue => "AZ0002"
  | missingRequiredField => "AZ0003"
  | unsupportedHttpMethod => "AZ0004"
  | duplicateFunctionName => "AZ0005"
  | unsupportedPathSegment => "AZ0006"
  | noTriggerFunctions => "AZ0007"
  | unsupportedParameterType => "AZ0008"
  | invalidFunctionName => "AZ0009"
  | unknownField => "AZ0010"
  | multipleMarkers => "AZ0011"
  | positionalArgument => "AZ0012"
  | missingParameterType => "AZ0013"
  | triggerNotAllowed => "AZ0014"
  | acceptsAllMethods => "AZ0015"
  | conflictingHostSetting => "AZ0016"

def name : Code → String
  | invalidFieldValue => "INVALID_FIELD_VALUE"
  | nonLiteralFieldValue => "NON_LITERAL_FIELD_VALUE"
  | missingRequiredField => "MISSING_REQUIRED_FIELD"
  | unsupportedHttpMethod => "UNSUPPORTED_HTTP_METHOD"
  | duplicateFunctionName => "DUPLICATE_FUNCTION_NAME"
  | unsupportedPathSegment => "UNSUPPORTED_PATH_SEGMENT"
  | noTriggerFunctions => "NO_TRIGGER_FUNCTIONS"
  | unsupportedParameterType => "UNSUPPORTED_PARAMETER_TYPE"
  | invalidFunctionName => "INVALID_FUNCTION_NAME"
  | unknownField => "UNKNOWN_FIELD"
  | multipleMarkers => "MULTIPLE_ANNOTATIONS"
  | positionalArgument => "POSITIONAL_ARGUMENT"
  | missingParameterType => "MISSING_PARAMETER_TYPE"
  | triggerNotAllowed => "TRIGGER_NOT_ALLOWED"
  | acceptsAllMethods => "ACCEPTS_ALL_METHODS"
  | conflictingHostSetting => "CONFLICTING_HOST_SETTING"

def severity : Code → Severity
  | noTriggerFunctions => .warning
  | unknownField => .warning
  | positionalArgument => .warning
  | conflictingHostSetting => .warning
  | acceptsAllMethods => .info
  | _ => .error

def template : Code → String
  | invalidFieldValue => "Invalid value '%s' for field '%s'"
  | nonLiteralFieldValue => "Value of field '%s' must be a string or integer literal"
  | missingRequiredField => "Missing required field '%s' in annotation '%s'"
  | unsupportedHttpMethod => "Unsupported HTTP method '%s'"
  | duplicateFunctionName => "Duplicate function name '%s'"
  | unsupportedPathSegment => "Unsupported resource path segment '%s'"
  | noTriggerFunctions => "Service declares no trigger functions"
  | unsupportedParameterType => "Unsupported parameter type '%s'"
  | invalidFunctionName => "Invalid function name '%s'"
  | unknownField => "Unknown annotation field '%s'"
  | multipleMarkers => "Multiple %s annotations on one declaration"
  | positionalArgument => "Positional annotation arguments are ignored"
  | missingParameterType => "Missing type annotation for parameter '%s'"
  | triggerNotAllowed => "Trigger '%s' is not allowed in a %s service"
  | acceptsAllMethods => "Function '%s' accepts all HTTP methods"
  | conflictingHostSetting => "Conflicting value for host setting '%s'; keeping '%s'"

/-- The number of texts that the message of a code names. -/
def arity : Code → Nat
  | invalidFieldValue => 2
  | missingRequiredField => 2
  | noTriggerFunctions => 0
  | positionalArgument => 0
  | triggerNotAllowed => 2
  | conflictingHostSetting => 2
  | _ => 1

theorem placeholders_template (c : Code) :
    Template.placeholders c.template.toList = c.arity := by
  cases c <;> decide +kernel

def render (c : Code) (arguments : List String) : Except ArgumentError String :=
  Template.render c.template arguments

end Code

/-- A value that a message may name. -/
inductive MessageArgument
  | text (value : String)
  | number (value : Int)
  | flag (value : Bool)
  | absent

def MessageArgument.toText : MessageArgument → String
  | text value => value
  | number value => toString value
  | flag value => if value then "True" else "False"
  | absent => "None"

end AppManifest
