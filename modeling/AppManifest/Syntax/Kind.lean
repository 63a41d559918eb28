import AppManifest.Text.Numeral

namespace AppManifest

/-- What a node is, as far as the analysis tells nodes apart. -/
inductive SyntaxKind
  | stringLiteral
  | templateString
  | decimalIntegerLiteral
  | floatLiteral
  | booleanLiteral
  | noneLiteral
  | slashToken
  | identifier
  | moduleRoot
  | classDefinition
  | functionDefinition
  | decoratedDefinition
  | decorator
  | call
  | attributeAccess
  | argumentList
  | keywordArgument
  | binaryOperator
  | parameters
  | typedParameter
  | typedDefaultParameter
  | defaultParameter
  | type
  | block
  | expressionStatement
  | assignment
  | importStatement
  | comment
  | other
  deriving DecidableEq, Repr

namespace SyntaxKind

def all : List SyntaxKind :=
  [stringLiteral, templateString, decimalIntegerLiteral, floatLiteral, booleanLiteral, noneLiteral,
    slashToken, identifier, moduleRoot, classDefinition, functionDefinition, decoratedDefinition,
    decorator, call, attributeAccess, argumentList, keywordArgument, binaryOperator, parameters,
    typedParameter, typedDefaultParameter, defaultParameter, type, block, expressionStatement,
    assignment, importStatement, comment, other]

def name : SyntaxKind → String
  | stringLiteral => "string_literal"
  | templateString => "template_string"
  | decimalIntegerLiteral => "decimal_integer_literal"
  | floatLiteral => "float_literal"
  | booleanLiteral => "boolean_literal"
  | noneLiteral => "none_literal"
  | slashToken => "slash_token"
  | identifier => "identifier"
  | moduleRoot => "module"
  | classDefinition => "class_definition"
  | functionDefinition => "function_definition"
  | decoratedDefinition => "decorated_definition"
  | decorator => "decorator"
  | call => "call"
  | attributeAccess => "attribute"
  | argumentList => "argument_list"
  | keywordArgument => "keyword_argument"
  | binaryOperator => "binary_operator"
  | parameters => "parameters"
  | typedParameter => "typed_parameter"
  | typedDefaultParameter => "typed_default_parameter"
  | defaultParameter => "default_parameter"
  | type => "type"
  | block => "block"
  | expressionStatement => "expression_statement"
  | assignment => "assignment"
  | importStatement => "import"
  | comment => "comment"
  | other => "other"

/-- The kind of a node whose text does not matter. -/
def ofType : String → SyntaxKind
  | "identifier" => identifier
  | "/" => slashToken
  | "float" => floatLiteral
  | "true" => booleanLiteral
  | "false" => booleanLiteral
  | "none" => noneLiteral
  | "module" => moduleRoot
  | "class_definition" => classDefinition
  | "function_definition" => functionDefinition
  | "decorated_definition" => decoratedDefinition
  | "decorator" => decorator
  | "call" => call
  | "attribute" => attributeAccess
  | "argument_list" => argumentList
  | "keyword_argument" => keywordArgument
  | "binary_operator" => binaryOperator
  | "parameters" => parameters
  | "typed_parameter" => typedParameter
  | "typed_default_parameter" => typedDefaultParameter
  | "default_parameter" => defaultParameter
  | "type" => type
  | "block" => block
  | "expression_statement" => expressionStatement
  | "assignment" => assignment
  | "import_statement" => importStatement
  | "import_from_statement" => importStatement
  | "comment" => comment
  | _ => other

end SyntaxKind

/-- A literal in one pair of quotes on one line, without a letter in front.

Three quotes at the front open a longer form and do not count. -/
def isPlainString (s : List Char) : Bool :=
  match s with
  | quote :: _ :: _ =>
    (quote = '"' || quote = '\'') && s.take 3 != [quote, quote, quote]
      && s.getLast? == some quote && !s.contains '\n'
  | _ => false

/-- The kind of a node of a type that spans a text. -/
def classify (type : String) (text : List Char) : SyntaxKind :=
  if type = "string" then
    if isPlainString text then .stringLiteral else .templateString
  else if type = "integer" then
    if Text.isNumeral text then .decimalIntegerLiteral else .other
  else .ofType type

end AppManifest
