namespace AppManifest

inductive ArgumentError
  | tooFew
  | tooMany
  deriving DecidableEq, Repr

def ArgumentError.message : ArgumentError → String
  | tooFew => "not enough arguments for format string"
  | tooMany => "not all arguments converted during string formatting"

namespace Template

/-- The number of placeholders `%s` in a template. -/
def placeholders : List Char → Nat
  | '%' :: 's' :: rest => placeholders rest + 1
  | _ :: rest => placeholders rest
  | [] => 0

/-- The template with its placeholders replaced from left to right.

What is filled in is not read again, so it may hold placeholders itself. -/
def fill : List Char → List String → List Char
  | '%' :: 's' :: rest, arguments => (arguments.headD "").toList ++ fill rest arguments.tail
  | c :: rest, arguments => c :: fill rest arguments
  | [], _ => []

/-- The message of a template, which takes exactly one argument for each placeholder. -/
def render (template : String) (arguments : List String) : Except ArgumentError String :=
  if arguments.length < placeholders template.toList then .error .tooFew
  else if placeholders template.toList < arguments.length then .error .tooMany
  else .ok (String.ofList (fill template.toList arguments))

end Template

end AppManifest
