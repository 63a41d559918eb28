import AppManifest.Descriptor.Basic
import AppManifest.Text.Blank
import AppManifest.Text.LowerCase

namespace AppManifest

/-- What a run of the analysis is told besides the document. -/
structure Settings where
  strictPaths : Bool := false
  defaultAuthLevel : String := "anonymous"
  handlerExecutable : String := "handler"
  extensionBundleVersion : String := defaultBundleVersion
  deriving DecidableEq, Repr

abbrev Environment := List (String × String)

/-- Whether the value of a variable switches something on. -/
def isTrueText (value : String) : Bool :=
  Text.lower (String.ofList (Text.trim Text.isBlank value.toList)) ∈ ["1", "true", "yes", "on"]

def Settings.variableNames : List String :=
  ["FUNCAPP_STRICT_PATHS", "FUNCAPP_AUTH_LEVEL", "FUNCAPP_HANDLER",
    "FUNCAPP_EXTENSION_BUNDLE_VERSION"]

/-- The settings that an environment asks for. -/
def Settings.ofEnvironment (env : Environment) : Settings where
  strictPaths := ((env.lookup "FUNCAPP_STRICT_PATHS").map isTrueText).getD false
  defaultAuthLevel := (env.lookup "FUNCAPP_AUTH_LEVEL").getD "anonymous"
  handlerExecutable := (env.lookup "FUNCAPP_HANDLER").getD "handler"
  extensionBundleVersion :=
    (env.lookup "FUNCAPP_EXTENSION_BUNDLE_VERSION").getD defaultBundleVersion

end AppManifest
