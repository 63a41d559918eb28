import AppManifest.Proofs.Analysis.Decision
import AppManifest.Proofs.Analysis.Names

namespace AppManifest
set_option autoImplicit true

/-! The names that HTTP functions get by default: made of safe characters only, so that nothing but
their length can be wrong with them. -/

def Halt.SparesNames : Halt → Prop
  | .fault _ => True
  | .rejected d => d.code ≠ .invalidFunctionName

/-- A check that rejects nothing over the name of a function. -/
def SparesNames (x : Except Halt α) : Prop :=
  Yields Halt.SparesNames (fun _ => True) x

theorem SparesNames.bind {x : Except Halt α} {f : α → Except Halt β} (hx : SparesNames x)
    (hf : ∀ a, SparesNames (f a)) : SparesNames (x >>= f) :=
  Yields.bind hx fun a _ _ => hf a

namespace Scope

variable {c : Scope} {service : Service} {m : TriggerMethod} {p q : Progress}

end Scope

namespace Analysis

/-- A step that rejects nothing over the name of a function. -/
def Spares (x : Analysis α) : Prop :=
  ∀ p h q, x.Ends p (.error h) q → h.SparesNames

theorem Spares.bind {x : Analysis α} {f : α → Analysis β} (hx : x.Spares)
    (hf : ∀ a, (f a).Spares) : (x >>= f).Spares := by
  intro p h q hend
  rcases ends_bind_error.1 hend with hend | ⟨a, r, -, hend⟩
  · exact hx _ _ _ hend
  · exact hf a _ _ _ hend

end Analysis

namespace Scope

open Analysis

variable {c : Scope} {service : Service} {m : TriggerMethod} {d : Draft} {p q : Progress}

/-- Of a route template the braces go, and its slashes become hyphens. -/
example : defaultHttpName "get" "a//{b}" = "get-a--b" := by decide +kernel

end Scope

end AppManifest
