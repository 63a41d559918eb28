import AppManifest.Text.Blank

namespace AppManifest

/-- Where a path begins: at the working directory, at the root, or at the root that exactly two
slashes name. -/
inductive Anchor
  | relative
  | root
  | doubleRoot
  deriving DecidableEq, Repr

def Anchor.text : Anchor → String
  | relative => ""
  | root => "/"
  | doubleRoot => "//"

def Anchor.ofText (s : List Char) : Anchor :=
  match (s.takeWhile (· = '/')).length with
  | 0 => relative
  | 2 => doubleRoot
  | _ => root

/-- A path without empty and `.` components; `..` stays as it is. -/
structure Path where
  anchor : Anchor
  parts : List String
  deriving DecidableEq, Repr

namespace Path

/-- The components of a written path, those that say nothing left out. -/
def components (s : String) : List String :=
  ((Text.split (· = '/') s.toList).map String.ofList).filter fun c => c != "" && c != "."

def ofText (s : String) : Path :=
  ⟨Anchor.ofText s.toList, components s⟩

def text (p : Path) : String :=
  if p.anchor = .relative ∧ p.parts = [] then "."
  else p.anchor.text ++ "/".intercalate p.parts

/-- A path seen from another one; an anchored path stands for itself. -/
def join (p q : Path) : Path :=
  if q.anchor = .relative then ⟨p.anchor, p.parts ++ q.parts⟩ else q

def parent (p : Path) : Path :=
  ⟨p.anchor, p.parts.dropLast⟩

/-- The components after following others, each `..` going up where it can. -/
def climb (stack : List String) : List String → List String
  | [] => stack
  | c :: rest => if c = ".." then climb stack.dropLast rest else climb (stack ++ [c]) rest

/-- The path from the root, `..` taken textually. -/
def absolute (cwd p : Path) : Path :=
  ⟨(cwd.join p).anchor, climb [] (cwd.join p).parts⟩

/-- Whether a path is another one or lies below it, by components. -/
def Within (p root : Path) : Prop :=
  p.anchor = root.anchor ∧ root.parts <+: p.parts

instance (p root : Path) : Decidable (p.Within root) :=
  inferInstanceAs (Decidable (_ ∧ _))

end Path

end AppManifest
