namespace AppManifest

/-- A syntax tree as the host parser hands it over.

Every node has a type, the bytes it spans, and the name of the field it fills in its parent, which
is empty for none. -/
inductive Tree
  | node (type : String) (start stop : Int) (field : String) (children : List Tree)

namespace Tree

def type : Tree → String
  | node type _ _ _ _ => type

def start : Tree → Int
  | node _ start _ _ _ => start

def stop : Tree → Int
  | node _ _ stop _ _ => stop

def field : Tree → String
  | node _ _ _ field _ => field

def children : Tree → List Tree
  | node _ _ _ _ children => children

/-- Whether a tree spans at least the given bytes. -/
def Covers (t : Tree) (start stop : Int) : Prop :=
  t.start ≤ start ∧ stop ≤ t.stop

instance (t : Tree) (start stop : Int) : Decidable (t.Covers start stop) :=
  inferInstanceAs (Decidable (_ ∧ _))

end Tree

/-- A node of a document: a tree with the trees around it, from the innermost on. -/
structure Node where
  tree : Tree
  above : List Tree

namespace Node

def type (n : Node) : String := n.tree.type

def start (n : Node) : Int := n.tree.start

def stop (n : Node) : Int := n.tree.stop

def down (n : Node) (t : Tree) : Node := ⟨t, n.tree :: n.above⟩

def children (n : Node) : List Node := n.tree.children.map n.down

/-- The node directly above; the root has none. -/
def parent? (n : Node) : Option Node :=
  match n.above with
  | [] => none
  | t :: above => some ⟨t, above⟩

/-- The first child that fills a field; no child fills the nameless one. -/
def field? (n : Node) (name : String) : Option Node :=
  if name = "" then none else n.children.find? fun c => c.tree.field = name

/-- The node reached by child indices from this one. -/
def descend? (n : Node) : List Nat → Option Node
  | [] => some n
  | i :: path => n.children[i]? >>= fun c => c.descend? path

/-- Nodes of one document are the same when type and bytes agree. -/
def Same (m n : Node) : Prop :=
  m.type = n.type ∧ m.start = n.start ∧ m.stop = n.stop

instance (m n : Node) : Decidable (m.Same n) :=
  inferInstanceAs (Decidable (_ ∧ _))

/-- Whether a node spans every byte of another. -/
def Encloses (outer inner : Node) : Prop :=
  outer.tree.Covers inner.start inner.stop

instance (outer inner : Node) : Decidable (outer.Encloses inner) :=
  inferInstanceAs (Decidable (outer.tree.Covers _ _))

theorem parent?_of_mem_children {n c : Node} (h : c ∈ n.children) : c.parent? = some n := by
  obtain ⟨t, -, rfl⟩ := List.mem_map.1 h
  rfl

theorem mem_children_of_field? {n c : Node} {name : String} (h : n.field? name = some c) :
    c ∈ n.children := by
  unfold field? at h
  split at h
  · contradiction
  · exact List.mem_of_find?_eq_some h

end Node

end AppManifest
