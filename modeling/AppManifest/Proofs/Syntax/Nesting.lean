import Mathlib.Data.List.Basic
import Mathlib.Data.List.Pairwise
import Mathlib.Logic.Relation
import AppManifest.Syntax.Find

namespace AppManifest
set_option autoImplicit true

/-- A node lies at or below another one. -/
def Node.Below (t n : Node) : Prop :=
  Relation.ReflTransGen (fun a b : Node => b ∈ a.children) n t

/-- A single, non-empty token. -/
def Node.IsToken (n : Node) : Prop :=
  n.tree.children = [] ∧ n.start < n.stop

/-- At and below a node the ranges of children lie in their parent's and in order. -/
structure Node.IsNested (n : Node) : Prop where
  nested : ∀ m : Node, m.Below n → ∀ c ∈ m.children, m.Encloses c
  ordered : ∀ m : Node, m.Below n → m.tree.children.Pairwise fun a b => a.stop ≤ b.start

namespace Document

/-- The nodes of a document. -/
def Has (d : Document) (n : Node) : Prop := n.Below d.root

/-- The ranges of a tree lie in the source, those of children in their parent's and in order.

Siblings may touch, and a node may be empty. -/
structure WellFormed (d : Document) : Prop where
  start_nonneg : ∀ n, d.Has n → 0 ≤ n.start
  stop_le_size : ∀ n, d.Has n → n.stop ≤ d.source.size
  nested : ∀ n, d.Has n → ∀ c ∈ n.children, n.Encloses c
  ordered : ∀ n, d.Has n → n.tree.children.Pairwise fun a b => a.stop ≤ b.start

/-- The ranges of children lie in their parent's and in order, wherever the source ends. -/
structure Nested (d : Document) : Prop where
  nested : ∀ n, d.Has n → ∀ c ∈ n.children, n.Encloses c
  ordered : ∀ n, d.Has n → n.tree.children.Pairwise fun a b => a.stop ≤ b.start

theorem Nested.at (hd : Nested d) (hn : d.Has n) : n.IsNested where
  nested m hm := hd.nested m (.trans hn hm)
  ordered m hm := hd.ordered m (.trans hn hm)

theorem WellFormed.isNested (hd : WellFormed d) : d.Nested :=
  ⟨hd.nested, hd.ordered⟩

theorem WellFormed.children_ordered (hd : WellFormed d) (hn : d.Has n) :
    n.children.Pairwise fun a b => a.stop ≤ b.start :=
  List.pairwise_map.2 (hd.ordered n hn)

theorem has_root (d : Document) : d.Has d.root := .refl

theorem Has.child (h : Has d n) (hc : c ∈ n.children) : d.Has c :=
  Relation.ReflTransGen.tail h hc

theorem Has.field (h : Has d n) (hc : n.field? name = some c) : d.Has c :=
  h.child (Node.mem_children_of_field? hc)

/-- A node of a document is a child of the node above it. -/
theorem Has.above (h : Has d n) (hp : n.parent? = some m) : d.Has m ∧ n ∈ m.children := by
  rcases Relation.ReflTransGen.cases_tail h with rfl | ⟨l, hl, hn⟩
  · cases hp
  · cases hp.symm.trans (Node.parent?_of_mem_children hn)
    exact ⟨hl, hn⟩

theorem Has.parent (h : Has d n) (hp : n.parent? = some m) : d.Has m :=
  (h.above hp).1

theorem Has.below (h : Has d n) (ht : t.Below n) : d.Has t :=
  Relation.ReflTransGen.trans h ht

end Document

mutual

/-- The node of a tree and all nodes below, a node before its children. -/
def nodesFrom (above : List Tree) : Tree → List Node
  | .node type first last field children =>
    let here := .node type first last field children
    ⟨here, above⟩ :: nodesAmong (here :: above) children

/-- The nodes of several trees. -/
def nodesAmong (above : List Tree) : List Tree → List Node
  | [] => []
  | t :: trees => nodesFrom above t ++ nodesAmong above trees

end

theorem nodesFrom_eq (above : List Tree) (t : Tree) :
    nodesFrom above t = ⟨t, above⟩ :: nodesAmong (t :: above) t.children := by
  cases t
  rw [nodesFrom]
  rfl

theorem mem_nodesAmong {trees : List Tree} :
    m ∈ nodesAmong above trees ↔ ∃ t ∈ trees, m ∈ nodesFrom above t := by
  induction trees with
  | nil => simp [nodesAmong]
  | cons t trees ih => simp [nodesAmong, ih]

theorem Node.Below.child (hc : c ∈ n.children) (h : Below t c) : t.Below n :=
  Relation.ReflTransGen.head hc h

theorem below_of_mem_nodesFrom (t : Tree) (above : List Tree) (h : m ∈ nodesFrom above t) :
    m.Below ⟨t, above⟩ := by
  rw [nodesFrom_eq] at h
  rcases List.mem_cons.1 h with rfl | h
  · exact .refl
  · obtain ⟨u, hu, hm⟩ := mem_nodesAmong.1 h
    exact (below_of_mem_nodesFrom u _ hm).child (List.mem_map_of_mem hu)
termination_by t
decreasing_by
  cases t
  have hlt := List.sizeOf_lt_of_mem hu
  simp only [Tree.children] at hlt
  simp only [Tree.node.sizeOf_spec]
  omega

theorem mem_nodesFrom {n m : Node} : m ∈ nodesFrom n.above n.tree ↔ m.Below n := by
  constructor
  · exact below_of_mem_nodesFrom n.tree n.above
  · intro h
    induction h using Relation.ReflTransGen.head_induction_on with
    | refl => simp [nodesFrom_eq]
    | @head n c hc _ ih =>
      obtain ⟨t, ht, rfl⟩ := List.mem_map.1 hc
      rw [nodesFrom_eq]
      exact List.mem_cons_of_mem _ (mem_nodesAmong.2 ⟨t, ht, ih⟩)

/-- What holds of every node at or below another one can be checked node by node. -/
instance (m : Node) (p : Node → Prop) [DecidablePred p] : Decidable (∀ n, Node.Below n m → p n) :=
  decidable_of_iff (∀ n ∈ nodesFrom m.above m.tree, p n)
    (forall_congr' fun _ => imp_congr_left mem_nodesFrom)

instance (n : Node) : Decidable n.IsToken :=
  inferInstanceAs (Decidable (_ ∧ _))

namespace Document

instance (d : Document) (p : Node → Prop) [DecidablePred p] : Decidable (∀ n, d.Has n → p n) :=
  inferInstanceAs (Decidable (∀ n : Node, n.Below d.root → p n))

theorem wellFormed_iff (d : Document) : d.WellFormed ↔
    (∀ n, d.Has n → 0 ≤ n.start) ∧ (∀ n, d.Has n → n.stop ≤ d.source.size) ∧
      (∀ n, d.Has n → ∀ c ∈ n.children, n.Encloses c) ∧
      ∀ n, d.Has n → n.tree.children.Pairwise fun a b => a.stop ≤ b.start :=
  ⟨fun h => ⟨h.1, h.2, h.3, h.4⟩, fun h => ⟨h.1, h.2.1, h.2.2.1, h.2.2.2⟩⟩

instance (d : Document) : Decidable d.WellFormed :=
  decidable_of_iff _ d.wellFormed_iff.symm

end Document

theorem Node.Encloses.trans (h : Encloses l m) (h' : Encloses m n) : l.Encloses n :=
  ⟨Int.le_trans h.1 h'.1, Int.le_trans h'.2 h.2⟩

theorem Node.IsNested.below (hn : IsNested n) (hl : Below l n) : IsNested l where
  nested m hm := hn.nested m (.trans hl hm)
  ordered m hm := hn.ordered m (.trans hl hm)

/-- In a nested tree a node spans all that lies below it. -/
theorem Node.IsNested.encloses (hn : IsNested n) (ht : t.Below n) : n.Encloses t := by
  induction ht using Relation.ReflTransGen.head_induction_on with
  | refl => exact ⟨Int.le_refl _, Int.le_refl _⟩
  | head hc ht ih => exact (hn.nested _ .refl _ hc).trans (ih (hn.below (.single hc)))

theorem Document.Nested.encloses (hd : Nested d) (hn : d.Has n) (ht : t.Below n) :
    n.Encloses t :=
  (hd.at hn).encloses ht

theorem Document.WellFormed.encloses (hd : WellFormed d) (hn : d.Has n) (ht : t.Below n) :
    n.Encloses t :=
  hd.isNested.encloses hn ht

/-- Among ordered trees only one covers a non-empty range, so the first that does is that one. -/
theorem coverAmong_of_mem {trees : List Tree}
    (ho : trees.Pairwise fun a b => a.stop ≤ b.start) (ht : t ∈ trees)
    (hc : t.Covers start stop) (hlt : start < stop) :
    coverAmong start stop above trees = some (coverFrom start stop above t) := by
  induction trees with
  | nil => simp at ht
  | cons u trees ih =>
    rw [List.pairwise_cons] at ho
    rcases List.mem_cons.1 ht with rfl | ht
    · simp only [coverAmong, if_pos hc]
    · have hu : ¬u.Covers start stop := by
        have hle := ho.1 t ht
        have hs := hc.1
        exact fun hu => by have hs' := hu.2; omega
      simp only [coverAmong, if_neg hu]
      exact ih ho.2 ht

theorem coverFrom_eq (start stop : Int) (above : List Tree) (t : Tree) :
    coverFrom start stop above t =
      (coverAmong start stop (t :: above) t.children).getD ⟨t, above⟩ := by
  cases t
  rw [coverFrom]
  rfl

mutual

theorem coverFrom_below (start stop : Int) (above : List Tree) (t : Tree) :
    (coverFrom start stop above t).Below ⟨t, above⟩ := by
  cases t with
  | node type first last field children =>
    rw [coverFrom]
    cases hc : coverAmong start stop (.node type first last field children :: above) children with
    | none => exact .refl
    | some n =>
      obtain ⟨u, hu, hn⟩ := coverAmong_below _ hc
      exact hn.child (List.mem_map_of_mem hu)

theorem coverAmong_below (trees : List Tree) (h : coverAmong start stop above trees = some n) :
    ∃ u ∈ trees, n.Below ⟨u, above⟩ := by
  cases trees with
  | nil => cases h
  | cons t trees =>
    rw [coverAmong] at h
    split at h
    · cases h
      exact ⟨t, List.mem_cons_self, coverFrom_below start stop above t⟩
    · obtain ⟨u, hu, hn⟩ := coverAmong_below trees h
      exact ⟨u, List.mem_cons_of_mem _ hu, hn⟩

end

/-- The descent over a non-empty range goes below every node that covers it. -/
theorem coverFrom_below_of_covers (hn : Node.IsNested n) (ht : t.Below n)
    (hc : t.tree.Covers start stop) (hlt : start < stop) :
    (coverFrom start stop n.above n.tree).Below t := by
  induction ht using Relation.ReflTransGen.head_induction_on with
  | refl => exact coverFrom_below start stop t.above t.tree
  | @head n c hchild ht ih =>
    -- the child on the way to the node is the only one that covers the range
    have hchildren := hn.below (.single hchild)
    have hcov : c.Encloses t := hchildren.encloses ht
    obtain ⟨tree, htree, rfl⟩ := List.mem_map.1 hchild
    have hcovers : tree.Covers start stop :=
      ⟨Int.le_trans hcov.1 hc.1, Int.le_trans hc.2 hcov.2⟩
    rw [coverFrom_eq, coverAmong_of_mem (hn.ordered _ .refl) htree hcovers hlt]
    exact ih hchildren

/-- Nothing lies below a token but the token. -/
theorem Node.IsToken.eq_of_below (ht : IsToken t) (h : n.Below t) : n = t := by
  rcases Relation.ReflTransGen.cases_head h with rfl | ⟨c, hc, -⟩
  · rfl
  · rw [Node.children, ht.1] at hc
    cases hc

theorem cover?_token (hd : Document.Nested d) (ht : d.Has t) (htok : t.IsToken) :
    d.root.cover? t.start t.stop = some t := by
  have hroot := hd.at d.has_root
  have hbelow := coverFrom_below_of_covers hroot ht ⟨Int.le_refl _, Int.le_refl _⟩ htok.2
  rw [Node.cover?, if_pos ⟨Int.le_of_lt htok.2, hroot.encloses ht⟩]
  exact congrArg some (htok.eq_of_below hbelow)

end AppManifest
