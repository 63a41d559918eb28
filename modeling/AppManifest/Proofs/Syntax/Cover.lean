import AppManifest.Proofs.Syntax.Declaration

namespace AppManifest
set_option autoImplicit true

/-! The node that is found for a range is the innermost one that covers it. -/

/-- A node covers a range, and none of its children does. -/
def Node.IsInnermost (n : Node) (start stop : Int) : Prop :=
  n.tree.Covers start stop ∧ ∀ c ∈ n.children, ¬c.tree.Covers start stop

theorem coverAmong_eq_none {trees : List Tree} :
    coverAmong start stop above trees = none ↔ ∀ t ∈ trees, ¬t.Covers start stop := by
  induction trees with
  | nil => simp [coverAmong]
  | cons t trees ih =>
    rw [coverAmong, List.forall_mem_cons]
    split
    next hc => exact iff_of_false nofun fun h => h.1 hc
    next hc => simp only [ih, hc, not_false_eq_true, true_and]

mutual

/-- The descent stops at a node none of whose children covers the range, whatever the ranges are. -/
theorem isInnermost_coverFrom (above : List Tree) (t : Tree) (h : t.Covers start stop) :
    (coverFrom start stop above t).IsInnermost start stop := by
  cases t with
  | node type first last field children =>
    rw [coverFrom]
    cases hc : coverAmong start stop (.node type first last field children :: above) children with
    | none =>
      refine ⟨h, fun c hmem => ?_⟩
      obtain ⟨u, hu, rfl⟩ := List.mem_map.1 hmem
      exact coverAmong_eq_none.1 hc u hu
    | some n => exact isInnermost_coverAmong _ hc

theorem isInnermost_coverAmong (trees : List Tree)
    (h : coverAmong start stop above trees = some n) : n.IsInnermost start stop := by
  cases trees with
  | nil => cases h
  | cons t trees =>
    rw [coverAmong] at h
    split at h
    next hc =>
      cases h
      exact isInnermost_coverFrom above t hc
    next => exact isInnermost_coverAmong trees h

end

namespace Node

variable {n m l : Node} {start stop : Int}

theorem cover?_eq_some : n.cover? start stop = some m ↔
    (start ≤ stop ∧ n.tree.Covers start stop) ∧ coverFrom start stop n.above n.tree = m := by
  rw [cover?, Option.ite_none_right_eq_some, Option.some.injEq]

theorem Encloses.covers (h : l.Encloses m) (hm : m.tree.Covers start stop) :
    l.tree.Covers start stop :=
  ⟨Int.le_trans h.1 hm.1, Int.le_trans hm.2 h.2⟩

/-- No node below an innermost one covers the range, save itself. -/
theorem IsInnermost.eq_of_below (h : l.IsInnermost start stop) (hl : l.IsNested)
    (hm : m.Below l) (hc : m.tree.Covers start stop) : l = m := by
  rcases Relation.ReflTransGen.cases_head hm with rfl | ⟨c, hchild, hbelow⟩
  · rfl
  · exact absurd (((hl.below (.single hchild)).encloses hbelow).covers hc) (h.2 c hchild)

/-- A node is found for a range just where the first node covers it, and whatever the ranges below
are, it covers the range and none of its children does. In a nested tree the nodes that cover a
non-empty range are the one that is found and those it lies below, and no other one is innermost. -/
theorem cover?_deepest (n : Node) (start stop : Int) :
    ((∃ m, n.cover? start stop = some m) ↔ start ≤ stop ∧ n.tree.Covers start stop) ∧
      ∀ m, n.cover? start stop = some m → m.Below n ∧ m.IsInnermost start stop ∧
        (n.IsNested → start < stop → ∀ l : Node, l.Below n →
          (l.tree.Covers start stop ↔ m.Below l) ∧ (l.IsInnermost start stop ↔ l = m)) := by
  constructor
  · simp only [cover?_eq_some, exists_and_left, exists_eq', and_true]
  · intro m hm
    obtain ⟨⟨-, hc⟩, rfl⟩ := cover?_eq_some.1 hm
    have hfound := isInnermost_coverFrom n.above n.tree hc
    refine ⟨coverFrom_below start stop n.above n.tree, hfound, fun hn hlt l hl => ?_⟩
    have hcovers (h : l.tree.Covers start stop) := coverFrom_below_of_covers hn hl h hlt
    refine ⟨⟨hcovers, fun hbelow => ((hn.below hl).encloses hbelow).covers hfound.1⟩, ?_, ?_⟩
    · intro h
      exact h.eq_of_below (hn.below hl) (hcovers h.1) hfound.1
    · rintro rfl
      exact hfound

/-- Bytes inside a token are covered by the token. -/
example : (Document.twoTicks.root.cover? 85 86).map type = some "identifier" := by decide +kernel

set_option maxRecDepth 100000 in
/-- The word and the name of a method lie in the function and in what is around it, and in nothing
else. -/
theorem cover?_twoTicks : Document.twoTicks.root.IsNested ∧
    (59 : Int) < 64 ∧ ∃ m, Document.twoTicks.root.cover? 59 64 = some m ∧
      m.type = "function_definition" ∧ m.IsInnermost 59 64 ∧
      ∀ l, Document.twoTicks.Has l →
        (l.tree.Covers 59 64 ↔ m.Below l) ∧ (l.IsInnermost 59 64 ↔ l = m) := by
  have hn := Document.wellFormed_twoTicks.isNested.at Document.twoTicks.has_root
  obtain ⟨hfound, hdeepest⟩ := cover?_deepest Document.twoTicks.root 59 64
  obtain ⟨m, hm⟩ := hfound.2 (by decide)
  obtain ⟨-, hinnermost, hunique⟩ := hdeepest m hm
  have htype : (Document.twoTicks.root.cover? 59 64).map type = some "function_definition" := by
    decide +kernel
  rw [hm] at htype
  exact ⟨hn, by decide, m, hm, Option.some.inj htype, hinnermost, hunique hn (by decide)⟩

end Node

end AppManifest
