import AppManifest.Proofs.Analysis.Strictness

namespace AppManifest
set_option autoImplicit true

/-! Path expressions as sequences: the operands that slashes join, whichever way these associate,
and the path that such a sequence spells. -/

/-- Operands joined by operators, in the way in which they associate. -/
inductive PathExpression (α : Type)
  | operand (a : α)
  | slash (left : PathExpression α) (operator : α) (right : PathExpression α)

namespace PathExpression

/-- The leftmost operand. -/
def first : PathExpression α → α
  | operand a => a
  | slash left _ _ => left.first

/-- The operators from left to right, each with the operand behind it. -/
def rest : PathExpression α → List (α × α)
  | operand _ => []
  | slash left operator right => left.rest ++ (operator, right.first) :: right.rest

def operands (e : PathExpression α) : List α :=
  e.first :: e.rest.map Prod.snd

def operators (e : PathExpression α) : List α :=
  e.rest.map Prod.fst

/-- An operand, and then an operator and an operand by turns. -/
def inOrder (e : PathExpression α) : List α :=
  e.first :: e.rest.flatMap fun x => [x.1, x.2]

def map (f : α → β) : PathExpression α → PathExpression β
  | operand a => operand (f a)
  | slash left operator right => slash (left.map f) (f operator) (right.map f)

/-- The expression of a sequence whose operators associate to the right. -/
def ofSequence (a : α) : List (α × α) → PathExpression α
  | [] => operand a
  | x :: xs => slash (operand a) x.1 (ofSequence x.2 xs)

/-- Two expressions differ in how their operators associate, and in nothing else. -/
inductive Reassociates : PathExpression α → PathExpression α → Prop
  | refl (e : PathExpression α) : Reassociates e e
  | symm {e e' : PathExpression α} (h : Reassociates e e') : Reassociates e' e
  | trans {e e' e'' : PathExpression α} (h : Reassociates e e') (h' : Reassociates e' e'') :
      Reassociates e e''
  | sides {l l' r r' : PathExpression α} (hl : Reassociates l l') (o : α)
      (hr : Reassociates r r') : Reassociates (slash l o r) (slash l' o r')
  | turn (a b c : PathExpression α) (o p : α) :
      Reassociates (slash (slash a o b) p c) (slash a o (slash b p c))

variable {e e' : PathExpression α}

theorem inOrder_slash (l r : PathExpression α) (o : α) :
    (slash l o r).inOrder = l.inOrder ++ o :: r.inOrder := by
  simp [inOrder, first, rest]

theorem operands_slash (l r : PathExpression α) (o : α) :
    (slash l o r).operands = l.operands ++ r.operands := by
  simp [operands, first, rest]

theorem operators_slash (l r : PathExpression α) (o : α) :
    (slash l o r).operators = l.operators ++ o :: r.operators := by
  simp [operators, rest]

theorem inOrder_map (f : α → β) (e : PathExpression α) : (e.map f).inOrder = e.inOrder.map f := by
  induction e with
  | operand a => rfl
  | slash l o r ihl ihr =>
    rw [map, inOrder_slash, inOrder_slash, ihl, ihr, List.map_append, List.map_cons]

theorem inOrder_inj : e.inOrder = e'.inOrder ↔ e.first = e'.first ∧ e.rest = e'.rest := by
  have hpairs (xs ys : List (α × α)) :
      (xs.flatMap fun x => [x.1, x.2]) = (ys.flatMap fun y => [y.1, y.2]) ↔ xs = ys := by
    induction xs generalizing ys with
    | nil => cases ys <;> simp
    | cons x xs ih =>
      cases ys with
      | nil => simp
      | cons y ys => simp [ih, Prod.ext_iff, and_assoc]
  rw [inOrder, inOrder, List.cons.injEq, hpairs]

theorem Reassociates.inOrder_eq (h : e.Reassociates e') : e.inOrder = e'.inOrder := by
  induction h with
  | refl => rfl
  | symm _ ih => exact ih.symm
  | trans _ _ ih ih' => exact ih.trans ih'
  | sides _ o _ ihl ihr => rw [inOrder_slash, inOrder_slash, ihl, ihr]
  | turn a b c o p => simp only [inOrder_slash, List.append_assoc, List.cons_append]

theorem reassociates_slash_ofSequence (a b o : α) (xs ys : List (α × α)) :
    (slash (ofSequence a xs) o (ofSequence b ys)).Reassociates
      (ofSequence a (xs ++ (o, b) :: ys)) := by
  induction xs generalizing a with
  | nil => exact .refl _
  | cons x xs ih => exact (Reassociates.turn ..).trans (.sides (.refl _) x.1 (ih x.2))

theorem reassociates_ofSequence (e : PathExpression α) :
    e.Reassociates (ofSequence e.first e.rest) := by
  induction e with
  | operand a => exact .refl _
  | slash l o r ihl ihr =>
    exact (Reassociates.sides ihl o ihr).trans (reassociates_slash_ofSequence ..)

/-- Expressions have the same sequence just where they differ in nothing but association. -/
theorem reassociates_iff : e.Reassociates e' ↔ e.inOrder = e'.inOrder := by
  refine ⟨Reassociates.inOrder_eq, fun h => ?_⟩
  obtain ⟨hfirst, hrest⟩ := inOrder_inj.1 h
  have hright := e'.reassociates_ofSequence.symm
  rw [← hfirst, ← hrest] at hright
  exact e.reassociates_ofSequence.trans hright

end PathExpression

/-- One slash is left out at most, and where there is one at the start. -/
theorem withoutLeadingSlash_cases (s : String) : s = "/" ++ withoutLeadingSlash s ∨
    (∀ rest, s ≠ "/" ++ rest) ∧ s = withoutLeadingSlash s := by
  unfold withoutLeadingSlash
  split
  next rest h =>
    left
    rw [← String.toList_inj, h, String.toList_append, String.toList_ofList, String.toList_ofList]
    rfl
  next hno =>
    refine .inr ⟨fun rest h => ?_, rfl⟩
    subst h
    exact hno rest.toList String.toList_append

example : withoutLeadingSlash "//a" = "/a" := by decide +kernel

namespace Document

/-- A node is a complete slash expression: it has both sides and a slash for its operator. -/
structure Joins (d : Document) (n l o r : Node) : Prop where
  kind : d.kind n = .ok .binaryOperator
  operator : n.field? "operator" = some o
  token : d.kind o = .ok .slashToken
  left : n.field? "left" = some l
  right : n.field? "right" = some r

/-- How a node reads as a path expression; what is no complete slash expression is an operand. -/
inductive Reads (d : Document) : Node → PathExpression Node → Prop
  | operand (h : ∀ l o r, ¬d.Joins n l o r) : Reads d n (.operand n)
  | slash (h : d.Joins n l o r) (hl : Reads d l e) (hr : Reads d r e') :
      Reads d n (.slash e o e')

/-- A node is reached from another one over the sides of complete slash expressions. -/
def PartOf (d : Document) (n m : Node) : Prop :=
  Relation.ReflTransGen (fun a b => ∃ l o r, d.Joins a l o r ∧ (b = l ∨ b = r)) n m

/-- In each slash expression of a node the sides and the operator lie inside it, in that order and
without overlap. -/
def SidesInOrder (d : Document) (n : Node) : Prop :=
  ∀ m l o r, d.PartOf n m → d.Joins m l o r →
    (∀ c ∈ [l, o, r], m.Encloses c) ∧ [l, o, r].Pairwise fun a b => a.stop ≤ b.start

variable {d : Document} {n m : Node} {e : PathExpression Node}

theorem Joins.unique (h : d.Joins n l o r) (h' : d.Joins n l' o' r') :
    l = l' ∧ o = o' ∧ r = r' :=
  ⟨Option.some.inj (h.left.symm.trans h'.left),
    Option.some.inj (h.operator.symm.trans h'.operator),
    Option.some.inj (h.right.symm.trans h'.right)⟩

theorem Reads.unique (h : d.Reads n e) (h' : d.Reads n e') : e = e' := by
  induction h generalizing e' with
  | operand hn =>
    cases h' with
    | operand => rfl
    | slash hj => exact absurd hj (hn _ _ _)
  | slash hj _ _ ihl ihr =>
    cases h' with
    | operand hn => exact absurd hj (hn _ _ _)
    | slash hj' hl hr =>
      obtain ⟨rfl, rfl, rfl⟩ := hj.unique hj'
      rw [ihl hl, ihr hr]

theorem slash?_eq_ok_some : d.slash? n = .ok (some o) ↔ ∃ l r, d.Joins n l o r := by
  constructor
  · intro h
    obtain ⟨k, hk, h⟩ := bind_eq_ok.1 h
    split at h
    next he =>
      subst he
      split at h
      next => cases h
      next o' ho =>
        obtain ⟨k, hk', h⟩ := bind_eq_ok.1 h
        split at h
        next hsides =>
          obtain ⟨rfl, hl, hr⟩ := hsides
          obtain ⟨l, hl⟩ := Option.isSome_iff_exists.1 hl
          obtain ⟨r, hr⟩ := Option.isSome_iff_exists.1 hr
          cases pure_eq_ok.1 h
          exact ⟨l, r, hk, ho, hk', hl, hr⟩
        next => cases h
    next => cases h
  · rintro ⟨l, r, h⟩
    simp only [slash?, h.kind, h.operator, h.token, h.left, h.right, ok_bind]
    rfl

/-- The segments of a side are those of the node that fills the field. -/
theorem segmentsOfField_eq (h : n.field? name = some m) :
    d.segmentsOfField (n.tree :: n.above) name n.tree.children = d.segments m := by
  have htrees {above : List Tree} {trees : List Tree}
      (h : (trees.map (Node.mk · above)).find? (fun c => c.tree.field = name) = some m) :
      d.segmentsOfField above name trees = d.segments m := by
    induction trees with
    | nil => cases h
    | cons t trees ih =>
      rw [List.map_cons, List.find?_cons] at h
      rw [segmentsOfField]
      split at h
      next ht =>
        cases h
        rw [if_pos (of_decide_eq_true ht)]
        rfl
      next ht =>
        rw [if_neg (of_decide_eq_false ht)]
        exact ih h
  unfold Node.field? at h
  split at h
  next => cases h
  next => exact htrees h

theorem segments_eq (d : Document) (n : Node) : d.segments n = (do
    match ← d.slash? n with
    | none => return [n]
    | some o =>
      let left ← d.segmentsOfField (n.tree :: n.above) "left" n.tree.children
      let right ← d.segmentsOfField (n.tree :: n.above) "right" n.tree.children
      return left ++ o :: right) := by
  obtain ⟨⟨type, first, last, field, children⟩, above⟩ := n
  rw [segments, segmentsFrom]
  refine bind_congr fun o => ?_
  cases o with
  | none => rfl
  | some o => rfl

/-- The segments of a slash expression are those of its sides with the operator between them. -/
theorem segments_of_joins (h : d.Joins n l o r) :
    d.segments n = return (← d.segments l) ++ o :: (← d.segments r) := by
  rw [segments_eq, slash?_eq_ok_some.2 ⟨l, r, h⟩, ok_bind]
  dsimp only
  rw [segmentsOfField_eq h.left, segmentsOfField_eq h.right]

theorem segments_of_operand (h : d.segments n = .ok parts) (hn : ∀ l o r, ¬d.Joins n l o r) :
    parts = [n] := by
  rw [segments_eq] at h
  obtain ⟨o, ho, h⟩ := bind_eq_ok.1 h
  cases o with
  | none => exact (pure_eq_ok.1 h).symm
  | some o =>
    obtain ⟨l, r, hj⟩ := slash?_eq_ok_some.1 ho
    exact absurd hj (hn l o r)

theorem sizeOf_field (h : n.field? name = some m) : sizeOf m.tree < sizeOf n.tree := by
  obtain ⟨t, ht, rfl⟩ := List.mem_map.1 (Node.mem_children_of_field? h)
  obtain ⟨⟨type, first, last, field, children⟩, above⟩ := n
  have hlt := List.sizeOf_lt_of_mem ht
  simp only [Node.down, Tree.children, Tree.node.sizeOf_spec] at hlt ⊢
  omega

/-- Every node reads as a path expression. -/
theorem exists_reads (d : Document) (n : Node) : ∃ e, d.Reads n e := by
  by_cases h : ∃ l o r, d.Joins n l o r
  · obtain ⟨l, o, r, h⟩ := h
    obtain ⟨e, he⟩ := exists_reads d l
    obtain ⟨e', he'⟩ := exists_reads d r
    exact ⟨_, .slash h he he'⟩
  · simp only [not_exists] at h
    exact ⟨_, .operand h⟩
termination_by sizeOf n.tree
decreasing_by
  · exact sizeOf_field h.left
  · exact sizeOf_field h.right

/-- The segments of an expression are its sequence. -/
theorem Reads.segments_eq (hr : d.Reads n e) (h : d.segments n = .ok parts) :
    parts = e.inOrder := by
  induction hr generalizing parts with
  | operand hn => exact segments_of_operand h hn
  | slash hj _ _ ihl ihr =>
    rw [segments_of_joins hj] at h
    obtain ⟨left, hl, h⟩ := bind_eq_ok.1 h
    obtain ⟨right, hr, h⟩ := bind_eq_ok.1 h
    rw [PathExpression.inOrder_slash, ← ihl hl, ← ihr hr]
    exact (pure_eq_ok.1 h).symm

theorem PartOf.side (h : d.Joins n l o r) (hm : m = l ∨ m = r) (hp : d.PartOf m p) :
    d.PartOf n p :=
  Relation.ReflTransGen.head ⟨l, o, r, h, hm⟩ hp

theorem partOf_operand (hn : ∀ l o r, ¬d.Joins n l o r) : d.PartOf n m ↔ m = n := by
  constructor
  · intro h
    rcases Relation.ReflTransGen.cases_head h with rfl | ⟨_, ⟨l, o, r, hj, -⟩, -⟩
    · rfl
    · exact absurd hj (hn l o r)
  · rintro rfl
    exact .refl

theorem partOf_joins (h : d.Joins n l o r) :
    d.PartOf n m ↔ m = n ∨ d.PartOf l m ∨ d.PartOf r m := by
  constructor
  · intro hp
    rcases Relation.ReflTransGen.cases_head hp with rfl | ⟨c, ⟨l', o', r', hj, hc⟩, hp⟩
    · exact .inl rfl
    · obtain ⟨rfl, rfl, rfl⟩ := h.unique hj
      rcases hc with rfl | rfl
      · exact .inr (.inl hp)
      · exact .inr (.inr hp)
  · rintro (rfl | hp | hp)
    · exact .refl
    · exact PartOf.side h (.inl rfl) hp
    · exact PartOf.side h (.inr rfl) hp

/-- The operands of an expression are the outermost nodes in it that are no slash expressions. -/
theorem Reads.mem_operands (hr : d.Reads n e) :
    m ∈ e.operands ↔ d.PartOf n m ∧ ∀ l o r, ¬d.Joins m l o r := by
  induction hr with
  | operand hn =>
    rw [partOf_operand hn]
    constructor
    · intro h
      obtain rfl := List.mem_singleton.1 h
      exact ⟨rfl, hn⟩
    · rintro ⟨rfl, -⟩
      exact List.mem_singleton.2 rfl
  | slash hj _ _ ihl ihr =>
    rw [PathExpression.operands_slash, List.mem_append, ihl, ihr, partOf_joins hj, ← or_and_right]
    refine and_congr_left fun hm => (or_iff_right ?_).symm
    rintro rfl
    exact hm _ _ _ hj

theorem Reads.mem_operators (hr : d.Reads n e) :
    m ∈ e.operators ↔ ∃ p l r, d.PartOf n p ∧ d.Joins p l m r := by
  induction hr with
  | operand hn =>
    refine iff_of_false List.not_mem_nil ?_
    rintro ⟨p, l, r, hp, hj⟩
    obtain rfl := (partOf_operand hn).1 hp
    exact hn _ _ _ hj
  | slash hj _ _ ihl ihr =>
    rw [PathExpression.operators_slash, List.mem_append, List.mem_cons, ihl, ihr]
    simp only [partOf_joins hj]
    constructor
    · rintro (⟨p, l, r, hp, h⟩ | rfl | ⟨p, l, r, hp, h⟩)
      · exact ⟨p, l, r, .inr (.inl hp), h⟩
      · exact ⟨_, _, _, .inl rfl, hj⟩
      · exact ⟨p, l, r, .inr (.inr hp), h⟩
    · rintro ⟨p, l, r, rfl | hp | hp, h⟩
      · exact .inr (.inl (h.unique hj).2.1)
      · exact .inl ⟨p, l, r, hp, h⟩
      · exact .inr (.inr ⟨p, l, r, hp, h⟩)

theorem SidesInOrder.side (h : d.SidesInOrder n) (hj : d.Joins n l o r) (hm : m = l ∨ m = r) :
    d.SidesInOrder m :=
  fun _ _ _ _ hp => h _ _ _ _ (PartOf.side hj hm hp)

/-- Where sides and operators are in order, so are all segments, and they lie in the expression. -/
theorem Reads.ordered (hr : d.Reads n e) (h : d.SidesInOrder n) :
    e.inOrder.Pairwise (fun a b => a.stop ≤ b.start) ∧ ∀ s ∈ e.inOrder, n.Encloses s := by
  induction hr with
  | operand hn =>
    exact ⟨List.pairwise_singleton .., List.forall_mem_singleton.2 ⟨Int.le_refl _, Int.le_refl _⟩⟩
  | slash hj _ _ ihl ihr =>
    obtain ⟨hl, hlin⟩ := ihl (h.side hj (.inl rfl))
    obtain ⟨hr, hrin⟩ := ihr (h.side hj (.inr rfl))
    obtain ⟨hin, hsides⟩ := h _ _ _ _ .refl hj
    simp only [List.pairwise_cons, List.forall_mem_cons] at hin hsides
    obtain ⟨hinl, hino, hinr, -⟩ := hin
    obtain ⟨⟨hlo, hlr, -⟩, ⟨hor, -⟩, -⟩ := hsides
    rw [PathExpression.inOrder_slash, List.pairwise_append, List.pairwise_cons]
    refine ⟨⟨hl, ⟨fun b hb => Int.le_trans hor (hrin b hb).1, hr⟩, fun a ha => ?_⟩,
      fun s hs => ?_⟩
    · refine List.forall_mem_cons.2 ⟨Int.le_trans (hlin a ha).2 hlo, fun b hb => ?_⟩
      exact Int.le_trans (hlin a ha).2 (Int.le_trans hlr (hrin b hb).1)
    · rcases List.mem_append.1 hs with hs | hs
      · exact hinl.trans (hlin s hs)
      · rcases List.mem_cons.1 hs with rfl | hs
        · exact hino
        · exact hinr.trans (hrin s hs)

/-- How the segments of a node flatten the path expression that it reads as. -/
structure Flattens (d : Document) (n : Node) (e : PathExpression Node) (parts : List Node) :
    Prop where
  reads : d.Reads n e
  unique : ∀ e', d.Reads n e' → e' = e
  sequence : parts = e.inOrder
  operand : ∀ m, m ∈ e.operands ↔ d.PartOf n m ∧ ∀ l o r, ¬d.Joins m l o r
  operator : ∀ m, m ∈ e.operators ↔ ∃ p l r, d.PartOf n p ∧ d.Joins p l m r
  ordered : d.SidesInOrder n → parts.Pairwise fun a b => a.stop ≤ b.start

theorem exists_flattens (h : d.segments n = .ok parts) : ∃ e, d.Flattens n e parts := by
  obtain ⟨e, hr⟩ := d.exists_reads n
  obtain rfl := hr.segments_eq h
  exact ⟨e, hr, fun _ h => h.unique hr, rfl, fun _ => hr.mem_operands, fun _ => hr.mem_operators,
    fun h => (hr.ordered h).1⟩

/-- Where all texts can be read, there are segments. -/
theorem exists_segments (h : ∀ m, m.Below n → ∃ t, d.text m = .ok t) :
    ∃ parts, d.segments n = .ok parts := by
  have hpart : d.Part (·.Below n) fun _ => False := by
    refine ⟨fun _ hm _ hc => hm.tail hc, fun m hm => ?_⟩
    obtain ⟨t, ht⟩ := h m hm
    rw [ht]
    exact .pure trivial
  exact (hpart.segments .refl).exists_ok

/-- A string, a slash or an identifier, which are what a path is made of. -/
def IsPathSegment (d : Document) (n : Node) : Prop :=
  d.kind n = .ok .stringLiteral ∨ d.kind n = .ok .slashToken ∨ d.kind n = .ok .identifier

theorem Contributes.isPathSegment (h : d.Contributes n t) : d.IsPathSegment n := by
  cases h with
  | string hk => exact .inl hk
  | slash hk => exact .inr (.inl hk)
  | identifier hk => exact .inr (.inr hk)

/-- A segment that can be read has its contribution, or none if paths are not made of it. -/
theorem contribution_cases (h : ∃ t, d.text n = .ok t) :
    (∃ t, d.Contributes n t) ∨ ¬d.IsPathSegment n ∧ d.contribution? n = .ok none := by
  obtain ⟨t, ht⟩ := h
  by_cases hn : d.IsPathSegment n
  · rcases hn with hk | hk | hk
    · exact .inl ⟨_, .string hk ht⟩
    · exact .inl ⟨_, .slash hk ht⟩
    · exact .inl ⟨_, .identifier hk ht⟩
  · refine .inr ⟨hn, contribution?_eq_ok.2 ⟨classify n.type t.toList, ?_, ?_⟩⟩
    · rw [kind, ht]
      rfl
    · have hk : d.kind n = .ok (classify n.type t.toList) := by
        rw [kind, ht]
        rfl
      simpa only [IsPathSegment, hk, Except.ok.injEq, not_or] using hn

theorem exists_spells (h : ∀ s ∈ parts, ∃ t, d.text s = .ok t) : ∃ ts, d.Spells false parts ts := by
  induction parts with
  | nil => exact ⟨[], .nil⟩
  | cons s parts ih =>
    obtain ⟨hs, hparts⟩ := List.forall_mem_cons.1 h
    obtain ⟨ts, hts⟩ := ih hparts
    rcases contribution_cases hs with ⟨t, ht⟩ | ⟨-, hnone⟩
    · exact ⟨t :: ts, .part ht hts⟩
    · exact ⟨ts, spells_cons.2 (.inr ⟨hnone, rfl, hts⟩)⟩

theorem Spells.strict (h : d.Spells false parts ts) (hs : ∀ s ∈ parts, d.IsPathSegment s) :
    d.Spells true parts ts := by
  induction h with
  | nil => exact .nil
  | part h _ ih => exact .part h (ih (List.forall_mem_cons.1 hs).2)
  | other hk ho _ _ ih =>
    have hsegment := (List.forall_mem_cons.1 hs).1
    simp only [IsPathSegment, hk, Except.ok.injEq, ho.1, ho.2.1, ho.2.2, or_self] at hsegment

theorem Spells.isPathSegment (h : d.Spells true parts ts) : ∀ s ∈ parts, d.IsPathSegment s := by
  induction parts generalizing ts with
  | nil => exact List.forall_mem_nil _
  | cons s parts ih =>
    cases h with
    | part hs hparts => exact List.forall_mem_cons.2 ⟨hs.isPathSegment, ih hparts⟩
    | other _ _ hl => cases hl

/-- A strict reading stops at the first segment that paths are not made of. -/
theorem contributions_unsupported {before after : List Node}
    (h : ∀ a ∈ before, d.IsPathSegment a ∧ ∃ t, d.text a = .ok t)
    (hs : d.contribution? s = .ok none) :
    d.contributions true (before ++ s :: after) = .error (.unsupported s) := by
  induction before with
  | nil =>
    rw [List.nil_append, contributions, hs]
    rfl
  | cons a before ih =>
    obtain ⟨⟨ha, hread⟩, hbefore⟩ := List.forall_mem_cons.1 h
    rcases contribution_cases hread with ⟨t, ht⟩ | ⟨hnone, -⟩
    · have hsome : d.contribution? a = .ok (some t) := contribution?_eq_ok.2 ht
      rw [List.cons_append, contributions, hsome, ih hbefore]
      rfl
    · exact absurd ha hnone

/-- What the segments of a path come to in the two modes of reading. -/
structure Resolves (d : Document) (parts : List Node) (path : String) : Prop where
  lenient : d.resolvePath false parts = .ok path
  spelled : ∃ ts, d.Spells false parts ts ∧ (String.join ts = "/" ++ path ∨
    (∀ rest, String.join ts ≠ "/" ++ rest) ∧ String.join ts = path)
  strict : ∀ path', d.resolvePath true parts = .ok path' ↔
    (∀ s ∈ parts, d.IsPathSegment s) ∧ path' = path
  unsupported : ∀ e, d.resolvePath true parts = .error e ↔
    ∃ before s after, parts = before ++ s :: after ∧ (∀ a ∈ before, d.IsPathSegment a) ∧
      ¬d.IsPathSegment s ∧ e = .unsupported s

theorem resolvePath_unsupported {before after : List Node}
    (hread : ∀ a ∈ before ++ s :: after, ∃ t, d.text a = .ok t)
    (hbefore : ∀ a ∈ before, d.IsPathSegment a) (hs : ¬d.IsPathSegment s) :
    d.resolvePath true (before ++ s :: after) = .error (.unsupported s) := by
  rw [List.forall_mem_append, List.forall_mem_cons] at hread
  rcases contribution_cases hread.2.1 with ⟨t, ht⟩ | ⟨-, hnone⟩
  · exact absurd ht.isPathSegment hs
  · rw [resolvePath, contributions_unsupported (fun a ha => ⟨hbefore a ha, hread.1 a ha⟩) hnone]
    rfl

theorem exists_resolves (h : ∀ s ∈ parts, ∃ t, d.text s = .ok t) :
    ∃ path, d.Resolves parts path := by
  obtain ⟨ts, hts⟩ := exists_spells h
  have hlenient := resolvePath_eq_ok.2 ⟨ts, hts, rfl⟩
  refine ⟨_, hlenient, ⟨ts, hts, withoutLeadingSlash_cases _⟩, fun path' => ?_, fun e => ?_⟩
  · constructor
    · intro hstrict
      obtain ⟨ts', hts', -⟩ := resolvePath_eq_ok.1 hstrict
      exact ⟨hts'.isPathSegment,
        Except.ok.inj ((resolvePath_lenient hstrict).symm.trans hlenient)⟩
    · rintro ⟨hall, rfl⟩
      exact resolvePath_eq_ok.2 ⟨ts, hts.strict hall, rfl⟩
  · constructor
    · intro hstrict
      classical
      cases hfirst : parts.find? (¬d.IsPathSegment ·) with
      | none =>
        have hall : ∀ s ∈ parts, d.IsPathSegment s := by simpa using hfirst
        cases hstrict.symm.trans (resolvePath_eq_ok.2 ⟨ts, hts.strict hall, rfl⟩)
      | some s =>
        obtain ⟨hs, before, after, rfl, hbefore⟩ := List.find?_eq_some_iff_append.1 hfirst
        simp only [Bool.not_eq_true', decide_eq_false_iff_not, decide_eq_true_eq,
          not_not] at hs hbefore
        cases hstrict.symm.trans (resolvePath_unsupported h hbefore hs)
        exact ⟨before, s, after, rfl, hbefore, hs, rfl⟩
    · rintro ⟨before, s, after, rfl, hbefore, hs, rfl⟩
      exact resolvePath_unsupported h hbefore hs

/-- A path expression is read as the sequence of its operands with the operators between them, which
is all that its segments hang on, and from left to right if the tree is. A path takes of each of
them what it contributes, and a strict reading takes only those that contribute something. -/
theorem path_expression_sequence :
    (∀ (d : Document) n, (∀ m, m.Below n → ∃ t, d.text m = .ok t) →
      ∃ parts, d.segments n = .ok parts) ∧
    (∀ (d : Document) n parts, d.segments n = .ok parts → ∃ e, d.Flattens n e parts) ∧
    (∀ (d d' : Document) n n' e e' parts parts', d.Flattens n e parts → d'.Flattens n' e' parts' →
      ∀ (β : Type) (f g : Node → β),
        parts.map f = parts'.map g ↔ (e.map f).Reassociates (e'.map g)) ∧
    ∀ (d : Document) parts, (∀ s ∈ parts, ∃ t, d.text s = .ok t) →
      ∃ path, d.Resolves parts path := by
  refine ⟨fun _ _ => exists_segments, fun _ _ _ => exists_flattens, ?_, fun _ _ => exists_resolves⟩
  intro d d' n n' e e' parts parts' h h' β f g
  rw [h.sequence, h'.sequence, ← PathExpression.inOrder_map, ← PathExpression.inOrder_map]
  exact PathExpression.reassociates_iff.symm

/-- A string, a name and a call, joined by slashes in one of the two ways. -/
def mixedPath (tree : Tree) : Document where
  path := "mixed.py"
  source := "'/x'/a/f()".toUTF8
  tree := tree

def slashTree (field : String) (left : Tree) (operator : Int) (right : Tree) : Tree :=
  .node "binary_operator" left.start right.stop field
    [left, .node "/" operator (operator + 1) "operator" [], right]

def leftPath : Document :=
  mixedPath (slashTree "" (slashTree "left" (.node "string" 0 4 "left" []) 4
    (.node "identifier" 5 6 "right" [])) 6 (.node "call" 7 10 "right" []))

def rightPath : Document :=
  mixedPath (slashTree "" (.node "string" 0 4 "left" []) 4
    (slashTree "right" (.node "identifier" 5 6 "left" []) 6 (.node "call" 7 10 "right" [])))

/-- Both ways of joining give one sequence, of which the call alone is not in the path. -/
theorem path_expression_sequence_mixedPath :
    ∃ parts parts' e e', leftPath.segments leftPath.root = .ok parts ∧
      rightPath.segments rightPath.root = .ok parts' ∧
      leftPath.Flattens leftPath.root e parts ∧ rightPath.Flattens rightPath.root e' parts' ∧
      parts.map (fun s => (s.type, s.start, s.stop)) =
        [("string", 0, 4), ("/", 4, 5), ("identifier", 5, 6), ("/", 6, 7), ("call", 7, 10)] ∧
      (e.map fun s => (s.type, s.start, s.stop)).Reassociates
        (e'.map fun s => (s.type, s.start, s.stop)) ∧
      ∃ path, leftPath.Resolves parts path ∧ path = "x/a/" := by
  obtain ⟨hexists, hflattens, hassociates, hresolves⟩ := path_expression_sequence
  have hread : ∀ d ∈ [leftPath, rightPath], ∀ m, m.Below d.root → ∃ t, d.text m = .ok t := by
    have hsome : ∀ d ∈ [leftPath, rightPath], ∀ m : Node, m.Below d.root →
        (d.text m).toOption.isSome = true := by decide +kernel
    intro d hd m hm
    obtain ⟨t, ht⟩ := Option.isSome_iff_exists.1 (hsome d hd m hm)
    exact ⟨t, eq_ok_of_toOption ht⟩
  obtain ⟨parts, hparts⟩ := hexists leftPath leftPath.root (hread _ (.head _))
  obtain ⟨parts', hparts'⟩ := hexists rightPath rightPath.root (hread _ (.tail _ (.head _)))
  obtain ⟨e, he⟩ := hflattens _ _ _ hparts
  obtain ⟨e', he'⟩ := hflattens _ _ _ hparts'
  have hranges : ∀ d ∈ [leftPath, rightPath], (d.segments d.root).toOption.map
      (List.map fun s => (s.type, s.start, s.stop)) = some
        [("string", 0, 4), ("/", 4, 5), ("identifier", 5, 6), ("/", 6, 7), ("call", 7, 10)] := by
    decide +kernel
  have hleft := hranges leftPath (.head _)
  have hright := hranges rightPath (.tail _ (.head _))
  rw [hparts] at hleft
  rw [hparts'] at hright
  have hleft := Option.some.inj hleft
  have hsame := hleft.trans (Option.some.inj hright).symm
  have htexts : (leftPath.segments leftPath.root).toOption.map
      (List.all · fun s => (leftPath.text s).toOption.isSome) = some true := by decide +kernel
  rw [hparts] at htexts
  obtain ⟨path, hpath⟩ := hresolves leftPath parts fun s hs => by
    obtain ⟨t, ht⟩ := Option.isSome_iff_exists.1 (List.all_eq_true.1 (Option.some.inj htexts) s hs)
    exact ⟨t, eq_ok_of_toOption ht⟩
  have hroute : (leftPath.segments leftPath.root).toOption.bind
      (fun parts => (leftPath.resolvePath false parts).toOption) = some "x/a/" := by
    decide +kernel
  rw [hparts] at hroute
  refine ⟨parts, parts', e, e', hparts, hparts', he, he', hleft,
    (hassociates _ _ _ _ _ _ _ _ he he' _ _ _).1 hsame, path, hpath, ?_⟩
  exact Except.ok.inj (hpath.lenient.symm.trans (eq_ok_of_toOption hroute))

end Document

end AppManifest
