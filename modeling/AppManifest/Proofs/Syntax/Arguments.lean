import AppManifest.Proofs.Syntax.Part

namespace AppManifest
set_option autoImplicit true

/-! The arguments of a decorator that calls its marker: each child of the argument list becomes a
field or a positional argument, or is dropped. -/

namespace Document

/-- A keyword argument is read as a field, which keeps its node and its value. Without a name token
its name is empty. -/
structure ReadsField (d : Document) (child : Node) (f : MarkerField) : Prop where
  kind : d.kind child = .ok .keywordArgument
  node : f.node = child
  value : f.value = child.field? "value"
  name : child.field? "name" = none ∧ f.name = "" ∨
    ∃ token, child.field? "name" = some token ∧ d.text token = .ok f.name

/-- A parenthesis or a comma. -/
def IsDelimiter (d : Document) (child : Node) : Prop :=
  ∃ t, d.text child = .ok t ∧ (t = "(" ∨ t = ")" ∨ t = ",")

/-- A child of an argument list that is no argument. -/
inductive IsDropped (d : Document) (child : Node) : Prop
  | comment (h : d.kind child = .ok .comment) : IsDropped d child
  | delimiter (h : d.IsDelimiter child) (hk : d.kind child ≠ .ok .keywordArgument) :
      IsDropped d child

structure IsPositional (d : Document) (child : Node) : Prop where
  kind : ∃ k, d.kind child = .ok k ∧ k ≠ .keywordArgument ∧ k ≠ .comment
  text : ¬d.IsDelimiter child

/-- The children of an argument list are split into fields and positional arguments, in their order,
with the others dropped. -/
inductive Splits (d : Document) : List Node → List MarkerField → List Node → Prop
  | nil : Splits d [] [] []
  | field (h : d.ReadsField child f) (hs : Splits d children fields positional) :
      Splits d (child :: children) (f :: fields) positional
  | positional (h : d.IsPositional child) (hs : Splits d children fields positional) :
      Splits d (child :: children) fields (child :: positional)
  | dropped (h : d.IsDropped child) (hs : Splits d children fields positional) :
      Splits d (child :: children) fields positional

/-- What a child of an argument list can be. -/
inductive ArgumentRole
  | field
  | positional
  | dropped

def HasRole (d : Document) (child : Node) : ArgumentRole → Prop
  | .field => ∃ f, d.ReadsField child f
  | .positional => d.IsPositional child
  | .dropped => d.IsDropped child

/-- The children of the argument list of a call, if it has one. -/
def argumentNodes (call : Node) : List Node :=
  match call.field? "arguments" with
  | some list => list.children
  | none => []

variable {d : Document} {child decorator call : Node} {a : Marker}

/-- A child of an argument list is read as the argument that it is. -/
theorem argument_ok {x : Argument} (h : d.argument child = .ok x) :
    match x with
    | .keyword f => d.ReadsField child f
    | .positional n => n = child ∧ d.IsPositional child
    | .punctuation => d.IsDropped child := by
  obtain ⟨k, hk, h⟩ := bind_eq_ok.1 h
  split at h
  next =>
    dsimp only at h
    split at h
    next token htoken =>
      obtain ⟨name, hname, h⟩ := bind_eq_ok.1 h
      cases pure_eq_ok.1 h
      exact ⟨hk, rfl, rfl, .inr ⟨token, htoken, hname⟩⟩
    next hnone =>
      cases pure_eq_ok.1 h
      exact ⟨hk, rfl, rfl, .inl ⟨hnone, rfl⟩⟩
  next =>
    cases pure_eq_ok.1 h
    exact .comment hk
  next hfield hcomment =>
    obtain ⟨t, ht, h⟩ := bind_eq_ok.1 h
    have hdelimiter : d.IsDelimiter child ↔ t ∈ ["(", ")", ","] := by
      simp [IsDelimiter, ht]
    split at h
    next hmem =>
      cases pure_eq_ok.1 h
      refine .delimiter (hdelimiter.2 hmem) fun hk' => ?_
      exact hfield (Except.ok.inj (hk.symm.trans hk'))
    next hmem =>
      cases pure_eq_ok.1 h
      exact ⟨rfl, ⟨k, hk, hfield, hcomment⟩, mt hdelimiter.1 hmem⟩

theorem splits_of_arguments {xs : List Argument}
    (h : List.Forall₂ (fun child x => d.argument child = .ok x) children xs) :
    d.Splits children (xs.filterMap Argument.field?) (xs.filterMap Argument.positional?) := by
  induction h with
  | nil => exact .nil
  | @cons child x _ _ hx _ ih =>
    have hread := argument_ok hx
    cases x with
    | keyword f => exact .field hread ih
    | positional n =>
      obtain ⟨rfl, hread⟩ := hread
      exact .positional hread ih
    | punctuation => exact .dropped hread ih

/-- What a child of an argument list is, it is alone. -/
theorem HasRole.unique (h : d.HasRole child r) (h' : d.HasRole child r') : r = r' := by
  have hfield {f} (hf : d.ReadsField child f) : ¬d.IsPositional child ∧ ¬d.IsDropped child := by
    refine ⟨fun hp => ?_, fun hd => ?_⟩
    · obtain ⟨k, hk, hne, -⟩ := hp.kind
      exact hne (Except.ok.inj (hk.symm.trans hf.kind))
    · cases hd with
      | comment hk => cases hk.symm.trans hf.kind
      | delimiter _ hk => exact hk hf.kind
  have hpositional (hp : d.IsPositional child) : ¬d.IsDropped child := by
    intro hd
    cases hd with
    | comment hk =>
      obtain ⟨k, hk', -, hne⟩ := hp.kind
      exact hne (Except.ok.inj (hk'.symm.trans hk))
    | delimiter ht _ => exact hp.text ht
  cases r with
  | field =>
    obtain ⟨f, hf⟩ := h
    cases r' with
    | field => rfl
    | positional => exact absurd h' (hfield hf).1
    | dropped => exact absurd h' (hfield hf).2
  | positional =>
    cases r' with
    | field =>
      obtain ⟨f, hf⟩ := h'
      exact absurd h (hfield hf).1
    | positional => rfl
    | dropped => exact absurd h' (hpositional h)
  | dropped =>
    cases r' with
    | field =>
      obtain ⟨f, hf⟩ := h'
      exact absurd h (hfield hf).2
    | positional => exact absurd h (hpositional h')
    | dropped => rfl

theorem Splits.exists_role {children positional : List Node} {fields : List MarkerField}
    (h : d.Splits children fields positional) (hc : child ∈ children) :
    ∃ r, d.HasRole child r := by
  induction h with
  | nil => cases hc
  | field h _ ih =>
    rcases List.mem_cons.1 hc with rfl | hc
    · exact ⟨.field, _, h⟩
    · exact ih hc
  | positional h _ ih =>
    rcases List.mem_cons.1 hc with rfl | hc
    · exact ⟨.positional, h⟩
    · exact ih hc
  | dropped h _ ih =>
    rcases List.mem_cons.1 hc with rfl | hc
    · exact ⟨.dropped, h⟩
    · exact ih hc

theorem exists_callName {g : String → α} {x : α} (h : (do
    match call.field? "function" with
    | some callee => return g (← d.markerName callee)
    | none => return g (← d.text call)) = .ok x) : ∃ name, x = g name := by
  split at h
  next =>
    obtain ⟨name, -, h⟩ := bind_eq_ok.1 h
    exact ⟨name, (pure_eq_ok.1 h).symm⟩
  next =>
    obtain ⟨name, -, h⟩ := bind_eq_ok.1 h
    exact ⟨name, (pure_eq_ok.1 h).symm⟩

/-- A decorator that calls its marker gets its fields and its positional arguments from the argument
list of the call. -/
theorem splits_of_marker (hcall : d.decoratorExpression decorator.children = .ok call)
    (hk : d.kind call = .ok .call) (h : d.marker decorator = .ok a) :
    d.Splits (argumentNodes call) a.fields a.positional := by
  rw [marker, hcall, ok_bind, hk, ok_bind, if_pos rfl] at h
  cases hlist : call.field? "arguments" with
  | some list =>
    rw [hlist] at h
    obtain ⟨xs, hxs, h⟩ := bind_eq_ok.1 h
    obtain ⟨name, rfl⟩ := exists_callName h
    rw [argumentNodes, hlist]
    exact splits_of_arguments (mapM_eq_ok.1 hxs)
  | none =>
    rw [hlist] at h
    obtain ⟨xs, hxs, h⟩ := bind_eq_ok.1 h
    cases pure_eq_ok.1 hxs
    obtain ⟨name, rfl⟩ := exists_callName h
    rw [argumentNodes, hlist]
    exact .nil

/-- Arguments can be read where texts can. -/
theorem Part.argument (h : d.Part S F) (hc : S child) :
    Yields F (fun _ => True) (d.argument child) := by
  unfold Document.argument
  refine (h.kind hc).bind fun k _ _ => ?_
  split
  · split
    next token ht => exact (h.text token (h.field hc ht)).bind fun _ _ _ => .pure trivial
    next => exact .pure trivial
  · exact .pure trivial
  · refine (h.text child hc).bind fun t _ _ => ?_
    split
    · exact .pure trivial
    · exact .pure trivial

/-- A decorator that calls its marker can be read where the texts below it can. -/
theorem exists_marker (hcall : d.decoratorExpression decorator.children = .ok call)
    (hk : d.kind call = .ok .call)
    (h : ∀ n, n.Below decorator → ∃ t, d.text n = .ok t) : ∃ a, d.marker decorator = .ok a := by
  have hpart : d.Part (·.Below decorator) fun _ => False := by
    refine ⟨fun _ hm _ hc => hm.tail hc, fun m hm => ?_⟩
    obtain ⟨t, ht⟩ := h m hm
    rw [ht]
    exact .pure trivial
  have hbelow : call.Below decorator := by
    refine (hpart.decoratorExpression fun c hc => ?_).ok hcall
    exact .tail .refl hc
  apply Yields.exists_ok (P := fun _ => True)
  rw [marker, hcall, ok_bind, hk, ok_bind, if_pos rfl]
  dsimp only
  split
  next list hlist =>
    have hargument : ∀ c ∈ list.children,
        Yields (fun _ => False) (fun _ => True) (d.argument c) :=
      fun c hc => hpart.argument (hpart.child list (hpart.field hbelow hlist) c hc)
    exact (Yields.mapM hargument).bind fun _ _ _ => hpart.callName hbelow fun _ => trivial
  next => exact hpart.callName hbelow fun _ => trivial

end Document

end AppManifest
