import AppManifest.Proofs.Analysis.Typing
import AppManifest.Proofs.Syntax.Lookup

namespace AppManifest
set_option autoImplicit true

/-! The parameters that a function may have, by the statements of its module alone: what the way
from a name over its lines back to a node comes to. -/

namespace Document

/-- Of the nodes at and below another one, a node before its children and these from left to right,
one is the first identifier. -/
def IsFirstIdentifier (d : Document) (n token : Node) : Prop :=
  ∃ before after, nodesFrom n.above n.tree = before ++ token :: after ∧
    (∀ m ∈ before, ∃ k, d.kind m = .ok k ∧ k ≠ .identifier) ∧ d.kind token = .ok .identifier

/-- The last statement of the module that binds a name defines a class. -/
def BindsClass (d : Document) (name : String) : Prop :=
  ∃ statement n, IsLast (fun n => ∃ s, d.Binds name n s) statement d.root.children ∧
    d.StandsFor statement n ∧ d.kind n = .ok .classDefinition

/-- The first identifier of a type is the name of a class, or that of a built-in parameter type that
the module does not bind. -/
def HasParameterType (d : Document) (type : Node) : Prop :=
  ∃ token name, d.IsFirstIdentifier type token ∧ d.text token = .ok name ∧
    (d.BindsClass name ∨ d.IsUnbound name ∧ name ∈ parameterBuiltins)

/-- The parameters that the children of a parameter list declare one after the other. -/
inductive DeclareParameters (d : Document) : List Node → List Parameter → Prop
  | nil : DeclareParameters d [] []
  | parameter (hk : d.kind child = .ok k) (hf : ParameterForm.ofKind? k = some form)
      (hrest : DeclareParameters d children ps) :
      DeclareParameters d (child :: children) (⟨form, child⟩ :: ps)
  | other (hk : d.kind child = .ok k) (hf : ParameterForm.ofKind? k = none)
      (hrest : DeclareParameters d children ps) : DeclareParameters d (child :: children) ps

/-- A parameter has a type, and one that parameters may have. -/
def AcceptsParameter (d : Document) (p : Parameter) : Prop :=
  p.form = .typed ∧ ∃ type, p.node.field? "type" = some type ∧ d.HasParameterType type

variable {d : Document} {n token statement : Node} {name : String}

mutual

/-- The recursive search goes through the nodes in that order. -/
theorem identifierFrom_eq (d : Document) (above : List Tree) (t : Tree) :
    identifierFrom d above t =
      (nodesFrom above t).findM? fun m => return (← d.kind m) = .identifier := by
  cases t with
  | node type first last field children =>
    rw [identifierFrom, nodesFrom, List.findM?, bind_assoc]
    refine bind_congr fun k => ?_
    rw [pure_bind]
    by_cases hk : k = .identifier
    · simp only [hk, ↓reduceIte, decide_true]
    · simp only [hk, ↓reduceIte, decide_false]
      exact identifierAmong_eq d _ children

theorem identifierAmong_eq (d : Document) (above : List Tree) (trees : List Tree) :
    identifierAmong d above trees =
      (nodesAmong above trees).findM? fun m => return (← d.kind m) = .identifier := by
  cases trees with
  | nil => rfl
  | cons t trees =>
    rw [identifierAmong, nodesAmong, findM?_append, identifierFrom_eq d above t,
      identifierAmong_eq d above trees]
    refine bind_congr fun o => ?_
    cases o with
    | none => rfl
    | some m => rfl

end

theorem firstIdentifier?_eq_some :
    d.firstIdentifier? n = .ok (some token) ↔ d.IsFirstIdentifier n token := by
  have hfound {m : Node} : (do return decide ((← d.kind m) = .identifier)) = Except.ok true ↔
      d.kind m = .ok .identifier := by
    simp only [bind_eq_ok, pure_eq_ok, decide_eq_true_eq, exists_eq_right]
  have hpassed {m : Node} : (do return decide ((← d.kind m) = .identifier)) = Except.ok false ↔
      ∃ k, d.kind m = .ok k ∧ k ≠ .identifier := by
    simp only [bind_eq_ok, pure_eq_ok, decide_eq_false_iff_not]
  rw [firstIdentifier?, identifierFrom_eq, findM?_eq_some]
  simp only [hfound, hpassed]
  rfl

theorem Binds.class_iff (h : d.Binds name statement s) (hn : d.StandsFor statement n) :
    s.kind = .classType ↔ d.kind n = .ok .classDefinition := by
  cases h with
  | classType hn' hk _ hs =>
    cases hn.unique hn'
    simp [kind_of_symbol hs, hk]
  | function hn' hk _ hs =>
    cases hn.unique hn'
    simp [kind_of_symbol hs, hk]
  | assignment hn' hk _ hs =>
    cases hn.unique hn'
    obtain ⟨token, -, -, -, hs, -⟩ := hs
    simp [kind_of_symbol hs, hk]

theorem Binds.exists_standsFor (h : d.Binds name statement s) : ∃ n, d.StandsFor statement n := by
  cases h with
  | classType hn => exact ⟨_, hn⟩
  | function hn => exact ⟨_, hn⟩
  | assignment hn => exact ⟨_, hn⟩

theorem Binds.not_builtin (h : d.Binds name statement s) : s.kind ≠ .builtin := by
  cases h with
  | classType _ _ _ hs => simp [kind_of_symbol hs]
  | function _ _ _ hs => simp [kind_of_symbol hs]
  | assignment _ _ _ hs =>
    obtain ⟨token, -, -, -, hs, -⟩ := hs
    simp [kind_of_symbol hs]

end Document

namespace SymbolTable

variable {d : Document} {t : SymbolTable} {name : String}

theorem lookup?_class (ht : SymbolTable.ofDocument d = .ok t) :
    (∃ s, t.lookup? name = some s ∧ s.kind = .classType) ↔ d.BindsClass name := by
  simp only [lookup?_eq_some ht]
  constructor
  · rintro ⟨s, ⟨statement, hlast, hs⟩ | ⟨-, -, rfl⟩, hk⟩
    · obtain ⟨n, hn⟩ := hs.exists_standsFor
      exact ⟨statement, n, hlast, hn, (hs.class_iff hn).1 hk⟩
    · cases hk
  · rintro ⟨statement, n, hlast, hn, hk⟩
    obtain ⟨-, -, -, ⟨s, hs⟩, -⟩ := id hlast
    exact ⟨s, .inl ⟨statement, hlast, hs⟩, (hs.class_iff hn).2 hk⟩

theorem lookup?_builtin (ht : SymbolTable.ofDocument d = .ok t) :
    (∃ s, t.lookup? name = some s ∧ s.kind = .builtin) ↔
      d.IsUnbound name ∧ name ∈ builtinNames := by
  simp only [lookup?_eq_some ht]
  constructor
  · rintro ⟨s, ⟨statement, -, hs⟩ | ⟨hn, hb, -⟩, hk⟩
    · exact absurd hk hs.not_builtin
    · exact ⟨hn, hb⟩
  · rintro ⟨hn, hb⟩
    exact ⟨_, .inr ⟨hn, hb, rfl⟩, rfl⟩

end SymbolTable

namespace Scope

variable {c : Scope} {function : Node}

/-- The parameters of a function that need a type: all that its list declares, save a bare `self` or
`cls` in front. -/
inductive MustBeTyped (c : Scope) (function : Node) : List Parameter → Prop
  | noList (h : function.field? "parameters" = none) : MustBeTyped c function []
  | receiver (h : function.field? "parameters" = some list)
      (hd : c.document.DeclareParameters list.children (first :: ps)) (hr : c.IsReceiver first) :
      MustBeTyped c function ps
  | others (h : function.field? "parameters" = some list)
      (hd : c.document.DeclareParameters list.children ps)
      (hr : ∀ first ∈ ps.head?, ¬c.IsReceiver first) : MustBeTyped c function ps

/-- What is found about a parameter that is not accepted: that it has no type, or that its type is
none. -/
inductive Refuses (c : Scope) (p : Parameter) : Diagnostic → Prop
  | bare (hf : p.form = .bare) (ht : c.document.text p.node = .ok name) :
      Refuses c p (c.diagnostic p.node (.missingParameterType name))
  | withDefault (hf : p.form = .withDefault)
      (ht : c.document.text ((p.node.field? "name").getD p.node) = .ok name) :
      Refuses c p (c.diagnostic p.node (.missingParameterType name))
  | type (hf : p.form = .typed) (hn : p.node.field? "type" = some type)
      (hr : ¬c.document.HasParameterType type) (ht : c.document.text type = .ok text) :
      Refuses c p (c.diagnostic type (.unsupportedParameterType text))

/-- The identifier code of a finding about a parameter goes by whether the parameter has a type. -/
theorem Refuses.code_id (h : c.Refuses p e) :
    e.code.id = if p.form = .typed then "AZ0008" else "AZ0013" := by
  cases h with
  | bare hf => rw [hf]; rfl
  | withDefault hf => rw [hf]; rfl
  | type hf => rw [hf]; rfl

theorem Refuses.not_accepted (h : c.Refuses p e) : ¬c.document.AcceptsParameter p := by
  rintro ⟨hp, type, htype, hnames⟩
  cases h with
  | bare hf => cases hf.symm.trans hp
  | withDefault hf => cases hf.symm.trans hp
  | type hf hn hr =>
    cases hn.symm.trans htype
    exact hr hnames

theorem namesParameterType_iff (ht : SymbolTable.ofDocument c.document = .ok c.symbols)
    (type : Node) : c.NamesParameterType type ↔ c.document.HasParameterType type := by
  have hbuiltin {name} (h : name ∈ parameterBuiltins) : name ∈ builtinNames :=
    List.mem_append_left _ h
  unfold NamesParameterType Document.HasParameterType
  simp only [Document.firstIdentifier?_eq_some]
  refine exists_congr fun token => exists_congr fun name => ?_
  rw [← SymbolTable.lookup?_class ht]
  constructor
  · rintro ⟨s, hf, hn, hl, hk | ⟨hk, hp⟩⟩
    · exact ⟨hf, hn, .inl ⟨s, hl, hk⟩⟩
    · exact ⟨hf, hn, .inr ⟨((SymbolTable.lookup?_builtin ht).1 ⟨s, hl, hk⟩).1, hp⟩⟩
  · rintro ⟨hf, hn, ⟨s, hl, hk⟩ | ⟨hu, hp⟩⟩
    · exact ⟨s, hf, hn, hl, .inl hk⟩
    · obtain ⟨s, hl, hk⟩ := (SymbolTable.lookup?_builtin ht).2 ⟨hu, hbuiltin hp⟩
      exact ⟨s, hf, hn, hl, .inr ⟨hk, hp⟩⟩

theorem declared_iff {children : List Node} {ps : List Parameter} :
    children.filterMapM c.parameter? = .ok ps ↔ c.document.DeclareParameters children ps := by
  have hchild {child : Node} {o : Option Parameter} : c.parameter? child = .ok o ↔
      ∃ k, c.document.kind child = .ok k ∧
        (ParameterForm.ofKind? k).map (fun form => ⟨form, child⟩) = o := by
    simp only [parameter?, bind_eq_ok, pure_eq_ok]
  constructor
  · intro h
    induction children generalizing ps with
    | nil =>
      cases pure_eq_ok.1 h
      exact .nil
    | cons child children ih =>
      obtain ⟨o, rest, ho, hrest, rfl⟩ := filterMapM_cons_eq_ok.1 h
      obtain ⟨k, hk, rfl⟩ := hchild.1 ho
      cases hf : ParameterForm.ofKind? k with
      | none => exact .other hk hf (ih hrest)
      | some form => exact .parameter hk hf (ih hrest)
  · intro h
    induction h with
    | nil => rfl
    | parameter hk hf _ ih =>
      exact filterMapM_cons_eq_ok.2 ⟨_, _, hchild.2 ⟨_, hk, congrArg _ hf⟩, ih, rfl⟩
    | other hk hf _ ih =>
      exact filterMapM_cons_eq_ok.2 ⟨_, _, hchild.2 ⟨_, hk, congrArg _ hf⟩, ih, rfl⟩

theorem mustBeTyped_iff {list : Node} (h : function.field? "parameters" = some list) :
    c.MustBeTyped function ps ↔ c.parametersOf list = .ok ps := by
  rw [parametersOf, bind_eq_ok]
  simp only [declared_iff]
  constructor
  · intro hm
    cases hm with
    | noList h' => cases h.symm.trans h'
    | @receiver _ first _ h' hd hr =>
      cases h.symm.trans h'
      obtain ⟨qs, hqs⟩ := exists_typedParameters (declared_iff.2 hd)
      rcases typedParameters_eq_ok hqs with ⟨_, he, -⟩ | ⟨-, hnone⟩
      · cases he
        exact ⟨_, hd, hqs⟩
      · exact absurd hr (hnone first rfl)
    | others h' hd hr =>
      cases h.symm.trans h'
      obtain ⟨qs, hqs⟩ := exists_typedParameters (declared_iff.2 hd)
      rcases typedParameters_eq_ok hqs with ⟨first, rfl, hfirst⟩ | ⟨rfl, -⟩
      · exact absurd hfirst (hr first rfl)
      · exact ⟨_, hd, hqs⟩
  · rintro ⟨declared, hd, hps⟩
    rcases typedParameters_eq_ok hps with ⟨first, rfl, hr⟩ | ⟨rfl, hr⟩
    · exact .receiver h hd hr
    · exact .others h hd hr

section

variable (hd : c.document.WellFormed) (htokens : c.document.DeclaresByTokens)
  (ht : SymbolTable.ofDocument c.document = .ok c.symbols)
include hd htokens ht

theorem supportsType_of_names (h : c.NamesParameterType type) : c.supportsType type = .ok true := by
  obtain ⟨token, name, s, hf, hn, hl, hk⟩ := h
  simp only [supportsType, typeSymbol?, hf, hn, hl, ok_bind]
  exact (isParameterType_eq_ok hd htokens ht hl).2 (iff_of_true rfl hk)

theorem checkType_eq_ok : c.checkType type = .ok () ↔ c.document.HasParameterType type := by
  rw [← namesParameterType_iff ht]
  constructor
  · intro h
    obtain ⟨supported, hs, h⟩ := bind_eq_ok.1 h
    split at h
    next hb => exact (supportsType_eq_ok hd htokens ht (lift_eq_ok.1 hs)).1 hb
    next =>
      obtain ⟨_, -, h⟩ := bind_eq_ok.1 h
      cases h
  · intro h
    rw [checkType, supportsType_of_names hd htokens ht h]
    rfl

theorem checkType_rejected (h : c.checkType type = .error (.rejected e)) :
    ¬c.document.HasParameterType type ∧ ∃ text, c.document.text type = .ok text ∧
      e = c.diagnostic type (.unsupportedParameterType text) := by
  refine ⟨fun hnames => ?_, ?_⟩
  · cases h.symm.trans ((checkType_eq_ok hd htokens ht).2 hnames)
  · rcases bind_eq_error.1 h with h | ⟨supported, -, h⟩
    · obtain ⟨f, -, hf⟩ := lift_eq_error.1 h
      cases hf
    · split at h
      next => cases h
      next =>
        rcases bind_eq_error.1 h with h | ⟨text, htext, h⟩
        · obtain ⟨f, -, hf⟩ := lift_eq_error.1 h
          cases hf
        · cases h
          exact ⟨text, lift_eq_ok.1 htext, rfl⟩

variable {p : Parameter} (htype : p.form = .typed → (p.node.field? "type").isSome = true)
include htype

theorem checkParameter_eq_ok :
    c.checkParameter p = .ok () ↔ c.document.AcceptsParameter p := by
  have hreject {n : Node} {f : String → Finding} {x : Except Fault String} :
      ¬(liftM x >>= fun t => c.reject n (f t) : Except Halt Unit) = .ok () := by
    intro h
    obtain ⟨_, -, h⟩ := bind_eq_ok.1 h
    cases h
  rw [checkParameter, Document.AcceptsParameter]
  cases hf : p.form with
  | bare => simp [hreject]
  | withDefault => simp [hreject]
  | typed =>
    obtain ⟨type, hn⟩ := Option.isSome_iff_exists.1 (htype hf)
    simp [hn, checkType_eq_ok hd htokens ht]

theorem checkParameter_rejected (h : c.checkParameter p = .error (.rejected e)) :
    c.Refuses p e := by
  have hreject {n : Node} {f : String → Finding} {x : Except Fault String}
      (h : (liftM x >>= fun t => c.reject n (f t) : Except Halt Unit) = .error (.rejected e)) :
      ∃ t, x = .ok t ∧ c.diagnostic n (f t) = e := by
    rcases bind_eq_error.1 h with h | ⟨t, ht, h⟩
    · obtain ⟨_, -, hf⟩ := lift_eq_error.1 h
      cases hf
    · cases h
      exact ⟨t, lift_eq_ok.1 ht, rfl⟩
  rw [checkParameter] at h
  cases hf : p.form with
  | bare =>
    rw [hf] at h
    obtain ⟨name, hname, rfl⟩ := hreject h
    exact .bare hf hname
  | withDefault =>
    rw [hf] at h
    obtain ⟨name, hname, rfl⟩ := hreject h
    exact .withDefault hf hname
  | typed =>
    obtain ⟨type, hn⟩ := Option.isSome_iff_exists.1 (htype hf)
    rw [hf, hn] at h
    obtain ⟨hr, text, htext, rfl⟩ := checkType_rejected hd htokens ht h
    exact .type hf hn hr htext

end

/-- The nodes of a document are a part in which nothing is met but texts that do not decode. -/
theorem symbolPart_has (c : Scope) :
    c.SymbolPart c.document.Has fun f => ∃ n, c.document.Has n ∧ c.document.text n = .error f where
  child _ hn _ hc := hn.child hc
  text n hn := ⟨fun _ => trivial, fun he => ⟨n, hn, he⟩⟩
  located s hs n hl := by
    have hn := Document.has_of_locate? hl
    refine ⟨fun _ => trivial, fun he => ?_⟩
    rcases bind_eq_error.1 he with he | ⟨_, -, he⟩
    · exact ⟨n, hn, he⟩
    · cases he

theorem typed_of_mustBeTyped (htypes : c.document.TypesAreGiven) (hn : c.document.Has function)
    (h : c.MustBeTyped function ps) {p : Parameter} (hp : p ∈ ps) (hf : p.form = .typed) :
    (p.node.field? "type").isSome = true := by
  cases h with
  | noList => cases hp
  | receiver hl hd =>
    exact typed_of_declared htypes (hn.field hl) (declared_iff.2 hd) (List.mem_cons_of_mem _ hp) hf
  | others hl hd => exact typed_of_declared htypes (hn.field hl) (declared_iff.2 hd) hp hf

/-- The parameters that have to be typed are checked one after the other, where they can be read. -/
theorem checkParameters_eq_ok (hd : c.document.WellFormed) (htokens : c.document.DeclaresByTokens)
    (htypes : c.document.TypesAreGiven) (ht : SymbolTable.ofDocument c.document = .ok c.symbols)
    (hn : c.document.Has function) : c.checkParameters function = .ok () ↔
      ∃ ps, c.MustBeTyped function ps ∧ ∀ p ∈ ps, c.document.AcceptsParameter p := by
  rw [checkParameters]
  cases hl : function.field? "parameters" with
  | none => exact iff_of_true rfl ⟨[], .noList hl, List.forall_mem_nil _⟩
  | some list =>
    simp only [mustBeTyped_iff hl, bind_eq_ok, lift_eq_ok, forM_eq_ok]
    refine exists_congr fun ps => and_congr_right fun hps => forall₂_congr fun p hp => ?_
    exact checkParameter_eq_ok hd htokens ht
      (typed_of_mustBeTyped htypes hn ((mustBeTyped_iff hl).2 hps) hp)

/-- The check ends at the first parameter that is not accepted. -/
theorem checkParameters_rejected (hd : c.document.WellFormed)
    (htokens : c.document.DeclaresByTokens) (htypes : c.document.TypesAreGiven)
    (ht : SymbolTable.ofDocument c.document = .ok c.symbols) (hn : c.document.Has function)
    (h : c.checkParameters function = .error (.rejected e)) :
    ∃ before p after, c.MustBeTyped function (before ++ p :: after) ∧
      (∀ q ∈ before, c.document.AcceptsParameter q) ∧ c.Refuses p e := by
  rw [checkParameters] at h
  split at h
  next => cases h
  next list hl =>
    rcases bind_eq_error.1 h with h | ⟨ps, hps, h⟩
    · obtain ⟨f, -, hf⟩ := lift_eq_error.1 h
      cases hf
    · obtain ⟨before, p, after, rfl, hbefore, hp⟩ := forM_eq_error h
      have hmust := (mustBeTyped_iff hl).2 (lift_eq_ok.1 hps)
      have htyped := fun q hq => typed_of_mustBeTyped htypes hn hmust (p := q) hq
      refine ⟨before, p, after, hmust, fun q hq => ?_, ?_⟩
      · exact (checkParameter_eq_ok hd htokens ht (htyped q (List.mem_append_left _ hq))).1
          (hbefore q hq)
      · exact checkParameter_rejected hd htokens ht
          (htyped p (List.mem_append_right _ List.mem_cons_self)) hp

/-- The check of the parameters of a function. It succeeds just where all that have to be typed have
a type that the module makes a parameter type, and it rejects over the first of them that has none,
as long as the texts of the document decode. -/
theorem checkParameters_outcome (hd : c.document.WellFormed)
    (htokens : c.document.DeclaresByTokens) (htypes : c.document.TypesAreGiven)
    (ht : SymbolTable.ofDocument c.document = .ok c.symbols) (hn : c.document.Has function) :
    (c.checkParameters function = .ok () ↔
        ∃ ps, c.MustBeTyped function ps ∧ ∀ p ∈ ps, c.document.AcceptsParameter p) ∧
      (∀ e, c.checkParameters function = .error (.rejected e) →
        ∃ before p after, c.MustBeTyped function (before ++ p :: after) ∧
          (∀ q ∈ before, c.document.AcceptsParameter q) ∧ ¬c.document.AcceptsParameter p ∧
          c.Refuses p e ∧ e.code.id = if p.form = .typed then "AZ0008" else "AZ0013") ∧
      ∀ f, c.checkParameters function = .error (.fault f) →
        ∃ n, c.document.Has n ∧ c.document.text n = .error f := by
  refine ⟨checkParameters_eq_ok hd htokens htypes ht hn, fun e he => ?_, fun f hf => ?_⟩
  · obtain ⟨before, p, after, hps, hbefore, hp⟩ :=
      checkParameters_rejected hd htokens htypes ht hn he
    exact ⟨before, p, after, hps, hbefore, hp.not_accepted, hp, hp.code_id⟩
  · cases (yields_checkParameters (symbolPart_has c) hn).error hf with
    | fault h => exact h

/-- A function that has a class of the module for the type of a parameter, and for that of another
one a built-in type whose name the module binds. -/
def shadowingFunction : Tree :=
  .node "function_definition" 19 47 "" [
    .node "def" 19 22 "" [],
    .node "identifier" 23 24 "name" [],
    .node "parameters" 24 44 "parameters" [
      .node "(" 24 25 "" [],
      .node "identifier" 25 29 "" [],
      .node "," 29 30 "" [],
      .node "typed_parameter" 31 35 "" [
        .node "identifier" 31 32 "" [],
        .node ":" 32 33 "" [],
        .node "type" 34 35 "type" [
          .node "identifier" 34 35 "" []]],
      .node "," 35 36 "" [],
      .node "typed_parameter" 37 43 "" [
        .node "identifier" 37 38 "" [],
        .node ":" 38 39 "" [],
        .node "type" 40 43 "type" [
          .node "identifier" 40 43 "" []]],
      .node ")" 43 44 "" []],
    .node ":" 44 45 "" [],
    .node "block" 46 47 "body" [
      .node "expression_statement" 46 47 "" [
        .node "integer" 46 47 "" []]]]

def shadowedType : Document where
  path := "types.py"
  source := "class P: 0\nint = 0\ndef f(self, a: P, b: int): 0\n".toUTF8
  tree :=
    .node "module" 0 48 "" [
      .node "class_definition" 0 10 "" [
        .node "class" 0 5 "" [],
        .node "identifier" 6 7 "name" [],
        .node ":" 7 8 "" [],
        .node "block" 9 10 "body" [
          .node "expression_statement" 9 10 "" [
            .node "integer" 9 10 "" []]]],
      .node "expression_statement" 11 18 "" [
        .node "assignment" 11 18 "" [
          .node "identifier" 11 14 "left" [],
          .node "=" 15 16 "" [],
          .node "integer" 17 18 "right" []]],
      shadowingFunction]

/-- What is found about the parameters of that function. -/
def shadowedFinding? : Option Diagnostic :=
  match SymbolTable.ofDocument shadowedType with
  | .error _ => none
  | .ok t =>
    match checkParameters ⟨shadowedType, {}, t⟩ (shadowedType.root.down shadowingFunction) with
    | .error (.rejected e) => some e
    | _ => none

set_option maxRecDepth 100000 in
/-- The parameter with the class is accepted, and the one with the built-in type refused. -/
theorem checkParameters_shadowedType : shadowedType.WellFormed ∧ shadowedType.DeclaresByTokens ∧
    shadowedType.TypesAreGiven ∧ ∃ t, SymbolTable.ofDocument shadowedType = .ok t ∧
      ∃ function e, shadowedType.Has function ∧
        checkParameters ⟨shadowedType, {}, t⟩ function = .error (.rejected e) ∧
        e.message = "Unsupported parameter type 'int'" ∧
        ∃ before p after,
          MustBeTyped ⟨shadowedType, {}, t⟩ function (before ++ p :: after) ∧
          (∀ q ∈ before, shadowedType.AcceptsParameter q) ∧ ¬shadowedType.AcceptsParameter p ∧
          Refuses ⟨shadowedType, {}, t⟩ p e ∧
          e.code.id = if p.form = .typed then "AZ0008" else "AZ0013" := by
  have hd : shadowedType.WellFormed := by decide +kernel
  have htokens : shadowedType.DeclaresByTokens := by
    refine Document.declaresByTokens_of_fields ?_
    decide +kernel
  have htypes : shadowedType.TypesAreGiven := by
    have hgiven : ∀ n, shadowedType.Has n → SyntaxKind.ofType n.type = .typedParameter ∨
        SyntaxKind.ofType n.type = .typedDefaultParameter →
        (n.field? "type").isSome = true := by decide +kernel
    intro n hn hk
    refine hgiven n hn ?_
    rcases hk with hk | hk
    · exact .inl (Document.ofType_of_kind hk (by simp) (by simp))
    · exact .inr (Document.ofType_of_kind hk (by simp) (by simp))
  have hn : shadowedType.Has (shadowedType.root.down shadowingFunction) :=
    shadowedType.has_root.child (List.mem_map_of_mem (.tail _ (.tail _ (.head _))))
  have hmessage : shadowedFinding?.map Diagnostic.message =
      some "Unsupported parameter type 'int'" := by decide +kernel
  obtain ⟨e, he, hmessage⟩ := Option.map_eq_some_iff.1 hmessage
  unfold shadowedFinding? at he
  split at he
  next => cases he
  next t ht =>
    split at he
    next e' hcheck =>
      cases he
      obtain ⟨-, hrejected, -⟩ :=
        checkParameters_outcome (c := ⟨shadowedType, {}, t⟩) hd htokens htypes ht hn
      exact ⟨hd, htokens, htypes, t, ht, _, e, hn, hcheck, hmessage, hrejected e hcheck⟩
    next => cases he

end Scope

end AppManifest
