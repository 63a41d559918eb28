import AppManifest.Proofs.Except
import AppManifest.Proofs.Syntax.Nesting
import AppManifest.Proofs.Syntax.Position
import AppManifest.Symbol

namespace AppManifest
set_option autoImplicit true

/-- Every symbol that a statement adds to the table, the methods of a class included. -/
def Declaration.collected : Declaration → List Symbol
  | classType symbol methods => symbol :: methods
  | function symbol => [symbol]
  | bindings symbols => symbols

/-- Every symbol of a table. -/
def SymbolTable.collected (t : SymbolTable) : List Symbol :=
  t.declarations.flatMap Declaration.collected

namespace Document

/-- A decorated statement stands for its definition, and any other statement for itself. -/
inductive StandsFor (d : Document) : Node → Node → Prop
  | bare (hk : d.kind n = .ok k) (hne : k ≠ .decoratedDefinition) : StandsFor d n n
  | decorated (hk : d.kind statement = .ok .decoratedDefinition)
      (hf : statement.field? "definition" = some n) : StandsFor d statement n

/-- A node declares a symbol by a name token: a module-level class or function, a method of such a
class, or an assignment of a module-level statement. -/
inductive Declares (d : Document) : Node → Node → Symbol → Prop
  | classType (hst : statement ∈ d.root.children) (hn : d.StandsFor statement n)
      (hk : d.kind n = .ok .classDefinition) (ht : n.field? "name" = some token)
      (hs : d.symbol .classType token = .ok s) : Declares d n token s
  | function (hst : statement ∈ d.root.children) (hn : d.StandsFor statement n)
      (hk : d.kind n = .ok .functionDefinition) (ht : n.field? "name" = some token)
      (hs : d.symbol .function token = .ok s) : Declares d n token s
  | method (hc : Declares d c token' s') (hk' : d.kind c = .ok .classDefinition)
      (hb : c.field? "body" = some body) (hst : statement ∈ body.children)
      (hn : d.StandsFor statement n) (hk : d.kind n = .ok .functionDefinition)
      (ht : n.field? "name" = some token) (hs : d.symbol .method token = .ok s) :
      Declares d n token s
  | assignment (hst : statement ∈ d.root.children) (hn' : d.StandsFor statement e)
      (hk' : d.kind e = .ok .expressionStatement) (hn : n ∈ e.children)
      (hk : d.kind n = .ok .assignment) (ht : n.field? "left" = some token)
      (hi : d.kind token = .ok .identifier) (hs : d.symbol .variableName token = .ok s) :
      Declares d n token s

/-- A node stands in a statement of the module. -/
def InStatement (d : Document) (n : Node) : Prop :=
  ∃ statement ∈ d.root.children, n.Below statement

variable {d : Document} {m n token statement : Node} {s : Symbol}

theorem StandsFor.definition_eq (h : d.StandsFor statement n) : d.definition statement = .ok n := by
  cases h with
  | bare hk hne =>
    rw [definition, hk, ok_bind, if_neg hne]
    rfl
  | decorated hk hf =>
    rw [definition, hk, ok_bind, if_pos rfl, hf]
    rfl

/-- Only a decorated statement without a definition is left. -/
theorem standsFor_of_definition (h : d.definition statement = .ok n) (hk : d.kind n = .ok k)
    (hne : k ≠ .decoratedDefinition) : d.StandsFor statement n := by
  obtain ⟨k', hk', h⟩ := bind_eq_ok.1 h
  split at h
  next he =>
    subst he
    cases hf : statement.field? "definition" with
    | none =>
      rw [hf] at h
      cases pure_eq_ok.1 h
      cases hk.symm.trans hk'
      exact absurd rfl hne
    | some n' =>
      rw [hf] at h
      cases pure_eq_ok.1 h
      exact .decorated hk' hf
  next he =>
    cases pure_eq_ok.1 h
    exact .bare hk' he

theorem StandsFor.unique (h : d.StandsFor statement m) (h' : d.StandsFor statement n) : m = n :=
  Except.ok.inj (h.definition_eq.symm.trans h'.definition_eq)

theorem StandsFor.below (h : d.StandsFor statement n) : n.Below statement := by
  cases h with
  | bare => exact .refl
  | decorated _ hf => exact .single (Node.mem_children_of_field? hf)

theorem Has.definition (h : Has d statement) (hn : d.StandsFor statement n) : d.Has n :=
  h.below hn.below

theorem InStatement.below (h : d.InStatement n) (hm : m.Below n) : d.InStatement m := by
  obtain ⟨statement, hst, hn⟩ := h
  exact ⟨statement, hst, Relation.ReflTransGen.trans hn hm⟩

theorem InStatement.child (h : d.InStatement n) (hm : m ∈ n.children) : d.InStatement m :=
  h.below (.single hm)

theorem InStatement.field (h : d.InStatement n) (hm : n.field? name = some m) : d.InStatement m :=
  h.child (Node.mem_children_of_field? hm)

theorem InStatement.definition (h : d.InStatement statement) (hn : d.StandsFor statement n) :
    d.InStatement n :=
  h.below hn.below

theorem InStatement.has (h : d.InStatement n) : d.Has n := by
  obtain ⟨statement, hst, hn⟩ := h
  exact (d.has_root.child hst).below hn

theorem inStatement_of_mem (hst : statement ∈ d.root.children) : d.InStatement statement :=
  ⟨statement, hst, .refl⟩

/-- The node around a definition is its statement, or what the statement stands in where it is
bare. -/
theorem StandsFor.parent (hn : d.StandsFor statement n) (hst : statement ∈ body.children)
    (hp : n.parent? = some m) : m = statement ∨ m = body := by
  cases hn with
  | bare => exact .inr (Option.some.inj (hp.symm.trans (Node.parent?_of_mem_children hst)))
  | decorated _ hf =>
    have hparent := Node.parent?_of_mem_children (Node.mem_children_of_field? hf)
    exact .inl (Option.some.inj (hp.symm.trans hparent))

theorem symbol_eq_ok {role : SymbolKind} :
    d.symbol role token = .ok s ↔
      ∃ name, d.text token = .ok name ∧ s = ⟨name, role, some (d.lines token)⟩ := by
  simp only [symbol, bind_eq_ok, pure_eq_ok, eq_comm (a := s)]

theorem method?_eq_ok_some :
    d.method? statement = .ok (some s) ↔
      ∃ n token, d.StandsFor statement n ∧ d.kind n = .ok .functionDefinition ∧
        n.field? "name" = some token ∧ d.symbol .method token = .ok s := by
  constructor
  · intro h
    obtain ⟨n, hn, h⟩ := bind_eq_ok.1 h
    obtain ⟨k, hk, h⟩ := bind_eq_ok.1 h
    split at h
    next token ht =>
      obtain ⟨s', hs, h⟩ := bind_eq_ok.1 h
      cases pure_eq_ok.1 h
      exact ⟨n, token, standsFor_of_definition hn hk (by simp), hk, ht, hs⟩
    next => cases pure_eq_ok.1 h
  · intro h
    obtain ⟨n, token, hn, hk, ht, hs⟩ := h
    simp only [method?, hn.definition_eq, hk, ht, hs, ok_bind]
    rfl

theorem assigned?_eq_ok_some :
    d.assigned? n = .ok (some s) ↔
      ∃ token, d.kind n = .ok .assignment ∧ n.field? "left" = some token ∧
        d.kind token = .ok .identifier ∧ d.symbol .variableName token = .ok s := by
  constructor
  · intro h
    obtain ⟨k, hk, h⟩ := bind_eq_ok.1 h
    split at h
    next he =>
      subst he
      split at h
      next => cases pure_eq_ok.1 h
      next token ht =>
        obtain ⟨k, hi, h⟩ := bind_eq_ok.1 h
        split at h
        next he =>
          subst he
          obtain ⟨s', hs, h⟩ := bind_eq_ok.1 h
          cases pure_eq_ok.1 h
          exact ⟨token, hk, ht, hi, hs⟩
        next => cases pure_eq_ok.1 h
    next => cases pure_eq_ok.1 h
  · intro h
    obtain ⟨token, hk, ht, hi, hs⟩ := h
    simp only [assigned?, hk, ht, hi, hs, ok_bind]
    rfl

theorem mem_methods {ss : List Symbol} (h : d.methods n = .ok ss) :
    s ∈ ss ↔ ∃ body, n.field? "body" = some body ∧
      ∃ statement ∈ body.children, d.method? statement = .ok (some s) := by
  unfold methods at h
  cases hb : n.field? "body" with
  | none =>
    rw [hb] at h
    cases pure_eq_ok.1 h
    simp
  | some body =>
    rw [hb] at h
    simp [mem_of_filterMapM_eq_ok h]

theorem declaration_class (hn : d.StandsFor statement n)
    (hk : d.kind n = .ok .classDefinition) (ht : n.field? "name" = some token) :
    d.declaration statement =
      return .classType (← d.symbol .classType token) (← d.methods n) := by
  simp only [declaration, hn.definition_eq, hk, ht, ok_bind]

theorem declaration_function (hn : d.StandsFor statement n)
    (hk : d.kind n = .ok .functionDefinition) (ht : n.field? "name" = some token) :
    d.declaration statement = return .function (← d.symbol .function token) := by
  simp only [declaration, hn.definition_eq, hk, ht, ok_bind]

theorem declaration_assignments (hn : d.StandsFor statement n)
    (hk : d.kind n = .ok .expressionStatement) :
    d.declaration statement = return .bindings (← n.children.filterMapM d.assigned?) := by
  simp only [declaration, hn.definition_eq, hk, ok_bind]

/-- What a statement adds to the table, by what it stands for. -/
theorem declaration_cases {b : Declaration} (h : d.declaration statement = .ok b) :
    (∃ n token s ms, d.StandsFor statement n ∧ d.kind n = .ok .classDefinition ∧
        n.field? "name" = some token ∧ d.symbol .classType token = .ok s ∧
        d.methods n = .ok ms ∧ b = .classType s ms) ∨
      (∃ n token s, d.StandsFor statement n ∧ d.kind n = .ok .functionDefinition ∧
        n.field? "name" = some token ∧ d.symbol .function token = .ok s ∧ b = .function s) ∨
      (∃ n ss, d.StandsFor statement n ∧ d.kind n = .ok .expressionStatement ∧
        n.children.filterMapM d.assigned? = .ok ss ∧ b = .bindings ss) ∨
      b = .bindings [] := by
  obtain ⟨n, hn, h⟩ := bind_eq_ok.1 h
  obtain ⟨k, hk, h⟩ := bind_eq_ok.1 h
  have hstands := standsFor_of_definition hn hk
  split at h
  next token ht =>
    obtain ⟨s, hs, h⟩ := bind_eq_ok.1 h
    obtain ⟨ms, hms, h⟩ := bind_eq_ok.1 h
    exact .inl ⟨n, token, s, ms, hstands (by simp), hk, ht, hs, hms, (pure_eq_ok.1 h).symm⟩
  next token ht =>
    obtain ⟨s, hs, h⟩ := bind_eq_ok.1 h
    exact .inr (.inl ⟨n, token, s, hstands (by simp), hk, ht, hs, (pure_eq_ok.1 h).symm⟩)
  next =>
    obtain ⟨ss, hss, h⟩ := bind_eq_ok.1 h
    exact .inr (.inr (.inl ⟨n, ss, hstands (by simp), hk, hss, (pure_eq_ok.1 h).symm⟩))
  next => exact .inr (.inr (.inr (pure_eq_ok.1 h).symm))

/-- What a statement adds to the table is declared at one of its nodes. -/
theorem exists_declares (hst : statement ∈ d.root.children) {b : Declaration}
    (h : d.declaration statement = .ok b) (hs : s ∈ b.collected) :
    ∃ n token, d.Declares n token s := by
  obtain ⟨n, token, c, ms, hn, hk, ht, hc, hms, rfl⟩ | ⟨n, token, f, hn, hk, ht, hf, rfl⟩ |
    ⟨n, ss, hn, hk, hss, rfl⟩ | rfl := declaration_cases h
  · have hclass : d.Declares n token c := .classType hst hn hk ht hc
    rcases List.mem_cons.1 hs with rfl | hs
    · exact ⟨n, token, hclass⟩
    · obtain ⟨body, hb, member, hm, hs⟩ := (mem_methods hms).1 hs
      obtain ⟨f, token, hf, hkf, ht, hs⟩ := method?_eq_ok_some.1 hs
      exact ⟨f, token, .method hclass hk hb hm hf hkf ht hs⟩
  · cases List.mem_singleton.1 hs
    exact ⟨n, token, .function hst hn hk ht hf⟩
  · obtain ⟨child, hc, hs⟩ := (mem_of_filterMapM_eq_ok hss).1 hs
    obtain ⟨token, hkc, ht, hi, hs⟩ := assigned?_eq_ok_some.1 hs
    exact ⟨child, token, .assignment hst hn hk hc hkc ht hi hs⟩
  · simp [Declaration.collected] at hs

theorem mem_collected {t : SymbolTable} (ht : SymbolTable.ofDocument d = .ok t) :
    s ∈ t.collected ↔ ∃ statement ∈ d.root.children, ∃ b : Declaration,
      d.declaration statement = .ok b ∧ s ∈ b.collected := by
  obtain ⟨bs, hbs, h⟩ := bind_eq_ok.1 ht
  cases pure_eq_ok.1 h
  simp only [SymbolTable.collected, List.mem_flatMap, mem_of_mapM_eq_ok hbs]
  constructor
  · intro h
    obtain ⟨b, ⟨statement, hst, hb⟩, hs⟩ := h
    exact ⟨statement, hst, b, hb, hs⟩
  · intro h
    obtain ⟨statement, hst, b, hb, hs⟩ := h
    exact ⟨b, ⟨statement, hst, hb⟩, hs⟩

theorem declares_of_collected {t : SymbolTable} (ht : SymbolTable.ofDocument d = .ok t)
    (hs : s ∈ t.collected) : ∃ n token, d.Declares n token s := by
  obtain ⟨statement, hst, b, hb, hs⟩ := (mem_collected ht).1 hs
  exact exists_declares hst hb hs

/-- A table is complete: each statement of the module has been read. -/
theorem declaration_of_table {t : SymbolTable} (ht : SymbolTable.ofDocument d = .ok t)
    (hst : statement ∈ d.root.children) : ∃ b, d.declaration statement = .ok b := by
  obtain ⟨bs, hbs, -⟩ := bind_eq_ok.1 ht
  obtain ⟨b, -, hb⟩ := exists_of_mapM_eq_ok hbs hst
  exact ⟨b, hb⟩

theorem Declares.class_statement (h : d.Declares n token s)
    (hk : d.kind n = .ok .classDefinition) :
    ∃ statement ∈ d.root.children, d.StandsFor statement n ∧
      n.field? "name" = some token ∧ d.symbol .classType token = .ok s := by
  cases h with
  | classType hst hn _ ht hs => exact ⟨_, hst, hn, ht, hs⟩
  | function _ _ hk' => rw [hk] at hk'; cases hk'
  | method _ _ _ _ _ hk' => rw [hk] at hk'; cases hk'
  | assignment _ _ _ _ hk' => rw [hk] at hk'; cases hk'

theorem Declares.mem_collected {t : SymbolTable} (h : d.Declares n token s)
    (ht : SymbolTable.ofDocument d = .ok t) : s ∈ t.collected := by
  rw [Document.mem_collected ht]
  cases h with
  | classType hst hn hk htok hs =>
    obtain ⟨b, hb⟩ := declaration_of_table ht hst
    refine ⟨_, hst, b, hb, ?_⟩
    rw [declaration_class hn hk htok, hs, ok_bind] at hb
    obtain ⟨ms, -, hb⟩ := bind_eq_ok.1 hb
    cases pure_eq_ok.1 hb
    exact List.mem_cons_self
  | function hst hn hk htok hs =>
    obtain ⟨b, hb⟩ := declaration_of_table ht hst
    refine ⟨_, hst, b, hb, ?_⟩
    rw [declaration_function hn hk htok, hs] at hb
    cases pure_eq_ok.1 hb
    exact List.mem_cons_self
  | method hc hkc hb hm hn hk htok hs =>
    obtain ⟨statement, hst, hnc, htc, hsc⟩ := hc.class_statement hkc
    obtain ⟨b, hdecl⟩ := declaration_of_table ht hst
    refine ⟨_, hst, b, hdecl, ?_⟩
    rw [declaration_class hnc hkc htc, hsc, ok_bind] at hdecl
    obtain ⟨ms, hms, hdecl⟩ := bind_eq_ok.1 hdecl
    cases pure_eq_ok.1 hdecl
    refine List.mem_cons_of_mem _ ((mem_methods hms).2 ⟨_, hb, _, hm, ?_⟩)
    exact method?_eq_ok_some.2 ⟨n, token, hn, hk, htok, hs⟩
  | assignment hst hn' hk' hn hk htok hi hs =>
    obtain ⟨b, hb⟩ := declaration_of_table ht hst
    refine ⟨_, hst, b, hb, ?_⟩
    rw [declaration_assignments hn' hk'] at hb
    obtain ⟨ss, hss, hb⟩ := bind_eq_ok.1 hb
    cases pure_eq_ok.1 hb
    exact (mem_of_filterMapM_eq_ok hss).2 ⟨n, hn, assigned?_eq_ok_some.2 ⟨token, hk, htok, hi, hs⟩⟩

/-- All declarations stand in the statements of the module. -/
theorem Declares.inStatement (h : d.Declares n token s) : d.InStatement n := by
  induction h with
  | classType hst hn => exact (inStatement_of_mem hst).definition hn
  | function hst hn => exact (inStatement_of_mem hst).definition hn
  | method _ _ hb hst hn _ _ _ ih => exact ((ih.field hb).child hst).definition hn
  | assignment hst hn' _ hn => exact ((inStatement_of_mem hst).definition hn').child hn

theorem Declares.has (h : d.Declares n token s) : d.Has n :=
  h.inStatement.has

theorem Declares.token_mem (h : d.Declares n token s) : token ∈ n.children := by
  cases h with
  | classType _ _ _ ht => exact Node.mem_children_of_field? ht
  | function _ _ _ ht => exact Node.mem_children_of_field? ht
  | method _ _ _ _ _ _ ht => exact Node.mem_children_of_field? ht
  | assignment _ _ _ _ _ ht => exact Node.mem_children_of_field? ht

/-- The symbol is made of the token, and of a class exactly where the node is one. -/
theorem Declares.exists_role (h : d.Declares n token s) :
    ∃ role : SymbolKind, d.symbol role token = .ok s ∧ role ≠ .builtin ∧
      (role = .classType ↔ d.kind n = .ok .classDefinition) := by
  cases h with
  | classType _ _ hk _ hs => exact ⟨_, hs, by simp, by simp [hk]⟩
  | function _ _ hk _ hs => exact ⟨_, hs, by simp, by simp [hk]⟩
  | method _ _ _ _ _ hk _ hs => exact ⟨_, hs, by simp, by simp [hk]⟩
  | assignment _ _ _ _ hk _ _ hs => exact ⟨_, hs, by simp, by simp [hk]⟩

theorem location_of_symbol {role : SymbolKind} (h : d.symbol role token = .ok s) :
    s.location = some (d.lines token) := by
  obtain ⟨name, -, rfl⟩ := symbol_eq_ok.1 h
  rfl

theorem kind_of_symbol {role : SymbolKind} (h : d.symbol role token = .ok s) : s.kind = role := by
  obtain ⟨name, -, rfl⟩ := symbol_eq_ok.1 h
  rfl

theorem Declares.location_eq (h : d.Declares n token s) : s.location = some (d.lines token) := by
  obtain ⟨role, hs, -⟩ := h.exists_role
  exact location_of_symbol hs

/-- Where a symbol leads to is a node of the document. -/
theorem has_of_locate? (h : d.locate? s = some n) : d.Has n := by
  obtain ⟨range, -, h⟩ := Option.bind_eq_some_iff.1 h
  obtain ⟨start, -, h⟩ := Option.bind_eq_some_iff.1 h
  obtain ⟨stop, -, h⟩ := Option.bind_eq_some_iff.1 h
  obtain ⟨m, hm, h⟩ := Option.bind_eq_some_iff.1 h
  have hm : d.Has m := by
    rw [Node.cover?, Option.ite_none_right_eq_some] at hm
    obtain ⟨-, hm⟩ := hm
    cases hm
    exact coverFrom_below start stop [] d.tree
  split at h
  · cases h
    cases hp : m.parent? with
    | none => exact hm
    | some l => exact hm.parent hp
  · cases h
    exact hm

/-- The lines of a token of the source lead back to the node directly above it. -/
theorem Nested.locate? (hd : d.Nested) (ht : d.Has token) (htok : token.IsToken)
    (hstart : 0 ≤ token.start) (hstop : token.stop ≤ d.source.size)
    (hp : token.parent? = some n) (hs : s.location = some (d.lines token)) :
    d.locate? s = some n := by
  have hlt := htok.2
  have hleft : d.offset? (d.position token.start) = some token.start :=
    offset?_position hstart (by omega)
  have hright : d.offset? (d.position token.stop) = some token.stop :=
    offset?_position (by omega) hstop
  simp [Document.locate?, hs, lines, hleft, hright, cover?_token hd ht htok, htok.1, hp]

theorem locate?_token (hd : d.WellFormed) (ht : d.Has token) (htok : token.IsToken)
    (hp : token.parent? = some n) (hs : s.location = some (d.lines token)) :
    d.locate? s = some n :=
  hd.isNested.locate? ht htok (hd.start_nonneg _ ht) (hd.stop_le_size _ ht) hp hs

theorem Declares.locate? (h : d.Declares n token s) (hd : d.WellFormed) (htok : token.IsToken) :
    d.locate? s = some n :=
  locate?_token hd (h.has.child h.token_mem) htok (Node.parent?_of_mem_children h.token_mem)
    h.location_eq

/-- Every symbol of the table has a declaring node, and every declaring node a symbol; from a
symbol whose name is a token the way leads back to the node that declares it. -/
theorem locate?_collected {t : SymbolTable} (hd : d.WellFormed)
    (ht : SymbolTable.ofDocument d = .ok t) :
    (∀ s, s ∈ t.collected ↔ ∃ n token, d.Declares n token s) ∧
      ∀ n token s, d.Declares n token s →
        token.parent? = some n ∧ (token.IsToken → d.locate? s = some n) := by
  constructor
  · intro s
    constructor
    · exact declares_of_collected ht
    · intro h
      obtain ⟨n, token, h⟩ := h
      exact h.mem_collected ht
  · intro n token s h
    exact ⟨Node.parent?_of_mem_children h.token_mem, h.locate? hd⟩

/-- A timer service with two methods of one name. -/
def twoTicks : Document where
  path := "ticks.py"
  source := ("@timer_service(schedule='* * * * * *')\nclass T:\n" ++
    " @on_tick\n def a(): 0\n @on_tick\n def a(): 0\n").toUTF8
  tree :=
    .node "module" 0 92 "" [
      .node "decorated_definition" 0 91 "" [
        .node "decorator" 0 38 "" [
          .node "@" 0 1 "" [],
          .node "call" 1 38 "" [
            .node "identifier" 1 14 "function" [],
            .node "argument_list" 14 38 "arguments" [
              .node "(" 14 15 "" [],
              .node "keyword_argument" 15 37 "" [
                .node "identifier" 15 23 "name" [],
                .node "=" 23 24 "" [],
                .node "string" 24 37 "value" []],
              .node ")" 37 38 "" []]]],
        .node "class_definition" 39 91 "definition" [
          .node "class" 39 44 "" [],
          .node "identifier" 45 46 "name" [],
          .node ":" 46 47 "" [],
          .node "block" 49 91 "body" [
            .node "decorated_definition" 49 69 "" [
              .node "decorator" 49 57 "" [
                .node "@" 49 50 "" [],
                .node "identifier" 50 57 "" []],
              .node "function_definition" 59 69 "definition" [
                .node "def" 59 62 "" [],
                .node "identifier" 63 64 "name" [],
                .node "parameters" 64 66 "parameters" [
                  .node "(" 64 65 "" [],
                  .node ")" 65 66 "" []],
                .node ":" 66 67 "" [],
                .node "block" 68 69 "body" [
                  .node "expression_statement" 68 69 "" [
                    .node "integer" 68 69 "" []]]]],
            .node "decorated_definition" 71 91 "" [
              .node "decorator" 71 79 "" [
                .node "@" 71 72 "" [],
                .node "identifier" 72 79 "" []],
              .node "function_definition" 81 91 "definition" [
                .node "def" 81 84 "" [],
                .node "identifier" 85 86 "name" [],
                .node "parameters" 86 88 "parameters" [
                  .node "(" 86 87 "" [],
                  .node ")" 87 88 "" []],
                .node ":" 88 89 "" [],
                .node "block" 90 91 "body" [
                  .node "expression_statement" 90 91 "" [
                    .node "integer" 90 91 "" []]]]]]]]]

set_option maxRecDepth 100000 in
theorem wellFormed_twoTicks : twoTicks.WellFormed := by decide +kernel

set_option maxRecDepth 100000 in
theorem name_twoTicks : ∀ n, twoTicks.Has n →
    (∀ token ∈ n.field? "name", token.IsToken) ∧ ∀ token ∈ n.field? "left", token.IsToken := by
  decide +kernel

/-- The class and both methods of the service are found again. -/
theorem locate?_twoTicks : twoTicks.WellFormed ∧
    ∃ t, SymbolTable.ofDocument twoTicks = .ok t ∧ t.collected.map Symbol.name = ["T", "a", "a"] ∧
      ∀ s ∈ t.collected, ∃ n token, twoTicks.Declares n token s ∧ token.IsToken ∧
        token.parent? = some n ∧ twoTicks.locate? s = some n := by
  have hnames : (SymbolTable.ofDocument twoTicks).toOption.map
      (fun t => t.collected.map Symbol.name) = some ["T", "a", "a"] := by decide +kernel
  refine ⟨wellFormed_twoTicks, ?_⟩
  cases ht : SymbolTable.ofDocument twoTicks with
  | error f =>
    rw [ht] at hnames
    cases hnames
  | ok t =>
    rw [ht] at hnames
    refine ⟨t, rfl, Option.some.inj hnames, fun s hs => ?_⟩
    obtain ⟨hdecl, hloc⟩ := locate?_collected wellFormed_twoTicks ht
    obtain ⟨n, token, h⟩ := (hdecl s).1 hs
    have hname := name_twoTicks n h.has
    have htok : token.IsToken := by
      cases h with
      | classType _ _ _ hf => exact hname.1 token hf
      | function _ _ _ hf => exact hname.1 token hf
      | method _ _ _ _ _ _ hf => exact hname.1 token hf
      | assignment _ _ _ _ _ hf => exact hname.2 token hf
    exact ⟨n, token, h, htok, (hloc n token s h).1, (hloc n token s h).2 htok⟩

end Document

end AppManifest
