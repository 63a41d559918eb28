import AppManifest.Proofs.Syntax.Declaration

namespace AppManifest
set_option autoImplicit true

namespace Document

/-- Every class and every function of a document is named by a token. -/
def NamesAreTokens (d : Document) : Prop :=
  ∀ n, d.Has n → d.kind n = .ok .classDefinition ∨ d.kind n = .ok .functionDefinition →
    ∃ token ∈ n.field? "name", token.IsToken

/-- Every symbol of the module is declared by a token. -/
def DeclaresByTokens (d : Document) : Prop :=
  ∀ n token s, d.Declares n token s → token.IsToken

/-- A statement of the module, decorated or not, defines a class, which a token names. -/
def IsModuleClass (d : Document) (n token : Node) : Prop :=
  ∃ statement ∈ d.root.children, d.StandsFor statement n ∧
    d.kind n = .ok .classDefinition ∧ n.field? "name" = some token

/-- The name token of a definition has this text. -/
def IsNamed (d : Document) (n : Node) (name : String) : Prop :=
  ∃ token, n.field? "name" = some token ∧ d.text token = .ok name

variable {d : Document} {n token statement : Node} {t : SymbolTable}

theorem NamesAreTokens.exists_name (hnames : d.NamesAreTokens) (hn : d.Has n)
    (hk : d.kind n = .ok .classDefinition ∨ d.kind n = .ok .functionDefinition) :
    ∃ token, n.field? "name" = some token := by
  obtain ⟨token, hf, -⟩ := hnames n hn hk
  exact ⟨token, hf⟩

theorem NamesAreTokens.isToken (hnames : d.NamesAreTokens) (hn : d.Has n)
    (hk : d.kind n = .ok .classDefinition ∨ d.kind n = .ok .functionDefinition)
    (hf : n.field? "name" = some token) : token.IsToken := by
  obtain ⟨_, hm, htok⟩ := hnames n hn hk
  rw [Option.mem_def, hf, Option.some.injEq] at hm
  exact hm ▸ htok

theorem NamesAreTokens.class_token (hnames : d.NamesAreTokens) (h : d.Declares n token s)
    (hk : d.kind n = .ok .classDefinition) : token.IsToken := by
  obtain ⟨_, _, _, hf, -⟩ := h.class_statement hk
  exact hnames.isToken h.has (.inl hk) hf

/-- An entry of the table for a class comes from a class of the module with its own methods. -/
theorem class_of_entry (ht : SymbolTable.ofDocument d = .ok t)
    (h : .classType s ms ∈ t.declarations) :
    ∃ n token, d.Declares n token s ∧ d.kind n = .ok .classDefinition ∧
      n.field? "name" = some token ∧ d.methods n = .ok ms := by
  obtain ⟨bs, hbs, hb⟩ := bind_eq_ok.1 ht
  cases pure_eq_ok.1 hb
  obtain ⟨statement, hst, hdecl⟩ := (mem_of_mapM_eq_ok hbs).1 h
  obtain ⟨n, token, s, ms, hn, hk, htok, hs, hms, hb⟩ | ⟨_, _, _, -, -, -, -, hb⟩ |
    ⟨_, _, -, -, -, hb⟩ | hb := declaration_cases hdecl
  · cases hb
    exact ⟨n, token, .classType hst hn hk htok hs, hk, htok, hms⟩
  · cases hb
  · cases hb
  · cases hb

theorem entry_of_class (ht : SymbolTable.ofDocument d = .ok t) (hst : statement ∈ d.root.children)
    (hn : d.StandsFor statement n) (hk : d.kind n = .ok .classDefinition)
    (htok : n.field? "name" = some token) :
    ∃ s ms, d.symbol .classType token = .ok s ∧ .classType s ms ∈ t.declarations := by
  obtain ⟨bs, hbs, hb⟩ := bind_eq_ok.1 ht
  cases pure_eq_ok.1 hb
  obtain ⟨b, hb, hdecl⟩ := exists_of_mapM_eq_ok hbs hst
  rw [declaration_class hn hk htok] at hdecl
  obtain ⟨s, hs, hdecl⟩ := bind_eq_ok.1 hdecl
  obtain ⟨ms, -, hdecl⟩ := bind_eq_ok.1 hdecl
  cases pure_eq_ok.1 hdecl
  exact ⟨s, ms, hs, hb⟩

theorem declares_class (ht : SymbolTable.ofDocument d = .ok t) (h : d.IsModuleClass n token) :
    ∃ s, d.Declares n token s := by
  obtain ⟨statement, hst, hn, hk, htok⟩ := h
  obtain ⟨s, _, hs, -⟩ := entry_of_class ht hst hn hk htok
  exact ⟨s, .classType hst hn hk htok hs⟩

/-- Two declarations with the same name lines are the same. -/
theorem Declares.unique (h : d.Declares n token s) (h' : d.Declares n' token' s')
    (hd : d.WellFormed) (htok : token.IsToken) (htok' : token'.IsToken)
    (hs : s.location = s'.location) : n = n' := by
  have hl' := locate?_token (s := s) hd (h'.has.child h'.token_mem) htok'
    (Node.parent?_of_mem_children h'.token_mem) (hs.trans h'.location_eq)
  exact Option.some.inj ((h.locate? hd htok).symm.trans hl')

/-- A kind that does not hang on the text is that of the type. -/
theorem ofType_of_kind (h : d.kind n = .ok k) (hs : k ≠ .stringLiteral ∧ k ≠ .templateString)
    (hi : k ≠ .decimalIntegerLiteral ∧ k ≠ .other) : SyntaxKind.ofType n.type = k := by
  obtain ⟨t, -, h⟩ := bind_eq_ok.1 h
  have hk := pure_eq_ok.1 h
  unfold classify at hk
  split at hk
  next =>
    split at hk
    next => exact absurd hk.symm hs.1
    next => exact absurd hk.symm hs.2
  next =>
    split at hk
    next =>
      split at hk
      next => exact absurd hk.symm hi.1
      next => exact absurd hk.symm hi.2
    next => exact hk

set_option maxRecDepth 100000 in
theorem namesAreTokens_twoTicks : twoTicks.NamesAreTokens := by
  have hnames : ∀ n, twoTicks.Has n → SyntaxKind.ofType n.type = .classDefinition ∨
      SyntaxKind.ofType n.type = .functionDefinition →
        ∃ token ∈ n.field? "name", token.IsToken := by decide +kernel
  intro n hn hk
  refine hnames n hn ?_
  rcases hk with hk | hk
  · exact .inl (ofType_of_kind hk (by simp) (by simp))
  · exact .inr (ofType_of_kind hk (by simp) (by simp))

/-- Symbols are declared by the fields that name a definition or the target of an assignment. -/
theorem declaresByTokens_of_fields (h : ∀ n, d.Has n →
      (∀ token ∈ n.field? "name", token.IsToken) ∧ ∀ token ∈ n.field? "left", token.IsToken) :
    d.DeclaresByTokens := by
  intro n token s hdeclares
  have hn := h n hdeclares.has
  cases hdeclares with
  | classType _ _ _ hf => exact hn.1 token hf
  | function _ _ _ hf => exact hn.1 token hf
  | method _ _ _ _ _ _ hf => exact hn.1 token hf
  | assignment _ _ _ _ _ hf => exact hn.2 token hf

end Document

namespace SymbolTable

variable {d : Document} {t : SymbolTable} {n token statement : Node}

/-- A name that is looked up is in the table, unless it is built in. -/
theorem lookup?_mem (h : t.lookup? name = some s) : s ∈ t.collected ∨ s.location = none := by
  unfold lookup? at h
  split at h
  next s' hfound =>
    cases h
    have hmem := List.mem_reverse.1 (List.mem_of_find?_eq_some hfound)
    obtain ⟨b, hb, hs⟩ := List.mem_flatMap.1 hmem
    refine .inl (List.mem_flatMap.2 ⟨b, hb, ?_⟩)
    cases b with
    | classType symbol methods =>
      cases List.mem_singleton.1 hs
      exact List.mem_cons_self
    | function symbol => exact hs
    | bindings symbols => exact hs
  next =>
    split at h
    · cases h
      exact .inr rfl
    · cases h

theorem classAt?_mem (h : t.classAt? range = some s) :
    s.location = some range ∧ ∃ ms, .classType s ms ∈ t.declarations := by
  obtain ⟨b, hb, hs⟩ := List.exists_of_findSome?_eq_some h
  cases b with
  | classType symbol ms =>
    rw [Declaration.classAt?, Option.ite_none_right_eq_some] at hs
    obtain ⟨hl, hs⟩ := hs
    cases hs
    exact ⟨hl, ms, List.mem_reverse.1 hb⟩
  | function symbol => cases hs
  | bindings symbols => cases hs

theorem exists_classAt? (h : .classType s ms ∈ t.declarations) (hs : s.location = some range) :
    ∃ s', t.classAt? range = some s' := by
  rw [← Option.isSome_iff_exists, classAt?, List.findSome?_isSome_iff]
  exact ⟨_, List.mem_reverse.2 h, by rw [Declaration.classAt?, if_pos hs, Option.isSome_some]⟩

theorem members_mem (h : .classType s ms ∈ t.declarations) :
    .classType s (t.members s) ∈ t.declarations := by
  rw [members]
  cases hfound : t.declarations.reverse.findSome? (·.methodsOf? s) with
  | none =>
    have hnone := List.findSome?_eq_none_iff.1 hfound _ (List.mem_reverse.2 h)
    rw [Declaration.methodsOf?, if_pos rfl] at hnone
    cases hnone
  | some found =>
    obtain ⟨b, hb, hm⟩ := List.exists_of_findSome?_eq_some hfound
    cases b with
    | classType symbol ms =>
      rw [Declaration.methodsOf?, Option.ite_none_right_eq_some] at hm
      obtain ⟨rfl, hm⟩ := hm
      cases hm
      exact List.mem_reverse.1 hb
    | function symbol => cases hm
    | bindings symbols => cases hm

/-- The members of a class are the methods in a body of one. -/
theorem method_of_members (ht : SymbolTable.ofDocument d = .ok t)
    (h : t.classAt? range = some s) (hm : symbol ∈ t.members s) :
    ∃ n token body, d.Declares n token s ∧ d.kind n = .ok .classDefinition ∧
      n.field? "body" = some body ∧
      ∃ statement ∈ body.children, d.method? statement = .ok (some symbol) := by
  obtain ⟨-, ms, hentry⟩ := classAt?_mem h
  obtain ⟨n, token, hn, hk, -, hms⟩ := Document.class_of_entry ht (members_mem hentry)
  obtain ⟨body, hb, hmethod⟩ := (Document.mem_methods hms).1 hm
  exact ⟨n, token, body, hn, hk, hb, hmethod⟩

theorem members_subset (h : t.classAt? range = some s) (hm : symbol ∈ t.members s) :
    symbol ∈ t.collected := by
  obtain ⟨-, ms, hentry⟩ := classAt?_mem h
  exact List.mem_flatMap.2 ⟨_, members_mem hentry, List.mem_cons_of_mem _ hm⟩

/-- From the name of a class the table leads to the class and its methods, where no other class of
the module has the bytes of that name. -/
theorem members_of_unique (ht : SymbolTable.ofDocument d = .ok t) (h : d.IsModuleClass n token)
    (hunique : ∀ n' token', d.IsModuleClass n' token' →
      token'.start = token.start ∧ token'.stop = token.stop → n' = n) :
    ∃ s, d.symbol .classType token = .ok s ∧ t.classAt? (d.lines token) = some s ∧
      d.methods n = .ok (t.members s) := by
  obtain ⟨statement, hst, hn, hk, htok⟩ := h
  obtain ⟨own, ms, hown, hentry⟩ := Document.entry_of_class ht hst hn hk htok
  obtain ⟨s, hs⟩ := exists_classAt? hentry (Document.location_of_symbol hown)
  obtain ⟨hlines, _, hfound⟩ := classAt?_mem hs
  obtain ⟨n', token', hdecl, hk', htok', hms⟩ := Document.class_of_entry ht (members_mem hfound)
  obtain ⟨statement', hst', hn', -, hs'⟩ := hdecl.class_statement hk'
  -- a class with the same lines has the same bytes, so it is this one
  have hsame := Option.some.inj ((Document.location_of_symbol hs').symm.trans hlines)
  have heq := hunique n' token' ⟨statement', hst', hn', hk', htok'⟩ (Document.range_of_lines hsame)
  subst heq
  cases htok.symm.trans htok'
  exact ⟨s, hs', hs, hms⟩

/-- From the name of a class of the module the table leads to the methods of that class, since no
two classes of a well-formed document share a name token. -/
theorem members_classAt? (hd : d.WellFormed)
    (hnames : ∀ n token s, d.Declares n token s → d.kind n = .ok .classDefinition → token.IsToken)
    (ht : SymbolTable.ofDocument d = .ok t) (hst : statement ∈ d.root.children)
    (hn : d.StandsFor statement n) (hk : d.kind n = .ok .classDefinition)
    (hf : n.field? "name" = some token) :
    ∃ s, t.classAt? (d.lines token) = some s ∧ d.methods n = .ok (t.members s) := by
  have hclass : d.IsModuleClass n token := ⟨statement, hst, hn, hk, hf⟩
  obtain ⟨s, h⟩ := Document.declares_class ht hclass
  obtain ⟨s, -, hs, hms⟩ := members_of_unique ht hclass fun n' token' hclass' hsame => by
    obtain ⟨s', h'⟩ := Document.declares_class ht hclass'
    obtain ⟨_, -, -, hk', -⟩ := hclass'
    refine h'.unique h hd (hnames _ _ _ h' hk') (hnames _ _ _ h hk) ?_
    rw [h'.location_eq, h.location_eq, Document.lines, Document.lines, hsame.1, hsame.2]
  exact ⟨s, hs, hms⟩

end SymbolTable

end AppManifest
