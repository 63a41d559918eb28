import AppManifest.Proofs.Syntax.Members
import AppManifest.Proofs.Syntax.Part

namespace AppManifest
set_option autoImplicit true

/-! What a name and a class of a module lead to: the last binding of the name, and the class itself,
whatever is bound later. -/

/-- The last element of a list for which something holds. -/
def IsLast (p : α → Prop) (a : α) (l : List α) : Prop :=
  ∃ before after, l = before ++ a :: after ∧ p a ∧ ∀ b ∈ after, ¬p b

section

variable {p : α → Prop} {l : List α}

theorem not_isLast_nil : ¬IsLast p a [] := by
  rintro ⟨before, after, h, -⟩
  cases before <;> cases h

theorem isLast_cons : IsLast p a (x :: l) ↔ IsLast p a l ∨ a = x ∧ p x ∧ ∀ b ∈ l, ¬p b := by
  constructor
  · rintro ⟨before, after, h, ha, hafter⟩
    cases before with
    | nil =>
      cases h
      exact .inr ⟨rfl, ha, hafter⟩
    | cons y before =>
      cases h
      exact .inl ⟨before, after, rfl, ha, hafter⟩
  · rintro (⟨before, after, rfl, ha, hafter⟩ | ⟨rfl, ha, hafter⟩)
    · exact ⟨x :: before, after, rfl, ha, hafter⟩
    · exact ⟨[], l, rfl, ha, hafter⟩

end

theorem findSome?_reverse_eq_none {f : β → Option γ} {P : α → γ → Prop} {xs : List α}
    {ys : List β} (h : List.Forall₂ (fun x y => ∀ c, f y = some c ↔ P x c) xs ys) :
    ys.reverse.findSome? f = none ↔ ∀ x ∈ xs, ¬∃ c, P x c := by
  induction h with
  | nil => simp
  | @cons x y xs ys hxy _ ih =>
    have hnone : f y = none ↔ ¬∃ c, P x c := by
      simp only [Option.eq_none_iff_forall_ne_some, ne_eq, hxy, not_exists]
    rw [List.reverse_cons, List.findSome?_append, Option.or_eq_none_iff, ih, List.forall_mem_cons,
      List.findSome?_singleton, hnone, and_comm]

/-- What is found from the end of a list comes from the last element that gives anything. -/
theorem findSome?_reverse_eq_some {f : β → Option γ} {P : α → γ → Prop} {xs : List α}
    {ys : List β} (h : List.Forall₂ (fun x y => ∀ c, f y = some c ↔ P x c) xs ys) :
    ys.reverse.findSome? f = some c ↔ ∃ x, IsLast (fun x => ∃ c, P x c) x xs ∧ P x c := by
  induction h with
  | nil => simp [not_isLast_nil]
  | @cons x y xs ys hxy hrest ih =>
    rw [List.reverse_cons, List.findSome?_append, List.findSome?_singleton, Option.or_eq_some_iff,
      ih, findSome?_reverse_eq_none hrest, hxy]
    simp only [isLast_cons, or_and_right, exists_or]
    refine or_congr_right ?_
    constructor
    · rintro ⟨hnone, hc⟩
      exact ⟨x, ⟨rfl, ⟨c, hc⟩, hnone⟩, hc⟩
    · rintro ⟨_, ⟨rfl, -, hnone⟩, hc⟩
      exact ⟨hnone, hc⟩

theorem find?_reduceOption (p : α → Bool) (os : List (Option α)) :
    os.reduceOption.reverse.find? p = os.reverse.findSome? (Option.filter p) := by
  induction os with
  | nil => rfl
  | cons o os ih =>
    rw [List.reverse_cons, List.findSome?_append, List.findSome?_singleton, ← ih]
    cases o with
    | none => simp
    | some a => simp [Option.filter]

namespace Document

/-- A node assigns to a name, which makes it a variable. -/
def Assigns (d : Document) (name : String) (n : Node) (s : Symbol) : Prop :=
  ∃ token, d.kind n = .ok .assignment ∧ n.field? "left" = some token ∧
    d.kind token = .ok .identifier ∧ d.symbol .variableName token = .ok s ∧ s.name = name

/-- A statement of a module, decorated or not, binds a name: a class or a function binds its own,
and an expression statement the targets of its assignments, the last of which counts. -/
inductive Binds (d : Document) (name : String) (statement : Node) (s : Symbol) : Prop
  | classType (hn : d.StandsFor statement n) (hk : d.kind n = .ok .classDefinition)
      (ht : n.field? "name" = some token) (hs : d.symbol .classType token = .ok s)
      (hname : s.name = name)
  | function (hn : d.StandsFor statement n) (hk : d.kind n = .ok .functionDefinition)
      (ht : n.field? "name" = some token) (hs : d.symbol .function token = .ok s)
      (hname : s.name = name)
  | assignment (hn : d.StandsFor statement n) (hk : d.kind n = .ok .expressionStatement)
      (hlast : IsLast (fun c => ∃ s, d.Assigns name c s) child n.children)
      (hs : d.Assigns name child s)

/-- The module has no statement that binds a name. -/
def IsUnbound (d : Document) (name : String) : Prop :=
  ∀ statement ∈ d.root.children, ¬∃ s, d.Binds name statement s

/-- A statement of a class body, decorated or not, defines a method. -/
def DefinesMethod (d : Document) (statement : Node) (s : Symbol) : Prop :=
  ∃ n token, d.StandsFor statement n ∧ d.kind n = .ok .functionDefinition ∧
    n.field? "name" = some token ∧ d.symbol .method token = .ok s

/-- The methods that some statements define one after the other. -/
inductive DefineMethods (d : Document) : List Node → List Symbol → Prop
  | nil : DefineMethods d [] []
  | method (h : d.DefinesMethod statement s) (hrest : DefineMethods d statements ss) :
      DefineMethods d (statement :: statements) (s :: ss)
  | other (h : ∀ s, ¬d.DefinesMethod statement s) (hrest : DefineMethods d statements ss) :
      DefineMethods d (statement :: statements) ss

/-- The methods of a class, of which one without a body has none. -/
def HasMethods (d : Document) (n : Node) (ss : List Symbol) : Prop :=
  match n.field? "body" with
  | some body => d.DefineMethods body.children ss
  | none => ss = []

variable {d : Document} {n token statement : Node} {name : String} {s : Symbol}

theorem filter_assigned (h : d.assigned? n = .ok o) :
    Option.filter (·.name = name) o = some s ↔ d.Assigns name n s := by
  rw [Option.filter_eq_some_iff, decide_eq_true_eq]
  constructor
  · rintro ⟨rfl, hname⟩
    obtain ⟨token, hk, ht, hi, hs⟩ := assigned?_eq_ok_some.1 h
    exact ⟨token, hk, ht, hi, hs, hname⟩
  · rintro ⟨token, hk, ht, hi, hs, hname⟩
    have hassigned := assigned?_eq_ok_some.2 ⟨token, hk, ht, hi, hs⟩
    exact ⟨Except.ok.inj (h.symm.trans hassigned), hname⟩

/-- Of the assignments of an expression statement to one name the last one counts. -/
theorem find?_assigned {cs : List Node} (h : cs.filterMapM d.assigned? = .ok ss) :
    ss.reverse.find? (·.name = name) = some s ↔
      ∃ child, IsLast (fun c => ∃ s, d.Assigns name c s) child cs ∧ d.Assigns name child s := by
  obtain ⟨os, hos, rfl⟩ := filterMapM_eq_ok.1 h
  rw [find?_reduceOption]
  exact findSome?_reverse_eq_some (hos.imp fun c o ho s => filter_assigned ho)

/-- What a statement adds to the table under a name is what it binds the name to. -/
theorem find?_symbols {b : Declaration} (h : d.declaration statement = .ok b) :
    b.symbols.reverse.find? (·.name = name) = some s ↔ d.Binds name statement s := by
  have hsingle {c : Symbol} : [c].reverse.find? (·.name = name) = some s ↔
      c = s ∧ s.name = name := by
    rw [List.reverse_singleton, List.find?_singleton, Option.ite_none_right_eq_some,
      Option.some.injEq, decide_eq_true_eq, and_comm]
    exact and_congr_right fun hc => hc ▸ Iff.rfl
  constructor
  · intro hs
    obtain ⟨n, token, c, ms, hn, hk, ht, hc, -, rfl⟩ | ⟨n, token, f, hn, hk, ht, hf, rfl⟩ |
      ⟨n, ss, hn, hk, hss, rfl⟩ | rfl := declaration_cases h
    · obtain ⟨rfl, hname⟩ := hsingle.1 hs
      exact .classType hn hk ht hc hname
    · obtain ⟨rfl, hname⟩ := hsingle.1 hs
      exact .function hn hk ht hf hname
    · obtain ⟨child, hlast, hchild⟩ := (find?_assigned hss).1 hs
      exact .assignment hn hk hlast hchild
    · cases hs
  · intro hs
    cases hs with
    | classType hn hk ht hs hname =>
      rw [declaration_class hn hk ht, hs, ok_bind] at h
      obtain ⟨ms, -, h⟩ := bind_eq_ok.1 h
      cases pure_eq_ok.1 h
      exact hsingle.2 ⟨rfl, hname⟩
    | function hn hk ht hs hname =>
      rw [declaration_function hn hk ht, hs] at h
      cases pure_eq_ok.1 h
      exact hsingle.2 ⟨rfl, hname⟩
    | assignment hn hk hlast hs =>
      rw [declaration_assignments hn hk] at h
      obtain ⟨ss, hss, h⟩ := bind_eq_ok.1 h
      cases pure_eq_ok.1 h
      exact (find?_assigned hss).2 ⟨_, hlast, hs⟩

theorem defineMethods_of_filterMapM {statements : List Node}
    (h : statements.filterMapM d.method? = .ok ss) : d.DefineMethods statements ss := by
  induction statements generalizing ss with
  | nil =>
    cases pure_eq_ok.1 h
    exact .nil
  | cons statement statements ih =>
    obtain ⟨o, rest, ho, hrest, rfl⟩ := filterMapM_cons_eq_ok.1 h
    cases o with
    | none =>
      refine .other (fun s hs => ?_) (ih hrest)
      cases ho.symm.trans (method?_eq_ok_some.2 hs)
    | some s => exact .method (method?_eq_ok_some.1 ho) (ih hrest)

theorem hasMethods_of_methods (h : d.methods n = .ok ss) : d.HasMethods n ss := by
  unfold methods at h
  unfold HasMethods
  split at h
  next hb =>
    rw [hb]
    exact (pure_eq_ok.1 h).symm
  next body hb =>
    rw [hb]
    exact defineMethods_of_filterMapM h

end Document

namespace SymbolTable

variable {d : Document} {t : SymbolTable} {name : String} {s : Symbol}

/-- The bindings of a table under a name are those of the statements, one for each. -/
theorem forall₂_binds (ht : SymbolTable.ofDocument d = .ok t) (name : String) :
    List.Forall₂ (fun statement (b : Declaration) =>
      ∀ s, b.symbols.reverse.find? (·.name = name) = some s ↔ d.Binds name statement s)
      d.root.children t.declarations := by
  obtain ⟨bs, hbs, h⟩ := bind_eq_ok.1 ht
  cases pure_eq_ok.1 h
  exact (mapM_eq_ok.1 hbs).imp fun statement b hb s => Document.find?_symbols hb

theorem lookup?_eq (t : SymbolTable) (name : String) : t.lookup? name =
    (t.declarations.reverse.findSome? fun b => b.symbols.reverse.find? (·.name = name)).or
      (if name ∈ builtinNames then some ⟨name, .builtin, none⟩ else none) := by
  rw [lookup?, List.reverse_flatMap, List.find?_flatMap]
  split
  next s hs => exact (congrArg (Option.or · _) hs).symm
  next hs => exact (congrArg (Option.or · _) hs).symm

/-- A name leads to its last binding in the module, or else to the built-in of that name. -/
theorem lookup?_eq_some (ht : SymbolTable.ofDocument d = .ok t) : t.lookup? name = some s ↔
    (∃ statement, IsLast (fun n => ∃ s, d.Binds name n s) statement d.root.children ∧
      d.Binds name statement s) ∨
    d.IsUnbound name ∧ name ∈ builtinNames ∧ s = ⟨name, .builtin, none⟩ := by
  rw [lookup?_eq, Option.or_eq_some_iff, findSome?_reverse_eq_some (forall₂_binds ht name),
    findSome?_reverse_eq_none (forall₂_binds ht name), Option.ite_none_right_eq_some,
    Option.some.injEq, eq_comm (a := s)]
  rfl

theorem lookup?_eq_none (ht : SymbolTable.ofDocument d = .ok t) :
    t.lookup? name = none ↔ d.IsUnbound name ∧ name ∉ builtinNames := by
  rw [lookup?_eq, Option.or_eq_none_iff, findSome?_reverse_eq_none (forall₂_binds ht name),
    ite_eq_right_iff]
  exact and_congr_right fun _ => imp_congr_right fun _ => iff_of_false nofun id

end SymbolTable

namespace Document

/-- The table of a module whose texts decode. A name leads to what the last statement that binds it
makes of it, else to the built-in of that name, else to nothing. The name of a class that no other
class of the module shares its bytes with leads to the symbol of that class and to the methods that
its body defines, whatever later statements bind. -/
theorem exists_symbolTable (d : Document) (hd : ∀ n, d.Has n → ∃ text, d.text n = .ok text) :
    ∃ t, SymbolTable.ofDocument d = .ok t ∧
      (∀ name s, t.lookup? name = some s ↔
        (∃ statement, IsLast (fun n => ∃ s, d.Binds name n s) statement d.root.children ∧
          d.Binds name statement s) ∨
        d.IsUnbound name ∧ name ∈ builtinNames ∧ s = ⟨name, .builtin, none⟩) ∧
      (∀ name, t.lookup? name = none ↔ d.IsUnbound name ∧ name ∉ builtinNames) ∧
      ∀ n token, d.IsModuleClass n token →
        (∀ n' token', d.IsModuleClass n' token' →
          token'.start = token.start ∧ token'.stop = token.stop → n' = n) →
        ∃ name, d.text token = .ok name ∧
          t.classAt? (d.lines token) = some ⟨name, .classType, some (d.lines token)⟩ ∧
          d.HasMethods n (t.members ⟨name, .classType, some (d.lines token)⟩) := by
  have hpart : d.Part d.Has fun _ => False :=
    { child := fun n hn c hc => hn.child hc
      text := fun n hn => by
        obtain ⟨text, htext⟩ := hd n hn
        rw [htext]
        exact .pure trivial }
  obtain ⟨t, ht⟩ := (hpart.ofDocument fun c hc => d.has_root.child hc).exists_ok
  refine ⟨t, ht, fun name s => t.lookup?_eq_some ht, fun name => t.lookup?_eq_none ht, ?_⟩
  intro n token h hunique
  obtain ⟨s, hs, hfound, hms⟩ := t.members_of_unique ht h hunique
  obtain ⟨name, hname, rfl⟩ := symbol_eq_ok.1 hs
  exact ⟨name, hname, hfound, hasMethods_of_methods hms⟩

/-- A class with one method. -/
def oneMethod : Tree :=
  .node "class_definition" 3 23 "definition" [
    .node "class" 3 8 "" [],
    .node "identifier" 9 10 "name" [],
    .node ":" 10 11 "" [],
    .node "block" 13 23 "body" [
      .node "function_definition" 13 23 "" [
        .node "def" 13 16 "" [],
        .node "identifier" 17 18 "name" [],
        .node "parameters" 18 20 "parameters" [
          .node "(" 18 19 "" [],
          .node ")" 19 20 "" []],
        .node ":" 20 21 "" [],
        .node "block" 22 23 "body" [
          .node "expression_statement" 22 23 "" [
            .node "integer" 22 23 "" []]]]]]

def decoratedClass : Tree :=
  .node "decorated_definition" 0 23 "" [
    .node "decorator" 0 2 "" [
      .node "@" 0 1 "" [],
      .node "identifier" 1 2 "" []],
    oneMethod]

/-- A decorated class whose name is that of a second class, and after that of a variable. -/
def shadowed : Document where
  path := "shadowed.py"
  source := "@x\nclass T:\n def a(): 0\nclass T: 0\nT = 0\n".toUTF8
  tree :=
    .node "module" 0 41 "" [
      decoratedClass,
      .node "class_definition" 24 34 "" [
        .node "class" 24 29 "" [],
        .node "identifier" 30 31 "name" [],
        .node ":" 31 32 "" [],
        .node "block" 33 34 "body" [
          .node "expression_statement" 33 34 "" [
            .node "integer" 33 34 "" []]]],
      .node "expression_statement" 35 40 "" [
        .node "assignment" 35 40 "" [
          .node "identifier" 35 36 "left" [],
          .node "=" 37 38 "" [],
          .node "integer" 39 40 "right" []]]]

/-- The class that the first statement stands for. -/
def shadowedClass : Node :=
  (shadowed.root.down decoratedClass).down oneMethod

theorem kind_decoratedClass :
    shadowed.kind (shadowed.root.down decoratedClass) = .ok .decoratedDefinition := by
  decide +kernel

theorem unique_shadowed {token : Node} (h : shadowed.IsModuleClass n token)
    (hstart : token.start = 9) : n = shadowedClass := by
  obtain ⟨statement, hst, hn, -, htok⟩ := h
  have hbare : ∀ st ∈ shadowed.root.children.tail,
      SyntaxKind.ofType st.type ≠ .decoratedDefinition := by decide +kernel
  have hname : ∀ st ∈ shadowed.root.children.tail, ∀ token ∈ st.field? "name", token.start ≠ 9 := by
    decide +kernel
  rcases List.mem_cons.1 hst with rfl | hst
  · cases hn with
    | bare hk hne => exact absurd (Except.ok.inj (hk.symm.trans kind_decoratedClass)) hne
    | decorated _ hf => exact (Option.some.inj hf).symm
  · cases hn with
    | bare => exact absurd hstart (hname n hst token htok)
    | decorated hk _ => exact absurd (ofType_of_kind hk (by simp) (by simp)) (hbare statement hst)

set_option maxRecDepth 100000 in
/-- The name of the decorated class leads to the variable, and the place of that name to the class
with its method. -/
theorem symbolTable_shadowed :
    (∀ n, shadowed.Has n → ∃ text, shadowed.text n = .ok text) ∧
      ∃ t, SymbolTable.ofDocument shadowed = .ok t ∧
        (∃ s, t.lookup? "T" = some s ∧ s.kind = .variableName ∧ ∃ statement,
          IsLast (fun n => ∃ s, shadowed.Binds "T" n s) statement shadowed.root.children ∧
            shadowed.Binds "T" statement s) ∧
        ∃ n token, (∃ m, n.parent? = some m ∧ shadowed.kind m = .ok .decoratedDefinition) ∧
          shadowed.IsModuleClass n token ∧
          (∀ n' token', shadowed.IsModuleClass n' token' →
            token'.start = token.start ∧ token'.stop = token.stop → n' = n) ∧
          ∃ s, t.classAt? (shadowed.lines token) = some s ∧ s.name = "T" ∧
            shadowed.HasMethods n (t.members s) := by
  have htexts : ∀ n, shadowed.Has n → (shadowed.text n).toBool = true := by decide +kernel
  have hd : ∀ n, shadowed.Has n → ∃ text, shadowed.text n = .ok text := by
    intro n hn
    have htext := htexts n hn
    cases h : shadowed.text n with
    | ok text => exact ⟨text, rfl⟩
    | error f =>
      rw [h] at htext
      cases htext
  obtain ⟨t, ht, hlookup, -, hclass⟩ := exists_symbolTable shadowed hd
  have hlast : (SymbolTable.ofDocument shadowed).toOption.map (fun t => t.lookup? "T") =
      some (some ⟨"T", .variableName, some ⟨⟨4, 0⟩, ⟨4, 1⟩⟩⟩) := by decide +kernel
  rw [ht] at hlast
  have hlast := Option.some.inj hlast
  have hkind : shadowed.kind shadowedClass = .ok .classDefinition := by decide +kernel
  have hmodule : shadowed.IsModuleClass shadowedClass
      (shadowedClass.down (.node "identifier" 9 10 "name" [])) :=
    ⟨_, List.mem_cons_self, .decorated kind_decoratedClass rfl, hkind, rfl⟩
  have hunique : ∀ n' token', shadowed.IsModuleClass n' token' →
      token'.start = 9 ∧ token'.stop = 10 → n' = shadowedClass :=
    fun n' token' h hsame => unique_shadowed h hsame.1
  obtain ⟨name, hname, hfound, hmethods⟩ := hclass _ _ hmodule hunique
  have htext : shadowed.text (shadowedClass.down (.node "identifier" 9 10 "name" [])) =
      .ok "T" := by decide +kernel
  refine ⟨hd, t, ht, ⟨_, hlast, rfl, ?_⟩, _, _, ⟨_, rfl, kind_decoratedClass⟩, hmodule, hunique, _,
    hfound, ?_, hmethods⟩
  · exact ((hlookup _ _).1 hlast).resolve_right fun h => by cases h.2.2
  · exact Except.ok.inj (hname.symm.trans htext)

end Document

end AppManifest
