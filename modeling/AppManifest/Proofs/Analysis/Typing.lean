import AppManifest.Proofs.Analysis.Decision

namespace AppManifest
set_option autoImplicit true

theorem SymbolTable.lookup?_some {t : SymbolTable} (h : t.lookup? name = some s) :
    s.name = name ∧ (s ∈ t.collected ∨ s.kind = .builtin ∧ s.location = none) := by
  unfold lookup? at h
  split at h
  next s' hf =>
    cases h
    refine ⟨by simpa using List.find?_some hf, .inl ?_⟩
    obtain ⟨b, hb, hs⟩ := List.mem_flatMap.1 (List.mem_reverse.1 (List.mem_of_find?_eq_some hf))
    refine List.mem_flatMap.2 ⟨b, hb, ?_⟩
    cases b with
    | classType symbol methods => exact List.mem_cons.2 (.inl (List.mem_singleton.1 hs))
    | function symbol => exact hs
    | bindings symbols => exact hs
  next =>
    split at h
    next =>
      cases h
      exact ⟨rfl, .inr ⟨rfl, rfl⟩⟩
    next => cases h

namespace Document

/-- A variable of the module is a token. -/
def TargetsAreTokens (d : Document) : Prop :=
  ∀ n, d.Has n → d.kind n = .ok .assignment →
    ∀ token ∈ n.field? "left", d.kind token = .ok .identifier → token.IsToken

/-- A parameter of a typed kind has a type. -/
def TypesAreGiven (d : Document) : Prop :=
  ∀ n, d.Has n → d.kind n = .ok .typedParameter ∨ d.kind n = .ok .typedDefaultParameter →
    (n.field? "type").isSome = true

variable {d : Document} {n token : Node}

theorem Declares.isToken (hnames : d.NamesAreTokens) (htargets : d.TargetsAreTokens)
    (h : d.Declares n token s) : token.IsToken := by
  have hn := h.has
  cases h with
  | classType _ _ hk ht => exact hnames.isToken hn (.inl hk) ht
  | function _ _ hk ht => exact hnames.isToken hn (.inr hk) ht
  | method _ _ _ _ _ hk ht => exact hnames.isToken hn (.inr hk) ht
  | assignment _ _ _ _ hk ht hi => exact htargets n hn hk token ht hi

theorem Declares.class_iff (h : d.Declares n token s) :
    s.kind = .classType ↔ d.kind n = .ok .classDefinition := by
  obtain ⟨role, hs, -, hc⟩ := h.exists_role
  rw [kind_of_symbol hs, hc]

theorem Declares.exists_kind (h : d.Declares n token s) : ∃ k, d.kind n = .ok k := by
  cases h with
  | classType _ _ hk => exact ⟨_, hk⟩
  | function _ _ hk => exact ⟨_, hk⟩
  | method _ _ _ _ _ hk => exact ⟨_, hk⟩
  | assignment _ _ _ _ hk => exact ⟨_, hk⟩

theorem Declares.not_builtin (h : d.Declares n token s) : s.kind ≠ .builtin := by
  obtain ⟨role, hs, hb, -⟩ := h.exists_role
  rwa [kind_of_symbol hs]

end Document

/-- What the documents have in common whose analysis follows the rules: ranges are nested and
ordered, names and variables are tokens, typed parameters have a type. -/
structure Document.Regular (d : Document) : Prop where
  wellFormed : d.WellFormed
  names : d.NamesAreTokens
  targets : d.TargetsAreTokens
  types : d.TypesAreGiven

theorem Document.Regular.declaresByTokens {d : Document} (hd : d.Regular) : d.DeclaresByTokens :=
  fun _ _ _ h => h.isToken hd.names hd.targets

namespace Scope

variable {c : Scope}

/-- The way from a symbol to its declaration and the kind of node there agree with the kind of the
symbol. -/
theorem isParameterType_eq_ok (hd : c.document.WellFormed) (htokens : c.document.DeclaresByTokens)
    (ht : SymbolTable.ofDocument c.document = .ok c.symbols)
    (hs : c.symbols.lookup? name = some s) :
    c.isParameterType s = .ok b ↔
      (b = true ↔ s.kind = .classType ∨ s.kind = .builtin ∧ name ∈ parameterBuiltins) := by
  obtain ⟨hname, hs⟩ := SymbolTable.lookup?_some hs
  unfold isParameterType
  rcases hs with hs | ⟨hk, hl⟩
  · obtain ⟨n, token, hdecl⟩ := Document.declares_of_collected ht hs
    obtain ⟨k, hk⟩ := hdecl.exists_kind
    have hloc := hdecl.locate? hd (htokens n token s hdecl)
    rw [if_neg (by rw [hdecl.location_eq]; simp), hloc, hdecl.class_iff]
    dsimp only
    rw [hk, ok_bind, pure_eq_ok, Bool.eq_iff_iff, iff_comm (a := b = true)]
    simp [hdecl.not_builtin]
  · rw [if_pos hl, pure_eq_ok, Bool.eq_iff_iff, iff_comm (a := b = true)]
    simp [hk, hname]

theorem typeSymbol?_eq_ok (h : c.typeSymbol? type = .ok o) :
    o = some s ↔ ∃ token name, c.document.firstIdentifier? type = .ok (some token) ∧
      c.document.text token = .ok name ∧ c.symbols.lookup? name = some s := by
  obtain ⟨found, hf, h⟩ := bind_eq_ok.1 h
  cases found with
  | none =>
    cases pure_eq_ok.1 h
    simp [hf]
  | some token =>
    obtain ⟨name, hn, h⟩ := bind_eq_ok.1 h
    cases pure_eq_ok.1 h
    simp [hf, hn]

theorem supportsType_eq_ok (hd : c.document.WellFormed) (htokens : c.document.DeclaresByTokens)
    (ht : SymbolTable.ofDocument c.document = .ok c.symbols) (h : c.supportsType type = .ok b) :
    b = true ↔ c.NamesParameterType type := by
  obtain ⟨o, ho, h⟩ := bind_eq_ok.1 h
  cases o with
  | none =>
    cases pure_eq_ok.1 h
    refine iff_of_false Bool.false_ne_true ?_
    intro h
    obtain ⟨token, name, s, hf, hn, hl, -⟩ := h
    cases (typeSymbol?_eq_ok ho).2 ⟨token, name, hf, hn, hl⟩
  | some s =>
    obtain ⟨token, name, hf, hn, hl⟩ := (typeSymbol?_eq_ok ho).1 rfl
    rw [(isParameterType_eq_ok hd htokens ht hl).1 h]
    constructor
    · exact fun hk => ⟨token, name, s, hf, hn, hl, hk⟩
    · intro h
      obtain ⟨token', name', s', hf', hn', hl', hk⟩ := h
      cases hf.symm.trans hf'
      cases hn.symm.trans hn'
      cases hl.symm.trans hl'
      exact hk

theorem decides_checkType (hd : c.document.Regular)
    (ht : SymbolTable.ofDocument c.document = .ok c.symbols) (type : Node) :
    Decides (c.checkType type) id fun _ => c.NamesParameterType type where
  ok {a} h b := by
    obtain ⟨supported, hs, h⟩ := bind_eq_ok.1 h
    split at h
    next hb =>
      have hsupports := supportsType_eq_ok hd.wellFormed hd.declaresByTokens ht (lift_eq_ok.1 hs)
      exact iff_of_true (hsupports.1 hb) rfl
    next =>
      obtain ⟨_, -, h⟩ := bind_eq_ok.1 h
      cases h
  rejected {e} h b hn := by
    rcases bind_eq_error.1 h with h | ⟨supported, hs, h⟩
    · obtain ⟨f, -, hf⟩ := lift_eq_error.1 h
      cases hf
    · have hsupports := supportsType_eq_ok hd.wellFormed hd.declaresByTokens ht (lift_eq_ok.1 hs)
      rw [if_pos (hsupports.2 hn)] at h
      cases h

theorem decides_checkParameter (hd : c.document.Regular)
    (ht : SymbolTable.ofDocument c.document = .ok c.symbols) {p : Parameter}
    (hp : p.form = .typed → (p.node.field? "type").isSome = true) :
    Decides (c.checkParameter p) id fun _ => c.IsTyped p := by
  rw [checkParameter, IsTyped]
  cases hf : p.form with
  | bare => exact (decides_reject_text c _ _ _ id).congr fun _ => by simp
  | withDefault => exact (decides_reject_text c _ _ _ id).congr fun _ => by simp
  | typed =>
    obtain ⟨type, htype⟩ := Option.isSome_iff_exists.1 (hp hf)
    rw [htype]
    exact (decides_checkType hd ht type).congr fun _ => by simp

theorem decides_forM {f : α → Except Halt PUnit} {P : α → Prop} {xs : List α}
    (hf : ∀ x ∈ xs, Decides (f x) id fun _ => P x) :
    Decides (xs.forM f) id fun _ => ∀ x ∈ xs, P x := by
  induction xs with
  | nil => exact (decides_pure _ id).congr fun _ => by simp
  | cons x xs ih =>
    refine ((hf x List.mem_cons_self).bind (S := fun _ _ => ∀ x ∈ xs, P x) fun _ _ =>
      ih fun x hx => hf x (List.mem_cons_of_mem _ hx)).congr fun _ => ?_
    simp

/-- A receiver in front is passed over, and nothing else. -/
theorem typedParameters_eq_ok {declared ps : List Parameter}
    (h : c.typedParameters declared = .ok ps) :
    (∃ first, declared = first :: ps ∧ c.IsReceiver first) ∨
      ps = declared ∧ ∀ first ∈ declared.head?, ¬c.IsReceiver first := by
  cases declared with
  | nil =>
    cases pure_eq_ok.1 h
    exact .inr ⟨rfl, nofun⟩
  | cons first rest =>
    obtain ⟨name, hn, h⟩ := bind_eq_ok.1 h
    split at h
    next hr =>
      cases pure_eq_ok.1 h
      exact .inl ⟨first, rfl, hr.1, name, hn, by simpa using hr.2⟩
    next hr =>
      cases pure_eq_ok.1 h
      refine .inr ⟨rfl, ?_⟩
      rintro _ ⟨⟩ ⟨hb, name', hn', h'⟩
      cases hn.symm.trans hn'
      exact hr ⟨hb, by simpa using h'⟩

theorem areTyped_iff {declared ps : List Parameter} (h : c.typedParameters declared = .ok ps) :
    c.AreTyped declared ↔ ∀ p ∈ ps, c.IsTyped p := by
  rcases typedParameters_eq_ok h with ⟨first, rfl, hr⟩ | ⟨rfl, hr⟩
  · simp [AreTyped, hr]
  · cases ps with
    | nil => simp [AreTyped]
    | cons first rest => simp [AreTyped, hr first rfl]

theorem mem_of_typedParameters {declared ps : List Parameter}
    (h : c.typedParameters declared = .ok ps) (hp : p ∈ ps) : p ∈ declared := by
  rcases typedParameters_eq_ok h with ⟨first, rfl, -⟩ | ⟨rfl, -⟩
  · exact List.mem_cons_of_mem _ hp
  · exact hp

/-- What has a kind has a text, so that the first parameter can be looked at. -/
theorem exists_typedParameters (h : c.Declared list declared) :
    ∃ ps, c.typedParameters declared = .ok ps := by
  cases declared with
  | nil => exact ⟨[], rfl⟩
  | cons first rest =>
    obtain ⟨child, -, hc⟩ := (mem_of_filterMapM_eq_ok h).1 List.mem_cons_self
    obtain ⟨k, hk, hc⟩ := bind_eq_ok.1 hc
    obtain ⟨form, -, rfl⟩ := Option.map_eq_some_iff.1 (pure_eq_ok.1 hc)
    obtain ⟨name, hn, -⟩ := bind_eq_ok.1 hk
    simp only [typedParameters, hn, ok_bind]
    split
    next => exact ⟨_, rfl⟩
    next => exact ⟨_, rfl⟩

theorem typed_of_declared (htypes : c.document.TypesAreGiven) (hl : c.document.Has list)
    (h : c.Declared list declared) {p : Parameter} (hp : p ∈ declared) (hf : p.form = .typed) :
    (p.node.field? "type").isSome = true := by
  obtain ⟨child, hc, h⟩ := (mem_of_filterMapM_eq_ok h).1 hp
  obtain ⟨k, hk, h⟩ := bind_eq_ok.1 h
  obtain ⟨form, hform, rfl⟩ := Option.map_eq_some_iff.1 (pure_eq_ok.1 h)
  refine htypes child (hl.child hc) ?_
  cases hf
  cases k with
  | typedParameter => exact .inl hk
  | typedDefaultParameter => exact .inr hk
  | _ => cases hform

theorem decides_checkParameters (hd : c.document.Regular)
    (ht : SymbolTable.ofDocument c.document = .ok c.symbols) {function : Node}
    (hn : c.document.Has function) :
    Decides (c.checkParameters function) id fun _ => c.HasTypedParameters function := by
  rw [checkParameters, HasTypedParameters]
  cases hf : function.field? "parameters" with
  | none => exact (decides_pure _ id).congr fun _ => by simp
  | some list =>
    refine ((decides_lift _).bind (S := fun ps _ => ∀ p ∈ ps, c.IsTyped p)
      fun ps hps => ?_).congr fun _ => ?_
    · obtain ⟨declared, hdecl, hps⟩ := bind_eq_ok.1 hps
      refine decides_forM fun p hp => decides_checkParameter hd ht ?_
      exact typed_of_declared hd.types (hn.field hf) hdecl (mem_of_typedParameters hps hp)
    · simp only [Option.some.injEq, forall_eq', parametersOf, bind_eq_ok]
      constructor
      · intro h
        obtain ⟨declared, hdecl, h⟩ := h
        obtain ⟨ps, hps⟩ := exists_typedParameters hdecl
        exact ⟨ps, ⟨declared, hdecl, hps⟩, (areTyped_iff hps).1 h⟩
      · intro h
        obtain ⟨ps, ⟨declared, hdecl, hps⟩, h⟩ := h
        exact ⟨declared, hdecl, (areTyped_iff hps).2 h⟩

end Scope

end AppManifest
