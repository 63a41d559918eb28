import AppManifest.Proofs.Analysis.Rejection
import AppManifest.Proofs.Analysis.Rules

namespace AppManifest
set_option autoImplicit true

/-- Unless it meets a fault, a check ends in what a rule describes, as far as `g` shows of it, and
rejects where the rule describes nothing. -/
structure Decides (x : Except Halt α) (g : α → β) (R : β → Prop) : Prop where
  ok : ∀ {a}, x = .ok a → ∀ b, R b ↔ b = g a
  rejected : ∀ {e}, x = .error (.rejected e) → ∀ b, ¬R b

theorem Decides.congr (h : Decides x g R) (hR : ∀ b, R' b ↔ R b) : Decides x g R' where
  ok hx b := (hR b).trans (h.ok hx b)
  rejected hx b hb := h.rejected hx b ((hR b).1 hb)

theorem decides_pure (a : α) (g : α → β) : Decides (pure a) g (· = g a) where
  ok h b := by cases h; rfl
  rejected h := by cases h

theorem decides_lift (x : Except Fault α) : Decides (liftM x) id (fun a => x = .ok a) where
  ok h b := by
    rw [lift_eq_ok.1 h, Except.ok.injEq]
    exact eq_comm
  rejected h := by
    obtain ⟨f, -, hf⟩ := lift_eq_error.1 h
    cases hf

theorem decides_reject (c : Scope) (n : Node) (f : Finding) (g : α → β) :
    Decides (c.reject n f) g fun _ => False where
  ok h := by cases h
  rejected _ _ h := h

/-- A finding about a text rejects, whatever the text. -/
theorem decides_reject_text (c : Scope) (x : Except Fault String) (n : Node)
    (f : String → Finding) (g : α → β) :
    Decides (liftM x >>= fun t => c.reject n (f t)) g fun _ => False where
  ok h := by
    obtain ⟨t, -, h⟩ := bind_eq_ok.1 h
    cases h
  rejected _ _ h := h

/-- A sequence decides by two rules, the second of which goes by what the first describes. -/
theorem Decides.bind {x : Except Halt α} {f : α → Except Halt γ} {S : β → δ → Prop}
    (hx : Decides x g R) (hf : ∀ a, R (g a) → Decides (f a) g' (S (g a))) :
    Decides (x >>= f) g' fun b => ∃ a, R a ∧ S a b where
  ok h b := by
    obtain ⟨a, ha, h⟩ := bind_eq_ok.1 h
    have hR := (hx.ok ha (g a)).2 rfl
    rw [← (hf a hR).ok h b]
    constructor
    · intro h
      obtain ⟨a', ha', hb⟩ := h
      rwa [(hx.ok ha a').1 ha'] at hb
    · exact fun hb => ⟨g a, hR, hb⟩
  rejected h b := by
    intro h
    obtain ⟨a', ha', hb⟩ := h
    rcases bind_eq_error.1 h with h | ⟨a, ha, h⟩
    · exact hx.rejected h a' ha'
    · rw [(hx.ok ha a').1 ha'] at hb
      exact (hf a ((hx.ok ha _).2 rfl)).rejected h b hb

theorem foldl_numeral_eq_zero (digits : List Char) (n : Nat) :
    digits.foldl (fun n c => 10 * n + (c.toNat - '0'.toNat)) n = 0 ↔
      n = 0 ∧ ∀ c ∈ digits, c.toNat - '0'.toNat = 0 := by
  induction digits generalizing n with
  | nil => simp
  | cons c digits ih =>
    have hsum : 10 * n + (c.toNat - '0'.toNat) = 0 ↔ n = 0 ∧ c.toNat - '0'.toNat = 0 := by omega
    rw [List.foldl_cons, ih, List.forall_mem_cons, hsum, and_assoc]

theorem eq_zero_of_digit {c : Char} (h : '0' ≤ c) : c.toNat - '0'.toNat = 0 ↔ c = '0' := by
  constructor
  · intro hz
    have hle : '0'.toNat ≤ c.toNat := h
    exact Char.toNat_inj.1 (by omega)
  · intro h
    subst h
    rfl

theorem isPositiveNumeral_iff (value : String) : IsPositiveNumeral value ↔
    Text.isNumeral value.toList = true ∧ Text.numeralValue value.toList ≠ 0 := by
  simp only [IsPositiveNumeral, Text.isNumeral, Text.numeralValue, Bool.and_eq_true,
    Bool.not_eq_true', List.isEmpty_eq_false_iff, List.all_eq_true, isDigit_iff, ne_eq,
    foldl_numeral_eq_zero, true_and]
  constructor
  · intro h
    obtain ⟨hd, c, hc, hne⟩ := h
    exact ⟨⟨List.ne_nil_of_mem hc, hd⟩, fun h => hne ((eq_zero_of_digit (hd c hc).1).1 (h c hc))⟩
  · intro h
    obtain ⟨⟨-, hd⟩, h⟩ := h
    obtain ⟨c, hc⟩ := not_forall.1 h
    obtain ⟨hc, hne⟩ := Classical.not_imp.1 hc
    exact ⟨hd, c, hc, fun he => hne ((eq_zero_of_digit (hd c hc).1).2 he)⟩

namespace Document

variable {d : Document} {f : MarkerField} {n : Node}

theorem valueExpression_eq_ok : valueExpression f = .ok n ↔ f.value = some n := by
  rw [valueExpression]
  cases f.value with
  | none => simp
  | some m => simp

theorem literal?_eq_ok_some {v : String} : d.literal? f = .ok (some v) ↔ d.Gives f v := by
  constructor
  · intro h
    obtain ⟨n, hn, h⟩ := bind_eq_ok.1 h
    obtain ⟨k, hk, h⟩ := bind_eq_ok.1 h
    have hv := valueExpression_eq_ok.1 hn
    split at h
    next =>
      obtain ⟨t, ht, h⟩ := bind_eq_ok.1 h
      cases pure_eq_ok.1 h
      exact .string hv hk ht
    next =>
      obtain ⟨t, ht, h⟩ := bind_eq_ok.1 h
      cases pure_eq_ok.1 h
      exact .integer hv hk ht
    next => cases pure_eq_ok.1 h
  · intro h
    rcases h with ⟨hv, hk, ht⟩ | ⟨hv, hk, ht⟩
    · rw [literal?, valueExpression_eq_ok.2 hv, ok_bind, hk, ok_bind]
      simp only [ht, ok_bind]
      rfl
    · rw [literal?, valueExpression_eq_ok.2 hv, ok_bind, hk, ok_bind]
      simp only [ht, ok_bind]
      rfl

theorem contribution?_eq_ok {o : Option String} :
    d.contribution? n = .ok o ↔
      match o with
      | some t => d.Contributes n t
      | none => ∃ k, d.kind n = .ok k ∧
        k ≠ .stringLiteral ∧ k ≠ .slashToken ∧ k ≠ .identifier := by
  constructor
  · intro h
    obtain ⟨k, hk, h⟩ := bind_eq_ok.1 h
    split at h
    next =>
      obtain ⟨t, ht, h⟩ := bind_eq_ok.1 h
      cases pure_eq_ok.1 h
      exact .string hk ht
    next =>
      obtain ⟨t, ht, h⟩ := bind_eq_ok.1 h
      cases pure_eq_ok.1 h
      exact .slash hk ht
    next =>
      obtain ⟨t, ht, h⟩ := bind_eq_ok.1 h
      cases pure_eq_ok.1 h
      exact .identifier hk ht
    next hs hl hi =>
      cases pure_eq_ok.1 h
      exact ⟨k, hk, hs, hl, hi⟩
  · intro h
    rw [contribution?]
    cases o with
    | some t =>
      rcases h with ⟨hk, ht⟩ | ⟨hk, ht⟩ | ⟨hk, ht⟩
      · simp only [hk, ht, ok_bind]
        rfl
      · simp only [hk, ht, ok_bind]
        rfl
      · simp only [hk, ht, ok_bind]
        rfl
    | none =>
      obtain ⟨k, hk, hs, hl, hi⟩ := h
      rw [hk, ok_bind]
      split
      next => exact absurd rfl hs
      next => exact absurd rfl hl
      next => exact absurd rfl hi
      next => rfl

theorem spells_cons {strict : Bool} {ns : List Node} {ts : List String} :
    d.Spells strict (n :: ns) ts ↔
      (∃ t ts', d.contribution? n = .ok (some t) ∧ d.Spells strict ns ts' ∧ ts = t :: ts') ∨
        d.contribution? n = .ok none ∧ strict = false ∧ d.Spells strict ns ts := by
  simp only [contribution?_eq_ok]
  constructor
  · intro h
    rcases h with - | ⟨h, hs⟩ | ⟨hk, ho, hl, hs⟩
    · exact .inl ⟨_, _, h, hs, rfl⟩
    · exact .inr ⟨⟨_, hk, ho⟩, hl, hs⟩
  · intro h
    rcases h with ⟨t, ts', h, hs, rfl⟩ | ⟨⟨k, hk, ho⟩, hl, hs⟩
    · exact .part h hs
    · exact .other hk ho hl hs

/-- The segments of a path contribute what they spell, where they spell something. -/
theorem contributions_eq_ok {strict : Bool} {parts : List Node} {ts : List String} :
    d.contributions strict parts = .ok ts ↔ d.Spells strict parts ts := by
  induction parts generalizing ts with
  | nil =>
    rw [contributions]
    constructor
    · intro h
      cases h
      exact .nil
    · intro h
      cases h
      rfl
  | cons n ns ih =>
    rw [spells_cons, contributions, bind_eq_ok]
    simp only [mapError_eq_ok]
    constructor
    · intro h
      obtain ⟨o, ho, h⟩ := h
      cases o with
      | some t =>
        obtain ⟨ts', hts, h⟩ := bind_eq_ok.1 h
        cases pure_eq_ok.1 h
        exact .inl ⟨t, ts', ho, ih.1 hts, rfl⟩
      | none =>
        dsimp only at h
        split at h
        next => cases h
        next hl => exact .inr ⟨ho, by simpa using hl, ih.1 h⟩
    · intro h
      rcases h with ⟨t, ts', ho, hs, rfl⟩ | ⟨ho, hl, hs⟩
      · exact ⟨some t, ho, bind_eq_ok.2 ⟨ts', ih.2 hs, rfl⟩⟩
      · refine ⟨none, ho, ?_⟩
        subst hl
        exact ih.2 hs

theorem resolvePath_eq_ok {strict : Bool} {parts : List Node} {route : String} :
    d.resolvePath strict parts = .ok route ↔
      ∃ ts, d.Spells strict parts ts ∧ withoutLeadingSlash (String.join ts) = route := by
  simp only [resolvePath, bind_eq_ok, pure_eq_ok, contributions_eq_ok]

end Document

namespace Scope

variable {c : Scope}

theorem decides_literal (c : Scope) (f : MarkerField) :
    Decides (c.literal f) id (c.document.Gives f) := by
  refine ((decides_lift _).bind (S := fun o v => v ∈ o) fun o _ => ?_).congr fun v => ?_
  · cases o with
    | none => exact (decides_reject c _ _ id).congr fun v => by simp
    | some value => exact (decides_pure _ id).congr fun v => by simp [eq_comm]
  · rw [← Document.literal?_eq_ok_some]
    simp

theorem decides_required (c : Scope) (a : Marker) (name : String) :
    Decides (c.required a name) id (c.document.HasValue a name) := by
  unfold required Document.HasValue
  cases a.field? name with
  | none => exact (decides_reject c _ _ id).congr fun v => by simp
  | some f => exact (decides_literal c f).congr fun v => by simp

theorem decides_optional (c : Scope) (a : Marker) (name : String) :
    Decides (c.optional a name) id (c.document.MayHaveValue a name) := by
  rw [optional]
  cases hf : a.field? name with
  | none =>
    refine (decides_pure _ id).congr fun o => ?_
    constructor
    · intro h
      rcases h with - | ⟨f, hf', -⟩
      · rfl
      · cases hf.symm.trans hf'
    · intro h
      subst h
      exact .absent hf
  | some f =>
    dsimp only
    rw [← bind_pure_comp]
    refine ((decides_literal c f).bind (S := fun v o => o = some v)
      fun v _ => decides_pure _ id).congr fun o => ?_
    constructor
    · intro h
      rcases h with h | ⟨f', hf', hv⟩
      · cases hf.symm.trans h
      · cases hf.symm.trans hf'
        exact ⟨_, hv, rfl⟩
    · intro h
      obtain ⟨v, hv, rfl⟩ := h
      exact .present ⟨f, hf, hv⟩

theorem decides_positive? (c : Scope) (a : Marker) (name : String) :
    Decides (c.positive? a name) (fun _ => ()) fun _ => c.MayBePositive a name := by
  refine (decides_optional c a name).bind
    (S := fun given _ => ∀ value ∈ given, IsPositiveNumeral value) fun given _ => ?_
  cases given with
  | none => exact (decides_pure _ _).congr fun _ => by simp
  | some value =>
    simp only [id_eq, Option.mem_def, Option.some.injEq, forall_eq', isPositiveNumeral_iff]
    split
    next hn =>
      split
      next =>
        constructor
        · intro a h
          cases h
        · intro e h
          cases h
      next =>
        split
        next hz => exact (decides_reject c _ _ _).congr fun _ => by simp [hz]
        next hz => exact (decides_pure _ _).congr fun _ => by simp [hn, hz]
    next hn => exact (decides_reject c _ _ _).congr fun _ => by simp [hn]

theorem decides_pathValue (c : Scope) (a : Marker) (name : String) :
    Decides (c.pathValue a name) id (c.document.HasPath c.settings.strictPaths a name) := by
  rw [pathValue]
  cases hf : a.field? name with
  | none =>
    refine (decides_pure _ id).congr fun path => ?_
    constructor
    · intro h
      rcases h with - | ⟨hf', -⟩
      · rfl
      · cases hf.symm.trans hf'
    · intro h
      subst h
      exact .absent hf
  | some f =>
    refine ((decides_lift _).bind (S := fun n path => ∃ parts, c.document.segments n = .ok parts ∧
      c.document.resolvePath c.settings.strictPaths parts = .ok path) fun n _ =>
      (decides_lift _).bind fun parts _ => ?_).congr fun path => ?_
    · simp only [id_eq]
      cases hr : c.document.resolvePath c.settings.strictPaths parts with
      | ok path => exact (decides_pure _ id).congr fun _ => by simp [eq_comm]
      | error e =>
        cases e with
        | fault e =>
          constructor
          · intro a h
            cases h
          · intro e h
            cases h
        | unsupported n =>
          exact (decides_reject_text c _ _ _ id).congr fun _ => by simp
    · simp only [Document.valueExpression_eq_ok, Document.resolvePath_eq_ok]
      constructor
      · intro h
        rcases h with hf' | ⟨hf', hv, hs, ht⟩
        · cases hf.symm.trans hf'
        · cases hf.symm.trans hf'
          exact ⟨_, hv, _, hs, _, ht, rfl⟩
      · intro h
        obtain ⟨n, hv, parts, hs, ts, ht, rfl⟩ := h
        exact .present hf hv hs ht

theorem decides_single (c : Scope) (role : String) (more : List Marker) :
    Decides (c.single role more) id fun _ => more = [] := by
  cases more with
  | nil => exact (decides_pure _ id).congr fun _ => by simp
  | cons second more => exact (decides_reject c _ _ id).congr fun _ => by simp

theorem decides_nameOf (c : Scope) (h : n.field? "name" = some token) :
    Decides (c.nameOf n) id (c.document.IsNamed n) := by
  unfold nameOf Document.IsNamed
  rw [h]
  exact (decides_lift _).congr fun name => by simp

end Scope

end AppManifest
