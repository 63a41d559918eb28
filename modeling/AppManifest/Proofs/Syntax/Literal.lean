import AppManifest.Proofs.Route.Segments

namespace AppManifest
set_option autoImplicit true

/-! Literals by their texts: a plain string is its value in one pair of quotes, and a number is its
own value. Markers and routes read them alike. -/

def IsQuote (q : Char) : Prop :=
  q = '"' ∨ q = '\''

/-- Each `q` in a text is the character behind a backslash that is not itself escaped. -/
def QuotesEscaped (q : Char) : List Char → Prop
  | [] => True
  | '\\' :: _ :: rest => QuotesEscaped q rest
  | c :: rest => c ≠ q ∧ QuotesEscaped q rest

/-- What a literal of a type writes with a text, if it is a string on one line in one pair of
quotes, or an integer in decimal digits. -/
inductive Writes (text value : String) : String → Prop
  | string (hq : IsQuote q) (ht : text.toList = q :: value.toList ++ [q])
      (hline : '\n' ∉ text.toList) (hlong : ¬[q, q, q] <+: text.toList) : Writes text value "string"
  | integer (ht : text = value) (hne : value ≠ "")
      (hdigits : ∀ c ∈ value.toList, '0' ≤ c ∧ c ≤ '9') : Writes text value "integer"

theorem isPlainString_cons {q c : Char} {rest : List Char} :
    isPlainString (q :: c :: rest) = true ↔ IsQuote q ∧ ¬[q, q, q] <+: q :: c :: rest ∧
      (c :: rest).getLast? = some q ∧ '\n' ∉ q :: c :: rest := by
  simp only [isPlainString, IsQuote, List.prefix_iff_eq_take, Bool.and_eq_true, bne_iff_ne, ne_eq,
    beq_iff_eq, Bool.not_eq_true', List.contains_eq_mem, decide_eq_false_iff_not,
    List.getLast?_cons_cons, Bool.or_eq_true, decide_eq_true_eq, and_assoc]
  exact and_congr_right' (and_congr_left' (not_congr eq_comm))

theorem isPlainString_iff {s : List Char} : isPlainString s = true ↔
    ∃ q v, IsQuote q ∧ s = q :: v ++ [q] ∧ '\n' ∉ s ∧ ¬[q, q, q] <+: s := by
  constructor
  · intro h
    match s with
    | [] => cases h
    | [_] => cases h
    | q :: c :: rest =>
      obtain ⟨hq, hlong, hlast, hline⟩ := isPlainString_cons.1 h
      refine ⟨q, (c :: rest).dropLast, hq, ?_, hline, hlong⟩
      rw [List.cons_append, List.dropLast_append_getLast? q hlast]
  · intro h
    obtain ⟨q, v, hq, rfl, hline, hlong⟩ := h
    obtain ⟨c, rest, hrest⟩ := List.exists_cons_of_ne_nil (List.concat_ne_nil q v)
    rw [List.cons_append, hrest] at hline hlong ⊢
    refine isPlainString_cons.2 ⟨hq, hlong, ?_, hline⟩
    rw [← hrest, List.getLast?_concat]

/-- Three quotes open a longer form. -/
example : isPlainString "'/a'".toList = true ∧ isPlainString "'''/a'''".toList = false := by
  decide +kernel

theorem withoutDelimiters_eq {text value : String} {q : Char}
    (h : text.toList = q :: value.toList ++ [q]) : withoutDelimiters text = value := by
  rw [withoutDelimiters, h, List.cons_append, List.drop_one, List.tail_cons, List.dropLast_concat,
    String.ofList_toList]

/-- The type alone makes no literal. -/
theorem SyntaxKind.ofType_ne (type : String) :
    ofType type ≠ .stringLiteral ∧ ofType type ≠ .decimalIntegerLiteral := by
  unfold ofType
  split <;> decide

theorem classify_eq_stringLiteral {type : String} {text : List Char} :
    classify type text = .stringLiteral ↔ type = "string" ∧ isPlainString text = true := by
  unfold classify
  split_ifs with hs hplain hi hdigits
  · exact iff_of_true rfl ⟨hs, hplain⟩
  · exact iff_of_false (by decide) fun h => hplain h.2
  · exact iff_of_false (by decide) fun h => hs h.1
  · exact iff_of_false (by decide) fun h => hs h.1
  · exact iff_of_false (SyntaxKind.ofType_ne type).1 fun h => hs h.1

theorem classify_eq_decimalIntegerLiteral {type : String} {text : List Char} :
    classify type text = .decimalIntegerLiteral ↔
      type = "integer" ∧ Text.isNumeral text = true := by
  unfold classify
  split_ifs with hs hplain hi hdigits
  · exact iff_of_false (by decide) fun h => absurd (hs.symm.trans h.1) (by decide)
  · exact iff_of_false (by decide) fun h => absurd (hs.symm.trans h.1) (by decide)
  · exact iff_of_true rfl ⟨hi, hdigits⟩
  · exact iff_of_false (by decide) fun h => hdigits h.2
  · exact iff_of_false (SyntaxKind.ofType_ne type).2 fun h => hi h.1

theorem isNumeral_iff {text : String} : Text.isNumeral text.toList = true ↔
    text ≠ "" ∧ ∀ c ∈ text.toList, '0' ≤ c ∧ c ≤ '9' := by
  simp only [Text.isNumeral, Bool.and_eq_true, Bool.not_eq_true', List.isEmpty_eq_false_iff,
    List.all_eq_true, isDigit_iff, ne_eq, String.toList_eq_nil_iff]

namespace Document

variable {d : Document} {f : MarkerField} {n : Node} {text : String}

theorem kind_eq_ok (ht : d.text n = .ok text) :
    d.kind n = .ok k ↔ classify n.type text.toList = k := by
  rw [kind, ht]
  exact pure_eq_ok

/-- The field gives what its literal writes. -/
theorem gives_iff (hv : f.value = some n) (ht : d.text n = .ok text) {value : String} :
    d.Gives f value ↔ Writes text value n.type := by
  constructor
  · intro h
    rcases h with ⟨hv', hk, ht'⟩ | ⟨hv', hk, ht'⟩
    · cases hv.symm.trans hv'
      cases ht.symm.trans ht'
      obtain ⟨htype, hplain⟩ := classify_eq_stringLiteral.1 ((kind_eq_ok ht).1 hk)
      obtain ⟨q, v, hq, htext, hline, hlong⟩ := isPlainString_iff.1 hplain
      rw [← String.toList_ofList (l := v)] at htext
      rw [htype, withoutDelimiters_eq htext]
      exact .string hq htext hline hlong
    · cases hv.symm.trans hv'
      cases ht.symm.trans ht'
      obtain ⟨htype, hdigits⟩ := classify_eq_decimalIntegerLiteral.1 ((kind_eq_ok ht).1 hk)
      obtain ⟨hne, hdigits⟩ := isNumeral_iff.1 hdigits
      rw [htype]
      exact .integer rfl hne hdigits
  · intro h
    generalize htype : n.type = type at h
    cases h with
    | string hq htext hline hlong =>
      rw [← withoutDelimiters_eq htext]
      refine .string hv ((kind_eq_ok ht).2 (classify_eq_stringLiteral.2 ⟨htype, ?_⟩)) ht
      exact isPlainString_iff.2 ⟨_, _, hq, htext, hline, hlong⟩
    | integer heq hne hdigits =>
      subst heq
      refine .integer hv ((kind_eq_ok ht).2 (classify_eq_decimalIntegerLiteral.2 ⟨htype, ?_⟩)) ht
      exact isNumeral_iff.2 ⟨hne, hdigits⟩

/-- A value that can be read is literal or is not. -/
theorem exists_literal? (hv : f.value = some n) (ht : d.text n = .ok text) :
    ∃ o, d.literal? f = .ok o := by
  rw [literal?, valueExpression_eq_ok.2 hv, ok_bind, (kind_eq_ok ht).2 rfl, ok_bind]
  split
  next => exact ⟨_, bind_eq_ok.2 ⟨text, ht, rfl⟩⟩
  next => exact ⟨_, bind_eq_ok.2 ⟨text, ht, rfl⟩⟩
  next => exact ⟨none, rfl⟩

end Document

theorem QuotesEscaped.head_ne {q c : Char} {rest : List Char} (h : QuotesEscaped q (c :: rest))
    (hq : IsQuote q) : c ≠ q := by
  rintro rfl
  rcases hq with rfl | rfl
  · exact h.1 rfl
  · exact h.1 rfl

/-- Without a quote of its own that is not escaped, a text in quotes is a plain string. -/
theorem isPlainString_quoted {q : Char} {v : List Char} (hq : IsQuote q) (hv : QuotesEscaped q v)
    (hline : '\n' ∉ v) : isPlainString (q :: v ++ [q]) = true := by
  have hne : '\n' ≠ q := by
    rcases hq with rfl | rfl <;> decide
  refine isPlainString_iff.2 ⟨q, v, hq, rfl, by simp [hline, hne], fun h => ?_⟩
  cases v with
  | nil => exact absurd h.length_le (by simp)
  | cons c rest =>
    have hsecond := (List.cons_prefix_cons.1 h).2
    exact hv.head_ne hq (List.cons_prefix_cons.1 hsecond).1.symm

namespace Document

variable {d : Document} {f : MarkerField} {n : Node} {text : String}

/-- What a field gives: the literal that its value writes, if that is a plain string or a decimal
integer, and else nothing. In particular a text in quotes gives just what stands between them, and
adds the same to a route. -/
theorem literal_value (hv : f.value = some n) (ht : d.text n = .ok text) :
    (∀ value, d.literal? f = .ok (some value) ↔ Writes text value n.type) ∧
    ((∀ value, ¬Writes text value n.type) → d.literal? f = .ok none) ∧
    ∀ q value, IsQuote q → '\n' ∉ value.toList → QuotesEscaped q value.toList →
      n.type = "string" → text.toList = q :: value.toList ++ [q] →
      d.kind n = .ok .stringLiteral ∧ d.literal? f = .ok (some value) ∧
        ∀ strict, ∃ route, d.resolvePath strict [n] = .ok route ∧
          (value = "/" ++ route ∨ (∀ rest, value ≠ "/" ++ rest) ∧ value = route) := by
  refine ⟨fun value => literal?_eq_ok_some.trans (gives_iff hv ht), fun hno => ?_, ?_⟩
  · obtain ⟨o, ho⟩ := exists_literal? hv ht
    cases o with
    | none => exact ho
    | some value => exact absurd ((gives_iff hv ht).1 (literal?_eq_ok_some.1 ho)) (hno value)
  · intro q value hq hline hescaped htype htext
    have hplain := isPlainString_quoted hq hescaped hline
    rw [← htext] at hplain
    have hk := (kind_eq_ok ht).2 (classify_eq_stringLiteral.2 ⟨htype, hplain⟩)
    have hgives : d.Gives f (withoutDelimiters text) := .string hv hk ht
    have hpart : d.Contributes n (withoutDelimiters text) := .string hk ht
    rw [withoutDelimiters_eq htext] at hgives hpart
    refine ⟨hk, literal?_eq_ok_some.2 hgives, fun strict => ?_⟩
    refine ⟨_, resolvePath_eq_ok.2 ⟨[value], .part hpart .nil, rfl⟩, ?_⟩
    rw [String.join_cons, String.join_nil, String.append_empty]
    exact withoutLeadingSlash_cases value

/-- A call with one argument, a string that begins with a slash and holds an escaped quote. -/
def quotedSlash : Document where
  path := "quoted.py"
  source := "f(a=\"/\\\"\")\n".toUTF8
  tree :=
    .node "module" 0 11 "" [
      .node "expression_statement" 0 10 "" [
        .node "call" 0 10 "" [
          .node "identifier" 0 1 "function" [],
          .node "argument_list" 1 10 "arguments" [
            .node "(" 1 2 "" [],
            .node "keyword_argument" 2 9 "" [
              .node "identifier" 2 3 "name" [],
              .node "=" 3 4 "" [],
              .node "string" 4 9 "value" []],
            .node ")" 9 10 "" []]]]]

/-- The marker gets the slash and the backslash, and the route loses the slash. -/
theorem literal_value_quotedSlash : ∃ argument n text,
    quotedSlash.root.descend? [0, 0, 1, 1] = some argument ∧ argument.field? "value" = some n ∧
    quotedSlash.text n = .ok text ∧ n.type = "string" ∧
    quotedSlash.literal? ⟨"a", argument, some n⟩ = .ok (some "/\\\"") ∧
    quotedSlash.resolvePath true [n] = .ok "\\\"" := by
  obtain ⟨argument, harg⟩ : ∃ a, quotedSlash.root.descend? [0, 0, 1, 1] = some a := ⟨_, rfl⟩
  have hseen : ((quotedSlash.root.descend? [0, 0, 1, 1]).bind fun a => a.field? "value").map
      (fun n => (n.type, (quotedSlash.text n).toOption)) =
        some ("string", some "\"/\\\"\"") := by decide +kernel
  rw [harg] at hseen
  obtain ⟨n, hn, hpair⟩ := Option.map_eq_some_iff.1 hseen
  obtain ⟨htype, htext⟩ := Prod.mk.inj hpair
  have ht := eq_ok_of_toOption htext
  obtain ⟨-, -, hquoted⟩ := literal_value (f := ⟨"a", argument, some n⟩) rfl ht
  obtain ⟨-, hgiven, hroute⟩ := hquoted '"' "/\\\"" (.inl rfl) (by decide)
    ⟨by decide, trivial⟩ htype (by decide)
  refine ⟨argument, n, _, harg, hn, ht, htype, hgiven, ?_⟩
  obtain ⟨route, hpath, hslash | ⟨hno, -⟩⟩ := hroute true
  · have hsplit : "/" ++ "\\\"" = "/" ++ route := hslash
    rw [hpath, (String.append_right_inj "/").1 hsplit]
  · exact absurd rfl (hno "\\\"")

end Document

end AppManifest
