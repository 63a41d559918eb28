import AppManifest.Console.Markup
import AppManifest.Proofs.Except
import Mathlib.Data.List.Induction
import Mathlib.Data.List.TakeWhile

namespace AppManifest.Console
set_option autoImplicit true

/-! The tags of a text: where they stand, and that an escaped text has the same tags, escaped. -/

/-- What stands between the brackets of a tag: a character that tags begin with, and then no
bracket. -/
def IsTagBody : List Char → Prop
  | [] => False
  | c :: rest => isTagStart c = true ∧ '[' ∉ rest ∧ ']' ∉ rest

instance : DecidablePred IsTagBody
  | [] => isFalse id
  | c :: rest => inferInstanceAs (Decidable (isTagStart c = true ∧ '[' ∉ rest ∧ ']' ∉ rest))

theorem untilBracket_cons (hopen : c ≠ '[') (hclose : c ≠ ']') (s : List Char) :
    untilBracket (c :: s) = (untilBracket s).map fun (body, after) => (c :: body, after) := by
  rw [untilBracket]
  · exact hclose
  · exact hopen

theorem untilBracket_eq_some {s : List Char} :
    untilBracket s = some (body, after) ↔
      s = body ++ ']' :: after ∧ '[' ∉ body ∧ ']' ∉ body := by
  constructor
  · intro h
    fun_induction untilBracket s generalizing body with
    | case1 => cases h
    | case2 rest =>
      cases h
      exact ⟨rfl, List.not_mem_nil, List.not_mem_nil⟩
    | case3 => cases h
    | case4 c rest hclose hopen ih =>
      obtain ⟨⟨body', after'⟩, hrest, he⟩ := Option.map_eq_some_iff.1 h
      cases he
      obtain ⟨rfl, hb, ha⟩ := ih hrest
      refine ⟨rfl, ?_, ?_⟩
      · rw [List.mem_cons, not_or]
        exact ⟨fun h => hopen h.symm, hb⟩
      · rw [List.mem_cons, not_or]
        exact ⟨fun h => hclose h.symm, ha⟩
  · rintro ⟨rfl, hopen, hclose⟩
    induction body with
    | nil => rfl
    | cons c body ih =>
      rw [List.mem_cons, not_or] at hopen hclose
      rw [List.cons_append, untilBracket_cons (Ne.symm hopen.1) (Ne.symm hclose.1),
        ih hopen.2 hclose.2]
      rfl

theorem tagBody?_eq_some {s : List Char} :
    tagBody? s = some (body, after) ↔ s = body ++ ']' :: after ∧ IsTagBody body := by
  cases s with
  | nil => simp [tagBody?]
  | cons c rest =>
    rw [tagBody?]
    constructor
    · intro h
      split at h
      next hc =>
        obtain ⟨⟨body', after'⟩, hrest, he⟩ := Option.map_eq_some_iff.1 h
        cases he
        obtain ⟨rfl, hopen, hclose⟩ := untilBracket_eq_some.1 hrest
        exact ⟨rfl, hc, hopen, hclose⟩
      next => cases h
    · rintro ⟨hs, hbody⟩
      cases body with
      | nil => cases hbody
      | cons d body =>
        obtain ⟨rfl, hrest⟩ := List.cons.inj hs
        obtain ⟨hc, hopen, hclose⟩ := hbody
        rw [if_pos hc, untilBracket_eq_some.2 ⟨hrest, hopen, hclose⟩]
        rfl

theorem tagAt?_backslash (s : List Char) :
    tagAt? ('\\' :: s) = none ↔ tagAt? s = none := by
  unfold tagAt?
  rw [List.dropWhile_cons_of_pos (by decide)]
  split
  next rest h => rw [Option.map_eq_none_iff, Option.map_eq_none_iff]
  next => exact Iff.rfl

theorem tagAt?_bracket (s : List Char) : tagAt? ('[' :: s) = none ↔ tagBody? s = none :=
  Option.map_eq_none_iff

theorem tagAt?_other (hs : c ≠ '\\') (hb : c ≠ '[') (s : List Char) : tagAt? (c :: s) = none := by
  unfold tagAt?
  rw [List.dropWhile_cons_of_neg (by simpa using hs)]
  split
  next h => exact absurd (List.cons.inj h).1 hb
  next => rfl

/-- How a tag is written after some backslashes. -/
def tagText (n : Nat) (body : List Char) : List Char :=
  List.replicate n '\\' ++ '[' :: (body ++ [']'])

theorem tagAt?_tagText (n : Nat) (h : IsTagBody body) (after : List Char) :
    tagAt? (tagText n body ++ after) = some ⟨n, body, after⟩ := by
  have hbackslash : ∀ c ∈ List.replicate n '\\', decide (c = '\\') = true :=
    fun c hc => decide_eq_true (List.eq_of_mem_replicate hc)
  have hbody : tagBody? (body ++ ']' :: after) = some (body, after) :=
    tagBody?_eq_some.2 ⟨rfl, h⟩
  have hdrop : (List.replicate n '\\' ++ '[' :: (body ++ ']' :: after)).dropWhile (· = '\\') =
      '[' :: (body ++ ']' :: after) := by
    rw [List.dropWhile_append_of_pos hbackslash, List.dropWhile_cons_of_neg (by decide)]
  have htake : (List.replicate n '\\' ++ '[' :: (body ++ ']' :: after)).takeWhile (· = '\\') =
      List.replicate n '\\' := by
    rw [List.takeWhile_append_of_pos hbackslash, List.takeWhile_cons_of_neg (by decide),
      List.append_nil]
  simp only [tagText, List.append_assoc, List.cons_append, List.nil_append]
  rw [tagAt?, hdrop]
  simp only [hbody, htake, List.length_replicate, Option.map_some]

theorem of_tagAt?_eq_some {s : List Char} (h : tagAt? s = some m) :
    s = tagText m.backslashes m.body ++ m.after ∧ IsTagBody m.body := by
  unfold tagAt? at h
  split at h
  next rest hdrop =>
    obtain ⟨⟨body, after⟩, hrest, he⟩ := Option.map_eq_some_iff.1 h
    cases he
    obtain ⟨rfl, hbody⟩ := tagBody?_eq_some.1 hrest
    have htake : s.takeWhile (· = '\\') =
        List.replicate (s.takeWhile (· = '\\')).length '\\' :=
      List.eq_replicate_iff.2 ⟨rfl, fun c hc => by simpa using List.mem_takeWhile_imp hc⟩
    refine ⟨?_, hbody⟩
    simp only [tagText, ← htake, List.append_assoc, List.cons_append, List.nil_append]
    rw [← hdrop, List.takeWhile_append_dropWhile]
  next => cases h

theorem tokens_nil : tokens [] = [] := by
  rw [tokens]
  rfl

theorem tokens_of_tagAt? {s : List Char} (h : tagAt? s = some m) :
    tokens s = .tag m.backslashes m.body :: tokens m.after := by
  rw [tokens]
  split
  next m' h' =>
    cases h.symm.trans h'
    rfl
  next h' => cases h.symm.trans h'

theorem tokens_cons (h : tagAt? (c :: s) = none) : tokens (c :: s) = .char c :: tokens s := by
  rw [tokens]
  split
  next m' h' => cases h.symm.trans h'
  next => rfl

theorem tokens_tagText (n : Nat) (h : IsTagBody body) (after : List Char) :
    tokens (tagText n body ++ after) = .tag n body :: tokens after :=
  tokens_of_tagAt? (tagAt?_tagText n h after)

/-- A text is empty, or begins with a tag, or with a character of its own. -/
@[elab_as_elim]
theorem tokens_induction {motive : List Char → Prop} (nil : motive [])
    (tag : ∀ s m, tagAt? s = some m → motive m.after → motive s)
    (char : ∀ c s, tagAt? (c :: s) = none → motive s → motive (c :: s)) (s : List Char) :
    motive s := by
  induction s using tokens.induct with
  | case1 s m h _ ih => exact tag s m h ih
  | case2 => exact nil
  | case3 c s h ih => exact char c s h ih

/-- What a token has been read from. -/
def Token.spelled : Token → List Char
  | char c => [c]
  | tag n body => tagText n body

theorem spelled_tokens (s : List Char) : (tokens s).flatMap Token.spelled = s := by
  induction s using tokens_induction with
  | nil =>
    rw [tokens_nil]
    rfl
  | tag s m h ih =>
    rw [tokens_of_tagAt? h, List.flatMap_cons, ih]
    exact (of_tagAt?_eq_some h).1.symm
  | char c s h ih =>
    rw [tokens_cons h, List.flatMap_cons, ih]
    rfl

/-! A text in which no tag stands is read as its characters. -/

/-- No tag stands in the text. -/
def IsUntagged (s : List Char) : Prop :=
  ∀ body, IsTagBody body → ¬ '[' :: (body ++ [']']) <:+: s

theorem IsUntagged.of_infix (h : IsUntagged s) (hp : p <:+: s) : IsUntagged p :=
  fun body hbody hin => h body hbody (hin.trans hp)

theorem untagged_cons (hc : c ≠ '[') : IsUntagged (c :: s) ↔ IsUntagged s := by
  constructor
  · exact fun h => h.of_infix (List.suffix_cons c s).isInfix
  · intro h body hbody hin
    rcases List.infix_cons_iff.1 hin with ⟨after, hs⟩ | hin
    · exact hc (List.cons.inj hs).1.symm
    · exact h body hbody hin

theorem not_untagged_tagText (n : Nat) (h : IsTagBody body) (after : List Char) :
    ¬ IsUntagged (tagText n body ++ after) :=
  fun hu => hu body h ⟨List.replicate n '\\', after, rfl⟩

theorem tokens_of_untagged (h : IsUntagged s) : tokens s = s.map .char := by
  induction s using tokens_induction with
  | nil => exact tokens_nil
  | tag s m hm _ =>
    obtain ⟨hs, hbody⟩ := of_tagAt?_eq_some hm
    rw [hs] at h
    exact absurd h (not_untagged_tagText _ hbody _)
  | char c s hc ih =>
    rw [tokens_cons hc, ih (h.of_infix (List.suffix_cons c s).isInfix), List.map_cons]

theorem untagged_of_tokens (h : ∀ n body, .tag n body ∉ tokens s) : IsUntagged s := by
  induction s using tokens_induction with
  | nil =>
    intro body _ hin
    cases List.infix_nil.1 hin
  | tag s m hm _ =>
    rw [tokens_of_tagAt? hm] at h
    exact absurd List.mem_cons_self (h m.backslashes m.body)
  | char c s htag ih =>
    rw [tokens_cons htag] at h
    intro body hbody hin
    rcases List.infix_cons_iff.1 hin with ⟨after, hs⟩ | hin
    · have hsome := tagAt?_tagText 0 hbody after
      rw [tagText, List.replicate_zero, List.nil_append, hs, htag] at hsome
      cases hsome
    · exact ih (fun n body hm => h n body (List.mem_cons_of_mem _ hm)) body hbody hin

/-! Where a text may be cut, and its parts read apart. -/

theorem untilBracket_append {s rest : List Char} (hs : untilBracket s = none)
    (hrest : untilBracket rest = none) : untilBracket (s ++ rest) = none := by
  fun_induction untilBracket s with
  | case1 => exact hrest
  | case2 => cases hs
  | case3 => rfl
  | case4 c s hclose hopen ih =>
    rw [List.cons_append, untilBracket_cons hopen hclose, ih (Option.map_eq_none_iff.1 hs)]
    rfl

theorem tagBody?_eq_none {s : List Char} :
    tagBody? (c :: s) = none ↔ (isTagStart c = true → untilBracket s = none) := by
  rw [tagBody?]
  split
  next hc => rw [Option.map_eq_none_iff, forall_prop_of_true hc]
  next hc => exact iff_of_true rfl fun h => absurd h hc

theorem ne_of_isTagStart (h : isTagStart c = true) : c ≠ '[' ∧ c ≠ ']' ∧ c ≠ '\\' := by
  refine ⟨?_, ?_, ?_⟩ <;> rintro rfl <;> exact absurd h (by decide)

theorem tagBody?_of_untilBracket {s : List Char} (h : untilBracket s = none) :
    tagBody? s = none := by
  cases s with
  | nil => rfl
  | cons c s =>
    refine tagBody?_eq_none.2 fun hc => ?_
    obtain ⟨hopen, hclose, -⟩ := ne_of_isTagStart hc
    rwa [untilBracket_cons hopen hclose, Option.map_eq_none_iff] at h

theorem tagBody?_append {s rest : List Char} (hs : tagBody? s = none)
    (hrest : untilBracket rest = none) : tagBody? (s ++ rest) = none := by
  cases s with
  | nil => exact tagBody?_of_untilBracket hrest
  | cons c s =>
    exact tagBody?_eq_none.2 fun hc => untilBracket_append (tagBody?_eq_none.1 hs hc) hrest

theorem tagAt?_append {s rest : List Char} (hs : tagAt? s = none) (hne : s ≠ [])
    (hrest : untilBracket rest = none) (hend : ['\\'] <:+ s → tagAt? rest = none) :
    tagAt? (s ++ rest) = none := by
  induction s with
  | nil => exact absurd rfl hne
  | cons c s ih =>
    by_cases hc : c = '\\'
    · subst hc
      rw [List.cons_append, tagAt?_backslash]
      cases s with
      | nil => exact hend List.suffix_rfl
      | cons d s =>
        exact ih ((tagAt?_backslash _).1 hs) (List.cons_ne_nil d s) fun h =>
          hend (h.trans (List.suffix_cons _ _))
    · by_cases hb : c = '['
      · subst hb
        exact (tagAt?_bracket _).2 (tagBody?_append ((tagAt?_bracket s).1 hs) hrest)
      · exact tagAt?_other hc hb _

/-- Two texts are read apart if no tag can reach over the cut. -/
theorem tokens_append {s rest : List Char} (hrest : untilBracket rest = none)
    (hend : ['\\'] <:+ s → tagAt? rest = none) : tokens (s ++ rest) = tokens s ++ tokens rest := by
  induction s using tokens_induction with
  | nil =>
    rw [tokens_nil]
    rfl
  | tag s m h ih =>
    obtain ⟨hs, hbody⟩ := of_tagAt?_eq_some h
    have hafter : m.after <:+ s := ⟨_, hs.symm⟩
    rw [tokens_of_tagAt? h, hs, List.append_assoc, tokens_tagText _ hbody,
      ih fun h => hend (h.trans hafter)]
    rfl
  | char c s h ih =>
    have hcons : tagAt? (c :: (s ++ rest)) = none :=
      tagAt?_append h (List.cons_ne_nil c s) hrest hend
    rw [List.cons_append, tokens_cons hcons, tokens_cons h,
      ih fun h => hend (h.trans (List.suffix_cons c s))]
    rfl

/-- Characters that are neither brackets nor backslashes are read apart from what follows. -/
theorem tokens_plain_append (hbracket : '[' ∉ plain) (hbackslash : '\\' ∉ plain)
    (s : List Char) : tokens (plain ++ s) = plain.map .char ++ tokens s := by
  induction plain with
  | nil => rfl
  | cons c plain ih =>
    rw [List.mem_cons, not_or] at hbracket hbackslash
    rw [List.cons_append, tokens_cons (tagAt?_other (Ne.symm hbackslash.1) (Ne.symm hbracket.1) _),
      ih hbracket.2 hbackslash.2]
    rfl

/-! An escaped text has the same tags with other backslashes before them. -/

/-- A token as it is read again when it has been escaped. -/
def Token.kept : Token → Token
  | char c => char c
  | tag n body => tag (2 * n + 1) body

/-- The text with its tags escaped, whatever it ends in. -/
def escapeTags (s : List Char) : List Char :=
  (tokens s).flatMap Token.escaped

theorem Token.escaped_tag (n : Nat) (body : List Char) :
    (tag n body).escaped = tagText (2 * n + 1) body :=
  List.append_assoc _ _ _

theorem escapeTags_nil : escapeTags [] = [] := by
  rw [escapeTags, tokens_nil]
  rfl

theorem escapeTags_of_tagAt? {s : List Char} (h : tagAt? s = some m) :
    escapeTags s = tagText (2 * m.backslashes + 1) m.body ++ escapeTags m.after := by
  rw [escapeTags, tokens_of_tagAt? h, List.flatMap_cons, Token.escaped_tag]
  rfl

theorem escapeTags_cons (h : tagAt? (c :: s) = none) :
    escapeTags (c :: s) = c :: escapeTags s := by
  rw [escapeTags, tokens_cons h]
  rfl

/-- No bracket is closed before one opens again. -/
theorem untilBracket_tagText (n : Nat) (body after : List Char) :
    untilBracket (tagText n body ++ after) = none := by
  induction n with
  | zero => rfl
  | succ n ih =>
    rw [tagText, List.replicate_succ, List.cons_append, List.cons_append,
      untilBracket_cons (by decide) (by decide)]
    exact Option.map_eq_none_iff.2 ih

theorem untilBracket_escapeTags {s : List Char} (h : untilBracket s = none) :
    untilBracket (escapeTags s) = none := by
  induction s using tokens_induction with
  | nil => rwa [escapeTags_nil]
  | tag s m hm _ => rw [escapeTags_of_tagAt? hm, untilBracket_tagText]
  | char c s hc ih =>
    rw [escapeTags_cons hc]
    by_cases hopen : c = '['
    · rw [hopen]
      rfl
    · have hclose : c ≠ ']' := by
        rintro rfl
        cases h
      rw [untilBracket_cons hopen hclose, Option.map_eq_none_iff] at h ⊢
      exact ih h

theorem tagBody?_escapeTags {s : List Char} (h : tagBody? s = none) :
    tagBody? (escapeTags s) = none := by
  cases hs : tagAt? s with
  | some m =>
    rw [escapeTags_of_tagAt? hs]
    exact tagBody?_of_untilBracket (untilBracket_tagText _ _ _)
  | none =>
    cases s with
    | nil => rwa [escapeTags_nil]
    | cons c s =>
      rw [escapeTags_cons hs]
      exact tagBody?_eq_none.2 fun hc => untilBracket_escapeTags (tagBody?_eq_none.1 h hc)

/-- Escaping the tags of a text makes none at its beginning. -/
theorem tagAt?_escapeTags {s : List Char} (h : tagAt? s = none) : tagAt? (escapeTags s) = none := by
  induction s with
  | nil => rwa [escapeTags_nil]
  | cons c s ih =>
    rw [escapeTags_cons h]
    by_cases hc : c = '\\'
    · subst hc
      exact (tagAt?_backslash _).2 (ih ((tagAt?_backslash s).1 h))
    · by_cases hb : c = '['
      · subst hb
        exact (tagAt?_bracket _).2 (tagBody?_escapeTags ((tagAt?_bracket s).1 h))
      · exact tagAt?_other hc hb _

/-- The tags of an escaped text are those of the text, each with an odd number of backslashes. -/
theorem tokens_escapeTags (s : List Char) :
    tokens (escapeTags s) = (tokens s).map Token.kept := by
  induction s using tokens_induction with
  | nil => rw [escapeTags_nil, tokens_nil, List.map_nil]
  | tag s m h ih =>
    rw [escapeTags_of_tagAt? h, tokens_tagText _ (of_tagAt?_eq_some h).2, ih, tokens_of_tagAt? h]
    rfl
  | char c s h ih =>
    have hcons : tagAt? (c :: escapeTags s) = none := escapeTags_cons h ▸ tagAt?_escapeTags h
    rw [escapeTags_cons h, tokens_cons hcons, tokens_cons h, ih]
    rfl

/-! The backslashes that a text ends in. -/

theorem backslash_suffix_iff {s : List Char} : ['\\'] <:+ s ↔ s.getLast? = some '\\' :=
  List.singleton_suffix_iff_getLast?_eq_some

/-- A text is split at the backslashes that it ends in. -/
theorem exists_backslashes (s : List Char) :
    ∃ init n, s = init ++ List.replicate n '\\' ∧ ¬ ['\\'] <:+ init := by
  induction s using List.reverseRecOn with
  | nil => exact ⟨[], 0, rfl, by decide⟩
  | append_singleton s c ih =>
    by_cases hc : c = '\\'
    · obtain ⟨init, n, rfl, hinit⟩ := ih
      exact ⟨init, n + 1, by rw [hc, List.replicate_succ', List.append_assoc], hinit⟩
    · refine ⟨s ++ [c], 0, (List.append_nil _).symm, fun h => hc ?_⟩
      rw [backslash_suffix_iff, List.getLast?_concat] at h
      exact Option.some.inj h

/-- A text that is split at its last backslashes ends in no more than those. -/
theorem backslashes_suffix_iff (hinit : ¬ ['\\'] <:+ init) {m n : Nat} :
    List.replicate m '\\' <:+ init ++ List.replicate n '\\' ↔ m ≤ n := by
  constructor
  · intro h
    by_contra hlt
    obtain ⟨k, rfl⟩ : ∃ k, m = 1 + k + n := ⟨m - n - 1, by omega⟩
    rw [List.replicate_add, List.suffix_append_self_iff, Nat.add_comm, List.replicate_add] at h
    exact hinit ((List.suffix_append _ _).trans h)
  · intro h
    obtain ⟨k, rfl⟩ := Nat.exists_eq_add_of_le' h
    rw [List.replicate_add, ← List.append_assoc]
    exact List.suffix_append _ _

theorem backslash_suffix_append (hinit : ¬ ['\\'] <:+ init) :
    ['\\'] <:+ init ++ List.replicate n '\\' ↔ 1 ≤ n :=
  backslashes_suffix_iff hinit (m := 1)

theorem two_backslashes_suffix_append (hinit : ¬ ['\\'] <:+ init) :
    ['\\', '\\'] <:+ init ++ List.replicate n '\\' ↔ 2 ≤ n :=
  backslashes_suffix_iff hinit (m := 2)

theorem untagged_of_not_mem (h : '[' ∉ s) : IsUntagged s :=
  fun _ _ hin => h (hin.mem List.mem_cons_self)

theorem not_mem_backslashes (hc : c ≠ '\\') (n : Nat) : c ∉ List.replicate n '\\' :=
  fun h => hc (List.eq_of_mem_replicate h)

theorem untilBracket_of_not_mem {s : List Char} (h : ']' ∉ s) : untilBracket s = none := by
  refine Option.eq_none_iff_forall_ne_some.2 fun ⟨body, after⟩ hs => h ?_
  rw [(untilBracket_eq_some.1 hs).1]
  exact List.mem_append_right body List.mem_cons_self

theorem getLast?_escapeTags (s : List Char) : (escapeTags s).getLast? = s.getLast? := by
  have htag : ∀ n body, (tagText n body).getLast? = some ']' := by
    intro n body
    rw [tagText, ← List.cons_append, ← List.append_assoc, List.getLast?_concat]
  induction s using tokens_induction with
  | nil => rw [escapeTags_nil]
  | tag s m h ih =>
    rw [escapeTags_of_tagAt? h]
    conv_rhs => rw [(of_tagAt?_eq_some h).1]
    rw [List.getLast?_append, List.getLast?_append, ih, htag, htag]
  | char c s h ih => rw [escapeTags_cons h, List.getLast?_cons, List.getLast?_cons, ih]

theorem tagAt?_backslashes (n : Nat) : tagAt? (List.replicate n '\\') = none := by
  induction n with
  | zero => rfl
  | succ n ih => exact (tagAt?_backslash _).2 ih

theorem tokens_append_backslashes (s : List Char) (n : Nat) :
    tokens (s ++ List.replicate n '\\') = tokens s ++ (List.replicate n '\\').map .char := by
  rw [tokens_append (untilBracket_of_not_mem (not_mem_backslashes (by decide) n))
      fun _ => tagAt?_backslashes n,
    tokens_of_untagged (untagged_of_not_mem (not_mem_backslashes (by decide) n))]

theorem escapeTags_append {s rest : List Char} (hrest : untilBracket rest = none)
    (hend : ['\\'] <:+ s → tagAt? rest = none) :
    escapeTags (s ++ rest) = escapeTags s ++ escapeTags rest := by
  rw [escapeTags, tokens_append hrest hend, List.flatMap_append]
  rfl

theorem escapeTags_of_untagged (h : IsUntagged s) : escapeTags s = s := by
  rw [escapeTags, tokens_of_untagged h, List.flatMap_map]
  exact List.flatMap_singleton' s

theorem escapeTags_append_backslashes (s : List Char) (n : Nat) :
    escapeTags (s ++ List.replicate n '\\') = escapeTags s ++ List.replicate n '\\' := by
  rw [escapeTags_append (untilBracket_of_not_mem (not_mem_backslashes (by decide) n))
      fun _ => tagAt?_backslashes n,
    escapeTags_of_untagged (untagged_of_not_mem (not_mem_backslashes (by decide) n))]

theorem escapeTags_plain_append (hbracket : '[' ∉ plain) (hbackslash : '\\' ∉ plain)
    (s : List Char) : escapeTags (plain ++ s) = plain ++ escapeTags s := by
  rw [escapeTags, tokens_plain_append hbracket hbackslash, List.flatMap_append, List.flatMap_map]
  exact congrArg (· ++ escapeTags s) (List.flatMap_singleton' plain)

/-- The number of backslashes that are added to those at the end of a text when it is escaped. -/
def addedBackslashes (n : Nat) : Nat :=
  if n = 1 then 1 else 0

/-- In an escaped text the tags are escaped, and a single backslash at the end is doubled. -/
theorem toList_escape (hs : s.toList = init ++ List.replicate n '\\')
    (hinit : ¬ ['\\'] <:+ init) :
    (escape s).toList = escapeTags s.toList ++ List.replicate (addedBackslashes n) '\\' := by
  have hlast : (escapeTags init).reverse.head? ≠ some '\\' := by
    rwa [List.head?_reverse, getLast?_escapeTags, Ne, ← backslash_suffix_iff]
  have hescaped := escapeTags_append_backslashes init n
  rw [escape, String.toList_ofList, hs]
  rw [escapeTags] at hescaped ⊢
  rw [hescaped, List.reverse_append, List.reverse_replicate]
  match n with
  | 0 =>
    split
    next h => exact absurd (congrArg List.head? h) hlast
    next h => exact absurd (congrArg List.head? h) hlast
    next => exact (List.append_nil _).symm
  | 1 =>
    split
    next h => exact absurd (congrArg List.head? (List.cons.inj h).2) hlast
    next => rfl
    next h => exact absurd rfl (h _)
  | n + 2 => exact (List.append_nil _).symm

end AppManifest.Console
