import AppManifest.Proofs.Console.Markup
import AppManifest.Proofs.Console.Steady

namespace AppManifest.Console
set_option autoImplicit true

/-! What a text in markup prints, from the pieces that its tokens come to. -/

/-- What a token leaves of its text: of the backslashes before a tag every second, and the tag
itself if their number is odd. -/
def Token.shown : Token → List Char
  | char c => [c]
  | tag n body =>
    List.replicate (n / 2) '\\' ++ if n % 2 = 1 then '[' :: (body ++ [']']) else []

def Piece.text : Piece → List Char
  | plain text => text
  | opening _ _ => []
  | closing _ => []

theorem text_ofReversed (plain : List Char) :
    (Piece.ofReversed plain).flatMap Piece.text = plain.reverse := by
  cases plain with
  | nil => rfl
  | cons c plain => exact List.append_nil _

theorem text_ofTag (body : List Char) : (Piece.ofTag body).text = [] := by
  unfold Piece.ofTag
  split <;> rfl

/-- The pieces have the text of the tokens that they are made of. -/
theorem text_pieces (plain : List Char) (ts : List Token) :
    (pieces plain ts).flatMap Piece.text = plain.reverse ++ ts.flatMap Token.shown := by
  fun_induction pieces plain ts with
  | case1 plain => rw [text_ofReversed, List.flatMap_nil, List.append_nil]
  | case2 plain c ts ih =>
    rw [ih, List.reverse_cons, List.append_assoc]
    rfl
  | case3 plain n body ts ih =>
    rw [List.flatMap_append, List.flatMap_append, List.flatMap_cons, List.flatMap_cons, ih,
      text_ofReversed, text_ofReversed, List.reverse_replicate, Token.shown]
    split
    next => simp [Piece.text]
    next => simp [text_ofTag]

/-- What stands before a tag comes to pieces of its own. -/
theorem pieces_append_tag (plain : List Char) (ts : List Token) (n : Nat) (body : List Char)
    (us : List Token) : pieces plain (ts ++ .tag n body :: us) =
      pieces plain ts ++ pieces [] (.tag n body :: us) := by
  fun_induction pieces plain ts with
  | case1 plain =>
    rw [List.nil_append, pieces, pieces]
    simp [Piece.ofReversed]
  | case2 plain c ts ih => exact ih
  | case3 plain n' body' ts ih =>
    rw [List.cons_append, pieces, ih]
    simp

theorem marks_shown_tag (n : Nat) (body : List Char) :
    marks (Token.tag n body).shown < marks (Token.tag n body).spelled := by
  have hbracket (s : List Char) : marks ('[' :: s) = marks s + 1 := marks_cons rfl s
  rw [Token.shown, Token.spelled, tagText]
  split <;> simp only [marks_append, marks_backslashes, List.append_nil, hbracket] <;> omega

theorem reduced_shown (t : Token) : Reduced t.shown t.spelled := by
  cases t with
  | char c => exact .inl rfl
  | tag n body => exact .inr (marks_shown_tag n body)

theorem shown_chars (s : List Char) : (s.map Token.char).flatMap Token.shown = s := by
  rw [List.flatMap_map]
  exact List.flatMap_singleton' s

theorem reduced_tokens (s : List Char) : Reduced ((tokens s).flatMap Token.shown) s := by
  have h := Reduced.flatMap fun t (_ : t ∈ tokens s) => reduced_shown t
  rwa [spelled_tokens] at h

/-- All of a text is left just where no tag stands in it. -/
theorem shown_tokens_eq_self {s : List Char} :
    (tokens s).flatMap Token.shown = s ↔ IsUntagged s := by
  constructor
  · refine fun h => untagged_of_tokens fun n body hm => ?_
    have hmarks : marks ((tokens s).flatMap Token.spelled) ≤
        marks ((tokens s).flatMap Token.shown) := by
      rw [spelled_tokens, h]
    have heq := Reduced.eq_of_flatMap (fun t _ => reduced_shown t) hmarks _ hm
    exact (marks_shown_tag n body).ne (congrArg marks heq)
  · intro h
    rw [tokens_of_untagged h, shown_chars]

theorem shown_kept (t : Token) : t.kept.shown = t.spelled := by
  cases t with
  | char c => rfl
  | tag n body =>
    rw [Token.kept, Token.shown, if_pos (by omega), show (2 * n + 1) / 2 = n by omega]
    rfl

/-- All of an escaped text is left. -/
theorem shown_kept_tokens (s : List Char) :
    ((tokens s).map Token.kept).flatMap Token.shown = s := by
  rw [List.flatMap_map]
  simp only [shown_kept]
  exact spelled_tokens s

theorem mem_spelled_of_mem_shown {t : Token} (h : c ∈ t.shown) : c ∈ t.spelled := by
  cases t with
  | char d => exact h
  | tag n body =>
    rcases List.mem_append.1 h with h | h
    · refine List.mem_append_left _ (List.mem_replicate.2 ?_)
      obtain ⟨hn, hc⟩ := List.mem_replicate.1 h
      exact ⟨fun h0 => hn (by rw [h0]), hc⟩
    · split at h
      next => exact List.mem_append_right _ h
      next => cases h

theorem mem_of_mem_shown_tokens {s : List Char} (h : c ∈ (tokens s).flatMap Token.shown) :
    c ∈ s := by
  obtain ⟨t, ht, hc⟩ := List.mem_flatMap.1 h
  rw [← spelled_tokens s]
  exact List.mem_flatMap.2 ⟨t, ht, mem_spelled_of_mem_shown hc⟩

/-! A rendering prints the changed texts of its pieces, if it does not fail. -/

variable {T : Terminal}

/-- What pieces print, but for the layout. -/
def printed (T : Terminal) (ps : List Piece) : List Char :=
  ps.flatMap fun p => shownText T p.text

theorem printed_cons (p : Piece) (ps : List Piece) :
    printed T (p :: ps) = shownText T p.text ++ printed T ps :=
  List.flatMap_cons

theorem printed_append (ps qs : List Piece) :
    printed T (ps ++ qs) = printed T ps ++ printed T qs :=
  List.flatMap_append

theorem printed_concat (ps : List Piece) (text : List Char) :
    printed T (ps ++ [.plain text]) = printed T ps ++ shownText T text := by
  rw [printed_append, printed_cons]
  exact congrArg _ (List.append_nil _)

theorem printed_ofReversed (plain : List Char) :
    printed T (Piece.ofReversed plain) = shownText T plain.reverse := by
  cases plain with
  | nil => exact shownText_nil.symm
  | cons c plain => exact List.append_nil _

theorem text_add {r r' : Rendering} (h : r.add T p = .ok r') :
    r'.text = r.text ++ shownText T p.text := by
  have hnil : r.text = r.text ++ shownText T [] := by
    rw [shownText_nil, List.append_nil]
  cases p with
  | plain text =>
    cases h
    rfl
  | opening name parameters =>
    rw [Rendering.add] at h
    split at h
    next => cases h
    next =>
      cases h
      exact hnil
  | closing name =>
    obtain ⟨⟨tag, opened⟩, -, h⟩ := bind_eq_ok.1 h
    dsimp only at h
    split at h
    next =>
      cases h
      exact hnil
    next =>
      split at h
      next =>
        cases h
        exact hnil
      next => cases h

theorem text_foldlM {ps : List Piece} {r r' : Rendering}
    (h : ps.foldlM (Rendering.add T) r = .ok r') : r'.text = r.text ++ printed T ps := by
  induction ps generalizing r with
  | nil =>
    cases h
    exact (List.append_nil _).symm
  | cons p ps ih =>
    rw [List.foldlM_cons] at h
    obtain ⟨m, hm, h⟩ := bind_eq_ok.1 h
    rw [ih h, text_add hm, List.append_assoc]
    rfl

theorem text_finish {r : Rendering} (h : r.finish T = .ok text) : text = r.text := by
  unfold Rendering.finish at h
  dsimp only at h
  split at h
  next => cases h
  next =>
    cases h
    rfl

theorem eq_printed (h : printPieces T ps = .ok text) : text = printed T ps := by
  obtain ⟨r, hr, h⟩ := bind_eq_ok.1 h
  rw [text_finish h, text_foldlM hr]
  rfl

/-- Nothing that is laid out has hidden characters, whatever the pieces have. -/
theorem not_hidden_layOut (hT : T.IsFaithful) (h : c ∈ T.layOut (printed T ps)) :
    isHidden c = false := by
  rcases T.mem_layOut hT h with rfl | rfl | ⟨hmem, htab⟩
  · rfl
  · rfl
  · obtain ⟨p, -, hmem⟩ := List.mem_flatMap.1 hmem
    by_contra hc
    have hcontrol := (hidden_shownText hT (Bool.eq_true_of_not_eq_false hc) hmem).2
    exact hc (Bool.or_eq_false_iff.2 ⟨decide_eq_false htab, hcontrol⟩)

/-- A text with hidden characters is not printed, nor are those of its pieces. -/
theorem not_hidden_of_layOut (hT : T.IsFaithful) (h : T.layOut (printed T ps) = s)
    (hhidden : ∀ c, isHidden c = true → c ∈ ps.flatMap Piece.text → c ∈ s) :
    ∀ p ∈ ps, ∀ c ∈ p.text, isHidden c = false := by
  intro p hp c hc
  by_contra hne
  have hs := hhidden c (Bool.eq_true_of_not_eq_false hne) (List.mem_flatMap.2 ⟨p, hp, hc⟩)
  exact hne (not_hidden_layOut hT (h ▸ hs))

theorem marks_layOut (hT : T.IsFaithful) (s : List Char) : marks (T.layOut s) = marks s := by
  rw [← marks_filter, T.filter_layOut hT, marks_filter]

/-- Pieces with no more marks than a text come out as it just where they have that text, nothing in
them is changed, and all its lines have room. -/
theorem layOut_printed_iff (hT : T.IsFaithful) (hreduced : Reduced (ps.flatMap Piece.text) s)
    (hhidden : ∀ c, isHidden c = true → c ∈ ps.flatMap Piece.text → c ∈ s) :
    T.layOut (printed T ps) = s ↔
      ps.flatMap Piece.text = s ∧ (∀ p ∈ ps, IsSteady T p.text) ∧ T.HasRoom s := by
  have hjoin (hshown : ∀ p ∈ ps, shownText T p.text = p.text) :
      printed T ps = ps.flatMap Piece.text := by
    rw [printed, List.flatMap_def, List.flatMap_def, List.map_congr_left hshown]
  have htab (hs : ∀ p ∈ ps, ∀ c ∈ p.text, isHidden c = false) : '\t' ∉ ps.flatMap Piece.text := by
    intro hmem
    obtain ⟨p, hp, hmem⟩ := List.mem_flatMap.1 hmem
    cases hs p hp _ hmem
  constructor
  · intro h
    have hvisible := not_hidden_of_layOut hT h hhidden
    have hmarks : marks s = marks (printed T ps) := by rw [← h, marks_layOut hT]
    have hshown : ∀ p ∈ ps, shownText T p.text = p.text :=
      Reduced.eq_of_flatMap (fun p hp => reduced_shownText hT (hvisible p hp))
        (hreduced.marks_le.trans_eq hmarks)
    obtain rfl := hreduced.eq_of_le (hmarks.trans (congrArg marks (hjoin hshown))).le
    rw [hjoin hshown, T.layOut_eq_self hT (htab hvisible)] at h
    exact ⟨rfl, fun p hp => (steady_iff hT).2 ⟨hshown p hp, hvisible p hp⟩, h⟩
  · rintro ⟨rfl, hsteady, hroom⟩
    rw [hjoin fun p hp => ((steady_iff hT).1 (hsteady p hp)).1,
      T.layOut_eq_self hT (htab fun p hp => (hsteady p hp).visible)]
    exact hroom

/-! The pieces of plain characters, and a backslash at the end. -/

/-- Nothing is changed in the pieces that tokens come to. -/
def AllSteady (T : Terminal) (ts : List Token) : Prop :=
  ∀ p ∈ pieces [] ts, IsSteady T p.text

theorem allSteady_nil : AllSteady T [] := by
  intro p hp
  cases hp

theorem steady_ofReversed (hT : T.IsFaithful) {plain : List Char} :
    (∀ p ∈ Piece.ofReversed plain, IsSteady T p.text) ↔ IsSteady T plain.reverse := by
  cases plain with
  | nil => exact iff_of_true nofun (steady_nil hT)
  | cons c plain => exact List.forall_mem_singleton

theorem pieces_chars (plain s : List Char) (ts : List Token) :
    pieces plain (s.map .char ++ ts) = pieces (s.reverse ++ plain) ts := by
  induction s generalizing plain with
  | nil => rfl
  | cons c s ih =>
    rw [List.map_cons, List.cons_append, pieces, ih, List.reverse_cons, List.append_assoc]
    rfl

theorem allSteady_chars (hT : T.IsFaithful) {s : List Char} :
    AllSteady T (s.map .char) ↔ IsSteady T s := by
  have h := pieces_chars [] s []
  rw [List.append_nil, List.append_nil, pieces] at h
  rw [AllSteady, h, steady_ofReversed hT, List.reverse_reverse]

theorem printed_concat_backslash (plain : List Char) (ts : List Token) :
    printed T (pieces plain (ts ++ [.char '\\'])) = printed T (pieces plain ts) ++ ['\\'] := by
  fun_induction pieces plain ts with
  | case1 plain =>
    rw [List.nil_append, pieces, pieces, printed_ofReversed, printed_ofReversed,
      List.reverse_cons, shownText_concat (by decide) (by decide) rfl]
  | case2 plain c ts ih => exact ih
  | case3 plain n body ts ih =>
    rw [List.cons_append, pieces]
    simp only [printed_append, printed_cons, ih, List.append_assoc]

theorem printed_append_backslashes (ts : List Token) (n : Nat) :
    printed T (pieces [] (ts ++ (List.replicate n '\\').map .char)) =
      printed T (pieces [] ts) ++ List.replicate n '\\' := by
  induction n with
  | zero => rw [List.replicate_zero, List.map_nil, List.append_nil, List.append_nil]
  | succ n ih =>
    rw [List.replicate_succ', List.map_append, ← List.append_assoc, ← List.append_assoc, ← ih]
    exact printed_concat_backslash [] _

theorem steady_concat_backslash_pieces (hT : T.IsFaithful) (plain : List Char)
    (ts : List Token) : (∀ p ∈ pieces plain (ts ++ [.char '\\']), IsSteady T p.text) ↔
      ∀ p ∈ pieces plain ts, IsSteady T p.text := by
  fun_induction pieces plain ts with
  | case1 plain =>
    rw [List.nil_append, pieces, pieces, steady_ofReversed hT, steady_ofReversed hT,
      List.reverse_cons, steady_concat_backslash hT]
  | case2 plain c ts ih => exact ih
  | case3 plain n body ts ih =>
    rw [List.cons_append, pieces]
    simp only [List.forall_mem_append, List.forall_mem_cons, ih]

theorem allSteady_append_backslashes (hT : T.IsFaithful) (ts : List Token) (n : Nat) :
    AllSteady T (ts ++ (List.replicate n '\\').map .char) ↔ AllSteady T ts := by
  induction n with
  | zero => rw [List.replicate_zero, List.map_nil, List.append_nil]
  | succ n ih =>
    rw [List.replicate_succ', List.map_append, ← List.append_assoc, ← ih]
    exact steady_concat_backslash_pieces hT [] _

/-! Pieces of plain text around one color are printed without a fault. -/

def Piece.IsPlain : Piece → Prop
  | plain _ => True
  | _ => False

theorem plain_ofReversed (h : p ∈ Piece.ofReversed plain) : p.IsPlain := by
  unfold Piece.ofReversed at h
  split at h
  next => cases h
  next =>
    rw [List.mem_singleton.1 h]
    trivial

/-- Every tag among the tokens is escaped. -/
def IsEscaped (ts : List Token) : Prop :=
  ∀ n body, .tag n body ∈ ts → n % 2 = 1

theorem escaped_nil : IsEscaped [] := by
  intro n body h
  cases h

theorem escaped_chars (s : List Char) : IsEscaped (s.map .char) := by
  intro n body h
  obtain ⟨c, -, hc⟩ := List.mem_map.1 h
  cases hc

theorem escaped_of_untagged (h : IsUntagged s) : IsEscaped (tokens s) := by
  rw [tokens_of_untagged h]
  exact escaped_chars s

theorem escaped_kept (ts : List Token) : IsEscaped (ts.map Token.kept) := by
  intro n body h
  obtain ⟨t, -, ht⟩ := List.mem_map.1 h
  cases t with
  | char => cases ht
  | tag m body =>
    cases ht
    omega

theorem IsEscaped.append (h : IsEscaped ts) (h' : IsEscaped us) : IsEscaped (ts ++ us) :=
  fun n body hm => (List.mem_append.1 hm).elim (h n body) (h' n body)

theorem plain_pieces {ts : List Token} (h : IsEscaped ts) (hp : p ∈ pieces plain ts) :
    p.IsPlain := by
  fun_induction pieces plain ts with
  | case1 plain => exact plain_ofReversed hp
  | case2 plain c ts ih => exact ih (fun n body hm => h n body (List.mem_cons_of_mem _ hm)) hp
  | case3 plain n body ts ih =>
    rw [if_pos (h n body List.mem_cons_self), List.mem_append, List.mem_append] at hp
    rcases hp with (hp | hp) | hp
    · exact plain_ofReversed hp
    · exact plain_ofReversed hp
    · rcases List.mem_cons.1 hp with rfl | hp
      · trivial
      · exact ih (fun n body hm => h n body (List.mem_cons_of_mem _ hm)) hp

theorem foldlM_plain {ps : List Piece} (h : ∀ p ∈ ps, p.IsPlain) (r : Rendering) :
    ps.foldlM (Rendering.add T) r = .ok { r with text := r.text ++ printed T ps } := by
  induction ps generalizing r with
  | nil =>
    rw [printed, List.flatMap_nil, List.append_nil]
    rfl
  | cons p ps ih =>
    cases p with
    | plain text =>
      rw [List.foldlM_cons, Rendering.add, ok_bind, ih fun q hq => h q (List.mem_cons_of_mem _ hq)]
      simp only [printed, List.flatMap_cons, List.append_assoc, Piece.text, shownText]
    | opening => cases h _ List.mem_cons_self
    | closing => cases h _ List.mem_cons_self

/-- The colors of the messages. -/
def palette : List String := ["red", "yellow", "cyan", "green"]

theorem normalize_palette : ∀ color ∈ palette, StyleName.normalize color = .ok color := by
  decide +kernel

theorem ofText_palette (hc : color ∈ palette) : ∃ s, StyleName.ofText color = .ok s := by
  have hok : ∀ color ∈ palette, (StyleName.ofText color).toOption.isSome = true := by
    decide +kernel
  obtain ⟨s, hs⟩ := Option.isSome_iff_exists.1 (hok color hc)
  exact ⟨s, eq_ok_of_toOption hs⟩

theorem finish_eq (r : Rendering) (hopened : ∀ tag ∈ r.opened, tag.style ∈ palette)
    (hspans : ∀ s ∈ r.spans, s.style ∈ palette) : r.finish T = .ok r.text := by
  unfold Rendering.finish
  dsimp only
  refine if_neg (Bool.not_eq_true _ ▸ List.any_eq_false.2 fun s hs => ?_)
  have hstyle : s.style ∈ palette := by
    rcases List.mem_append.1 (List.mem_filter.1 hs).1 with hs | hs
    · obtain ⟨tag, htag, rfl⟩ := List.mem_map.1 hs
      exact hopened tag htag
    · exact hspans s hs
  obtain ⟨style, hok⟩ := ofText_palette hstyle
  rw [hok]
  exact Bool.false_ne_true

theorem add_opening (hc : color ∈ palette) (r : Rendering) :
    r.add T (.opening color none) =
      .ok { r with opened := ⟨r.text.length, color, none⟩ :: r.opened } := by
  rw [Rendering.add, normalize_palette color hc]

theorem add_closing (hc : color ∈ palette) (r : Rendering)
    (h : r.opened = ⟨start, color, none⟩ :: opened) :
    r.add T (.closing color) =
      .ok { r with opened, spans := ⟨start, r.text.length, color⟩ :: r.spans } := by
  have hword : ∀ color ∈ palette, color ≠ "" ∧ color.toList.head? ≠ some '@' := by decide
  obtain ⟨hempty, haction⟩ := hword color hc
  have hclose : closeTag color r.opened = .ok (⟨start, color, none⟩, opened) := by
    unfold closeTag
    rw [if_neg hempty, normalize_palette color hc, h]
    simp
  rw [Rendering.add, hclose, ok_bind]
  simp only [OpenTag.isAction, decide_eq_false haction]
  rfl

/-- A color that is closed again, or is not, is no fault. -/
theorem exists_printPieces (hc : color ∈ palette) {as bs cs : List Piece}
    (has : ∀ p ∈ as, p.IsPlain) (hbs : ∀ p ∈ bs, p.IsPlain) (hcs : ∀ p ∈ cs, p.IsPlain) :
    (∃ text, printPieces T (as ++ .opening color none :: bs) = .ok text) ∧
    ∃ text, printPieces T
      (as ++ .opening color none :: (bs ++ .closing color :: cs)) = .ok text := by
  constructor
  · rw [printPieces, List.foldlM_append, foldlM_plain has, ok_bind, List.foldlM_cons,
      add_opening hc, ok_bind, foldlM_plain hbs, ok_bind, finish_eq]
    · exact ⟨_, rfl⟩
    · intro tag htag
      rw [List.mem_singleton.1 htag]
      exact hc
    · exact nofun
  · rw [printPieces, List.foldlM_append, foldlM_plain has, ok_bind, List.foldlM_cons,
      add_opening hc, ok_bind, List.foldlM_append, foldlM_plain hbs, ok_bind, List.foldlM_cons,
      add_closing hc _ rfl, ok_bind, foldlM_plain hcs, ok_bind, finish_eq]
    · exact ⟨_, rfl⟩
    · exact nofun
    · intro s hs
      rw [List.mem_singleton.1 hs]
      exact hc

end AppManifest.Console
