import AppManifest.Proofs.Console.Rendering

namespace AppManifest.Console
set_option autoImplicit true

/-! Lines with one colored stretch, and when they print as a given text. -/

theorem ofTag_palette : ∀ color ∈ palette, Piece.ofTag color.toList = .opening color none ∧
    Piece.ofTag ('/' :: color.toList) = .closing color := by
  simp only [palette, List.forall_mem_cons]
  exact ⟨⟨rfl, rfl⟩, ⟨rfl, rfl⟩, ⟨rfl, rfl⟩, ⟨rfl, rfl⟩, nofun⟩

theorem tagBody_palette : ∀ color ∈ palette, IsTagBody color.toList ∧
    IsTagBody ('/' :: color.toList) := by
  decide

/-- The tokens of a line with a stretch in a color, and some backslashes before the tag that should
close it. -/
structure Frame where
  color : String
  before : List Token := []
  inside : List Token
  backslashes : Nat := 0
  after : List Token := []

/-- Tokens print as a text. -/
def Prints (T : Terminal) (ts : List Token) (s : List Char) : Prop :=
  ∃ text, printPieces T (pieces [] ts) = .ok text ∧ T.layOut text = s

variable {T : Terminal}

theorem prints_iff : Prints T ts s ↔
    (∃ text, printPieces T (pieces [] ts) = .ok text) ∧
      T.layOut (printed T (pieces [] ts)) = s := by
  constructor
  · rintro ⟨text, h, hs⟩
    rw [eq_printed h] at hs
    exact ⟨⟨text, h⟩, hs⟩
  · rintro ⟨⟨text, h⟩, hs⟩
    rw [← eq_printed h] at hs
    exact ⟨text, h, hs⟩

namespace Frame

def tokens (f : Frame) : List Token :=
  f.before ++ .tag 0 f.color.toList ::
    (f.inside ++ .tag f.backslashes ('/' :: f.color.toList) :: f.after)

structure IsEscaped (f : Frame) : Prop where
  before : Console.IsEscaped f.before
  inside : Console.IsEscaped f.inside
  after : Console.IsEscaped f.after

/-- What a line leaves of its text if its color is closed. -/
def text (f : Frame) : List Char :=
  f.before.flatMap Token.shown ++ (f.inside.flatMap Token.shown ++
    (List.replicate (f.backslashes / 2) '\\' ++ f.after.flatMap Token.shown))

/-- The pieces of a line end with the color closed, or with its closing tag as text. -/
theorem pieces_tokens (f : Frame) (hc : f.color ∈ palette) :
    pieces [] f.tokens = pieces [] f.before ++ .opening f.color none :: (pieces [] f.inside ++
      Piece.ofReversed (List.replicate (f.backslashes / 2) '\\') ++
      (if f.backslashes % 2 = 1 then .plain ('[' :: ('/' :: f.color.toList ++ [']']))
        else .closing f.color) :: pieces [] f.after) := by
  obtain ⟨hopening, hclosing⟩ := ofTag_palette f.color hc
  rw [tokens, pieces_append_tag, pieces, pieces_append_tag, pieces, hopening, hclosing]
  simp [Piece.ofReversed]

/-- A line whose tags are escaped is printed, whatever its text. -/
theorem exists_prints (f : Frame) (hc : f.color ∈ palette) (h : f.IsEscaped) :
    ∃ s, Prints T f.tokens s := by
  have hplain : ∀ p ∈ pieces [] f.inside ++
      Piece.ofReversed (List.replicate (f.backslashes / 2) '\\'), p.IsPlain := by
    intro p hp
    rcases List.mem_append.1 hp with hp | hp
    · exact plain_pieces h.inside hp
    · exact plain_ofReversed hp
  have hafter : ∀ p ∈ pieces [] f.after, p.IsPlain := fun p hp => plain_pieces h.after hp
  have hprinted : ∃ text, printPieces T (pieces [] f.tokens) = .ok text := by
    rw [pieces_tokens f hc]
    split
    next =>
      refine (exists_printPieces hc (fun p hp => plain_pieces h.before hp) ?_ hafter).1
      intro p hp
      rcases List.mem_append.1 hp with hp | hp
      · exact hplain p hp
      · rcases List.mem_cons.1 hp with rfl | hp
        · trivial
        · exact hafter p hp
    next => exact (exists_printPieces hc (fun p hp => plain_pieces h.before hp) hplain hafter).2
  obtain ⟨text, hprinted⟩ := hprinted
  exact ⟨T.layOut text, text, hprinted, rfl⟩

theorem text_pieces_tokens (f : Frame) (h : f.backslashes % 2 = 0) :
    (pieces [] f.tokens).flatMap Piece.text = f.text := by
  rw [text_pieces, tokens, text]
  simp [Token.shown, h]

theorem steady_tokens_iff (hT : T.IsFaithful) (f : Frame) (hc : f.color ∈ palette)
    (h : f.backslashes % 2 = 0) : AllSteady T f.tokens ↔
      AllSteady T f.before ∧ AllSteady T f.inside ∧ AllSteady T f.after := by
  have hbackslashes : ∀ p ∈ Piece.ofReversed (List.replicate (f.backslashes / 2) '\\'),
      IsSteady T p.text := by
    rw [steady_ofReversed hT, List.reverse_replicate]
    exact steady_backslashes hT _
  unfold AllSteady
  rw [pieces_tokens f hc, if_neg (by omega)]
  simp only [List.forall_mem_append, List.forall_mem_cons, Piece.text, steady_nil hT, true_and]
  constructor
  · rintro ⟨h1, ⟨h2, -⟩, h3⟩
    exact ⟨h1, h2, h3⟩
  · rintro ⟨h1, h2, h3⟩
    exact ⟨h1, ⟨h2, hbackslashes⟩, h3⟩

/-- A line in which the color is closed prints as a text with no fewer marks just where it leaves
that text, nothing is changed in it, and all its lines have room. -/
theorem prints_text_iff (hT : T.IsFaithful) (f : Frame) (hc : f.color ∈ palette)
    (h : f.backslashes % 2 = 0) (hreduced : Reduced f.text s)
    (hhidden : ∀ c, isHidden c = true → c ∈ f.text → c ∈ s)
    (hescaped : f.text = s → f.IsEscaped) :
    Prints T f.tokens s ↔ f.text = s ∧
      (AllSteady T f.before ∧ AllSteady T f.inside ∧ AllSteady T f.after) ∧ T.HasRoom s := by
  rw [← text_pieces_tokens f h] at hreduced hhidden hescaped ⊢
  rw [prints_iff, layOut_printed_iff hT hreduced hhidden, ← steady_tokens_iff hT f hc h]
  refine and_iff_right_of_imp fun ⟨hs, _⟩ => ?_
  obtain ⟨_, text, hprinted, -⟩ := exists_prints (T := T) f hc (hescaped hs)
  exact ⟨text, hprinted⟩

/-- The backslashes that a line ends in after its color are all printed, where the printed text has
no more line ends than the line. -/
theorem suffix_of_prints (hT : T.IsFaithful) (f : Frame) (hc : f.color ∈ palette)
    (h : f.backslashes % 2 = 0) (hafter : f.after = ts ++ (List.replicate n '\\').map .char)
    (hn : n ≠ 0) (hhidden : ∀ c, isHidden c = true → c ∈ f.text → c ∈ s)
    (hlines : s.count '\n' ≤ f.text.count '\n') (hprints : Prints T f.tokens s) :
    List.replicate n '\\' <:+ s := by
  rw [← text_pieces_tokens f h] at hhidden hlines
  obtain ⟨-, rfl⟩ := prints_iff.1 hprints
  have hvisible := not_hidden_of_layOut hT rfl hhidden
  apply T.suffix_layOut hT
  · intro hmem
    obtain ⟨p, hp, hmem⟩ := List.mem_flatMap.1 hmem
    cases hvisible p hp _ (hidden_shownText hT rfl hmem).1
  · refine hlines.trans ?_
    rw [printed, List.count_flatMap, List.count_flatMap]
    exact List.sum_le_sum fun p _ => count_shownText T p.text
  · rw [pieces_tokens f hc, hafter, printed_append, printed_cons, printed_append, printed_cons,
      printed_append_backslashes]
    simp only [← List.append_assoc]
    exact List.suffix_append _ _
  · exact fun hnil => hn (List.replicate_eq_nil_iff _ |>.1 hnil)
  · exact List.all_eq_true.2 fun c hc => List.eq_of_mem_replicate hc ▸ rfl

end Frame

theorem getLast?_filter_concat {p : Char → Bool} (hc : p c = true) (s : List Char) :
    ((s ++ [c]).filter p).getLast? = some c := by
  rw [List.filter_append, List.filter_cons_of_pos hc, List.filter_nil, List.getLast?_concat]

/-- A line whose closing tag is escaped ends in that tag. -/
theorem not_prints_of_odd (hT : T.IsFaithful) (hc : color ∈ palette) (hodd : n % 2 = 1)
    (hs : ['\\'] <:+ s) : ¬ Prints T (Frame.tokens ⟨color, [], inside, n, []⟩) s := by
  intro h
  obtain ⟨before, hprinted⟩ : ∃ before,
      printed T (pieces [] (Frame.tokens ⟨color, [], inside, n, []⟩)) = before ++ [']'] := by
    have hclosing : shownText T ('[' :: ('/' :: color.toList ++ [']'])) =
        shownText T ('[' :: '/' :: color.toList) ++ [']'] :=
      shownText_concat (by decide) (by decide) rfl ('[' :: '/' :: color.toList)
    rw [Frame.pieces_tokens _ hc, if_pos hodd, ← List.cons_append, ← List.append_assoc,
      show pieces [] [] = [] from rfl, printed_concat, hclosing, ← List.append_assoc]
    exact ⟨_, rfl⟩
  obtain ⟨init, rfl⟩ := hs
  have hink := T.filter_layOut hT (before ++ [']'])
  rw [← hprinted, (prints_iff.1 h).2, hprinted] at hink
  have hlast := congrArg List.getLast? hink
  rw [getLast?_filter_concat (by decide), getLast?_filter_concat (by decide)] at hlast
  cases hlast

/-- Without anything around it, a colored text that ends in some backslashes prints as it is just
where twice as many stand in the line before the closing tag, nothing is changed in it, and all its
lines have room. -/
theorem prints_closed_iff (hT : T.IsFaithful) (hc : color ∈ palette) (hn : n ≤ 2 * m)
    (hinside : Reduced (inside.flatMap Token.shown) init)
    (hhidden : ∀ c, isHidden c = true → c ∈ inside.flatMap Token.shown → c ∈ init)
    (hescaped : inside.flatMap Token.shown = init → IsEscaped inside) :
    Prints T (Frame.tokens ⟨color, [], inside, n, []⟩) (init ++ List.replicate m '\\') ↔
      (n = 2 * m ∧ inside.flatMap Token.shown = init ∧ AllSteady T inside) ∧
        T.HasRoom (init ++ List.replicate m '\\') := by
  by_cases hodd : n % 2 = 1
  · refine iff_of_false (not_prints_of_odd hT hc hodd ?_) fun h => by omega
    obtain ⟨k, rfl⟩ : ∃ k, m = k + 1 := ⟨m - 1, by omega⟩
    rw [List.replicate_succ', ← List.append_assoc]
    exact List.suffix_append _ _
  · have htext : Frame.text ⟨color, [], inside, n, []⟩ =
        inside.flatMap Token.shown ++ List.replicate (n / 2) '\\' := by
      simp [Frame.text]
    have hsplit : inside.flatMap Token.shown ++ List.replicate (n / 2) '\\' =
        init ++ List.replicate m '\\' ↔ n = 2 * m ∧ inside.flatMap Token.shown = init := by
      constructor
      · intro h
        have hmarks := congrArg marks h
        rw [marks_append, marks_append, marks_backslashes, marks_backslashes] at hmarks
        have hle := hinside.marks_le
        exact ⟨by omega, hinside.eq_of_le (by omega)⟩
      · rintro ⟨rfl, h⟩
        rw [h, Nat.mul_div_cancel_left m (by decide)]
    have hbackslashes : Reduced (List.replicate (n / 2) '\\') (List.replicate m '\\') := by
      rcases (show n / 2 ≤ m by omega).eq_or_lt with h | h
      · exact .inl (by rw [h])
      · exact .inr (by rwa [marks_backslashes, marks_backslashes])
    rw [Frame.prints_text_iff hT _ hc (show n % 2 = 0 by omega), htext, hsplit]
    · rw [← and_assoc]
      refine and_congr_left fun _ => ?_
      rw [and_assoc]
      refine and_congr_right fun _ => and_congr_right fun _ => ?_
      exact ⟨fun h => h.2.1, fun h => ⟨allSteady_nil, h, allSteady_nil⟩⟩
    · rw [htext]
      exact hinside.append hbackslashes
    · intro c hc hmem
      rw [htext, List.mem_append] at hmem
      rcases hmem with hmem | hmem
      · exact List.mem_append_left _ (hhidden c hc hmem)
      · cases List.eq_of_mem_replicate hmem ▸ hc
    · rw [htext, hsplit]
      exact fun h => ⟨escaped_nil, hescaped h.2, escaped_nil⟩

end AppManifest.Console
