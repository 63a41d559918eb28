import AppManifest.Proofs.Console.Layout

namespace AppManifest.Console
set_option autoImplicit true

/-! What printing changes in plain text, and the texts in which it changes nothing. All changes but
those of blanks take out marks of the markup. -/

/-- A character that markup is made of, and the names of pictures. -/
def isMark (c : Char) : Bool :=
  c = '[' || c = '\\' || c = ':'

/-- A character that is never printed. -/
def isHidden (c : Char) : Bool :=
  c = '\t' || isControl c

def marks (s : List Char) : Nat :=
  s.countP isMark

theorem marks_append (s t : List Char) : marks (s ++ t) = marks s + marks t :=
  List.countP_append

theorem marks_cons (hc : isMark c = true) (s : List Char) : marks (c :: s) = marks s + 1 :=
  List.countP_cons_of_pos hc

theorem marks_backslashes (n : Nat) : marks (List.replicate n '\\') = n := by
  rw [marks, List.countP_replicate]
  rfl

/-- All marks can be seen. -/
theorem marks_filter (s : List Char) : marks (s.filter isInk) = marks s := by
  rw [marks, marks, List.countP_filter]
  refine List.countP_congr fun c _ => ?_
  have hink : isMark c = true → isInk c = true := by
    simp only [isMark, Bool.or_eq_true, decide_eq_true_eq]
    rintro ((rfl | rfl) | rfl) <;> decide
  rw [Bool.and_eq_true]
  exact and_iff_left_of_imp hink

/-- A text is the other one, or has fewer marks. -/
def Reduced (t s : List Char) : Prop :=
  t = s ∨ marks t < marks s

namespace Reduced

theorem marks_le (h : Reduced t s) : marks t ≤ marks s := by
  rcases h with rfl | h
  · exact le_rfl
  · exact h.le

theorem eq_of_le (h : Reduced t s) (hle : marks s ≤ marks t) : t = s :=
  h.resolve_right (Nat.not_lt.2 hle)

theorem append (h : Reduced t s) (h' : Reduced t' s') : Reduced (t ++ t') (s ++ s') := by
  have hle := h.marks_le
  have hle' := h'.marks_le
  rcases h with rfl | h
  · rcases h' with rfl | h'
    · exact .inl rfl
    · refine .inr ?_
      rw [marks_append, marks_append]
      omega
  · refine .inr ?_
    rw [marks_append, marks_append]
    omega

theorem cons (h : Reduced t s) (c : Char) : Reduced (c :: t) (c :: s) :=
  append (t := [c]) (.inl rfl) h

theorem trans (h : Reduced t s) (h' : Reduced s u) : Reduced t u := by
  rcases h' with rfl | h'
  · exact h
  · exact .inr (h.marks_le.trans_lt h')

/-- Pieces none of which has more marks than its counterpart join to a text with as many only if
all are their counterparts. -/
theorem eq_of_flatMap {f g : α → List Char} {l : List α} (h : ∀ a ∈ l, Reduced (f a) (g a))
    (hl : marks (l.flatMap g) ≤ marks (l.flatMap f)) : ∀ a ∈ l, f a = g a := by
  intro a ha
  refine (h a ha).resolve_right fun hlt => ?_
  rw [marks, marks, List.countP_flatMap, List.countP_flatMap] at hl
  exact absurd (List.sum_lt_sum _ _ (fun b hb => (h b hb).marks_le) ⟨a, ha, hlt⟩)
    (Nat.not_lt.2 hl)

theorem flatMap {f g : α → List Char} {l : List α} (h : ∀ a ∈ l, Reduced (f a) (g a)) :
    Reduced (l.flatMap f) (l.flatMap g) := by
  by_cases hl : marks (l.flatMap g) ≤ marks (l.flatMap f)
  · refine .inl ?_
    rw [List.flatMap_def, List.flatMap_def, List.map_congr_left (eq_of_flatMap h hl)]
  · exact .inr (Nat.not_le.1 hl)

end Reduced

/-- A change of texts that leaves a text as it is or takes marks out, and puts in nothing that is
hidden. -/
structure Reduces (f : List Char → List Char) : Prop where
  reduced : ∀ s, Reduced (f s) s
  hidden : ∀ s c, isHidden c = true → c ∈ f s → c ∈ s

namespace Reduces

theorem comp (hf : Reduces f) (hg : Reduces g) : Reduces fun s => f (g s) where
  reduced s := (hf.reduced _).trans (hg.reduced s)
  hidden s c hc h := hg.hidden s c hc (hf.hidden _ c hc h)

/-- Nothing that one change takes out is put back by another. -/
theorem comp_eq_self (hf : Reduces f) (hg : Reduces g) (s : List Char) :
    f (g s) = s ↔ g s = s ∧ f s = s := by
  constructor
  · intro h
    have hs : g s = s := (hg.reduced s).eq_of_le (by
      have hle := (hf.reduced (g s)).marks_le
      rwa [h] at hle)
    rw [hs] at h
    exact ⟨hs, h⟩
  · rintro ⟨hs, h⟩
    rw [hs, h]

end Reduces

/-! Backslashes before brackets. -/

theorem reduces_unescapeBrackets : Reduces unescapeBrackets where
  reduced s := by
    fun_induction unescapeBrackets s with
    | case1 rest ih =>
      refine .inr ((ih.cons '[').marks_le.trans_lt ?_)
      rw [marks_cons (c := '\\') rfl]
      exact Nat.lt_succ_self _
    | case2 c rest _ ih => exact ih.cons c
    | case3 => exact .inl rfl
  hidden s c hc h := by
    fun_induction unescapeBrackets s with
    | case1 rest ih =>
      rcases List.mem_cons.1 h with rfl | h
      · cases hc
      · exact List.mem_cons_of_mem _ (List.mem_cons_of_mem _ (ih h))
    | case2 d rest _ ih =>
      rcases List.mem_cons.1 h with rfl | h
      · exact List.mem_cons_self
      · exact List.mem_cons_of_mem _ (ih h)
    | case3 => exact h

theorem unescapeBrackets_eq_self {s : List Char} :
    unescapeBrackets s = s ↔ ¬ ['\\', '['] <:+: s := by
  fun_induction unescapeBrackets s with
  | case1 rest _ =>
    refine iff_of_false (fun h => ?_) (not_not_intro ⟨[], rest, rfl⟩)
    cases (List.cons.inj h).1
  | case2 c rest hc ih =>
    rw [List.cons_eq_cons, List.infix_cons_iff, not_or, ih, and_iff_right rfl]
    refine (and_iff_right ?_).symm
    rintro ⟨after, h⟩
    cases h
    exact hc after rfl rfl
  | case3 => exact iff_of_true rfl (by decide)

theorem unescapeBrackets_cons (hc : c ≠ '\\') (s : List Char) :
    unescapeBrackets (c :: s) = c :: unescapeBrackets s := by
  rw [unescapeBrackets]
  exact fun _ h => absurd h hc

theorem unescapeBrackets_concat (hc : c ≠ '[') (s : List Char) :
    unescapeBrackets (s ++ [c]) = unescapeBrackets s ++ [c] := by
  fun_induction unescapeBrackets s with
  | case1 rest ih =>
    rw [List.cons_append, List.cons_append, unescapeBrackets, ih]
    rfl
  | case2 d rest hd ih =>
    rw [List.cons_append, unescapeBrackets, ih]
    · rfl
    · rintro after rfl hafter
      cases rest with
      | nil => exact hc (List.cons.inj hafter).1
      | cons e rest =>
        rw [List.cons_append, List.cons_eq_cons] at hafter
        exact hd rest rfl (congrArg (· :: rest) hafter.1)
  | case3 =>
    rw [List.nil_append, unescapeBrackets]
    · rfl
    · rintro after - hafter
      cases hafter

/-! Pictures. -/

theorem untilColon_eq_some {s : List Char} (h : untilColon s = some (name, after)) :
    s = name ++ ':' :: after := by
  fun_induction untilColon s generalizing name with
  | case1 => cases h
  | case2 rest =>
    cases h
    rfl
  | case3 => cases h
  | case4 c rest _ _ ih =>
    obtain ⟨⟨name', after'⟩, hrest, he⟩ := Option.map_eq_some_iff.1 h
    cases he
    rw [ih hrest]
    rfl

variable {T : Terminal}

theorem withPictures_nil : T.withPictures [] = [] := by
  rw [Terminal.withPictures]

theorem withPictures_cons (hc : c ≠ ':') (s : List Char) :
    T.withPictures (c :: s) = c :: T.withPictures s := by
  rw [Terminal.withPictures, if_neg hc]

theorem withPictures_of_none {s : List Char} (h : untilColon s = none) :
    T.withPictures (':' :: s) = ':' :: T.withPictures s := by
  rw [Terminal.withPictures, if_pos rfl]
  split
  next h' => cases h.symm.trans h'
  next => rfl

theorem withPictures_of_some {s : List Char} (h : untilColon s = some (name, after)) :
    T.withPictures (':' :: s) =
      (T.picture? name).getD (':' :: name ++ [':']) ++ T.withPictures after := by
  rw [Terminal.withPictures, if_pos rfl]
  split
  next h' =>
    cases h.symm.trans h'
    rfl
  next h' => cases h.symm.trans h'

theorem not_mark_of_ordinary (h : isOrdinary c = true) : isMark c = false := by
  obtain ⟨hbracket, hbackslash, hcolon, -, -⟩ := isOrdinary_iff.1 h
  simp [isMark, hbracket, hbackslash, hcolon]

theorem not_hidden_of_ordinary (h : isOrdinary c = true) : isHidden c = false := by
  obtain ⟨-, -, -, htab, hcontrol⟩ := isOrdinary_iff.1 h
  simp [isHidden, htab, hcontrol]

/-- A name between colons is printed as its picture or as it is. -/
theorem reduced_picture (hT : T.IsFaithful) (name : List Char) :
    Reduced ((T.picture? name).getD (':' :: name ++ [':'])) (':' :: (name ++ [':'])) := by
  cases hp : T.picture? name with
  | none => exact .inl rfl
  | some picture =>
    have hnone : marks picture = 0 := by
      refine List.countP_eq_zero.2 fun c hc => ?_
      rw [not_mark_of_ordinary (List.all_eq_true.1 (hT.ordinary hp) c hc)]
      exact Bool.false_ne_true
    refine .inr (hnone.trans_lt ?_)
    rw [marks_cons rfl]
    exact Nat.succ_pos _

theorem hidden_of_picture (hT : T.IsFaithful) (hc : isHidden c = true)
    (h : c ∈ (T.picture? name).getD (':' :: name ++ [':'])) : c ∈ name := by
  cases hp : T.picture? name with
  | none =>
    rw [hp] at h
    rcases List.mem_cons.1 h with rfl | h
    · cases hc
    · rcases List.mem_append.1 h with h | h
      · exact h
      · cases List.mem_singleton.1 h ▸ hc
  | some picture =>
    rw [hp] at h
    cases (not_hidden_of_ordinary (List.all_eq_true.1 (hT.ordinary hp) c h)).symm.trans hc

theorem reduces_withPictures (hT : T.IsFaithful) : Reduces T.withPictures where
  reduced s := by
    induction s using Terminal.withPictures.induct with
    | case1 => exact .inl withPictures_nil
    | case2 rest name after h _ ih =>
      have hs : ':' :: rest = ':' :: (name ++ [':']) ++ after := by
        rw [untilColon_eq_some h, List.cons_append, List.append_assoc]
        rfl
      rw [withPictures_of_some h, hs]
      exact (reduced_picture hT name).append ih
    | case3 rest h ih =>
      rw [withPictures_of_none h]
      exact ih.cons ':'
    | case4 c rest hc ih =>
      rw [withPictures_cons hc]
      exact ih.cons c
  hidden s d hd hmem := by
    induction s using Terminal.withPictures.induct with
    | case1 => rwa [withPictures_nil] at hmem
    | case2 rest name after h _ ih =>
      rw [withPictures_of_some h, List.mem_append] at hmem
      rw [untilColon_eq_some h]
      rcases hmem with hmem | hmem
      · exact List.mem_cons_of_mem _ (List.mem_append_left _ (hidden_of_picture hT hd hmem))
      · exact List.mem_cons_of_mem _ (List.mem_append_right _ (List.mem_cons_of_mem _ (ih hmem)))
    | case3 rest h ih =>
      rw [withPictures_of_none h] at hmem
      exact (List.mem_cons.1 hmem).elim (fun h => h ▸ List.mem_cons_self)
        fun h => List.mem_cons_of_mem _ (ih h)
    | case4 c rest hc ih =>
      rw [withPictures_cons hc] at hmem
      exact (List.mem_cons.1 hmem).elim (fun h => h ▸ List.mem_cons_self)
        fun h => List.mem_cons_of_mem _ (ih h)

theorem not_mem_of_untilColon {s : List Char} (h : untilColon s = some (name, after)) :
    '\n' ∉ name := by
  fun_induction untilColon s generalizing name with
  | case1 => cases h
  | case2 rest =>
    cases h
    exact List.not_mem_nil
  | case3 => cases h
  | case4 c rest _ hblank ih =>
    obtain ⟨⟨name', after'⟩, hrest, he⟩ := Option.map_eq_some_iff.1 h
    cases he
    rw [List.mem_cons, not_or]
    refine ⟨?_, ih hrest⟩
    rintro rfl
    exact hblank rfl

/-- No name of a picture goes over a line end. -/
theorem count_withPictures (T : Terminal) (s : List Char) :
    s.count '\n' ≤ (T.withPictures s).count '\n' := by
  induction s using Terminal.withPictures.induct with
  | case1 => exact Nat.zero_le _
  | case2 rest name after h _ ih =>
    have hname : name.count '\n' = 0 := List.count_eq_zero.2 (not_mem_of_untilColon h)
    rw [withPictures_of_some h, untilColon_eq_some h, List.count_cons_of_ne (by decide),
      List.count_append, hname, List.count_cons_of_ne (by decide), Nat.zero_add,
      List.count_append]
    exact ih.trans (Nat.le_add_left _ _)
  | case3 rest h ih =>
    rw [withPictures_of_none h, List.count_cons_of_ne (by decide),
      List.count_cons_of_ne (by decide)]
    exact ih
  | case4 c rest hc ih =>
    rw [withPictures_cons hc, List.count_cons, List.count_cons]
    exact Nat.add_le_add_right ih _

theorem untilColon_concat_of_some {s : List Char} (h : untilColon s = some (name, after))
    (c : Char) : untilColon (s ++ [c]) = some (name, after ++ [c]) := by
  fun_induction untilColon s generalizing name with
  | case1 => cases h
  | case2 rest =>
    cases h
    rw [List.cons_append, untilColon, if_pos rfl]
  | case3 => cases h
  | case4 d rest hd hblank ih =>
    obtain ⟨⟨name', after'⟩, hrest, he⟩ := Option.map_eq_some_iff.1 h
    cases he
    rw [List.cons_append, untilColon, if_neg hd, if_neg hblank, ih hrest]
    rfl

theorem untilColon_concat_of_none {s : List Char} (h : untilColon s = none) (hc : c ≠ ':') :
    untilColon (s ++ [c]) = none := by
  fun_induction untilColon s with
  | case1 =>
    rw [List.nil_append, untilColon, if_neg hc]
    split <;> rfl
  | case2 rest => cases h
  | case3 d rest hd hblank => rw [List.cons_append, untilColon, if_neg hd, if_pos hblank]
  | case4 d rest hd hblank ih =>
    rw [List.cons_append, untilColon, if_neg hd, if_neg hblank, ih (Option.map_eq_none_iff.1 h)]
    rfl

theorem withPictures_concat (hc : c ≠ ':') (s : List Char) :
    T.withPictures (s ++ [c]) = T.withPictures s ++ [c] := by
  induction s using Terminal.withPictures.induct with
  | case1 => rw [List.nil_append, withPictures_cons hc, withPictures_nil, List.nil_append]
  | case2 rest name after h _ ih =>
    rw [List.cons_append, withPictures_of_some (untilColon_concat_of_some h c),
      withPictures_of_some h, ih, List.append_assoc]
  | case3 rest h ih =>
    rw [List.cons_append, withPictures_of_none (untilColon_concat_of_none h hc),
      withPictures_of_none h, ih, List.cons_append]
  | case4 d rest hd ih =>
    rw [List.cons_append, withPictures_cons hd, withPictures_cons hd, ih, List.cons_append]

/-! What is printed of a piece of plain text, and the pieces that are printed as they are. -/

/-- What is printed of a piece of plain text, but for the layout. -/
def shownText (T : Terminal) (text : List Char) : List Char :=
  (T.withPictures (unescapeBrackets text)).filter fun c => !isControl c

theorem shownText_nil : shownText T [] = [] := by
  rw [shownText, unescapeBrackets, withPictures_nil, List.filter_nil]

theorem reduces_unfiltered (hT : T.IsFaithful) :
    Reduces fun s => T.withPictures (unescapeBrackets s) :=
  (reduces_withPictures hT).comp reduces_unescapeBrackets

/-- Of a text without control characters marks at most are left out. -/
theorem reduced_shownText (hT : T.IsFaithful) (h : ∀ c ∈ text, isHidden c = false) :
    Reduced (shownText T text) text := by
  have hf := reduces_unfiltered hT
  have hfilter : shownText T text = T.withPictures (unescapeBrackets text) := by
    refine List.filter_eq_self.2 fun c hc => Bool.not_eq_true' _ ▸ ?_
    by_contra hcontrol
    have hhidden : isHidden c = true := by
      rw [isHidden, Bool.eq_true_of_not_eq_false hcontrol, Bool.or_true]
    cases (h c (hf.hidden _ c hhidden hc)).symm.trans hhidden
  rw [hfilter]
  exact hf.reduced text

theorem hidden_shownText (hT : T.IsFaithful) (hc : isHidden c = true) (h : c ∈ shownText T text) :
    c ∈ text ∧ isControl c = false := by
  obtain ⟨hmem, hcontrol⟩ := List.mem_filter.1 h
  exact ⟨(reduces_unfiltered hT).hidden _ c hc hmem, Bool.not_eq_true' _ ▸ hcontrol⟩

theorem count_unescapeBrackets (s : List Char) :
    (unescapeBrackets s).count '\n' = s.count '\n' := by
  fun_induction unescapeBrackets s with
  | case1 rest ih =>
    simpa using ih
  | case2 c rest _ ih => rw [List.count_cons, List.count_cons, ih]
  | case3 => rfl

/-- No line end is left out. -/
theorem count_shownText (T : Terminal) (text : List Char) :
    text.count '\n' ≤ (shownText T text).count '\n' := by
  rw [shownText, List.count_filter (by decide), ← count_unescapeBrackets]
  exact count_withPictures T _

/-- A text in which nothing is changed when it is printed: no backslash stands before a bracket, no
picture has a name in it, and its characters are neither tabs nor other controls. -/
structure IsSteady (T : Terminal) (s : List Char) : Prop where
  unescaped : ¬ ['\\', '['] <:+: s
  pictureless : T.withPictures s = s
  visible : ∀ c ∈ s, isHidden c = false

theorem steady_iff (hT : T.IsFaithful) :
    IsSteady T s ↔ shownText T s = s ∧ ∀ c ∈ s, isHidden c = false := by
  have hcomp : T.withPictures (unescapeBrackets s) = s ↔
      ¬ ['\\', '['] <:+: s ∧ T.withPictures s = s := by
    rw [← unescapeBrackets_eq_self]
    exact (reduces_withPictures hT).comp_eq_self reduces_unescapeBrackets s
  constructor
  · rintro ⟨hescape, hpicture, hvisible⟩
    refine ⟨?_, hvisible⟩
    rw [shownText, hcomp.2 ⟨hescape, hpicture⟩, List.filter_eq_self]
    intro c hc
    exact Bool.not_eq_true' _ ▸ (Bool.or_eq_false_iff.1 (hvisible c hc)).2
  · rintro ⟨hshown, hvisible⟩
    have hle : marks s ≤ marks (T.withPictures (unescapeBrackets s)) := by
      have hle := (List.filter_sublist (p := fun c => !isControl c)
        (l := T.withPictures (unescapeBrackets s))).countP_le (p := isMark)
      rwa [show List.filter _ _ = s from hshown] at hle
    obtain ⟨hescape, hpicture⟩ := hcomp.1 (((reduces_unfiltered hT).reduced s).eq_of_le hle)
    exact ⟨hescape, hpicture, hvisible⟩

theorem shownText_cons (hbackslash : c ≠ '\\') (hcolon : c ≠ ':') (hc : isControl c = false)
    (s : List Char) : shownText T (c :: s) = c :: shownText T s := by
  rw [shownText, unescapeBrackets_cons hbackslash, withPictures_cons hcolon,
    List.filter_cons_of_pos (by rw [hc]; rfl)]
  rfl

/-- No name of a picture begins with a blank. -/
theorem shownText_colon (s : List Char) :
    shownText T (':' :: ' ' :: s) = ':' :: ' ' :: shownText T s := by
  rw [shownText, unescapeBrackets_cons (by decide), unescapeBrackets_cons (by decide),
    withPictures_of_none (by rfl), withPictures_cons (by decide),
    List.filter_cons_of_pos (by decide), List.filter_cons_of_pos (by decide)]
  rfl

theorem shownText_concat (hbracket : c ≠ '[') (hcolon : c ≠ ':') (hc : isControl c = false)
    (s : List Char) : shownText T (s ++ [c]) = shownText T s ++ [c] := by
  rw [shownText, unescapeBrackets_concat hbracket, withPictures_concat hcolon, List.filter_append,
    List.filter_cons_of_pos (by rw [hc]; rfl)]
  rfl

theorem steady_cons (hT : T.IsFaithful) (hc : isOrdinary c = true) :
    IsSteady T (c :: s) ↔ IsSteady T s := by
  obtain ⟨-, hbackslash, hcolon, -, hcontrol⟩ := isOrdinary_iff.1 hc
  rw [steady_iff hT, steady_iff hT, shownText_cons hbackslash hcolon hcontrol, List.cons_eq_cons,
    and_iff_right rfl, List.forall_mem_cons, and_iff_right (not_hidden_of_ordinary hc)]

theorem steady_colon (hT : T.IsFaithful) : IsSteady T (':' :: ' ' :: s) ↔ IsSteady T s := by
  rw [steady_iff hT, steady_iff hT, shownText_colon, List.cons_eq_cons, and_iff_right rfl,
    List.cons_eq_cons, and_iff_right rfl, List.forall_mem_cons,
    and_iff_right (show isHidden ':' = false from rfl), List.forall_mem_cons,
    and_iff_right (show isHidden ' ' = false from rfl)]

theorem steady_concat_backslash (hT : T.IsFaithful) :
    IsSteady T (s ++ ['\\']) ↔ IsSteady T s := by
  rw [steady_iff hT, steady_iff hT, shownText_concat (by decide) (by decide) rfl,
    List.append_left_inj, List.forall_mem_append, List.forall_mem_singleton,
    and_iff_left (show isHidden '\\' = false from rfl)]

theorem steady_nil (hT : T.IsFaithful) : IsSteady T [] :=
  (steady_iff hT).2 ⟨shownText_nil, List.forall_mem_nil _⟩

theorem steady_of_ordinary (hT : T.IsFaithful) (h : s.all isOrdinary = true) : IsSteady T s := by
  induction s with
  | nil => exact steady_nil hT
  | cons c s ih =>
    rw [List.all_cons, Bool.and_eq_true] at h
    exact (steady_cons hT h.1).2 (ih h.2)

theorem steady_backslashes (hT : T.IsFaithful) (n : Nat) :
    IsSteady T (List.replicate n '\\') := by
  induction n with
  | zero => exact steady_nil hT
  | succ n ih =>
    rw [List.replicate_succ']
    exact (steady_concat_backslash hT).2 ih

end AppManifest.Console
