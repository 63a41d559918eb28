import AppManifest.Console.Plain
import AppManifest.Console.Rendering
import Mathlib.Algebra.Order.BigOperators.Group.List
import Mathlib.Algebra.Order.Group.Nat

namespace AppManifest.Console
set_option autoImplicit true

/-! What is relied on of a terminal, and how it lays a text out on lines. -/

/-- A character that is printed as it is, wherever it stands. -/
def isOrdinary (c : Char) : Bool :=
  c != '[' && c != '\\' && c != ':' && c != '\t' && !isControl c

theorem isOrdinary_iff : isOrdinary c = true ↔
    c ≠ '[' ∧ c ≠ '\\' ∧ c ≠ ':' ∧ c ≠ '\t' ∧ isControl c = false := by
  simp [isOrdinary, and_assoc]

/-- A character that leaves something to see. -/
def isInk (c : Char) : Bool :=
  !Text.isBlank c

namespace Terminal

/-- A line has room: it takes no more cells than there are, and has no blanks at its end beyond as
many characters. -/
def Fits (T : Terminal) (line : List Char) : Prop :=
  T.cells line ≤ T.width ∧ (line.length ≤ T.width ∨ line.getLast?.all isInk = true)

instance (T : Terminal) (line : List Char) : Decidable (T.Fits line) :=
  inferInstanceAs (Decidable (_ ∧ _))

/-- Every line of a text has room. -/
def HasRoom (T : Terminal) (s : List Char) : Prop :=
  ∀ line ∈ linesOf s, T.Fits line

instance (T : Terminal) (s : List Char) : Decidable (T.HasRoom s) :=
  inferInstanceAs (Decidable (∀ line ∈ linesOf s, T.Fits line))

/-- What is relied on of a terminal, one on which at least each single character has room. -/
structure IsFaithful (T : Terminal) : Prop where
  /-- A picture is neither markup nor hidden. -/
  ordinary {name picture} : T.picture? name = some picture → picture.all isOrdinary = true
  /-- The lines that have room stay as they are, and no others. -/
  fold_eq_self {line} : T.fold line = [line] ↔ T.Fits line
  fold_ne_nil (line) : T.fold line ≠ []
  /-- A line that is not cut changes only in the blanks at its end. -/
  fold_eq_singleton {line piece} :
    T.fold line = [piece] → line.getLast?.all isInk = true → piece = line
  /-- Nothing comes in but spaces. -/
  mem_fold {line piece c} : piece ∈ T.fold line → c ∈ piece → c ∈ line ∨ c = ' '
  /-- Nothing gets lost but blanks. -/
  filter_fold {line} : (T.fold line).flatten.filter isInk = line.filter isInk

end Terminal

/-! Lists that are joined, and lists of lists. -/

/-- A joined list has the elements of its parts and of what joins them. -/
theorem mem_intercalate {sep : List α} {parts : List (List α)} (h : a ∈ sep.intercalate parts) :
    a ∈ sep ∨ ∃ part ∈ parts, a ∈ part := by
  induction parts with
  | nil => cases h
  | cons part parts ih =>
    cases parts with
    | nil =>
      rw [List.intercalate_singleton] at h
      exact .inr ⟨part, List.mem_singleton_self part, h⟩
    | cons next parts =>
      rw [List.intercalate_cons_cons, List.mem_append, List.mem_append] at h
      rcases h with (h | h) | h
      · exact .inr ⟨part, List.mem_cons_self, h⟩
      · exact .inl h
      · rcases ih h with h | ⟨p, hp, h⟩
        · exact .inl h
        · exact .inr ⟨p, List.mem_cons_of_mem _ hp, h⟩

theorem mem_intercalate_of_mem {sep part : List α} {parts : List (List α)} (hp : part ∈ parts)
    (h : a ∈ part) : a ∈ sep.intercalate parts := by
  induction parts with
  | nil => cases hp
  | cons first parts ih =>
    cases parts with
    | nil =>
      rw [List.intercalate_singleton]
      exact List.mem_singleton.1 hp ▸ h
    | cons next parts =>
      rw [List.intercalate_cons_cons]
      rcases List.mem_cons.1 hp with rfl | hp
      · exact List.mem_append_left _ (List.mem_append_left _ h)
      · exact List.mem_append_right _ (ih hp)

/-- What joins the parts goes with a filter that has no use for it. -/
theorem filter_intercalate {p : α → Bool} (ha : p a = false) (parts : List (List α)) :
    ([a].intercalate parts).filter p = parts.flatten.filter p := by
  induction parts with
  | nil => rfl
  | cons part parts ih =>
    cases parts with
    | nil => rw [List.intercalate_singleton, List.flatten_singleton]
    | cons next parts =>
      rw [List.intercalate_cons_cons, List.flatten_cons, List.filter_append, List.filter_append,
        List.filter_append, ih, List.filter_cons_of_neg (by rw [ha]; exact Bool.false_ne_true),
        List.filter_nil, List.append_nil]

theorem intercalate_concat_append {sep : List α} (parts : List (List α)) (part after : List α) :
    sep.intercalate (parts ++ [part ++ after]) = sep.intercalate (parts ++ [part]) ++ after := by
  induction parts with
  | nil => simp only [List.nil_append, List.intercalate_singleton]
  | cons first parts ih =>
    cases parts with
    | nil =>
      simp only [List.singleton_append, List.intercalate_cons_cons, List.intercalate_singleton,
        List.append_assoc]
    | cons next parts =>
      simp only [List.cons_append, List.intercalate_cons_cons, List.append_assoc] at ih ⊢
      rw [ih]

/-- Where each element comes to some, there are no fewer of these. -/
theorem length_le_flatMap {f : α → List β} {l : List α} (h : ∀ a, f a ≠ []) :
    l.length ≤ (l.flatMap f).length := by
  induction l with
  | nil => exact le_rfl
  | cons a l ih =>
    have hpos := List.length_pos_of_ne_nil (h a)
    rw [List.flatMap_cons, List.length_append, List.length_cons]
    omega

theorem flatMap_eq_self {f : α → List α} {l : List α} (h : ∀ a, f a ≠ []) :
    l.flatMap f = l ↔ ∀ a ∈ l, f a = [a] := by
  induction l with
  | nil => exact iff_of_true rfl (List.forall_mem_nil _)
  | cons a l ih =>
    rw [List.flatMap_cons, List.forall_mem_cons]
    constructor
    · intro heq
      have hlength := congrArg List.length heq
      have hle := length_le_flatMap (l := l) h
      have hpos := List.length_pos_of_ne_nil (h a)
      rw [List.length_append, List.length_cons] at hlength
      obtain ⟨ha, hl⟩ : f a = [a] ∧ l.flatMap f = l :=
        List.append_inj heq (by rw [List.length_singleton]; omega)
      exact ⟨ha, ih.1 hl⟩
    · rintro ⟨ha, hl⟩
      rw [ha, ih.2 hl, List.singleton_append]

/-! Lines. -/

theorem intercalate_linesOf (s : List Char) : ['\n'].intercalate (linesOf s) = s := by
  rw [linesOf, Text.split_eq_splitOnP]
  exact List.intercalate_splitOn '\n'

theorem linesOf_intercalate {ls : List (List Char)} (h : ∀ l ∈ ls, '\n' ∉ l) (hne : ls ≠ []) :
    linesOf (['\n'].intercalate ls) = ls := by
  rw [linesOf, Text.split_eq_splitOnP]
  exact List.splitOn_intercalate '\n' h hne

theorem linesOf_ne_nil (s : List Char) : linesOf s ≠ [] := by
  rw [linesOf, Text.split_eq_splitOnP]
  exact List.splitOnP_ne_nil _ s

theorem linesOf_inj : linesOf s = linesOf t ↔ s = t := by
  refine ⟨fun h => ?_, congrArg linesOf⟩
  rw [← intercalate_linesOf s, h, intercalate_linesOf]

theorem mem_of_mem_linesOf (hline : line ∈ linesOf s) (h : c ∈ line) : c ∈ s ∧ c ≠ '\n' := by
  constructor
  · rw [← intercalate_linesOf s]
    exact mem_intercalate_of_mem hline h
  · exact of_decide_eq_false (Text.of_mem_split hline c h)

theorem length_linesOf (s : List Char) : (linesOf s).length = s.count '\n' + 1 := by
  unfold linesOf
  induction s with
  | nil => rfl
  | cons c s ih =>
    rw [Text.split, List.count_cons]
    by_cases hc : c = '\n'
    · simp [hc, ih]
    · cases hs : Text.split (· = '\n') s with
      | nil => simp [hs] at ih
      | cons piece rest =>
        rw [hs] at ih
        simpa [hc] using ih

/-- What is appended without line ends comes to the last line. -/
theorem exists_linesOf_append (s : List Char) {r : List Char} (hr : '\n' ∉ r) :
    ∃ ls l, linesOf (s ++ r) = ls ++ [l ++ r] := by
  obtain ⟨ls, l, hs⟩ : ∃ ls l, linesOf s = ls ++ [l] :=
    ⟨_, _, (List.dropLast_concat_getLast (linesOf_ne_nil s)).symm⟩
  refine ⟨ls, l, ?_⟩
  have hsame : s ++ r = ['\n'].intercalate (ls ++ [l ++ r]) := by
    rw [intercalate_concat_append, ← hs, intercalate_linesOf]
  rw [hsame, linesOf_intercalate]
  · intro line hline hmem
    have hmem' {line} (hline : line ∈ linesOf s) : '\n' ∉ line :=
      fun h => (mem_of_mem_linesOf hline h).2 rfl
    rw [hs] at hmem'
    rcases List.mem_append.1 hline with hline | hline
    · exact hmem' (List.mem_append_left _ hline) hmem
    · rw [List.mem_singleton.1 hline] at hmem
      exact (List.mem_append.1 hmem).elim (hmem' (List.mem_append_right _ List.mem_cons_self)) hr
  · exact List.append_ne_nil_of_right_ne_nil _ (List.cons_ne_nil _ _)

namespace Terminal

variable {T : Terminal}

/-! Tabs. -/

theorem mem_joinTabbed {pieces : List (List Char)} (h : c ∈ T.joinTabbed column pieces) :
    c = ' ' ∨ ∃ piece ∈ pieces, c ∈ piece := by
  induction pieces generalizing column with
  | nil => cases h
  | cons piece pieces ih =>
    cases pieces with
    | nil => exact .inr ⟨piece, List.mem_cons_self, h⟩
    | cons next pieces =>
      rw [joinTabbed, List.mem_append, List.mem_append, List.mem_cons, List.mem_replicate] at h
      · rcases h with (h | h | ⟨-, h⟩) | h
        · exact .inr ⟨piece, List.mem_cons_self, h⟩
        · exact .inl h
        · exact .inl h
        · exact (ih h).imp_right fun ⟨p, hp, h⟩ => ⟨p, List.mem_cons_of_mem _ hp, h⟩
      · exact List.cons_ne_nil _ _

theorem mem_expandTabs (h : c ∈ T.expandTabs line) : c = ' ' ∨ c ∈ line ∧ c ≠ '\t' := by
  refine (mem_joinTabbed h).imp_right fun ⟨piece, hpiece, hc⟩ => ⟨?_, ?_⟩
  · rw [Text.split_eq_splitOnP] at hpiece
    have hmem : c ∈ ['\t'].intercalate (line.splitOn '\t') := mem_intercalate_of_mem hpiece hc
    rwa [List.intercalate_splitOn] at hmem
  · exact of_decide_eq_false (Text.of_mem_split hpiece c hc)

theorem expandTabs_of_not_mem {line : List Char} (h : '\t' ∉ line) : T.expandTabs line = line := by
  have hline : ∀ c ∈ line, decide (c = '\t') = false :=
    fun c hc => decide_eq_false fun heq => h (heq ▸ hc)
  rw [expandTabs, Text.split_eq_splitOnP, List.splitOnP_eq_singleton hline, joinTabbed]

theorem filter_joinTabbed (column : Nat) (pieces : List (List Char)) :
    (T.joinTabbed column pieces).filter isInk = pieces.flatten.filter isInk := by
  have hblanks : ∀ n, (List.replicate n ' ').filter isInk = [] :=
    fun n => List.filter_replicate_of_neg (by decide)
  induction pieces generalizing column with
  | nil => rfl
  | cons piece pieces ih =>
    cases pieces with
    | nil => rw [joinTabbed, List.flatten_singleton]
    | cons next pieces =>
      rw [joinTabbed, List.flatten_cons, List.filter_append, List.filter_append,
        List.filter_append, ih, ← List.replicate_succ, hblanks, List.append_nil]
      exact List.cons_ne_nil _ _

theorem filter_expandTabs (line : List Char) :
    (T.expandTabs line).filter isInk = line.filter isInk := by
  have hjoined := filter_intercalate (p := isInk) (a := '\t') (by decide) (line.splitOn '\t')
  rw [List.intercalate_splitOn] at hjoined
  rw [expandTabs, filter_joinTabbed, hjoined, Text.split_eq_splitOnP]
  rfl

/-! The layout. -/

theorem linesOf_layOut (hT : T.IsFaithful) (s : List Char) :
    linesOf (T.layOut s) = (linesOf s).flatMap fun line => T.fold (T.expandTabs line) := by
  refine linesOf_intercalate (fun piece hpiece hmem => ?_) ?_
  · obtain ⟨line, hline, hpiece⟩ := List.mem_flatMap.1 hpiece
    rcases hT.mem_fold hpiece hmem with hmem | hmem
    · rcases mem_expandTabs hmem with hmem | ⟨hmem, -⟩
      · cases hmem
      · exact (mem_of_mem_linesOf hline hmem).2 rfl
    · cases hmem
  · intro hnil
    have hle := length_le_flatMap (l := linesOf s) fun line => hT.fold_ne_nil (T.expandTabs line)
    rw [show _ = [] from hnil] at hle
    exact linesOf_ne_nil s (List.eq_nil_of_length_eq_zero (Nat.le_zero.1 hle))

/-- In a text on lines there are only characters of it, but no tabs, and spaces. -/
theorem mem_layOut (hT : T.IsFaithful) (h : c ∈ T.layOut s) :
    c = '\n' ∨ c = ' ' ∨ c ∈ s ∧ c ≠ '\t' := by
  rcases mem_intercalate h with h | ⟨piece, hpiece, h⟩
  · exact .inl (List.mem_singleton.1 h)
  · obtain ⟨line, hline, hpiece⟩ := List.mem_flatMap.1 hpiece
    rcases hT.mem_fold hpiece h with h | h
    · exact .inr ((mem_expandTabs h).imp_right (.imp_left fun h => (mem_of_mem_linesOf hline h).1))
    · exact .inr (.inl h)

/-- All that is to be seen of a text is there on its lines. -/
theorem filter_layOut (hT : T.IsFaithful) (s : List Char) :
    (T.layOut s).filter isInk = s.filter isInk := by
  have hline : ∀ line, (T.fold (T.expandTabs line)).flatten.filter isInk = line.filter isInk :=
    fun line => hT.filter_fold.trans (filter_expandTabs line)
  calc (T.layOut s).filter isInk
    _ = ((linesOf s).flatMap fun line => T.fold (T.expandTabs line)).flatten.filter isInk :=
        filter_intercalate (by decide) _
    _ = (linesOf s).flatten.filter isInk := by
        simp only [List.flatMap_def, List.flatten_flatten, List.map_map, List.filter_flatten,
          Function.comp_def, hline]
    _ = s.filter isInk := by
        rw [← filter_intercalate (a := '\n') (by decide), intercalate_linesOf]

/-- A text without tabs is shown as it is just where its lines have room. -/
theorem layOut_eq_self (hT : T.IsFaithful) (htab : '\t' ∉ s) : T.layOut s = s ↔ T.HasRoom s := by
  rw [← linesOf_inj, linesOf_layOut hT, flatMap_eq_self fun line => hT.fold_ne_nil _]
  refine forall₂_congr fun line hline => ?_
  rw [expandTabs_of_not_mem fun h => htab (mem_of_mem_linesOf hline h).1, hT.fold_eq_self]

/-- Where no line of a text is cut, what it ends in is still there, unless it has blanks. -/
theorem suffix_layOut (hT : T.IsFaithful) (htab : '\t' ∉ s)
    (hlines : (T.layOut s).count '\n' ≤ s.count '\n') (hr : r <:+ s) (hne : r ≠ [])
    (hink : r.all isInk = true) : r <:+ T.layOut s := by
  obtain ⟨s, rfl⟩ := hr
  have hend : '\n' ∉ r := fun h => by
    cases List.all_eq_true.1 hink _ h
  obtain ⟨ls, l, hsplit⟩ := exists_linesOf_append s hend
  have hlast : l ++ r ∈ linesOf (s ++ r) := hsplit ▸ List.mem_append_right _ List.mem_cons_self
  have hfolded := linesOf_layOut hT (s ++ r)
  rw [hsplit, List.flatMap_append, List.flatMap_singleton,
    expandTabs_of_not_mem fun h => htab (mem_of_mem_linesOf hlast h).1] at hfolded
  have hcount := congrArg List.length hfolded
  have hcount' := congrArg List.length hsplit
  have hle := length_le_flatMap (l := ls) fun line => hT.fold_ne_nil (T.expandTabs line)
  have hpos := List.length_pos_of_ne_nil (hT.fold_ne_nil (l ++ r))
  rw [length_linesOf, List.length_append] at hcount hcount'
  rw [List.length_singleton] at hcount'
  obtain ⟨piece, hpiece⟩ := List.length_eq_one_iff.1
    (show (T.fold (l ++ r)).length = 1 by omega)
  obtain rfl := hT.fold_eq_singleton hpiece (by
    rw [List.getLast?_append_of_ne_nil _ hne, List.getLast?_eq_some_getLast hne]
    exact List.all_eq_true.1 hink _ (List.getLast_mem hne))
  rw [hpiece] at hfolded
  rw [← intercalate_linesOf (T.layOut (s ++ r)), hfolded, intercalate_concat_append]
  exact List.suffix_append _ _

end Terminal

/-! A plain terminal is one that can be relied on. -/

theorem hasRoom_iff : hasRoom columns line = true ↔ (Terminal.plain columns).Fits line := by
  rw [hasRoom, Bool.and_eq_true, Bool.or_eq_true, decide_eq_true_iff, decide_eq_true_iff,
    Terminal.Fits, Terminal.plain]
  cases line.getLast? <;> rfl

theorem cellWidth_le (c : Char) : cellWidth c ≤ 2 := by
  unfold cellWidth
  split_ifs <;> decide

theorem hasRoom_nil (columns : Nat) : hasRoom columns [] = true := by
  simp [hasRoom, cellCount]

/-- A single character has room in two columns. -/
theorem hasRoom_singleton (h : 2 ≤ columns) (c : Char) : hasRoom columns [c] = true := by
  have hcells : cellCount none [c] ≤ 2 := by
    have hwidth := cellWidth_le c
    simp only [cellCount]
    split_ifs <;> simp_all
  simp only [hasRoom, List.length_singleton, Bool.and_eq_true, Bool.or_eq_true, decide_eq_true_iff]
  exact ⟨hcells.trans h, .inl (by omega)⟩

theorem flatten_cut (columns : Nat) (line rest : List Char) :
    (cut columns line rest).flatten = line ++ rest := by
  induction rest generalizing line with
  | nil => rw [cut, List.flatten_singleton, List.append_nil]
  | cons c rest ih =>
    rw [cut]
    split
    · rw [ih, List.append_assoc, List.singleton_append]
    · rw [List.flatten_cons, ih, List.singleton_append]

/-- A line is cut unless it has room, or is a single character. -/
theorem hasRoom_of_cut (h : cut columns line rest = [whole]) :
    rest = [] ∨ (line ++ rest).length ≤ 1 ∨ hasRoom columns (line ++ rest) = true := by
  induction rest generalizing line with
  | nil => exact .inl rfl
  | cons c rest ih =>
    rw [cut] at h
    split at h
    next hc =>
      rcases ih h with rfl | hroom
      · rcases Bool.or_eq_true _ _ ▸ hc with hempty | hroom
        · rw [List.isEmpty_iff.1 hempty]
          exact .inr (.inl le_rfl)
        · exact .inr (.inr hroom)
      · rw [List.append_assoc, List.singleton_append] at hroom
        exact .inr hroom
    next =>
      have hnil := (List.cons.inj h).2
      have hflat := flatten_cut columns [c] rest
      rw [hnil] at hflat
      cases hflat

theorem fold_plain (columns : Nat) (line : List Char) : (Terminal.plain columns).fold line =
    if hasRoom columns line then [line] else cut columns [] line :=
  rfl

theorem flatten_fold_plain (columns : Nat) (line : List Char) :
    ((Terminal.plain columns).fold line).flatten = line := by
  rw [fold_plain]
  split
  · exact List.flatten_singleton
  · exact flatten_cut columns [] line

theorem eq_of_fold_plain (h : (Terminal.plain columns).fold line = [piece]) : piece = line := by
  have hline := flatten_fold_plain columns line
  rwa [h, List.flatten_singleton] at hline

theorem fold_plain_ne_nil (columns : Nat) (line : List Char) :
    (Terminal.plain columns).fold line ≠ [] := by
  intro hnil
  have hline := flatten_fold_plain columns line
  rw [hnil] at hline
  obtain rfl : line = [] := hline.symm
  rw [fold_plain, if_pos (hasRoom_nil columns)] at hnil
  cases hnil

theorem fold_plain_eq_self (h : 2 ≤ columns) :
    (Terminal.plain columns).fold line = [line] ↔ (Terminal.plain columns).Fits line := by
  rw [← hasRoom_iff, fold_plain]
  split
  next hroom => exact iff_of_true rfl hroom
  next hroom =>
    refine iff_of_false (fun hone => hroom ?_) hroom
    rcases hasRoom_of_cut hone with rfl | hshort | hroom
    · exact hasRoom_nil columns
    · cases line with
      | nil => exact hasRoom_nil columns
      | cons c line =>
        rw [List.nil_append, List.length_cons] at hshort
        obtain rfl := List.eq_nil_of_length_eq_zero (show line.length = 0 by omega)
        exact hasRoom_singleton h c
    · exact hroom

theorem plain_faithful (h : 2 ≤ columns) : (Terminal.plain columns).IsFaithful where
  ordinary := nofun
  fold_eq_self := fold_plain_eq_self h
  fold_ne_nil := fold_plain_ne_nil columns
  fold_eq_singleton hone _ := eq_of_fold_plain hone
  mem_fold {line _ _} hpiece hmem := by
    rw [← flatten_fold_plain columns line]
    exact .inl (List.mem_flatten_of_mem hpiece hmem)
  filter_fold {line} := by
    rw [flatten_fold_plain]

end AppManifest.Console
