import AppManifest.Console.Command
import AppManifest.Proofs.Console.Frame

namespace AppManifest.Console
set_option autoImplicit true

/-! The messages that commands print, and which of them print as their text. -/

/-- What a command has succeeded in. -/
inductive Success
  | ok
  | generated
  | wrote
  | unpacked

def Success.word : Success → String
  | ok => "OK"
  | generated => "Generated"
  | wrote => "Wrote"
  | unpacked => "Unpacked"

/-- A message of a command. -/
inductive Notice
  /-- The message of a failure, as it is. -/
  | refusal (message : String)
  /-- The message of a failure, escaped. -/
  | escapedRefusal (message : String)
  /-- A success and what it is about, as it is. -/
  | success (s : Success) (rest : String)
  /-- A diagnostic, with its location and its message escaped. -/
  | finding (d : Diagnostic)

/-- A text without tags in which nothing is changed. -/
structure IsPlain (T : Terminal) (s : List Char) : Prop where
  untagged : IsUntagged s
  steady : IsSteady T s

/-- The stretches in which an escaped text is printed: its tags, and what stands between them. -/
def stretches (s : List Char) : List (List Char) :=
  (pieces [] ((tokens s).map Token.kept)).map Piece.text

/-- What stands before the severity of a diagnostic. -/
def lead (d : Diagnostic) : List Char :=
  (d.location.text ++ ": ").toList

/-- What stands after the severity of a diagnostic. -/
def detail (d : Diagnostic) : List Char :=
  (" " ++ d.code.id ++ ": " ++ d.message).toList

namespace Notice

/-- The line of markup that is printed for a message. -/
def markup : Notice → String
  | refusal message => colored "red" message
  | escapedRefusal message => colored "red" (escape message)
  | success s rest => colored "green" s.word ++ " " ++ rest
  | finding d => diagnosticLine d

/-- The text that a message should show. -/
def text : Notice → String
  | refusal message => message
  | escapedRefusal message => message
  | success s rest => s.word ++ " " ++ rest
  | finding d => d.text

/-- No tag stands where a message is not escaped. -/
def IsTagless : Notice → Prop
  | refusal message => IsUntagged message.toList
  | escapedRefusal _ => True
  | success _ rest => IsUntagged rest.toList
  | finding _ => True

/-- What the text of a message has to be like to be left as it is. A text that is not escaped must
have no tags. A backslash at the end of a message is lost to the closing tag after it, unless it is
escaped and stands alone; where nothing comes after it, it must not be escaped. -/
def IsUnchanged (T : Terminal) : Notice → Prop
  | refusal message => IsPlain T message.toList ∧ ¬ ['\\'] <:+ message.toList
  | escapedRefusal message =>
    (∀ s ∈ stretches message.toList, IsSteady T s) ∧ ¬ ['\\', '\\'] <:+ message.toList
  | success _ rest => IsPlain T rest.toList
  | finding d =>
    (∀ s ∈ stretches (lead d), IsSteady T s) ∧ (∀ s ∈ stretches (detail d), IsSteady T s) ∧
      (['\\'] <:+ d.message.toList → ['\\', '\\'] <:+ d.message.toList)

/-- The text of a message is left as it is, and each of its lines has room. -/
def IsShown (T : Terminal) (n : Notice) : Prop :=
  n.IsUnchanged T ∧ T.HasRoom n.text.toList

end Notice

variable {T : Terminal}

theorem forall_stretches {s : List Char} :
    (∀ t ∈ stretches s, IsSteady T t) ↔ AllSteady T ((tokens s).map Token.kept) :=
  List.forall_mem_map

/-- A line is printed as a text just where its tokens are. -/
theorem printMarkup_eq_ok {s t : String} :
    printMarkup T s = .ok (t ++ "\n") ↔ Prints T (tokens s.toList) t.toList := by
  have hline : ∀ text, String.ofList (T.layOut text ++ ['\n']) = t ++ "\n" ↔
      T.layOut text = t.toList := by
    intro text
    rw [← String.toList_inj, String.toList_ofList, String.toList_append]
    exact List.append_left_inj _
  rw [printMarkup, Prints]
  cases hp : printPieces T (pieces [] (tokens s.toList)) with
  | error f => exact iff_of_false nofun nofun
  | ok text =>
    simp only [Except.map, Except.ok.injEq, hline, exists_eq_left']

theorem exists_printMarkup {s : String} (h : ∃ t, Prints T (tokens s.toList) t) :
    ∃ t, printMarkup T s = .ok t := by
  obtain ⟨t, text, htext, -⟩ := h
  rw [printMarkup, htext]
  exact ⟨_, rfl⟩

theorem toList_colored (color s : String) : (colored color s).toList =
    tagText 0 color.toList ++ (s.toList ++ tagText 0 ('/' :: color.toList)) := by
  simp [colored, tagText]

theorem tagText_append (m n : Nat) (body : List Char) :
    List.replicate m '\\' ++ tagText n body = tagText (m + n) body := by
  rw [tagText, tagText, List.replicate_add, List.append_assoc]

/-- A colored text is read as the text between two tags; backslashes at its end come to stand before
the closing one. -/
theorem tokens_colored (hc : color ∈ palette) (hs : s.toList = init ++ List.replicate n '\\')
    (hinit : ¬ ['\\'] <:+ init) (after : List Char) :
    tokens ((colored color s).toList ++ after) =
      Frame.tokens ⟨color, [], tokens init, n, tokens after⟩ := by
  obtain ⟨hopening, hclosing⟩ := tagBody_palette color hc
  have hinside : s.toList ++ tagText 0 ('/' :: color.toList) ++ after =
      init ++ (tagText n ('/' :: color.toList) ++ after) := by
    rw [hs, List.append_assoc, List.append_assoc, ← List.append_assoc (List.replicate n '\\'),
      tagText_append, Nat.add_zero]
  rw [toList_colored, List.append_assoc, hinside, tokens_tagText 0 hopening,
    tokens_append (untilBracket_tagText _ _ _) (absurd · hinit), tokens_tagText n hclosing]
  rfl

theorem plain_iff (hT : T.IsFaithful) {s : List Char} :
    IsPlain T s ↔ (tokens s).flatMap Token.shown = s ∧ AllSteady T (tokens s) := by
  rw [shown_tokens_eq_self]
  constructor
  · rintro ⟨hu, hs⟩
    rw [tokens_of_untagged hu, allSteady_chars hT]
    exact ⟨hu, hs⟩
  · rintro ⟨hu, hs⟩
    rw [tokens_of_untagged hu, allSteady_chars hT] at hs
    exact ⟨hu, hs⟩

theorem escaped_of_shown {s : List Char} (h : (tokens s).flatMap Token.shown = s) :
    IsEscaped (tokens s) :=
  escaped_of_untagged (shown_tokens_eq_self.1 h)

theorem plain_cons (hT : T.IsFaithful) (hc : isOrdinary c = true) :
    IsPlain T (c :: s) ↔ IsPlain T s := by
  have hbracket := (isOrdinary_iff.1 hc).1
  constructor
  · rintro ⟨hu, hs⟩
    exact ⟨(untagged_cons hbracket).1 hu, (steady_cons hT hc).1 hs⟩
  · rintro ⟨hu, hs⟩
    exact ⟨(untagged_cons hbracket).2 hu, (steady_cons hT hc).2 hs⟩

theorem kept_chars (s : List Char) : (s.map Token.char).map Token.kept = s.map .char := by
  rw [List.map_map]
  rfl

theorem red_mem : "red" ∈ palette := by decide

theorem green_mem : "green" ∈ palette := by decide

theorem tokens_refusal (hm : message.toList = init ++ List.replicate n '\\')
    (hinit : ¬ ['\\'] <:+ init) : tokens (Notice.refusal message).markup.toList =
      Frame.tokens ⟨"red", [], tokens init, n, []⟩ := by
  have h := tokens_colored red_mem hm hinit []
  rwa [List.append_nil, tokens_nil] at h

theorem tokens_escapedRefusal (hm : message.toList = init ++ List.replicate n '\\')
    (hinit : ¬ ['\\'] <:+ init) : tokens (Notice.escapedRefusal message).markup.toList =
      Frame.tokens ⟨"red", [], (tokens init).map Token.kept, n + addedBackslashes n, []⟩ := by
  have hescape : (escape message).toList =
      escapeTags init ++ List.replicate (n + addedBackslashes n) '\\' := by
    rw [toList_escape hm hinit, hm, escapeTags_append_backslashes, List.append_assoc,
      ← List.replicate_add]
  have hinit' : ¬ ['\\'] <:+ escapeTags init := by
    rwa [backslash_suffix_iff, getLast?_escapeTags, ← backslash_suffix_iff]
  have h := tokens_colored red_mem hescape hinit' []
  rwa [List.append_nil, tokens_nil, tokens_escapeTags] at h

theorem tokens_success (s : Success) (rest : String) :
    tokens (Notice.success s rest).markup.toList =
      Frame.tokens ⟨"green", [], s.word.toList.map .char, 0, tokens (' ' :: rest.toList)⟩ := by
  have hword : '[' ∉ s.word.toList ∧ ¬ ['\\'] <:+ s.word.toList := by
    cases s <;> decide
  have hmarkup : (Notice.success s rest).markup.toList =
      (colored "green" s.word).toList ++ ' ' :: rest.toList := by
    rw [Notice.markup, String.append_assoc, String.toList_append, String.toList_append]
    rfl
  rw [hmarkup, tokens_colored (n := 0) green_mem (List.append_nil _).symm hword.2,
    tokens_of_untagged (untagged_of_not_mem hword.1)]

theorem backslash_not_mem_toString (k : Int) : '\\' ∉ (toString k).toList := by
  have hrepr : ∀ n, '\\' ∉ (Nat.repr n).toList := by
    intro n h
    rw [Nat.toList_repr] at h
    exact absurd (Nat.isDigit_of_mem_toDigits (by decide) (by decide) h) (by decide)
  cases k with
  | ofNat n => exact hrepr n
  | negSucc n =>
    intro h
    rw [show toString (Int.negSucc n) = "-" ++ Nat.repr (n + 1) from rfl, String.toList_append] at h
    exact (List.mem_append.1 h).elim (by decide) (hrepr _)

theorem not_backslash_append {s t : List Char} (ht : t ≠ []) (hmem : '\\' ∉ t) :
    ¬ ['\\'] <:+ s ++ t := by
  rw [backslash_suffix_iff, List.getLast?_append_of_ne_nil _ ht]
  exact fun h => hmem (List.mem_of_getLast? h)

theorem not_backslash_trans {s t : List Char} (hs : ¬ ['\\'] <:+ s) (ht : ¬ ['\\'] <:+ t) :
    ¬ ['\\'] <:+ s ++ t := by
  cases t with
  | nil => rwa [List.append_nil]
  | cons c t =>
    rw [backslash_suffix_iff] at ht ⊢
    rwa [List.getLast?_append_of_ne_nil _ (List.cons_ne_nil c t)]

/-- A location ends in a number after a colon. -/
theorem not_backslash_location (l : SourceLocation) : ¬ ['\\'] <:+ l.text.toList := by
  rw [SourceLocation.text, String.append_assoc, String.toList_append]
  refine not_backslash_append ?_ ?_
  · rw [String.toList_append]
    exact List.cons_ne_nil _ _
  · rw [String.toList_append, List.mem_append]
    exact fun h => h.elim (by decide) (backslash_not_mem_toString _)

theorem severityColor_mem (s : Severity) : severityColor s ∈ palette := by
  cases s <;> decide

/-- The line of a diagnostic whose message ends in some backslashes. -/
def findingFrame (d : Diagnostic) (n : Nat) : Frame where
  color := severityColor d.severity
  before := (tokens (lead d)).map Token.kept
  inside := d.severity.name.toList.map .char
  after := (tokens (detail d)).map Token.kept ++
    (List.replicate (addedBackslashes n) '\\').map .char

theorem color_findingFrame (d : Diagnostic) (n : Nat) : (findingFrame d n).color ∈ palette :=
  severityColor_mem d.severity

theorem escaped_findingFrame (d : Diagnostic) (n : Nat) : (findingFrame d n).IsEscaped where
  before := escaped_kept _
  inside := escaped_chars _
  after := (escaped_kept _).append (escaped_chars _)

theorem toList_text_finding (d : Diagnostic) :
    d.text.toList = lead d ++ (d.severity.name.toList ++ detail d) := by
  rw [Diagnostic.text, lead, detail]
  simp only [String.toList_append, List.append_assoc]

theorem text_findingFrame (d : Diagnostic) (n : Nat) : (findingFrame d n).text =
    d.text.toList ++ List.replicate (addedBackslashes n) '\\' := by
  rw [toList_text_finding]
  simp only [Frame.text, findingFrame, List.flatMap_append, shown_kept_tokens, shown_chars,
    Nat.zero_div, List.replicate_zero, List.nil_append, List.append_assoc]

theorem escapeTags_lead (d : Diagnostic) :
    escapeTags (lead d) = (escape d.location.text ++ ": ").toList := by
  have hlocation : (escape d.location.text).toList = escapeTags d.location.text.toList := by
    rw [toList_escape (n := 0) (List.append_nil _).symm (not_backslash_location _)]
    exact List.append_nil _
  have hcolon : IsUntagged ": ".toList := untagged_of_not_mem (by decide)
  rw [lead, String.toList_append, String.toList_append, hlocation,
    escapeTags_append (by decide) fun _ => by decide, escapeTags_of_untagged hcolon]

theorem escapeTags_detail {d : Diagnostic}
    (hm : d.message.toList = init ++ List.replicate n '\\') (hinit : ¬ ['\\'] <:+ init) :
    escapeTags (detail d) ++ List.replicate (addedBackslashes n) '\\' =
      (" " ++ d.code.id ++ ": " ++ escape d.message).toList := by
  have hid : '[' ∉ (" " ++ d.code.id ++ ": ").toList ∧
      '\\' ∉ (" " ++ d.code.id ++ ": ").toList := by
    cases d.code <;> decide
  have hdetail : detail d = (" " ++ d.code.id ++ ": ").toList ++ d.message.toList :=
    String.toList_append
  rw [hdetail, escapeTags_plain_append hid.1 hid.2, List.append_assoc, ← toList_escape hm hinit,
    ← String.toList_append]

theorem not_backslash_lead (d : Diagnostic) : ¬ ['\\'] <:+ escapeTags (lead d) := by
  rw [backslash_suffix_iff, getLast?_escapeTags, ← backslash_suffix_iff, lead,
    String.toList_append]
  exact not_backslash_append (by decide) (by decide)

theorem tokens_finding {d : Diagnostic} (hm : d.message.toList = init ++ List.replicate n '\\')
    (hinit : ¬ ['\\'] <:+ init) :
    tokens (Notice.finding d).markup.toList = (findingFrame d n).tokens := by
  have hname : '[' ∉ d.severity.name.toList ∧ ¬ ['\\'] <:+ d.severity.name.toList := by
    cases d.severity <;> decide
  have hmarkup : (Notice.finding d).markup.toList = escapeTags (lead d) ++
      ((colored (severityColor d.severity) d.severity.name).toList ++
        (escapeTags (detail d) ++ List.replicate (addedBackslashes n) '\\')) := by
    rw [escapeTags_lead, escapeTags_detail hm hinit, Notice.markup, diagnosticLine]
    simp only [String.toList_append, List.append_assoc]
  -- Nothing reaches from before the severity into the tag that opens its color.
  have hopening : ∀ after, untilBracket
      ((colored (severityColor d.severity) d.severity.name).toList ++ after) = none := by
    intro after
    rw [toList_colored, List.append_assoc, untilBracket_tagText]
  rw [hmarkup, tokens_append (hopening _) (absurd · (not_backslash_lead d)), tokens_escapeTags,
    tokens_colored (n := 0) (severityColor_mem _) (List.append_nil _).symm hname.2,
    tokens_of_untagged (untagged_of_not_mem hname.1), tokens_append_backslashes, tokens_escapeTags]
  rfl

theorem shown_refusal (hT : T.IsFaithful) (message : String) :
    printMarkup T (Notice.refusal message).markup = .ok (message ++ "\n") ↔
      (Notice.refusal message).IsShown T := by
  obtain ⟨init, n, hm, hinit⟩ := exists_backslashes message.toList
  rw [printMarkup_eq_ok, tokens_refusal hm hinit, Notice.IsShown, Notice.IsUnchanged, Notice.text,
    hm, backslash_suffix_append hinit, prints_closed_iff hT red_mem (by omega) (reduced_tokens init)
      (fun _ _ => mem_of_mem_shown_tokens) escaped_of_shown, ← plain_iff hT]
  refine and_congr_left fun _ => ?_
  constructor
  · rintro ⟨hn, hplain⟩
    obtain rfl : n = 0 := by omega
    rw [List.replicate_zero, List.append_nil]
    exact ⟨hplain, Nat.not_succ_le_zero 0⟩
  · rintro ⟨hplain, hn⟩
    obtain rfl : n = 0 := by omega
    rw [List.replicate_zero, List.append_nil] at hplain
    exact ⟨rfl, hplain⟩

theorem shown_escapedRefusal (hT : T.IsFaithful) (message : String) :
    printMarkup T (Notice.escapedRefusal message).markup = .ok (message ++ "\n") ↔
      (Notice.escapedRefusal message).IsShown T := by
  obtain ⟨init, n, hm, hinit⟩ := exists_backslashes message.toList
  have hshown := shown_kept_tokens init
  have hn : n + addedBackslashes n ≤ 2 * n ∧ (n + addedBackslashes n = 2 * n ↔ ¬ 2 ≤ n) := by
    unfold addedBackslashes
    split <;> omega
  have hstretches : AllSteady T ((tokens message.toList).map Token.kept) ↔
      AllSteady T ((tokens init).map Token.kept) := by
    rw [hm, tokens_append_backslashes, List.map_append, kept_chars, allSteady_append_backslashes hT]
  rw [printMarkup_eq_ok, tokens_escapedRefusal hm hinit, Notice.IsShown, Notice.IsUnchanged,
    Notice.text, forall_stretches, hstretches, hm, two_backslashes_suffix_append hinit,
    prints_closed_iff hT red_mem hn.1 (.inl hshown) (by rw [hshown]; exact fun _ _ => id)
      fun _ => escaped_kept _, hn.2, and_iff_right hshown]
  exact and_congr_left fun _ => and_comm

theorem shown_success (hT : T.IsFaithful) (s : Success) (rest : String) :
    printMarkup T (Notice.success s rest).markup = .ok ((Notice.success s rest).text ++ "\n") ↔
      (Notice.success s rest).IsShown T := by
  have hword : s.word.toList.all isOrdinary = true := by
    cases s <;> rfl
  have hframe : Frame.text ⟨"green", [], s.word.toList.map .char, 0, tokens (' ' :: rest.toList)⟩ =
      s.word.toList ++ (tokens (' ' :: rest.toList)).flatMap Token.shown := by
    simp only [Frame.text, shown_chars, List.flatMap_nil, List.nil_append, Nat.zero_div,
      List.replicate_zero]
  have htext : (Notice.success s rest).text.toList = s.word.toList ++ ' ' :: rest.toList := by
    rw [Notice.text, String.append_assoc, String.toList_append, String.toList_append]
    rfl
  have hblank : isOrdinary ' ' = true := rfl
  rw [printMarkup_eq_ok, tokens_success, Notice.IsShown, htext, Notice.IsUnchanged,
    ← plain_cons hT hblank, plain_iff hT, Frame.prints_text_iff hT _ green_mem rfl, hframe,
    List.append_right_inj, ← and_assoc]
  · refine and_congr_left fun _ => and_congr_right fun _ => ?_
    exact ⟨fun h => h.2.2,
      fun h => ⟨allSteady_nil, (allSteady_chars hT).2 (steady_of_ordinary hT hword), h⟩⟩
  · rw [hframe]
    exact Reduced.append (.inl rfl) (reduced_tokens _)
  · rw [hframe]
    intro c _
    rw [List.mem_append, List.mem_append]
    exact Or.imp_right mem_of_mem_shown_tokens
  · rw [hframe, List.append_right_inj]
    exact fun h => ⟨escaped_nil, escaped_chars _, escaped_of_shown h⟩

/-- Where the message of a diagnostic ends in one backslash, two are printed. -/
theorem not_prints_finding (hT : T.IsFaithful) {d : Diagnostic}
    (hm : d.message.toList = init ++ ['\\']) (hinit : ¬ ['\\'] <:+ init) :
    ¬ Prints T (findingFrame d 1).tokens d.text.toList := by
  intro h
  have hdetail : detail d =
      (" " ++ d.code.id ++ ": ").toList ++ init ++ List.replicate 1 '\\' := by
    rw [detail, String.toList_append, hm, List.append_assoc]
    rfl
  have hafter : (findingFrame d 1).after =
      (tokens ((" " ++ d.code.id ++ ": ").toList ++ init)).map Token.kept ++
        (List.replicate 2 '\\').map .char := by
    rw [findingFrame, hdetail, tokens_append_backslashes _ 1, List.map_append, kept_chars]
    exact List.append_assoc _ _ _
  have hhidden : ∀ c, isHidden c = true → c ∈ (findingFrame d 1).text → c ∈ d.text.toList := by
    intro c hc hmem
    rw [text_findingFrame, List.mem_append] at hmem
    refine hmem.resolve_right fun hmem => ?_
    cases List.eq_of_mem_replicate hmem ▸ hc
  have hlines : d.text.toList.count '\n' ≤ (findingFrame d 1).text.count '\n' := by
    rw [text_findingFrame, List.count_append]
    exact Nat.le_add_right _ _
  have hlast := Frame.suffix_of_prints hT _ (color_findingFrame d 1) rfl hafter (by decide) hhidden
    hlines h
  have hcolon : ¬ ['\\'] <:+ lead d ++ (d.severity.name.toList ++
      ((" " ++ d.code.id ++ ": ").toList ++ init)) := by
    rw [String.toList_append, ← List.append_assoc, ← List.append_assoc, ← List.append_assoc]
    exact not_backslash_trans (not_backslash_append (by decide) (by decide)) hinit
  rw [toList_text_finding, hdetail, ← List.append_assoc, ← List.append_assoc,
    List.append_assoc (lead d), backslashes_suffix_iff hcolon] at hlast
  omega

theorem shown_finding (hT : T.IsFaithful) (d : Diagnostic) :
    printMarkup T (Notice.finding d).markup = .ok (d.text ++ "\n") ↔
      (Notice.finding d).IsShown T := by
  obtain ⟨init, n, hm, hinit⟩ := exists_backslashes d.message.toList
  have hname : d.severity.name.toList.all isOrdinary = true := by
    cases d.severity <;> rfl
  have hsingle : (['\\'] <:+ d.message.toList → ['\\', '\\'] <:+ d.message.toList) ↔ n ≠ 1 := by
    rw [hm, backslash_suffix_append hinit, two_backslashes_suffix_append hinit]
    omega
  rw [printMarkup_eq_ok, tokens_finding hm hinit, Notice.IsShown, Notice.IsUnchanged, Notice.text,
    forall_stretches, forall_stretches, hsingle]
  by_cases hn : n = 1
  · subst hn
    exact iff_of_false (not_prints_finding hT hm hinit) fun h => h.1.2.2 rfl
  · have hafter : (findingFrame d n).after = (tokens (detail d)).map Token.kept := by
      rw [findingFrame, addedBackslashes, if_neg hn]
      exact List.append_nil _
    have hframe : (findingFrame d n).text = d.text.toList := by
      rw [text_findingFrame, addedBackslashes, if_neg hn]
      exact List.append_nil _
    rw [Frame.prints_text_iff hT _ (color_findingFrame d n) rfl (.inl hframe)
      (by rw [hframe]; exact fun _ _ => id) fun _ => escaped_findingFrame d n, hafter]
    constructor
    · rintro ⟨-, ⟨hlead, -, hdetail⟩, hroom⟩
      exact ⟨⟨hlead, hdetail, hn⟩, hroom⟩
    · rintro ⟨⟨hlead, hdetail, -⟩, hroom⟩
      exact ⟨hframe,
        ⟨hlead, (allSteady_chars hT).2 (steady_of_ordinary hT hname), hdetail⟩, hroom⟩

namespace Notice

/-- A message is printed as its text just where it is as it has to be. -/
theorem shown_iff (hT : T.IsFaithful) (n : Notice) :
    printMarkup T n.markup = .ok (n.text ++ "\n") ↔ n.IsShown T := by
  cases n with
  | refusal message => exact shown_refusal hT message
  | escapedRefusal message => exact shown_escapedRefusal hT message
  | success s rest => exact shown_success hT s rest
  | finding d => exact shown_finding hT d

/-- Only a tag that is not escaped can keep a message from being printed. -/
theorem exists_printed {n : Notice} (h : n.IsTagless) (T : Terminal) :
    ∃ s, printMarkup T n.markup = .ok s := by
  apply exists_printMarkup
  cases n with
  | refusal message =>
    obtain ⟨init, k, hm, hinit⟩ := exists_backslashes message.toList
    have hu : IsUntagged init := by
      rw [IsTagless, hm] at h
      exact h.of_infix (List.prefix_append _ _).isInfix
    rw [tokens_refusal hm hinit]
    exact Frame.exists_prints _ red_mem ⟨escaped_nil, escaped_of_untagged hu, escaped_nil⟩
  | escapedRefusal message =>
    obtain ⟨init, k, hm, hinit⟩ := exists_backslashes message.toList
    rw [tokens_escapedRefusal hm hinit]
    exact Frame.exists_prints _ red_mem ⟨escaped_nil, escaped_kept _, escaped_nil⟩
  | success s rest =>
    rw [tokens_success]
    exact Frame.exists_prints _ green_mem
      ⟨escaped_nil, escaped_chars _, escaped_of_untagged ((untagged_cons (by decide)).2 h)⟩
  | finding d =>
    obtain ⟨init, k, hm, hinit⟩ := exists_backslashes d.message.toList
    rw [tokens_finding hm hinit]
    exact Frame.exists_prints _ (severityColor_mem _) (escaped_findingFrame d k)

end Notice

end AppManifest.Console
