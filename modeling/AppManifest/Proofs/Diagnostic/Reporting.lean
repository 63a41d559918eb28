import AppManifest.Diagnostic.Basic
import AppManifest.Proofs.Except
import Mathlib.Data.List.Infix

namespace AppManifest
set_option autoImplicit true

/-! What reports put into a log, and what their messages say. -/

namespace Template

/-- The number of places in a text at which a placeholder stands. -/
def holes (text : List Char) : Nat :=
  text.tails.countP fun rest => ['%', 's'].isPrefixOf rest

/-- A template with its placeholders replaced from left to right, each by the text of one argument
as it stands. -/
inductive Fills : List Char → List String → List Char → Prop
  | plain (h : ¬['%', 's'] <:+: text) : Fills text [] text
  | hole (h : ¬['%', 's'] <:+: text) (hs : Fills rest arguments filled) :
      Fills (text ++ '%' :: 's' :: rest) (argument :: arguments)
        (text ++ argument.toList ++ filled)

variable {text rest filled : List Char} {arguments : List String}

theorem infix_of_not_begins (h : ¬['%', 's'] <+: c :: text) :
    ['%', 's'] <:+: c :: text ↔ ['%', 's'] <:+: text := by
  rw [List.infix_cons_iff, or_iff_right h]

theorem placeholders_placeholder (rest : List Char) :
    placeholders ('%' :: 's' :: rest) = placeholders rest + 1 :=
  rfl

theorem placeholders_cons (h : ¬['%', 's'] <+: c :: rest) :
    placeholders (c :: rest) = placeholders rest := by
  rw [placeholders]
  rintro rest' rfl rfl
  exact h (List.prefix_append ['%', 's'] _)

theorem fill_nil (arguments : List String) : fill [] arguments = [] :=
  rfl

theorem fill_placeholder (rest : List Char) (argument : String) (arguments : List String) :
    fill ('%' :: 's' :: rest) (argument :: arguments) = argument.toList ++ fill rest arguments :=
  rfl

theorem fill_cons (h : ¬['%', 's'] <+: c :: rest) :
    fill (c :: rest) arguments = c :: fill rest arguments := by
  rw [fill]
  rintro rest' rfl rfl
  exact h (List.prefix_append ['%', 's'] _)

/-- Text without a placeholder does not make one with what stands behind it. -/
theorem not_begins_of_plain (h : ¬['%', 's'] <:+: c :: text)
    (hrest : rest = [] ∨ ['%', 's'] <+: rest) : ¬['%', 's'] <+: c :: (text ++ rest) := by
  intro hp
  rw [List.cons_prefix_cons] at hp
  obtain ⟨rfl, hs⟩ := hp
  cases text with
  | nil =>
    rcases hrest with rfl | ⟨rest, rfl⟩
    · cases List.prefix_nil.1 hs
    · exact absurd (List.cons_prefix_cons.1 hs).1 (by decide)
  | cons c' text =>
    obtain ⟨rfl, -⟩ := List.cons_prefix_cons.1 hs
    exact h ⟨[], text, rfl⟩

theorem placeholders_append (h : ¬['%', 's'] <:+: text)
    (hrest : rest = [] ∨ ['%', 's'] <+: rest) :
    placeholders (text ++ rest) = placeholders rest := by
  induction text with
  | nil => rfl
  | cons c text ih =>
    rw [List.cons_append, placeholders_cons (not_begins_of_plain h hrest)]
    exact ih (mt List.infix_cons h)

theorem fill_append (h : ¬['%', 's'] <:+: text) (hrest : rest = [] ∨ ['%', 's'] <+: rest) :
    fill (text ++ rest) arguments = text ++ fill rest arguments := by
  induction text with
  | nil => rfl
  | cons c text ih =>
    rw [List.cons_append, fill_cons (not_begins_of_plain h hrest), ih (mt List.infix_cons h)]
    rfl

/-- A placeholder stands where a text begins with one. -/
theorem begins_placeholder (rest : List Char) : ['%', 's'] <+: '%' :: 's' :: rest :=
  List.prefix_append ['%', 's'] rest

theorem placeholders_of_plain (h : ¬['%', 's'] <:+: text) : placeholders text = 0 := by
  have happend := placeholders_append h (.inl rfl)
  rwa [List.append_nil] at happend

theorem fill_of_plain (h : ¬['%', 's'] <:+: text) : fill text arguments = text := by
  have happend : fill (text ++ []) arguments = _ := fill_append h (.inl rfl)
  rwa [List.append_nil, fill_nil, List.append_nil] at happend

/-- Placeholders cannot overlap, so going over a text once finds them all. -/
theorem holes_eq (text : List Char) : holes text = placeholders text := by
  induction text using placeholders.induct with
  | case1 rest ih => simp [holes, placeholders_placeholder, List.tails, ← ih, List.isPrefixOf]
  | case2 c rest hc ih =>
    have hno : ¬['%', 's'] <+: c :: rest := by
      rintro ⟨rest', h⟩
      cases h
      exact hc rest' rfl rfl
    rw [placeholders_cons hno, ← ih, holes, List.tails, List.countP_cons_of_neg]
    · rfl
    · rwa [List.isPrefixOf_iff_prefix]
  | case3 => rfl

theorem Fills.length (h : Fills text arguments filled) :
    arguments.length = placeholders text := by
  induction h with
  | plain h => exact (placeholders_of_plain h).symm
  | hole h _ ih =>
    rw [placeholders_append h (.inr (begins_placeholder _)), placeholders_placeholder, ← ih]
    rfl

theorem Fills.eq_fill (h : Fills text arguments filled) : filled = fill text arguments := by
  induction h with
  | plain h => exact (fill_of_plain h).symm
  | hole h _ ih =>
    rw [fill_append h (.inr (begins_placeholder _)), fill_placeholder, ih, List.append_assoc]

/-- A character that begins no placeholder may be put in front. -/
theorem Fills.cons (h : Fills rest arguments filled) (hno : ¬['%', 's'] <+: c :: rest) :
    Fills (c :: rest) arguments (c :: filled) := by
  cases h with
  | plain h => exact .plain (mt (infix_of_not_begins hno).1 h)
  | @hole text _ _ _ _ h hs =>
    have hplain : ¬['%', 's'] <:+: c :: text := by
      intro hin
      rcases List.infix_cons_iff.1 hin with hp | hin
      · exact hno (hp.trans (List.prefix_append (c :: text) _))
      · exact h hin
    exact .hole hplain hs

theorem fills_fill (h : arguments.length = placeholders text) :
    Fills text arguments (fill text arguments) := by
  induction text, arguments using fill.induct with
  | case1 rest arguments ih =>
    cases arguments with
    | nil => cases h
    | cons argument arguments =>
      have hempty : ¬['%', 's'] <:+: ([] : List Char) := by decide
      rw [fill_placeholder]
      exact .hole hempty (ih (Nat.succ.inj h))
  | case2 c rest arguments hc ih =>
    have hno : ¬['%', 's'] <+: c :: rest := by
      rintro ⟨rest', h⟩
      cases h
      exact hc rest' rfl rfl
    rw [fill_cons hno]
    exact (ih (h.trans (placeholders_cons hno))).cons hno
  | case3 arguments =>
    obtain rfl := List.eq_nil_of_length_eq_zero h
    exact .plain (by decide)

/-- A template is rendered where its placeholders are as many as the arguments. -/
theorem render_eq_ok {template message : String} :
    render template arguments = .ok message ↔
      Fills template.toList arguments message.toList := by
  unfold render
  constructor
  · intro h
    split_ifs at h with hfew hmany
    cases h
    rw [String.toList_ofList]
    exact fills_fill (by omega)
  · intro h
    have hlength := h.length
    rw [if_neg (by omega), if_neg (by omega), ← h.eq_fill, String.ofList_toList]

theorem exists_render (template : String) (arguments : List String) :
    (∃ message, render template arguments = .ok message) ↔
      arguments.length = holes template.toList := by
  rw [holes_eq]
  constructor
  · intro h
    obtain ⟨message, h⟩ := h
    exact (render_eq_ok.1 h).length
  · intro h
    refine ⟨String.ofList (fill template.toList arguments), render_eq_ok.2 ?_⟩
    rw [String.toList_ofList]
    exact fills_fill h

end Template

namespace Diagnostic

theorem create_eq_ok {code : Code} {location : SourceLocation} {properties : List Property} :
    create code location arguments properties = .ok d ↔
      ∃ text : String, Template.Fills code.template.toList arguments text.toList ∧
        d = ⟨code, text, location, properties⟩ := by
  simp only [create, Code.render, bind_eq_ok, Template.render_eq_ok, pure_eq_ok]
  exact exists_congr fun _ => and_congr_right' eq_comm

end Diagnostic

namespace Report

/-- What a report puts into a log: a diagnostic with the message that its template and arguments
spell, or the one that it passes on. -/
inductive Describes : Report → Diagnostic → Prop
  | message (h : Template.Fills code.template.toList arguments text.toList) :
      Describes (.message code location arguments) ⟨code, text, location, []⟩
  | detailed (h : Template.Fills code.template.toList [argument] text.toList) :
      Describes (.detailed code location properties argument) ⟨code, text, location, properties⟩
  | diagnostic : Describes (.diagnostic d) d

/-- Of some reports these diagnostics stay, one for each that describes one, in their order. -/
inductive Leave : List Report → List Diagnostic → Prop
  | nil : Leave [] []
  | taken (h : r.Describes d) (hs : Leave rs ds) : Leave (r :: rs) (d :: ds)
  | refused (h : ∀ d, ¬r.Describes d) (hs : Leave rs ds) : Leave (r :: rs) ds

theorem create_eq_ok {r : Report} : r.create = .ok d ↔ r.Describes d := by
  constructor
  · intro h
    cases r with
    | message =>
      obtain ⟨text, htext, rfl⟩ := Diagnostic.create_eq_ok.1 h
      exact .message htext
    | detailed =>
      obtain ⟨text, htext, rfl⟩ := Diagnostic.create_eq_ok.1 h
      exact .detailed htext
    | diagnostic =>
      cases h
      exact .diagnostic
  · intro h
    cases h with
    | message h => exact Diagnostic.create_eq_ok.2 ⟨_, h, rfl⟩
    | detailed h => exact Diagnostic.create_eq_ok.2 ⟨_, h, rfl⟩
    | diagnostic => rfl

/-- A report describes at most one diagnostic. -/
theorem Describes.unique {r : Report} (h : r.Describes d) (h' : r.Describes d') : d = d' :=
  Except.ok.inj ((create_eq_ok.2 h).symm.trans (create_eq_ok.2 h'))

theorem create_eq_error {r : Report} (h : ∀ d, ¬r.Describes d) : ∃ e, r.create = .error e := by
  cases hcreate : r.create with
  | ok d => exact absurd (create_eq_ok.1 hcreate) (h d)
  | error e => exact ⟨e, rfl⟩

end Report

namespace Log

variable {log : Log} {reports before after : List Report} {r : Report} {d : Diagnostic}

/-- The log after some reports, made one after another. -/
def record (log : Log) (reports : List Report) : Log :=
  reports.foldl (fun log r => (log.report r).2) log

theorem record_append (log : Log) (before after : List Report) :
    log.record (before ++ after) = (log.record before).record after :=
  List.foldl_append

theorem record_concat (log : Log) (before : List Report) (r : Report) :
    log.record (before ++ [r]) = ((log.record before).report r).2 :=
  log.record_append before [r]

theorem report_of_describes (h : r.Describes d) : log.report r = (.ok d, log ++ [d]) := by
  rw [report, Report.create_eq_ok.2 h]

theorem report_of_refused (h : ∀ d, ¬r.Describes d) : ∃ e, log.report r = (.error e, log) := by
  obtain ⟨e, he⟩ := Report.create_eq_error h
  refine ⟨e, ?_⟩
  rw [report, he]

/-- Reports only ever put diagnostics at the end of a log. -/
theorem exists_leave (log : Log) (reports : List Report) :
    ∃ ds, Report.Leave reports ds ∧ log.record reports = log ++ ds := by
  induction reports generalizing log with
  | nil => exact ⟨[], .nil, (List.append_nil log).symm⟩
  | cons r reports ih =>
    obtain ⟨ds, hds, hrecord⟩ := ih (log.report r).2
    by_cases hr : ∃ d, r.Describes d
    · obtain ⟨d, hd⟩ := hr
      refine ⟨d :: ds, .taken hd hds, hrecord.trans ?_⟩
      rw [report_of_describes hd, List.append_assoc]
      rfl
    · have hr := not_exists.1 hr
      obtain ⟨e, he⟩ : ∃ e, log.report r = (.error e, log) := report_of_refused hr
      refine ⟨ds, .refused hr hds, hrecord.trans ?_⟩
      rw [he]

theorem mem_of_leave {ds : List Diagnostic} (h : Report.Leave reports ds) :
    d ∈ ds ↔ ∃ r ∈ reports, r.Describes d := by
  induction h with
  | nil => simp
  | taken hr _ ih =>
    rw [List.mem_cons, ih, List.exists_mem_cons_iff]
    refine or_congr ⟨?_, fun h => h.unique hr⟩ Iff.rfl
    rintro rfl
    exact hr
  | refused hr _ ih => rw [ih, List.exists_mem_cons_iff, or_iff_right (hr d)]

theorem mem_record : d ∈ log.record reports ↔ d ∈ log ∨ ∃ r ∈ reports, r.Describes d := by
  obtain ⟨ds, hds, hrecord⟩ := log.exists_leave reports
  rw [hrecord, List.mem_append, mem_of_leave hds]

theorem hasErrors_iff : log.hasErrors ↔ ∃ d ∈ log, d.severity = .error := by
  simp [hasErrors, Diagnostic.isError]

theorem hasErrors_record :
    (log.record reports).hasErrors ↔
      log.hasErrors ∨ ∃ r ∈ reports, ∃ d, r.Describes d ∧ d.severity = .error := by
  simp only [hasErrors_iff, mem_record]
  grind

/-- A log that has errors keeps them. -/
theorem hasErrors_record_append (h : (log.record before).hasErrors) :
    (log.record (before ++ after)).hasErrors := by
  rw [record_append]
  exact hasErrors_record.2 (.inl h)

/-- How a log takes reports. Each puts the one diagnostic that it describes at the end, repeated
ones included, or is refused and leaves the log as it is. A message is made where the arguments are
as many as the placeholders of its template, and spells them as they stand. A log has errors from
the first one on. -/
theorem reporting (log : Log) (reports : List Report) :
    (∃ ds, Report.Leave reports ds ∧ log.record reports = log ++ ds) ∧
    (∀ before r after, reports = before ++ r :: after →
      log.record (before ++ [r]) = ((log.record before).report r).2 ∧
      ((∃ d, r.Describes d ∧
          (log.record before).report r = (.ok d, log.record before ++ [d])) ∨
        (∀ d, ¬r.Describes d) ∧
          ∃ e, (log.record before).report r = (.error e, log.record before))) ∧
    (∀ before after, reports = before ++ after →
      ((log.record before).hasErrors ↔
        log.hasErrors ∨ ∃ r ∈ before, ∃ d, r.Describes d ∧ d.severity = .error) ∧
      ((log.record before).hasErrors → (log.record reports).hasErrors)) ∧
    ∀ (code : Code) (arguments : List String),
      ((∃ message, code.render arguments = .ok message) ↔
        arguments.length = Template.holes code.template.toList) ∧
      ∀ message : String, code.render arguments = .ok message ↔
        Template.Fills code.template.toList arguments message.toList := by
  refine ⟨log.exists_leave reports, ?_, ?_, ?_⟩
  · rintro before r after -
    refine ⟨log.record_concat before r, ?_⟩
    by_cases hr : ∃ d, r.Describes d
    · obtain ⟨d, hd⟩ := hr
      exact .inl ⟨d, hd, report_of_describes hd⟩
    · exact .inr ⟨not_exists.1 hr, report_of_refused (not_exists.1 hr)⟩
  · rintro before after rfl
    exact ⟨hasErrors_record, hasErrors_record_append⟩
  · intro code arguments
    exact ⟨Template.exists_render _ _, fun message => Template.render_eq_ok⟩

/-- An argument that looks like a placeholder stays as it is. -/
example : Template.fill "'%s' for '%s'".toList ["%s", "100%"] = "'%s' for '100%'".toList := by
  decide +kernel

end Log

end AppManifest
