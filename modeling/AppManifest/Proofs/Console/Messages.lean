import AppManifest.Proofs.Console.Notice
import AppManifest.Proofs.Disk.Extraction

namespace AppManifest
set_option autoImplicit true

/-! What commands print: their messages in order, each as its text or with changes. -/

/-- The text of a user that the message of a failure ends in, as it is. -/
def Failure.subject? : Failure → Option String
  | missingSource path => some path
  | escapingEntry name => some name
  | notAnArchive path => some path
  | _ => none

namespace Console

open Disk

/-- A command, begun at a tree, has messages to print, and leaves a tree. Its exit code is 0 if it
has succeeded. -/
inductive Command.Says (host : Host) (cwd : Path) (env : Environment) (t : FileTree) :
    Command → Nat → List Notice → FileTree → Prop
  | unread (h : t.readSource host cwd path = .error f) (hf : f.isReported = true) :
      Says host cwd env t (.check path strict) 1 [.escapedRefusal f.message] t
  | checked (h : t.readSource host cwd path = .ok d)
      (ha : d.analyze (resolveSettings env strict none none) = ⟨log, .ok app⟩)
      (hlog : log.hasErrors = true) :
      Says host cwd env t (.check path strict) 1 (log.map .finding) t
  | accepted (h : t.readSource host cwd path = .ok d)
      (ha : d.analyze (resolveSettings env strict none none) = ⟨log, .ok app⟩)
      (hlog : log.hasErrors = false) :
      Says host cwd env t (.check path strict) 0 (log.map .finding ++
        [.success .ok (toString app.functions.length ++ " function(s) in " ++ path)]) t
  | unbuilt (h : (AppManifest.build host cwd path output
        (resolveSettings env strict authLevel handler) template).run t = (⟨log, .error f⟩, t'))
      (hf : f.isReported = true) :
      Says host cwd env t (.build path output template strict authLevel handler) 1
        (log.map .finding ++ [.refusal f.message]) t'
  | rejected (h : (AppManifest.build host cwd path output
        (resolveSettings env strict authLevel handler) template).run t = (⟨log, .ok r⟩, t'))
      (hr : r.hasErrors = true) :
      Says host cwd env t (.build path output template strict authLevel handler) 1
        (log.map .finding ++ [.refusal "Build failed"]) t'
  | built (h : (AppManifest.build host cwd path output
        (resolveSettings env strict authLevel handler) template).run t = (⟨log, .ok r⟩, t'))
      (hr : r.hasErrors = false) :
      Says host cwd env t (.build path output template strict authLevel handler) 0
        (log.map .finding ++
          r.app.functions.map (fun f => .success .generated (f.name ++ " (" ++ f.handler ++ ")")) ++
          [.success .wrote (toString r.written.length ++ " file(s) to " ++ output)]) t'
  | refused (h : (extractArchive host cwd archive target).Ends t (.error f) t')
      (hf : f.isReported = true) :
      Says host cwd env t (.unpack archive target) 1 [.refusal f.message] t'
  | unpacked (h : (extractArchive host cwd archive target).Ends t (.ok ()) t') :
      Says host cwd env t (.unpack archive target) 0
        [.success .unpacked (archive ++ " into " ++ target)] t'

variable {T : Terminal} {host : Host} {cwd : Path} {env : Environment} {c : Command}
  {t t' : FileTree} {f : Failure}

theorem map_markup_finding (log : Log) :
    (log.map Notice.finding).map Notice.markup = log.map diagnosticLine := by
  rw [List.map_map]
  rfl

theorem markup_success (s : Success) (a b d : String) :
    (Notice.success s (a ++ b ++ d)).markup = colored "green" s.word ++ " " ++ a ++ b ++ d := by
  simp only [Notice.markup, String.append_assoc]

theorem markup_generated (f : FunctionDescriptor) :
    (Notice.success .generated (f.name ++ " (" ++ f.handler ++ ")")).markup = generatedLine f := by
  simp only [Notice.markup, generatedLine, Success.word, String.append_assoc]

theorem run_check (T : Terminal) (host : Host) (cwd : Path) (env : Environment) (path : String)
    (strict : Option Bool) (t : FileTree) :
    ((Command.check path strict).run T host cwd env).run t =
      (checkReply T host t cwd (resolveSettings env strict none none) path, t) :=
  rfl

theorem run_build (h : (AppManifest.build host cwd path output
      (resolveSettings env strict authLevel handler) template).run t = (o, t')) (T : Terminal) :
    ((Command.build path output template strict authLevel handler).run T host cwd env).run t =
      (buildReply T output o, t') := by
  rw [Command.run, StateT.run_bind, h]
  rfl

theorem run_unpack_error (h : (extractArchive host cwd archive target).Ends t (.error f) t')
    (T : Terminal) (env : Environment) :
    ((Command.unpack archive target).run T host cwd env).run t =
      (failureReply T f [] f.message, t') := by
  rw [Command.run, StateT.run_bind]
  rw [show (extractArchive host cwd archive target).run.run t = (.error f, t') from h]
  rfl

theorem run_unpack_ok (h : (extractArchive host cwd archive target).Ends t (.ok ()) t')
    (T : Terminal) (env : Environment) :
    ((Command.unpack archive target).run T host cwd env).run t =
      (printLines T 0 "" [(Notice.success .unpacked (archive ++ " into " ++ target)).markup],
        t') := by
  rw [Command.run, StateT.run_bind]
  rw [show (extractArchive host cwd archive target).run.run t = (.ok (), t') from h]
  rw [markup_success]
  rfl

/-- A command prints the lines of its messages up to the first that cannot be printed. -/
theorem Command.Says.run_eq (h : c.Says host cwd env t code notices t') (T : Terminal) :
    (c.run T host cwd env).run t = (printLines T code "" (notices.map Notice.markup), t') := by
  cases h with
  | unread h hf =>
    rw [run_check, checkReply, h]
    dsimp only
    rw [failureReply, if_pos hf]
    rfl
  | checked h ha hlog =>
    rw [run_check, checkReply, h]
    dsimp only
    rw [ha]
    dsimp only
    rw [if_pos hlog, map_markup_finding]
  | accepted h ha hlog =>
    rw [run_check, checkReply, h]
    dsimp only
    rw [ha]
    dsimp only
    rw [if_neg (Bool.eq_false_iff.1 hlog), List.map_append, map_markup_finding, List.map_singleton,
      markup_success]
    rfl
  | unbuilt h hf =>
    rw [run_build h, buildReply]
    dsimp only
    rw [failureReply, if_pos hf, List.map_append, map_markup_finding]
    rfl
  | rejected h hr =>
    rw [run_build h, buildReply]
    dsimp only
    rw [if_pos hr, List.map_append, map_markup_finding]
    rfl
  | built h hr =>
    rw [run_build h, buildReply]
    dsimp only
    rw [if_neg (Bool.eq_false_iff.1 hr), List.map_append, List.map_append, map_markup_finding,
      List.map_map, List.map_singleton, markup_success]
    simp only [Function.comp_def, markup_generated]
    rfl
  | refused h hf =>
    rw [run_unpack_error h, failureReply, if_pos hf]
    rfl
  | unpacked h => exact run_unpack_ok h T env

/-- A command that says nothing is ended by a failure that is not reported. -/
theorem Command.exists_says (hc : c ≠ .codes) (T : Terminal) (host : Host) (cwd : Path)
    (env : Environment) (t : FileTree) :
    (∃ code notices t', c.Says host cwd env t code notices t') ∨
      ∃ f t', f.isReported = false ∧
        (c.run T host cwd env).run t = (⟨1, some (.failure f), ""⟩, t') := by
  cases c with
  | check path strict =>
    cases h : t.readSource host cwd path with
    | error f =>
      by_cases hf : f.isReported = true
      · exact .inl ⟨_, _, _, .unread h hf⟩
      · refine .inr ⟨f, t, Bool.eq_false_iff.2 hf, ?_⟩
        rw [run_check, checkReply, h]
        dsimp only
        rw [failureReply, if_neg hf]
    | ok d =>
      rcases ha : d.analyze (resolveSettings env strict none none) with ⟨log, result⟩
      cases result with
      | error f =>
        refine .inr ⟨.fault f, t, rfl, ?_⟩
        rw [run_check, checkReply, h]
        dsimp only
        rw [ha]
      | ok app =>
        by_cases hlog : log.hasErrors = true
        · exact .inl ⟨_, _, _, .checked h ha hlog⟩
        · exact .inl ⟨_, _, _, .accepted h ha (Bool.eq_false_iff.2 hlog)⟩
  | build path output template strict authLevel handler =>
    rcases h : (AppManifest.build host cwd path output
      (resolveSettings env strict authLevel handler) template).run t with ⟨⟨log, result⟩, t'⟩
    cases result with
    | error f =>
      by_cases hf : f.isReported = true
      · exact .inl ⟨_, _, _, .unbuilt h hf⟩
      · refine .inr ⟨f, t', Bool.eq_false_iff.2 hf, ?_⟩
        rw [run_build h, buildReply]
        dsimp only
        rw [failureReply, if_neg hf]
    | ok r =>
      by_cases hr : r.hasErrors = true
      · exact .inl ⟨_, _, _, .rejected h hr⟩
      · exact .inl ⟨_, _, _, .built h (Bool.eq_false_iff.2 hr)⟩
  | unpack archive target =>
    obtain ⟨r, t', h⟩ := exists_ends (extractArchive host cwd archive target) t
    cases r with
    | error f =>
      by_cases hf : f.isReported = true
      · exact .inl ⟨_, _, _, .refused h hf⟩
      · refine .inr ⟨f, t', Bool.eq_false_iff.2 hf, ?_⟩
        rw [run_unpack_error h, failureReply, if_neg hf]
    | ok => exact .inl ⟨_, _, _, .unpacked h⟩
  | codes => exact absurd rfl hc

/-- Messages that can be printed are all printed. -/
theorem exists_printLines {lines : List String}
    (h : ∀ line ∈ lines, ∃ s, printMarkup T line = .ok s) (code : Nat) (printed : String) :
    ∃ s, printLines T code printed lines = ⟨code, none, s⟩ := by
  induction lines generalizing printed with
  | nil => exact ⟨printed, rfl⟩
  | cons line lines ih =>
    obtain ⟨s, hs⟩ := h line List.mem_cons_self
    rw [printLines, hs]
    exact ih (fun l hl => h l (List.mem_cons_of_mem line hl)) _

theorem printLines_singleton {line s : String} :
    printLines T code "" [line] = ⟨code, none, s⟩ ↔ printMarkup T line = .ok s := by
  rw [printLines]
  split
  next text h =>
    rw [h, printLines, String.empty_append, Reply.mk.injEq, Except.ok.injEq]
    exact ⟨fun h => h.2.2, fun h => ⟨rfl, rfl, h⟩⟩
  next fault h =>
    rw [h]
    exact iff_of_false nofun nofun

/-- Messages that are printed as their text come out as their texts on lines. -/
theorem printLines_texts (hT : T.IsFaithful) {notices : List Notice}
    (h : ∀ n ∈ notices, n.IsShown T) (code : Nat) (printed : String) :
    printLines T code printed (notices.map Notice.markup) =
      ⟨code, none, printed ++ String.join (notices.map fun n => n.text ++ "\n")⟩ := by
  induction notices generalizing printed with
  | nil => exact congrArg (Reply.mk code none) String.append_empty.symm
  | cons n notices ih =>
    rw [List.map_cons, printLines, (n.shown_iff hT).2 (h n List.mem_cons_self)]
    dsimp only
    rw [ih (fun m hm => h m (List.mem_cons_of_mem n hm)), List.map_cons, String.join_cons,
      String.append_assoc]

theorem isReported_of_subject (h : f.subject? = some s) : f.isReported = true := by
  cases f with
  | missingSource => rfl
  | escapingEntry => rfl
  | notAnArchive => rfl
  | _ => cases h

/-- What the message of a failure says of its subject is plain. -/
theorem plain_message (h : f.subject? = some s) : ∃ what : List Char,
    f.message.toList = what ++ ':' :: ' ' :: s.toList ∧
      what.all isOrdinary = true := by
  cases f with
  | missingSource path =>
    cases h
    exact ⟨"File not found".toList, String.toList_append, rfl⟩
  | escapingEntry name =>
    cases h
    exact ⟨"Bad zip entry".toList, String.toList_append, rfl⟩
  | notAnArchive path =>
    cases h
    exact ⟨"Cannot open archive".toList, String.toList_append, rfl⟩
  | _ => cases h

theorem plain_subject (hT : T.IsFaithful) {s : List Char} (hwhat : what.all isOrdinary = true) :
    IsPlain T (what ++ ':' :: ' ' :: s) ↔ IsPlain T s := by
  induction what with
  | nil =>
    constructor
    · rintro ⟨hu, hs⟩
      exact ⟨hu.of_infix (List.suffix_append [':', ' '] s).isInfix, (steady_colon hT).1 hs⟩
    · rintro ⟨hu, hs⟩
      exact ⟨(untagged_cons (by decide)).2 ((untagged_cons (by decide)).2 hu),
        (steady_colon hT).2 hs⟩
  | cons c what ih =>
    rw [List.all_cons, Bool.and_eq_true] at hwhat
    rw [List.cons_append, plain_cons hT hwhat.1, ih hwhat.2]

/-- The message of a failure about a text of the user is left as it is just where that text is plain
and does not end in a backslash. -/
theorem unchanged_subject (hT : T.IsFaithful) (h : f.subject? = some s) :
    (Notice.refusal f.message).IsUnchanged T ↔ IsPlain T s.toList ∧ ¬ ['\\'] <:+ s.toList := by
  obtain ⟨what, hmessage, hwhat⟩ := plain_message h
  rw [Notice.IsUnchanged, hmessage, plain_subject hT hwhat]
  refine and_congr_right fun _ => not_congr ⟨fun hlast => ?_, fun hlast => ?_⟩
  · by_contra hs
    have hblank : what ++ ':' :: ' ' :: s.toList = what ++ [':', ' '] ++ s.toList := by
      rw [List.append_assoc]
      rfl
    rw [hblank] at hlast
    exact not_backslash_trans (not_backslash_append (by decide) (by decide)) hs hlast
  · exact hlast.trans ((List.suffix_cons _ _).trans ((List.suffix_cons _ _).trans
      (List.suffix_append _ _)))

/-- On a terminal that can be relied on, a message is printed as its text just where nothing in it
is changed and each of its lines has room: no tag, unless it is escaped, and no backslash or picture
that printing takes out. Only a tag that is not escaped can keep it from being printed. A command
prints its messages in order, and nothing else; it has some unless it is ended by a failure that is
not reported. In particular an extraction that fails over an entry, or for want of an archive, is
reported with the name of that as it is just where the name is plain and does not end in a
backslash, and the message has room. -/
theorem command_messages (T : Terminal) (hT : T.IsFaithful) (host : Host) (cwd : Path)
    (env : Environment) :
    (∀ n : Notice, (printMarkup T n.markup = .ok (n.text ++ "\n") ↔ n.IsShown T) ∧
      (n.IsTagless → ∃ s, printMarkup T n.markup = .ok s)) ∧
    (∀ (c : Command) code notices t t', c.Says host cwd env t code notices t' →
      (c.run T host cwd env).run t = (printLines T code "" (notices.map Notice.markup), t') ∧
      ((∀ n ∈ notices, n.IsTagless) → ∃ output,
        (c.run T host cwd env).run t = (⟨code, none, output⟩, t')) ∧
      ((∀ n ∈ notices, n.IsShown T) → (c.run T host cwd env).run t =
        (⟨code, none, String.join (notices.map fun n => n.text ++ "\n")⟩, t'))) ∧
    (∀ (c : Command) t, c ≠ .codes →
      (∃ code notices t', c.Says host cwd env t code notices t') ∨
      ∃ f t', f.isReported = false ∧
        (c.run T host cwd env).run t = (⟨1, some (.failure f), ""⟩, t')) ∧
    ∀ archive target f s t t', (extractArchive host cwd archive target).Ends t (.error f) t' →
      f.subject? = some s →
      (((Command.unpack archive target).run T host cwd env).run t =
          (⟨1, none, f.message ++ "\n"⟩, t') ↔
        (IsPlain T s.toList ∧ ¬ ['\\'] <:+ s.toList) ∧ T.HasRoom f.message.toList) := by
  refine ⟨fun n => ⟨n.shown_iff hT, fun h => n.exists_printed h T⟩, fun c code notices t t' h => ?_,
    fun c t hc => Command.exists_says hc T host cwd env t, fun archive target f s t t' h hs => ?_⟩
  · rw [h.run_eq]
    refine ⟨rfl, fun htagless => ?_, fun hshown => ?_⟩
    · have hlines : ∀ line ∈ notices.map Notice.markup, ∃ s, printMarkup T line = .ok s := by
        intro line hline
        obtain ⟨n, hn, rfl⟩ := List.mem_map.1 hline
        exact Notice.exists_printed (htagless n hn) T
      obtain ⟨output, ho⟩ := exists_printLines hlines code ""
      exact ⟨output, congrArg (·, t') ho⟩
    · rw [printLines_texts hT hshown, String.empty_append]
  · have hshown : (Notice.refusal f.message).IsShown T ↔
        (IsPlain T s.toList ∧ ¬ ['\\'] <:+ s.toList) ∧ T.HasRoom f.message.toList :=
      and_congr_left' (unchanged_subject hT hs)
    rw [(Command.Says.refused h (isReported_of_subject hs)).run_eq, ← hshown,
      ← Notice.shown_iff hT, Prod.mk.injEq, and_iff_left rfl]
    exact printLines_singleton

/-- A host that knows one archive, which has one entry. -/
def namingHost (name : String) : Host :=
  hostOf [⟨name, "x".toUTF8, none⟩]

/-- A plain name of an entry outside the target is reported as it is. -/
theorem command_messages_plainEntry : ∃ t',
    (Terminal.plain 80).IsFaithful ∧
    (extractArchive (namingHost "../x") ⟨.root, ["w"]⟩ "a.zip" "out").Ends packedTree
      (.error (.escapingEntry "../x")) t' ∧
    IsPlain (.plain 80) "../x".toList ∧ ¬ ['\\'] <:+ "../x".toList ∧
    ((Command.unpack "a.zip" "out").run (.plain 80) (namingHost "../x") ⟨.root, ["w"]⟩ []).run
      packedTree = (⟨1, none, "Bad zip entry: ../x\n"⟩, t') := by
  have hT : (Terminal.plain 80).IsFaithful := plain_faithful (by decide)
  have hrun : ((extractArchive (namingHost "../x") ⟨.root, ["w"]⟩ "a.zip" "out").run.run
      packedTree).1 = .error (.escapingEntry "../x") := by decide +kernel
  have hends := ends_of_run hrun
  have hplain : IsPlain (.plain 80) "../x".toList :=
    ⟨untagged_of_not_mem (by decide), steady_of_ordinary hT rfl⟩
  have hroom : (Terminal.plain 80).HasRoom (Failure.escapingEntry "../x").message.toList := by
    decide +kernel
  obtain ⟨-, -, -, hsubject⟩ :=
    command_messages (.plain 80) hT (namingHost "../x") ⟨.root, ["w"]⟩ []
  exact ⟨_, hT, hends, hplain, by decide,
    (hsubject "a.zip" "out" _ "../x" _ _ hends rfl).2 ⟨⟨hplain, by decide⟩, hroom⟩⟩

/-- A tag in the name of an entry is left out of the message about it, or keeps it from being
printed. -/
theorem entry_names_lost : ∃ t u,
    (extractArchive (namingHost "../[bold]x") ⟨.root, ["w"]⟩ "a.zip" "out").Ends packedTree
      (.error (.escapingEntry "../[bold]x")) t ∧
    ((Command.unpack "a.zip" "out").run (.plain 80) (namingHost "../[bold]x") ⟨.root, ["w"]⟩ []).run
      packedTree = (⟨1, none, "Bad zip entry: ../x\n"⟩, t) ∧
    (extractArchive (namingHost "../[/red]x") ⟨.root, ["w"]⟩ "a.zip" "out").Ends packedTree
      (.error (.escapingEntry "../[/red]x")) u ∧
    ((Command.unpack "a.zip" "out").run (.plain 80) (namingHost "../[/red]x") ⟨.root, ["w"]⟩ []).run
      packedTree = (⟨1, some (.markup .unmatchedTag), ""⟩, u) := by
  have hstyle : ((extractArchive (namingHost "../[bold]x") ⟨.root, ["w"]⟩ "a.zip" "out").run.run
      packedTree).1 = .error (.escapingEntry "../[bold]x") := by decide +kernel
  have hclosing : ((extractArchive (namingHost "../[/red]x") ⟨.root, ["w"]⟩ "a.zip" "out").run.run
      packedTree).1 = .error (.escapingEntry "../[/red]x") := by decide +kernel
  have hlost : printMarkup (.plain 80)
      (Notice.refusal (Failure.escapingEntry "../[bold]x").message).markup =
      .ok "Bad zip entry: ../x\n" := by decide +kernel
  have hfault : printMarkup (.plain 80)
      (Notice.refusal (Failure.escapingEntry "../[/red]x").message).markup =
      .error .unmatchedTag := by decide +kernel
  refine ⟨_, _, ends_of_run hstyle, ?_, ends_of_run hclosing, ?_⟩
  · rw [(Command.Says.refused (ends_of_run hstyle) rfl).run_eq]
    exact congrArg (·, _) (printLines_singleton.2 hlost)
  · rw [(Command.Says.refused (ends_of_run hclosing) rfl).run_eq, List.map_singleton, printLines,
      hfault]

end Console

end AppManifest
