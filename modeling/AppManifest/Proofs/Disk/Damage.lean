import AppManifest.Console.Command
import AppManifest.Console.Plain
import AppManifest.Proofs.Disk.Building
import AppManifest.Proofs.Disk.Interruption

namespace AppManifest
set_option autoImplicit true

/-! The failures of an extraction that commands do not report, and what commands come to by them. -/

/-- The directory that an entry is, or that its file lies in. -/
def EntryPlan.directory (plan : EntryPlan) : Path :=
  if plan.isDirectory then plan.target else plan.target.parent

namespace Disk

/-- An entry is a file with its place in a directory that can be made, or is there. -/
inductive Begins (cwd : Path) (target : String) (e : ArchiveEntry) (t : FileTree) :
    Path → FileTree → Prop
  | file (hplan : planEntry cwd e.name target = .ok plan) (hfile : plan.isDirectory = false)
      (hmake : (makeDirectories cwd plan.target.parent).Ends t (.ok ()) m) :
      Begins cwd target e t plan.target m

/-- An entry cannot be extracted because a path has a null character or the entry a defect that is
not reported, which shows before its file is opened, or once something of it has been written. -/
inductive Strikes (cwd : Path) (target : String) (e : ArchiveEntry) (t : FileTree) : Failure → Prop
  | directory (hplan : planEntry cwd e.name target = .ok plan)
      (hnull : hasNull plan.directory.text = true) : Strikes cwd target e t .embeddedNull
  | unread (h : Begins cwd target e t p m) (hd : e.defect = some d)
      (hw : d.written? e.data = none) (hf : (d.failure e.name).isReported = false) :
      Strikes cwd target e t (d.failure e.name)
  | file (h : Begins cwd target e t p m) (hd : ∀ d ∈ e.defect, d.written? e.data ≠ none)
      (hnull : hasNull p.text = true) : Strikes cwd target e t .embeddedNull
  | unfinished (h : Begins cwd target e t p m) (hd : e.defect = some d)
      (hw : d.written? e.data = some data) (hwrite : (writeFile cwd p data).Ends m (.ok ()) n)
      (hf : (d.failure e.name).isReported = false) : Strikes cwd target e t (d.failure e.name)

/-- An archive cannot be opened because its path has a null character, or its list of entries cannot
be read. -/
inductive Unopened (host : Host) (cwd : Path) (archive : String) (t : FileTree) : Failure → Prop
  | path (hnull : hasNull archive = true) : Unopened host cwd archive t .embeddedNull
  | list (hread : t.readFile cwd archive = .ok data)
      (hlist : host.entries? data = some (.error message)) :
      Unopened host cwd archive t (.unreadable false message)

variable {host : Host} {cwd p : Path} {archive target : String} {e : ArchiveEntry}
  {t t' m u : FileTree} {f : Failure}

theorem Strikes.not_isReported (h : Strikes cwd target e t f) : f.isReported = false := by
  cases h with
  | directory => rfl
  | unread _ _ _ hf => exact hf
  | file => rfl
  | unfinished _ _ _ _ hf => exact hf

theorem makeOne_reported (h : (makeOne cwd p).Ends t (.error f) t') : f.isReported = true := by
  have h := ends_get.1 h
  split at h
  next => cases (ends_set.1 h).1
  next =>
    split at h
    next => cases (ends_pure.1 h).1
    next =>
      cases (ends_throw.1 h).1
      rfl

theorem makeUp_reported (h : (makeUp cwd a cs).Ends t (.error f) t') : f.isReported = true := by
  induction cs generalizing t t' with
  | nil => exact makeOne_reported h
  | cons c cs ih =>
    have h := ends_get.1 h
    dsimp only at h
    split at h
    · rcases ends_bind.1 h with ⟨_, hf, h⟩ | ⟨_, m, -, h⟩
      · cases hf
        exact ih h
      · exact makeOne_reported h
    · exact makeOne_reported h

/-- Directories that cannot be made are reported, but for a null character. -/
theorem makeDirectories_unreported (h : (makeDirectories cwd p).Ends t (.error f) t')
    (hf : f.isReported = false) : hasNull p.text = true ∧ f = .embeddedNull := by
  unfold makeDirectories at h
  split at h
  next hnull =>
    cases (ends_throw.1 h).1
    exact ⟨hnull, rfl⟩
  next => cases (makeUp_reported h).symm.trans hf

theorem makeDirectories_of_null (h : hasNull p.text = true) (cwd : Path) (t : FileTree) :
    (makeDirectories cwd p).Ends t (.error .embeddedNull) t := by
  rw [makeDirectories, if_pos h]
  exact ends_throw.2 ⟨rfl, rfl⟩

theorem writeFile_unreported (h : (writeFile cwd p data).Ends t (.error f) t')
    (hf : f.isReported = false) : hasNull p.text = true ∧ f = .embeddedNull := by
  unfold writeFile at h
  split at h
  next hnull =>
    cases (ends_throw.1 h).1
    exact ⟨hnull, rfl⟩
  next =>
    have h := ends_get.1 h
    split at h
    next =>
      cases (ends_throw.1 h).1
      cases hf
    next =>
      split at h
      next =>
        cases (ends_throw.1 h).1
        cases hf
      next => cases (ends_set.1 h).1

theorem writeFile_of_null (h : hasNull p.text = true) (cwd : Path) (data : ByteArray)
    (t : FileTree) : (writeFile cwd p data).Ends t (.error .embeddedNull) t := by
  rw [writeFile, if_pos h]
  exact ends_throw.2 ⟨rfl, rfl⟩

theorem planEntry_error (h : planEntry cwd name target = .error f) : f.isReported = true := by
  unfold planEntry at h
  dsimp only at h
  split at h
  next => cases h
  next =>
    cases h
    rfl

/-- An entry whose failure is not reported has met a null character or its defect. -/
theorem strikes_of_extractEntry (h : (extractEntry cwd target e).Ends t (.error f) t')
    (hf : f.isReported = false) : Strikes cwd target e t f := by
  unfold extractEntry at h
  split at h
  next f' hplan =>
    cases (ends_throw.1 h).1
    cases (planEntry_error hplan).symm.trans hf
  next plan hplan =>
    split at h
    next hd =>
      obtain ⟨hnull, rfl⟩ := makeDirectories_unreported h hf
      refine .directory hplan ?_
      rwa [EntryPlan.directory, if_pos hd]
    next hd =>
      rcases ends_bind.1 h with ⟨_, he, hmake⟩ | ⟨_, m, hmake, h⟩
      · cases he
        obtain ⟨hnull, rfl⟩ := makeDirectories_unreported hmake hf
        refine .directory hplan ?_
        rwa [EntryPlan.directory, if_neg hd]
      · have hbegins := Begins.file hplan (Bool.eq_false_iff.2 hd) hmake
        split at h
        next hdefect =>
          obtain ⟨hnull, rfl⟩ := writeFile_unreported h hf
          refine .file hbegins (fun d hd => ?_) hnull
          cases hdefect.symm.trans hd
        next d hdefect =>
          split at h
          next hw =>
            cases (ends_throw.1 h).1
            exact .unread hbegins hdefect hw hf
          next data hw =>
            rcases ends_bind.1 h with ⟨_, he, hwrite⟩ | ⟨_, n, hwrite, h⟩
            · cases he
              obtain ⟨hnull, rfl⟩ := writeFile_unreported hwrite hf
              refine .file hbegins (fun d' hd' => ?_) hnull
              cases hdefect.symm.trans hd'
              rw [hw]
              exact Option.some_ne_none data
            · cases (ends_throw.1 h).1
              exact .unfinished hbegins hdefect hw hwrite hf

theorem Begins.extractEntry_eq (h : Begins cwd target e t p m) :
    extractEntry cwd target e = extractFile cwd e p := by
  obtain ⟨hplan, hfile, -⟩ := h
  rw [extractEntry, hplan]
  exact if_neg (Bool.eq_false_iff.1 hfile)

theorem Begins.make (h : Begins cwd target e t p m) :
    (makeDirectories cwd p.parent).Ends t (.ok ()) m := by
  obtain ⟨-, -, hmake⟩ := h
  exact hmake

/-- An entry that is struck by a failure ends in it. -/
theorem Strikes.ends (h : Strikes cwd target e t f) :
    ∃ t', (extractEntry cwd target e).Ends t (.error f) t' := by
  cases h with
  | @directory plan hplan hnull =>
    refine ⟨t, ?_⟩
    rw [extractEntry, hplan]
    dsimp only
    unfold EntryPlan.directory at hnull
    split
    next hd =>
      rw [if_pos hd] at hnull
      exact makeDirectories_of_null hnull cwd t
    next hd =>
      rw [if_neg hd] at hnull
      exact ends_bind.2 (.inl ⟨_, rfl, makeDirectories_of_null hnull cwd t⟩)
  | @unread _ m d h hd hw hf =>
    refine ⟨m, ?_⟩
    rw [h.extractEntry_eq]
    apply (ends_bind_of_ok h.make).2
    rw [hd]
    dsimp only
    rw [hw]
    exact ends_throw.2 ⟨rfl, rfl⟩
  | @file _ m h hd hnull =>
    refine ⟨m, ?_⟩
    rw [h.extractEntry_eq]
    apply (ends_bind_of_ok h.make).2
    cases hdefect : e.defect with
    | none => exact writeFile_of_null hnull cwd _ m
    | some d =>
      obtain ⟨data, hw⟩ := Option.ne_none_iff_exists'.1 (hd d hdefect)
      dsimp only
      rw [hw]
      exact ends_bind.2 (.inl ⟨_, rfl, writeFile_of_null hnull cwd _ m⟩)
  | @unfinished _ m d data n h hd hw hwrite hf =>
    refine ⟨n, ?_⟩
    rw [h.extractEntry_eq]
    apply (ends_bind_of_ok h.make).2
    rw [hd]
    dsimp only
    rw [hw]
    exact (ends_bind_of_ok hwrite).2 (ends_throw.2 ⟨rfl, rfl⟩)

theorem readFile_unreported (h : t.readFile cwd archive = .error f) (hf : f.isReported = false) :
    hasNull archive = true ∧ f = .embeddedNull := by
  unfold FileTree.readFile at h
  split at h
  next hnull =>
    cases h
    exact ⟨hnull, rfl⟩
  next =>
    split at h
    next => cases h
    next =>
      cases h
      cases hf
    next =>
      cases h
      cases hf

theorem unopened_of_openArchive (h : (openArchive host cwd archive).Ends t (.error f) t')
    (hf : f.isReported = false) : Unopened host cwd archive t f := by
  have h := ends_get.1 h
  split at h
  next f' hread =>
    cases (ends_throw.1 h).1
    obtain ⟨hnull, rfl⟩ := readFile_unreported hread hf
    exact .path hnull
  next _ hread =>
    split at h
    next => cases (ends_pure.1 h).1
    next _ hlist =>
      cases (ends_throw.1 h).1
      exact .list hread hlist
    next =>
      cases (ends_throw.1 h).1
      cases hf

theorem Unopened.not_isReported (h : Unopened host cwd archive t f) : f.isReported = false := by
  cases h <;> rfl

theorem Unopened.ends (h : Unopened host cwd archive t f) :
    (openArchive host cwd archive).Ends t (.error f) t := by
  apply ends_get.2
  cases h with
  | path hnull =>
    rw [FileTree.readFile, if_pos hnull]
    exact ends_throw.2 ⟨rfl, rfl⟩
  | list hread hlist =>
    rw [hread]
    dsimp only
    rw [hlist]
    exact ends_throw.2 ⟨rfl, rfl⟩

/-- An extraction that fails unreported has been struck at one entry, or not opened its archive. -/
theorem extractArchive_unreported :
    (∃ t', (extractArchive host cwd archive target).Ends t (.error f) t' ∧ f.isReported = false) ↔
      Unopened host cwd archive t f ∨
      ∃ before e after m, (openArchive host cwd archive).Ends t (.ok (before ++ e :: after)) t ∧
        (extractEntries cwd target before).Ends t (.ok ()) m ∧ Strikes cwd target e m f := by
  constructor
  · rintro ⟨t', h, hf⟩
    rcases ends_bind.1 h with ⟨_, he, hopen⟩ | ⟨es, m, hopen, hrun⟩
    · cases he
      exact .inl (unopened_of_openArchive hopen hf)
    · obtain ⟨rfl, -⟩ := openArchive_ok hopen
      obtain ⟨before, e, after, n, rfl, hbefore, he⟩ := extractEntries_error hrun
      exact .inr ⟨before, e, after, n, hopen, hbefore, strikes_of_extractEntry he hf⟩
  · rintro (hunopened | ⟨before, e, after, m, hopen, hbefore, hstrikes⟩)
    · exact ⟨t, ends_bind.2 (.inl ⟨_, rfl, hunopened.ends⟩), hunopened.not_isReported⟩
    · obtain ⟨t', he⟩ := hstrikes.ends
      refine ⟨t', (ends_bind_of_ok hopen).2 ?_, hstrikes.not_isReported⟩
      exact extractEntries_of_error hbefore he after

/-- No entry of an archive is written over the archive. -/
def KeepsArchive (host : Host) (cwd : Path) (archive target : String) (t : FileTree) : Prop :=
  ∀ es, (openArchive host cwd archive).Ends t (.ok es) t →
    ∀ e ∈ es, ¬e.FileAt cwd target (Path.place cwd (Path.ofText archive))

/-- While its entries are being extracted, an archive that they keep is the one that was opened. -/
theorem KeepsArchive.openArchive (h : KeepsArchive host cwd archive target t) (hcwd : cwd.IsNormal)
    (hopen : (openArchive host cwd archive).Ends t (.ok (before ++ after)) t)
    (hbefore : (extractEntries cwd target before).Ends t (.ok ()) m) :
    (openArchive host cwd archive).Ends m (.ok (before ++ after)) m := by
  apply openArchive_changes hopen (changes_of_extractEntries hcwd hbefore) hcwd
  rintro ⟨e, he, hfile⟩
  exact h _ hopen e (List.mem_append_left after he) hfile

/-- An app is not written where its template cannot be extracted. -/
theorem writeApp_of_template (hmake : (makeDirectories cwd (Path.ofText output)).Ends u (.ok ()) t)
    (h : (extractArchive host cwd archive (Path.ofText output).text).Ends t (.error f) t')
    (app : FunctionApp) : (writeApp host cwd app output (some archive)).Ends u (.error f) t' := by
  rw [writeApp, ends_bind_of_ok hmake]
  exact ends_bind.2 (.inl ⟨f, rfl, h⟩)

end Disk

namespace Console

open Disk

/-- A command, begun at a tree, comes to extract an archive into a target. If that fails, it has
some lines to print before. -/
inductive Command.Extracts (host : Host) (cwd : Path) (env : Environment)
    (archive target : String) (t : FileTree) : Command → FileTree → List String → Prop
  | unpack : Extracts host cwd env archive target t (.unpack archive target) t []
  | build (h : u.Analyzes host cwd source (resolveSettings env strict authLevel handler) log app)
      (hmake : (makeDirectories cwd (Path.ofText output)).Ends u (.ok ()) t)
      (htarget : (Path.ofText output).text = target) :
      Extracts host cwd env archive target t
        (.build source output (some archive) strict authLevel handler) u (log.map diagnosticLine)

variable {host : Host} {cwd : Path} {env : Environment} {archive target : String} {c : Command}
  {t t' u : FileTree} {f : Failure}

theorem Command.Extracts.run_eq (hc : c.Extracts host cwd env archive target t u lines)
    (h : (extractArchive host cwd archive target).Ends t (.error f) t') (T : Terminal) :
    (c.run T host cwd env).run u = (failureReply T f lines f.message, t') := by
  cases hc with
  | unpack =>
    rw [Command.run, StateT.run_bind]
    rw [show (extractArchive host cwd archive target).run.run t = (.error f, t') from h]
    rfl
  | build ha hmake htarget =>
    subst htarget
    rw [Command.run, StateT.run_bind, build_of_writeApp ha (writeApp_of_template hmake h _)]
    rfl

/-- Of an archive that none of its entries is written over, an extraction fails unreported where the
name of the archive has a null character or its list of entries cannot be read, and where, after all
entries before have been extracted, an entry is struck by its defect or by a null character in a
path; nowhere else. Up to then the archive is the one that was opened. A command that comes to the
extraction prints the message of a reported failure and exits with 1. An unreported one ends the
command, with nothing printed. -/
theorem extraction_unreported (T : Terminal) (host : Host) (cwd : Path) (archive target : String)
    (t : FileTree) (hkeeps : KeepsArchive host cwd archive target t) :
    (∀ f, (∃ t', (extractArchive host cwd archive target).Ends t (.error f) t' ∧
        f.isReported = false) ↔
      Unopened host cwd archive t f ∨
      ∃ before e after m,
        (openArchive host cwd archive).Ends t (.ok (before ++ e :: after)) t ∧
        (extractEntries cwd target before).Ends t (.ok ()) m ∧ Strikes cwd target e m f) ∧
    (cwd.IsNormal → ∀ before after m,
      (openArchive host cwd archive).Ends t (.ok (before ++ after)) t →
      (extractEntries cwd target before).Ends t (.ok ()) m →
        (openArchive host cwd archive).Ends m (.ok (before ++ after)) m) ∧
    ∀ f t', (extractArchive host cwd archive target).Ends t (.error f) t' →
      ∀ env c u lines, Command.Extracts host cwd env archive target t c u lines →
        (f.isReported = true → (c.run T host cwd env).run u =
          (printLines T 1 "" (lines ++ [colored "red" f.message]), t')) ∧
        (f.isReported = false →
          (c.run T host cwd env).run u = (⟨1, some (.failure f), ""⟩, t')) := by
  refine ⟨fun f => extractArchive_unreported,
    fun hcwd before after m => hkeeps.openArchive hcwd, fun f t' h env c u lines hc => ?_⟩
  rw [hc.run_eq h, failureReply]
  constructor
  · intro hf
    rw [if_pos hf]
  · intro hf
    rw [if_neg (Bool.eq_false_iff.1 hf)]

/-- A host that knows one archive, whose only entry has a defect. -/
def damagingHost (d : Defect) : Host :=
  hostOf [⟨"a", "x".toUTF8, some d⟩]

theorem openArchive_encrypted :
    (openArchive (damagingHost .encrypted) ⟨.root, ["w"]⟩ "a.zip").Ends packedTree
      (.ok [⟨"a", "x".toUTF8, some .encrypted⟩]) packedTree := by
  rfl

theorem planEntry_encrypted : planEntry ⟨.root, ["w"]⟩ "a" "out" =
    .ok ⟨"a", ⟨.root, ["w", "out", "a"]⟩, false⟩ := by
  decide +kernel

theorem keepsArchive_encrypted :
    KeepsArchive (damagingHost .encrypted) ⟨.root, ["w"]⟩ "a.zip" "out" packedTree := by
  intro es hes e he hfile
  have hplace : Path.place ⟨.root, ["w"]⟩ (Path.ofText "a.zip") = ["w", "a.zip"] := by
    decide +kernel
  cases (openArchive_encrypted.unique hes).1
  obtain rfl := List.mem_singleton.1 he
  obtain ⟨plan, hplan, -, hparts⟩ := hfile
  cases planEntry_encrypted.symm.trans hplan
  exact absurd (hparts.trans hplace) (by decide)

/-- An encrypted entry ends the command. -/
theorem extraction_unreported_encrypted : ∃ t',
    KeepsArchive (damagingHost .encrypted) ⟨.root, ["w"]⟩ "a.zip" "out" packedTree ∧
    (extractArchive (damagingHost .encrypted) ⟨.root, ["w"]⟩ "a.zip" "out").Ends packedTree
      (.error (.encryptedEntry "a")) t' ∧
    ((Command.unpack "a.zip" "out").run (.plain 80) (damagingHost .encrypted) ⟨.root, ["w"]⟩ []).run
      packedTree = (⟨1, some (.failure (.encryptedEntry "a")), ""⟩, t') := by
  obtain ⟨hunreported, -, hreply⟩ := extraction_unreported (.plain 80) (damagingHost .encrypted)
    ⟨.root, ["w"]⟩ "a.zip" "out" packedTree keepsArchive_encrypted
  have hmake : ((makeDirectories ⟨.root, ["w"]⟩ (Path.parent ⟨.root, ["w", "out", "a"]⟩)).run.run
      packedTree).1 = .ok () := by decide +kernel
  have hbegins : Begins ⟨.root, ["w"]⟩ "out" ⟨"a", "x".toUTF8, some .encrypted⟩ packedTree _ _ :=
    .file planEntry_encrypted rfl (ends_of_run hmake)
  have hstrikes : Strikes ⟨.root, ["w"]⟩ "out" ⟨"a", "x".toUTF8, some .encrypted⟩ packedTree
      (Defect.failure "a" .encrypted) := .unread hbegins rfl rfl rfl
  obtain ⟨t', h, hf⟩ := (hunreported (.encryptedEntry "a")).2
    (.inr ⟨[], _, [], packedTree, openArchive_encrypted, ends_pure.2 ⟨rfl, rfl⟩, hstrikes⟩)
  exact ⟨t', keepsArchive_encrypted, h, (hreply _ t' h [] _ _ _ .unpack).2 hf⟩

/-- An archive that can be opened still ends the command where an entry has a wrong checksum. -/
theorem extraction_checksum_uncaught : ∃ t',
    (extractArchive (damagingHost .checksum) ⟨.root, ["w"]⟩ "a.zip" "out").Ends packedTree
      (.error (.badChecksum "a")) t' ∧ (Failure.badChecksum "a").isReported = false ∧
    (((Command.unpack "a.zip" "out").run (.plain 80) (damagingHost .checksum) ⟨.root, ["w"]⟩ []).run
      packedTree).1 = ⟨1, some (.failure (.badChecksum "a")), ""⟩ := by
  have hrun : ((extractArchive (damagingHost .checksum) ⟨.root, ["w"]⟩ "a.zip" "out").run.run
      packedTree).1 = .error (.badChecksum "a") := by decide +kernel
  have h := ends_of_run hrun
  refine ⟨_, h, rfl, ?_⟩
  rw [Command.Extracts.unpack.run_eq h]
  rfl

end Console

end AppManifest
