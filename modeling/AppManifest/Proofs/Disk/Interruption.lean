import AppManifest.Proofs.Disk.Unpacking

namespace AppManifest
set_option autoImplicit true

/-! What an extraction that fails leaves behind: the work of the entries before the failing one, and
at most the way to that entry's own place. -/

/-- Seen from the target directory, the name of an entry leads out of it. -/
def ArchiveEntry.Escapes (cwd : Path) (target : String) (e : ArchiveEntry) : Prop :=
  ¬((Path.absolute cwd ((Path.absolute cwd (Path.ofText target)).join (Path.ofText e.name))).Within
    (Path.absolute cwd (Path.ofText target)))

namespace Disk

variable {cwd : Path} {target : String} {t t' m : FileTree} {e : ArchiveEntry}

theorem planEntry_of_escapes (h : e.Escapes cwd target) :
    planEntry cwd e.name target = .error (.escapingEntry e.name) :=
  if_neg h

theorem exists_planEntry (h : ¬e.Escapes cwd target) :
    ∃ plan, planEntry cwd e.name target = .ok plan :=
  ⟨_, if_pos (not_not.1 h)⟩

/-- Entries fail at the first of them that fails. -/
theorem extractEntries_error (h : (extractEntries cwd target es).Ends t (.error f) t') :
    ∃ before e after m, es = before ++ e :: after ∧
      (extractEntries cwd target before).Ends t (.ok ()) m ∧
      (extractEntry cwd target e).Ends m (.error f) t' := by
  induction es generalizing t with
  | nil => cases (ends_pure.1 h).1
  | cons x es ih =>
    rcases ends_bind.1 h with ⟨_, hf, hx⟩ | ⟨_, m, hx, h⟩
    · cases hf
      exact ⟨[], x, es, t, rfl, ends_pure.2 ⟨rfl, rfl⟩, hx⟩
    · obtain ⟨before, e, after, n, rfl, hbefore, he⟩ := ih h
      exact ⟨x :: before, e, after, n, rfl, (ends_bind_of_ok hx).2 hbefore, he⟩

/-- What comes after an entry that fails plays no part. -/
theorem extractEntries_of_error (h : (extractEntries cwd target before).Ends t (.ok ()) m)
    (he : (extractEntry cwd target e).Ends m (.error f) t') (after : List ArchiveEntry) :
    (extractEntries cwd target (before ++ e :: after)).Ends t (.error f) t' := by
  induction before generalizing t with
  | nil =>
    obtain ⟨-, rfl⟩ := ends_pure.1 h
    exact ends_bind.2 (.inl ⟨f, rfl, he⟩)
  | cons x before ih =>
    obtain ⟨_, n, hx, h⟩ := ends_bind_ok.1 h
    exact (ends_bind_of_ok hx).2 (ih h)

theorem extractEntry_of_escapes (h : e.Escapes cwd target)
    (he : (extractEntry cwd target e).Ends t (.error f) t') :
    f = .escapingEntry e.name ∧ t' = t := by
  rw [extractEntry, planEntry_of_escapes h] at he
  obtain ⟨hf, rfl⟩ := ends_throw.1 he
  exact ⟨(Except.error.inj hf).symm, rfl⟩

theorem openArchive_error (h : (openArchive host cwd archive).Ends t (.error f) t') : t' = t := by
  have h := ends_get.1 h
  split at h
  next => exact (ends_throw.1 h).2.symm
  next =>
    split at h
    next => cases (ends_pure.1 h).1
    next => exact (ends_throw.1 h).2.symm
    next => exact (ends_throw.1 h).2.symm

/-- An entry changes its own place, or makes new directories above that. -/
theorem get?_of_extractEntry (hcwd : cwd.IsNormal) (h : (extractEntry cwd target e).Ends t r t')
    (hplan : planEntry cwd e.name target = .ok plan) {p : Place} (hp : t'.get? p ≠ t.get? p) :
    p = plan.target.parts ∨
      p <+: plan.target.parts ∧ t.get? p = none ∧ t'.get? p = some .directory := by
  by_cases hfile : e.FileAt cwd target p
  · obtain ⟨plan', hplan', -, rfl⟩ := hfile
    cases hplan.symm.trans hplan'
    exact .inl rfl
  · rcases (changes_of_extractEntry hcwd h).get?_cases hfile with hsame | ⟨hdir, hnew⟩
    · exact absurd hsame hp
    · cases hdir with
      | entry hplan' _ hparts =>
        cases hplan.symm.trans hplan'
        exact .inl hparts.symm
      | above hplan' hparts =>
        cases hplan.symm.trans hplan'
        exact .inr ⟨hparts ▸ List.prefix_append _ _, hnew⟩

/-- An extraction that fails has not got into its archive, and then nothing is changed, or it ends
at an entry after all before that have been extracted. Nothing comes of the entries behind that one;
the entry itself leaves nothing where its name would leave the target directory, and else only what
it made at its own place and the new directories above that. -/
theorem extraction_interrupted (hcwd : cwd.IsNormal)
    (h : (extractArchive host cwd archive target).Ends t (.error f) t') :
    (openArchive host cwd archive).Ends t (.error f) t' ∧ t' = t ∨
      ∃ before e after m, (openArchive host cwd archive).Ends t (.ok (before ++ e :: after)) t ∧
        (extractEntries cwd target before).Ends t (.ok ()) m ∧
        (extractEntry cwd target e).Ends m (.error f) t' ∧
        (∀ others, (extractEntries cwd target (before ++ e :: others)).Ends t (.error f) t') ∧
        (e.Escapes cwd target →
          f = .escapingEntry e.name ∧ f.message = "Bad zip entry: " ++ e.name ∧ t' = m) ∧
        (¬e.Escapes cwd target → ∃ plan, planEntry cwd e.name target = .ok plan ∧
          ∀ p, t'.get? p ≠ m.get? p → p = plan.target.parts ∨
            p <+: plan.target.parts ∧ m.get? p = none ∧ t'.get? p = some .directory) := by
  rcases ends_bind.1 h with ⟨f', hf, hopen⟩ | ⟨es, m, hopen, hrun⟩
  · cases hf
    exact .inl ⟨hopen, openArchive_error hopen⟩
  · obtain ⟨rfl, -⟩ := openArchive_ok hopen
    obtain ⟨before, e, after, n, rfl, hbefore, he⟩ := extractEntries_error hrun
    refine .inr ⟨before, e, after, n, hopen, hbefore, he, ?_, ?_, ?_⟩
    · exact extractEntries_of_error hbefore he
    · intro hescapes
      obtain ⟨rfl, rfl⟩ := extractEntry_of_escapes hescapes he
      exact ⟨rfl, rfl, rfl⟩
    · intro hstays
      obtain ⟨plan, hplan⟩ := exists_planEntry hstays
      exact ⟨plan, hplan, fun p hp => get?_of_extractEntry hcwd he hplan hp⟩

/-- The second of these entries is broken; the third would leave its target. -/
def brokenEntries : List ArchiveEntry :=
  [⟨"a", "1".toUTF8, none⟩, ⟨"d/b", "2".toUTF8, some .checksum⟩, ⟨"../c", "3".toUTF8, none⟩]

theorem extraction_interrupted_brokenEntries : ∃ m t',
    (extractArchive (hostOf brokenEntries) ⟨.root, ["w"]⟩ "a.zip" "out").Ends packedTree
        (.error (.badChecksum "d/b")) t' ∧
      (extractEntries ⟨.root, ["w"]⟩ "out" (brokenEntries.take 1)).Ends packedTree (.ok ()) m ∧
      ∀ p, t'.get? p ≠ m.get? p → p = ["w", "out", "d", "b"] ∨
        p <+: ["w", "out", "d", "b"] ∧ m.get? p = none ∧ t'.get? p = some .directory := by
  have hcwd : Path.IsNormal ⟨.root, ["w"]⟩ := ⟨by decide, by decide, by decide⟩
  have hopen : (openArchive (hostOf brokenEntries) ⟨.root, ["w"]⟩ "a.zip").Ends packedTree
      (.ok brokenEntries) packedTree := by rfl
  have hfirst : ((extractEntries ⟨.root, ["w"]⟩ "out" (brokenEntries.take 1)).run.run
      packedTree).1 = .ok () := by decide +kernel
  have hsecond : ((extractEntries ⟨.root, ["w"]⟩ "out" (brokenEntries.take 2)).run.run
      packedTree).1 = .error (.badChecksum "d/b") := by decide +kernel
  have hrun : ((extractArchive (hostOf brokenEntries) ⟨.root, ["w"]⟩ "a.zip" "out").run.run
      packedTree).1 = .error (.badChecksum "d/b") := by decide +kernel
  have hplan : planEntry ⟨.root, ["w"]⟩ "d/b" "out" =
      .ok ⟨"d/b", ⟨.root, ["w", "out", "d", "b"]⟩, false⟩ := by decide +kernel
  have h := ends_of_run hrun
  rcases extraction_interrupted hcwd h with ⟨hnone, -⟩ |
    ⟨before, e, after, m, hsome, hbefore, he, -, -, hplace⟩
  · cases (hopen.unique hnone).1
  · have hentries := Except.ok.inj (hopen.unique hsome).1
    match before, hentries with
    | [], hentries =>
      cases hentries
      obtain ⟨-, rfl⟩ := ends_pure.1 hbefore
      obtain ⟨_, _, hok, -⟩ := ends_bind_ok.1 (ends_of_run hfirst)
      cases (hok.unique he).1
    | [x], hentries =>
      cases hentries
      obtain ⟨plan, hplan', hp⟩ := hplace fun hescapes => by
        cases (planEntry_of_escapes hescapes).symm.trans hplan
      cases hplan.symm.trans hplan'
      exact ⟨m, _, h, hbefore, hp⟩
    | [x, y], hentries =>
      cases hentries
      cases ((ends_of_run hsecond).unique hbefore).1
    | x :: y :: z :: before, hentries =>
      cases before <;> cases hentries

end Disk

end AppManifest
