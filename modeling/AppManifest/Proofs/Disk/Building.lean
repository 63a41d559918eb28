import AppManifest.Build
import AppManifest.Proofs.Analysis.Names
import AppManifest.Proofs.Disk.Extraction
import Mathlib.Data.List.Nodup

namespace AppManifest
set_option autoImplicit true

/-! What a build writes, and where. -/

/-- The functions of an app have valid names, no two the same. -/
theorem Document.registered_of_analyze {d : Document}
    (h : d.analyze settings = ⟨log, .ok app⟩) :
    (app.functions.map FunctionDescriptor.name).Nodup ∧
      ∀ f ∈ app.functions, IsFunctionName f.name := by
  obtain ⟨symbols, functions, p, -, hx, -, rfl⟩ := analyzeInto_ok.1 h
  have hr := Scope.registered_analyzeStatements (Scope.registered_start _ []) hx
  exact ⟨hr.distinct, hr.valid⟩

theorem IsFunctionName.not_mem (h : IsFunctionName name) (hc : isNameChar c = false) :
    c ∉ name.toList := by
  obtain ⟨first, rest, hname, hfirst, hrest, -⟩ := h
  intro hmem
  rw [hname] at hmem
  have hchar : isNameChar c = true := by
    rcases List.mem_cons.1 hmem with rfl | hmem
    · exact (isNameChar_iff c).2 (.inl hfirst)
    · exact (isNameChar_iff c).2 (hrest c hmem)
  cases hc.symm.trans hchar

theorem IsFunctionName.isComponent (h : IsFunctionName name) : Path.IsComponent name := by
  refine ⟨?_, ?_, h.not_mem (by decide)⟩
  · rintro rfl
    obtain ⟨first, rest, hname, -⟩ := h
    cases hname
  · rintro rfl
    exact h.not_mem (c := '.') (by decide) (by decide)

theorem IsFunctionName.down (h : IsFunctionName name) : ".." ≠ name := by
  rintro rfl
  exact h.not_mem (c := '.') (by decide) (by decide)

/-- The path of a valid name has it as its only component. -/
theorem IsFunctionName.ofText (h : IsFunctionName name) :
    Path.ofText name = ⟨.relative, [name]⟩ := by
  have htidy : Path.IsTidy ⟨.relative, [name]⟩ := by
    intro c hc
    rw [List.mem_singleton.1 hc]
    exact h.isComponent
  have htext : Path.text ⟨.relative, [name]⟩ = name := by
    rw [Path.text, if_neg (by simp), Anchor.text, String.empty_append, String.intercalate_singleton]
  have h := Path.ofText_text htidy
  rwa [htext] at h

/-- The path of a function's file in an output directory. -/
def functionPath (output : Path) (name : String) : Path :=
  ⟨output.anchor, output.parts ++ [name, "function.json"]⟩

def hostPath (output : Path) : Path :=
  ⟨output.anchor, output.parts ++ ["host.json"]⟩

namespace Disk

variable {cwd output p : Path} {fs : List FunctionDescriptor}

theorem join_function {f : FunctionDescriptor} (h : IsFunctionName f.name) (output : Path) :
    (output.join (Path.ofText f.name)).join functionFile = functionPath output f.name := by
  rw [h.ofText]
  change (⟨output.anchor, (output.parts ++ [f.name]) ++ ["function.json"]⟩ : Path) = _
  rw [List.append_assoc]
  rfl

theorem place_function (cwd output : Path) (h : IsFunctionName name) :
    Path.place cwd (functionPath output name) =
      Path.place cwd output ++ [name, "function.json"] := by
  refine Path.place_append cwd output.anchor output.parts ?_
  intro hd
  rcases List.mem_cons.1 hd with hd | hd
  · exact h.down hd
  · revert hd
    decide

example : Path.place ⟨.root, ["w"]⟩ (functionPath (Path.ofText "x/../out") "T-a") =
    ["w", "out", "T-a", "function.json"] := by decide +kernel

theorem place_host (cwd output : Path) :
    Path.place cwd (hostPath output) = Path.place cwd output ++ ["host.json"] :=
  Path.place_append cwd output.anchor output.parts (by decide)

theorem place_prefix_function (cwd output : Path) (h : IsFunctionName name) :
    Path.place cwd output <+: Path.place cwd (functionPath output name) := by
  rw [place_function cwd output h]
  exact List.prefix_append _ _

theorem place_prefix_host (cwd output : Path) :
    Path.place cwd output <+: Path.place cwd (hostPath output) := by
  rw [place_host]
  exact List.prefix_append _ _

theorem place_function_ne_host (cwd output : Path) (h : IsFunctionName name) :
    Path.place cwd (functionPath output name) ≠ Path.place cwd (hostPath output) := by
  rw [place_function cwd output h, place_host]
  intro he
  cases congrArg List.length (List.append_cancel_left he)

theorem eq_of_place_function (cwd output : Path) (h : IsFunctionName name)
    (h' : IsFunctionName name')
    (he : Path.place cwd (functionPath output name) = Path.place cwd (functionPath output name')) :
    name = name' := by
  rw [place_function cwd output h, place_function cwd output h'] at he
  exact (List.cons.inj (List.append_cancel_left he)).1

theorem tidy_functionPath (ho : output.IsTidy) (h : IsFunctionName name) :
    (functionPath output name).IsTidy := by
  intro c hc
  rcases List.mem_append.1 hc with hc | hc
  · exact ho c hc
  · rcases List.mem_cons.1 hc with rfl | hc
    · exact h.isComponent
    · obtain rfl := List.mem_singleton.1 hc
      decide

theorem tidy_hostPath (ho : output.IsTidy) : (hostPath output).IsTidy := by
  intro c hc
  rcases List.mem_append.1 hc with hc | hc
  · exact ho c hc
  · obtain rfl := List.mem_singleton.1 hc
    decide

/-- Where the directories of an output can be: on the way to it as it is written, above its place
and below it. -/
def Around (cwd output : Path) (q : Place) : Prop :=
  Path.Passes cwd output q ∨ Place.Meets (Path.place cwd output) q

/-- The way of a path below the output directory stays around it. -/
theorem around_of_passes (ys : List String) (hys : ".." ∉ ys)
    (hq : Path.Passes cwd ⟨output.anchor, output.parts ++ ys⟩ q) : Around cwd output q := by
  obtain ⟨xs, hxs, rfl⟩ := hq
  rcases List.prefix_or_prefix_of_prefix hxs (List.prefix_append output.parts ys) with h | h
  · exact .inl ⟨xs, h, rfl⟩
  · obtain ⟨zs, rfl⟩ := h
    have hzs : ".." ∉ zs := fun hd =>
      hys ((List.prefix_append_right_inj output.parts).1 hxs |>.subset hd)
    rw [Path.place_append cwd output.anchor output.parts hzs]
    exact .inr (.inr (List.prefix_append _ _))

theorem staysIn_writeJson {F : Place → Prop} (hcwd : cwd.IsNormal) (hp : p.IsTidy) (value : Json)
    (hF : F (Path.place cwd p)) : (writeJson cwd p value).StaysIn (Path.Passes cwd p.parent) F :=
  (staysIn_makeDirectories hcwd hp.parent).bind fun _ =>
    (staysIn_writeFile hcwd hp hF).bind fun _ => staysIn_pure _

theorem writeJson_ok (h : (writeJson cwd p value).Ends t (.ok written) t') :
    written = p ∧ t'.Holds cwd p value.print.toUTF8 := by
  obtain ⟨_, m, -, h⟩ := ends_bind_ok.1 h
  obtain ⟨_, m', hw, h⟩ := ends_bind_ok.1 h
  obtain ⟨hp, rfl⟩ := ends_pure.1 h
  exact ⟨(Except.ok.inj hp).symm, writeFile_ok hw⟩

theorem staysIn_writeFunctions (hcwd : cwd.IsNormal) (ho : output.IsTidy)
    (hv : ∀ f ∈ fs, IsFunctionName f.name) :
    (writeFunctions cwd output fs).StaysIn (Around cwd output) fun q =>
      ∃ f ∈ fs, Path.place cwd (functionPath output f.name) = q := by
  induction fs with
  | nil => exact staysIn_pure _
  | cons f fs ih =>
    have hf := hv f List.mem_cons_self
    unfold writeFunctions
    rw [join_function hf]
    refine StaysIn.bind (StaysIn.mono (staysIn_writeJson hcwd (tidy_functionPath ho hf) _ rfl)
      (fun q hq => ?_) fun q hq => ⟨f, List.mem_cons_self, hq⟩) fun _ => ?_
    · have hparent : (functionPath output f.name).parent =
          ⟨output.anchor, output.parts ++ [f.name]⟩ := by
        rw [functionPath, Path.parent, List.append_cons, List.dropLast_concat]
      rw [hparent] at hq
      exact around_of_passes [f.name] (fun hd => hf.down (List.mem_singleton.1 hd)) hq
    · refine StaysIn.bind ?_ fun _ => staysIn_pure _
      refine (ih fun g hg => hv g (List.mem_cons_of_mem _ hg)).mono (fun _ => id) ?_
      rintro q ⟨g, hg, hq⟩
      exact ⟨g, List.mem_cons_of_mem _ hg, hq⟩

theorem writeFunctions_ok (hcwd : cwd.IsNormal) (ho : output.IsTidy)
    (hv : ∀ f ∈ fs, IsFunctionName f.name) (hd : (fs.map FunctionDescriptor.name).Nodup)
    (h : (writeFunctions cwd output fs).Ends t (.ok written) t') :
    written = fs.map (fun f => functionPath output f.name) ∧
      ∀ f ∈ fs, t'.Holds cwd (functionPath output f.name) f.functionJson.print.toUTF8 := by
  induction fs generalizing t written with
  | nil => exact ⟨(Except.ok.inj (ends_pure.1 h).1).symm, nofun⟩
  | cons f fs ih =>
    have hf := hv f List.mem_cons_self
    have hv' : ∀ g ∈ fs, IsFunctionName g.name := fun g hg => hv g (List.mem_cons_of_mem _ hg)
    obtain ⟨hnew, hd⟩ := List.nodup_cons.1 hd
    obtain ⟨p, m, hw, h⟩ := ends_bind_ok.1 h
    obtain ⟨rest, m', hr, h⟩ := ends_bind_ok.1 h
    obtain ⟨hp, rfl⟩ := ends_pure.1 h
    rw [join_function hf] at hw
    obtain ⟨rfl, hholds⟩ := writeJson_ok hw
    obtain ⟨rfl, hrest⟩ := ih hv' hd hr
    refine ⟨(Except.ok.inj hp).symm, fun g hg => ?_⟩
    rcases List.mem_cons.1 hg with rfl | hg
    · refine hholds.changes (staysIn_writeFunctions hcwd ho hv' _ _ _ hr) hcwd
        (tidy_functionPath ho hf) ?_
      rintro ⟨f', hf', he⟩
      have hname := eq_of_place_function cwd output (hv' f' hf') hf he
      exact hnew (List.mem_map.2 ⟨f', hf', hname⟩)
    · exact hrest g hg

/-- The files of an app, without what a template brings. -/
def writeFiles (cwd output : Path) (app : FunctionApp) : Disk (List Path) := do
  let host ← writeJson cwd (hostPath output) app.host.hostJson
  return host :: (← writeFunctions cwd output app.functions)

/-- The places of the files of an app. -/
def FilePlace (cwd output : Path) (fs : List FunctionDescriptor) (q : Place) : Prop :=
  Path.place cwd (hostPath output) = q ∨ ∃ f ∈ fs, Path.place cwd (functionPath output f.name) = q

theorem place_prefix_of_filePlace (hv : ∀ f ∈ fs, IsFunctionName f.name)
    (hq : FilePlace cwd output fs q) : Path.place cwd output <+: q := by
  rcases hq with rfl | ⟨f, hf, rfl⟩
  · exact place_prefix_host cwd _
  · exact place_prefix_function cwd _ (hv f hf)

theorem staysIn_writeFiles (hcwd : cwd.IsNormal) (ho : output.IsTidy)
    (hv : ∀ f ∈ app.functions, IsFunctionName f.name) :
    (writeFiles cwd output app).StaysIn (Around cwd output)
      (FilePlace cwd output app.functions) := by
  have hhost : (writeJson cwd (hostPath output) app.host.hostJson).StaysIn (Around cwd output)
      (FilePlace cwd output app.functions) := by
    apply (staysIn_writeJson hcwd (tidy_hostPath ho) _ (.inl rfl)).mono _ fun _ => id
    intro q hq
    exact around_of_passes [] nofun (by simpa [hostPath, Path.parent] using hq)
  apply hhost.bind
  intro _
  apply ((staysIn_writeFunctions hcwd ho hv).mono (fun _ => id) fun q => .inr).bind
  exact fun _ => staysIn_pure _

/-- Writing an app changes nothing but the output directory, what lies below it and, where nothing
stood, directories on the way to it. -/
theorem staysIn_writeApp (host : Host) (hcwd : cwd.IsNormal)
    (hv : ∀ f ∈ app.functions, IsFunctionName f.name)
    (output : String) (template : Option String) :
    (writeApp host cwd app output template).StaysIn (Around cwd (Path.ofText output))
      (Path.place cwd (Path.ofText output) <+: ·) := by
  have ho := Path.tidy_ofText output
  have htemplate : ∀ archive, (extractArchive host cwd archive (Path.ofText output).text).StaysIn
      (Around cwd (Path.ofText output)) (Path.place cwd (Path.ofText output) <+: ·) := by
    intro archive
    have h := staysIn_extractArchive host hcwd archive (Path.ofText output).text
    rw [Path.ofText_text ho] at h
    exact h.mono (fun q hq => .inr hq) fun _ => id
  have hfiles : (writeFiles cwd (Path.ofText output) app).StaysIn
      (Around cwd (Path.ofText output)) (Path.place cwd (Path.ofText output) <+: ·) :=
    (staysIn_writeFiles hcwd ho hv).mono (fun _ => id) fun _ => place_prefix_of_filePlace hv
  refine StaysIn.bind ((staysIn_makeDirectories hcwd ho).mono (fun q hq => .inl hq) fun _ => id)
    fun _ => ?_
  split
  · exact hfiles
  · exact (htemplate _).bind fun _ => hfiles

theorem writeFiles_ok (hcwd : cwd.IsNormal) (ho : output.IsTidy)
    (hv : ∀ f ∈ app.functions, IsFunctionName f.name)
    (hd : (app.functions.map FunctionDescriptor.name).Nodup)
    (h : (writeFiles cwd output app).Ends t (.ok written) t') :
    written = hostPath output :: app.functions.map (fun f => functionPath output f.name) ∧
      t'.Holds cwd (hostPath output) app.host.hostJson.print.toUTF8 ∧
      ∀ f ∈ app.functions, t'.Holds cwd (functionPath output f.name)
        f.functionJson.print.toUTF8 := by
  obtain ⟨first, n, hhost, h⟩ := ends_bind_ok.1 h
  obtain ⟨rest, n', hfs, h⟩ := ends_bind_ok.1 h
  obtain ⟨hw, rfl⟩ := ends_pure.1 h
  obtain ⟨rfl, hholds⟩ := writeJson_ok hhost
  obtain ⟨rfl, hrest⟩ := writeFunctions_ok hcwd ho hv hd hfs
  refine ⟨(Except.ok.inj hw).symm, ?_, hrest⟩
  refine hholds.changes (staysIn_writeFunctions hcwd ho hv _ _ _ hfs) hcwd (tidy_hostPath ho) ?_
  rintro ⟨f, hf, he⟩
  exact place_function_ne_host cwd _ (hv f hf) he

theorem writeApp_ok {output : String} (hcwd : cwd.IsNormal)
    (hv : ∀ f ∈ app.functions, IsFunctionName f.name)
    (hd : (app.functions.map FunctionDescriptor.name).Nodup)
    (h : (writeApp host cwd app output template).Ends t (.ok written) t') :
    written = hostPath (Path.ofText output) ::
        app.functions.map (fun f => functionPath (Path.ofText output) f.name) ∧
      t'.Holds cwd (hostPath (Path.ofText output)) app.host.hostJson.print.toUTF8 ∧
      ∀ f ∈ app.functions, t'.Holds cwd (functionPath (Path.ofText output) f.name)
        f.functionJson.print.toUTF8 := by
  obtain ⟨_, m, -, h⟩ := ends_bind_ok.1 h
  obtain ⟨m', h⟩ : ∃ m', (writeFiles cwd (Path.ofText output) app).Ends m' (.ok written) t' := by
    cases template with
    | none => exact ⟨m, h⟩
    | some archive =>
      obtain ⟨_, m', -, h⟩ := ends_bind_ok.1 h
      exact ⟨m', h⟩
  exact writeFiles_ok hcwd (Path.tidy_ofText output) hv hd h

theorem nodup_places (cwd output : Path) (hv : ∀ f ∈ fs, IsFunctionName f.name)
    (hd : (fs.map FunctionDescriptor.name).Nodup) :
    ((hostPath output :: fs.map (fun f => functionPath output f.name)).map
      (Path.place cwd)).Nodup := by
  rw [List.map_cons, List.map_map, List.nodup_cons]
  constructor
  · intro h
    obtain ⟨f, hf, he⟩ := List.mem_map.1 h
    exact place_function_ne_host cwd output (hv f hf) he
  · refine List.Nodup.map_on ?_ (List.Nodup.of_map _ hd)
    intro f hf g hg he
    exact List.inj_on_of_nodup_map hd hf hg
      (eq_of_place_function cwd output (hv f hf) (hv g hg) he)

end Disk

/-- The app that a build writes and the diagnostics reported on the way, where it comes to writing:
the source could be read and analyzed, and no error was reported. -/
def FileTree.Analyzes (host : Host) (t : FileTree) (cwd : Path) (source : String)
    (settings : Settings) (log : Log) (app : FunctionApp) : Prop :=
  ∃ d, t.readSource host cwd source = .ok d ∧ d.analyze settings = ⟨log, .ok app⟩ ∧
    log.hasErrors = false

/-- A build writes an app, or else leaves the tree alone. -/
theorem build_cases (h : (build host cwd source output settings template).run t = (o, t')) :
    (∃ log app, t.Analyzes host cwd source settings log app ∧ ∃ r,
        (Disk.writeApp host cwd app output template).Ends t r t' ∧
        o = ⟨log, r.map fun written => ⟨app, false, written⟩⟩) ∨
      (¬∃ log app, t.Analyzes host cwd source settings log app) ∧ t' = t ∧
        ∀ b, o.result = .ok b → b.hasErrors = true ∧ b.written = [] := by
  simp only [build, StateT.run_bind, StateT.run_get, pure_bind] at h
  split at h
  next f hf =>
    cases h
    refine .inr ⟨?_, rfl, nofun⟩
    rintro ⟨log, app, d, hd, -⟩
    cases hf.symm.trans hd
  next d hd =>
    split at h
    next f hf =>
      cases h
      refine .inr ⟨?_, rfl, nofun⟩
      rintro ⟨log, app, d', hd', ha, -⟩
      cases hd.symm.trans hd'
      cases hf.symm.trans (congrArg Outcome.result ha)
    next app happ =>
      split at h
      next he =>
        cases h
        refine .inr ⟨?_, rfl, ?_⟩
        · rintro ⟨log, app', d', hd', ha, hlog⟩
          cases hd.symm.trans hd'
          rw [ha] at he
          cases he.symm.trans hlog
        · intro b hb
          cases hb
          exact ⟨rfl, rfl⟩
      next hlog =>
        have ha : d.analyze settings = ⟨(d.analyze settings).log, .ok app⟩ := by rw [← happ]
        refine .inl ⟨_, app, ⟨d, hd, ha, Bool.eq_false_iff.2 hlog⟩, ?_⟩
        rw [StateT.run_bind] at h
        generalize hw : StateT.run (Disk.writeApp host cwd app output template).run t = w at h
        obtain ⟨r, m⟩ := w
        cases r with
        | error f =>
          cases h
          exact ⟨_, hw, rfl⟩
        | ok written =>
          cases h
          exact ⟨_, hw, rfl⟩

/-- Where the analysis comes to an app that can be written, a build ends as writing it ends. -/
theorem build_of_writeApp (h : t.Analyzes host cwd source settings log app)
    (hw : (Disk.writeApp host cwd app output template).Ends t r t') :
    (build host cwd source output settings template).run t =
      (⟨log, r.map fun written => ⟨app, false, written⟩⟩, t') := by
  generalize hrun : (build host cwd source output settings template).run t = w
  obtain ⟨o, u⟩ := w
  rcases build_cases hrun with ⟨log', app', h', r, hw', rfl⟩ | ⟨hnone, -⟩
  · obtain ⟨d, hd, ha, -⟩ := h
    obtain ⟨d', hd', ha', -⟩ := h'
    cases hd.symm.trans hd'
    cases ha.symm.trans ha'
    obtain ⟨rfl, rfl⟩ := hw.unique hw'
    rfl
  · exact absurd ⟨log, app, h⟩ hnone

/-- What a build leaves. Where the source cannot be read or analyzed, or an error is reported, the
tree is as it was and nothing is written. Where the build succeeds without errors, the files of the
host and of all functions are written, in this order and at different places, and hold the app that
was found, whatever a template has brought. And in all cases what is changed is the output
directory, below it, or a new directory above it; a new directory elsewhere lies on the way that an
output path with a step up takes. -/
theorem build_writes {cwd : Path} (hcwd : cwd.IsNormal)
    (h : (build host cwd source output settings template).run t = (o, t')) :
    (((∃ f, t.readSource host cwd source = .error f) ∨
          ∃ d, t.readSource host cwd source = .ok d ∧
            ((∃ f, (d.analyze settings).result = .error f) ∨
              (d.analyze settings).log.hasErrors = true)) →
        t' = t ∧ ∀ b, o.result = .ok b → b.written = []) ∧
      (∀ b, o.result = .ok b → b.hasErrors = false →
        (∃ d, t.readSource host cwd source = .ok d ∧ d.analyze settings = ⟨o.log, .ok b.app⟩ ∧
            o.log.hasErrors = false) ∧
          b.written = hostPath (Path.ofText output) ::
            b.app.functions.map (fun f => functionPath (Path.ofText output) f.name) ∧
          (b.written.map (Path.place cwd)).Nodup ∧
          t'.Holds cwd (hostPath (Path.ofText output)) b.app.host.hostJson.print.toUTF8 ∧
          ∀ f ∈ b.app.functions, t'.Holds cwd (functionPath (Path.ofText output) f.name)
            f.functionJson.print.toUTF8) ∧
      ∀ p, t'.get? p ≠ t.get? p → Path.place cwd (Path.ofText output) <+: p ∨
        t.get? p = none ∧ t'.get? p = some .directory ∧
          (p <+: Path.place cwd (Path.ofText output) ∨
            ".." ∈ (Path.ofText output).parts ∧ Path.Passes cwd (Path.ofText output) p) := by
  rcases build_cases h with ⟨log, app, ⟨d, hd, ha, hlog⟩, r, hw, rfl⟩ | ⟨hno, rfl, hb⟩
  · obtain ⟨hdistinct, hv⟩ := Document.registered_of_analyze ha
    refine ⟨?_, ?_, ?_⟩
    · rintro (⟨f, hf⟩ | ⟨d', hd', he⟩)
      · cases hf.symm.trans hd
      · cases hd.symm.trans hd'
        rw [ha] at he
        rcases he with ⟨f, hf⟩ | he
        · cases hf
        · cases he.symm.trans hlog
    · intro b hb _
      cases r with
      | error f => cases hb
      | ok written =>
        cases hb
        obtain ⟨rfl, hhost, hfs⟩ := Disk.writeApp_ok hcwd hv hdistinct hw
        exact ⟨⟨d, hd, ha, hlog⟩, rfl, Disk.nodup_places cwd _ hv hdistinct, hhost, hfs⟩
    · intro p hp
      by_cases hroot : Path.place cwd (Path.ofText output) <+: p
      · exact .inl hroot
      · rcases (Disk.staysIn_writeApp host hcwd hv output template _ _ _ hw).get?_cases hroot with
          he | ⟨hway, hnone, hdir⟩
        · exact absurd he hp
        · refine .inr ⟨hnone, hdir, ?_⟩
          rcases hway with hway | hway | hway
          · by_cases hup : ".." ∈ (Path.ofText output).parts
            · exact .inr ⟨hup, hway⟩
            · exact .inl (hway.of_down hup)
          · exact .inl hway
          · exact absurd hway hroot
  · refine ⟨fun _ => ⟨rfl, fun b hb' => (hb b hb').2⟩, ?_, fun p hp => absurd rfl hp⟩
    intro b hb' he
    cases he.symm.trans (hb b hb').1

/-- The source of one function. -/
def tickSource : ByteArray :=
  "@timer_service(schedule='* * * * * *')\nclass T:\n @on_tick\n def a(): 0\n".toUTF8

def tickSyntax : Tree :=
  .node "module" 0 70 "" [
    .node "decorated_definition" 0 69 "" [
      .node "decorator" 0 38 "" [
        .node "@" 0 1 "" [],
        .node "call" 1 38 "" [
          .node "identifier" 1 14 "function" [],
          .node "argument_list" 14 38 "arguments" [
            .node "(" 14 15 "" [],
            .node "keyword_argument" 15 37 "" [
              .node "identifier" 15 23 "name" [],
              .node "=" 23 24 "" [],
              .node "string" 24 37 "value" []],
            .node ")" 37 38 "" []]]],
      .node "class_definition" 39 69 "definition" [
        .node "class" 39 44 "" [],
        .node "identifier" 45 46 "name" [],
        .node ":" 46 47 "" [],
        .node "block" 49 69 "body" [
          .node "decorated_definition" 49 69 "" [
            .node "decorator" 49 57 "" [
              .node "@" 49 50 "" [],
              .node "identifier" 50 57 "" []],
            .node "function_definition" 59 69 "definition" [
              .node "def" 59 62 "" [],
              .node "identifier" 63 64 "name" [],
              .node "parameters" 64 66 "parameters" [
                .node "(" 64 65 "" [],
                .node ")" 65 66 "" []],
              .node ":" 66 67 "" [],
              .node "block" 68 69 "body" [
                .node "expression_statement" 68 69 "" [
                  .node "integer" 68 69 "" []]]]]]]]]

/-- A working directory with that source and a template. -/
def tickTree : FileTree where
  objects := [(["w"], .directory), (["w", "t.zip"], .file Disk.archiveBytes),
    (["w", "tick.py"], .file tickSource)]

/-- The template brings a host file of its own. -/
def tickHost : Host :=
  { Disk.hostOf [⟨"host.json", "old".toUTF8, none⟩] with parse := fun _ => tickSyntax }

/-- Over the host file of the template, the one of the app is written. -/
theorem build_writes_tickTree : ∃ o t' b,
    (build tickHost ⟨.root, ["w"]⟩ "tick.py" "out" {} (some "t.zip")).run tickTree = (o, t') ∧
      o.result = .ok b ∧
      b.written =
        [⟨.relative, ["out", "host.json"]⟩, ⟨.relative, ["out", "T-a", "function.json"]⟩] ∧
      t'.Holds ⟨.root, ["w"]⟩ ⟨.relative, ["out", "host.json"]⟩
        b.app.host.hostJson.print.toUTF8 := by
  have hcwd : Path.IsNormal ⟨.root, ["w"]⟩ := ⟨by decide, by decide, by decide⟩
  have hrun : (fun w : BuildOutcome × FileTree => w.1.result.toOption.map fun b =>
      (b.hasErrors, b.app.functions.map FunctionDescriptor.name))
      ((build tickHost ⟨.root, ["w"]⟩ "tick.py" "out" {} (some "t.zip")).run tickTree) =
        some (false, ["T-a"]) := by decide +kernel
  generalize h : (build tickHost ⟨.root, ["w"]⟩ "tick.py" "out" {} (some "t.zip")).run tickTree = w
    at hrun
  obtain ⟨o, t'⟩ := w
  obtain ⟨b, hb, hfs⟩ := Option.map_eq_some_iff.1 hrun
  obtain ⟨he, hfs⟩ := Prod.mk.inj hfs
  have hb := eq_ok_of_toOption hb
  obtain ⟨-, hwritten, -, hhost, -⟩ := (build_writes hcwd h).2.1 b hb he
  have hout : Path.ofText "out" = ⟨.relative, ["out"]⟩ := by decide +kernel
  have hpath : hostPath ⟨.relative, ["out"]⟩ = ⟨.relative, ["out", "host.json"]⟩ := rfl
  rw [hout] at hwritten hhost
  rw [hpath] at hhost
  refine ⟨o, t', b, rfl, hb, ?_, hhost⟩
  have hnames : b.app.functions.map (fun f => functionPath ⟨.relative, ["out"]⟩ f.name) =
      (b.app.functions.map FunctionDescriptor.name).map (functionPath ⟨.relative, ["out"]⟩) := by
    rw [List.map_map]
    rfl
  rw [hwritten, hnames, hfs]
  rfl

/-- A source file without statements, alone in the working directory. -/
def bareTree : FileTree where
  objects := [(["w"], .directory),
    (["w", "m.py"], .file ByteArray.empty)]

theorem exists_new_directory {x : StateM FileTree α} (hold : t.isDirectory p = false)
    (hnew : (x.run t).2.isDirectory p = true) :
    ∃ o t', x.run t = (o, t') ∧ t'.get? p ≠ t.get? p := by
  refine ⟨(x.run t).1, (x.run t).2, rfl, fun he => ?_⟩
  rw [FileTree.isDirectory, he] at hnew
  exact Bool.false_ne_true (hold.symm.trans hnew)

/-- An output path that goes up leaves a new directory beside the output directory. -/
theorem build_changes_aside : ∃ o t' p,
    (build (Disk.hostOf []) ⟨.root, ["w"]⟩ "m.py" "x/../out" {} none).run bareTree = (o, t') ∧
      t'.get? p ≠ bareTree.get? p ∧
      ¬Path.place ⟨.root, ["w"]⟩ (Path.ofText "x/../out") <+: p ∧
      ¬p <+: Path.place ⟨.root, ["w"]⟩ (Path.ofText "x/../out") := by
  obtain ⟨o, t', h, hp⟩ : ∃ o t',
      (build (Disk.hostOf []) ⟨.root, ["w"]⟩ "m.py" "x/../out" {} none).run bareTree = (o, t') ∧
        t'.get? ["w", "x"] ≠ bareTree.get? ["w", "x"] :=
    exists_new_directory (by decide +kernel) (by decide +kernel)
  have hplace : Path.place ⟨.root, ["w"]⟩ (Path.ofText "x/../out") = ["w", "out"] := by
    decide +kernel
  refine ⟨o, t', ["w", "x"], h, hp, ?_⟩
  rw [hplace]
  decide

end AppManifest
