import AppManifest.Proofs.Analysis.Noting

namespace AppManifest
set_option autoImplicit true

/-! The first value that a run meets for a host setting stays; the later ones that differ from it
are warned about. -/

theorem Finding.message_conflictingHostSetting (field : String) (kept : Int) :
    (conflictingHostSetting field kept).message =
      "Conflicting value for host setting '" ++ field ++ "'; keeping '" ++ toString kept ++
        "'" := by
  apply String.toList_inj.1
  rw [message, String.toList_ofList]
  simp only [String.toList_append]
  simp [code, Code.template, arguments, Template.fill]

/-- The warnings about a host setting: they name it in front. -/
def Log.conflicts (log : Log) (setting : QueueSetting) : Log :=
  (log.about .conflictingHostSetting).filter fun d =>
    ("Conflicting value for host setting '" ++ setting.field ++ "'").toList <+: d.message.toList

/-- Every warning about a host setting names one of the two. -/
def Log.Attributed (log : Log) : Prop :=
  ∀ d ∈ log.about .conflictingHostSetting, ∃ setting, d ∈ log.conflicts setting

theorem Log.conflicts_append (log more : Log) (setting : QueueSetting) :
    conflicts (log ++ more) setting = conflicts log setting ++ conflicts more setting := by
  rw [conflicts, about_append, List.filter_append]
  rfl

theorem Log.conflicts_of_other {notes : Log} (h : ∀ d ∈ notes, d.code ≠ .conflictingHostSetting)
    (setting : QueueSetting) : conflicts notes setting = [] := by
  rw [conflicts, about_of_other h]
  rfl

theorem Log.Attributed.append {log more : Log} (h : log.Attributed) (h' : more.Attributed) :
    Attributed (log ++ more) := by
  intro d hd
  rw [about_append] at hd
  simp only [conflicts_append, List.mem_append]
  rcases List.mem_append.1 hd with hd | hd
  · obtain ⟨setting, hd⟩ := h d hd
    exact ⟨setting, .inl hd⟩
  · obtain ⟨setting, hd⟩ := h' d hd
    exact ⟨setting, .inr hd⟩

theorem Log.attributed_of_other {notes : Log} (h : ∀ d ∈ notes, d.code ≠ .conflictingHostSetting) :
    notes.Attributed := by
  intro d hd
  rw [about_of_other h] at hd
  cases hd

theorem Log.attributed_nil : Attributed [] :=
  attributed_of_other (List.forall_mem_nil _)

theorem Diagnostic.IsArgumentWarning.not_conflicting {d : Diagnostic} (h : d.IsArgumentWarning) :
    d.code ≠ .conflictingHostSetting :=
  h.code_ne ⟨nofun, nofun⟩

theorem Diagnostic.not_conflicting_of_error {d : Diagnostic} (h : d.isError = true) :
    d.code ≠ .conflictingHostSetting :=
  code_ne_of_isError h nofun

theorem Diagnostic.IsMethodNote.not_conflicting {d : Diagnostic} (h : d.IsMethodNote) :
    d.code ≠ .conflictingHostSetting := by
  rcases h with h | h | h
  · exact h.not_conflicting
  · intro hd
    cases h.symm.trans hd
  · exact not_conflicting_of_error h

namespace Scope

/-- The warning of a service whose value for a setting is not the one that is kept. -/
def conflict (c : Scope) (service : Marker) (setting : QueueSetting) (kept : Int) : Diagnostic :=
  c.diagnostic (anchor service setting.field) (.conflictingHostSetting setting.field kept)

/-- The host settings stay, and no warning about one of them is added. -/
def KeepsHost (p q : Progress) : Prop :=
  q.host = p.host ∧
    q.log.about .conflictingHostSetting = p.log.about .conflictingHostSetting

/-- The services that supply a value for a setting, in order, each with its value. -/
inductive Supplying (c : Scope) (setting : QueueSetting) :
    List ServiceDeclaration → List (ServiceDeclaration × Nat) → Prop
  | nil : Supplying c setting [] []
  | value (h : c.Supplies s setting n) (hs : Supplying c setting ss vs) :
      Supplying c setting (s :: ss) ((s, n) :: vs)
  | nothing (h : ¬∃ n, c.Supplies s setting n) (hs : Supplying c setting ss vs) :
      Supplying c setting (s :: ss) vs

/-- The warnings about the values after the first one: one for each that differs from it. -/
def conflicts (c : Scope) (setting : QueueSetting) : List (ServiceDeclaration × Nat) → Log
  | [] => []
  | (_, first) :: later =>
    (later.filter fun v => v.2 ≠ first).map fun v => c.conflict v.1.service setting first

/-- After some services, a setting has the first value that one of them supplies, and the log has a
warning for each later one that differs. -/
def KeepsFirst (c : Scope) (setting : QueueSetting) (services : List ServiceDeclaration)
    (p : Progress) : Prop :=
  ∃ values, c.Supplying setting services values ∧ (∀ v ∈ values, 1 ≤ v.2) ∧
    setting.get p.host = values.head?.map (fun v => (v.2 : Int)) ∧
    p.log.conflicts setting = c.conflicts setting values

open Analysis

variable {c : Scope} {a : Marker} {s : ServiceDeclaration} {setting : QueueSetting} {p q : Progress}

theorem conflicts_conflict (c : Scope) (a : Marker) (setting other : QueueSetting) (kept : Int) :
    Log.conflicts [c.conflict a setting kept] other =
      if other = setting then [c.conflict a setting kept] else [] := by
  have hmessage : (c.conflict a setting kept).message = _ :=
    Finding.message_conflictingHostSetting setting.field kept
  have habout : Log.about [c.conflict a setting kept] .conflictingHostSetting =
      [c.conflict a setting kept] := rfl
  rw [Log.conflicts, habout, List.filter_singleton, hmessage]
  cases setting with
  | batchSize =>
    cases other with
    | batchSize => simp [QueueSetting.field]
    | maxDequeueCount => simp [QueueSetting.field]
  | maxDequeueCount =>
    cases other with
    | batchSize => simp [QueueSetting.field]
    | maxDequeueCount => simp [QueueSetting.field]

theorem Supplies.pos (h : c.Supplies s setting n) : 1 ≤ n := by
  obtain ⟨value, -, hp, rfl⟩ := h.value
  have hne := ((isPositiveNumeral_iff value).1 hp).2
  omega

theorem Supplying.append (h : c.Supplying setting ss vs) (h' : c.Supplying setting ss' vs') :
    c.Supplying setting (ss ++ ss') (vs ++ vs') := by
  induction h with
  | nil => exact h'
  | value h _ ih => exact .value h ih
  | nothing h _ ih => exact .nothing h ih

theorem Offers.supplying (h : c.Offers s setting given) :
    c.Supplying setting [s] (given.toList.map fun n => (s, n)) := by
  cases given with
  | none =>
    apply Supplying.nothing _ .nil
    intro hn
    obtain ⟨n, hn⟩ := hn
    cases (h n).2 hn
  | some n => exact .value ((h n).1 rfl) .nil

/-- The warning that a value causes, given what is kept for its setting. -/
def conflictOver (c : Scope) (a : Marker) (setting : QueueSetting) :
    Option Int → Option Nat → Log
  | some kept, some n => if kept = n then [] else [c.conflict a setting kept]
  | _, _ => []

theorem log_supplied (c : Scope) (a : Marker) (setting : QueueSetting) (p : Progress)
    (given : Option Nat) : (c.supplied a setting p given).log =
      p.log ++ c.conflictOver a setting (setting.get p.host) given := by
  unfold supplied conflictOver
  split
  next => simp
  next =>
    split
    next h => simp [h]
    next kept h =>
      rw [h]
      dsimp only
      split
      next => exact (List.append_nil _).symm
      next => rfl

theorem get_set (setting : QueueSetting) (value : Int) (host : HostSettings) :
    setting.get (setting.set value host) = some value := by
  cases setting with
  | batchSize => rfl
  | maxDequeueCount => rfl

theorem get_set_other (h : other ≠ setting) (value : Int) (host : HostSettings) :
    QueueSetting.get other (setting.set value host) = other.get host := by
  cases setting with
  | batchSize =>
    cases other with
    | batchSize => exact absurd rfl h
    | maxDequeueCount => rfl
  | maxDequeueCount =>
    cases other with
    | batchSize => rfl
    | maxDequeueCount => exact absurd rfl h

theorem get_supplied (c : Scope) (a : Marker) (setting : QueueSetting) (p : Progress)
    (given : Option Nat) : setting.get (c.supplied a setting p given).host =
      (setting.get p.host).or (given.map fun n : Nat => (n : Int)) := by
  cases given with
  | none => exact (Option.or_none).symm
  | some n =>
    cases h : setting.get p.host with
    | none =>
      rw [host_supplied_of_none h, get_set]
      rfl
    | some kept => rw [host_supplied_of_some h, h, Option.some_or]

theorem get_supplied_other (c : Scope) (a : Marker) (h : other ≠ setting) (p : Progress)
    (given : Option Nat) :
    QueueSetting.get other (c.supplied a setting p given).host = other.get p.host := by
  cases hkept : setting.get p.host with
  | none =>
    cases given with
    | none => rfl
    | some n => rw [host_supplied_of_none hkept, get_set_other h]
  | some kept => rw [host_supplied_of_some hkept]

theorem conflicts_supplied (c : Scope) (a : Marker) (setting : QueueSetting) (p : Progress)
    (given : Option Nat) : (c.supplied a setting p given).log.conflicts setting =
      p.log.conflicts setting ++ c.conflictOver a setting (setting.get p.host) given := by
  rw [log_supplied, Log.conflicts_append]
  unfold conflictOver
  split
  next =>
    split
    next => rfl
    next => rw [conflicts_conflict, if_pos rfl]
  next => rfl

theorem conflicts_supplied_other (c : Scope) (a : Marker) (h : other ≠ setting) (p : Progress)
    (given : Option Nat) :
    (c.supplied a setting p given).log.conflicts other = p.log.conflicts other := by
  rw [log_supplied, Log.conflicts_append]
  unfold conflictOver
  split
  next =>
    split
    next => exact List.append_nil _
    next => rw [conflicts_conflict, if_neg h, List.append_nil]
  next => exact List.append_nil _

/-- Each setting goes by what is given for it, and not by what is given for the other one. -/
theorem get_suppliedAll (c : Scope) (a : Marker) (p : Progress) (given : QueueSetting → Option Nat)
    (setting : QueueSetting) : setting.get (c.suppliedAll a p given).host =
      (setting.get p.host).or ((given setting).map fun n : Nat => (n : Int)) := by
  have hne : QueueSetting.batchSize ≠ .maxDequeueCount := nofun
  cases setting with
  | batchSize => rw [suppliedAll, get_supplied_other c a hne, get_supplied]
  | maxDequeueCount => rw [suppliedAll, get_supplied, get_supplied_other c a hne.symm]

theorem conflicts_suppliedAll (c : Scope) (a : Marker) (p : Progress)
    (given : QueueSetting → Option Nat) (setting : QueueSetting) :
    (c.suppliedAll a p given).log.conflicts setting = p.log.conflicts setting ++
      c.conflictOver a setting (setting.get p.host) (given setting) := by
  have hne : QueueSetting.batchSize ≠ .maxDequeueCount := nofun
  cases setting with
  | batchSize => rw [suppliedAll, conflicts_supplied_other c a hne, conflicts_supplied]
  | maxDequeueCount =>
    rw [suppliedAll, conflicts_supplied, conflicts_supplied_other c a hne.symm,
      get_supplied_other c a hne.symm]

theorem attributed_conflictOver (c : Scope) (a : Marker) (setting : QueueSetting)
    (kept : Option Int) (given : Option Nat) :
    (c.conflictOver a setting kept given).Attributed := by
  unfold conflictOver
  split
  next kept n =>
    split
    next => exact Log.attributed_nil
    next =>
      intro d hd
      refine ⟨setting, ?_⟩
      rw [conflicts_conflict, if_pos rfl]
      exact (List.mem_filter.1 hd).1
  next => exact Log.attributed_nil

theorem attributed_suppliedAll (h : p.log.Attributed) (a : Marker)
    (given : QueueSetting → Option Nat) : (c.suppliedAll a p given).log.Attributed := by
  rw [suppliedAll, log_supplied, log_supplied]
  apply Log.Attributed.append
  · exact h.append (attributed_conflictOver c a _ _ _)
  · exact attributed_conflictOver c a _ _ _

theorem code_of_mem_conflictOver (h : d ∈ c.conflictOver a setting kept given) :
    d.code = .conflictingHostSetting := by
  unfold conflictOver at h
  split at h
  next =>
    split at h
    next => cases h
    next =>
      cases List.mem_singleton.1 h
      rfl
  next => cases h

/-- The marker of a service causes warnings about its arguments and about host settings only. -/
theorem log_of_service (h : (c.service s).Ends p r q) (hr : ¬IsFault r) :
    ∃ notes, q.log = p.log ++ notes ∧
      ∀ d ∈ notes, d.IsArgumentWarning ∨ d.code = .conflictingHostSetting := by
  obtain ⟨notes, given, hnotes, -, rfl⟩ := service_supplied h hr
  rw [suppliedAll, log_supplied, log_supplied, List.append_assoc, List.append_assoc]
  refine ⟨_, rfl, ?_⟩
  intro d hd
  rcases List.mem_append.1 hd with hd | hd
  · exact .inl (hnotes d hd)
  · rcases List.mem_append.1 hd with hd | hd
    · exact .inr (code_of_mem_conflictOver hd)
    · exact .inr (code_of_mem_conflictOver hd)

/-- What a service does to the host settings and to the warnings about them is told by what it
offers for each setting, whether it is accepted or rejected. -/
theorem host_of_attempt (h : (attempt (c.analyzeService s)).Ends p (.ok emitted?) q) :
    ∃ given, (∀ setting, c.Offers s setting (given setting)) ∧
      ∃ notes, (∀ d ∈ notes, d.code ≠ .conflictingHostSetting) ∧
      ∃ more, (∀ d ∈ more, d.code ≠ .conflictingHostSetting) ∧
        q.host = (c.suppliedAll s.service { p with log := p.log ++ notes } given).host ∧
        q.log = (c.suppliedAll s.service { p with log := p.log ++ notes } given).log ++ more := by
  rcases attempt_ok h with ⟨functions, -, hx⟩ | ⟨e, m, -, hx, rfl⟩
  · obtain ⟨service, r, results, r', hs, hm, -, rfl⟩ := analyzeService_ok.1 hx
    obtain ⟨notes, given, hnotes, hgiven, rfl⟩ := service_supplied hs not_isFault_ok
    have hmethods := notes_analyzeMethods c service s.definition (c.methodSymbols s.definition)
    have hhost := hmethods.host hm
    obtain ⟨more, hlog, hmore⟩ := hmethods.log _ _ _ hm
    refine ⟨given, hgiven, notes, fun d hd => (hnotes d hd).not_conflicting,
      more ++ c.serviceNotes s.definition results, ?_, hhost, ?_⟩
    · intro d hd
      rcases List.mem_append.1 hd with hd | hd
      · exact (hmore d hd).not_conflicting
      · rw [code_of_mem_serviceNotes hd]
        exact nofun
    · rw [← List.append_assoc, ← hlog]
  · have hs := analyzeService_rejected.1 hx
    have he := ((steady_service c s).halt hs).1
    obtain ⟨notes, given, hnotes, hgiven, rfl⟩ := service_supplied hs (not_isFault_rejected e)
    refine ⟨given, hgiven, notes, fun d hd => (hnotes d hd).not_conflicting, [e], ?_, rfl, rfl⟩
    exact List.forall_mem_singleton.2 (Diagnostic.not_conflicting_of_error he)

theorem get_of_attempt (h : (attempt (c.analyzeService s)).Ends p (.ok emitted?) q) :
    ∃ given : QueueSetting → Option Nat, ∀ setting, c.Offers s setting (given setting) ∧
      setting.get q.host = (setting.get p.host).or ((given setting).map fun n : Nat => (n : Int)) ∧
      q.log.conflicts setting = p.log.conflicts setting ++
        c.conflictOver s.service setting (setting.get p.host) (given setting) := by
  obtain ⟨given, hgiven, notes, hnotes, more, hmore, hhost, hlog⟩ := host_of_attempt h
  refine ⟨given, fun setting => ⟨hgiven setting, ?_, ?_⟩⟩
  · rw [hhost, get_suppliedAll]
  · rw [hlog, Log.conflicts_append, Log.conflicts_of_other hmore, List.append_nil,
      conflicts_suppliedAll, Log.conflicts_append, Log.conflicts_of_other hnotes, List.append_nil]

theorem attributed_of_attempt (hp : p.log.Attributed)
    (h : (attempt (c.analyzeService s)).Ends p (.ok emitted?) q) : q.log.Attributed := by
  obtain ⟨given, -, notes, hnotes, more, hmore, -, hlog⟩ := host_of_attempt h
  rw [hlog]
  have hnotes := hp.append (Log.attributed_of_other hnotes)
  exact (attributed_suppliedAll hnotes _ _).append (Log.attributed_of_other hmore)

theorem conflicts_append (c : Scope) (setting : QueueSetting) (first : ServiceDeclaration × Nat)
    (values : List (ServiceDeclaration × Nat)) (s : ServiceDeclaration) (given : Option Nat) :
    c.conflicts setting (first :: values ++ given.toList.map fun n => (s, n)) =
      c.conflicts setting (first :: values) ++
        c.conflictOver s.service setting (some (first.2 : Int)) given := by
  cases given with
  | none =>
    rw [Option.toList_none, List.map_nil, List.append_nil]
    exact (List.append_nil _).symm
  | some n =>
    rw [List.cons_append, conflicts, conflicts, List.filter_append, List.map_append]
    by_cases hn : n = first.2
    · simp [conflictOver, hn]
    · have hne : (first.2 : Int) ≠ n := fun h => hn (Int.ofNat_inj.1 h).symm
      simp [conflictOver, hn, hne]

/-- A service after some others keeps the first value, or supplies it. -/
theorem KeepsFirst.step {services : List ServiceDeclaration}
    (hp : c.KeepsFirst setting services p) (hgiven : c.Offers s setting given)
    (hget : setting.get q.host = (setting.get p.host).or (given.map fun n : Nat => (n : Int)))
    (hlog : q.log.conflicts setting = p.log.conflicts setting ++
      c.conflictOver s.service setting (setting.get p.host) given) :
    c.KeepsFirst setting (services ++ [s]) q := by
  obtain ⟨values, hvalues, hpos, hkept, hconflicts⟩ := hp
  refine ⟨values ++ given.toList.map fun n => (s, n), hvalues.append hgiven.supplying, ?_, ?_, ?_⟩
  · intro v hv
    rcases List.mem_append.1 hv with hv | hv
    · exact hpos v hv
    · obtain ⟨n, hn, rfl⟩ := List.mem_map.1 hv
      exact ((hgiven n).1 (Option.mem_toList.1 hn)).pos
  · rw [hget, hkept]
    cases values with
    | nil => cases given <;> rfl
    | cons first values => rfl
  · rw [hlog, hkept, hconflicts]
    cases values with
    | nil => cases given <;> rfl
    | cons first values => exact (conflicts_append ..).symm

/-- After the services of some statements, every setting has the first value that one of them
supplies. -/
theorem keepsFirst_statements {statements : List Node} {services : List ServiceDeclaration}
    (hp : ∀ setting, c.KeepsFirst setting services p) (hlog : p.log.Attributed)
    (h : (c.analyzeStatements statements).Ends p (.ok functions) q) :
    q.log.Attributed ∧ ∃ more,
      statements.filterMapM c.document.serviceDeclaration? = .ok more ∧
      ∀ setting, c.KeepsFirst setting (services ++ more) q := by
  induction statements generalizing services p functions with
  | nil =>
    obtain ⟨-, rfl⟩ := analyzeStatements_nil.1 h
    refine ⟨hlog, [], rfl, ?_⟩
    rw [List.append_nil]
    exact hp
  | cons statement rest ih =>
    rcases analyzeStatements_cons.1 h with ⟨ho, h⟩ | ⟨s, emitted?, r, _, ho, hs, h, -⟩
    · obtain ⟨hlog, more, hmore, hq⟩ := ih hp hlog h
      exact ⟨hlog, more, filterMapM_cons_eq_ok.2 ⟨none, more, ho, hmore, rfl⟩, hq⟩
    · obtain ⟨given, hgiven⟩ := get_of_attempt hs
      have hr : ∀ setting, c.KeepsFirst setting (services ++ [s]) r := by
        intro setting
        obtain ⟨hoffers, hget, hconflicts⟩ := hgiven setting
        exact (hp setting).step hoffers hget hconflicts
      obtain ⟨hlog, more, hmore, hq⟩ := ih hr (attributed_of_attempt hlog hs) h
      refine ⟨hlog, s :: more, filterMapM_cons_eq_ok.2 ⟨some s, more, ho, hmore, rfl⟩, ?_⟩
      rw [List.append_assoc] at hq
      exact hq

theorem keepsFirst_start (c : Scope) (setting : QueueSetting) :
    c.KeepsFirst setting [] (c.start []) := by
  refine ⟨[], .nil, List.forall_mem_nil _, ?_, rfl⟩
  cases setting with
  | batchSize => rfl
  | maxDequeueCount => rfl

/-- A run over statements passes through the end of each part of them. -/
theorem analyzeStatements_append {done rest : List Node}
    (h : (c.analyzeStatements (done ++ rest)).Ends p (.ok functions) q) :
    ∃ first m more, (c.analyzeStatements done).Ends p (.ok first) m ∧
      (c.analyzeStatements rest).Ends m (.ok more) q ∧ functions = first ++ more := by
  induction done generalizing p functions with
  | nil => exact ⟨[], p, functions, analyzeStatements_nil.2 ⟨rfl, rfl⟩, h, rfl⟩
  | cons statement done ih =>
    rcases analyzeStatements_cons.1 h with ⟨ho, hrest⟩ | ⟨s, emitted?, r, _, ho, hs, hrest, rfl⟩
    · obtain ⟨first, m, more, hfirst, hmore, rfl⟩ := ih hrest
      exact ⟨first, m, more, analyzeStatements_cons.2 (.inl ⟨ho, hfirst⟩), hmore, rfl⟩
    · obtain ⟨first, m, more, hfirst, hmore, rfl⟩ := ih hrest
      have hdone := analyzeStatements_cons.2 (.inr ⟨s, emitted?, r, first, ho, hs, hfirst, rfl⟩)
      exact ⟨_, m, more, hdone, hmore, (List.append_assoc ..).symm⟩

/-- A service that is no queue touches neither the host settings nor the warnings about them. -/
theorem notes_analyzeService (hk : s.kind ≠ .queue) :
    (c.analyzeService s).Notes fun d => d.code ≠ .conflictingHostSetting := by
  have hservice : (c.service s).Notes fun d => d.code ≠ .conflictingHostSetting := by
    apply (notes_lift _).bind
    intro _
    apply (notes_lift _).bind
    intro _
    apply (notes_noteAll fun d hd => (argumentWarning_of_mem hd).not_conflicting).bind
    intro _
    exact (reading_serviceSettings c hk _).notes.bind fun _ => notes_pure _
  apply hservice.bind
  intro service
  have hmethods := notes_analyzeMethods c service s.definition (c.methodSymbols s.definition)
  apply (hmethods.mono fun d hd => hd.not_conflicting).bind
  intro results
  apply Notes.bind _ fun _ => notes_pure _
  apply notes_noteAll
  intro d hd
  rw [code_of_mem_serviceNotes hd]
  exact nofun

theorem keepsHost_of_notes {x : Analysis α} (hx : x.Notes N)
    (hN : ∀ d, N d → d.code ≠ .conflictingHostSetting) (h : x.Ends p r q) : KeepsHost p q := by
  obtain ⟨notes, hlog, hnotes⟩ := hx.log _ _ _ h
  refine ⟨hx.host h, ?_⟩
  rw [hlog, Log.about_append_other fun d hd => hN d (hnotes d hd)]

/-- Supplying a value for one setting does nothing to the other one. -/
theorem supply_other (hne : other ≠ setting) (h : (c.supply a setting).Ends p r q) :
    QueueSetting.get other q.host = other.get p.host ∧
      q.log.conflicts other = p.log.conflicts other := by
  cases hg : c.positive? a setting.field with
  | ok given =>
    obtain ⟨-, rfl⟩ := (supply_of_ok hg).1 h
    exact ⟨get_supplied_other c a hne p given, conflicts_supplied_other c a hne p given⟩
  | error e =>
    obtain ⟨-, rfl⟩ := (supply_of_error hg).1 h
    exact ⟨rfl, rfl⟩

end Scope

/-- In a run that returns an app, at the end of every part of the module each host setting has the
first value that the queue services so far supply for it, or none where they supply none, and every
later value that differs has one warning. Nothing else touches a host setting: not the services of
another kind, nor the methods of a service, nor a value for the other setting. -/
theorem Document.host_settings {d : Document} (h : d.analyze settings = ⟨log, .ok app⟩) :
    ∃ symbols, SymbolTable.ofDocument d = .ok symbols ∧
      (∀ done rest, d.root.children = done ++ rest → ∃ functions p services,
        (Scope.analyzeStatements ⟨d, settings, symbols⟩ done).Ends
          (Scope.start ⟨d, settings, symbols⟩ []) (.ok functions) p ∧
        done.filterMapM d.serviceDeclaration? = .ok services ∧
        (rest = [] → p.host = app.host ∧ p.log = log) ∧ p.log.Attributed ∧
        ∀ setting, Scope.KeepsFirst ⟨d, settings, symbols⟩ setting services p) ∧
      (∀ s p r q, s.kind ≠ .queue →
        (Scope.analyzeService ⟨d, settings, symbols⟩ s).Ends p r q → Scope.KeepsHost p q) ∧
      (∀ service definition members p r q,
        (Scope.analyzeMethods ⟨d, settings, symbols⟩ service definition members).Ends p r q →
          Scope.KeepsHost p q) ∧
      ∀ a setting other p r q, other ≠ setting →
        (Scope.supply ⟨d, settings, symbols⟩ a setting).Ends p r q →
          QueueSetting.get other q.host = other.get p.host ∧
            q.log.conflicts other = p.log.conflicts other := by
  obtain ⟨symbols, functions, q, ht, hrun, rfl, rfl⟩ := analyzeInto_ok.1 h
  refine ⟨symbols, ht, ?_, ?_, ?_, ?_⟩
  · intro done rest hsplit
    rw [hsplit] at hrun
    obtain ⟨first, p, more, hdone, hrest, -⟩ := Scope.analyzeStatements_append hrun
    have hstart := Scope.keepsFirst_start ⟨d, settings, symbols⟩
    obtain ⟨hlog, services, hservices, hkeeps⟩ :=
      Scope.keepsFirst_statements hstart Log.attributed_nil hdone
    refine ⟨first, p, services, hdone, hservices, ?_, hlog, hkeeps⟩
    rintro rfl
    obtain ⟨-, rfl⟩ := Scope.analyzeStatements_nil.1 hrest
    exact ⟨rfl, rfl⟩
  · intro s p r q hk hs
    exact Scope.keepsHost_of_notes (Scope.notes_analyzeService hk) (fun _ => id) hs
  · intro service definition members p r q hm
    have hmethods := Scope.notes_analyzeMethods ⟨d, settings, symbols⟩ service definition members
    exact Scope.keepsHost_of_notes hmethods (fun d hd => hd.not_conflicting) hm
  · intro a setting other p r q hne hs
    exact Scope.supply_other hne hs

/-- Two queue services; the first one is rejected over its second number. -/
def Document.twoQueues : Document where
  path := "queues.py"
  source := ("@queue_service(queue_name='', connection='', batch_size=08, max_dequeue_count=0)\n" ++
    "class A: 0\n@queue_service(queue_name='', connection='', batch_size=3)\nclass B: 0\n").toUTF8
  tree :=
    .node "module" 0 162 "" [
      .node "decorated_definition" 0 91 "" [
        .node "decorator" 0 80 "" [
          .node "@" 0 1 "" [],
          .node "call" 1 80 "" [
            .node "identifier" 1 14 "function" [],
            .node "argument_list" 14 80 "arguments" [
              .node "(" 14 15 "" [],
              .node "keyword_argument" 15 28 "" [
                .node "identifier" 15 25 "name" [],
                .node "=" 25 26 "" [],
                .node "string" 26 28 "value" []],
              .node "," 28 29 "" [],
              .node "keyword_argument" 30 43 "" [
                .node "identifier" 30 40 "name" [],
                .node "=" 40 41 "" [],
                .node "string" 41 43 "value" []],
              .node "," 43 44 "" [],
              .node "keyword_argument" 45 58 "" [
                .node "identifier" 45 55 "name" [],
                .node "=" 55 56 "" [],
                .node "integer" 56 58 "value" []],
              .node "," 58 59 "" [],
              .node "keyword_argument" 60 79 "" [
                .node "identifier" 60 77 "name" [],
                .node "=" 77 78 "" [],
                .node "integer" 78 79 "value" []],
              .node ")" 79 80 "" []]]],
        .node "class_definition" 81 91 "definition" [
          .node "class" 81 86 "" [],
          .node "identifier" 87 88 "name" [],
          .node ":" 88 89 "" [],
          .node "block" 90 91 "body" [
            .node "expression_statement" 90 91 "" [
              .node "integer" 90 91 "" []]]]],
      .node "decorated_definition" 92 161 "" [
        .node "decorator" 92 150 "" [
          .node "@" 92 93 "" [],
          .node "call" 93 150 "" [
            .node "identifier" 93 106 "function" [],
            .node "argument_list" 106 150 "arguments" [
              .node "(" 106 107 "" [],
              .node "keyword_argument" 107 120 "" [
                .node "identifier" 107 117 "name" [],
                .node "=" 117 118 "" [],
                .node "string" 118 120 "value" []],
              .node "," 120 121 "" [],
              .node "keyword_argument" 122 135 "" [
                .node "identifier" 122 132 "name" [],
                .node "=" 132 133 "" [],
                .node "string" 133 135 "value" []],
              .node "," 135 136 "" [],
              .node "keyword_argument" 137 149 "" [
                .node "identifier" 137 147 "name" [],
                .node "=" 147 148 "" [],
                .node "integer" 148 149 "value" []],
              .node ")" 149 150 "" []]]],
        .node "class_definition" 151 161 "definition" [
          .node "class" 151 156 "" [],
          .node "identifier" 157 158 "name" [],
          .node ":" 158 159 "" [],
          .node "block" 160 161 "body" [
            .node "expression_statement" 160 161 "" [
              .node "integer" 160 161 "" []]]]]]

/-- The batch size of the rejected service stays, and the other one is warned about. -/
theorem Document.analyze_twoQueues : ∃ log app, twoQueues.analyze {} = ⟨log, .ok app⟩ ∧
    log.map Diagnostic.code = [.invalidFieldValue, .conflictingHostSetting, .noTriggerFunctions] ∧
    app.host.queueBatchSize = some 8 := by
  let observe (log : Log) (app : FunctionApp) :=
    (log.map Diagnostic.code, app.host.queueBatchSize)
  have h : (twoQueues.analyze {}).result.toOption.map (observe (twoQueues.analyze {}).log) =
      some ([.invalidFieldValue, .conflictingHostSetting, .noTriggerFunctions], some 8) := by
    decide +kernel
  obtain ⟨log, app, hrun, hseen⟩ := Outcome.ok_of_observed h
  obtain ⟨hlog, hhost⟩ := Prod.mk.inj hseen
  exact ⟨log, app, hrun, hlog, hhost⟩

/-- Of the two services, the first one supplies the batch size of the host. -/
theorem Document.host_settings_twoQueues : ∃ log app symbols p services,
    twoQueues.analyze {} = ⟨log, .ok app⟩ ∧ app.host.queueBatchSize = some 8 ∧
      log.map Diagnostic.code =
        [.invalidFieldValue, .conflictingHostSetting, .noTriggerFunctions] ∧
      twoQueues.serviceDeclarations twoQueues.root = .ok services ∧ p.host = app.host ∧
      p.log = log ∧ Scope.KeepsFirst ⟨twoQueues, {}, symbols⟩ .batchSize services p := by
  obtain ⟨log, app, h, hlog, hhost⟩ := analyze_twoQueues
  obtain ⟨symbols, -, hsplits, -⟩ := host_settings h
  obtain ⟨_, p, services, -, hservices, hend, -, hkeeps⟩ :=
    hsplits twoQueues.root.children [] (List.append_nil _).symm
  obtain ⟨hp, hl⟩ := hend rfl
  exact ⟨log, app, symbols, p, services, h, hhost, hlog, hservices, hp, hl, hkeeps .batchSize⟩

end AppManifest
