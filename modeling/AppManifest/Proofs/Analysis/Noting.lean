import AppManifest.Proofs.Analysis.Accounting
import AppManifest.Proofs.Analysis.Supply

namespace AppManifest
set_option autoImplicit true

/-! What the steps of the analysis note, and what they do to the host settings. -/

def Log.about (log : Log) (code : Code) : Log :=
  log.filter fun d => d.code = code

/-- A warning about an argument of a marker. -/
def Diagnostic.IsArgumentWarning (d : Diagnostic) : Prop :=
  d.code = .unknownField ∨ d.code = .positionalArgument

/-- What is noted about a method: a warning, an error, or that it accepts every method. -/
def Diagnostic.IsMethodNote (d : Diagnostic) : Prop :=
  d.IsArgumentWarning ∨ d.code = .acceptsAllMethods ∨ d.isError = true

theorem Diagnostic.IsArgumentWarning.code_ne {d : Diagnostic} {code : Code}
    (h : d.IsArgumentWarning) (hcode : code ≠ .unknownField ∧ code ≠ .positionalArgument) :
    d.code ≠ code := by
  intro hd
  rcases h with h | h
  · exact hcode.1 (hd.symm.trans h)
  · exact hcode.2 (hd.symm.trans h)

theorem Diagnostic.code_ne_of_isError {d : Diagnostic} {code : Code} (h : d.isError = true)
    (hcode : code.severity ≠ .error) : d.code ≠ code := by
  rintro rfl
  exact hcode (of_decide_eq_true h)

namespace Log

variable {P : Diagnostic → Prop} [DecidablePred P] {notes : Log}

theorem filter_of_all (h : ∀ d ∈ notes, P d) : notes.filter (fun d => P d) = notes :=
  List.filter_eq_self.2 fun d hd => decide_eq_true (h d hd)

theorem filter_of_none (h : ∀ d ∈ notes, ¬P d) : notes.filter (fun d => P d) = [] :=
  List.filter_eq_nil_iff.2 fun d hd => by simpa using h d hd

theorem about_append (log more : Log) (code : Code) :
    about (log ++ more) code = about log code ++ about more code :=
  List.filter_append ..

theorem about_of_other (h : ∀ d ∈ notes, d.code ≠ code) : about notes code = [] :=
  filter_of_none h

theorem about_of_all (h : ∀ d ∈ notes, d.code = code) : about notes code = notes :=
  filter_of_all h

theorem about_append_other (h : ∀ d ∈ notes, d.code ≠ code) (log : Log) :
    about (log ++ notes) code = about log code := by
  rw [about_append, about_of_other h, List.append_nil]

end Log

/-- A step ends in a fault, and with it the whole run. -/
def IsFault (r : Except Halt α) : Prop :=
  ∃ f, r = .error (.fault f)

theorem IsFault.of_error {e : Halt} (h : IsFault (.error e : Except Halt α)) :
    IsFault (.error e : Except Halt β) := by
  obtain ⟨f, hf⟩ := h
  cases hf
  exact ⟨f, rfl⟩

theorem not_isFault_ok {a : α} : ¬IsFault (.ok a) := by
  intro h
  obtain ⟨f, hf⟩ := h
  cases hf

theorem not_isFault_rejected (d : Diagnostic) :
    ¬IsFault (.error (.rejected d) : Except Halt α) := by
  intro h
  obtain ⟨f, hf⟩ := h
  cases hf

namespace Analysis

/-- A step that leaves the host settings as they are and notes diagnostics of one kind only. -/
structure Notes (N : Diagnostic → Prop) (x : Analysis α) : Prop where
  host : ∀ {p r q}, x.Ends p r q → q.host = p.host
  log : x.Adds N

theorem IsReading.notes {x : Analysis α} (h : x.IsReading) : x.Notes N where
  host hx := congrArg Progress.host (h _ _ _ hx)
  log p r q hx := by
    obtain rfl := h _ _ _ hx
    exact ⟨[], (List.append_nil _).symm, List.forall_mem_nil _⟩

theorem notes_lift (x : Except Halt α) : (liftM x : Analysis α).Notes N :=
  (reading_lift x).notes

theorem notes_pure (a : α) : (pure a : Analysis α).Notes N :=
  (reading_pure a).notes

theorem notes_noteAll {ds : List Diagnostic} (hds : ∀ d ∈ ds, N d) : (noteAll ds).Notes N where
  host h := by
    obtain ⟨-, rfl⟩ := ends_noteAll.1 h
    rfl
  log p r q h := by
    obtain ⟨-, rfl⟩ := ends_noteAll.1 h
    exact ⟨ds, rfl, hds⟩

theorem Notes.bind {x : Analysis α} {f : α → Analysis β} (hx : x.Notes N)
    (hf : ∀ a, (f a).Notes N) : (x >>= f).Notes N where
  host {p r q} h := by
    obtain ⟨r', m, hm⟩ := x.exists_ends p
    have hhost := hx.host hm
    cases r' with
    | ok a =>
      have hrest := (hf a).host ((ends_bind_of_ok hm).1 h)
      exact hrest.trans hhost
    | error e =>
      obtain ⟨-, rfl⟩ := (ends_bind_of_error hm).1 h
      exact hhost
  log := hx.log.bind fun a _ _ _ => (hf a).log

/-- Where a rejection is caught, it is noted too. -/
theorem Notes.attempt {x : Analysis α} (hx : x.Notes N)
    (hr : ∀ {p e q}, x.Ends p (.error (.rejected e)) q → N e) : (attempt x).Notes N where
  host h := by
    rcases attempt_cases h with ⟨a, -, hy⟩ | ⟨e, m, -, hy, rfl⟩ | ⟨f, -, hy⟩
    · exact hx.host hy
    · have hhost := hx.host hy
      exact hhost
    · exact hx.host hy
  log p r q h := by
    rcases attempt_cases h with ⟨a, -, hy⟩ | ⟨e, m, -, hy, rfl⟩ | ⟨f, -, hy⟩
    · exact hx.log _ _ _ hy
    · obtain ⟨notes, hlog, hnotes⟩ := hx.log _ _ _ hy
      refine ⟨notes ++ [e], ?_, ?_⟩
      · rw [← List.append_assoc, ← hlog]
        rfl
      · exact List.forall_mem_append.2 ⟨hnotes, List.forall_mem_singleton.2 (hr hy)⟩
    · exact hx.log _ _ _ hy

theorem Notes.mono {x : Analysis α} (hx : x.Notes N) (h : ∀ d, N d → N' d) : x.Notes N' where
  host := hx.host
  log p r q hq := by
    obtain ⟨notes, hlog, hnotes⟩ := hx.log p r q hq
    exact ⟨notes, hlog, fun d hd => h d (hnotes d hd)⟩

end Analysis

namespace Scope

open Analysis

variable {c : Scope} {service : Service} {m : TriggerMethod} {p q : Progress}

theorem argumentWarning_of_mem (h : d ∈ c.argumentWarnings a) : d.IsArgumentWarning := by
  rcases List.mem_append.1 h with h | h
  · obtain ⟨f, -, rfl⟩ := List.mem_map.1 h
    exact .inl rfl
  · obtain ⟨n, -, rfl⟩ := List.mem_map.1 h
    exact .inr rfl

theorem notes_outputBindings (c : Scope) (m : TriggerMethod) :
    (c.outputBindings m).Notes Diagnostic.IsArgumentWarning := by
  rw [outputBindings]
  split
  next => exact notes_pure _
  next kind output more _ =>
    apply (notes_lift _).bind
    intro _
    apply (notes_noteAll fun d => argumentWarning_of_mem).bind
    intro _
    exact (notes_lift _).bind fun _ => notes_pure _

/-- Up to its name a method only causes warnings about the arguments of its markers. -/
theorem notes_propose (c : Scope) (service : Service) (m : TriggerMethod) :
    (c.propose service m).Notes Diagnostic.IsArgumentWarning := by
  apply (notes_lift _).bind
  intro _
  split
  next =>
    apply (notes_noteAll fun d => argumentWarning_of_mem).bind
    intro _
    apply (notes_lift _).bind
    intro _
    apply (notes_lift _).bind
    intro _
    exact (notes_outputBindings c m).bind fun _ => notes_pure _
  next => exact notes_lift _

/-- What stays of a method that becomes a function: its warnings, its name, and a note where it
accepts every method. -/
theorem progress_of_analyzeFunction (h : (c.analyzeFunction service m).Ends p (.ok f) q) :
    ∃ proposal r notes, (c.propose service m).Ends p (.ok proposal) r ∧
      f.bindings = proposal.draft.bindings ++ proposal.outputs ∧
      q.host = p.host ∧ (∀ d ∈ notes, d.IsArgumentWarning) ∧
      q.log = p.log ++ notes ++ c.methodNotes service m proposal.draft f.name := by
  obtain ⟨proposal, r, name, r', hp, hn, rfl, rfl⟩ := analyzeFunction_ok.1 h
  obtain ⟨-, -, -, rfl⟩ := assignName_ok hn
  have hnotes := notes_propose c service m
  obtain ⟨notes, hlog, hwarnings⟩ := hnotes.log _ _ _ hp
  have hhost := hnotes.host hp
  refine ⟨proposal, r, notes, hp, rfl, hhost, hwarnings, ?_⟩
  exact congrArg (· ++ _) hlog

theorem progress_of_rejected_function (h : (c.analyzeFunction service m).Ends p (.error e) q) :
    q.host = p.host ∧ ∃ notes, (∀ d ∈ notes, d.IsArgumentWarning) ∧ q.log = p.log ++ notes := by
  have hnotes := notes_propose c service m
  rcases analyzeFunction_error.1 h with h | ⟨proposal, r, hp, hn⟩
  · obtain ⟨notes, hlog, hwarnings⟩ := hnotes.log _ _ _ h
    exact ⟨hnotes.host h, notes, hwarnings, hlog⟩
  · obtain ⟨rfl, -⟩ := assignName_error hn
    obtain ⟨notes, hlog, hwarnings⟩ := hnotes.log _ _ _ hp
    exact ⟨hnotes.host hp, notes, hwarnings, hlog⟩

theorem notes_methodNotes (c : Scope) (service : Service) (m : TriggerMethod) (draft : Draft)
    (name : String) : ∀ d ∈ c.methodNotes service m draft name, d.code = .acceptsAllMethods := by
  intro d hd
  unfold methodNotes at hd
  split at hd
  · cases List.mem_singleton.1 hd
    rfl
  · cases hd

theorem notes_analyzeFunction (c : Scope) (service : Service) (m : TriggerMethod) :
    (c.analyzeFunction service m).Notes Diagnostic.IsMethodNote where
  host {p r q} h := by
    cases r with
    | ok f =>
      obtain ⟨_, _, _, -, -, hhost, -⟩ := progress_of_analyzeFunction h
      exact hhost
    | error e => exact (progress_of_rejected_function h).1
  log p r q h := by
    cases r with
    | ok f =>
      obtain ⟨proposal, _, notes, -, -, -, hwarnings, hlog⟩ := progress_of_analyzeFunction h
      refine ⟨notes ++ c.methodNotes service m proposal.draft f.name, ?_, ?_⟩
      · rw [hlog, List.append_assoc]
      · intro d hd
        rcases List.mem_append.1 hd with hd | hd
        · exact .inl (hwarnings d hd)
        · exact .inr (.inl (notes_methodNotes c _ _ _ _ d hd))
    | error e =>
      obtain ⟨-, notes, hwarnings, hlog⟩ := progress_of_rejected_function h
      exact ⟨notes, hlog, fun d hd => .inl (hwarnings d hd)⟩

/-- The methods of a service leave the host settings as they are. -/
theorem notes_analyzeMethods (c : Scope) (service : Service) (definition : Node)
    (members : List Symbol) :
    (c.analyzeMethods service definition members).Notes Diagnostic.IsMethodNote := by
  induction members with
  | nil => exact notes_pure _
  | cons symbol rest ih =>
    apply (notes_lift _).bind
    intro o
    cases o with
    | none => exact ih
    | some m =>
      have hfunction := (notes_analyzeFunction c service m).attempt fun h =>
        .inr (.inr (log_of_rejected_function h).1)
      exact hfunction.bind fun _ => ih.bind fun _ => notes_pure _

theorem code_of_mem_serviceNotes (h : d ∈ c.serviceNotes definition results) :
    d.code = .noTriggerFunctions := by
  unfold serviceNotes at h
  split at h
  · cases h
  · cases List.mem_singleton.1 h
    rfl

/-- What a queue marker gives for a setting, if it gives anything. -/
def Gives (c : Scope) (a : Marker) (setting : QueueSetting) (given : Option Nat) : Prop :=
  ∀ n, given = some n ↔ c.Asks a setting ∧ c.GivesPositive a setting.field n

/-- What a declaration supplies for a setting, if it supplies anything. -/
def Offers (c : Scope) (s : ServiceDeclaration) (setting : QueueSetting) (given : Option Nat) :
    Prop :=
  ∀ n, given = some n ↔ c.Supplies s setting n

theorem gives_none (h : ¬c.Asks a setting) : c.Gives a setting none := by
  intro n
  exact iff_of_false nofun fun hn => h hn.1

theorem offers_none (h : ¬∃ n, c.Supplies s setting n) : c.Offers s setting none := by
  intro n
  exact iff_of_false nofun fun hn => h ⟨n, hn⟩

theorem Gives.offers (h : c.Gives s.service setting given) (hs : s.moreServices = [])
    (hk : s.kind = .queue) : c.Offers s setting given := by
  intro n
  rw [h n]
  constructor
  · intro hn
    exact ⟨hs, hk, hn.1, hn.2⟩
  · intro hn
    exact ⟨hn.asks, hn.value⟩

theorem Offers.unique (h : c.Offers s setting given) (h' : c.Offers s setting given') :
    given = given' := by
  apply Option.ext
  intro n
  exact (h n).trans (h' n).symm

/-- A number or nothing is read from a field of a queue marker, unless it is rejected. -/
theorem gives_of_positive? (ha : c.Asks a setting)
    (h : c.positive? a setting.field = .ok given) : c.Gives a setting given := by
  intro n
  rw [and_iff_right ha]
  cases given with
  | none =>
    refine iff_of_false nofun ?_
    rintro ⟨value, ⟨f, hf, -⟩, -⟩
    cases (positive?_eq_ok_none h).symm.trans hf
  | some k =>
    have hk := positive?_eq_ok_some h
    constructor
    · intro he
      cases he
      exact hk
    · intro hn
      rw [hk.unique hn]

theorem gives_of_rejected (h : c.positive? a setting.field = .error (.rejected e)) :
    c.Gives a setting none := by
  intro n
  refine iff_of_false nofun fun hn => ?_
  exact (decides_positive? c a setting.field).rejected h () hn.2.mayBePositive

/-- Unless the run ends there, what a queue marker gives for a setting is supplied. -/
theorem supply_given (ha : c.Asks a setting) (h : (c.supply a setting).Ends p r q)
    (hr : ¬IsFault r) : ∃ given, c.Gives a setting given ∧ q = c.supplied a setting p given := by
  cases hg : c.positive? a setting.field with
  | ok given =>
    obtain ⟨-, rfl⟩ := (supply_of_ok hg).1 h
    exact ⟨given, gives_of_positive? ha hg, rfl⟩
  | error e =>
    obtain ⟨rfl, rfl⟩ := (supply_of_error hg).1 h
    cases e with
    | fault f => exact absurd ⟨f, rfl⟩ hr
    | rejected e => exact ⟨none, gives_of_rejected hg, rfl⟩

theorem mayBePositive_of_supply (h : (c.supply a setting).Ends p (.ok ()) q) :
    c.MayBePositive a setting.field := by
  obtain ⟨given, m, hg, -⟩ := ends_bind_ok.1 h
  exact ((decides_positive? c a setting.field).ok (ends_lift.1 hg).1 ()).2 rfl

theorem not_mayBePositive_of_supply (h : (c.supply a setting).Ends p (.error e) q)
    (hr : ¬IsFault (.error e : Except Halt Unit)) : ¬c.MayBePositive a setting.field := by
  cases hg : c.positive? a setting.field with
  | ok given => cases ((supply_of_ok hg).1 h).1
  | error e' =>
    cases ((supply_of_error hg).1 h).1
    cases e with
    | fault f => exact absurd ⟨f, rfl⟩ hr
    | rejected e => exact (decides_positive? c a setting.field).rejected hg ()

/-- The same for both settings, the second of which only counts where the first is accepted. -/
theorem supplies_given {settings : ServiceSettings}
    (ha : ∀ setting, (setting = .maxDequeueCount → c.MayBePositive a "batch_size") →
      c.Asks a setting)
    (h : (do
      c.supply a .batchSize
      c.supply a .maxDequeueCount
      return settings : Analysis ServiceSettings).Ends p r q) (hr : ¬IsFault r) :
    ∃ batch count, c.Gives a .batchSize batch ∧ c.Gives a .maxDequeueCount count ∧
      q = c.supplied a .maxDequeueCount (c.supplied a .batchSize p batch) count := by
  have hbatch := ha .batchSize nofun
  obtain ⟨r', m, hm⟩ := (c.supply a .batchSize).exists_ends p
  cases r' with
  | error e =>
    obtain ⟨rfl, rfl⟩ := (ends_bind_of_error hm).1 h
    have he : ¬IsFault (.error e : Except Halt Unit) := mt IsFault.of_error hr
    obtain ⟨batch, hbatch, rfl⟩ := supply_given hbatch hm he
    have hno := not_mayBePositive_of_supply hm he
    exact ⟨batch, none, hbatch, gives_none fun hcount => hno (hcount.earlier rfl), rfl⟩
  | ok _ =>
    have h := (ends_bind_of_ok hm).1 h
    have hcount := ha .maxDequeueCount fun _ => mayBePositive_of_supply hm
    obtain ⟨batch, hbatch, rfl⟩ := supply_given hbatch hm not_isFault_ok
    obtain ⟨r', m', hm'⟩ := (c.supply a .maxDequeueCount).exists_ends
      (c.supplied a .batchSize p batch)
    cases r' with
    | error e =>
      obtain ⟨rfl, rfl⟩ := (ends_bind_of_error hm').1 h
      obtain ⟨count, hcount, rfl⟩ := supply_given hcount hm' (mt IsFault.of_error hr)
      exact ⟨batch, count, hbatch, hcount, rfl⟩
    | ok _ =>
      have h := (ends_bind_of_ok hm').1 h
      obtain ⟨-, rfl⟩ := ends_pure.1 h
      obtain ⟨count, hcount, rfl⟩ := supply_given hcount hm' not_isFault_ok
      exact ⟨batch, count, hbatch, hcount, rfl⟩

/-- What a queue marker gives for the two settings is left behind, whether the marker is accepted
or rejected. -/
theorem queueSettings_given (h : (c.serviceSettings .queue a).Ends p r q) (hr : ¬IsFault r) :
    ∃ batch count, c.Gives a .batchSize batch ∧ c.Gives a .maxDequeueCount count ∧
      q = c.supplied a .maxDequeueCount (c.supplied a .batchSize p batch) count := by
  cases hq : c.required a "queue_name" with
  | error e =>
    obtain ⟨-, rfl⟩ := (ends_bind_of_error (ends_lift.2 ⟨hq, rfl⟩)).1 h
    have hno : ∀ setting, ¬c.Asks a setting := by
      intro setting hasks
      obtain ⟨value, hv⟩ := hasks.queueName
      cases hq.symm.trans (required_eq_ok.2 hv)
    exact ⟨none, none, gives_none (hno _), gives_none (hno _), rfl⟩
  | ok queueName =>
    have h := (ends_bind_of_ok (ends_lift.2 ⟨hq, rfl⟩)).1 h
    cases hc : c.required a "connection" with
    | error e =>
      obtain ⟨-, rfl⟩ := (ends_bind_of_error (ends_lift.2 ⟨hc, rfl⟩)).1 h
      have hno : ∀ setting, ¬c.Asks a setting := by
        intro setting hasks
        obtain ⟨value, hv⟩ := hasks.connection
        cases hc.symm.trans (required_eq_ok.2 hv)
      exact ⟨none, none, gives_none (hno _), gives_none (hno _), rfl⟩
    | ok connection =>
      have h := (ends_bind_of_ok (ends_lift.2 ⟨hc, rfl⟩)).1 h
      apply supplies_given _ h hr
      intro setting hearlier
      exact ⟨⟨_, required_eq_ok.1 hq⟩, ⟨_, required_eq_ok.1 hc⟩, hearlier⟩

/-- Where a run stands once a service has supplied what it gives for the two settings. -/
def suppliedAll (c : Scope) (service : Marker) (p : Progress) (given : QueueSetting → Option Nat) :
    Progress :=
  c.supplied service .maxDequeueCount (c.supplied service .batchSize p (given .batchSize))
    (given .maxDequeueCount)

/-- What is given for a setting, where something is given for each. -/
def pick (batch count : Option Nat) : QueueSetting → Option Nat
  | .batchSize => batch
  | .maxDequeueCount => count

theorem settings_supplied (hs : s.moreServices = [])
    (h : (c.serviceSettings s.kind s.service).Ends p r q) (hr : ¬IsFault r) :
    ∃ given, (∀ setting, c.Offers s setting (given setting)) ∧
      q = c.suppliedAll s.service p given := by
  by_cases hk : s.kind = .queue
  · rw [hk] at h
    obtain ⟨batch, count, hbatch, hcount, rfl⟩ := queueSettings_given h hr
    refine ⟨pick batch count, fun setting => ?_, rfl⟩
    cases setting with
    | batchSize => exact hbatch.offers hs hk
    | maxDequeueCount => exact hcount.offers hs hk
  · have hno : ∀ setting, ¬∃ n, c.Supplies s setting n := fun setting ⟨n, hn⟩ => hk hn.kind
    have hq := reading_serviceSettings c hk _ _ _ _ h
    exact ⟨fun _ => none, fun setting => offers_none (hno setting), hq⟩

/-- What stays of the marker of a service, accepted or rejected: the warnings about its arguments
and what it supplies. -/
theorem service_supplied (h : (c.service s).Ends p r q) (hr : ¬IsFault r) :
    ∃ notes given, (∀ d ∈ notes, d.IsArgumentWarning) ∧
      (∀ setting, c.Offers s setting (given setting)) ∧
      q = c.suppliedAll s.service { p with log := p.log ++ notes } given := by
  rcases r with (f | e) | service
  · exact absurd ⟨f, rfl⟩ hr
  · rcases service_rejected h with ⟨hmore, rfl⟩ | ⟨hs, h⟩
    · have hno : ∀ setting, ¬∃ n, c.Supplies s setting n := fun setting ⟨n, hn⟩ => hmore hn.single
      refine ⟨[], fun _ => none, List.forall_mem_nil _, fun setting => offers_none (hno setting),
        ?_⟩
      exact congrArg (Progress.mk _ _) (List.append_nil _).symm
    · obtain ⟨given, hgiven, hq⟩ := settings_supplied hs h (mt IsFault.of_error hr)
      exact ⟨_, given, fun d => argumentWarning_of_mem, hgiven, hq⟩
  · obtain ⟨-, hsingle, h⟩ := service_ok.1 h
    have hs := ((decides_single c _ _).ok hsingle ()).2 rfl
    obtain ⟨given, hgiven, hq⟩ := settings_supplied hs h not_isFault_ok
    exact ⟨_, given, fun d => argumentWarning_of_mem, hgiven, hq⟩

end Scope

end AppManifest
