import AppManifest.Proofs.Analysis.Decision
import AppManifest.Proofs.Analysis.Names

namespace AppManifest
set_option autoImplicit true

/-! What queue services supply for the settings of the host, and what of it stays where a service is
rejected. -/

namespace Analysis

/-- A step that only reads leaves the progress as it was. -/
def IsReading (x : Analysis α) : Prop :=
  ∀ p r q, x.Ends p r q → q = p

theorem reading_lift (x : Except Halt α) : (liftM x : Analysis α).IsReading := by
  intro p r q h
  exact (ends_lift.1 h).2.symm

theorem reading_pure (a : α) : (pure a : Analysis α).IsReading := by
  intro p r q h
  exact (ends_pure.1 h).2.symm

theorem IsReading.bind {x : Analysis α} {f : α → Analysis β} (hx : x.IsReading)
    (hf : ∀ a, (f a).IsReading) : (x >>= f).IsReading := by
  intro p r q h
  obtain ⟨r', m, hm⟩ := x.exists_ends p
  obtain rfl := hx _ _ _ hm
  cases r' with
  | ok a => exact hf a _ _ _ ((ends_bind_of_ok hm).1 h)
  | error e => exact ((ends_bind_of_error hm).1 h).2.symm

end Analysis

/-- Decimal digits, more of them than a number is read with. -/
def IsOversizedNumeral (value : String) : Prop :=
  (∀ c ∈ value.toList, '0' ≤ c ∧ c ≤ '9') ∧ 4300 < value.toList.length

theorem isOversizedNumeral_iff (value : String) : IsOversizedNumeral value ↔
    Text.isNumeral value.toList = true ∧ Text.maxDigits < value.toList.length := by
  simp only [IsOversizedNumeral, Text.isNumeral, Bool.and_eq_true, Bool.not_eq_true',
    List.isEmpty_eq_false_iff, List.all_eq_true, isDigit_iff]
  constructor
  · intro h
    obtain ⟨hd, hl⟩ := h
    exact ⟨⟨List.ne_nil_of_length_pos (by omega), hd⟩, hl⟩
  · intro h
    obtain ⟨⟨-, hd⟩, hl⟩ := h
    exact ⟨hd, hl⟩

namespace Scope

/-- A field gives a positive number. -/
def GivesPositive (c : Scope) (a : Marker) (name : String) (n : Nat) : Prop :=
  ∃ value, c.document.HasValue a name value ∧ IsPositiveNumeral value ∧
    n = Text.numeralValue value.toList

/-- A queue marker passes all checks before the one of a setting's field. -/
structure Asks (c : Scope) (a : Marker) (setting : QueueSetting) : Prop where
  queueName : ∃ value, c.document.HasValue a "queue_name" value
  connection : ∃ value, c.document.HasValue a "connection" value
  earlier : setting = .maxDequeueCount → c.MayBePositive a "batch_size"

/-- A queue service supplies a value for a setting: its marker passes all checks before the one of
the setting's field, and that field gives the value. -/
structure Supplies (c : Scope) (s : ServiceDeclaration) (setting : QueueSetting) (n : Nat) :
    Prop where
  single : s.moreServices = []
  kind : s.kind = .queue
  asks : c.Asks s.service setting
  value : c.GivesPositive s.service setting.field n

/-- The same of a value that is too long to be read. -/
structure Oversizes (c : Scope) (s : ServiceDeclaration) (setting : QueueSetting) : Prop where
  single : s.moreServices = []
  kind : s.kind = .queue
  asks : c.Asks s.service setting
  value : ∃ value, c.document.HasValue s.service setting.field value ∧ IsOversizedNumeral value

/-- Where a run stands once a service has supplied a value for a setting, if it does. -/
def supplied (c : Scope) (service : Marker) (setting : QueueSetting) (p : Progress) :
    Option Nat → Progress
  | none => p
  | some n =>
    match setting.get p.host with
    | none => { p with host := setting.set n p.host }
    | some kept =>
      if kept = n then p
      else p.note (c.diagnostic (anchor service setting.field)
        (.conflictingHostSetting setting.field kept))

open Analysis

variable {c : Scope} {a : Marker} {s : ServiceDeclaration} {p q : Progress}

theorem literal_eq_ok : c.literal f = .ok v ↔ c.document.Gives f v := by
  constructor
  · intro h
    exact ((decides_literal c f).ok h v).2 rfl
  · intro h
    rw [literal, Document.literal?_eq_ok_some.2 h]
    rfl

theorem required_eq_ok : c.required a name = .ok v ↔ c.document.HasValue a name v := by
  unfold required Document.HasValue
  cases a.field? name with
  | none => simp [reject]
  | some f => simp [literal_eq_ok]

theorem optional_eq_ok_some :
    c.optional a name = .ok (some v) ↔ c.document.HasValue a name v := by
  unfold optional Document.HasValue
  cases a.field? name with
  | none => simp [pure_eq_ok]
  | some f => simp [← bind_pure_comp, bind_eq_ok, pure_eq_ok, literal_eq_ok]

theorem optional_eq_ok_none : c.optional a name = .ok none ↔ a.field? name = none := by
  unfold optional
  cases a.field? name with
  | none => simp [pure_eq_ok]
  | some f => simp [← bind_pure_comp, bind_eq_ok, pure_eq_ok]

theorem positive?_eq_ok_some (h : c.positive? a name = .ok (some n)) :
    c.GivesPositive a name n := by
  obtain ⟨given, hg, h⟩ := bind_eq_ok.1 h
  cases given with
  | none => cases pure_eq_ok.1 h
  | some value =>
    dsimp only at h
    split at h
    next hn =>
      split at h
      next => cases h
      next =>
        split at h
        next => cases h
        next hz =>
          cases pure_eq_ok.1 h
          exact ⟨value, optional_eq_ok_some.1 hg, (isPositiveNumeral_iff value).2 ⟨hn, hz⟩, rfl⟩
    next => cases h

theorem positive?_eq_ok_none (h : c.positive? a name = .ok none) : a.field? name = none := by
  obtain ⟨given, hg, h⟩ := bind_eq_ok.1 h
  cases given with
  | none => exact optional_eq_ok_none.1 hg
  | some value =>
    dsimp only at h
    split at h
    next =>
      split at h
      next => cases h
      next =>
        split at h
        next => cases h
        next => cases pure_eq_ok.1 h
    next => cases h

theorem GivesPositive.unique (h : c.GivesPositive a name n) (h' : c.GivesPositive a name n') :
    n = n' := by
  obtain ⟨value, hv, -, rfl⟩ := h
  obtain ⟨value', hv', -, rfl⟩ := h'
  have he := (optional_eq_ok_some.2 hv).symm.trans (optional_eq_ok_some.2 hv')
  cases he
  rfl

theorem GivesPositive.mayBePositive (h : c.GivesPositive a name n) : c.MayBePositive a name := by
  obtain ⟨value, hv, hp, -⟩ := h
  refine ⟨some value, .present hv, ?_⟩
  intro v hv
  cases hv
  exact hp

theorem supply_of_ok (h : c.positive? a setting.field = .ok given) :
    (c.supply a setting).Ends p r q ↔ .ok () = r ∧ c.supplied a setting p given = q := by
  rw [supply, ends_bind_of_ok (ends_lift.2 ⟨h, rfl⟩)]
  cases given with
  | none => exact ends_pure
  | some n =>
    refine (ends_bind_of_ok (ends_get.2 ⟨rfl, rfl⟩)).trans ?_
    rw [keep, supplied]
    cases setting.get p.host with
    | none => exact ends_modify
    | some kept =>
      dsimp only
      split
      next => exact ends_pure
      next => exact ends_note

theorem supply_of_error (h : c.positive? a setting.field = .error e) :
    (c.supply a setting).Ends p r q ↔ .error e = r ∧ p = q :=
  ends_bind_of_error (ends_lift.2 ⟨h, rfl⟩)

theorem host_supplied_of_none (h : setting.get p.host = none) :
    (c.supplied a setting p (some n)).host = setting.set n p.host := by
  rw [supplied, h]

theorem host_supplied_of_some (h : setting.get p.host = some kept) :
    (c.supplied a setting p given).host = p.host := by
  cases given with
  | none => rfl
  | some n =>
    rw [supplied, h]
    dsimp only
    split
    next => rfl
    next => rfl

/-- Only queue services change anything by what their marker says. -/
theorem reading_serviceSettings (c : Scope) (hk : kind ≠ .queue) (a : Marker) :
    (c.serviceSettings kind a).IsReading := by
  cases kind with
  | http =>
    apply IsReading.bind (reading_lift _)
    intro given
    dsimp only
    split
    · exact .bind (reading_lift _) fun _ => reading_pure _
    · exact reading_lift _
  | queue => exact absurd rfl hk
  | timer =>
    apply IsReading.bind (reading_lift _)
    intro schedule
    split
    · exact reading_pure _
    · exact reading_lift _

theorem nameOf_error (h : c.nameOf n = .error e) : ∃ f, e = .fault f := by
  rw [nameOf] at h
  split at h
  next =>
    obtain ⟨f, -, rfl⟩ := lift_eq_error.1 h
    exact ⟨f, rfl⟩
  next => cases h

/-- A service is rejected over a second marker or over what its marker says. -/
theorem service_rejected (h : (c.service s).Ends p (.error (.rejected e)) q) :
    s.moreServices ≠ [] ∧ q = p ∨
      s.moreServices = [] ∧ (c.serviceSettings s.kind s.service).Ends
        { p with log := p.log ++ c.argumentWarnings s.service } (.error (.rejected e)) q := by
  rcases ends_bind_error.1 h with h | ⟨className, r, hn, h⟩
  · obtain ⟨f, hf⟩ := nameOf_error (ends_lift.1 h).1
    cases hf
  · obtain ⟨-, rfl⟩ := ends_lift.1 hn
    rcases ends_bind_error.1 h with h | ⟨_, r', hs, h⟩
    · obtain ⟨hs, rfl⟩ := ends_lift.1 h
      exact .inl ⟨(decides_single c _ _).rejected hs (), rfl⟩
    · obtain ⟨hsingle, rfl⟩ := ends_lift.1 hs
      rcases ends_bind_error.1 h with h | ⟨_, m, hm, h⟩
      · cases (ends_noteAll.1 h).1
      · obtain ⟨-, rfl⟩ := ends_noteAll.1 hm
        rcases ends_bind_error.1 h with h | ⟨_, _, -, h⟩
        · exact .inr ⟨((decides_single c _ _).ok hsingle ()).2 rfl, h⟩
        · cases (ends_pure.1 h).1

/-- A queue marker is rejected before it supplies anything, or else after the batch size and before
the other number. -/
theorem queueSettings_rejected
    (h : (c.serviceSettings .queue a).Ends p (.error (.rejected e)) q) :
    ((¬(∃ v, c.document.HasValue a "queue_name" v) ∨ ¬(∃ v, c.document.HasValue a "connection" v) ∨
        ¬c.MayBePositive a "batch_size") ∧ q = p) ∨
      (∃ v, c.document.HasValue a "queue_name" v) ∧ (∃ v, c.document.HasValue a "connection" v) ∧
        ∃ given, c.positive? a "batch_size" = .ok given ∧ c.supplied a .batchSize p given = q := by
  rcases ends_bind_error.1 h with h | ⟨queueName, r, hq, h⟩
  · obtain ⟨hq, rfl⟩ := ends_lift.1 h
    refine .inl ⟨.inl ?_, rfl⟩
    exact fun ⟨v, hv⟩ => (decides_required c a "queue_name").rejected hq v hv
  · obtain ⟨hname, rfl⟩ := ends_lift.1 hq
    rcases ends_bind_error.1 h with h | ⟨connection, r, hc, h⟩
    · obtain ⟨hc, rfl⟩ := ends_lift.1 h
      refine .inl ⟨.inr (.inl ?_), rfl⟩
      exact fun ⟨v, hv⟩ => (decides_required c a "connection").rejected hc v hv
    · obtain ⟨hconn, rfl⟩ := ends_lift.1 hc
      cases hb : c.positive? a QueueSetting.batchSize.field with
      | error e' =>
        obtain ⟨he, rfl⟩ := (ends_bind_of_error ((supply_of_error hb).2 ⟨rfl, rfl⟩)).1 h
        cases he
        exact .inl ⟨.inr (.inr ((decides_positive? c a "batch_size").rejected hb ())), rfl⟩
      | ok given =>
        refine .inr ⟨⟨_, required_eq_ok.1 hname⟩, ⟨_, required_eq_ok.1 hconn⟩, given, hb, ?_⟩
        have h := (ends_bind_of_ok ((supply_of_ok hb).2 ⟨rfl, rfl⟩)).1 h
        rcases ends_bind_error.1 h with h | ⟨_, _, -, h⟩
        · cases hm : c.positive? a QueueSetting.maxDequeueCount.field with
          | error e' => exact ((supply_of_error hm).1 h).2
          | ok given' => cases ((supply_of_ok hm).1 h).1
        · cases (ends_pure.1 h).1

theorem positive?_of_oversized (hv : c.document.HasValue a name value)
    (ho : IsOversizedNumeral value) : c.positive? a name = .error (.fault .oversizedNumeral) := by
  obtain ⟨hn, hl⟩ := (isOversizedNumeral_iff value).1 ho
  rw [positive?, optional_eq_ok_some.2 hv, ok_bind]
  simp only [hn, hl, ↓reduceIte]
  rfl

/-- A queue marker ends the run over a number that is too long and over none before it. -/
theorem queueSettings_of_oversized (ha : c.Asks a setting)
    (hv : ∃ value, c.document.HasValue a setting.field value ∧ IsOversizedNumeral value)
    (h : (c.serviceSettings .queue a).Ends p r q) : ∃ f, r = .error (.fault f) := by
  obtain ⟨_, hq⟩ := ha.queueName
  obtain ⟨_, hc⟩ := ha.connection
  obtain ⟨value, hv, ho⟩ := hv
  have hbig := positive?_of_oversized hv ho
  have h := (ends_bind_of_ok (ends_lift.2 ⟨required_eq_ok.2 hq, rfl⟩)).1 h
  have h := (ends_bind_of_ok (ends_lift.2 ⟨required_eq_ok.2 hc, rfl⟩)).1 h
  cases hb : c.positive? a QueueSetting.batchSize.field with
  | error e =>
    obtain ⟨rfl, -⟩ := (ends_bind_of_error ((supply_of_error hb).2 ⟨rfl, rfl⟩)).1 h
    cases e with
    | fault f => exact ⟨f, rfl⟩
    | rejected d =>
      cases setting with
      | batchSize => cases hb.symm.trans hbig
      | maxDequeueCount =>
        exact absurd (ha.earlier rfl) ((decides_positive? c a "batch_size").rejected hb ())
  | ok given =>
    cases setting with
    | batchSize => cases hb.symm.trans hbig
    | maxDequeueCount =>
      have h := (ends_bind_of_ok ((supply_of_ok hb).2 ⟨rfl, rfl⟩)).1 h
      have h := (ends_bind_of_error ((supply_of_error hbig).2 ⟨rfl, rfl⟩)).1 h
      exact ⟨_, h.1.symm⟩

theorem service_of_oversizes (hs : c.Oversizes s setting) (h : (c.service s).Ends p r q) :
    ∃ f, r = .error (.fault f) := by
  have hfault {p r q} (h : (c.serviceSettings s.kind s.service).Ends p r q) :
      ∃ f, r = .error (.fault f) := by
    rw [hs.kind] at h
    exact queueSettings_of_oversized hs.asks hs.value h
  rcases r with (f | e) | service
  · exact ⟨f, rfl⟩
  · rcases service_rejected h with ⟨hmore, -⟩ | ⟨-, h⟩
    · exact absurd hs.single hmore
    · obtain ⟨f, hf⟩ := hfault h
      cases hf
  · obtain ⟨f, hf⟩ := hfault (service_ok.1 h).2.2
    cases hf

/-- Where a service says a number that is too long, the run over the module comes to no end. -/
theorem statements_of_oversizes {statements : List Node} (hst : statement ∈ statements)
    (hd : c.document.serviceDeclaration? statement = .ok (some s)) (hs : c.Oversizes s setting)
    (h : (c.analyzeStatements statements).Ends p (.ok functions) q) : False := by
  induction statements generalizing p functions with
  | nil => cases hst
  | cons first rest ih =>
    rcases analyzeStatements_cons.1 h with ⟨ho, h⟩ | ⟨s', emitted?, r, more, ho, hx, hmore, rfl⟩
    · rcases List.mem_cons.1 hst with rfl | hst
      · cases ho.symm.trans hd
      · exact ih hst h
    · rcases List.mem_cons.1 hst with rfl | hst
      · cases ho.symm.trans hd
        rcases attempt_ok hx with ⟨_, -, hx⟩ | ⟨e, m, -, hx, -⟩
        · obtain ⟨service, r', _, _, hx, -⟩ := analyzeService_ok.1 hx
          obtain ⟨f, hf⟩ := service_of_oversizes hs hx
          cases hf
        · obtain ⟨f, hf⟩ := service_of_oversizes hs (analyzeService_rejected.1 hx)
          cases hf
      · exact ih hst hmore

theorem host_of_rejected_queue (hk : s.kind = .queue) (hs : s.moreServices = [])
    (h : (c.serviceSettings .queue s.service).Ends p (.error (.rejected e)) q) :
    (∃ n, c.Supplies s .batchSize n ∧ p.host.queueBatchSize = none ∧
        q.host = { p.host with queueBatchSize := some (n : Int) }) ∨
      (¬∃ n, c.Supplies s .batchSize n ∧ p.host.queueBatchSize = none) ∧ q.host = p.host := by
  rcases queueSettings_rejected h with ⟨hno, rfl⟩ | ⟨hq, hc, given, hb, rfl⟩
  · refine .inr ⟨?_, rfl⟩
    rintro ⟨n, hn, -⟩
    rcases hno with hno | hno | hno
    · exact hno hn.asks.queueName
    · exact hno hn.asks.connection
    · exact hno hn.value.mayBePositive
  · cases given with
    | none =>
      refine .inr ⟨?_, rfl⟩
      rintro ⟨n, hn, -⟩
      obtain ⟨value, ⟨f, hf, -⟩, -⟩ := hn.value
      cases (positive?_eq_ok_none hb).symm.trans hf
    | some n =>
      have hn : c.Supplies s .batchSize n := ⟨hs, hk, ⟨hq, hc, nofun⟩, positive?_eq_ok_some hb⟩
      cases hkept : p.host.queueBatchSize with
      | none => exact .inl ⟨n, hn, rfl, host_supplied_of_none hkept⟩
      | some kept =>
        refine .inr ⟨?_, host_supplied_of_some hkept⟩
        rintro ⟨_, -, hnone⟩
        cases hnone

/-- A rejected service leaves the host settings as they were, unless it is the first one to supply a
batch size: then that stays. -/
theorem host_of_rejected_service (h : (c.analyzeService s).Ends p (.error (.rejected e)) q) :
    (∃ n, c.Supplies s .batchSize n ∧ p.host.queueBatchSize = none ∧
        q.host = { p.host with queueBatchSize := some (n : Int) }) ∨
      (¬∃ n, c.Supplies s .batchSize n ∧ p.host.queueBatchSize = none) ∧ q.host = p.host := by
  rcases service_rejected (analyzeService_rejected.1 h) with ⟨hs, rfl⟩ | ⟨hs, h⟩
  · refine .inr ⟨?_, rfl⟩
    rintro ⟨n, hn, -⟩
    exact hs hn.single
  · by_cases hk : s.kind = .queue
    · rw [hk] at h
      have hq := host_of_rejected_queue hk hs h
      exact hq
    · obtain rfl := reading_serviceSettings c hk _ _ _ _ h
      refine .inr ⟨?_, rfl⟩
      rintro ⟨n, hn, -⟩
      exact hk hn.kind

/-- What a rejected service leaves behind: the names as they were, and the host settings too, unless
its marker is the first to supply a batch size before it is rejected. -/
theorem rejected_service_progress (h : (c.analyzeService s).Ends p (.error (.rejected e)) q) :
    q.names = p.names ∧
      (q.host = p.host ↔ ¬∃ n, c.Supplies s .batchSize n ∧ p.host.queueBatchSize = none) ∧
      ∀ n, c.Supplies s .batchSize n → p.host.queueBatchSize = none →
        q.host = { p.host with queueBatchSize := some (n : Int) } := by
  refine ⟨names_of_rejected_service h, ?_⟩
  rcases host_of_rejected_service h with ⟨n, hn, hnone, hq⟩ | ⟨hno, hq⟩
  · refine ⟨iff_of_false ?_ ?_, fun n' hn' _ => ?_⟩
    · intro he
      rw [hq] at he
      cases (congrArg HostSettings.queueBatchSize he).trans hnone
    · exact fun hno => hno ⟨n, hn, hnone⟩
    · rw [hn'.value.unique hn.value, hq]
  · exact ⟨iff_of_true hq hno, fun n hn hnone => absurd ⟨n, hn, hnone⟩ hno⟩

end Scope

/-- A queue service with a batch size and, after it, a number that is rejected. -/
def Document.halfSupplied : Document where
  path := "mod.py"
  source := ("@af.queue_service(queue_name=\"q\", connection=\"c\", batch_size=3, " ++
    "max_dequeue_count=0)\nclass Q: pass\n").toUTF8
  tree :=
    .node "module" 0 99 "" [
      .node "decorated_definition" 0 98 "" [
        .node "decorator" 0 84 "" [
          .node "@" 0 1 "" [],
          .node "call" 1 84 "" [
            .node "attribute" 1 17 "function" [
              .node "identifier" 1 3 "object" [],
              .node "." 3 4 "" [],
              .node "identifier" 4 17 "attribute" []],
            .node "argument_list" 17 84 "arguments" [
              .node "(" 17 18 "" [],
              .node "keyword_argument" 18 32 "" [
                .node "identifier" 18 28 "name" [],
                .node "=" 28 29 "" [],
                .node "string" 29 32 "value" [
                  .node "string_start" 29 30 "" [],
                  .node "string_content" 30 31 "" [],
                  .node "string_end" 31 32 "" []]],
              .node "," 32 33 "" [],
              .node "keyword_argument" 34 48 "" [
                .node "identifier" 34 44 "name" [],
                .node "=" 44 45 "" [],
                .node "string" 45 48 "value" [
                  .node "string_start" 45 46 "" [],
                  .node "string_content" 46 47 "" [],
                  .node "string_end" 47 48 "" []]],
              .node "," 48 49 "" [],
              .node "keyword_argument" 50 62 "" [
                .node "identifier" 50 60 "name" [],
                .node "=" 60 61 "" [],
                .node "integer" 61 62 "value" []],
              .node "," 62 63 "" [],
              .node "keyword_argument" 64 83 "" [
                .node "identifier" 64 81 "name" [],
                .node "=" 81 82 "" [],
                .node "integer" 82 83 "value" []],
              .node ")" 83 84 "" []]]],
        .node "class_definition" 85 98 "definition" [
          .node "class" 85 90 "" [],
          .node "identifier" 91 92 "name" [],
          .node ":" 92 93 "" [],
          .node "block" 94 98 "body" [
            .node "pass_statement" 94 98 "" [.node "pass" 94 98 "" []]]]]]

/-- The batch size after the one service of a document, where that service is rejected. -/
def Document.rejectedBatchSize (d : Document) : Option Int := do
  let symbols ← (SymbolTable.ofDocument d).toOption
  let services ← (d.serviceDeclarations d.root).toOption
  match services with
  | [s] =>
    match (Scope.analyzeService ⟨d, {}, symbols⟩ s).run.run
        (Scope.start ⟨d, {}, symbols⟩ []) with
    | (.error (.rejected _), q) => q.host.queueBatchSize
    | _ => none
  | _ => none

/-- The service is rejected from the start of the run, and its batch size is there afterwards. -/
theorem Document.rejected_halfSupplied : ∃ symbols s e q,
    SymbolTable.ofDocument halfSupplied = .ok symbols ∧
      halfSupplied.serviceDeclarations halfSupplied.root = .ok [s] ∧
      (Scope.analyzeService ⟨halfSupplied, {}, symbols⟩ s).Ends
        (Scope.start ⟨halfSupplied, {}, symbols⟩ []) (.error (.rejected e)) q ∧
      q.host.queueBatchSize = some 3 := by
  have h : halfSupplied.rejectedBatchSize = some 3 := by decide +kernel
  unfold Document.rejectedBatchSize at h
  obtain ⟨symbols, hsymbols, h⟩ := Option.bind_eq_some_iff.1 h
  obtain ⟨services, hservices, h⟩ := Option.bind_eq_some_iff.1 h
  split at h
  next s =>
    split at h
    next e q hrun =>
      exact ⟨symbols, s, e, q, eq_ok_of_toOption hsymbols, eq_ok_of_toOption hservices, hrun, h⟩
    next => cases h
  next => cases h

/-- A service that is rejected at the start of a run changes the host settings. -/
theorem Scope.rejected_service_supplies_host : ∃ c s p e q, Scope.Reaches c [] p ∧
    c.document.serviceDeclarations c.document.root = .ok [s] ∧
    (c.analyzeService s).Ends p (.error (.rejected e)) q ∧
    p.host.queueBatchSize = none ∧ q.host.queueBatchSize = some 3 := by
  obtain ⟨symbols, s, e, q, -, hs, h, hq⟩ := Document.rejected_halfSupplied
  refine ⟨⟨Document.halfSupplied, {}, symbols⟩, s, _, e, q, ?_, hs, h, rfl, hq⟩
  exact .statements List.nil_prefix (analyzeStatements_nil.2 ⟨rfl, rfl⟩)

/-- The rejected service has supplied the batch size that is there after it. -/
theorem Scope.rejected_service_halfSupplied : ∃ c s p e q,
    (Scope.analyzeService c s).Ends p (.error (.rejected e)) q ∧ q.names = p.names ∧
      q.host ≠ p.host ∧ ∃ n, c.Supplies s .batchSize n ∧
        q.host = { p.host with queueBatchSize := some (n : Int) } := by
  obtain ⟨symbols, s, e, q, -, -, h, hq⟩ := Document.rejected_halfSupplied
  obtain ⟨hnames, hhost, hn⟩ := rejected_service_progress h
  have hne : q.host ≠ (Scope.start ⟨Document.halfSupplied, {}, symbols⟩ []).host := by
    intro he
    rw [he] at hq
    cases hq
  obtain ⟨n, hsupplies, hnone⟩ := Classical.not_not.1 (mt hhost.2 hne)
  exact ⟨_, s, _, e, q, h, hnames, hne, n, hsupplies, hn n hsupplies hnone⟩

end AppManifest
