import AppManifest.Proofs.Analysis.FunctionName
import AppManifest.Proofs.Analysis.Step

namespace AppManifest
set_option autoImplicit true

/-- The registry of names agrees with the functions emitted so far. -/
structure Registered (functions : List FunctionDescriptor) (p : Progress) : Prop where
  names : ∀ name, name ∈ p.names ↔ ∃ f ∈ functions, f.name = name
  distinct : (functions.map FunctionDescriptor.name).Nodup
  valid : ∀ f ∈ functions, IsFunctionName f.name

namespace Registered

variable {functions : List FunctionDescriptor} {p q : Progress}

theorem same (h : Registered functions p) (hq : q.names = p.names) : Registered functions q where
  names name := by rw [hq, h.names]
  distinct := h.distinct
  valid := h.valid

/-- A function with a new and valid name keeps the agreement. -/
theorem emit (h : Registered functions p) (hn : f.name ∉ p.names) (hv : IsFunctionName f.name)
    (hq : q.names = f.name :: p.names) : Registered (functions ++ [f]) q where
  names name := by
    rw [hq, List.mem_cons, h.names]
    simp only [List.mem_append, List.mem_singleton, or_and_right, exists_or, exists_eq_left]
    rw [or_comm, eq_comm]
  distinct := by
    rw [List.map_append, List.nodup_append]
    refine ⟨h.distinct, by simp, ?_⟩
    intro name hm name' hm' he
    obtain ⟨g, hg, rfl⟩ := List.mem_map.1 hm
    obtain rfl := List.mem_singleton.1 hm'
    exact hn ((h.names _).2 ⟨g, hg, he⟩)
  valid g hg := by
    rcases List.mem_append.1 hg with hg | hg
    · exact h.valid g hg
    · obtain rfl := List.mem_singleton.1 hg
      exact hv

end Registered

namespace Scope

open Analysis

/-- The points of a run between two declarations, each with the functions emitted before it: some
statements of the module are done and, in the second case, the marker of the next service and some
of its methods. -/
inductive Reaches (c : Scope) : List FunctionDescriptor → Progress → Prop
  | statements (hd : done <+: c.document.root.children)
      (h : (c.analyzeStatements done).Ends (c.start log) (.ok functions) p) :
      Reaches c functions p
  | methods {service : Service} (hd : done ++ [statement] <+: c.document.root.children)
      (h : (c.analyzeStatements done).Ends (c.start log) (.ok functions) p)
      (hs : c.document.serviceDeclaration? statement = .ok (some s))
      (hv : (c.service s).Ends p (.ok service) q)
      (hm : members <+: c.methodSymbols s.definition)
      (h' : (c.analyzeMethods service s.definition members).Ends q (.ok results) r) :
      Reaches c (functions ++ results.functions) r

variable {c : Scope} {service : Service} {m : TriggerMethod} {p q : Progress}

/-- A method that becomes a function takes a new and valid name, and only that. -/
theorem names_of_analyzeFunction (h : (c.analyzeFunction service m).Ends p (.ok f) q) :
    f.name ∉ p.names ∧ IsFunctionName f.name ∧ q.names = f.name :: p.names := by
  obtain ⟨proposal, r, name, r', hp, hn, rfl, rfl⟩ := analyzeFunction_ok.1 h
  obtain ⟨-, hv, hf, rfl⟩ := assignName_ok hn
  have hr := (steady_propose c service m).names hp
  rw [hr] at hf
  exact ⟨hf, (isFunctionName_iff name).1 hv, congrArg _ hr⟩

theorem names_of_rejected_function (h : (c.analyzeFunction service m).Ends p (.error e) q) :
    q.names = p.names := by
  rcases analyzeFunction_error.1 h with h | ⟨proposal, r, hp, hn⟩
  · exact (steady_propose c service m).names h
  · obtain ⟨rfl, -⟩ := assignName_error hn
    exact (steady_propose c service m).names hp

theorem names_of_rejected_service
    (h : (c.analyzeService s).Ends p (.error (.rejected e)) q) : q.names = p.names :=
  (steady_service c s).names (analyzeService_rejected.1 h)

theorem registered_attempt {functions : List FunctionDescriptor} (h : Registered functions p)
    (hx : (attempt (c.analyzeFunction service m)).Ends p (.ok function?) q) :
    Registered (functions ++ function?.toList) q := by
  rcases attempt_ok hx with ⟨f, rfl, hf⟩ | ⟨e, r, rfl, hr, rfl⟩
  · obtain ⟨hn, hv, hq⟩ := names_of_analyzeFunction hf
    exact h.emit hn hv hq
  · rw [Option.toList_none, List.append_nil]
    exact (h.same (names_of_rejected_function hr)).same rfl

theorem registered_analyzeMethods {functions : List FunctionDescriptor} {members : List Symbol}
    (h : Registered functions p)
    (hx : (c.analyzeMethods service definition members).Ends p (.ok results) q) :
    Registered (functions ++ results.functions) q := by
  induction members generalizing functions p results with
  | nil =>
    obtain ⟨rfl, rfl⟩ := analyzeMethods_nil.1 hx
    rwa [List.append_nil]
  | cons symbol rest ih =>
    rcases analyzeMethods_cons.1 hx with ⟨-, hx⟩ | ⟨m, function?, r, more, -, hf, hm, rfl⟩
    · exact ih h hx
    · rw [← List.append_assoc]
      exact ih (registered_attempt h hf) hm

theorem registered_analyzeService {functions : List FunctionDescriptor} (h : Registered functions p)
    (hx : (c.analyzeService s).Ends p (.ok emitted) q) : Registered (functions ++ emitted) q := by
  obtain ⟨service, r, results, r', hs, hm, rfl, rfl⟩ := analyzeService_ok.1 hx
  have hr := h.same ((steady_service c s).names hs)
  exact (registered_analyzeMethods hr hm).same rfl

theorem registered_analyzeStatements {functions : List FunctionDescriptor} {statements : List Node}
    (h : Registered functions p) (hx : (c.analyzeStatements statements).Ends p (.ok emitted) q) :
    Registered (functions ++ emitted) q := by
  induction statements generalizing functions p emitted with
  | nil =>
    obtain ⟨rfl, rfl⟩ := analyzeStatements_nil.1 hx
    rwa [List.append_nil]
  | cons statement rest ih =>
    rcases analyzeStatements_cons.1 hx with ⟨-, hx⟩ | ⟨s, emitted?, r, more, -, hs, hm, rfl⟩
    · exact ih h hx
    · rw [← List.append_assoc]
      refine ih ?_ hm
      rcases attempt_ok hs with ⟨fs, rfl, hfs⟩ | ⟨e, r', rfl, hr, rfl⟩
      · exact registered_analyzeService h hfs
      · rw [Option.getD_none, List.append_nil]
        exact (h.same (names_of_rejected_service hr)).same rfl

theorem registered_start (c : Scope) (log : Log) : Registered [] (c.start log) where
  names name := by simp [start]
  distinct := .nil
  valid := by simp

theorem Reaches.registered {functions : List FunctionDescriptor} (h : c.Reaches functions p) :
    Registered functions p := by
  cases h with
  | statements _ h => exact registered_analyzeStatements (registered_start c _) h
  | methods _ h _ hv _ h' =>
    have hq := (registered_analyzeStatements (registered_start c _) h).same
      ((steady_service c _).names hv)
    exact registered_analyzeMethods hq h'

/-- With no name taken, a method would become this function. -/
def Proposes (c : Scope) (service : Service) (m : TriggerMethod) (p : Progress)
    (f : FunctionDescriptor) : Prop :=
  ∃ q, (c.analyzeFunction service m).Ends { p with names := [] } (.ok f) q

theorem proposes_iff :
    c.Proposes service m p f ↔ ∃ proposal r explicit,
      (c.propose service m).Ends p (.ok proposal) r ∧
        c.optional m.trigger "name" = .ok explicit ∧
        isFunctionName (explicit.getD proposal.draft.defaultName) = true ∧
        f = ⟨explicit.getD proposal.draft.defaultName, service.className,
          service.className ++ "." ++ proposal.methodName,
          proposal.draft.bindings ++ proposal.outputs⟩ := by
  constructor
  · intro h
    obtain ⟨q, h⟩ := h
    obtain ⟨proposal, r, name, r', hp, hn, rfl, rfl⟩ := analyzeFunction_ok.1 h
    obtain ⟨⟨explicit, he, rfl⟩, hv, -, rfl⟩ := assignName_ok hn
    have hp' := (steady_propose c service m).blind p.names hp
    exact ⟨proposal, _, explicit, hp', he, hv, rfl⟩
  · intro h
    obtain ⟨proposal, r, explicit, hp, he, hv, rfl⟩ := h
    have hp' := (steady_propose c service m).blind [] hp
    have hn := assignName_of_fresh (p := { r with names := [] }) he hv List.not_mem_nil
    exact ⟨_, analyzeFunction_ok.2 ⟨proposal, _, _, _, hp', hn, rfl, rfl⟩⟩

/-- Names only decide whether a method that passes all other checks is emitted. -/
theorem analyzeFunction_ok_iff :
    (∃ q, (c.analyzeFunction service m).Ends p (.ok f) q) ↔
      c.Proposes service m p f ∧ f.name ∉ p.names := by
  constructor
  · intro h
    obtain ⟨q, h⟩ := h
    have hf := (names_of_analyzeFunction h).1
    obtain ⟨proposal, r, name, r', hp, hn, rfl, -⟩ := analyzeFunction_ok.1 h
    obtain ⟨⟨explicit, he, rfl⟩, hv, -, -⟩ := assignName_ok hn
    exact ⟨proposes_iff.2 ⟨proposal, r, explicit, hp, he, hv, rfl⟩, hf⟩
  · intro h
    obtain ⟨h, hf⟩ := h
    obtain ⟨proposal, r, explicit, hp, he, hv, rfl⟩ := proposes_iff.1 h
    rw [← (steady_propose c service m).names hp] at hf
    have hn := assignName_of_fresh he hv hf
    exact ⟨_, analyzeFunction_ok.2 ⟨proposal, r, _, _, hp, hn, rfl, rfl⟩⟩

theorem analyzeFunction_duplicate_iff :
    (∃ e q, (c.analyzeFunction service m).Ends p (.error (.rejected e)) q ∧
        e.code = .duplicateFunctionName) ↔
      ∃ f, c.Proposes service m p f ∧ f.name ∈ p.names := by
  constructor
  · intro h
    obtain ⟨e, q, h, hc⟩ := h
    rcases analyzeFunction_error.1 h with h | ⟨proposal, r, hp, hn⟩
    · exact absurd hc ((steady_propose c service m).halt h).2
    · obtain ⟨rfl, he | ⟨explicit, he, ⟨-, hd⟩ | ⟨hv, hf, -⟩⟩⟩ := assignName_error hn
      · exact absurd hc (halts_optional c _ _ _ he).2
      · cases hd
        cases hc
      · rw [(steady_propose c service m).names hp] at hf
        exact ⟨_, proposes_iff.2 ⟨proposal, q, explicit, hp, he, hv, rfl⟩, hf⟩
  · intro h
    obtain ⟨f, h, hf⟩ := h
    obtain ⟨proposal, r, explicit, hp, he, hv, rfl⟩ := proposes_iff.1 h
    rw [← (steady_propose c service m).names hp] at hf
    have hn := assignName_of_used he hv hf
    exact ⟨_, r, analyzeFunction_error.2 (.inr ⟨proposal, r, hp, hn⟩), rfl⟩

/-- The registry holds the names of the emitted functions at every point of a run, all of them
distinct and valid. A method that passes all other checks is emitted where its name is new, and
rejected as a duplicate where it is not; what is rejected leaves the registry as it was. -/
theorem names_registry (c : Scope) :
    (∀ functions p, c.Reaches functions p → Registered functions p ∧
      ∀ service m,
        (∀ f, (∃ q, (c.analyzeFunction service m).Ends p (.ok f) q) ↔
          c.Proposes service m p f ∧ ¬∃ g ∈ functions, g.name = f.name) ∧
        ((∃ e q, (c.analyzeFunction service m).Ends p (.error (.rejected e)) q ∧
            e.code = .duplicateFunctionName) ↔
          ∃ f, c.Proposes service m p f ∧ ∃ g ∈ functions, g.name = f.name)) ∧
      (∀ service m p e q,
        (c.analyzeFunction service m).Ends p (.error (.rejected e)) q → q.names = p.names) ∧
      (∀ s p e q, (c.analyzeService s).Ends p (.error (.rejected e)) q → q.names = p.names) ∧
      ∀ log log' app, c.document.analyzeInto log c.settings = ⟨log', .ok app⟩ →
        (app.functions.map FunctionDescriptor.name).Nodup ∧
          ∀ f ∈ app.functions, IsFunctionName f.name := by
  refine ⟨?_, ?_, ?_, ?_⟩
  · intro functions p h
    have hr := h.registered
    refine ⟨hr, fun service m => ⟨fun f => ?_, ?_⟩⟩
    · rw [analyzeFunction_ok_iff, hr.names]
    · rw [analyzeFunction_duplicate_iff]
      simp only [hr.names]
  · intro service m p e q h
    exact names_of_rejected_function h
  · intro s p e q h
    exact names_of_rejected_service h
  · intro log log' app h
    obtain ⟨symbols, functions, p, -, hx, -, rfl⟩ := Document.analyzeInto_ok.1 h
    have hr := registered_analyzeStatements (registered_start _ log) hx
    exact ⟨hr.distinct, hr.valid⟩

/-- At the end of the run over two methods of one name, the registry holds the name of the first. -/
theorem names_registry_twoTicks : ∃ symbols functions p,
    Reaches ⟨Document.twoTicks, {}, symbols⟩ functions p ∧
      functions.map FunctionDescriptor.handler = ["T.a"] ∧ Registered functions p ∧
      (functions.map FunctionDescriptor.name).Nodup := by
  obtain ⟨log, app, h, -, hfs⟩ := Document.analyze_twoTicks
  obtain ⟨symbols, functions, p, -, hx, -, rfl⟩ := Document.analyzeInto_ok.1 h
  have hreg := names_registry ⟨Document.twoTicks, {}, symbols⟩
  have hreach : Reaches ⟨Document.twoTicks, {}, symbols⟩ functions p :=
    .statements List.prefix_rfl hx
  exact ⟨symbols, functions, p, hreach, hfs, (hreg.1 functions p hreach).1,
    (hreg.2.2.2 [] log _ h).1⟩

end Scope

end AppManifest
