import AppManifest.Proofs.Analysis.Completion

namespace AppManifest
set_option autoImplicit true

/-! Source that does not decode: every statement of the module is read before anything is reported,
and from then on only what stands in the statements. -/

namespace Document

/-- A character begins at an offset inside of a node, or the node ends there. -/
def IsBoundaryIn (d : Document) (m : Node) (offset : Int) : Prop :=
  0 ≤ offset ∧ offset ≤ d.source.size ∧ m.start ≤ offset ∧ offset ≤ m.stop ∧
    (offset = m.stop ∨
      ∃ h : offset.toNat < d.source.size, d.source[offset.toNat].IsUTF8FirstByte)

instance (d : Document) (m : Node) (offset : Int) : Decidable (d.IsBoundaryIn m offset) :=
  inferInstanceAs (Decidable (_ ∧ _ ∧ _ ∧ _ ∧ (_ ∨ _)))

/-- A statement that decodes is cut between characters by the nodes in it. -/
def CutsStatements (d : Document) : Prop :=
  ∀ c ∈ d.root.children, (d.bytes c).IsValidUTF8 →
    ∀ n, Node.Below n c → d.IsBoundaryIn c n.start ∧ d.IsBoundaryIn c n.stop

instance (d : Document) : Decidable d.CutsStatements :=
  inferInstanceAs (Decidable (∀ c ∈ d.root.children, _ → _))

variable {d : Document} {m n c token : Node}

theorem IsBoundaryIn.clamp_eq (h : d.IsBoundaryIn m offset) : d.clamp offset = offset.toNat := by
  have hnonneg := h.1
  have hle := h.2.1
  rw [clamp, if_neg (by omega), Nat.min_eq_left (by omega)]

/-- In a node a boundary is one of the bytes of that node. -/
theorem IsBoundaryIn.isCut (h : d.IsBoundaryIn m offset) (hstart : d.IsBoundaryIn m m.start)
    (hstop : d.IsBoundaryIn m m.stop) :
    IsCut (d.bytes m) (offset.toNat - m.start.toNat) := by
  rw [bytes, hstart.clamp_eq, hstop.clamp_eq]
  obtain ⟨-, -, hfirst, hlast, hoffset⟩ := h
  have hnonneg := hstart.1
  have hle := hstop.2.1
  have hsize : (d.source.extract m.start.toNat m.stop.toNat).size =
      m.stop.toNat - m.start.toNat := by
    rw [ByteArray.size_extract, Nat.min_eq_left (by omega)]
  -- the end of the node ends its bytes, whatever follows in the source
  by_cases hend : offset = m.stop
  · left
    rw [hsize, hend]
  · right
    obtain ⟨hlt, hcharacter⟩ := hoffset.resolve_left hend
    refine ⟨by omega, ?_⟩
    rw [ByteArray.getElem_extract]
    have heq : m.start.toNat + (offset.toNat - m.start.toNat) = offset.toNat := by omega
    simpa only [heq] using hcharacter

/-- Between boundaries in a node that decodes the text decodes, too. -/
theorem text_of_boundariesIn (hm : (d.bytes m).IsValidUTF8) (hmstart : d.IsBoundaryIn m m.start)
    (hmstop : d.IsBoundaryIn m m.stop) (hstart : d.IsBoundaryIn m n.start)
    (hstop : d.IsBoundaryIn m n.stop) : ∃ t, d.text n = .ok t := by
  apply text_of_isValid
  have h := isValidUTF8_extract hm (hstart.isCut hmstart hmstop) (hstop.isCut hmstart hmstop)
  rw [bytes, hmstart.clamp_eq, hmstop.clamp_eq, ByteArray.extract_extract] at h
  rw [bytes, hstart.clamp_eq, hstop.clamp_eq]
  obtain ⟨-, -, hfirst, -⟩ := hstart
  obtain ⟨-, -, hfirst', hlast', -⟩ := hstop
  have hleft : m.start.toNat + (n.start.toNat - m.start.toNat) = n.start.toNat := by omega
  have hright : min (m.start.toNat + (n.stop.toNat - m.start.toNat)) m.stop.toNat =
      n.stop.toNat := by omega
  rwa [hleft, hright] at h

/-- The statements of the module are read before the services are looked at. -/
theorem analyzeInto_undecodable (hc : c ∈ d.root.children) (h : ¬(d.bytes c).IsValidUTF8)
    (log : Log) (settings : Settings) :
    d.analyzeInto log settings = ⟨log, .error .undecodable⟩ := by
  have hpart : d.Part (fun _ => True) (· = .undecodable) :=
    ⟨fun _ _ _ _ => trivial, fun _ _ => ⟨fun _ => trivial, text_eq_undecodable⟩⟩
  cases ht : SymbolTable.ofDocument d with
  | error f =>
    cases (hpart.ofDocument fun _ _ => trivial).error ht
    rw [analyzeInto, ht]
  | ok symbols =>
    obtain ⟨b, hb⟩ := declaration_of_table ht hc
    obtain ⟨definition, hdefinition, -⟩ := bind_eq_ok.1 hb
    obtain ⟨k, hk, -⟩ := bind_eq_ok.1 hdefinition
    obtain ⟨t, htext, -⟩ := bind_eq_ok.1 hk
    exact absurd (isValid_of_text htext) h

section

variable (hd : d.Nested) (htokens : d.DeclaresByTokens) (hcuts : d.CutsStatements)
  (hvalid : ∀ c ∈ d.root.children, (d.bytes c).IsValidUTF8)

include hcuts hvalid

theorem text_inStatement (hn : d.InStatement n) : ∃ t, d.text n = .ok t := by
  obtain ⟨c, hc, hn⟩ := hn
  obtain ⟨hcstart, hcstop⟩ := hcuts c hc (hvalid c hc) c .refl
  obtain ⟨hstart, hstop⟩ := hcuts c hc (hvalid c hc) n hn
  exact text_of_boundariesIn (hvalid c hc) hcstart hcstop hstart hstop

/-- What stands in the statements decodes, whatever else may be wrong with it. -/
theorem markerPart_inStatement : d.MarkerPart d.InStatement (· ≠ .undecodable) where
  child _ hn _ hc := hn.child hc
  text n hn := by
    obtain ⟨t, ht⟩ := text_inStatement hcuts hvalid hn
    rw [ht]
    exact .pure trivial
  value _ _ _ _ _ := nofun
  expression _ _ _ _ := nofun
  services _ := nofun

include hd htokens

/-- A declared symbol leads back to its declaration, though the source around the statements need
not decode. -/
theorem locate?_inStatement (h : d.Declares n token s) : d.locate? s = some n := by
  have hchild := h.token_mem
  obtain ⟨c, hc, htoken⟩ := h.inStatement.child hchild
  obtain ⟨hstart, hstop⟩ := hcuts c hc (hvalid c hc) token htoken
  exact hd.locate? (h.has.child hchild) (htokens n token s h) hstart.1 hstop.2.1
    (Node.parent?_of_mem_children hchild) h.location_eq

theorem scopePart_inStatement {symbols : SymbolTable} (ht : SymbolTable.ofDocument d = .ok symbols)
    (settings : Settings) :
    Scope.Part ⟨d, settings, symbols⟩ d.InStatement (· ≠ .undecodable) where
  toMarkerPart := markerPart_inStatement hcuts hvalid
  located s hs n hn := by
    obtain ⟨n', token, h⟩ := declares_of_collected ht hs
    cases hn.symm.trans (locate?_inStatement hd htokens hcuts hvalid h)
    exact (markerPart_inStatement hcuts hvalid).kind h.inStatement

/-- The methods of a class stand in the statements of the module, with the nodes around them. -/
theorem method_inStatement {symbols : SymbolTable} {definition : Node}
    (ht : SymbolTable.ofDocument d = .ok symbols)
    (hs : s ∈ Scope.methodSymbols ⟨d, settings, symbols⟩ definition)
    (hn : d.locate? s = some n) :
    d.InStatement n ∧ ∀ l, n.parent? = some l → d.InStatement l := by
  obtain ⟨range, own, hclass, hmember⟩ := Scope.mem_methodSymbols hs
  obtain ⟨owner, token, body, howner, hk, hb, statement, hst, hmethod⟩ :=
    SymbolTable.method_of_members ht hclass hmember
  obtain ⟨n', token', hn', hk', ht', hs'⟩ := method?_eq_ok_some.1 hmethod
  have h : d.Declares n' token' s := .method howner hk hb hst hn' hk' ht' hs'
  cases hn.symm.trans (locate?_inStatement hd htokens hcuts hvalid h)
  refine ⟨h.inStatement, fun l hl => ?_⟩
  have hbody := howner.inStatement.field hb
  rcases hn'.parent hst hl with rfl | rfl
  · exact hbody.child hst
  · exact hbody

theorem analyzeInto_decodes (log : Log) (settings : Settings) :
    (d.analyzeInto log settings).result ≠ .error .undecodable := by
  have hpart := markerPart_inStatement hcuts hvalid
  cases ht : SymbolTable.ofDocument d with
  | error f =>
    rw [analyzeInto, ht]
    intro h
    cases h
    exact (hpart.ofDocument fun _ => inStatement_of_mem).error ht rfl
  | ok symbols =>
    obtain ⟨r, p, h⟩ := (Scope.analyzeStatements ⟨d, settings, symbols⟩ d.root.children).exists_ends
      (Scope.start ⟨d, settings, symbols⟩ log)
    cases r with
    | ok functions =>
      rw [analyzeInto_ok.2 ⟨symbols, functions, p, ht, h, rfl, rfl⟩]
      nofun
    | error e =>
      obtain ⟨f, rfl⟩ := Scope.analyzeStatements_error h
      have hscope := scopePart_inStatement hd htokens hcuts hvalid ht settings
      have hf := (Scope.stays_analyzeStatements hscope (fun _ => inStatement_of_mem)
        (fun _ _ _ _ _ _ => nofun)
        (fun _ _ _ hs _ hn _ => method_inStatement hd htokens hcuts hvalid ht hs hn)).fault h
      rw [analyzeInto_of_fault ht h]
      intro he
      cases he
      exact hf rfl

end

/-- A statement that does not decode ends the analysis before anything is reported. Where all
statements decode and are cut between characters, nothing that is read after them fails to decode,
not even what the table leads to; so no diagnostics are left behind by such a failure. -/
theorem undecodable_first (d : Document) (log : Log) (settings : Settings) :
    ((∃ c ∈ d.root.children, ¬(d.bytes c).IsValidUTF8) →
      d.analyzeInto log settings = ⟨log, .error .undecodable⟩) ∧
    (d.Nested → d.DeclaresByTokens → d.CutsStatements →
      (∀ c ∈ d.root.children, (d.bytes c).IsValidUTF8) →
        (d.analyzeInto log settings).result ≠ .error .undecodable) ∧
    (d.Nested → d.DeclaresByTokens → d.CutsStatements →
      (d.analyzeInto log settings).result = .error .undecodable →
        (d.analyzeInto log settings).log = log) := by
  refine ⟨?_, fun hd htokens hcuts hvalid => ?_, fun hd htokens hcuts hresult => ?_⟩
  · rintro ⟨c, hc, hinvalid⟩
    exact analyzeInto_undecodable hc hinvalid log settings
  · exact analyzeInto_decodes hd htokens hcuts hvalid log settings
  · by_cases hvalid : ∀ c ∈ d.root.children, (d.bytes c).IsValidUTF8
    · exact absurd hresult (analyzeInto_decodes hd htokens hcuts hvalid log settings)
    · push Not at hvalid
      obtain ⟨c, hc, hinvalid⟩ := hvalid
      rw [analyzeInto_undecodable hc hinvalid]

/-- The service with two methods of one name, with a byte that belongs to no character. -/
def tornTicks (i : Nat) : Document :=
  { twoTicks with source := twoTicks.source.set! i 0xff }

set_option maxRecDepth 100000 in
/-- A broken byte behind the class is never met, though the module as a whole does not decode; one
in a decorator of the class ends the analysis. -/
theorem undecodable_first_tornTicks :
    (tornTicks 91).Nested ∧ (tornTicks 91).DeclaresByTokens ∧ (tornTicks 91).CutsStatements ∧
      ¬((tornTicks 91).bytes (tornTicks 91).root).IsValidUTF8 ∧
      (∀ c ∈ (tornTicks 91).root.children, ((tornTicks 91).bytes c).IsValidUTF8) ∧
      ((tornTicks 91).analyzeInto [] {}).result ≠ .error .undecodable ∧
      (tornTicks 24).Nested ∧ (tornTicks 24).DeclaresByTokens ∧ (tornTicks 24).CutsStatements ∧
      (tornTicks 24).analyzeInto [] {} = ⟨[], .error .undecodable⟩ ∧
      ((tornTicks 24).analyzeInto [] {}).log = [] := by
  have hd {i} : (tornTicks i).Nested := ⟨wellFormed_twoTicks.nested, wellFormed_twoTicks.ordered⟩
  have htokens {i} : (tornTicks i).DeclaresByTokens := declaresByTokens_of_fields name_twoTicks
  have hcuts : (tornTicks 91).CutsStatements := by decide +kernel
  have hvalid : ∀ c ∈ (tornTicks 91).root.children, ((tornTicks 91).bytes c).IsValidUTF8 := by
    decide +kernel
  have hcuts' : (tornTicks 24).CutsStatements := by decide +kernel
  have hinvalid : ∃ c ∈ (tornTicks 24).root.children, ¬((tornTicks 24).bytes c).IsValidUTF8 := by
    decide +kernel
  obtain ⟨-, hdecodes, -⟩ := undecodable_first (tornTicks 91) [] {}
  obtain ⟨hundecodable, -, hlog⟩ := undecodable_first (tornTicks 24) [] {}
  have hrun := hundecodable hinvalid
  exact ⟨hd, htokens, hcuts, by decide +kernel, hvalid, hdecodes hd htokens hcuts hvalid,
    hd, htokens, hcuts', hrun, hlog hd htokens hcuts' (by rw [hrun])⟩

end Document

end AppManifest
