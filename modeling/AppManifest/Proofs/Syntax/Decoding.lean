import AppManifest.Proofs.Syntax.Members
import AppManifest.Proofs.Syntax.Part

namespace AppManifest
set_option autoImplicit true

/-! Documents all of whose nodes can be read: every text decodes, every keyword argument has a value
and every decorator names something. -/

/-- These kinds have one type each, that of their name. -/
theorem SyntaxKind.eq_name_of_ofType {type : String} {k : SyntaxKind} (h : ofType type = k)
    (hk : k ∈ [keywordArgument, decorator, comment]) : type = k.name := by
  unfold ofType at h
  split at h <;> subst h <;> first | rfl | exact absurd hk (by decide)

/-- A character begins at an index of some bytes, or they end there. -/
def IsCut (bytes : ByteArray) (i : Nat) : Prop :=
  i = bytes.size ∨ ∃ h : i < bytes.size, bytes[i].IsUTF8FirstByte

theorem IsCut.le_size (h : IsCut bytes i) : i ≤ bytes.size := by
  obtain he | ⟨hlt, -⟩ := h
  · omega
  · omega

theorem IsCut.isValid (h : IsCut bytes i) (hs : bytes.IsValidUTF8) :
    String.Pos.Raw.IsValid ⟨bytes, hs⟩ ⟨i⟩ := by
  rw [String.Pos.Raw.isValid_iff_isUTF8FirstByte]
  obtain he | hfirst := h
  · exact .inl (String.Pos.Raw.ext he)
  · exact .inr hfirst

/-- Between characters UTF-8 can be cut into UTF-8. -/
theorem isValidUTF8_extract (hs : bytes.IsValidUTF8) (hi : IsCut bytes i) (hj : IsCut bytes j) :
    (bytes.extract i j).IsValidUTF8 := by
  by_cases hle : i ≤ j
  · exact (String.Pos.Raw.isValidUTF8_extract_iff (s := ⟨bytes, hs⟩) ⟨i⟩ ⟨j⟩ hle hj.le_size).2
      (.inr ⟨hi.isValid hs, hj.isValid hs⟩)
  · have hempty : bytes.extract i j = .empty := by
      rw [ByteArray.extract_eq_empty_iff]
      omega
    rw [hempty]
    exact ByteArray.isValidUTF8_empty

namespace Document

/-- A character of the source starts at an offset, or the source ends there. -/
def IsBoundary (d : Document) (offset : Int) : Prop :=
  0 ≤ offset ∧ (offset = d.source.size ∨
    ∃ h : offset.toNat < d.source.size, d.source[offset.toNat].IsUTF8FirstByte)

instance (d : Document) (offset : Int) : Decidable (d.IsBoundary offset) :=
  inferInstanceAs (Decidable (_ ∧ (_ ∨ _)))

/-- The source is UTF-8 and cut by the nodes between characters; a keyword argument has a value, and
a decorator a child that is neither a comment nor the at sign. -/
structure Readable (d : Document) : Prop where
  source : d.source.IsValidUTF8
  boundaries : ∀ n, d.Has n → d.IsBoundary n.start ∧ d.IsBoundary n.stop
  values : ∀ n, d.Has n → n.type = "keyword_argument" → (n.field? "value").isSome = true
  expressions : ∀ n, d.Has n → n.type = "decorator" →
    ∃ c ∈ n.children, c.type ≠ "comment" ∧ d.text c ≠ .ok "@"

variable {d : Document} {n : Node}

theorem IsBoundary.le_size (h : d.IsBoundary offset) : offset.toNat ≤ d.source.size := by
  obtain ⟨-, he | ⟨hlt, -⟩⟩ := h
  · omega
  · omega

theorem IsBoundary.clamp_eq (h : d.IsBoundary offset) : d.clamp offset = offset.toNat := by
  have hle := h.le_size
  have hneg : ¬offset < 0 := by
    have h0 := h.1
    omega
  rw [clamp, if_neg hneg, Nat.min_eq_left hle]

theorem IsBoundary.isCut (h : d.IsBoundary offset) : IsCut d.source offset.toNat := by
  obtain ⟨-, he | hfirst⟩ := h
  · left
    omega
  · exact .inr hfirst

theorem text_of_isValid (h : (d.bytes n).IsValidUTF8) : ∃ t, d.text n = .ok t := by
  refine ⟨String.fromUTF8 (d.bytes n) h, ?_⟩
  rw [text, String.fromUTF8?, dif_pos h]

theorem text_eq_undecodable (h : d.text n = .error f) : f = .undecodable := by
  unfold text at h
  split at h
  next => cases h
  next =>
    cases h
    rfl

theorem isValid_of_text (h : d.text n = .ok t) : (d.bytes n).IsValidUTF8 := by
  by_contra hvalid
  rw [text, String.fromUTF8?, dif_neg hvalid] at h
  cases h

/-- The text between two boundaries of a UTF-8 source decodes. -/
theorem text_of_boundaries (hs : d.source.IsValidUTF8) (hstart : d.IsBoundary n.start)
    (hstop : d.IsBoundary n.stop) : ∃ t, d.text n = .ok t := by
  apply text_of_isValid
  rw [bytes, hstart.clamp_eq, hstop.clamp_eq]
  exact isValidUTF8_extract hs hstart.isCut hstop.isCut

theorem Readable.text (hd : d.Readable) (hn : d.Has n) : ∃ t, d.text n = .ok t :=
  text_of_boundaries hd.source (hd.boundaries n hn).1 (hd.boundaries n hn).2

theorem Readable.kind (hd : d.Readable) (hn : d.Has n) : ∃ k, d.kind n = .ok k := by
  obtain ⟨t, ht⟩ := hd.text hn
  rw [Document.kind, ht]
  exact ⟨_, rfl⟩

theorem type_of_kind {k : SyntaxKind} (h : d.kind n = .ok k)
    (hk : k ∈ [SyntaxKind.keywordArgument, .decorator, .comment]) : n.type = k.name := by
  have hstring : k ≠ .stringLiteral ∧ k ≠ .templateString :=
    ⟨ne_of_mem_of_not_mem hk (by decide), ne_of_mem_of_not_mem hk (by decide)⟩
  have hinteger : k ≠ .decimalIntegerLiteral ∧ k ≠ .other :=
    ⟨ne_of_mem_of_not_mem hk (by decide), ne_of_mem_of_not_mem hk (by decide)⟩
  exact SyntaxKind.eq_name_of_ofType (ofType_of_kind h hstring hinteger) hk

theorem Readable.decoratorExpression (hd : d.Readable) {cs : List Node}
    (hcs : ∀ c ∈ cs, d.Has c) (he : ∃ c ∈ cs, c.type ≠ "comment" ∧ d.text c ≠ .ok "@") :
    d.decoratorExpression cs ≠ .error .emptyDecorator := by
  induction cs with
  | nil =>
    obtain ⟨c, hc, -⟩ := he
    cases hc
  | cons c cs ih =>
    obtain ⟨hc, hcs⟩ := List.forall_mem_cons.1 hcs
    obtain ⟨t, ht⟩ := hd.text hc
    obtain ⟨k, hk⟩ := hd.kind hc
    simp only [Document.decoratorExpression, hk, ht, ok_bind]
    split
    next hskip =>
      obtain ⟨e, hmem, hcomment, hat⟩ := he
      rcases List.mem_cons.1 hmem with rfl | hmem
      · rcases hskip with rfl | rfl
        · exact absurd (type_of_kind hk (by decide)) hcomment
        · exact absurd ht hat
      · exact ih hcs ⟨e, hmem, hcomment, hat⟩
    next =>
      intro hempty
      cases hempty

/-- Reading the nodes of such a document meets no fault. -/
theorem Readable.part (hd : d.Readable) (hF : F .emptyDecorator → F .emptyServiceDecorator) :
    d.MarkerPart d.Has F where
  child _ hn _ hc := hn.child hc
  text n hn := by
    obtain ⟨t, ht⟩ := hd.text hn
    rw [ht]
    exact .pure trivial
  value n hn hk hv := by
    have h := hd.values n hn (type_of_kind hk (by decide))
    rw [hv] at h
    cases h
  expression n hn hk he := by
    have h := hd.expressions n hn (type_of_kind hk (by decide))
    exact absurd he (hd.decoratorExpression (fun c hc => hn.child hc) h)
  services := hF

set_option maxRecDepth 100000 in
theorem readable_twoTicks : twoTicks.Readable where
  source := String.isValidUTF8 _
  boundaries := by decide +kernel
  values := by decide +kernel
  expressions := by decide +kernel

end Document

end AppManifest
