import AppManifest.Analysis.Function

namespace AppManifest

def IsLetter (c : Char) : Prop :=
  'A' ≤ c ∧ c ≤ 'Z' ∨ 'a' ≤ c ∧ c ≤ 'z'

/-- A letter, then at most 127 letters, digits, underscores and hyphens. -/
def IsFunctionName (name : String) : Prop :=
  ∃ first rest, name.toList = first :: rest ∧ IsLetter first ∧
    (∀ c ∈ rest, IsLetter c ∨ ('0' ≤ c ∧ c ≤ '9') ∨ c = '_' ∨ c = '-') ∧ rest.length ≤ 127

theorem isLetter_iff (c : Char) : c.isAlpha = true ↔ IsLetter c := by
  have hupper : c.isUpper = true ↔ 'A' ≤ c ∧ c ≤ 'Z' := decide_eq_true_iff
  have hlower : c.isLower = true ↔ 'a' ≤ c ∧ c ≤ 'z' :=
    (Bool.and_eq_true_iff).trans (and_congr decide_eq_true_iff decide_eq_true_iff)
  exact Bool.or_eq_true_iff.trans (or_congr hupper hlower)

theorem isDigit_iff (c : Char) : c.isDigit = true ↔ '0' ≤ c ∧ c ≤ '9' :=
  (Bool.and_eq_true_iff).trans (and_congr decide_eq_true_iff decide_eq_true_iff)

theorem isNameChar_iff (c : Char) :
    isNameChar c = true ↔ IsLetter c ∨ ('0' ≤ c ∧ c ≤ '9') ∨ c = '_' ∨ c = '-' := by
  have halphanum : c.isAlphanum = true ↔ IsLetter c ∨ '0' ≤ c ∧ c ≤ '9' :=
    Bool.or_eq_true_iff.trans (or_congr (isLetter_iff c) (isDigit_iff c))
  simp only [isNameChar, Bool.or_eq_true, halphanum, decide_eq_true_eq, or_assoc]

theorem isFunctionName_iff (name : String) : isFunctionName name = true ↔ IsFunctionName name := by
  unfold isFunctionName IsFunctionName
  split
  next h => simp [h]
  next first rest h =>
    simp only [h, Bool.and_eq_true, List.all_eq_true, isLetter_iff, isNameChar_iff,
      decide_eq_true_eq, List.cons.injEq, and_assoc]
    constructor
    · rintro ⟨hf, hr, hl⟩
      exact ⟨first, rest, rfl, rfl, hf, hr, hl⟩
    · rintro ⟨_, _, rfl, rfl, hf, hr, hl⟩
      exact ⟨hf, hr, hl⟩

end AppManifest
