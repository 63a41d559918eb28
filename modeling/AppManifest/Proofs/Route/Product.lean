import AppManifest.Proofs.Route.Joining
import Mathlib.Algebra.BigOperators.Group.List.Basic

namespace AppManifest
set_option autoImplicit true

/-! Routes without slashes at their ends are a monoid, in which a joined route is a product. -/

namespace Text

/-- Characters of the class around a text do not change what is left when it is trimmed. -/
theorem trim_append (hbefore : ∀ c ∈ before, p c = true) (hafter : ∀ c ∈ after, p c = true)
    (s : List Char) : trim p (before ++ s ++ after) = trim p s := by
  have hreverse : ∀ c ∈ after.reverse, p c = true := fun c hc => hafter c (List.mem_reverse.1 hc)
  rw [trim, trim, List.append_assoc, List.dropWhile_append_of_pos hbefore, List.dropWhile_append]
  split
  next h => rw [List.dropWhile_eq_nil_iff.2 hafter, List.isEmpty_iff.1 h]
  next => rw [List.reverse_append, List.dropWhile_append_of_pos hreverse]

end Text

theorem dropWhile_slash_eq_self {s : List Char} (h : s.head? ≠ some '/') :
    s.dropWhile (· = '/') = s := by
  cases s with
  | nil => rfl
  | cons c rest =>
    refine List.dropWhile_cons_of_neg fun hc => h ?_
    rw [List.head?_cons, of_decide_eq_true hc]

theorem IsTrimmed.trimSlashes_eq (h : IsTrimmed s.toList) : trimSlashes s = s := by
  have hlast : s.toList.reverse.head? ≠ some '/' := by
    rw [List.head?_reverse]
    exact h.2
  rw [trimSlashes, Text.trim, dropWhile_slash_eq_self h.1, dropWhile_slash_eq_self hlast,
    List.reverse_reverse, String.ofList_toList]

/-- Two routes with a slash between them, unless one of them is empty. -/
def beside (a b : String) : String :=
  if a = "" then b else if b = "" then a else a ++ "/" ++ b

theorem beside_empty (a : String) : beside a "" = a := by
  unfold beside
  split
  next h => exact h.symm
  next => rfl

theorem joinRoute_cons (part : String) (parts : List String) :
    joinRoute (part :: parts) = beside (trimSlashes part) (joinRoute parts) := by
  unfold joinRoute beside
  rw [List.map_cons]
  by_cases hpart : trimSlashes part = ""
  · rw [if_pos hpart, List.filter_cons_of_neg (by simp [hpart])]
  · rw [if_neg hpart, List.filter_cons_of_pos (by simp [hpart])]
    have hrest : ∀ x ∈ (parts.map trimSlashes).filter fun p => p != "", x ≠ "" :=
      fun x hx => bne_iff_ne.1 (List.mem_filter.1 hx).2
    cases hs : (parts.map trimSlashes).filter fun p => p != "" with
    | nil => rw [String.intercalate_singleton, String.intercalate_nil, if_pos rfl]
    | cons x xs =>
      have hx : x.toList ≠ [] := mt String.toList_eq_nil_iff.1 (hrest x (hs ▸ List.mem_cons_self))
      have hjoined : "/".intercalate (x :: xs) ≠ "" := by
        rw [Ne, ← String.toList_eq_nil_iff, String.toList_intercalate, List.map_cons]
        exact intercalate_ne_nil hx _
      rw [if_neg hjoined, String.intercalate_cons_cons]

theorem trimmed_beside (ha : IsTrimmed a.toList) (hb : IsTrimmed b.toList) :
    IsTrimmed (beside a b).toList := by
  have h := trimmed_joinRoute [a, b]
  have hnil : joinRoute [] = "" := rfl
  rwa [joinRoute_cons, joinRoute_cons, ha.trimSlashes_eq, hb.trimSlashes_eq, hnil,
    beside_empty] at h

theorem beside_assoc (a b c : String) : beside (beside a b) c = beside a (beside b c) := by
  by_cases ha : a = ""
  · simp only [beside, if_pos ha]
  · by_cases hb : b = ""
    · subst hb
      rw [beside_empty]
      rfl
    · by_cases hc : c = ""
      · subst hc
        rw [beside_empty, beside_empty]
      · have hab : a ++ "/" ++ b ≠ "" := fun h => hb (String.append_eq_empty_iff.1 h).2
        have hbc : b ++ "/" ++ c ≠ "" := fun h => hc (String.append_eq_empty_iff.1 h).2
        simp only [beside, if_neg ha, if_neg hb, if_neg hc, if_neg hab, if_neg hbc]
        simp only [String.append_assoc]

/-- A route without a slash at either end. -/
@[ext] structure TrimmedRoute where
  text : String
  trimmed : IsTrimmed text.toList

namespace TrimmedRoute

def ofText (s : String) : TrimmedRoute := ⟨trimSlashes s, trimmed_trimSlashes s⟩

instance : Mul TrimmedRoute where
  mul r s := ⟨beside r.text s.text, trimmed_beside r.trimmed s.trimmed⟩

instance : One TrimmedRoute := ⟨⟨"", trimmed_joinRoute []⟩⟩

theorem text_mul (r s : TrimmedRoute) : (r * s).text = beside r.text s.text := rfl

instance : Monoid TrimmedRoute where
  mul_assoc r s t := TrimmedRoute.ext (beside_assoc r.text s.text t.text)
  one_mul _ := rfl
  mul_one r := TrimmedRoute.ext (beside_empty r.text)

/-- The route of several texts: each of them trimmed, one after the other. -/
def ofTexts (parts : List String) : TrimmedRoute := (parts.map ofText).prod

theorem ofTexts_append (ps qs : List String) : ofTexts (ps ++ qs) = ofTexts ps * ofTexts qs := by
  rw [ofTexts, List.map_append, List.prod_append]
  rfl

theorem ofTexts_cons (part : String) (parts : List String) :
    ofTexts (part :: parts) = ofText part * ofTexts parts := by
  rw [ofTexts, List.map_cons, List.prod_cons]
  rfl

theorem text_ofTexts (parts : List String) : (ofTexts parts).text = joinRoute parts := by
  induction parts with
  | nil => rfl
  | cons part parts ih => rw [ofTexts_cons, text_mul, ih, joinRoute_cons, ofText]

theorem ofText_text (r : TrimmedRoute) : ofText r.text = r :=
  TrimmedRoute.ext r.trimmed.trimSlashes_eq

theorem ofTexts_singleton (part : String) : ofTexts [part] = ofText part := List.prod_singleton

theorem ofText_trimSlashes (part : String) : ofText (trimSlashes part) = ofText part :=
  ofText_text (ofText part)

/-- A joined route counts as the routes that it is joined from. -/
theorem ofText_joinRoute (parts : List String) : ofText (joinRoute parts) = ofTexts parts := by
  rw [← text_ofTexts, ofText_text]

theorem joinRoute_congr (h : ofTexts ps = ofTexts qs) : joinRoute ps = joinRoute qs := by
  rw [← text_ofTexts, h, text_ofTexts]

/-- A text of slashes. -/
def slashes (n : Nat) : String := String.ofList (List.replicate n '/')

theorem ofText_slashes_append (m n : Nat) (part : String) :
    ofText (slashes m ++ part ++ slashes n) = ofText part := by
  have hslashes : ∀ k, ∀ c ∈ List.replicate k '/', decide (c = '/') = true :=
    fun k c hc => decide_eq_true (List.eq_of_mem_replicate hc)
  apply TrimmedRoute.ext
  simp only [ofText, trimSlashes, slashes, String.toList_append, String.toList_ofList,
    Text.trim_append (hslashes m) (hslashes n)]

theorem ofText_slashes (n : Nat) : ofText (slashes n) = 1 := by
  have h := ofText_slashes_append n 0 ""
  rwa [String.append_empty, show slashes 0 = "" from rfl, String.append_empty] at h

end TrimmedRoute

open TrimmedRoute

/-- Trimmed routes are a monoid, and the route that texts join to is the product of what they are
when trimmed. So slashes around a text do not matter, a text of slashes is left out, and a joined
route is in a list as good as the texts that it is joined from. -/
theorem joinRoute_product :
    (∀ ps, joinRoute ps = (ps.map TrimmedRoute.ofText).prod.text) ∧
      (∀ ps, IsTrimmed (joinRoute ps).toList) ∧
      (∀ ps qs n, joinRoute (ps ++ slashes n :: qs) = joinRoute (ps ++ qs)) ∧
      (∀ ps part qs, joinRoute (ps ++ trimSlashes part :: qs) = joinRoute (ps ++ part :: qs)) ∧
      (∀ ps part qs m n, joinRoute (ps ++ (slashes m ++ part ++ slashes n) :: qs) =
        joinRoute (ps ++ part :: qs)) ∧
      (∀ ps, joinRoute [joinRoute ps] = joinRoute ps) ∧
      ∀ ps qs rs, joinRoute (ps ++ [joinRoute qs] ++ rs) = joinRoute (ps ++ qs ++ rs) := by
  refine ⟨fun ps => (text_ofTexts ps).symm, trimmed_joinRoute, fun ps qs n => ?_,
    fun ps part qs => ?_, fun ps part qs m n => ?_, fun ps => ?_, fun ps qs rs => ?_⟩
  · apply joinRoute_congr
    rw [ofTexts_append, ofTexts_append, ofTexts_cons, ofText_slashes, one_mul]
  · apply joinRoute_congr
    rw [ofTexts_append, ofTexts_append, ofTexts_cons, ofTexts_cons, ofText_trimSlashes]
  · apply joinRoute_congr
    rw [ofTexts_append, ofTexts_append, ofTexts_cons, ofTexts_cons, ofText_slashes_append]
  · apply joinRoute_congr
    rw [ofTexts_singleton, ofText_joinRoute]
  · apply joinRoute_congr
    simp only [ofTexts_append, ofTexts_singleton, ofText_joinRoute]

/-- Slashes inside a part stay as they are. -/
example : joinRoute ["/a/", "//", "b//c"] = "a/b//c" := by decide

end AppManifest
