namespace AppManifest.Console

def isTagStart (c : Char) : Bool :=
  ('a' ≤ c && c ≤ 'z') || c = '#' || c = '/' || c = '@'

/-- The characters before a closing bracket and those after it; no bracket may open between. -/
def untilBracket : List Char → Option (List Char × List Char)
  | [] => none
  | ']' :: rest => some ([], rest)
  | '[' :: _ => none
  | c :: rest => (untilBracket rest).map fun (body, after) => (c :: body, after)

/-- The inside of a tag after its opening bracket, and what follows the tag. -/
def tagBody? : List Char → Option (List Char × List Char)
  | [] => none
  | c :: rest =>
    if isTagStart c then (untilBracket rest).map fun (body, after) => (c :: body, after) else none

structure TagMatch where
  backslashes : Nat
  body : List Char
  after : List Char

/-- The tag that a text begins with, after any backslashes. -/
def tagAt? (s : List Char) : Option TagMatch :=
  match s.dropWhile (· = '\\') with
  | '[' :: rest =>
    (tagBody? rest).map fun (body, after) => ⟨(s.takeWhile (· = '\\')).length, body, after⟩
  | _ => none

theorem length_untilBracket {s body after : List Char}
    (h : untilBracket s = some (body, after)) : after.length < s.length := by
  fun_induction untilBracket s generalizing body with
  | case1 => contradiction
  | case2 rest =>
    cases h
    simp
  | case3 => contradiction
  | case4 c rest _ _ ih =>
    obtain ⟨⟨b, a⟩, hba, he⟩ := Option.map_eq_some_iff.1 h
    cases he
    exact Nat.lt_succ_of_lt (ih hba)

theorem length_tagBody? {s body after : List Char} (h : tagBody? s = some (body, after)) :
    after.length < s.length := by
  cases s with
  | nil => contradiction
  | cons c rest =>
    simp only [tagBody?] at h
    split at h
    · obtain ⟨⟨b, a⟩, hba, he⟩ := Option.map_eq_some_iff.1 h
      cases he
      exact Nat.lt_succ_of_lt (length_untilBracket hba)
    · contradiction

theorem length_tagAt? {s : List Char} {m : TagMatch} (h : tagAt? s = some m) :
    m.after.length < s.length := by
  unfold tagAt? at h
  have hs := (List.dropWhile_sublist (l := s) (· = '\\')).length_le
  split at h
  · next rest hr =>
    obtain ⟨⟨b, a⟩, hba, he⟩ := Option.map_eq_some_iff.1 h
    cases he
    have := length_tagBody? hba
    rw [hr] at hs
    simp only [List.length_cons] at hs
    simp only
    omega
  · contradiction

inductive Token
  | char (c : Char)
  | tag (backslashes : Nat) (body : List Char)

/-- The tags of a text and the characters around them. -/
def tokens (s : List Char) : List Token :=
  match h : tagAt? s with
  | some m =>
    have := length_tagAt? h
    .tag m.backslashes m.body :: tokens m.after
  | none =>
    match s with
    | [] => []
    | c :: rest => .char c :: tokens rest
termination_by s.length

/-- How a token is written so that it prints as it is. -/
def Token.escaped : Token → List Char
  | char c => [c]
  | tag n body => List.replicate (2 * n + 1) '\\' ++ '[' :: body ++ [']']

/-- The text with its tags escaped; a single backslash at the end is doubled. -/
def escape (s : String) : String :=
  let escaped := (tokens s.toList).flatMap Token.escaped
  let single := match escaped.reverse with
    | '\\' :: '\\' :: _ => false
    | '\\' :: _ => true
    | _ => false
  String.ofList (if single then escaped ++ ['\\'] else escaped)

end AppManifest.Console
