import AppManifest.Console.Literal.Quotation

namespace AppManifest.Console.Literal

inductive Token
  | number (n : Number)
  | text (bytes : Bool)
  /-- A value with a name of its own. -/
  | constant
  /-- The name of the function that makes an empty set. -/
  | setName
  | sign
  | comma
  | colon
  | opening (bracket : Char)
  | closing (bracket : Char)
  | newLine
  /-- The end of a line that an indented one follows. -/
  | indentedLine
  deriving DecidableEq, Repr

def singleTokens : List (Char × Token) :=
  [('+', .sign), ('-', .sign), (',', .comma), (':', .colon), ('(', .opening '('),
    (')', .closing '('), ('\x7b', .opening '\x7b'), ('\x7d', .closing '\x7b')]

def wordTokens : List (String × Token) :=
  [("True", .constant), ("False", .constant), ("None", .constant), ("...", .constant),
    ("set", .setName)]

/-- The blanks between the tokens of a line. -/
def isGap (c : Char) : Bool :=
  c = ' ' || c = '\t' || c = '\x0c'

/-- The token for the end of a line before others. Neither an empty line nor a comment is
indented, and a form feed takes the indentation back. -/
def lineEnd (indented : Bool) : List Char → Token
  | [] => .newLine
  | '\\' :: '\n' :: rest => lineEnd indented rest
  | c :: rest =>
    if c = '\x0c' then lineEnd false rest
    else if isGap c then lineEnd true rest
    else if indented && c != '#' && c != '\n' then .indentedLine
    else .newLine

/-- The characters of words, and of numbers up to the sign of an exponent. -/
def isWordPart (c : Char) : Bool :=
  c.isAlphanum || c = '_'

def isNumberPart (c : Char) : Bool :=
  isWordPart c || c = '.'

/-- Whether a sign may go on with a number: an exponent mark comes before it. -/
def awaitsSign : List Char → Bool
  | '0' :: c :: rest => c.toLower != 'x' && ((c :: rest).getLast?.any isExponentMark)
  | s => s.getLast?.any isExponentMark

/-- The characters that may be a number, and what follows them. -/
def spanNumber (s : List Char) : List Char × List Char :=
  let body := s.takeWhile isNumberPart
  match s.dropWhile isNumberPart with
  | [] => (body, [])
  | c :: rest =>
    if (c = '+' || c = '-') && awaitsSign body then
      (body ++ c :: rest.takeWhile isNumberPart, rest.dropWhile isNumberPart)
    else (body, c :: rest)

def wordToken? (first : Char) (rest : List Char) : Option (Token × List Char) :=
  let word := first :: rest.takeWhile isWordPart
  match rest.dropWhile isWordPart, quoteStyle? word with
  | quote :: after, some style =>
    if quote = '\'' || quote = '"' then
      (afterQuotation? style quote after).map fun after => (.text style.bytes, after)
    else none
  | after, _ => (wordTokens.lookup (String.ofList word)).map fun t => (t, after)

def numberToken? (s : List Char) : Option (Token × List Char) :=
  let found := spanNumber s
  match wordTokens.lookup (String.ofList found.1), number? found.1 with
  | some t, _ => some (t, found.2)
  | none, some n => some (.number n, found.2)
  | none, none => none

/-- Takes a token, blanks or a comment from the beginning of a text. -/
def take? : List Char → Option (Option Token × List Char)
  | [] => none
  | c :: rest =>
    if isGap c then some (none, rest)
    else if c = '\n' then some (some (lineEnd false rest), rest)
    else if c = '#' then some (none, rest.dropWhile (· != '\n'))
    else if c = '\\' then if rest.head? = some '\n' then some (none, rest.drop 1) else none
    else if c = '\'' || c = '"' then
      (afterQuotation? ⟨false, false⟩ c rest).map fun after => (some (.text false), after)
    else if c.isDigit || c = '.' then
      (numberToken? (c :: rest)).map fun (t, after) => (some t, after)
    else if isWordPart c then (wordToken? c rest).map fun (t, after) => (some t, after)
    else (singleTokens.lookup c).map fun t => (some t, rest)

theorem length_dropWhile_le (p : Char → Bool) (s : List Char) :
    (s.dropWhile p).length ≤ s.length :=
  (List.dropWhile_sublist p).length_le

theorem length_spanNumber {c : Char} (rest : List Char) (h : isNumberPart c) :
    (spanNumber (c :: rest)).2.length < (c :: rest).length := by
  have hr := length_dropWhile_le isNumberPart rest
  unfold spanNumber
  rw [List.dropWhile_cons_of_pos h]
  split
  · simp
  · next d more hd =>
    have hm := length_dropWhile_le isNumberPart more
    rw [hd, List.length_cons] at hr
    dsimp only
    split
    · simp only [List.length_cons]
      omega
    · simp only [List.length_cons]
      omega

theorem length_wordToken? {c : Char} {rest after : List Char} {t : Token}
    (h : wordToken? c rest = some (t, after)) : after.length ≤ rest.length := by
  have hr := length_dropWhile_le isWordPart rest
  unfold wordToken? at h
  dsimp only at h
  split at h
  · next quote more style hq _ =>
    split at h
    · obtain ⟨a, ha, he⟩ := Option.map_eq_some_iff.1 h
      cases he
      have := length_afterQuotation? ha
      rw [hq, List.length_cons] at hr
      omega
    · contradiction
  · next _ _ _ =>
    obtain ⟨a, ha, he⟩ := Option.map_eq_some_iff.1 h
    cases he
    exact hr

theorem length_take? {s after : List Char} {t : Option Token} (h : take? s = some (t, after)) :
    after.length < s.length := by
  unfold take? at h
  split at h
  · contradiction
  · next c rest =>
    have hr := length_dropWhile_le (· != '\n') rest
    rw [List.length_cons]
    split at h
    · cases h
      omega
    split at h
    · cases h
      omega
    split at h
    · cases h
      omega
    split at h
    · split at h
      · cases h
        rw [List.length_drop]
        omega
      · contradiction
    split at h
    · obtain ⟨a, ha, he⟩ := Option.map_eq_some_iff.1 h
      cases he
      have := length_afterQuotation? ha
      omega
    split at h
    · next hc =>
      obtain ⟨⟨t, a⟩, ha, he⟩ := Option.map_eq_some_iff.1 h
      cases he
      have hp : isNumberPart c := by
        simp only [isNumberPart, isWordPart, Char.isAlphanum, Bool.or_eq_true] at hc ⊢
        grind
      have hl := length_spanNumber rest hp
      unfold numberToken? at ha
      dsimp only at ha
      split at ha <;> cases ha <;> exact hl
    split at h
    · obtain ⟨⟨t, a⟩, ha, he⟩ := Option.map_eq_some_iff.1 h
      cases he
      have := length_wordToken? ha
      omega
    · obtain ⟨a, ha, he⟩ := Option.map_eq_some_iff.1 h
      cases he
      omega

/-- The tokens of a text; none where some part of it is no token. -/
def tokens? (s : List Char) : Option (List Token) :=
  match s with
  | [] => some []
  | c :: rest =>
    match h : take? (c :: rest) with
    | none => none
    | some (t, after) =>
      have := length_take? h
      (tokens? after).map (t.toList ++ ·)
termination_by s.length
decreasing_by assumption

end AppManifest.Console.Literal
