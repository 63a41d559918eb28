import AppManifest.Console.Literal.Number

namespace AppManifest.Console.Literal

structure QuoteStyle where
  /-- Whether it stands for bytes instead of characters. -/
  bytes : Bool
  /-- Whether a backslash stands for itself. -/
  raw : Bool
  deriving DecidableEq, Repr

/-- The styles by the letters that stand before the quote. -/
def quoteStyles : List (String × QuoteStyle) :=
  [("", ⟨false, false⟩), ("u", ⟨false, false⟩), ("r", ⟨false, true⟩), ("b", ⟨true, false⟩),
    ("br", ⟨true, true⟩), ("rb", ⟨true, true⟩)]

def quoteStyle? (letters : List Char) : Option QuoteStyle :=
  quoteStyles.lookup (String.ofList (letters.map Char.toLower))

def beginsWithHex (count : Nat) (s : List Char) : Bool :=
  (s.take count).length = count && (s.take count).all isHexDigit

/-- Whether a text begins with the name of a character in braces. -/
def beginsWithName : List Char → Bool
  | '\x7b' :: rest =>
    let isNamePart (c : Char) : Bool := c.isAlphanum || c = ' ' || c = '-'
    !(rest.takeWhile isNamePart).isEmpty && (rest.dropWhile isNamePart).head? = some '\x7d'
  | _ => false

/-- Whether a backslash may stand before a character that others follow. -/
def isEscape (style : QuoteStyle) (c : Char) (rest : List Char) : Bool :=
  if style.raw then true
  else if c = 'x' then beginsWithHex 2 rest
  else if style.bytes then true
  else if c = 'u' then beginsWithHex 4 rest
  else if c = 'U' then beginsWithHex 8 rest && valueOf 16 (rest.take 8) < 0x110000
  else if c = 'N' then beginsWithName rest
  else true

/-- What follows the end of a quoted text: one quote or, if tripled, three. -/
def afterQuote? (quote : Char) (tripled : Bool) : List Char → Option (List Char)
  | [] => none
  | c :: rest =>
    if c != quote then none
    else if !tripled then some rest
    else match rest with
      | d :: e :: rest => if d = quote && e = quote then some rest else none
      | _ => none

/-- What follows a quoted text, which begins after its opening quote. Only between tripled quotes
may it take more than one line. -/
def afterText? (style : QuoteStyle) (quote : Char) (tripled : Bool) :
    List Char → Option (List Char)
  | [] => none
  | c :: rest =>
    match afterQuote? quote tripled (c :: rest) with
    | some after => some after
    | none =>
      if style.bytes && 0x80 ≤ c.toNat then none
      else if c = '\n' && !tripled then none
      else if c = '\\' then
        match rest with
        | [] => none
        | d :: rest =>
          if isEscape style d rest && !(style.bytes && 0x80 ≤ d.toNat) then
            afterText? style quote tripled rest
          else none
      else afterText? style quote tripled rest

/-- What follows a quoted text, which begins after its first quote. That quote may be tripled; a
second one alone ends the text. -/
def afterQuotation? (style : QuoteStyle) (quote : Char) : List Char → Option (List Char)
  | c :: d :: rest =>
    if c = quote && d = quote then afterText? style quote true rest
    else if c = quote then some (d :: rest)
    else afterText? style quote false (c :: d :: rest)
  | s => afterText? style quote false s

theorem length_afterQuote? {quote : Char} {tripled : Bool} {s after : List Char}
    (h : afterQuote? quote tripled s = some after) : after.length < s.length := by
  unfold afterQuote? at h
  split at h
  · contradiction
  · split at h
    · contradiction
    · split at h
      · cases h
        simp
      · split at h
        · split at h
          · cases h
            simp only [List.length_cons]
            omega
          · contradiction
        · contradiction

theorem length_afterText? {style : QuoteStyle} {quote : Char} {tripled : Bool}
    {s after : List Char} (h : afterText? style quote tripled s = some after) :
    after.length < s.length := by
  fun_induction afterText? style quote tripled s with
  | case1 => contradiction
  | case2 c rest found hf =>
    cases h
    exact length_afterQuote? hf
  | case3 => contradiction
  | case4 => contradiction
  | case5 => contradiction
  | case6 =>
    rename_i ih
    have := ih h
    simp only [List.length_cons] at this ⊢
    omega
  | case7 => contradiction
  | case8 =>
    rename_i ih
    have := ih h
    simp only [List.length_cons] at this ⊢
    omega

theorem length_afterQuotation? {style : QuoteStyle} {quote : Char} {s after : List Char}
    (h : afterQuotation? style quote s = some after) : after.length < s.length := by
  unfold afterQuotation? at h
  split at h
  · split at h
    · have := length_afterText? h
      simp only [List.length_cons] at this ⊢
      omega
    · split at h
      · cases h
        simp
      · exact length_afterText? h
  · exact length_afterText? h

end AppManifest.Console.Literal
