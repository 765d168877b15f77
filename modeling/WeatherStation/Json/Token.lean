import WeatherStation.Text.Real

/-!
# JSON tokens

The tokens of a JSON text by RFC 8259: structural marks, strings, numbers and the three names.
Blanks between tokens are dropped.

* `Scanner.step`: one character of the text.
* `Token.ofText?`: all tokens of a text, if every one is well formed.
-/

namespace WeatherStation.Json

open Text

/-- A token of a JSON text. -/
inductive Token where
  | openArray
  | closeArray
  | openObject
  | closeObject
  | colon
  | comma
  | null
  | bool (b : Bool)
  | number (n : Numeral)
  /-- A string; it has no text if it holds half of a surrogate pair. It is `verbatim` if it holds no
      escapes. -/
  | str (text : Option String) (verbatim : Bool)

/-- The four blanks of JSON. -/
def isSpace (c : Char) : Bool := c == ' ' || c == '\t' || c == '\n' || c == '\r'

/-- The token of a structural mark. -/
def Token.mark? : Char → Option Token
  | '[' => some .openArray
  | ']' => some .closeArray
  | '{' => some .openObject
  | '}' => some .closeObject
  | ':' => some .colon
  | ',' => some .comma
  | _ => none

/-! ## Numbers -/

/-- The leading digits of a text and the rest. -/
def splitDigits (s : List Char) : List Char × List Char :=
  s.span fun c => (digit? c).isSome

/-- The number that digits name. -/
def digitsValue (s : List Char) : Nat := s.foldl (fun n c => 10 * n + (digit? c).getD 0) 0

/-- The exponent of a number: nothing, or `e` or `E`, an optional sign and digits. -/
def exponent? : List Char → Option Int
  | [] => some 0
  | c :: rest =>
    if c ≠ 'e' ∧ c ≠ 'E' then none
    else
      let (sign, digits) : Int × List Char := match rest with
        | '+' :: digits => (1, digits)
        | '-' :: digits => (-1, digits)
        | digits => (1, digits)
      if digits.isEmpty ∨ digits.any (fun c => (digit? c).isNone) then none
      else some (sign * digitsValue digits)

/-- The number that a word names: an optional minus sign, digits without leading zeros, an optional
    fraction and an optional exponent. -/
def numeral? (word : List Char) : Option Numeral := do
  let (negative, unsigned) : Bool × List Char := match word with
    | '-' :: rest => (true, rest)
    | s => (false, s)
  let (whole, rest) := splitDigits unsigned
  guard (whole = ['0'] ∨ (whole ≠ [] ∧ whole.head? ≠ some '0'))
  let (fraction, rest, pointed) ← match rest with
    | '.' :: rest =>
      let (fraction, rest) := splitDigits rest
      if fraction.isEmpty then none else some (fraction, rest, true)
    | rest => some ([], rest, false)
  let exponent ← exponent? rest
  return ⟨negative, digitsValue (whole ++ fraction), exponent - fraction.length,
    !pointed && rest.isEmpty⟩

/-- The token that a word of letters, digits and signs names. -/
def Token.ofWord? (word : List Char) : Option Token :=
  if word = ['n', 'u', 'l', 'l'] then some .null
  else if word = ['t', 'r', 'u', 'e'] then some (.bool true)
  else if word = ['f', 'a', 'l', 's', 'e'] then some (.bool false)
  else (numeral? word).map .number

/-! ## Strings -/

/-- The character that a one-letter escape stands for. -/
def escape? : Char → Option Char
  | '"' => some '"'
  | '\\' => some '\\'
  | '/' => some '/'
  | 'b' => some '\x08'
  | 'f' => some '\x0c'
  | 'n' => some '\n'
  | 'r' => some '\r'
  | 't' => some '\t'
  | _ => none

/-- The number that four hexadecimal digits name. -/
def fourHex? (a b c d : Char) : Option Nat := do
  return 4096 * (← hexDigit? a) + 256 * (← hexDigit? b) + 16 * (← hexDigit? c) + (← hexDigit? d)

/-- The UTF-16 units and characters between the quotes of a string; escapes of four hexadecimal
    digits stand for units. Control characters have to be escaped. -/
def units? : List Char → Option (List (Nat ⊕ Char))
  | [] => some []
  | '\\' :: 'u' :: a :: b :: c :: d :: rest => do
    return .inl (← fourHex? a b c d) :: (← units? rest)
  | '\\' :: c :: rest => do return .inr (← escape? c) :: (← units? rest)
  | c :: rest =>
    if c = '\\' ∨ c.toNat < 0x20 then none else (units? rest).map (.inr c :: ·)

/-- The text of units and characters, unless half of a surrogate pair is left over. -/
def text? : List (Nat ⊕ Char) → Option (List Char)
  | [] => some []
  | .inr c :: rest => (text? rest).map (c :: ·)
  | .inl u :: .inl v :: rest =>
    if 0xD800 ≤ u ∧ u < 0xDC00 then
      if 0xDC00 ≤ v ∧ v < 0xE000 then
        (text? rest).map (Char.ofNat (0x10000 + (u - 0xD800) * 0x400 + (v - 0xDC00)) :: ·)
      else none
    else if 0xDC00 ≤ u ∧ u < 0xE000 then none
    else (text? (.inl v :: rest)).map (Char.ofNat u :: ·)
  | .inl u :: rest =>
    if 0xD800 ≤ u ∧ u < 0xE000 then none else (text? rest).map (Char.ofNat u :: ·)

/-- The token of the characters between two quotes. -/
def Token.ofQuoted? (s : List Char) : Option Token :=
  (units? s).map fun units => .str ((text? units).map String.ofList) (!s.contains '\\')

/-! ## Scanning -/

/-- What the scanner is in the midst of, with the characters of it in reverse order. -/
inductive Within where
  | nothing
  | word (reversed : List Char)
  | quotes (reversed : List Char)
  /-- Inside quotes, right after a backslash. -/
  | escape (reversed : List Char)

/-- The scanner: what it is in the midst of, and the tokens before it in reverse order. -/
structure Scanner where
  within : Within
  tokens : List Token

namespace Scanner

/-- Takes a character that stands between tokens, or starts one. -/
def start (tokens : List Token) (c : Char) : Scanner :=
  if isSpace c then ⟨.nothing, tokens⟩
  else if c = '"' then ⟨.quotes [], tokens⟩
  else match Token.mark? c with
    | some t => ⟨.nothing, t :: tokens⟩
    | none => ⟨.word [c], tokens⟩

/-- Takes the next character of the text. -/
def step (s : Scanner) (c : Char) : Option Scanner :=
  match s.within with
  | .nothing => some (start s.tokens c)
  | .word w =>
    if isSpace c ∨ c = '"' ∨ (Token.mark? c).isSome then do
      return start ((← Token.ofWord? w.reverse) :: s.tokens) c
    else some ⟨.word (c :: w), s.tokens⟩
  | .quotes q =>
    if c = '"' then do return ⟨.nothing, (← Token.ofQuoted? q.reverse) :: s.tokens⟩
    else if c = '\\' then some ⟨.escape (c :: q), s.tokens⟩
    else some ⟨.quotes (c :: q), s.tokens⟩
  | .escape q => some ⟨.quotes (c :: q), s.tokens⟩

/-- The tokens at the end of the text, unless a string is left open. -/
def finish? (s : Scanner) : Option (List Token) :=
  match s.within with
  | .nothing => some s.tokens.reverse
  | .word w => do return ((← Token.ofWord? w.reverse) :: s.tokens).reverse
  | .quotes _ => none
  | .escape _ => none

end Scanner

/-- The tokens of a text. -/
def Token.ofText? (text : List Char) : Option (List Token) := do
  (← text.foldlM Scanner.step ⟨.nothing, []⟩).finish?

end WeatherStation.Json
