import Homestead.Document

/-!
# The tokens of a document

The text of a document is a sequence of tokens: marks, quoted texts and bare words, with blanks
around them. A bare word is `null`, `true`, `false` or a numeral.

A numeral is an integer only if it has neither a fraction nor an exponent: `1.0` and `1e3` are
decimals, whatever their value. So are `-0` and the integers that do not fit into 64 bits.
-/

namespace Homestead

/-- A token of the text of a document. -/
inductive Token where
  | openList
  | closeList
  | openRecord
  | closeRecord
  | comma
  | colon
  | scalar (value : Document)

namespace Token

/-- The token of a character that stands for itself. -/
def ofMark? : Char → Option Token
  | '[' => some openList
  | ']' => some closeList
  | '{' => some openRecord
  | '}' => some closeRecord
  | ',' => some comma
  | ':' => some colon
  | _ => none

/-- Whether a character may stand between any two tokens. -/
def isBlank (c : Char) : Bool := c = ' ' || c = '\t' || c = '\n' || c = '\r'

/-! ## Numerals -/

/-- The number that a sequence of digits stands for. -/
def natOfDigits (digits : List Char) : Nat :=
  digits.foldl (fun n c => 10 * n + (c.toNat - '0'.toNat)) 0

/-- Whether a text has digits and nothing else. -/
def isDigits (cs : List Char) : Bool := !cs.isEmpty && cs.all Char.isDigit

/-- Whether a text is a whole part: digits, of which the first is zero only if it is alone. -/
def isWhole (cs : List Char) : Bool := isDigits cs && (cs.head? != some '0' || cs.length = 1)

/-- A text without the sign that it may begin with. -/
def unsigned : List Char → List Char
  | '+' :: rest => rest
  | '-' :: rest => rest
  | cs => cs

/-- Whether a text is an exponent or empty. -/
def isExponent : List Char → Bool
  | [] => true
  | c :: rest => (c = 'e' || c = 'E') && isDigits (unsigned rest)

/-- Whether a text is a fraction, an exponent, both in this order, or empty. -/
def isScale : List Char → Bool
  | '.' :: rest =>
    isDigits (rest.takeWhile Char.isDigit) && isExponent (rest.dropWhile Char.isDigit)
  | cs => isExponent cs

/-- Whether an integer has 64 bits, signed or unsigned. -/
def fits (n : Int) : Bool := -9223372036854775808 ≤ n && n < UInt64.size

/-- The document of a numeral: an integer of 64 bits, or else a decimal. -/
def ofNumeral? (numeral : List Char) : Option Document :=
  let negative := numeral.head? = some '-'
  let absolute := if negative then numeral.tail else numeral
  let whole := absolute.takeWhile Char.isDigit
  let scale := absolute.dropWhile Char.isDigit
  let n : Int := if negative then -natOfDigits whole else natOfDigits whole
  if isWhole whole && isScale scale then
    if scale = [] ∧ fits n ∧ ¬(negative ∧ n = 0) then some (.number n)
    else some (.decimal (String.ofList numeral))
  else none

/-- The document of a bare word. -/
def ofWord? (word : List Char) : Option Document :=
  match String.ofList word with
  | "null" => some .null
  | "true" => some (.flag true)
  | "false" => some (.flag false)
  | _ => ofNumeral? word

/-! ## Quoted texts -/

/-- The character that a letter stands for after a backslash. -/
def escape? : Char → Option Char
  | '"' => some '"'
  | '\\' => some '\\'
  | '/' => some '/'
  | 'b' => some '\x08'
  | 'f' => some '\x0c'
  | 'n' => some '\n'
  | 'r' => some '\r'
  | 't' => some '\t'
  | _ => none

/-- The value of a hexadecimal digit. -/
def hexDigit? (c : Char) : Option Nat :=
  if c.isDigit then some (c.toNat - '0'.toNat)
  else if 'a' ≤ c ∧ c ≤ 'f' then some (c.toNat - 'a'.toNat + 10)
  else if 'A' ≤ c ∧ c ≤ 'F' then some (c.toNat - 'A'.toNat + 10)
  else none

/-- The unit of 16 bits that four hexadecimal digits stand for. -/
def unit? (a b c d : Char) : Option Nat := do
  return 4096 * (← hexDigit? a) + 256 * (← hexDigit? b) + 16 * (← hexDigit? c) + (← hexDigit? d)

/-- Whether a unit is the first half of a character. -/
def isHigh (unit : Nat) : Bool := 0xD800 ≤ unit && unit < 0xDC00

/-- Whether a unit is the second half of a character. -/
def isLow (unit : Nat) : Bool := 0xDC00 ≤ unit && unit < 0xE000

/-- The character of two halves. -/
def ofHalves (high low : Nat) : Char :=
  Char.ofNat (0x10000 + (high - 0xD800) * 0x400 + (low - 0xDC00))

/-- The characters of a quoted text, after the first half of a character if there is one. Control
characters have to be escaped, and the halves of a character have to meet. -/
def unescape? : Option Nat → List Char → Option (List Char)
  | none, [] => some []
  | high?, '\\' :: 'u' :: a :: b :: c :: d :: rest => do
    let unit ← unit? a b c d
    match high? with
    | some high =>
      if isLow unit then return ofHalves high unit :: (← unescape? none rest) else none
    | none =>
      if isHigh unit then unescape? (some unit) rest
      else if isLow unit then none
      else return Char.ofNat unit :: (← unescape? none rest)
  | none, '\\' :: c :: rest => return (← escape? c) :: (← unescape? none rest)
  | none, c :: rest =>
    if c = '\\' ∨ c.toNat < 32 then none else return c :: (← unescape? none rest)
  | some _, _ => none

/-! ## Scanning -/

/-- The place of a character in a text. -/
inductive Place where
  /-- After the characters of a bare word, last first. -/
  | bare (word : List Char)
  /-- After the characters of a quoted text, last first. -/
  | quoted (text : List Char)
  /-- After the characters of a quoted text of which the last is a backslash that escapes. -/
  | escaped (text : List Char)

/-- Adds the token of a bare word, last character first, to those that follow. -/
def afterWord? (word : List Char) (rest : Option (List Token)) : Option (List Token) :=
  if word = [] then rest else return .scalar (← ofWord? word.reverse) :: (← rest)

/-- The tokens of a text from a place in it. -/
def scan? : Place → List Char → Option (List Token)
  | .bare word, [] => afterWord? word (some [])
  | .bare word, c :: rest =>
    if c = '"' then afterWord? word (scan? (.quoted []) rest)
    else if isBlank c then afterWord? word (scan? (.bare []) rest)
    else
      match ofMark? c with
      | some token => afterWord? word (return token :: (← scan? (.bare []) rest))
      | none => scan? (.bare (c :: word)) rest
  | .quoted text, c :: rest =>
    if c = '"' then
      return .scalar (.text (String.ofList (← unescape? none text.reverse))) ::
        (← scan? (.bare []) rest)
    else if c = '\\' then scan? (.escaped (c :: text)) rest
    else scan? (.quoted (c :: text)) rest
  | .escaped text, c :: rest => scan? (.quoted (c :: text)) rest
  | .quoted _, [] => none
  | .escaped _, [] => none

/-- The tokens of a text, or `none` if a part of it is no token. -/
def ofText? (s : String) : Option (List Token) := scan? (.bare []) s.toList

end Token

end Homestead
