import EscrowMix.Json
import EscrowMix.Text.Digits

/-!
JSON values as text. The reader takes a whole text or refuses it: nothing may follow the value, a
control character must be escaped, and half a surrogate pair is no character. Of the members of an
object that share a name the last one counts. Two limits hold: arrays and objects stand at most 127
deep inside one another, and a number is not so large that as a double it would be infinite.
-/

namespace EscrowMix.Json

namespace Text

/-- Takes something off the front of a text, if it is there. -/
abbrev Reader := StateT (List Char) Option

/-- The next character. -/
def next : Reader Char
  | c :: cs => some (c, cs)
  | [] => none

/-- Takes a character if it comes next, and tells whether it did. -/
def accept (c : Char) : Reader Bool
  | d :: cs => some (if d = c then (true, cs) else (false, d :: cs))
  | [] => some (false, [])

/-- Takes a character that must come next. -/
def expect (c : Char) : Reader Unit := do
  unless ← accept c do failure

/-- A blank between the parts of a text. -/
def isBlank (c : Char) : Bool := c == ' ' || c == '\n' || c == '\t' || c == '\r'

/-- Passes over blanks. -/
def blanks : Reader Unit := modify (·.dropWhile isBlank)

/-! ### Numbers -/

/-- Decimal digits, at least one. -/
def digits : Reader (List Char) := do
  let cs ← get
  set (cs.dropWhile Char.isDigit)
  let ds := cs.takeWhile Char.isDigit
  if ds.isEmpty then failure else return ds

/-- The power of ten after the letter `e`, of either case and sign, if there is one. -/
def power? : Reader (Option Int) := do
  if ← accept 'e' <||> accept 'E' then
    let isNegative ← accept '-'
    unless isNegative do discard (accept '+')
    let n := Text.ofDigits (← digits)
    return some (if isNegative then -n else n)
  else return none

/-- The least number that is rounded to infinity as a double. It has 309 digits. -/
def doubleLimit : Nat := 1 <<< 1024 - 1 <<< 970

/-- A mantissa times a power of ten is not below the limit. The digits before the point decide this
unless they are as many as those of the limit. -/
def isTooLarge (mantissa : Nat) (exponent : Int) : Bool :=
  let places := (toString mantissa).length + exponent
  mantissa ≠ 0 && (places > 309 ||
    (places = 309 &&
      doubleLimit * Nat.pow 10 (-exponent).toNat ≤ mantissa * Nat.pow 10 exponent.toNat))

/-- A number. Its digits before the point begin with a zero only if that is all of them. -/
def number : Reader Json := do
  let isNegative ← accept '-'
  let whole ← digits
  if whole.head? = some '0' ∧ whole ≠ ['0'] then failure
  let hasPoint ← accept '.'
  let fraction ← if hasPoint then digits else pure []
  let power ← power?
  let mantissa := Text.ofDigits (whole ++ fraction)
  let exponent := power.getD 0 - fraction.length
  if isTooLarge mantissa exponent then failure
  let signed : Int := if isNegative then -mantissa else mantissa
  if hasPoint || power.isSome || (isNegative && mantissa == 0) then return .decimal signed exponent
  else return .number signed

/-! ### Quoted text -/

/-- The letters that may follow a backslash, with the characters that they stand for. -/
def escapes : List (Char × Char) :=
  [('"', '"'), ('\\', '\\'), ('/', '/'), ('b', '\x08'), ('f', '\x0c'), ('n', '\n'), ('r', '\r'),
    ('t', '\t')]

/-- The value of four hexadecimal digits. -/
def unit : Reader Nat :=
  (List.range 4).foldlM (fun n _ => do return 16 * n + (← Hex.value? (← next))) 0

/-- The character that is written after a backslash: by a letter, by its number, or by the two
halves of a surrogate pair. -/
def escaped : Reader Char := do
  let c ← next
  if c = 'u' then
    let high ← unit
    if high < 0xD800 ∨ 0xE000 ≤ high then return Char.ofNat high
    expect '\\'
    expect 'u'
    let low ← unit
    if high < 0xDC00 ∧ 0xDC00 ≤ low ∧ low < 0xE000 then
      return Char.ofNat (0x10000 + (high - 0xD800) * 0x400 + (low - 0xDC00))
    else failure
  else escapes.lookup c

/-- The rest of a quoted text, after what was read of it, in reverse; fewer than so many
characters. -/
def quoted : Nat → List Char → Reader String
  | 0, _ => failure
  | n + 1, read => do
    let c ← next
    if c = '"' then return String.ofList read.reverse
    else if c = '\\' then quoted n ((← escaped) :: read)
    else if c.toNat < 0x20 then failure
    else quoted n (c :: read)

/-! ### Values -/

/-- The values that are written as words. -/
def words : List (String × Json) := [("null", .null), ("true", .bool true), ("false", .bool false)]

/-- A value that is written as a word. -/
def word : Reader Json := fun cs =>
  words.findSome? fun (name, j) => (name.toList.isPrefixOf? cs).map (j, ·)

/-- The rest of a list of at least one item with commas between them, after what was read of it, in
reverse; fewer than so many items. -/
def items {α : Type} (item : Reader α) (close : Char) : Nat → List α → Reader (List α)
  | 0, _ => failure
  | n + 1, read => do
    blanks
    let a ← item
    blanks
    if ← accept ',' then items item close n (a :: read)
    else
      expect close
      return (a :: read).reverse

/-- The rest of a list that may be empty. -/
def list {α : Type} (item : Reader α) (close : Char) (n : Nat) : Reader (List α) := do
  blanks
  if ← accept close then return [] else items item close n []

/-- A member of an object. -/
def member (value : Reader Json) (n : Nat) : Reader (String × Json) := do
  expect '"'
  let name ← quoted n []
  blanks
  expect ':'
  blanks
  return (name, ← value)

/-- Of the members that share a name, the last. -/
def lastOfEach (members : List (String × Json)) : List (String × Json) :=
  members.foldr (fun m rest => if rest.any (·.1 == m.1) then rest else m :: rest) []

/-- A value in a text of so many characters, with arrays and objects at most so many deep. -/
def value (n : Nat) : Nat → Reader Json
  | 0 => scalar
  | depth + 1 => do
    if ← accept '[' then return .array (← list (value n depth) ']' n)
    else if ← accept '{' then
      return .object (lastOfEach (← list (member (value n depth) n) '}' n))
    else scalar
where
  scalar : Reader Json := do
    if ← accept '"' then return .text (← quoted n []) else word <|> number

end Text

/-- How deep arrays and objects may stand inside one another. -/
def depthLimit : Nat := 127

/-- The value that a text is. -/
def parse? (s : String) : Option Json := do
  let cs := s.toList
  let (j, rest) ← (Text.blanks *> Text.value cs.length depthLimit <* Text.blanks).run cs
  if rest.isEmpty then some j else none

/-! ### Writing -/

/-- A character in a quoted text. -/
def escapeChar (c : Char) : List Char :=
  if c = '"' ∨ c = '\\' then ['\\', c]
  else if c.toNat < 0x20 then
    ['\\', 'u', '0', '0', Hex.digit (c.toNat / 16), Hex.digit (c.toNat % 16)]
  else [c]

/-- A text in quotes. -/
def quote (s : String) : String := String.ofList ('"' :: s.toList.flatMap escapeChar ++ ['"'])

/-- Texts with commas between them, in brackets. -/
def bracketed (first last : Char) (texts : List String) : String :=
  (first.toString ++ ",".intercalate texts).push last

mutual

/-- A value as text, without blanks. -/
def render : Json → String
  | null => "null"
  | bool b => if b then "true" else "false"
  | number n => toString n
  | decimal mantissa exponent => toString mantissa ++ "e" ++ toString exponent
  | text s => quote s
  | array items => bracketed '[' ']' (renderItems items)
  | object members => bracketed '{' '}' (renderMembers members)

/-- Items as texts. -/
def renderItems : List Json → List String
  | [] => []
  | j :: rest => render j :: renderItems rest

/-- Members as texts. -/
def renderMembers : List (String × Json) → List String
  | [] => []
  | (name, j) :: rest => (quote name ++ ":" ++ render j) :: renderMembers rest

end

end EscrowMix.Json
