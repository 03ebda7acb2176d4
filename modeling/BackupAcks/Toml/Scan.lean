import BackupAcks.Number.Decimal
import BackupAcks.Toml.Value

/-!
# The words of a TOML document

Readers for what a TOML line is made of: blanks and comments, keys, texts, numbers, dates and
times. A reader takes its word off the front of the characters and hands back the rest; a word
that is followed by something it must not touch is caught by whoever reads on.
-/
namespace BackupAcks.Toml

/-- Takes a word off the front of the characters, if there is one. -/
abbrev Scan := StateT (List Char) Option

/-! ## Blanks, comments, line ends -/

def isBlank (c : Char) : Bool := c == ' ' || c == '\t'

/-- Characters of a comment: the tab, and all but the control characters. -/
def isCommentChar (c : Char) : Bool :=
  c == '\t' || 0x20 ≤ c.toNat && c.toNat != 0x7F

def skipBlanks (cs : List Char) : List Char := cs.dropWhile isBlank

def blanks : Scan Unit := modify skipBlanks

/-- The rest after a line end. -/
def newline? : List Char → Option (List Char)
  | '\n' :: rest => some rest
  | '\r' :: '\n' :: rest => some rest
  | _ => none

def skipComment : List Char → List Char
  | '#' :: rest => rest.dropWhile isCommentChar
  | cs => cs

/-- What may follow an entry: blanks, a comment, and the end of the line or of the document. -/
def lineEnd : Scan Unit := fun cs =>
  match skipComment (skipBlanks cs) with
  | [] => some ((), [])
  | rest => (newline? rest).map fun rest => ((), rest)

/-- Skips blanks, line ends and comments, as between the elements of an array. -/
def skipFiller : (inComment : Bool) → List Char → List Char
  | _, [] => []
  | _, '\n' :: rest => skipFiller false rest
  | _, '\r' :: '\n' :: rest => skipFiller false rest
  | true, c :: rest => if isCommentChar c then skipFiller true rest else c :: rest
  | false, c :: rest =>
    if isBlank c then skipFiller false rest
    else if c == '#' then skipFiller true rest
    else c :: rest

def filler : Scan Unit := modify (skipFiller false)

def expect (c : Char) : Scan Unit
  | d :: rest => if c == d then some ((), rest) else none
  | [] => none

/-- The next character, left where it is. -/
def peek : Scan (Option Char) := fun cs => some (cs.head?, cs)

/-! ## Texts -/

/-- Characters that stand for themselves in a text with escapes. -/
def isBasicChar (c : Char) : Bool :=
  isCommentChar c && c != '"' && c != '\\'

/-- Characters of a text without escapes. -/
def isLiteralChar (c : Char) : Bool :=
  isCommentChar c && c != '\''

def hexValue? (c : Char) : Option Nat :=
  if c.isDigit then some (c.toNat - '0'.toNat)
  else if 'a' ≤ c && c ≤ 'f' then some (c.toNat - 'a'.toNat + 10)
  else if 'A' ≤ c && c ≤ 'F' then some (c.toNat - 'A'.toNat + 10)
  else none

/-- The character whose code point the hexadecimal digits give; surrogates are none. -/
def codePoint? (digits : List Char) : Option Char := do
  let values ← digits.mapM hexValue?
  let n := values.foldl (fun n v => 16 * n + v) 0
  if n.isValidChar then some (Char.ofNat n) else none

/-- What stands after a backslash. -/
def escaped : Scan Char
  | 'b' :: rest => some ('\x08', rest)
  | 't' :: rest => some ('\t', rest)
  | 'n' :: rest => some ('\n', rest)
  | 'f' :: rest => some ('\x0c', rest)
  | 'r' :: rest => some ('\r', rest)
  | '"' :: rest => some ('"', rest)
  | '\\' :: rest => some ('\\', rest)
  | 'u' :: rest =>
    if rest.length < 4 then none else (codePoint? (rest.take 4)).map (·, rest.drop 4)
  | 'U' :: rest =>
    if rest.length < 8 then none else (codePoint? (rest.take 8)).map (·, rest.drop 8)
  | _ => none

/-- The rest of a text with escapes after its opening quote; `fuel` bounds its length. -/
def basicBody : (fuel : Nat) → Scan (List Char)
  | 0, _ => none
  | _ + 1, '"' :: rest => some ([], rest)
  | fuel + 1, '\\' :: rest => do
    let (c, rest) ← escaped rest
    let (cs, rest) ← basicBody fuel rest
    return (c :: cs, rest)
  | fuel + 1, c :: rest =>
    if isBasicChar c then do
      let (cs, rest) ← basicBody fuel rest
      return (c :: cs, rest)
    else none
  | _ + 1, [] => none

def skipSpace : List Char → List Char
  | '\r' :: '\n' :: rest => skipSpace rest
  | c :: rest => if isBlank c || c == '\n' then skipSpace rest else c :: rest
  | [] => []

/-- The closing quotes of a text of several lines: three, before which one or two more may belong
to the text. -/
def closing (quote : Char) (cs : List Char) : Option (List Char × List Char) :=
  let quotes := (cs.take 5).takeWhile (· == quote)
  if quotes.length < 3 then none else some (quotes.drop 3, cs.drop quotes.length)

/-- The rest of a text of several lines with escapes. A backslash at the end of a line joins the
lines. -/
def multiBasicBody : (fuel : Nat) → Scan (List Char)
  | 0, _ => none
  | fuel + 1, cs =>
    match closing '"' cs with
    | some r => some r
    | none =>
      match cs with
      | [] => none
      | '\\' :: rest =>
        match newline? (skipBlanks rest) with
        | some rest => multiBasicBody fuel (skipSpace rest)
        | none => do
          let (c, rest) ← escaped rest
          let (cs, rest) ← multiBasicBody fuel rest
          return (c :: cs, rest)
      | c :: rest =>
        match newline? cs with
        | some rest => do
          let (cs, rest) ← multiBasicBody fuel rest
          return ('\n' :: cs, rest)
        | none =>
          if isBasicChar c || c == '"' then do
            let (cs, rest) ← multiBasicBody fuel rest
            return (c :: cs, rest)
          else none

/-- The rest of a text of several lines without escapes. -/
def multiLiteralBody : (fuel : Nat) → Scan (List Char)
  | 0, _ => none
  | fuel + 1, cs =>
    match closing '\'' cs with
    | some r => some r
    | none =>
      match cs with
      | [] => none
      | c :: rest =>
        match newline? cs with
        | some rest => do
          let (cs, rest) ← multiLiteralBody fuel rest
          return ('\n' :: cs, rest)
        | none =>
          if isLiteralChar c || c == '\'' then do
            let (cs, rest) ← multiLiteralBody fuel rest
            return (c :: cs, rest)
          else none

/-- A line end right after the opening quotes does not belong to the text. -/
def trimFirst (cs : List Char) : List Char := (newline? cs).getD cs

def lineText : Scan String
  | '"' :: rest => do
    let (cs, rest) ← basicBody (rest.length + 1) rest
    return (String.ofList cs, rest)
  | '\'' :: rest =>
    match rest.dropWhile isLiteralChar with
    | '\'' :: after => some (String.ofList (rest.takeWhile isLiteralChar), after)
    | _ => none
  | _ => none

def anyText : Scan String
  | '"' :: '"' :: '"' :: rest => do
    let (cs, rest) ← multiBasicBody (rest.length + 1) (trimFirst rest)
    return (String.ofList cs, rest)
  | '\'' :: '\'' :: '\'' :: rest => do
    let (cs, rest) ← multiLiteralBody (rest.length + 1) (trimFirst rest)
    return (String.ofList cs, rest)
  | cs => lineText cs

/-! ## Keys -/

def isBareChar (c : Char) : Bool := c.isAlphanum || c == '-' || c == '_'

def simpleKey : Scan String := fun cs =>
  match cs with
  | '"' :: _ | '\'' :: _ => lineText cs
  | _ =>
    let key := cs.takeWhile isBareChar
    if key.isEmpty then none else some (String.ofList key, cs.dropWhile isBareChar)

/-- Every key has fewer parts than this. -/
def keyDepth : Nat := 128

/-- A key and the blanks around its parts; `fuel` bounds the number of parts. -/
def dottedKey : (fuel : Nat) → Scan (List String)
  | 0 => failure
  | fuel + 1 => do
    blanks
    let part ← simpleKey
    blanks
    match ← peek with
    | some '.' => do
      expect '.'
      return part :: (← dottedKey fuel)
    | _ => return [part]

/-- A key of one or more parts. -/
def key : Scan (List String) := dottedKey (keyDepth - 1)

/-! ## Numbers -/

/-- A run of digits, single underscores between them allowed; the digits without underscores. -/
def digitRun (isDigit : Char → Bool) : List Char → List Char × List Char
  | [] => ([], [])
  | '_' :: d :: rest =>
    if isDigit d then
      let r := digitRun isDigit rest
      (d :: r.1, r.2)
    else ([], '_' :: d :: rest)
  | c :: rest =>
    if isDigit c then
      let r := digitRun isDigit rest
      (c :: r.1, r.2)
    else ([], c :: rest)

def digits (isDigit : Char → Bool) : Scan (List Char)
  | c :: rest =>
    if isDigit c then
      let r := digitRun isDigit rest
      some (c :: r.1, r.2)
    else none
  | [] => none

/-- The digits of a decimal whole number: a zero stands alone. -/
def wholeDigits : Scan (List Char)
  | '0' :: rest => some (['0'], rest)
  | cs => digits Char.isDigit cs

/-- Whether a plus or minus sign stands first, and whether it is a minus. -/
def sign : Scan (Option Bool)
  | '+' :: rest => some (some false, rest)
  | '-' :: rest => some (some true, rest)
  | cs => some (none, cs)

/-- The whole number, if it fits 64 bits with sign. -/
def integer (negative : Bool) (magnitude : Nat) : Scan Value := do
  let i : Int := if negative then -magnitude else magnitude
  if -0x8000000000000000 ≤ i ∧ i < 0x8000000000000000 then return .integer i else failure

/-- A whole number in another base, after the mark of the base. -/
def radixInteger (base : Nat) : Scan Value := do
  let ds ← digits fun c => (hexValue? c).any (· < base)
  integer false (ds.foldl (fun n c => base * n + (hexValue? c).getD 0) 0)

def exponent : Scan Int
  | c :: rest =>
    if c == 'e' || c == 'E' then do
      let (negative, rest) ← sign rest
      let (ds, rest) ← digits Char.isDigit rest
      let n := Reading.digitsValue ds
      return (if negative == some true then -n else n, rest)
    else none
  | [] => none

/-- A decimal; only the positive infinity is too large. -/
def decimal (negative : Bool) (ds : List Char) (e : Int) : Scan Value :=
  match Binary64.ofDecimal negative (Reading.digitsValue ds) e with
  | .infinite false => failure
  | x => return .float x

/-- A number in decimal notation, after its sign. -/
def decimalNumber (negative : Bool) : Scan Value := do
  let whole ← wholeDigits
  match ← peek with
  | some '.' => do
    expect '.'
    let fraction ← digits Char.isDigit
    let e ← exponent <|> pure 0
    decimal negative (whole ++ fraction) (e - fraction.length)
  | some 'e' | some 'E' => do
    let e ← exponent
    decimal negative whole e
  | _ => integer negative (Reading.digitsValue whole)

def number : Scan Value := fun cs =>
  match cs with
  | '0' :: 'x' :: rest => radixInteger 16 rest
  | '0' :: 'o' :: rest => radixInteger 8 rest
  | '0' :: 'b' :: rest => radixInteger 2 rest
  | _ => do
    let (negative, rest) ← sign cs
    let negative := negative == some true
    match rest with
    | 'i' :: 'n' :: 'f' :: rest => some (.float (.infinite negative), rest)
    | 'n' :: 'a' :: 'n' :: rest => some (.float .nan, rest)
    | _ => decimalNumber negative rest

/-! ## Dates and times -/

/-- A number of exactly `count` digits that lies between `low` and `high`. -/
def fixedNumber (count low high : Nat) : Scan Nat := fun cs =>
  let ds := cs.take count
  let n := Reading.digitsValue ds
  if ds.length = count && ds.all Char.isDigit && low ≤ n && n ≤ high then
    some (n, cs.drop count)
  else none

/-- A date; the day may be one that the month does not have. -/
def date : Scan Date := do
  let year ← fixedNumber 4 0 9999
  expect '-'
  let month ← fixedNumber 2 1 12
  expect '-'
  let day ← fixedNumber 2 1 31
  return ⟨year, month, day⟩

/-- The fraction of a second in nanoseconds; digits after the ninth do not count. -/
def secondFraction : Scan Nat := do
  expect '.'
  let ds ← fun cs => some (cs.takeWhile Char.isDigit, cs.dropWhile Char.isDigit)
  if ds.isEmpty then failure
  return Reading.digitsValue (ds ++ List.replicate (9 - ds.length) '0' |>.take 9)

def time : Scan Time := do
  let hour ← fixedNumber 2 0 23
  expect ':'
  let minute ← fixedNumber 2 0 59
  expect ':'
  let second ← fixedNumber 2 0 60
  let nanosecond ← secondFraction <|> pure 0
  return ⟨hour, minute, second, nanosecond⟩

def offset : Scan Offset := fun cs =>
  match cs with
  | 'Z' :: rest | 'z' :: rest => some (.universal, rest)
  | c :: rest =>
    if c == '+' || c == '-' then do
      let (hour, rest) ← fixedNumber 2 0 23 rest
      let (_, rest) ← expect ':' rest
      let (minute, rest) ← fixedNumber 2 0 59 rest
      let minutes : Int := hour * 60 + minute
      return (.east (if c == '-' then -minutes else minutes), rest)
    else none
  | [] => none

/-- The time of day after a date: after `T`, `t` or a blank. -/
def timeOfDay : Scan Time
  | c :: rest => if c == 'T' || c == 't' || c == ' ' then time rest else none
  | [] => none

def datetime : Scan Datetime :=
  (do
    let d ← date
    match ← some <$> timeOfDay <|> pure none with
    | none => return .date d
    | some t => return .both d t (← some <$> offset <|> pure none)) <|>
  (.time <$> time)

/-! ## Values without parts -/

/-- One of the two words for truth values. -/
def truth : Scan Value
  | 't' :: 'r' :: 'u' :: 'e' :: rest => some (.boolean true, rest)
  | 'f' :: 'a' :: 'l' :: 's' :: 'e' :: rest => some (.boolean false, rest)
  | _ => none

def scalar : Scan Value :=
  .string <$> anyText <|> truth <|> .datetime <$> datetime <|> number

end BackupAcks.Toml
