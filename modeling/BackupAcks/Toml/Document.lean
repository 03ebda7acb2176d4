import BackupAcks.Toml.Scan

/-!
# TOML documents

A document is a sequence of entries and table headers. While it is read, each table remembers how
it came about, because that decides what may still be added to it: a table that only exists as the
parent of another (`implicit`) may get a header of its own once, a table made by a dotted key may
grow by dotted keys only, and inline tables and arrays are closed. Between its braces an inline
table is open: a dotted key may add to any inline table that was written before it.

The entries of a table stand in the order in which they were made, because its first key may say
that the table is a date. `parse` gives the entries of the document in the order of their keys, or
nothing if the text is no TOML document.
-/
namespace BackupAcks.Toml

/-! ## The dates of a document

A date or time can also be written as a table: one whose first key is `dateKey`, the date or time
being the text of that key. Whatever else such a table holds is passed over. `Value.settle?` puts
the date in place of each such table. It finds nothing if one of them does not spell a date, or if
a date names a day that its month does not have; what is passed over is not looked at. -/

def dateKey : String := "$__toml_private_datetime"

def monthLength (year month : Nat) : Nat :=
  if month = 2 then if year % 4 = 0 && (year % 100 != 0 || year % 400 = 0) then 29 else 28
  else if month = 4 || month = 6 || month = 9 || month = 11 then 30
  else 31

/-- The day, if there is one, is a day of its month. -/
def Datetime.onCalendar : Datetime → Bool
  | .date d => d.day ≤ monthLength d.year d.month
  | .time _ => true
  | .both d _ _ => d.day ≤ monthLength d.year d.month

/-- The date or time, if its day is on the calendar. -/
def Datetime.settle? (d : Datetime) : Option Datetime := if d.onCalendar then some d else none

/-- The date or time that a text consists of. -/
def Datetime.ofText? (text : String) : Option Datetime :=
  match datetime text.toList with
  | some (d, []) => d.settle?
  | _ => none

/-- The value of the first key, if the table stands for a date or time. -/
def spelledDate? : List (String × Value) → Option Value
  | (k, v) :: _ => if k == dateKey then some v else none
  | [] => none

mutual

/-- The value with a date or time in place of each table that stands for one, all days being on
the calendar. -/
def Value.settle? : Value → Option Value
  | .array elements => do return .array (← settleAll? elements)
  | .table entries =>
    match spelledDate? entries with
    | some (.string s) => .datetime <$> Datetime.ofText? s
    | some _ => none
    | none => do return .table (← settleEntries? entries)
  | .string s => some (.string s)
  | .integer i => some (.integer i)
  | .float x => some (.float x)
  | .boolean b => some (.boolean b)
  | .datetime d => .datetime <$> d.settle?

def settleAll? : List Value → Option (List Value)
  | [] => some []
  | v :: rest => do return (← v.settle?) :: (← settleAll? rest)

def settleEntries? : List (String × Value) → Option (List (String × Value))
  | [] => some []
  | (k, v) :: rest => do return (k, ← v.settle?) :: (← settleEntries? rest)

end

/-! ## Tables in the making -/

/-- What a key stands for while the document is read. -/
inductive Item where
  | value (v : Value)
  /-- A table, and whether it has no header of its own and whether dotted keys made it. -/
  | table (implicit dotted : Bool) (entries : List (String × Item))
  /-- An array of tables, the current one first. -/
  | tables (elements : List (List (String × Item)))

abbrev Entries := List (String × Item)

/-! ### Adding to tables -/

def lookUp (k : String) (t : Entries) : Option Item := (t.find? fun e => e.1 == k).map Prod.snd

def replace (k : String) (i : Item) (t : Entries) : Entries :=
  t.map fun e => if e.1 == k then (k, i) else e

def remove (k : String) (t : Entries) : Entries := t.filter fun e => e.1 != k

/-- Changes the table at the end of a path; `f` also gets to know whether dotted keys made that
table. Missing tables are made on the way, by a dotted key or by a header. -/
def descend (byDots : Bool) (f : (dotted : Bool) → Entries → Option Entries) :
    (path : List String) → (dotted : Bool) → Entries → Option Entries
  | [], dotted, t => f dotted t
  | k :: path, _, t =>
    match lookUp k t with
    | none => do
      let sub ← descend byDots f path byDots []
      return t ++ [(k, .table true byDots sub)]
    | some (.value _) => none
    | some (.table implicit dotted sub) =>
      if byDots && !implicit then none
      else do
        let sub ← descend byDots f path dotted sub
        return replace k (.table implicit dotted sub) t
    | some (.tables []) => none
    | some (.tables (current :: others)) => do
      let current ← descend byDots f path false current
      return replace k (.tables (current :: others)) t

/-- Adds an entry. A table that dotted keys made takes entries by dotted keys only, and other
tables take none of theirs through it. -/
def addEntry (path : List String) (v : Value) (t : Entries) : Option Entries :=
  match path.getLast? with
  | none => none
  | some last =>
    let before := path.dropLast
    descend true (fun dotted t =>
      if dotted == before.isEmpty || (lookUp last t).isSome then none
      else some (t ++ [(last, .value v)])) before false t

/-- Opens a table by its header. A table that was implicit so far leaves its place for the last
one. -/
def openTable (path : List String) (t : Entries) : Option Entries :=
  match path.getLast? with
  | none => none
  | some last =>
    descend false (fun _ t =>
      match lookUp last t with
      | none => some (t ++ [(last, .table false false [])])
      | some (.table true false sub) => some (remove last t ++ [(last, .table false false sub)])
      | some _ => none) path.dropLast false t

/-- Opens the next table of an array of tables by its header. -/
def openElement (path : List String) (t : Entries) : Option Entries :=
  match path.getLast? with
  | none => none
  | some last =>
    descend false (fun _ t =>
      match lookUp last t with
      | none => some (t ++ [(last, .tables [[]])])
      | some (.tables elements) => some (replace last (.tables ([] :: elements)) t)
      | some _ => none) path.dropLast false t

/-! ### Finished tables -/

mutual

def Item.toValue : Item → Value
  | .value v => v
  | .table _ _ entries => .table (entriesToTable entries)
  | .tables elements => .array (elementsToValues elements [])

def entriesToTable : List (String × Item) → List (String × Value)
  | [] => []
  | (k, i) :: rest => (k, i.toValue) :: entriesToTable rest

/-- The elements of an array of tables, the first one first. -/
def elementsToValues : List (List (String × Item)) → List Value → List Value
  | [], later => later
  | e :: earlier, later => elementsToValues earlier (.table (entriesToTable e) :: later)

end

/-! ### Values with parts -/

/-- The elements of an array after its opening bracket; `fuel` bounds their number. -/
def arrayElements (element : Scan Value) : (fuel : Nat) → Scan (List Value)
  | 0 => failure
  | fuel + 1 => do
    filler
    match ← peek with
    | some ']' => do
      expect ']'
      return []
    | _ => do
      let v ← element
      filler
      match ← peek with
      | some ',' => do
        expect ','
        return v :: (← arrayElements element fuel)
      | _ => do
        expect ']'
        return [v]

/-- Adds a value to an inline table at the end of a path; missing tables are made on the way. -/
def insertInline (v : Value) : (path : List String) → Table → Option Table
  | [], _ => none
  | [k], t => if (t.find? k).isSome then none else some (t ++ [(k, v)])
  | k :: path, t =>
    match t.find? k with
    | none => do return t ++ [(k, .table (← insertInline v path []))]
    | some (.table sub) => do return t.replace k (.table (← insertInline v path sub))
    | some _ => none

/-- The entries of an inline table from the first key on; `fuel` bounds their number. -/
def inlineEntries (element : Scan Value) : (fuel : Nat) → Table → Scan Table
  | 0, _ => failure
  | fuel + 1, t => do
    let path ← key
    expect '='
    blanks
    let v ← element
    blanks
    let t ← fun cs => (insertInline v path t).map (·, cs)
    match ← peek with
    | some ',' => do
      expect ','
      inlineEntries element fuel t
    | _ => do
      expect '\x7d'
      return t

/-- Levels of nesting that a value may have. -/
def valueDepth : Nat := 127

/-- A value; `room` is the number of levels that may still be opened. -/
def value (room : Nat) : Scan Value := fun cs =>
  match cs, room with
  | '[' :: _, 0 => none
  | '\x7b' :: _, 0 => none
  | '[' :: rest, room + 1 => do
    let (vs, rest) ← arrayElements (value room) (rest.length + 1) rest
    return (.array vs, rest)
  | '\x7b' :: rest, room + 1 =>
    match skipBlanks rest with
    | '\x7d' :: rest => some (.table [], rest)
    | rest => do
      let (t, rest) ← inlineEntries (value room) (rest.length + 1) [] rest
      return (.table t, rest)
  | cs, _ => scalar cs

/-! ### Lines -/

/-- The document read so far: its entries, and the path of the table that entries go to. -/
structure Reading where
  root : Entries
  current : List String

/-- A header: brackets around a key, double for an element of an array of tables. -/
def header (r : Reading) : Scan Reading := fun cs =>
  match cs with
  | '[' :: '[' :: rest => do
    let (path, rest) ← key rest
    let (_, rest) ← expect ']' rest
    let (_, rest) ← expect ']' rest
    let root ← openElement path r.root
    return (⟨root, path⟩, rest)
  | '[' :: rest => do
    let (path, rest) ← key rest
    let (_, rest) ← expect ']' rest
    let root ← openTable path r.root
    return (⟨root, path⟩, rest)
  | _ => none

def entry (r : Reading) : Scan Reading := do
  let path ← key
  expect '='
  blanks
  let v ← value valueDepth
  match descend false (fun _ t => addEntry path v t) r.current false r.root with
  | none => failure
  | some root => return { r with root := root }

/-- The lines of a document; `fuel` bounds their number. -/
def lines : (fuel : Nat) → Reading → Scan Reading
  | 0, _ => failure
  | fuel + 1, r => fun cs =>
    match skipBlanks cs with
    | [] => some (r, [])
    | '[' :: rest => do
      let (r, rest) ← header r ('[' :: rest)
      let (_, rest) ← lineEnd rest
      lines fuel r rest
    | c :: rest =>
      if c == '#' || c == '\n' || c == '\r' then do
        let (_, rest) ← lineEnd (c :: rest)
        lines fuel r rest
      else do
        let (r, rest) ← entry r (c :: rest)
        let (_, rest) ← lineEnd rest
        lines fuel r rest

/-- A mark of the byte order at the front is no part of the document. -/
def skipMark : List Char → List Char
  | '\uFEFF' :: rest => rest
  | cs => cs

/-- The entries of a document in the order of their keys. -/
def parse (text : String) : Option Table := do
  let cs := skipMark text.toList
  let (r, _) ← lines (cs.length + 1) ⟨[], []⟩ cs
  return Table.sorted (← settleEntries? (entriesToTable r.root))

end BackupAcks.Toml
