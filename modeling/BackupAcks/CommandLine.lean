/-!
# Command lines

A command line is a list of words. An option has a long name and perhaps a letter; its value is
the next word (`--name value`, `-n value`) or part of its own (`--name=value`, `-nvalue`,
`-n=value`). A word that starts with a dash is never the next word of an option. After a bare `--`
no more options are recognised.

The reader is done with an option when it meets the next one, or the end. Only then it says what
is wrong with the option's value, so a word that makes no sense at its place is reported first.
-/
namespace BackupAcks.CommandLine

/-- Why a command line is not acted upon. The last two are requests, and no mistakes. -/
inductive Refusal where
  /-- An option nobody knows, or a word that belongs to no option. -/
  | unknownArgument
  /-- An option without its value. -/
  | missingValue
  /-- A value that cannot be read. -/
  | badValue
  /-- An option given twice. -/
  | repeated
  /-- A value attached to a flag. -/
  | needlessValue
  | helpWanted
  | versionWanted
  deriving DecidableEq, Repr

namespace Refusal

def isRequest : Refusal → Bool
  | .helpWanted | .versionWanted => true
  | _ => false

def message : Refusal → String
  | .unknownArgument => "unexpected argument"
  | .missingValue => "a value is required for an option but none was supplied"
  | .badValue => "invalid value for an option"
  | .repeated => "an option cannot be used multiple times"
  | .needlessValue => "unexpected value for a flag"
  | .helpWanted => "help"
  | .versionWanted => "version"

end Refusal

/-- An option; its value changes settings of type `σ`, if it can be read. -/
structure Setting (σ : Type) where
  long : String
  letter : Option Char
  set : String → σ → Option σ

/-! ## Words -/

/-- What a word looks like. -/
inductive Word where
  /-- A bare `--`. -/
  | terminator
  /-- `--name` or `--name=value`. -/
  | long (name : String) (value : Option String)
  /-- A dash, a letter, and what follows. -/
  | letter (c : Char) (rest : List Char)
  /-- Anything else. -/
  | plain (text : String)
  deriving DecidableEq, Repr

namespace Word

/-- A long name and the value after the first `=`, if there is one. -/
def splitLong (cs : List Char) : Word :=
  let name := String.ofList (cs.takeWhile (· != '='))
  match cs.dropWhile (· != '=') with
  | [] => .long name none
  | _ :: value => .long name (some (String.ofList value))

def ofText (text : String) : Word :=
  match text.toList with
  | ['-', '-'] => .terminator
  | '-' :: '-' :: cs => splitLong cs
  | '-' :: c :: cs => .letter c cs
  | _ => .plain text

end Word

/-! ## Reading -/

variable {σ : Type}

structure Progress (σ : Type) where
  settings : σ
  /-- The long names of the options the reader is done with. -/
  given : List String
  /-- The option the reader is not done with, and its value, once it was met. -/
  waiting : Option (Setting σ × Option String)

namespace Progress

def start (settings : σ) : Progress σ := ⟨settings, [], none⟩

def record (o : Setting σ) (value : String) (p : Progress σ) : Except Refusal (Progress σ) :=
  if p.given.contains o.long then .error .repeated
  else
    match o.set value p.settings with
    | none => .error .badValue
    | some settings => .ok ⟨settings, o.long :: p.given, none⟩

/-- Is done with the option that waits. -/
def conclude (p : Progress σ) : Except Refusal (Progress σ) :=
  match p.waiting with
  | none => .ok p
  | some (_, none) => .error .missingValue
  | some (o, some value) => record o value { p with waiting := none }

/-- Begins an option whose value may be attached. -/
def begin (o : Setting σ) (attached : Option String) (p : Progress σ) :
    Except Refusal (Progress σ) := do
  let p ← p.conclude
  match attached with
  | some value => p.record o value
  | none => return { p with waiting := some (o, none) }

/-- Takes a request, unless something is wrong with the option before it. -/
def request (r : Refusal) (p : Progress σ) : Except Refusal (Progress σ) := do
  let _ ← p.conclude
  throw r

end Progress

/-- What follows a letter, as an attached value. -/
def attachedValue : List Char → Option String
  | [] => none
  | '=' :: cs => some (String.ofList cs)
  | cs => some (String.ofList cs)

/-- Takes a word that is no terminator. -/
def take (options : List (Setting σ)) (p : Progress σ) : Word → Except Refusal (Progress σ)
  | .terminator => .error .unknownArgument
  | .long name value =>
    match options.find? (·.long == name) with
    | some o => p.begin o value
    | none =>
      if name == "help" || name == "version" then
        if value.isSome then .error .needlessValue
        else p.request (if name == "help" then .helpWanted else .versionWanted)
      else .error .unknownArgument
  | .letter c rest =>
    match options.find? (·.letter == some c) with
    | some o => p.begin o (attachedValue rest)
    | none =>
      if c == 'h' then p.request .helpWanted
      else if c == 'V' then p.request .versionWanted
      else .error .unknownArgument
  | .plain text =>
    match p.waiting with
    | some (o, none) => .ok { p with waiting := some (o, some text) }
    | _ => .error .unknownArgument

def readFrom (options : List (Setting σ)) (p : Progress σ) : List String → Except Refusal σ
  | [] => do return (← p.conclude).settings
  | text :: rest =>
    match Word.ofText text with
    | .terminator => if rest.isEmpty then do return (← p.conclude).settings
        else .error .unknownArgument
    | word => do readFrom options (← take options p word) rest

def read (options : List (Setting σ)) (settings : σ) (words : List String) : Except Refusal σ :=
  readFrom options (.start settings) words

end BackupAcks.CommandLine
