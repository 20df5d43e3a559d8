import EngineClient.Text.Utf8

/-!
# Command-line arguments

How the arguments of a program are told apart. Options start with one dash and a letter or with two
dashes and a name, and take a value: the next argument, or what stands behind them in the same one.
Two dashes alone end the options. What is left are positional arguments, unless one names a command,
which takes over all arguments behind it.
-/

namespace EngineClient.CommandLine

/-- What may be given as the value of an option. -/
inductive ValueKind where
  | text
  | path
deriving Repr, DecidableEq

def ValueKind.accepts (kind : ValueKind) (value : Bytes) : Bool :=
  match kind with
  | text => (stringOf? value).isSome
  | path => !value.isEmpty

/-- An option with a value. Unless it `repeats` it can be given once only. -/
structure OptionName where
  long : String
  short : Option Char := none
  kind : ValueKind := .text
  repeats : Bool := false
deriving Repr, DecidableEq

/-- The arguments that a program or a command of it understands. -/
structure Grammar where
  options : List OptionName := []
  positionals : Nat := 0
  commands : List String := []
  /-- Whether the version of the program can be asked for. -/
  tellsVersion : Bool := false
deriving Repr, DecidableEq

/-- Why a program does not start to work: it was only asked about itself, or not understood. -/
inductive Refusal where
  | help
  | version
  | badUsage
deriving Repr, DecidableEq

/-- The arguments understood so far. -/
structure Scan where
  options : List (String × Bytes) := []
  positionals : List String := []
  pending : Option OptionName := none
  optionsEnded : Bool := false
  /-- The command with its arguments, latest first. -/
  command : Option (String × List Bytes) := none
deriving Repr, DecidableEq

namespace Scan

def value? (s : Scan) (long : String) : Option Bytes := s.options.lookup long

def text? (s : Scan) (long : String) : Option String := (s.value? long).bind stringOf?

def values (s : Scan) (long : String) : List Bytes :=
  (s.options.reverse.filter (·.1 == long)).map Prod.snd

def give (s : Scan) (option : OptionName) (value : Bytes) : Except Refusal Scan :=
  if !option.kind.accepts value || (!option.repeats && (s.value? option.long).isSome) then
    .error .badUsage
  else .ok { s with options := (option.long, value) :: s.options, pending := none }

/-- Gives a value to an option, or lets it wait for one. -/
def offer (s : Scan) (option : OptionName) : Option Bytes → Except Refusal Scan
  | some value => s.give option value
  | none => .ok { s with pending := some option }

def addPositional (s : Scan) (g : Grammar) (argument : Bytes) : Except Refusal Scan :=
  match stringOf? argument with
  | some text =>
    if s.positionals.length < g.positionals then .ok { s with positionals := text :: s.positionals }
    else .error .badUsage
  | none => .error .badUsage

def dash : UInt8 := 45

def equals : UInt8 := 61

/-- Understands what follows two dashes. -/
def addLong (s : Scan) (g : Grammar) (argument : Bytes) : Except Refusal Scan :=
  let name := argument.takeWhile (· != equals)
  let attached := (argument.dropWhile (· != equals)).tail?
  match g.options.find? fun option => bytesOf option.long == name with
  | some option => s.offer option attached
  | none =>
    if attached.isSome then .error .badUsage
    else if name = bytesOf "help" then .error .help
    else if g.tellsVersion && name = bytesOf "version" then .error .version
    else .error .badUsage

/-- Understands the letter that follows one dash, and what stands behind it. -/
def addShort (s : Scan) (g : Grammar) (letter : UInt8) (behind : Bytes) : Except Refusal Scan :=
  match g.options.find? fun option => option.short.map (bytesOf ∘ Char.toString) == some [letter] with
  | some option =>
    s.offer option <| match behind with
      | [] => none
      | b :: rest => some (if b = equals then rest else b :: rest)
  | none =>
    if [letter] = bytesOf "h" then .error .help
    else if g.tellsVersion && [letter] = bytesOf "V" then .error .version
    else .error .badUsage

/-- Understands one more argument. An option that waits for its value takes anything that is not
written as an option. -/
def add (g : Grammar) (s : Scan) (argument : Bytes) : Except Refusal Scan :=
  match s.command, s.pending, argument with
  | some (name, behind), _, _ => .ok { s with command := some (name, argument :: behind) }
  | none, some option, [b] => s.give option [b]
  | none, some option, b :: rest => if b = dash then .error .badUsage else s.give option (b :: rest)
  | none, some option, [] => s.give option []
  | none, none, argument =>
    if s.optionsEnded then s.addPositional g argument
    else match g.commands.find? fun name => bytesOf name == argument with
      | some name => .ok { s with command := some (name, []) }
      | none =>
        if argument = [dash, dash] then .ok { s with optionsEnded := true }
        else match argument with
          | a :: b :: rest =>
            if a = dash then if b = dash then s.addLong g rest else s.addShort g b rest
            else s.addPositional g argument
          | argument => s.addPositional g argument

end Scan

def Grammar.scan (g : Grammar) (arguments : List Bytes) : Except Refusal Scan := do
  let s ← arguments.foldlM (Scan.add g) {}
  if s.pending.isSome then throw .badUsage else return s

end EngineClient.CommandLine
