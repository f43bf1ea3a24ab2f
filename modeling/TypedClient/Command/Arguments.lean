import TypedClient.Settings
import TypedClient.Text.Digit

/-!
# Arguments of the command line

An option is written in full or by a beginning that only one option has. The value of an option
follows an equals sign or is the next argument; an argument that looks like an option is no value,
but a negative number or a text with a blank in it is. Of repeated options the last one counts.
Arguments that belong to no option are refused.
-/

namespace TypedClient

/-- The options that take a value. -/
inductive ValueOption where
  | url | output | config
  deriving DecidableEq, Repr

/-- The options that do not. -/
inductive FlagOption where
  | noExample | initConfig | saveConfig | verbose | help
  deriving DecidableEq, Repr

/-- An option of the command line. -/
inductive CommandOption where
  | value (o : ValueOption)
  | flag (o : FlagOption)
  deriving DecidableEq, Repr

/-- What the command line asks for. -/
structure Arguments where
  override : Settings.Override
  config : String
  initConfig : Bool
  saveConfig : Bool

/-- Why a command line is not run. -/
inductive ArgumentsFault where
  | unusable
  /-- The options are asked for. -/
  | help
  deriving DecidableEq, Repr

namespace Arguments

/-- The options under their names. -/
def options : List (String × CommandOption) := [
  ("-h", .flag .help), ("--help", .flag .help), ("--url", .value .url),
  ("--output", .value .output), ("--no-example", .flag .noExample), ("--config", .value .config),
  ("--init-config", .flag .initConfig), ("--save-config", .flag .saveConfig),
  ("--verbose", .flag .verbose)]

/-- What an argument is. -/
inductive Token where
  /-- An option, with what follows its equals sign. -/
  | option (o : CommandOption) (explicit : Option String)
  /-- Written like an option, but none. -/
  | unknown
  | plain (text : String)
  /-- Two hyphens: no option follows. -/
  | separator

/-- A negative number of decimal digits, perhaps with a point. A line break may follow. -/
def isNegativeNumber (cs : List Char) : Bool :=
  let isNumeral (ds : List Char) := !ds.isEmpty && ds.all fun c => (Text.decimalValue? c).isSome
  let isNumber (ds : List Char) :=
    isNumeral ds ||
      (ds.contains '.' && isNumeral ((ds.dropWhile (· != '.')).drop 1) &&
        (ds.takeWhile (· != '.')).all fun c => (Text.decimalValue? c).isSome)
  match cs with
  | '-' :: rest => isNumber rest || (rest.getLast? = some '\n' && isNumber rest.dropLast)
  | _ => false

/-- The parts of an argument before and after its first equals sign. -/
def atEquals (cs : List Char) : List Char × Option String :=
  match cs.dropWhile (· != '=') with
  | [] => (cs, none)
  | _ :: rest => (cs.takeWhile (· != '='), some (String.ofList rest))

/-- The options that an argument can begin. Behind a single hyphen only the first letter counts. -/
def candidates (cs : List Char) : List Token :=
  match cs with
  | '-' :: '-' :: _ =>
    let (start, explicit) := atEquals cs
    options.filterMap fun o =>
      if start.isPrefixOf o.1.toList then some (.option o.2 explicit) else none
  | _ =>
    options.filterMap fun o =>
      if o.1.toList = cs.take 2 then some (.option o.2 none) else none

/-- What an argument is that does not follow two hyphens. An argument that begins several options is
refused. -/
def token (arg : String) : Except ArgumentsFault Token :=
  let cs := arg.toList
  if cs.head? != some '-' || arg = "-" then .ok (.plain arg)
  else
    match options.lookup arg with
    | some o => .ok (.option o none)
    | none =>
      let (start, explicit) := atEquals cs
      match options.lookup (String.ofList start) with
      | some o => .ok (.option o explicit)
      | none =>
        match candidates cs with
        | [t] => .ok t
        | _ :: _ :: _ => .error .unusable
        | [] => .ok (if isNegativeNumber cs || cs.contains ' ' then .plain arg else .unknown)

/-- What the arguments are. -/
def tokens : List String → Except ArgumentsFault (List Token)
  | [] => .ok []
  | arg :: rest =>
    if arg = "--" then .ok (.separator :: rest.map .plain)
    else do
      let t ← token arg
      return t :: (← tokens rest)

/-- The arguments of a command line without arguments. -/
def default : Arguments :=
  ⟨⟨none, none, false⟩, Settings.fileName, false, false⟩

/-- The arguments with a value set. -/
def setValue (a : Arguments) (o : ValueOption) (text : String) : Arguments :=
  match o with
  | .url => { a with override := { a.override with url := some text } }
  | .output => { a with override := { a.override with output := some text } }
  | .config => { a with config := text }

/-- The arguments with a flag set. -/
def setFlag (a : Arguments) : FlagOption → Arguments
  | .noExample => { a with override := { a.override with noExample := true } }
  | .initConfig => { a with initConfig := true }
  | .saveConfig => { a with saveConfig := true }
  | .verbose | .help => a

/-- The arguments after further tokens. `usable` tells that nothing has been left over. -/
def collect (a : Arguments) (usable : Bool) : List Token → Except ArgumentsFault Arguments
  | [] => if usable then .ok a else .error .unusable
  | .option (.value o) (some text) :: rest => collect (a.setValue o text) usable rest
  | .option (.value o) none :: .plain text :: rest => collect (a.setValue o text) usable rest
  | .option (.value _) none :: _ => .error .unusable
  | .option (.flag _) (some _) :: _ => .error .unusable
  | .option (.flag .help) none :: _ => .error .help
  | .option (.flag o) none :: rest => collect (a.setFlag o) usable rest
  | _ :: rest => collect a false rest

/-- What a command line asks for. -/
def parse (args : List String) : Except ArgumentsFault Arguments := do
  collect default true (← tokens args)

end Arguments

end TypedClient
