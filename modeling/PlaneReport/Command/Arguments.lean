import PlaneReport.Command
import PlaneReport.Command.Help
import PlaneReport.Decimal.Basic

/-!
# Arguments

A command line is read from left to right, first what stands before the name of a command and then
what follows it.  An option that takes a value is judged only when the next one comes, or at the
end, so the first problem in this order is the one that is reported.
-/

namespace PlaneReport
namespace Arguments

open Power

/-- The part of a command line in which an argument stands. -/
inductive Scope where
  | root
  | run
  | init
  | config
deriving DecidableEq, Repr

inductive Flag where
  | json
  | info
  | force
  | help
  | version
deriving DecidableEq, Repr

/-- An option that takes a value. -/
inductive Parameter where
  | config
  | precision
deriving DecidableEq, Repr

def Flag.name : Flag → String
  | .json => "json"
  | .info => "info"
  | .force => "force"
  | .help => "help"
  | .version => "version"

def Flag.letter? : Flag → Option Char
  | .json => none
  | .info => none
  | .force => some 'f'
  | .help => some 'h'
  | .version => some 'V'

def Flag.shown (flag : Flag) : String :=
  "--" ++ flag.name

def Parameter.name : Parameter → String
  | .config => "config"
  | .precision => "precision"

def Parameter.letter : Parameter → Char
  | .config => 'c'
  | .precision => 'p'

def Parameter.shown : Parameter → String
  | .config => "--config <CONFIG>"
  | .precision => "--precision <PRECISION>"

namespace Scope

def flags : Scope → List Flag
  | .root => [.json, .info, .help, .version]
  | .run => [.json, .info, .help]
  | .init => [.json, .info, .force, .help]
  | .config => [.json, .info, .help]

def parameters : Scope → List Parameter
  | .run => [.config, .precision]
  | _ => [.config]

/-- The scope that the name of a command opens. -/
def command? (scope : Scope) (name : String) : Option Scope :=
  if scope ≠ .root then none
  else if name = "run" then some .run
  else if name = "init" then some .init
  else if name = "config" then some .config
  else none

def helpText : Scope → String
  | .root => Help.root
  | .run => Help.run
  | .init => Help.init
  | .config => Help.config

end Scope

/-- What a command line comes to if it asks for no run. -/
inductive Stop where
  /-- A text is shown. -/
  | text (text : String)
  | usage (e : UsageError)
deriving DecidableEq, Repr

/-- What the arguments of one scope have brought so far. -/
structure Scan where
  scope : Scope
  raised : List Flag := []
  config : Option String := none
  precision : Option UInt64 := none
  /-- An option that is not judged yet, with its value if it has come. -/
  pending : Option (Parameter × Option String) := none
deriving DecidableEq, Repr

/-- A count of decimal places; the first character that spoils it decides why there is none. -/
def readCount (value : Nat) : List Char → Except String UInt64
  | [] => .ok (UInt64.ofNat value)
  | c :: rest =>
    if !Decimal.isDigit c then .error "invalid digit found in string"
    else
      let next := 10 * value + Decimal.digitValue c
      if 2 ^ (64 : Nat) ≤ next then .error "number too large to fit in target type"
      else readCount next rest

/-- A count of decimal places, perhaps after a plus sign. -/
def countOfText (text : String) : Except String UInt64 :=
  match text.toList with
  | [] => .error "cannot parse integer from empty string"
  | ['+'] => .error "invalid digit found in string"
  | '+' :: digits => readCount 0 digits
  | digits => readCount 0 digits

namespace Scan

/-- Gives an option its value. -/
def take (scan : Scan) (parameter : Parameter) (value : String) : Except UsageError Scan :=
  match parameter with
  | .config =>
    if scan.config.isSome then .error (.repeated parameter.shown)
    else if value.isEmpty then .error (.missingValue parameter.shown)
    else .ok { scan with config := some value }
  | .precision =>
    if scan.precision.isSome then .error (.repeated parameter.shown)
    else
      match countOfText value with
      | .ok places => .ok { scan with precision := some places }
      | .error cause => .error (.invalidValue value parameter.shown cause)

/-- Judges the option that is pending. -/
def settle (scan : Scan) : Except UsageError Scan :=
  match scan.pending with
  | none => .ok scan
  | some (parameter, none) => .error (.missingValue parameter.shown)
  | some (parameter, some value) => { scan with pending := none }.take parameter value

/-- Whether an option waits for its value. -/
def isWaiting (scan : Scan) : Bool :=
  match scan.pending with
  | some (_, none) => true
  | _ => false

def raise (scan : Scan) (flag : Flag) : Except Stop Scan := do
  let scan ← scan.settle.mapError .usage
  if flag = .help then throw (.text scan.scope.helpText)
  else if flag = .version then throw (.text Help.version)
  else if scan.raised.contains flag then throw (.usage (.repeated flag.shown))
  else return { scan with raised := flag :: scan.raised }

/-- Meets an option whose value is attached to it, or has yet to come. -/
def meet (scan : Scan) (parameter : Parameter) (value? : Option String) : Except Stop Scan := do
  let scan ← scan.settle.mapError .usage
  match value? with
  | some value => (scan.take parameter value).mapError .usage
  | none => return { scan with pending := some (parameter, none) }

/-- An option by its name, and what follows an equal sign. -/
def readNamed (scan : Scan) (name : String) (value? : Option String) : Except Stop Scan :=
  match scan.scope.flags.find? fun flag => flag.name == name with
  | some flag =>
    match value? with
    | some value => .error (.usage (.unexpectedValue value flag.shown))
    | none => scan.raise flag
  | none =>
    match scan.scope.parameters.find? fun parameter => parameter.name == name with
    | some parameter => scan.meet parameter value?
    | none => .error (.usage (.unexpectedArgument ("--" ++ name)))

/-- Options by their letters; one that takes a value takes the rest. -/
def readLetters (scan : Scan) : List Char → Except Stop Scan
  | [] => .ok scan
  | c :: rest =>
    match scan.scope.flags.find? fun flag => flag.letter? == some c with
    | some flag => do
      let scan ← scan.raise flag
      scan.readLetters rest
    | none =>
      match scan.scope.parameters.find? fun parameter => parameter.letter == c with
      | some parameter =>
        match rest with
        | [] => scan.meet parameter none
        | '=' :: value => scan.meet parameter (some (String.ofList value))
        | value => scan.meet parameter (some (String.ofList value))
      | none => .error (.usage (.unexpectedArgument ("-" ++ String.singleton c)))

end Scan

/-- What the names after `help` ask for. -/
def helpOn : List String → Stop
  | [] => .text Help.root
  | name :: rest =>
    let text? :=
      if name = "help" then some Help.help
      else (Scope.command? .root name).map Scope.helpText
    match text?, rest with
    | none, _ => .usage (.unknownCommand name)
    | some text, [] => .text text
    | some _, next :: _ => .usage (.unknownCommand next)

/-- An argument that is no option, where none is expected.  After two dashes names of commands mean
nothing. -/
def stray (scope : Scope) (afterDashes : Bool) (text : String) : Stop :=
  let isCommand := (scope.command? text).isSome || text = "help"
  if scope = .root && !(afterDashes && isCommand) then .usage (.unknownCommand text)
  else .usage (.unexpectedArgument text)

/-- Reads the arguments of one scope, up to the name of a command; the result tells which, and what
follows it. -/
def scanArguments (scan : Scan) :
    List String → Except Stop (Scan × Option (Scope × List String))
  | [] => .ok (scan, none)
  | text :: rest =>
    match if scan.isWaiting then none else scan.scope.command? text with
    | some scope => .ok (scan, some (scope, rest))
    | none =>
      if scan.scope = .root && text = "help" && !scan.isWaiting then .error (helpOn rest)
      else
        match text.toList with
        | ['-', '-'] =>
          match rest with
          | [] => .ok (scan, none)
          | next :: _ => .error (stray scan.scope true next)
        | '-' :: '-' :: name => do
          let (name, value) := name.span fun c => c != '='
          let value? :=
            match value with
            | [] => none
            | _ :: value => some (String.ofList value)
          let scan ← scan.readNamed (String.ofList name) value?
          scanArguments scan rest
        | '-' :: c :: letters => do
          let scan ← scan.readLetters (c :: letters)
          scanArguments scan rest
        | _ =>
          match scan.pending with
          | some (parameter, none) =>
            scanArguments { scan with pending := some (parameter, some text) } rest
          | _ => .error (stray scan.scope false text)

/-- The invocation that arguments ask for.  What stands after the name of a command is judged
first. -/
def parse (arguments : List String) : Except Stop Invocation := do
  let (root, command?) ← scanArguments { scope := .root } arguments
  match command? with
  | none =>
    let root ← root.settle.mapError .usage
    return {
      command := .report none
      config := root.config
      json := root.raised.contains .json
      info := root.raised.contains .info }
  | some (scope, rest) =>
    let (inner, _) ← scanArguments { scope := scope } rest
    let inner ← inner.settle.mapError .usage
    let root ← root.settle.mapError .usage
    return {
      command :=
        match scope with
        | .init => .initialise (inner.raised.contains .force)
        | .config => .settings
        | _ => .report inner.precision
      config := inner.config.or root.config
      json := inner.raised.contains .json || root.raised.contains .json
      info := inner.raised.contains .info || root.raised.contains .info }

end Arguments
end PlaneReport
