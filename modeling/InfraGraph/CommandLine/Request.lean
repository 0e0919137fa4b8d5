/-!
# Requests

What the arguments of a run ask for. The program has three commands, each with operands and options
of its own; some options may stand before the command as well as behind it. Arguments are read from
left to right, and the first one that cannot be understood, or that asks for help, settles the
matter.

An option with a value takes it from the same argument (`--format=json`, `-fjson`, `-f=json`) or
from the next one, unless that looks like an option. Behind `--` there are only operands.

## Main definitions

* `Switch`, `Grammar` — the options and operands that a place on the command line knows.
* `Grammar.scan` — reads arguments under a grammar.
* `Request.ofArguments` — what a run is asked for.
-/

namespace InfraGraph

/-- How a graph is written. -/
inductive Format where
  | text
  | json
deriving DecidableEq, Repr

/-- What a run does. -/
inductive Command where
  /-- Writes the graph of a unit. -/
  | lower (tree : String) (format : Format) (source : Option String)
  /-- Lists the references to a declaration. -/
  | references (tree name : String)
  /-- Reports what the rules find. -/
  | lint (tree : String) (source : Option String)
deriving DecidableEq, Repr

/-- What a run is asked for. -/
inductive Request where
  | help
  | version
  /-- The arguments cannot be understood. -/
  | refused
  | run (config : Option String) (command : Command)
deriving DecidableEq, Repr

namespace Request

/-- The paths a request may have to read. -/
def paths : Request → List String
  | .run config command =>
    config.toList
      ++ match command with
        | .lower tree _ source => tree :: source.toList
        | .references tree _ => [tree]
        | .lint tree source => tree :: source.toList
  | _ => []

end Request

/-! ## Grammars -/

/-- An option that takes a value. -/
inductive Slot where
  | config
  | format
  | source
deriving DecidableEq, Repr

/-- The formats by name. -/
def Format.table : List (String × Format) :=
  [("text", .text), ("json", .json)]

/-- Whether a path can be asked for: it has to have a name. -/
def acceptsPath (path : String) : Bool :=
  path != ""

/-- Whether an option takes that value. -/
def Slot.accepts (slot : Slot) (value : String) : Bool :=
  match slot with
  | .format => (Format.table.lookup value).isSome
  | .config | .source => acceptsPath value

/-- What an option does. -/
inductive Switch where
  | help
  | version
  /-- Asks for more logging, of which no answer shows anything. -/
  | verbose
  | takes (slot : Slot)
deriving DecidableEq, Repr

/-- The options and operands that a place on the command line knows. -/
structure Grammar where
  long : List (String × Switch)
  short : List (Char × Switch)
  /-- Which operands are accepted, in order. -/
  operands : List (String → Bool)

namespace Grammar

/-- The place before the command. -/
def program : Grammar where
  long :=
    [("help", .help), ("version", .version), ("verbose", .verbose), ("config", .takes .config)]
  short := [('h', .help), ('V', .version), ('v', .verbose)]
  operands := []

/-- The place behind a command with options and operands of its own. -/
def command (long : List (String × Switch)) (short : List (Char × Switch))
    (operands : List (String → Bool)) : Grammar where
  long := [("help", .help), ("verbose", .verbose), ("config", .takes .config)] ++ long
  short := [('h', .help), ('v', .verbose)] ++ short
  operands := operands

/-- The place behind `lower`. -/
def lower : Grammar :=
  command [("format", .takes .format), ("source", .takes .source)] [('f', .takes .format)]
    [acceptsPath]

/-- The place behind `references`. -/
def references : Grammar :=
  command [] [] [acceptsPath, fun _ => true]

/-- The place behind `lint`. -/
def lint : Grammar :=
  command [("source", .takes .source)] [] [acceptsPath]

/-- The commands by name. -/
def commands : List (String × Grammar) :=
  [("lower", lower), ("references", references), ("lint", lint)]

end Grammar

/-! ## Reading arguments -/

/-- What was given so far at one place. -/
structure Given where
  values : List (Slot × String)
  operands : List String
deriving DecidableEq, Repr

namespace Given

/-- Nothing. -/
def nothing : Given :=
  ⟨[], []⟩

/-- The value of an option. -/
def value? (g : Given) (slot : Slot) : Option String :=
  g.values.lookup slot

/-- Gives an option its value, which it may have once. -/
def put (g : Given) (slot : Slot) (value : String) : Except Request Given :=
  if slot.accepts value && (g.value? slot).isNone then
    .ok { g with values := (slot, value) :: g.values }
  else .error .refused

end Given

namespace Grammar

/-- Adds operands, as long as the grammar has a place for them and accepts them. -/
def addOperands (g : Grammar) (given : Given) (args : List String) : Except Request Given :=
  let accepts := g.operands.drop given.operands.length
  if args.length ≤ accepts.length && (accepts.zip args).all (fun (accept, arg) => accept arg) then
    .ok { given with operands := given.operands ++ args }
  else .error .refused

/-- Reads the letters behind a dash. The last one may be an option that awaits its value. -/
def scanLetters (g : Grammar) (given : Given) : List Char → Except Request (Given × Option Slot)
  | [] => .ok (given, none)
  | letter :: rest =>
    match g.short.lookup letter, rest with
    | none, _ => .error .refused
    | some .help, _ => .error .help
    | some .version, _ => .error .version
    | some .verbose, rest => scanLetters g given rest
    | some (.takes slot), [] => .ok (given, some slot)
    | some (.takes slot), '=' :: value => (given.put slot (String.ofList value)).map (·, none)
    | some (.takes slot), value => (given.put slot (String.ofList value)).map (·, none)

/-- Reads what stands behind two dashes: a name, and perhaps a value. -/
def scanWord (g : Grammar) (given : Given) (word : List Char) :
    Except Request (Given × Option Slot) :=
  let name := String.ofList (word.takeWhile (· != '='))
  match g.long.lookup name, word.dropWhile (· != '=') with
  | none, _ => .error .refused
  | some .help, [] => .error .help
  | some .version, [] => .error .version
  | some .verbose, [] => .ok (given, none)
  | some (.takes slot), [] => .ok (given, some slot)
  | some (.takes slot), _ :: value => (given.put slot (String.ofList value)).map (·, none)
  | some _, _ :: _ => .error .refused

/-- Whether an argument looks like an option. A single dash does not. -/
def looksLikeOption (arg : String) : Bool :=
  match arg.toList with
  | '-' :: _ :: _ => true
  | _ => false

/-- Reads one argument that looks like an option. -/
def scanOption (g : Grammar) (given : Given) (arg : String) :
    Except Request (Given × Option Slot) :=
  match arg.toList with
  | '-' :: '-' :: word => g.scanWord given word
  | _ :: letters => g.scanLetters given letters
  | [] => .error .refused

/-- Reads arguments. Where no operand is known, the first one ends the reading, and it and what
follows are left over. -/
def scan (g : Grammar) : Given → List String → Except Request (Given × List String)
  | given, [] => .ok (given, [])
  | given, arg :: args =>
    if arg = "--" then (g.addOperands given args).map (·, [])
    else if looksLikeOption arg then
      match g.scanOption given arg with
      | .error request => .error request
      | .ok (given, none) => scan g given args
      | .ok (given, some slot) =>
        match args with
        | [] => .error .refused
        | value :: args =>
          if looksLikeOption value then .error .refused
          else
            match given.put slot value with
            | .error request => .error request
            | .ok given => scan g given args
    else if g.operands.isEmpty then .ok (given, arg :: args)
    else
      match g.addOperands given [arg] with
      | .error request => .error request
      | .ok given => scan g given args

end Grammar

/-! ## Commands -/

/-- The command of a name with what it was given, if it has all its operands. -/
def Command.ofGiven? (name : String) (given : Given) : Option Command :=
  let format := ((given.value? .format).bind fun f => Format.table.lookup f).getD .text
  match name, given.operands with
  | "lower", [tree] => some (.lower tree format (given.value? .source))
  | "references", [tree, name] => some (.references tree name)
  | "lint", [tree] => some (.lint tree (given.value? .source))
  | _, _ => none

namespace Request

/-- The answer to `help`, which may be followed by what help is wanted for. -/
def helpFor : List String → Request
  | [] => .help
  | [topic] => if topic = "help" || (Grammar.commands.lookup topic).isSome then .help else .refused
  | _ => .refused

/-- What the arguments behind a command ask for, given those before it. An option that stands on
both sides has the value behind the command. -/
def ofCommand (before : Given) (name : String) (args : List String) : Except Request Request := do
  let some grammar := Grammar.commands.lookup name | throw .refused
  let (given, _) ← grammar.scan .nothing args
  match Command.ofGiven? name given with
  | some command => return .run (given.value? .config <|> before.value? .config) command
  | none => throw .refused

/-- What a run is asked for, if no argument settles that on its own. -/
def ofArguments? (args : List String) : Except Request Request := do
  let (before, rest) ← Grammar.program.scan .nothing args
  match rest with
  | [] => throw .refused
  | "help" :: topics => return helpFor topics
  | name :: args => ofCommand before name args

/-- What a run is asked for. -/
def ofArguments (args : List String) : Request :=
  match ofArguments? args with
  | .ok request => request
  | .error request => request

end Request

end InfraGraph
