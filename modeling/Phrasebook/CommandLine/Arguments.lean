/-
**Command-line arguments.**

An option takes its value from behind an equals sign or from the next argument; a next argument that
looks like an option is no value. `--intent` and `--generic-intent` may be repeated and add up in
their order, every other option stands once at most. A request for the version or for help is
granted as soon as it is met.
-/

import Phrasebook.FileTree.Path
import Phrasebook.Intent

namespace Phrasebook.CommandLine

/-- The options given. -/
structure Arguments where
  config : Option Path := none
  buildDirectory : Option Path := none
  utterances : Option Path := none
  entities : Option Path := none
  intents : List String := []
  genericIntents : List GenericIntent := []
  pretty : Bool := false
  deriving DecidableEq, Repr

/-- What the command line asks for. -/
inductive Request where
  | run (arguments : Arguments)
  | version
  | help
  | misuse
  deriving DecidableEq, Repr

/-- The options that take a value. -/
inductive ValueOption where
  | config
  | buildDirectory
  | utterances
  | entities
  | intent
  | genericIntent
  deriving DecidableEq, Repr

/-- The option of a name. -/
def ValueOption.ofName? : String → Option ValueOption
  | "config" => some config
  | "build-dir" => some buildDirectory
  | "utterances" => some utterances
  | "entities" => some entities
  | "intent" => some intent
  | "generic-intent" => some genericIntent
  | _ => none

/-- A path given once at most and not empty. -/
def newPath (old : Option Path) (value : String) : Option (Option Path) :=
  if old.isSome || value.isEmpty then none else some (some ⟨value⟩)

/-- The arguments with one more option, unless its value is refused. -/
def Arguments.set (arguments : Arguments) (option : ValueOption) (value : String) :
    Option Arguments :=
  match option with
  | .config => (newPath arguments.config value).map fun path => { arguments with config := path }
  | .buildDirectory => (newPath arguments.buildDirectory value).map fun path =>
    { arguments with buildDirectory := path }
  | .utterances => (newPath arguments.utterances value).map fun path =>
    { arguments with utterances := path }
  | .entities => (newPath arguments.entities value).map fun path =>
    { arguments with entities := path }
  | .intent => some { arguments with intents := arguments.intents ++ [value] }
  | .genericIntent => (GenericIntent.ofName? value).map fun intent =>
    { arguments with genericIntents := arguments.genericIntents ++ [intent] }

/-- An argument as the options are told from the rest. -/
inductive Token where
  | long (name : String) (value : Option String)
  | short (letter : Char)
  | endOfOptions
  | plain (text : String)
  deriving DecidableEq, Repr

/-- The token of an argument. -/
def Token.of (argument : String) : Token :=
  match argument.toList with
  | ['-', '-'] => .endOfOptions
  | '-' :: '-' :: rest =>
    match rest.dropWhile (· != '=') with
    | [] => .long (String.ofList rest) none
    | _ :: value => .long (String.ofList (rest.takeWhile (· != '='))) (some (String.ofList value))
  | '-' :: letter :: _ => .short letter
  | _ => .plain argument

/-- What the arguments ask for, those in `arguments` given already. -/
def parseFrom (arguments : Arguments) : List String → Request
  | [] => .run arguments
  | argument :: rest =>
    match Token.of argument with
    | .plain _ => .misuse
    | .endOfOptions => if rest.isEmpty then .run arguments else .misuse
    | .short letter => if letter = 'V' then .version else if letter = 'h' then .help else .misuse
    | .long "pretty" none =>
      if arguments.pretty then .misuse else parseFrom { arguments with pretty := true } rest
    | .long "version" none => .version
    | .long "help" none => .help
    | .long name attached =>
      match ValueOption.ofName? name, attached, rest with
      | none, _, _ => .misuse
      | some option, some value, rest =>
        match arguments.set option value with
        | some arguments => parseFrom arguments rest
        | none => .misuse
      | some _, none, [] => .misuse
      | some option, none, next :: rest =>
        match Token.of next with
        | .plain value =>
          match arguments.set option value with
          | some arguments => parseFrom arguments rest
          | none => .misuse
        | _ => .misuse

/-- What the command line asks for. The file of settings may also be named by the environment. -/
def parse (arguments : List String) (environmentConfig : Option String) : Request :=
  match parseFrom {} arguments, environmentConfig with
  | .run given, some value =>
    if given.config.isSome then .run given
    else match newPath none value with
      | some path => .run { given with config := path }
      | none => .misuse
  | request, _ => request

end Phrasebook.CommandLine
