/-!
# The command line

What the arguments of the program ask for (`CommandLine.parse`): two words choose a command, and
options with two dashes set what it needs. An argument list that asks for nothing sensible has one
`UsageError`; of several faults the first one met from left to right is reported. The value of an
option is looked at only when the next argument has been seen not to change its meaning.
-/

namespace Countersign

/-- **What a key command needs**: the directory of the key files, the file's name, the password. -/
structure KeyOptions where
  directory : String
  name : String
  password : String
deriving DecidableEq

/-- **A command.** Services are given the path of their configuration. -/
inductive Command where
  | startOrchestrator (config : String)
  | startRelayer (config : String)
  | serveStore (config : String)
  | addKey (options : KeyOptions)
  | showKey (options : KeyOptions)
deriving DecidableEq

/-- **Why an argument list is no command.** -/
inductive UsageError where
  /-- Help was asked for. -/
  | help
  /-- The version was asked for. -/
  | version
  /-- The words that choose a command are missing. -/
  | missingCommand
  | unknownCommand
  | unknownArgument
  | missingArgument
  | invalidValue
  /-- An option was given twice. -/
  | repeated
  /-- A value was given to an option that takes none. -/
  | needlessValue
deriving DecidableEq

/-- The commands there are, in words. -/
def usage : String :=
  "Usage: countersign COMMAND\n\n"
    ++ "  orchestrator start --config FILE\n"
    ++ "  relayer start --config FILE\n"
    ++ "  store serve --config FILE\n"
    ++ "  keys add [--dir DIR] [--name NAME] --password PASSWORD\n"
    ++ "  keys show [--dir DIR] [--name NAME] --password PASSWORD"

namespace UsageError

/-- Whether something was asked for, and nothing is wrong. -/
def isRequest (e : UsageError) : Bool :=
  e == .help || e == .version

/-- The error in words. -/
def message : UsageError → String
  | .help => usage
  | .version => "countersign 0.1.0"
  | .missingCommand => usage
  | .unknownCommand => "error: there is no such command\n\n" ++ usage
  | .unknownArgument => "error: an argument was not expected\n\n" ++ usage
  | .missingArgument => "error: a required argument is missing\n\n" ++ usage
  | .invalidValue => "error: an option has no value or an empty one\n\n" ++ usage
  | .repeated => "error: an option was given twice\n\n" ++ usage
  | .needlessValue => "error: an option that takes no value was given one\n\n" ++ usage

end UsageError

namespace CommandLine

/-- **The commands without their options.** -/
inductive Verb where
  | startOrchestrator
  | startRelayer
  | serveStore
  | addKey
  | showKey
deriving DecidableEq

/-- The words that choose a command. -/
def topics : List (String × List (String × Verb)) :=
  [("orchestrator", [("start", .startOrchestrator)]),
   ("relayer", [("start", .startRelayer)]),
   ("store", [("serve", .serveStore)]),
   ("keys", [("add", .addKey), ("show", .showKey)])]

/-- **How an argument looks.** -/
inductive Shape where
  | dashes
  /-- Two dashes and a name, and a value behind an equals sign. -/
  | long (name : String) (value : Option String)
  /-- One dash and letters, of which the first counts. -/
  | short (first : Char)
  | plain
deriving DecidableEq

/-- How an argument looks. A single dash is a plain one. -/
def shapeOf (argument : String) : Shape :=
  match argument.toList with
  | ['-', '-'] => .dashes
  | '-' :: '-' :: rest =>
    let name := rest.takeWhile (· != '=')
    .long (String.ofList name)
      (if name.length < rest.length then some (String.ofList (rest.drop (name.length + 1)))
       else none)
  | '-' :: first :: _ => .short first
  | _ => .plain

/-! ### Choosing a command -/

/-- Help on a command, named by the words that follow. -/
def helpOn : List String → UsageError
  | [] => .help
  | [topic] => if topic = "help" ∨ (topics.lookup topic).isSome then .help else .unknownCommand
  | [topic, verb] =>
    match topics.lookup topic with
    | some verbs =>
      if verb = "help" ∨ (verbs.lookup verb).isSome then .help else .unknownCommand
    | none => .unknownCommand
  | _ => .unknownCommand

/-- Help on a command of a topic. -/
def helpWithin (verbs : List (String × Verb)) : List String → UsageError
  | [] => .help
  | [verb] => if verb = "help" ∨ (verbs.lookup verb).isSome then .help else .unknownCommand
  | _ => .unknownCommand

/-- **One word that chooses**, and the arguments behind it. Only the outermost place knows the
version. Two dashes alone make a word that would have chosen an unknown argument. -/
def choose {α : Type} (outermost : Bool) (items : List (String × α))
    (help : List String → UsageError) : List String → Except UsageError (α × List String)
  | [] => .error .missingCommand
  | word :: rest =>
    match items.lookup word with
    | some item => .ok (item, rest)
    | none =>
      -- What is helped on is named by the words behind, which are looked up without being obeyed.
      if word = "help" then .error (help rest)
      else
        match shapeOf word with
        | .dashes =>
          match rest with
          | [] => .error .missingCommand
          | next :: _ =>
            if next = "help" ∨ (items.lookup next).isSome then .error .unknownArgument
            else .error .unknownCommand
        | .long name value =>
          if name = "help" ∨ (outermost ∧ name = "version") then
            if value.isSome then .error .needlessValue
            else .error (if name = "help" then .help else .version)
          else .error .unknownArgument
        | .short first =>
          if first = 'h' then .error .help
          else if outermost ∧ first = 'V' then .error .version
          else .error .unknownArgument
        | .plain => .error .unknownCommand

/-! ### Options -/

/-- **An option**: its name, and whether its value is a path, which must not be empty. -/
structure Spec where
  name : String
  isPath : Bool
deriving DecidableEq

/-- The options of a command. -/
def specsOf : Verb → List Spec
  | .startOrchestrator | .startRelayer | .serveStore => [⟨"config", true⟩]
  | .addKey | .showKey => [⟨"dir", true⟩, ⟨"name", false⟩, ⟨"password", false⟩]

/-- What was read so far: the options with their values, and one whose value is still to be looked
at or still to come. -/
structure Given where
  values : List (String × String)
  pending : Option (Spec × Option String)

namespace Given

/-- Nothing read yet. -/
def empty : Given := ⟨[], none⟩

/-- An option with its value. -/
def accept (g : Given) (spec : Spec) (value : String) : Except UsageError Given :=
  if (g.values.lookup spec.name).isSome then .error .repeated
  else if spec.isPath ∧ value.isEmpty then .error .invalidValue
  else .ok ⟨g.values ++ [(spec.name, value)], none⟩

/-- Looking at the value that was put off. -/
def settle (g : Given) : Except UsageError Given :=
  match g.pending with
  | none => .ok g
  | some (_, none) => .error .invalidValue
  | some (spec, some value) => { g with pending := none }.accept spec value

end Given

/-- **The options of a command**, from left to right. -/
def readOptions (specs : List Spec) : List String → Given → Except UsageError Given
  | [], g => g.settle
  | argument :: rest, g =>
    match shapeOf argument with
    -- Behind two dashes there would be plain arguments, and no command takes one.
    | .dashes => if rest.isEmpty then g.settle else .error .unknownArgument
    | .long name value =>
      match specs.find? (·.name == name), value with
      | some spec, some value => do
        -- The value of the option before is known by now, so it can be looked at.
        let g ← g.settle
        let g ← g.accept spec value
        readOptions specs rest g
      | some spec, none => do
        let g ← g.settle
        readOptions specs rest { g with pending := some (spec, none) }
      | none, value =>
        if name = "help" then
          if value.isSome then .error .needlessValue
          else do
            let _ ← g.settle
            .error .help
        else .error .unknownArgument
    | .short first =>
      if first = 'h' then do
        let _ ← g.settle
        .error .help
      else .error .unknownArgument
    -- A plain argument can only be the value of the option before it.
    | .plain =>
      match g.pending with
      | some (spec, none) => readOptions specs rest { g with pending := some (spec, some argument) }
      | _ => .error .unknownArgument

/-- A value that must be there. -/
def required (value : Option String) : Except UsageError String :=
  match value with
  | some value => .ok value
  | none => .error .missingArgument

/-- The command of a verb with its options. A password that is not given is taken from the
surroundings. -/
def Verb.command (verb : Verb) (g : Given) (password : Option String) :
    Except UsageError Command := do
  let config : Except UsageError String := required (g.values.lookup "config")
  let key : Except UsageError KeyOptions := do
    let password ← required ((g.values.lookup "password").or password)
    return ⟨(g.values.lookup "dir").getD "keys", (g.values.lookup "name").getD "orchestrator",
      password⟩
  match verb with
  | .startOrchestrator => return .startOrchestrator (← config)
  | .startRelayer => return .startRelayer (← config)
  | .serveStore => return .serveStore (← config)
  | .addKey => return .addKey (← key)
  | .showKey => return .showKey (← key)

/-- The command that arguments ask for, the program's name not among them. The password of the
surroundings stands in for one that is not given. -/
def parse (password : Option String) (arguments : List String) : Except UsageError Command := do
  let (verbs, rest) ← choose true topics helpOn arguments
  let (verb, rest) ← choose false verbs (helpWithin verbs) rest
  let g ← readOptions (specsOf verb) rest .empty
  verb.command g password

end CommandLine

/-- The name of the variable that holds the password of the key files. -/
def passwordVariable : String := "BLOBSTREAM_KEYSTORE_PASSWORD"

/-- The password of the key files, which must be given. -/
def requirePassword (password : Option String) : Except String String :=
  match password with
  | some password => .ok password
  | none => .error (passwordVariable ++ " must be set to unlock the keystore")

end Countersign
