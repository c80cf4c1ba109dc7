import Rollup.Command

/-!
# Reading the command line

An invocation is a command name with arguments and options in any order. Options are written
`--name value`, `--name=value`, or with their letter `-n value`, `-nvalue`. A value that follows
its option does not start with a hyphen, no option is given twice, and after `--` everything is an
argument. The database option belongs to all commands and may stand before the command name too.
-/

namespace Rollup.Command

/-- Why no command is carried out: a malformed invocation, or one that only asks for a text. -/
inductive Stop where
  | usage
  | help
  | version (program : String)
  deriving DecidableEq, Repr

/-- What a value has to be. -/
inductive ValueKind where
  | text
  /-- A path, which is not empty. -/
  | path
  | dialect
  deriving DecidableEq, Repr

/-- Whether a text is a value of the kind. -/
def ValueKind.admits : ValueKind → String → Bool
  | text, _ => true
  | path, s => s ≠ ""
  | dialect, s => (Dialect.ofName? s).isSome

/-- An option that takes a value. -/
structure OptionSpec where
  name : String
  letter : Option Char := none
  kind : ValueKind := .text
  deriving DecidableEq, Repr

/-- The arguments and options of a command. -/
structure Signature where
  arguments : List ValueKind := []
  options : List OptionSpec := []
  deriving DecidableEq, Repr

/-- The arguments and options given so far. -/
structure Given where
  arguments : List String := []
  options : List (String × String) := []
  deriving DecidableEq, Repr

namespace Given

/-- The argument at a position. -/
def argument (g : Given) (i : Nat) : String :=
  (g.arguments[i]?).getD ""

/-- The value of an option. -/
def option? (g : Given) (name : String) : Option String :=
  g.options.lookup name

/-- Adds an argument if there is room for it. -/
def addArgument (sig : Signature) (g : Given) (value : String) : Except Stop Given :=
  match sig.arguments[g.arguments.length]? with
  | none => .error .usage
  | some kind =>
    if kind.admits value then .ok { g with arguments := g.arguments ++ [value] } else .error .usage

/-- Adds the value of an option, which must not have one yet. -/
def addOption (g : Given) (o : OptionSpec) (value : String) : Except Stop Given :=
  if (g.option? o.name).isSome || !o.kind.admits value then .error .usage
  else .ok { g with options := g.options ++ [(o.name, value)] }

end Given

/-! ## Words -/

/-- Whether a word starts with a hyphen and is more than that. -/
def isMarked (word : String) : Bool :=
  match word.toList with
  | '-' :: _ :: _ => true
  | _ => false

/-- A word as an option: the option, if its name is known, and a value written in the same word. -/
inductive Mark where
  | option (o : OptionSpec) (value : Option String)
  | help
  | version
  | unknown
  deriving DecidableEq, Repr

/-- Reads the name of an option after its two hyphens. -/
def longMark (options : List OptionSpec) (body : List Char) : Mark :=
  let name := String.ofList (body.takeWhile (· ≠ '='))
  let value := match body.dropWhile (· ≠ '=') with
    | [] => none
    | _ :: rest => some (String.ofList rest)
  match options.find? (·.name == name) with
  | some o => .option o value
  | none =>
    if value.isSome then .unknown
    else if name = "help" then .help
    else if name = "version" then .version
    else .unknown

/-- Reads the letter of an option after its hyphen. -/
def shortMark (options : List OptionSpec) (letter : Char) (rest : List Char) : Mark :=
  match options.find? (·.letter == some letter) with
  | some o =>
    let value := match rest with
      | [] => none
      | '=' :: rest => some (String.ofList rest)
      | rest => some (String.ofList rest)
    .option o value
  | none => if letter = 'h' then .help else if letter = 'V' then .version else .unknown

/-- Reads a marked word. -/
def mark (options : List OptionSpec) (word : String) : Mark :=
  match word.toList with
  | '-' :: '-' :: body => longMark options body
  | '-' :: letter :: rest => shortMark options letter rest
  | _ => .unknown

/-! ## Commands -/

/-- The option for the database. -/
def databaseOption : OptionSpec := { name := "db" }

/-- Reads the words after a command name. -/
def readWords (program : String) (sig : Signature) : (plain : Bool) → Given → List String →
    Except Stop Given
  | _, g, [] => if g.arguments.length = sig.arguments.length then .ok g else .error .usage
  | true, g, word :: rest => do
    readWords program sig true (← g.addArgument sig word) rest
  | false, g, word :: rest =>
    if word = "--" then readWords program sig true g rest
    else if !isMarked word then do readWords program sig false (← g.addArgument sig word) rest
    else match mark (databaseOption :: sig.options) word with
      | .unknown => .error .usage
      | .help => .error .help
      | .version => .error (.version program)
      | .option o (some value) => do readWords program sig false (← g.addOption o value) rest
      | .option o none =>
        match rest with
        | [] => .error .usage
        | value :: rest =>
          if isMarked value then .error .usage
          else do readWords program sig false (← g.addOption o value) rest

/-- A command that can be named: its arguments and options, and how it is made of them. -/
structure Entry where
  name : String
  signature : Signature
  make : Given → Command

/-- The option for the file that an export is written to. -/
def outputOption : OptionSpec := { name := "output", letter := some 'o', kind := .path }

/-- The option for the project of a setting. -/
def projectOption : OptionSpec := { name := "project" }

/-- All commands. -/
def entries : List Entry :=
  [⟨"init-project", { arguments := [.text], options := [{ name := "name" }] },
      fun g => .initProject (g.argument 0) ((g.option? "name").getD "")⟩,
   ⟨"detect", { arguments := [.path] }, fun g => .detect (g.argument 0)⟩,
   ⟨"analyze-csv", { arguments := [.path] }, fun g => .profile (g.argument 0)⟩,
   ⟨"import",
      { arguments := [.text, .path], options := [{ name := "dialect", kind := .dialect }] },
      fun g => .importHierarchy (g.argument 0) (g.argument 1)
        ((g.option? "dialect").bind Dialect.ofName?)⟩,
   ⟨"import-mappings", { arguments := [.text, .path] },
      fun g => .importMappings (g.argument 0) (g.argument 1)⟩,
   ⟨"export", { arguments := [.text], options := [outputOption] },
      fun g => .exportHierarchy (g.argument 0) (g.option? outputOption.name)⟩,
   ⟨"export-mappings", { arguments := [.text], options := [outputOption] },
      fun g => .exportMappings (g.argument 0) (g.option? outputOption.name)⟩,
   ⟨"resolve", { arguments := [.text] }, fun g => .resolve (g.argument 0)⟩,
   ⟨"analyze", { arguments := [.text] }, fun g => .analyze (g.argument 0)⟩,
   ⟨"set-config", { arguments := [.text, .text], options := [projectOption] },
      fun g => .setSetting (g.argument 0) (g.argument 1) (g.option? projectOption.name)⟩,
   ⟨"show-config", { options := [projectOption] },
      fun g => .showSettings (g.option? projectOption.name)⟩]

/-- What an invocation asks for: a command, and the database it names. -/
structure Invocation where
  command : Command
  database : Option String
  deriving DecidableEq, Repr

/-- The name that the program has in texts about itself. -/
def programName : String := "hierarchy-recon"

/-- The version of the program. -/
def programVersion : String := "0.1.0"

/-- What the words after the help command ask for. No command has commands of its own. -/
def helpTopic : List String → Stop
  | [] => .help
  | [word] => if word = "help" || entries.any (·.name == word) then .help else .usage
  | _ :: _ :: _ => .usage

/-- Reads an invocation; `database` is the one named so far. -/
def readInvocation : (database : Option String) → List String → Except Stop Invocation
  | _, [] => .error .usage
  | database, word :: rest =>
    if isMarked word then
      match mark [databaseOption] word with
      | .unknown => .error .usage
      | .help => .error .help
      | .version => .error (.version programName)
      | .option _ (some value) =>
        if database.isSome then .error .usage else readInvocation (some value) rest
      | .option _ none =>
        match rest with
        | [] => .error .usage
        | value :: rest =>
          if isMarked value || database.isSome then .error .usage
          else readInvocation (some value) rest
    else match entries.find? (·.name == word) with
      | none => .error (if word = "help" then helpTopic rest else .usage)
      | some entry => do
        let g ← readWords (programName ++ "-" ++ word) entry.signature false {} rest
        return ⟨entry.make g, (g.option? databaseOption.name).or database⟩

end Rollup.Command
