import Rollup.Command.Database

/-!
# Running an invocation over files

An invocation as a function on the files of a working directory. The database is opened before the
command is carried out, and exists from then on even if the command fails.
-/

namespace Rollup.Command

/-- What an invocation leaves behind: its exit code, what it prints, its error, and the files. -/
structure Outcome where
  exit : Nat
  output : String := ""
  error : Option String := none
  files : Files
  deriving DecidableEq, Repr

/-- The exit code of a malformed invocation. -/
def usageExit : Nat := 2

/-- The exit code of a command that fails. -/
def failureExit : Nat := 1

/-- The text about the program itself. -/
def helpText : String :=
  "Usage: " ++ programName ++ " [--db <path>] <command>\n\nCommands: " ++
    Text.join ", " (entries.map (·.name)) ++ "\n"

/-- The outcome of an invocation that carries out no command. -/
def stopped (files : Files) : Stop → Outcome
  | .usage => { exit := usageExit, files := files }
  | .help => { exit := 0, output := helpText, files := files }
  | .version program =>
    { exit := 0, output := program ++ " " ++ programVersion ++ "\n", files := files }

/-- The outcome of a failure. -/
def failed (files : Files) (message : String) : Outcome :=
  { exit := failureExit, error := some ("Error: " ++ message), files := files }

/-- Delivers the output of a command. -/
def delivered (files : Files) : Output → Outcome
  | .printed text => { exit := 0, output := text, files := files }
  | .written path text =>
    let problem := fun (e : PathProblem) => failed files ("writing " ++ path ++ ": " ++ e.message)
    match files.target path with
    | .error e => problem e
    | .ok p =>
      match p.device? with
      | none => { exit := 0, files := files.write p text.toUTF8.toList }
      | some .full => problem .noSpace
      | some .output => { exit := 0, output := text, files := files }
      | some .sink | some .report => { exit := 0, files := files }

/-- Carries a command out on a store and keeps the store at a path, if there is one. -/
def runOn (files : Files) (site : Option Path) (s : Store) (c : Command) : Outcome :=
  let keep := fun (s : Store) => match site with
    | none => files
    | some p => files.write p s.encode.toUTF8.toList
  let place := match c.source? with
    | none => .absent
    | some path => files.find path
  match c.perform place s with
  | .error e => failed (keep s) e.message
  | .ok (s, output) => delivered (keep s) output

/-- Opens the database file at a path and carries a command out; `text` names the database. -/
def runIn (files : Files) (text : String) (address : Address) (p : Path) (c : Command) : Outcome :=
  if files.lookup p.parent ≠ .folder || maxDatabasePathSize < p.size then
    failed files (cannotOpen text).message
  else match openStore text (p.getLast?.getD "") address (files.lookup p) with
    | .error e => failed (prepared files p address) e.message
    | .ok s => runOn (prepared files p address) (some p) s c

/-- Opens a database and carries a command out; `text` names the database. -/
def runAt (files : Files) (text : String) (c : Command) : Outcome :=
  match Address.read text with
  | .error problem => failed files (ServiceError.connection (text ++ ": " ++ problem.message)).message
  | .ok address =>
    if address.isTransient then
      if address.isReadOnly then failed files readOnlyDatabase.message else runOn files none {} c
    else match files.resolve address.path with
      | .error _ => failed files (cannotOpen text).message
      | .ok p => runIn files text address p c

/-- Runs an invocation; `env` is its environment. -/
def run (env : String → Option String) (files : Files) (words : List String) : Outcome :=
  match readInvocation none words with
  | .error stop => stopped files stop
  | .ok invocation =>
    match Database.choose env invocation.database with
    | .named text => runAt files text invocation.command
    | .dataFile folder =>
      match files.makeFolder folder with
      | .ok files => runAt files (inFolder folder databaseFileName) invocation.command
      | .error _ => runAt files fallbackPath invocation.command

end Rollup.Command
