import Rollup.Command.Run

/-!
# The program

Reads the files that an invocation needs, carries it out, and writes what it leaves behind.
-/

namespace Rollup.Program

open Command

/-- What a path leads to on disk. -/
def placeOf (path : String) : IO Files.Place := do
  try
    let found ← IO.FS.realPath path
    if ← found.isDir then return .folder
    return .file (← IO.FS.readBinFile path).toList
  catch _ => return .absent

/-- Reports a failure. -/
def fail (message : String) : IO UInt32 := do
  IO.eprintln ("Error: " ++ message)
  return failureExit.toUInt32

/-- Delivers the output of a command. -/
def deliver : Output → IO UInt32
  | .printed text => do
    IO.print text
    return 0
  | .written path text => do
    try
      IO.FS.writeFile path text
      return 0
    catch e =>
      let problem := match e, ← placeOf path with
        | .resourceExhausted .., _ => PathProblem.noSpace
        | .invalidArgument .., _ => .nameTooLong
        | _, .folder => .isFolder
        | _, _ => .notFound
      fail ("writing " ++ path ++ ": " ++ problem.message)

/-- Carries a command out on a store; `keep` writes the store back. -/
def runOn (keep : Store → IO Unit) (s : Store) (c : Command) : IO UInt32 := do
  let place ← match c.source? with
    | none => pure .absent
    | some path => placeOf path
  match c.perform place s with
  | .error e => fail e.message
  | .ok (s, output) =>
    keep s
    deliver output

/-- Opens a database and carries a command out; `text` names the database. -/
def runAt (text : String) (c : Command) : IO UInt32 := do
  match Address.read text with
  | .error problem => fail (ServiceError.connection (text ++ ": " ++ problem.message)).message
  | .ok address =>
    let name := ((Text.split '/' address.path).getLast?).getD ""
    if address.isTransient then
      if address.isReadOnly then fail readOnlyDatabase.message else runOn (fun _ => pure ()) {} c
    else match openStore text name address (← placeOf address.path) with
      | .error e => fail e.message
      | .ok s =>
        try
          IO.FS.writeFile address.path s.encode
        catch _ =>
          return ← fail (cannotOpen text).message
        runOn (fun s => IO.FS.writeFile address.path s.encode) s c

/-- Runs an invocation. -/
def run (words : List String) : IO UInt32 := do
  match readInvocation none words with
  | .error stop =>
    let outcome := stopped {} stop
    IO.print outcome.output
    return outcome.exit.toUInt32
  | .ok invocation =>
    let names := [databaseVariable, "XDG_DATA_HOME", "HOME"]
    let values ← names.mapM fun name => do return (name, ← IO.getEnv name)
    let env := fun name => (values.lookup name).join
    match Database.choose env invocation.database with
    | .named text => runAt text invocation.command
    | .dataFile folder =>
      let path ← try
          IO.FS.createDirAll folder
          pure (inFolder folder databaseFileName)
        catch _ => pure fallbackPath
      runAt path invocation.command

end Rollup.Program

def main (args : List String) : IO UInt32 :=
  Rollup.Program.run args
