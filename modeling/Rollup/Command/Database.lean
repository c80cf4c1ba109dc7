import Rollup.Command.Address
import Rollup.Command.Arguments

/-!
# The database of an invocation

Where a store is kept: in the file that the invocation or the environment names, or else in the
data folder of the user. Without a name, or in memory, it is kept for one invocation only.
-/

namespace Rollup.Command

/-- Where a store is kept. -/
inductive Database where
  /-- At a path or an address. -/
  | named (text : String)
  /-- In a folder that is made if it is not there. -/
  | dataFile (folder : String)
  deriving DecidableEq, Repr

/-- The variable that names the database. -/
def databaseVariable : String := "HIERARCHY_RECON_DB_PATH"

/-- The name of the database file. -/
def databaseFileName : String := "hierarchy_recon.db"

/-- The path of the database if the environment tells of no place for it. -/
def fallbackPath : String := "./" ++ databaseFileName

/-- The path of a file in a folder. -/
def inFolder (folder name : String) : String :=
  if folder.toList.getLast? = some '/' then folder ++ name else folder ++ "/" ++ name

/-- The folder for the data of a user, if the environment tells. -/
def dataFolder? (env : String → Option String) : Option String :=
  ((env "XDG_DATA_HOME").filter fun s => s.toList.head? = some '/').or
    (((env "HOME").filter (· ≠ "")).map fun home => inFolder home ".local/share")

/-- The database of an invocation in an environment. -/
def Database.choose (env : String → Option String) (given : Option String) : Database :=
  match given with
  | some text => .named text
  | none =>
    match ((env databaseVariable).map Text.trim).filter (· ≠ "") with
    | some text => .named text
    | none =>
      match dataFolder? env with
      | some folder => .dataFile (inFolder folder programName)
      | none => .named fallbackPath

/-- The failure to open a database that `text` names. -/
def cannotOpen (text : String) : ServiceError :=
  .connection (text ++ ": unable to open database file: " ++ text)

/-- The failure to write to a database that can only be read. -/
def readOnlyDatabase : ServiceError :=
  .database "attempt to write a readonly database"

/-- The greatest number of octets in the path of a database, written out from the root on. -/
def maxDatabasePathSize : Nat := 504

/-- What the name of a database file is extended by for the file that keeps a change revocable. -/
def journalSuffix : String := "-journal"

/-- What the name of a database file is extended by for the file that collects changes. -/
def changesSuffix : String := "-wal"

/-- The path of a database file with its name extended. -/
def beside (p : Path) (suffix : String) : Path :=
  p.dropLast ++ [p.getLast?.getD "" ++ suffix]

/-- Whether what a path leads to can be opened as a database. -/
def canOpen (access : Access) : Files.Place → Bool
  | .folder | .device .output | .device .report => false
  | .absent => access = .create
  | .file _ | .device .sink | .device .full => true

/-- Whether a file holds nothing or is not there. -/
def isBlankPlace : Files.Place → Bool
  | .absent | .file [] => true
  | .file (_ :: _) | .folder | .device _ => false

/-- The files once the database file at a path has been opened: it is made if it may be, and what an
    interrupted change has left beside it is removed if it may be written. -/
def prepared (files : Files) (p : Path) (address : Address) : Files :=
  let journal := beside p journalSuffix
  let changes := beside p changesSuffix
  let isNew := isBlankPlace (files.lookup p)
  let made :=
    if files.lookup p = .absent && address.access = .create then files.write p [] else files
  if address.isReadOnly || !canOpen address.access (files.lookup p) then made
  else
    let settled :=
      if isNew || !isBlankPlace (files.lookup journal) then made.erase journal else made
    if isBlankPlace (files.lookup changes) then settled else settled.erase changes

/-- The store in a database file, given what its path leads to; `text` names the database. A file
    that is not there counts as an empty store if it may be made, and so does one of at most one
    octet. -/
def readStore (text : String) (access : Access) (place : Files.Place) :
    Except ServiceError Store :=
  if !canOpen access place then .error (cannotOpen text)
  else match place with
    | .folder | .device _ | .absent => .ok {}
    | .file octets =>
      let content := if octets.length ≤ 1 then [] else octets
      match (String.fromUTF8? (ByteArray.mk content.toArray)).bind Store.decode? with
      | some s => .ok s
      | none => .error (.database "file is not a database")

/-- The store in a database file called `name`. Opening it writes to it, so it fails where nothing
    can be written or kept. -/
def openStore (text name : String) (address : Address) (place : Files.Place) :
    Except ServiceError Store := do
  let s ← readStore text address.access place
  if address.isReadOnly then .error readOnlyDatabase
  else if Path.maxNameSize < (name ++ journalSuffix).utf8ByteSize then
    .error (.database "unable to open database file")
  else match place with
    | .device .full => .error (.database "database or disk is full")
    | .device _ => .error (.database "disk I/O error")
    | .file _ | .folder | .absent => .ok s

end Rollup.Command
