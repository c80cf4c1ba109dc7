import Rollup.Text.Runs

/-!
# Addresses of databases

A database is named by a path or by an address `file:path?name=value&…#comment`. In an address
octets may be written `%41`, an authority before the path has to be empty or the local host, and
the parameters say how the database is opened. The path `:memory:` and the empty path name a
database that is kept for one invocation only.
-/

namespace Rollup.Command

/-- How a database may be opened. -/
inductive Access where
  | readOnly
  /-- An existing database is read and written. -/
  | existing
  /-- A database that is not there is made. -/
  | create
  | memory
  deriving DecidableEq, Repr

namespace Access

/-- The access that a parameter names. -/
def ofName? : String → Option Access
  | "ro" => some readOnly
  | "rw" => some existing
  | "rwc" => some create
  | "memory" => some memory
  | _ => none

/-- How much an access allows. -/
def rank : Access → Nat
  | readOnly => 1
  | existing => 2
  | create => 3
  | memory => 4

/-- Whether a parameter may ask for `b` where `a` has been granted. -/
def permits (a b : Access) : Bool :=
  b == memory || b.rank ≤ a.rank

end Access

/-- The names of the ways in which files are reached. -/
def fileLayers : List String := ["unix", "unix-none", "unix-dotfile", "unix-excl"]

/-- The name of the layer that keeps files in memory. -/
def memoryLayer : String := "memdb"

/-- An address that has been read. -/
structure Address where
  path : String
  access : Access := .create
  layer : Option String := none
  /-- Whether the file is said never to change, if anything is said about it. -/
  immutable : Option Bool := none
  deriving DecidableEq, Repr

/-- Why an address is refused. -/
inductive AddressProblem where
  | authority (name : String)
  | accessMode (name : String)
  | accessDenied (name : String)
  | cacheMode (name : String)
  | layer (name : String)
  deriving DecidableEq, Repr

/-- The wording of a problem. -/
def AddressProblem.message : AddressProblem → String
  | authority name => "invalid uri authority: " ++ name
  | accessMode name => "no such access mode: " ++ name
  | accessDenied name => "access mode not allowed: " ++ name
  | cacheMode name => "no such cache mode: " ++ name
  | layer name => "no such vfs: " ++ name

namespace Address

/-- The value of a hexadecimal digit. -/
def hexDigit? (c : Char) : Option Nat :=
  if c.isDigit then some (c.toNat - '0'.toNat)
  else if 'a' ≤ c ∧ c ≤ 'f' then some (c.toNat - 'a'.toNat + 10)
  else if 'A' ≤ c ∧ c ≤ 'F' then some (c.toNat - 'A'.toNat + 10)
  else none

/-- The octets of a part of an address, with written-out octets replaced. A zero octet ends it. -/
def octets : List Char → List UInt8
  | [] => []
  | '%' :: a :: b :: rest =>
    match hexDigit? a, hexDigit? b with
    | some high, some low =>
      if high = 0 ∧ low = 0 then [] else UInt8.ofNat (16 * high + low) :: octets rest
    | _, _ => '%'.toUInt8 :: octets (a :: b :: rest)
  | c :: rest => (String.singleton c).toUTF8.toList ++ octets rest

/-- The text of a part of an address. -/
def decode (cs : List Char) : String :=
  (String.fromUTF8? (ByteArray.mk (octets cs).toArray)).getD (String.ofList cs)

/-- The name and the value of a parameter. -/
def parameter (text : String) : String × String :=
  match Text.splitOnce? '=' text with
  | some (name, value) => (decode name.toList, decode value.toList)
  | none => (decode text.toList, "")

/-- The greatest number that a switch can be set to. -/
def maxSwitch : Nat := 2147483647

/-- Whether a switch is set: its value is a number whose last octet is not zero, or a word for
    yes. What follows a number does not count, and a number that is too great counts as zero. -/
def isSet (value : String) : Bool :=
  let digits := value.toList.takeWhile Char.isDigit
  let n := digits.foldl (fun n c => 10 * n + (c.toNat - '0'.toNat)) 0
  if digits.isEmpty then ["on", "yes", "true"].contains value.toLower
  else n ≤ maxSwitch && n % 256 != 0

/-- Applies one parameter. Parameters without a name and those with other names do nothing. -/
def apply (a : Address) : String × String → Except AddressProblem Address
  | ("mode", value) =>
    match Access.ofName? value with
    | none => .error (.accessMode value)
    | some access =>
      if a.access.permits access then .ok { a with access := access }
      else .error (.accessDenied value)
  | ("cache", value) =>
    if value = "shared" || value = "private" then .ok a else .error (.cacheMode value)
  | ("vfs", value) => .ok { a with layer := some value }
  | ("immutable", value) => .ok { a with immutable := a.immutable.or (some (isSet value)) }
  | _ => .ok a

/-- What follows the authority of an address. -/
def afterAuthority : List Char → Except AddressProblem (List Char)
  | '/' :: '/' :: rest =>
    let name := String.ofList (rest.takeWhile (· ≠ '/'))
    if name = "" || name = "localhost" then .ok (rest.dropWhile (· ≠ '/'))
    else .error (.authority name)
  | cs => .ok cs

/-- The mark of an address. -/
def mark : List Char := "file:".toList

/-- Reads a name of a database; a text without the mark of an address is a path. -/
def read (text : String) : Except AddressProblem Address :=
  if !mark.isPrefixOf text.toList then .ok { path := text }
  else do
    let rest ← afterAuthority (text.toList.drop mark.length)
    let rest := rest.takeWhile (· ≠ '#')
    let query := String.ofList ((rest.dropWhile (· ≠ '?')).drop 1)
    let a ← ((Text.split '&' query).map parameter).foldlM apply
      { path := decode (rest.takeWhile (· ≠ '?')) }
    match a.layer with
    | some name => if (memoryLayer :: fileLayers).contains name then .ok a else .error (.layer name)
    | none => .ok a

/-- Whether the database has no name and so cannot be reached from elsewhere. -/
def isNameless (a : Address) : Bool :=
  a.access == .memory || a.path == "" || a.path == ":memory:"

/-- Whether the database is kept for one invocation only. -/
def isTransient (a : Address) : Bool :=
  a.isNameless || a.layer == some memoryLayer

/-- Whether the database cannot be written. -/
def isReadOnly (a : Address) : Bool :=
  a.access == .readOnly || (a.immutable == some true && !a.isNameless)

end Address

end Rollup.Command
