import Rollup.Csv.Marks

/-!
# Reading CSV records

Fields are separated by commas and records end at a line feed or a carriage return. A quote is
special only where a field starts: it opens a quoted field, in which a doubled quote stands for
one quote. What follows a closing quote is taken literally up to the next comma or line end. Line
ends before a record are skipped, so empty lines are no records. An open quote runs to the end of
the input.
-/

namespace Rollup.Csv

variable {α : Type}

/-- A place in the input: the line, counted from one, and the number of symbols before it. -/
structure Place where
  line : Nat
  offset : Nat
  deriving DecidableEq, Repr

/-- The place where the input starts. -/
def Place.start : Place := ⟨1, 0⟩

/-- A record: where its reading started, and its fields. -/
structure Record (α : Type) where
  place : Place
  fields : List (List α)
  deriving DecidableEq, Repr

/-- What the reader has just seen. -/
inductive Mode where
  /-- Nothing of the next record yet. -/
  | recordStart
  /-- A comma. -/
  | fieldStart
  /-- A symbol of a field outside quotes. -/
  | plain
  /-- An opening quote or a symbol of a quoted field. -/
  | quoted
  /-- A quote inside a quoted field: its end, or the first half of a doubled quote. -/
  | quoteSeen
  deriving DecidableEq, Repr

/-- The state of the reader between two symbols. The field being read and the fields before it
    are kept last first. -/
structure Reading (α : Type) where
  mode : Mode
  field : List α
  fields : List (List α)
  began : Place
  place : Place

namespace Reading

/-- The state before the first symbol. -/
def start (place : Place) : Reading α :=
  ⟨.recordStart, [], [], .start, place⟩

/-- The record that ends here. -/
def record (r : Reading α) : Record α :=
  ⟨r.began, (r.field.reverse :: r.fields).reverse⟩

/-- The state after the field being read. -/
def closeField (r : Reading α) : Reading α :=
  { r with mode := .fieldStart, field := [], fields := r.field.reverse :: r.fields }

/-- The state after a symbol of the field being read. -/
def keep (r : Reading α) (mode : Mode) (c : α) : Reading α :=
  { r with mode := mode, field := c :: r.field }

/-- The state after the record that ends here. -/
def nextRecord (r : Reading α) : Reading α :=
  ⟨.recordStart, [], [], r.place, r.place⟩

variable [DecidableEq α]

/-- The place after a symbol. -/
def advance (m : Marks α) (r : Reading α) (c : α) : Reading α :=
  { r with place := ⟨r.place.line + if c = m.lineFeed then 1 else 0, r.place.offset + 1⟩ }

/-- Whether `c` ends a line. -/
def endsLine (m : Marks α) (c : α) : Bool :=
  c = m.lineFeed || c = m.carriageReturn

/-- The effect of a symbol that is outside quotes and does not open one: the next state, and the
    record that it ends, if any. -/
def stepPlain (m : Marks α) (r : Reading α) (c : α) : Reading α × Option (Record α) :=
  if c = m.comma then (r.closeField, none)
  else if endsLine m c then (r.nextRecord, some r.record)
  else (r.keep .plain c, none)

/-- The effect of one symbol. -/
def step (m : Marks α) (r : Reading α) (c : α) : Reading α × Option (Record α) :=
  let r := r.advance m c
  match r.mode with
  | .recordStart =>
    if endsLine m c then (r, none)
    else if c = m.quote then ({ r with mode := .quoted }, none)
    else r.stepPlain m c
  | .fieldStart => if c = m.quote then ({ r with mode := .quoted }, none) else r.stepPlain m c
  | .plain => r.stepPlain m c
  | .quoted =>
    if c = m.quote then ({ r with mode := .quoteSeen }, none) else (r.keep .quoted c, none)
  | .quoteSeen => if c = m.quote then (r.keep .quoted c, none) else r.stepPlain m c

/-- The records from a state on. At the end of the input an unfinished record is complete. -/
def run (m : Marks α) : Reading α → List α → List (Record α)
  | r, [] => if r.mode = .recordStart then [] else [r.record]
  | r, c :: rest =>
    match r.step m c with
    | (r', none) => run m r' rest
    | (r', some record) => record :: run m r' rest

end Reading

/-- The records of an input; a byte order mark in front of it is skipped. -/
def records [DecidableEq α] (m : Marks α) (input : List α) : List (Record α) :=
  if m.byteOrderMark.isPrefixOf input then
    let skipped := m.byteOrderMark.length
    (Reading.start ⟨1, skipped⟩).run m (input.drop skipped)
  else (Reading.start .start).run m input

end Rollup.Csv
