import Rollup.Csv.Marks

/-!
# Writing CSV records

A field is quoted when it holds a comma, a quote or a line end; a quote inside it is doubled. Each
record ends with a line feed. A record that would leave its line empty is written as a quoted
empty field, because an empty line is no record.
-/

namespace Rollup.Csv

/-- Whether a field with the character `c` has to be quoted. -/
def needsQuotes (c : Char) : Bool :=
  c = ',' || c = '"' || c = '\n' || c = '\r'

/-- A field as it is written. -/
def encodeField (field : List Char) : List Char :=
  if field.any needsQuotes then
    '"' :: field.flatMap (fun c => if c = '"' then ['"', '"'] else [c]) ++ ['"']
  else field

/-- A record as it is written, without its line end. -/
def encodeRecord (fields : List (List Char)) : List Char :=
  match [','].intercalate (fields.map encodeField) with
  | [] => ['"', '"']
  | line => line

/-- The text of a list of records. -/
def encode (records : List (List String)) : String :=
  String.ofList (records.flatMap fun r => encodeRecord (r.map String.toList) ++ ['\n'])

end Rollup.Csv
