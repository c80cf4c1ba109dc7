/-!
# The alphabet of CSV

The CSV grammar speaks of four marks only, so it can be read in any alphabet that has them: the
characters of a text, or the octets of a file whose encoding is not known to be right.
-/

namespace Rollup.Csv

/-- The marks of the CSV grammar in an alphabet, and the byte order mark as spelled in it. -/
structure Marks (α : Type) where
  comma : α
  quote : α
  lineFeed : α
  carriageReturn : α
  byteOrderMark : List α

/-- The marks as characters. -/
def Marks.chars : Marks Char where
  comma := ','
  quote := '"'
  lineFeed := '\n'
  carriageReturn := '\r'
  byteOrderMark := ['\uFEFF']

/-- The marks as octets. -/
def Marks.octets : Marks UInt8 where
  comma := 0x2C
  quote := 0x22
  lineFeed := 0x0A
  carriageReturn := 0x0D
  byteOrderMark := [0xEF, 0xBB, 0xBF]

end Rollup.Csv
