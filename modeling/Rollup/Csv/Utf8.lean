/-!
# Decoding UTF-8

A field of a file is text only if its octets are well-formed UTF-8: no overlong form, no
surrogate, nothing beyond the last code point. A failure reports how many octets before it are
well formed.
-/

namespace Rollup.Csv.Utf8

/-- Whether `b` is a continuation octet in the given range. -/
def within (low high : Nat) (b : UInt8) : Bool :=
  low ≤ b.toNat && b.toNat ≤ high

/-- Whether `b` is a continuation octet. -/
def isTail (b : UInt8) : Bool :=
  within 0x80 0xBF b

/-- Whether `b` may follow the first octet `a` of a sequence of three or four. -/
def isSecond (a b : UInt8) : Bool :=
  if a = 0xE0 then within 0xA0 0xBF b
  else if a = 0xED then within 0x80 0x9F b
  else if a = 0xF0 then within 0x90 0xBF b
  else if a = 0xF4 then within 0x80 0x8F b
  else isTail b

/-- The six payload bits of a continuation octet. -/
def payload (b : UInt8) : Nat :=
  b.toNat % 64

/-- The characters of a list of octets, or the number of octets in front of the first ill-formed
    sequence. `n` counts the octets passed so far. -/
def decodeFrom : (n : Nat) → List UInt8 → Except Nat (List Char)
  | _, [] => .ok []
  | n, a :: rest =>
    if a.toNat < 0x80 then
      (decodeFrom (n + 1) rest).map (Char.ofNat a.toNat :: ·)
    else match rest with
      | [] => .error n
      | b :: rest =>
        if within 0xC2 0xDF a && isTail b then
          (decodeFrom (n + 2) rest).map (Char.ofNat (a.toNat % 32 * 64 + payload b) :: ·)
        else match rest with
          | [] => .error n
          | c :: rest =>
            if within 0xE0 0xEF a && isSecond a b && isTail c then
              (decodeFrom (n + 3) rest).map
                (Char.ofNat ((a.toNat % 16 * 64 + payload b) * 64 + payload c) :: ·)
            else match rest with
              | [] => .error n
              | d :: rest =>
                if within 0xF0 0xF4 a && isSecond a b && isTail c && isTail d then
                  (decodeFrom (n + 4) rest).map
                    (Char.ofNat (((a.toNat % 8 * 64 + payload b) * 64 + payload c) * 64 +
                      payload d) :: ·)
                else .error n

/-- The text of a list of octets, or the number of octets before the first ill-formed sequence. -/
def decode (octets : List UInt8) : Except Nat String :=
  (decodeFrom 0 octets).map String.ofList

end Rollup.Csv.Utf8
