/-!
# Bytes as hexadecimal text

Two lower-case digits a byte, the high one first; either case is read back.
-/

namespace PageCache.Hex

/-- The digit for `n`, below sixteen. -/
def digit (n : Nat) : Char :=
  if n < 10 then Char.ofNat (48 + n) else Char.ofNat (87 + n)

def digitValue? (c : Char) : Option Nat :=
  if 48 ≤ c.toNat ∧ c.toNat ≤ 57 then some (c.toNat - 48)
  else if 97 ≤ c.toNat ∧ c.toNat ≤ 102 then some (c.toNat - 87)
  else if 65 ≤ c.toNat ∧ c.toNat ≤ 70 then some (c.toNat - 55)
  else none

def encodeByte (b : UInt8) : List Char :=
  [digit (b.toNat / 16), digit (b.toNat % 16)]

def encode (bytes : List UInt8) : String :=
  String.ofList (bytes.flatMap encodeByte)

/-- A word as sixteen digits. -/
def encodeWord (w : UInt64) : String :=
  encode ((List.range 8).map fun i => (w >>> (8 * (7 - i)).toUInt64).toUInt8)

def decodeDigits? : List Char → Option (List UInt8)
  | [] => some []
  | [_] => none
  | high :: low :: rest => do
    let h ← digitValue? high
    let l ← digitValue? low
    let bytes ← decodeDigits? rest
    pure (UInt8.ofNat (16 * h + l) :: bytes)

def decode? (text : String) : Option (List UInt8) :=
  decodeDigits? text.toList

end PageCache.Hex
