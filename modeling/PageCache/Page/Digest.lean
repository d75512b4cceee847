import PageCache.Hex

/-!
# Digest of a byte buffer

A short account of a buffer: its length, its first bytes, how many bytes are not zero, and the
64-bit FNV-1a hash of all of them.
-/

namespace PageCache

structure Digest where
  length : Nat
  /-- The first eight bytes, or all of a shorter buffer. -/
  head : List UInt8
  nonzero : Nat
  hash : UInt64
deriving DecidableEq

namespace Digest

def hashBasis : UInt64 := 0xcbf29ce484222325

/-- One byte of FNV-1a: xor, then multiply modulo `2 ^ 64`. -/
def hashByte (h : UInt64) (b : UInt8) : UInt64 :=
  (h ^^^ b.toUInt64) * 0x100000001b3

def ofBytes (bytes : ByteArray) : Digest where
  length := bytes.size
  head := (bytes.extract 0 8).data.toList
  nonzero := bytes.foldl (fun n b => if b == 0 then n else n + 1) 0
  hash := bytes.foldl hashByte hashBasis

def headText (d : Digest) : String :=
  Hex.encode d.head

def hashText (d : Digest) : String :=
  Hex.encodeWord d.hash

end Digest

end PageCache
