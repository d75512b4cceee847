/-!
# Numbers as bytes, low byte first

`decode` reads back what `encode` wrote, as long as the number fits (`decode_encode`).
-/

namespace PageCache.LittleEndian

/-- The low `width` bytes of `n`. -/
def encode : (width : Nat) → (n : Nat) → List UInt8
  | 0, _ => []
  | width + 1, n => UInt8.ofNat n :: encode width (n / 256)

def decode : List UInt8 → Nat
  | [] => 0
  | b :: rest => b.toNat + 256 * decode rest

@[simp]
theorem length_encode (width n : Nat) : (encode width n).length = width := by
  induction width generalizing n with
  | zero => rfl
  | succ width ih => rw [encode, List.length_cons, ih]

theorem decode_encode {width n : Nat} (h : n < Nat.pow 256 width) :
    decode (encode width n) = n := by
  induction width generalizing n with
  | zero =>
    have hn : n < 1 := h
    rw [encode, decode]
    omega
  | succ width ih =>
    have hn : n / 256 < Nat.pow 256 width :=
      Nat.div_lt_of_lt_mul (Nat.lt_of_lt_of_eq h (Nat.mul_comm (Nat.pow 256 width) 256))
    rw [encode, decode, ih hn, UInt8.toNat_ofNat']
    omega

end PageCache.LittleEndian
