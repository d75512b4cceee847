/-!
# Numbers in arguments

Decimal digits, with one leading sign where the kind of number admits it. A text is read from the
left, and the first thing wrong with it is what is reported.
-/

namespace PageCache.CommandLine

inductive NumberError
  | empty
  | invalidDigit
  | tooLarge
  | tooSmall
deriving DecidableEq

def NumberError.message : NumberError → String
  | empty => "cannot parse integer from empty string"
  | invalidDigit => "invalid digit found in string"
  | tooLarge => "number too large to fit in target type"
  | tooSmall => "number too small to fit in target type"

/-- Read digits onto `acc`; the first number above `limit` ends the reading with `beyond`. -/
def readDigits (limit : Nat) (beyond : NumberError) : Nat → List Char → Except NumberError Nat
  | acc, [] => .ok acc
  | acc, c :: rest =>
    if c.isDigit then
      let n := 10 * acc + (c.toNat - '0'.toNat)
      if n ≤ limit then readDigits limit beyond n rest else .error beyond
    else .error .invalidDigit

/-- A number that is at most `limit`. A plus sign may stand in front. -/
def readUnsigned (limit : Nat) (text : String) : Except NumberError Nat :=
  match text.toList with
  | [] => .error .empty
  | ['+'] => .error .invalidDigit
  | '+' :: digits => readDigits limit .tooLarge 0 digits
  | digits => readDigits limit .tooLarge 0 digits

/-- A number of 64 bits with a sign. -/
def readSigned (text : String) : Except NumberError Int :=
  match text.toList with
  | [] => .error .empty
  | ['+'] | ['-'] => .error .invalidDigit
  | '-' :: digits => (readDigits (UInt64.size / 2) .tooSmall 0 digits).map fun n => -(n : Int)
  | '+' :: digits => (readDigits (UInt64.size / 2 - 1) .tooLarge 0 digits).map Int.ofNat
  | digits => (readDigits (UInt64.size / 2 - 1) .tooLarge 0 digits).map Int.ofNat

end PageCache.CommandLine
