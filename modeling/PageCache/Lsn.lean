/-!
# Log sequence numbers

A pool may stand beside a write-ahead log; it carries the number up to which that log is known to
be durable, and never acts on it.
-/

namespace PageCache

structure Lsn where
  val : UInt64
deriving DecidableEq, Ord

namespace Lsn

/-- Where a log starts. -/
def zero : Lsn :=
  ⟨0⟩

instance : Inhabited Lsn := ⟨zero⟩

instance : ToString Lsn := ⟨fun n => toString n.val.toNat⟩

/-- The number under the name of its type. -/
def tagged (n : Lsn) : String :=
  "Lsn(" ++ toString n ++ ")"

end Lsn

end PageCache
