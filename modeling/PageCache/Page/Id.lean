import Std.Data.ExtTreeMap

/-!
# Page ids

Pages are named by the 32-bit numbers. An id carries its bound, so that arithmetic on ids is
done in `Nat` and every place where an id could leave the range has to say what happens there:
`ofNat?` and `plus?` refuse, `wrap` goes round.
-/

namespace PageCache

/-- Bytes in every page, in memory and on disk. Nothing here depends on the number but the
offsets in a page file, so it stays folded. -/
@[irreducible]
def pageSize : Nat := 4096

theorem pageSize_eq : pageSize = 4096 := by
  unfold pageSize; rfl

theorem pageSize_pos : 0 < pageSize := by
  rw [pageSize_eq]; decide

structure PageId where
  val : Nat
  isLt : val < UInt32.size
deriving DecidableEq

namespace PageId

@[ext]
theorem ext {p q : PageId} (h : p.val = q.val) : p = q := by
  cases p; cases q; simp_all

/-- Ids are ordered by their numbers. -/
instance : Ord PageId := ⟨compareOn val⟩

instance : Std.TransOrd PageId := inferInstanceAs (Std.TransCmp (compareOn val))

instance : Std.LawfulEqOrd PageId where
  eq_of_compare h := ext (Std.LawfulEqOrd.eq_of_compare (α := Nat) h)

/-- The id numbered `n`, if there is one. -/
def ofNat? (n : Nat) : Option PageId :=
  if h : n < UInt32.size then some ⟨n, h⟩ else none

/-- The id `k` places further on, unless the numbers end before it. -/
def plus? (p : PageId) (k : Nat) : Option PageId :=
  ofNat? (p.val + k)

/-- The id whose number is `n` modulo `2 ^ 32`: counters that are kept in one word start over. -/
def wrap (n : Nat) : PageId :=
  ⟨n % UInt32.size, Nat.mod_lt _ (by decide)⟩

/-- Where the page starts in a file that holds the pages one after the other. -/
def offset (p : PageId) : Nat :=
  p.val * pageSize

instance : ToString PageId := ⟨fun p => toString p.val⟩

/-- The id under the name of its type. -/
def tagged (p : PageId) : String :=
  "PageId(" ++ toString p ++ ")"

/-! ## Laws -/

/-- A number that is small enough is the page of that number. -/
theorem ofNat?_eq_some_iff {n : Nat} {p : PageId} : ofNat? n = some p ↔ p.val = n := by
  unfold ofNat?
  split
  · rw [Option.some.injEq, PageId.ext_iff, eq_comm]
  · next h => constructor
              · simp
              · rintro rfl; exact absurd p.isLt h

/-- There are as many pages as there are words of 32 bits. -/
theorem ofNat?_eq_none_iff {n : Nat} : ofNat? n = none ↔ UInt32.size ≤ n := by
  unfold ofNat?
  split <;> simp <;> omega

theorem plus?_eq_some_iff {p q : PageId} {k : Nat} : p.plus? k = some q ↔ q.val = p.val + k :=
  ofNat?_eq_some_iff

theorem wrap_of_lt {n : Nat} (h : n < UInt32.size) : (wrap n).val = n :=
  Nat.mod_eq_of_lt h

end PageId

end PageCache
