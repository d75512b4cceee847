import PageCache.Error
import PageCache.Page.Id

/-!
# Stripes

The page ids are dealt out over the shards of a pool: shard `index` of `count` owns the ids that
leave `index` when divided by `count`. A stripe is one such class of ids; a shard that stands alone
owns them all.
-/

namespace PageCache

structure Stripe where
  count : Nat
  index : Nat
  index_lt : index < count
  count_le : count ≤ UInt32.size
deriving DecidableEq

namespace Stripe

/-- The stripe of every page id. -/
def whole : Stripe :=
  ⟨1, 0, by decide, by decide⟩

theorem toNat_le_size (n : UInt32) : n.toNat ≤ UInt32.size :=
  Nat.le_of_lt n.toNat_lt_size

def make? (count index : UInt32) : Except Violation Stripe :=
  if count = 0 then .error .noShards
  else if h : index.toNat < count.toNat then
    .ok ⟨count.toNat, index.toNat, h, toNat_le_size count⟩
  else .error (.shardOutOfRange index.toNat count.toNat)

def Owns (s : Stripe) (p : PageId) : Prop :=
  p.val % s.count = s.index

instance (s : Stripe) (p : PageId) : Decidable (s.Owns p) :=
  inferInstanceAs (Decidable (_ = _))

/-- The smallest id of the stripe. -/
def first (s : Stripe) : PageId :=
  ⟨s.index, Nat.lt_of_lt_of_le s.index_lt s.count_le⟩

/-- The id of the stripe that follows `p`. -/
def next? (s : Stripe) (p : PageId) : Option PageId :=
  p.plus? s.count

/-- What a shard says of a page it does not own. -/
def foreign (s : Stripe) (p : PageId) : Failure :=
  .violation (.foreignPage p.val s.index s.count)

theorem count_pos (s : Stripe) : 0 < s.count :=
  Nat.lt_of_le_of_lt (Nat.zero_le _) s.index_lt

theorem owns_first (s : Stripe) : s.Owns s.first :=
  Nat.mod_eq_of_lt s.index_lt

theorem owns_of_next? {s : Stripe} {p q : PageId} (hp : s.Owns p) (hq : s.next? p = some q) :
    s.Owns q := by
  rw [next?, PageId.plus?_eq_some_iff] at hq
  rw [Owns, hq, Nat.add_mod_right]
  exact hp

theorem owns_whole (p : PageId) : whole.Owns p :=
  Nat.mod_one _

end Stripe

end PageCache
