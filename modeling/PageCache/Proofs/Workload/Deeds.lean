import PageCache.Pool.Layout
import PageCache.Proofs.Client.History
import PageCache.Proofs.Workload.Stamp

/-!
# What workers do to the pages

All that workers do to the pages is to create them and to stamp them. From a list of these deeds,
the last of them first, it can be told what every page has to show (`ledger`).
-/

namespace PageCache.Workload

inductive Deed
  | created (p : PageId)
  | stamped (p : PageId)
deriving DecidableEq

namespace Deed

/-- The page that is created, if one is. -/
def created? : Deed → Option PageId
  | created p => some p
  | stamped _ => none

end Deed

variable {past : List Deed} {p q : PageId}

def created (past : List Deed) : List PageId :=
  past.filterMap Deed.created?

/-- How often page `p` was stamped. -/
def stampsOn (past : List Deed) (p : PageId) : Nat :=
  past.count (.stamped p)

/-- What the deeds tell of the pages. -/
def ledger (past : List Deed) : Ledger where
  created := created past
  deleted := []
  bytes p := .stamps p (stampsOn past p)
  held _ := none

/-- A page that is created is one of those created; a stamp creates none. -/
@[simp]
theorem created_created (p : PageId) (past : List Deed) :
    created (.created p :: past) = p :: created past :=
  rfl

@[simp]
theorem created_stamped (p : PageId) (past : List Deed) :
    created (.stamped p :: past) = created past :=
  rfl

/-- To create a page puts no stamp on any. -/
@[simp]
theorem stampsOn_created (past : List Deed) (p q : PageId) :
    stampsOn (.created q :: past) p = stampsOn past p :=
  List.count_cons_of_ne (by simp)

theorem stampsOn_stamped_self (past : List Deed) (p : PageId) :
    stampsOn (.stamped p :: past) p = stampsOn past p + 1 :=
  List.count_cons_self

theorem stampsOn_stamped_of_ne (past : List Deed) (h : p ≠ q) :
    stampsOn (.stamped q :: past) p = stampsOn past p :=
  List.count_cons_of_ne fun hpq => h (Deed.stamped.inj hpq).symm

/-- A page without stamps is one that was never stamped. -/
theorem stampsOn_eq_zero_iff : stampsOn past p = 0 ↔ .stamped p ∉ past :=
  List.count_eq_zero

/-- How many stamps there were, on whatever pages. -/
def stampsIn (past : List Deed) : Nat :=
  past.countP fun deed => deed.created? = none

/-- To create a page is no stamp. -/
@[simp]
theorem stampsIn_created (p : PageId) (past : List Deed) :
    stampsIn (.created p :: past) = stampsIn past :=
  List.countP_cons_of_neg (by simp [Deed.created?])

/-- Every stamp counts. -/
@[simp]
theorem stampsIn_stamped (p : PageId) (past : List Deed) :
    stampsIn (.stamped p :: past) = stampsIn past + 1 :=
  List.countP_cons_of_pos (by simp [Deed.created?])

/-- No page has more stamps than there were. -/
theorem stampsOn_le (past : List Deed) (p : PageId) : stampsOn past p ≤ stampsIn past := by
  apply List.countP_mono_left
  intro deed _ hdeed
  obtain rfl := eq_of_beq hdeed
  rfl

/-- How many pages of shard `i` were created. -/
def countIn (l : Layout) (past : List Deed) (i : Fin l.width) : Nat :=
  (created past).countP fun p => l.route p = i

theorem countIn_created_self {l : Layout} {i : Fin l.width} (past : List Deed)
    (h : l.route p = i) : countIn l (.created p :: past) i = countIn l past i + 1 :=
  List.countP_cons_of_pos (decide_eq_true h)

theorem countIn_created_of_ne {l : Layout} {i : Fin l.width} (past : List Deed)
    (h : l.route p ≠ i) : countIn l (.created p :: past) i = countIn l past i :=
  List.countP_cons_of_neg (by simpa using h)

/-- A shard has no more pages than were created. -/
theorem countIn_le (l : Layout) (past : List Deed) (i : Fin l.width) :
    countIn l past i ≤ (created past).length :=
  List.countP_le_length

/-- Only pages that were created have been stamped. -/
def InOrder (past : List Deed) : Prop :=
  ∀ p, .stamped p ∈ past → p ∈ created past

/-- A page may be created at any time. -/
theorem InOrder.create (h : InOrder past) (p : PageId) : InOrder (.created p :: past) := by
  intro q hq
  rw [List.mem_cons, or_iff_right (by simp)] at hq
  exact List.mem_cons_of_mem p (h q hq)

/-- A page may be stamped once it was created. -/
theorem InOrder.stamp (h : InOrder past) (hp : p ∈ created past) :
    InOrder (.stamped p :: past) := by
  intro q hq
  rcases List.mem_cons.mp hq with hqp | hq
  · obtain rfl := Deed.stamped.inj hqp
    exact hp
  · exact h q hq

/-- A page that is created shows zeros, since nobody stamped it before. -/
theorem ledger_created (h : InOrder past) (hp : p ∉ created past) :
    ledger (.created p :: past) = (ledger past).create p := by
  have hnever : stampsOn past p = 0 := by
    rw [stampsOn_eq_zero_iff]
    intro hstamped
    exact hp (h p hstamped)
  -- the other pages have the stamps they had
  have hbytes : (ledger (.created p :: past)).bytes =
      Function.update (ledger past).bytes p .zero := by
    funext q
    rw [Function.update_apply]
    split
    · next hqp =>
      show Page.stamps q (stampsOn (.created p :: past) q) = _
      rw [stampsOn_created, hqp, hnever, Page.stamps_zero]
    · exact congrArg (Page.stamps q) (stampsOn_created past q p)
  rw [Ledger.create, ← hbytes]
  rfl

/-- A page that is stamped shows one stamp more, and the others what they did. -/
theorem ledger_stamped (past : List Deed) (p : PageId) :
    ledger (.stamped p :: past) = { ledger past with
      bytes := Function.update (ledger past).bytes p (((ledger past).bytes p).stamp p) } := by
  have hbytes : (ledger (.stamped p :: past)).bytes =
      Function.update (ledger past).bytes p (((ledger past).bytes p).stamp p) := by
    funext q
    rw [Function.update_apply]
    show Page.stamps q (stampsOn (.stamped p :: past) q) = _
    -- the count of the page goes up by one, and no other does
    split
    · next hqp => rw [hqp, stampsOn_stamped_self, Page.stamps_succ]; rfl
    · next hqp => rw [stampsOn_stamped_of_ne past hqp]; rfl
  rw [← hbytes]
  rfl

end PageCache.Workload
