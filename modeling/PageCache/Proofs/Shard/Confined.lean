import PageCache.Proofs.Shard.Kept

/-!
# The pages a shard has to do with

`Shard.Confined P` says that only pages of `P` are on any record of a shard: in its frames, in its
table, and as the next to be made. Every part of an operation keeps it that brings in none but such
a page. A shard of stripe `s` never comes to a page outside `P` if the pages of the stripe are in
`P`, and the page that follows one of `P` always is as well (`Stripe.Within`): so it is with the
stripe itself, and with all pages there are.
-/

namespace PageCache

/-- The pages of the stripe are in `P`, and no id that follows one of `P` leaves it. -/
structure Stripe.Within (s : Stripe) (P : PageId → Prop) : Prop where
  owns : ∀ {p}, s.Owns p → P p
  next : ∀ {p q}, P p → s.next? p = some q → P q

/-- A stripe goes no further than its own pages. -/
theorem Stripe.within_owns (s : Stripe) : s.Within s.Owns :=
  ⟨id, owns_of_next?⟩

/-- No page is left out. -/
def Anywhere (_ : PageId) : Prop :=
  True

theorem Stripe.within_anywhere (s : Stripe) : s.Within Anywhere :=
  ⟨fun _ => trivial, fun _ _ => trivial⟩

variable {size : Nat} {s : Stripe} {P : PageId → Prop}

namespace Shard

/-- Only pages of `P` are on any record of the shard. -/
structure Confined (P : PageId → Prop) (sh : Shard size) : Prop where
  holds : ∀ {f p}, (sh.frame f).holds = some p → P p
  table : ∀ {p : PageId} {f}, sh.table[p]? = some f → P p
  next : ∀ {p}, sh.nextId = some p → P p

namespace Confined

variable {sh : Shard size} {f : Fin size} {frame : Frame} {p : PageId}

/-- Nothing is asked of a shard by saying that its pages may be any. -/
theorem anywhere (sh : Shard size) : sh.Confined Anywhere :=
  ⟨fun _ => trivial, fun _ => trivial, fun _ => trivial⟩

/-- A shard to which nothing has happened knows of one page, its first. -/
theorem fresh (s : Stripe) (size : Nat) : (Shard.fresh s size).Confined s.Owns where
  holds h := by simp [Frame.blank] at h
  table h := by simp [Shard.fresh] at h
  next h := Option.some.inj h ▸ s.owns_first

/-- A frame may be set to one that holds no page outside `P`. -/
theorem setFrame (h : sh.Confined P) (hframe : ∀ {p}, frame.holds = some p → P p) :
    (sh.setFrame f frame).Confined P where
  holds {g p} hp := by
    rw [frame_setFrame] at hp
    split at hp
    · exact hframe hp
    · exact h.holds hp
  table := h.table
  next := h.next

/-- A page that lies in a frame may do so in another state. -/
theorem reframe (h : sh.Confined P) (f : Fin size) (bytes : Page) (pins : Nat) (dirty : Bool) :
    (sh.setFrame f ⟨bytes, (sh.frame f).holds, pins, dirty⟩).Confined P :=
  h.setFrame fun hp => h.holds hp

/-- A page may go from the table. -/
theorem erase (h : sh.Confined P) (p : PageId) :
    ({ sh with table := sh.table.erase p } : Shard size).Confined P where
  holds := h.holds
  table {q g} hq := by
    have hq : (sh.table.erase p)[q]? = some g := hq
    rw [getElem?_erase] at hq
    split at hq
    · exact absurd hq (by simp)
    · exact h.table hq
  next := h.next

/-- A page may go from both, its frame and the table. -/
theorem unmap (h : sh.Confined P) (p : PageId) (f : Fin size) : (sh.unmap p f).Confined P :=
  (h.setFrame fun hp => absurd hp (by simp [Frame.released])).erase p

/-- A page of `P` may come in. -/
theorem install (h : sh.Confined P) (hp : P p) (f : Fin size) (bytes : Page) :
    (sh.install p f bytes).Confined P where
  holds {g q} hq := by
    rw [frame_install] at hq
    split at hq
    · exact Option.some.inj hq ▸ hp
    · exact h.holds hq
  table {q g} hq := by
    have hq : (sh.table.insert p f)[q]? = some g := hq
    rw [getElem?_insert] at hq
    split at hq
    · next hpq => exact hpq ▸ hp
    · exact h.table hq
  next := h.next

/-- The recency list names frames, not pages. -/
theorem withRecency (h : sh.Confined P) (recency : Recency) :
    ({ sh with recency } : Shard size).Confined P :=
  ⟨h.holds, h.table, h.next⟩

/-- The free list names frames, not pages. -/
theorem withFree (h : sh.Confined P) (free : List (Fin size)) :
    ({ sh with free } : Shard size).Confined P :=
  ⟨h.holds, h.table, h.next⟩

/-- The next page to be made may be another one of `P`, or none. -/
theorem withNext (h : sh.Confined P) {nextId : Option PageId}
    (hnext : ∀ {p}, nextId = some p → P p) : ({ sh with nextId } : Shard size).Confined P :=
  ⟨h.holds, h.table, hnext⟩

theorem track (h : sh.Confined P) (f : Fin size) : (sh.track f).1.Confined P :=
  h.withRecency _

theorem untrack (h : sh.Confined P) (f : Fin size) : (sh.untrack f).1.Confined P := by
  rw [untrack_fst]
  exact h.withRecency _

end Confined

end Shard

end PageCache
