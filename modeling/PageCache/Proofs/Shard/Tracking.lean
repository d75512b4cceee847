import PageCache.Proofs.Recency.Order
import PageCache.Proofs.Shard.Acquire
import PageCache.Shard.Flush

/-!
# What shards ask of their recency lists

A shard never reaches into its recency list: whatever it is asked to do, it sends the list a few
requests, or none (`Recency.Becomes`). So all that holds of a list that had nothing but requests
holds of the list of every shard.
-/

namespace PageCache

namespace Backed

variable {size : Nat} {δ : Type} [PageStore δ]

/-- To write a page back does nothing to the shard. -/
@[simp]
theorem shard_writeBack (w : Backed size δ) (p : PageId) (f : Fin size) :
    (w.writeBack p f).state.shard = w.shard := by
  rw [writeBack]
  split <;> rfl

/-- The list is asked to track the frame again if its page could not be written back, and is not
asked anything otherwise. -/
theorem becomes_evict (w : Backed size δ) (f : Fin size) :
    w.shard.recency.Becomes (w.evict f).state.shard.recency := by
  rw [evict]
  split
  · exact .refl _
  next p _ =>
  split
  · -- only a page that could not be written back is tracked again
    simp only
    split
    · show w.shard.recency.Becomes (w.writeBack p f).state.shard.recency
      rw [shard_writeBack]
      exact .refl _
    · show w.shard.recency.Becomes ((w.writeBack p f).state.shard.recency.track f).1
      rw [shard_writeBack]
      exact .track _ _
  · exact .refl _

/-- A search asks for the victim, unless a frame is free, and then for what its eviction asks. -/
theorem becomes_acquire (w : Backed size δ) :
    w.shard.recency.Becomes w.acquire.state.shard.recency := by
  rw [acquire]
  split
  · exact .refl _
  split
  · exact .refl _
  next k recency hvictim =>
  simp only [Outcome.state_after]
  split
  · next hk =>
    -- the victim is popped before its page is looked at
    exact (Recency.Becomes.victim hvictim).trans
      (becomes_evict { w with shard := { w.shard with recency } } ⟨k, hk⟩)
  · exact .victim hvictim

/-- A page that is there has its frame taken off the list; one that is not needs a search. -/
theorem becomes_fetch (s : Stripe) (w : Backed size δ) (p : PageId) :
    w.shard.recency.Becomes (w.fetch s p).state.shard.recency := by
  rw [fetch]
  split
  swap
  · exact .refl _
  split
  · next f _ =>
    rw [pinAgain]
    split
    · simp only [Shard.untrack_fst]
      exact .unlink _ _
    · exact .refl _
  · -- loaded or not, the list is as the search left it
    refine Outcome.state_andThen (P := fun w' : Backed size δ =>
      w.shard.recency.Becomes w'.shard.recency) w.becomes_acquire fun f _ => ?_
    rw [load]
    simp only
    split <;> exact w.becomes_acquire

/-- A new page needs a search, and nothing of the list beyond that. -/
theorem becomes_newPage (s : Stripe) (w : Backed size δ) :
    w.shard.recency.Becomes (w.newPage s).state.shard.recency := by
  have hcreation := w.creation s
  generalize (w.newPage s).result = r, (w.newPage s).state = w' at hcreation
  cases hcreation with
  | exhausted => exact .refl _
  | unplaced | foreign | made => exact w.becomes_acquire

omit [PageStore δ] in
/-- The last pin that comes off puts the frame on the list. -/
theorem becomes_unpin (s : Stripe) (w : Backed size δ) (p : PageId) (dirty : Bool) :
    w.shard.recency.Becomes (w.unpin s p dirty).state.shard.recency := by
  rw [unpin]
  split
  swap
  · exact .refl _
  split
  · exact .refl _
  simp only
  split
  · exact .refl _
  split
  · -- that was the last pin
    exact .track _ _
  · exact .refl _

/-- A page that goes has its frame taken off the list. -/
theorem becomes_delete (s : Stripe) (w : Backed size δ) (p : PageId) :
    w.shard.recency.Becomes (w.delete s p).state.shard.recency := by
  rw [delete]
  split
  swap
  · exact .refl _
  simp only [Outcome.state_after, discard]
  split
  · exact .refl _
  split
  · exact .refl _
  · simp only [Shard.untrack_fst]
    exact .unlink _ _

end Backed

end PageCache
