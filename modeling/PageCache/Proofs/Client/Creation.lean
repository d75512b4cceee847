import PageCache.Proofs.Client.History
import PageCache.Proofs.Pool.Creation

/-!
# What it means that no page can be created

A pool that is full has no shard with room, but a pool that reports something else may have one: the
scan ends at the first shard that is not full, and what that shard meets, a fault of the disk or the
end of its ids, is the answer for all of them (`System.newPage_fails_iff`).
-/

namespace PageCache

namespace System

variable {l : Layout} {size : Nat} {δ : Type} [PageStore δ]

/-- A pool fails to create a page if all shards are full, or if the shard that decides fails to, and
then for the same reason. -/
theorem newPage_fails_iff (w : System l size δ) (e : Failure) :
    w.newPage.result = .error e ↔
      (e = .storage .poolFull ∧ ∀ i, w.Full i) ∨
        (e ≠ .storage .poolFull ∧ ∃ i, w.Decides i ∧ (w.newPageIn i).result = .error e) := by
  -- all shards are full, or the first that is not decides
  rcases w.full_or_decides with hall | ⟨i, hi⟩
  · rw [(newPage_of_full hall).1, Except.error.injEq]
    constructor
    · rintro rfl
      exact .inl ⟨rfl, hall⟩
    · rintro (⟨rfl, -⟩ | ⟨-, i, ⟨_, _, -, -, hroom⟩, -⟩)
      · rfl
      · exact absurd (hall i) hroom
  · constructor
    · intro hfail
      rw [(newPage_of_decides hi).1] at hfail
      obtain ⟨_, _, -, -, hroom⟩ := id hi
      refine .inr ⟨?_, i, hi, hfail⟩
      rintro rfl
      exact hroom hfail
    · rintro (⟨-, hall⟩ | ⟨-, j, hj, hfail⟩)
      · obtain ⟨_, _, -, -, hroom⟩ := hi
        exact absurd (hall i) hroom
      · rw [(newPage_of_decides hj).1]
        exact hfail

/-- No page can be created only if no shard could create one. -/
def FailsOnlyTogether (w : System l size δ) : Prop :=
  ∀ e, w.newPage.result = .error e → ∀ i, ∃ e', (w.newPageIn i).result = .error e'

end System

/-- With two shards of one frame. The first has page `0`, which was changed, is not pinned, and
cannot be written back; the second has a free frame, and is not asked. -/
theorem Client.not_failsOnlyTogether :
    ∃ (log : List Entry) (c : Client (.split 2 (by decide) (by decide)) 1),
      History (fun _ _ _ => True)
        ((AnyPool.fresh (.split 2 (by decide) (by decide)) 1).start
          (.onMedium (.memory .empty)) none) log c ∧
      log.map Entry.answer =
        [.ok (.placed ⟨0, by decide⟩ 0), .ok (.truth true), .ok (.disk .nothing)] ∧
      c.system.newPage.result = .error (.storage (.io .writeFault)) ∧
      (c.system.newPageIn ⟨1, by decide⟩).result =
        .ok ⟨⟨1, by decide⟩, ⟨1, by decide⟩, ⟨0, by decide⟩⟩ ∧
      ¬ c.system.FailsOnlyTogether := by
  have h : History (fun _ _ _ => True)
      ((AnyPool.fresh (.split 2 (by decide) (by decide)) 1).start
        (.onMedium (.memory .empty)) none) [] _ := .start
  have h := h.step ⟨some 0, .newPage "a"⟩ trivial
  have h := h.step ⟨none, .unpin ⟨0, by decide⟩ true⟩ trivial
  have h := h.step ⟨none, .disk (.setFaults ⟨fun _ => false, fun _ => true⟩)⟩ trivial
  refine ⟨_, _, h, rfl, rfl, rfl, fun htogether => ?_⟩
  obtain ⟨e, he⟩ := htogether _ rfl ⟨1, by decide⟩
  -- the second shard has created page `1`
  have hok : (Except.ok ⟨⟨1, by decide⟩, ⟨1, by decide⟩, ⟨0, by decide⟩⟩ :
      Except Failure (Handle (.split 2 (by decide) (by decide)) 1)) = .error e := he
  exact absurd hok (by simp)

end PageCache
