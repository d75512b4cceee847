import PageCache.Proofs.Shard.Placed
import PageCache.Proofs.Store.Recorded

/-!
# What becomes of a dirty page

Of a shard whose table and frames agree, with any recency list and on any disk, a dirty page stays
dirty in its frame, is written, or is deleted; there is no fourth. A shard that has been asked for a
frame, or has looked at some pages, has a dirty page where it was and its frame as it was, or has
written it (`Backed.Safe`). So these steps may be put together, and the bytes that are on record are
those that the frame had at the time.

The one thing that breaks the agreement is a new page under an id that is resident, so it is asked
of a creation that `Backed.MakesAbsent` rules that out.
-/

namespace PageCache

variable {size : Nat}

/-! ## Steps that leave a dirty page where it is, or write it -/

open Recorded (Grows Saved)

variable {δ : Type} [PageStore δ] {w w' w'' : Backed size (Recorded δ)} {s : Stripe}
variable {p q : PageId} {f g : Fin size} {latched : Fin size → Bool}

namespace Backed

omit [PageStore δ] in
/-- Page `p` lies in frame `f`, and the disk may not have all of it. -/
def Dirty (w : Backed size (Recorded δ)) (p : PageId) (f : Fin size) : Prop :=
  w.shard.table[p]? = some f ∧ (w.shard.frame f).dirty = true

omit [PageStore δ] in
/-- Page `p` is still in frame `f`, and that is as it was, or what was in it has been written. -/
def Safe (p : PageId) (f : Fin size) (w w' : Backed size (Recorded δ)) : Prop :=
  (w'.shard.table[p]? = some f ∧ w'.shard.frame f = w.shard.frame f) ∨
    Saved p (w.shard.frame f).bytes w.disk w'.disk

omit [PageStore δ] in
/-- Page `p` is still in frame `f` and dirty, or what was in the frame has been written. -/
def Fate (p : PageId) (f : Fin size) (w w' : Backed size (Recorded δ)) : Prop :=
  w'.Dirty p f ∨ Saved p (w.shard.frame f).bytes w.disk w'.disk

omit [PageStore δ] in
theorem Safe.fate (h : Safe p f w w') (hdirty : w.Dirty p f) : Fate p f w w' := by
  rcases h with ⟨hp, hframe⟩ | hsaved
  · left
    refine ⟨hp, ?_⟩
    rw [hframe]
    exact hdirty.2
  · exact .inr hsaved

omit [PageStore δ] in
/-- One thing after the other. What was on record stays there. -/
theorem Safe.trans (h : Safe p f w w') (hgrows : Grows w.disk w'.disk)
    (hgrows' : Grows w'.disk w''.disk)
    (h' : w'.shard.table[p]? = some f → w'.shard.frame f = w.shard.frame f → Safe p f w' w'') :
    Safe p f w w'' := by
  rcases h with ⟨hp, hframe⟩ | hsaved
  · rcases h' hp hframe with ⟨hp', hframe'⟩ | hsaved
    · exact .inl ⟨hp', hframe'.trans hframe⟩
    · rw [hframe] at hsaved
      exact .inr (hsaved.after hgrows)
  · exact .inr (hsaved.before hgrows')

end Backed

open Backed (Safe Fate)

namespace Search

theorem grows {r : Except Failure (Fin size)} (hs : Search w r w') : Grows w.disk w'.disk := by
  cases hs with
  | free | full | stray | vacant | clean => exact List.prefix_rfl
  | written _ _ _ _ hwrite | unwritten _ _ _ _ hwrite => exact Recorded.grows_of_write hwrite

omit [PageStore δ] in
/-- Another page makes room. -/
theorem safe_unmap (h : w.shard.Mapped w.shard.free) (hp : w.shard.table[p]? = some f)
    (hq : (w.shard.frame g).holds = some q) (hfg : g ≠ f) (recency : Recency)
    (disk : Recorded δ) : Safe p f w ⟨({ w.shard with recency } : Shard size).unmap q g, disk⟩ :=
  .inl (h.stays_unmap hp hq hfg)

/-- A dirty page outlives a search where it lies, or was written by it. -/
theorem safe {r : Except Failure (Fin size)} (h : w.shard.Mapped w.shard.free)
    (hdirty : w.Dirty p f) (hs : Search w r w') : Safe p f w w' := by
  obtain ⟨hp, hdirty⟩ := hdirty
  have hholds : (w.shard.frame f).holds = some p := h.holds_iff.mpr hp
  -- only a victim leaves its frame: a page of an idle frame is another one, a clean victim is
  -- another one, and a victim that was dirty is written before it goes
  cases hs with
  | free | full | stray | unwritten => exact .inl ⟨hp, rfl⟩
  | @vacant g recency _ _ hvacant =>
    have hfg : g ≠ f := by
      rintro rfl
      exact absurd (hholds.symm.trans hvacant) (by simp)
    refine .inl ⟨hp, ?_⟩
    exact (Shard.frame_setFrame ..).trans (if_neg hfg)
  | @clean g recency q _ _ hq hclean =>
    have hfg : g ≠ f := by
      rintro rfl
      exact absurd (hdirty.symm.trans hclean) (by simp)
    exact safe_unmap h hp hq hfg recency w.disk
  | @written g recency q disk _ _ hq _ hwrite =>
    by_cases hfg : g = f
    · -- the page is the victim, and was written
      subst hfg
      obtain rfl : q = p := Option.some.inj (hq.symm.trans hholds)
      exact .inr (Recorded.saved_of_write hwrite)
    · exact safe_unmap h hp hq hfg recency disk

end Search

namespace Backed

/-! ## Bringing a page in -/

/-- Loading a page into another frame does nothing to the ones that are there. -/
theorem safe_load (h : w.shard.Mapped (g :: w.shard.free)) (hq : w.shard.table[q]? = none)
    (hp : w.shard.table[p]? = some f) : Safe p f w (w.load q g).state := by
  unfold load
  dsimp only
  cases (PageStore.read w.disk q (w.shard.frame g).bytes).result with
  | ok => exact .inl (h.stays_install hq hp _)
  | error cause =>
    have hfg : g ≠ f := by
      rintro rfl
      exact h.not_mem_spare (h.holds hp) List.mem_cons_self
    exact .inl ⟨hp, (Shard.frame_setFrame ..).trans (if_neg hfg)⟩

theorem grows_load : Grows w.disk (w.load q g).state.disk := by
  unfold load
  dsimp only
  cases (PageStore.read w.disk q (w.shard.frame g).bytes).result <;> exact List.prefix_rfl

/-- A fetch evicts a dirty page at most, and then it writes it. -/
theorem fate_fetch (h : w.shard.Mapped w.shard.free) (hdirty : w.Dirty p f) (q : PageId) :
    Fate p f w (w.fetch s q).state := by
  unfold fetch
  split
  swap
  · exact .inl hdirty
  split
  · next g hq =>
    unfold pinAgain
    dsimp only
    split
    swap
    · exact .inl hdirty
    simp only [Shard.untrack_fst]
    -- one more pin, and the flag is what it was
    refine .inl ⟨hdirty.1, ?_⟩
    show ((w.shard.setFrame g _).frame f).dirty = true
    rw [Shard.frame_setFrame]
    split
    · next hfg => exact hfg ▸ hdirty.2
    · exact hdirty.2
  · next hq =>
    have hsearch := w.search
    have hsafe := hsearch.safe h hdirty
    cases hresult : w.acquire.result with
    | error e =>
      rw [Outcome.andThen_of_error hresult]
      exact hsafe.fate hdirty
    | ok g =>
      rw [hresult] at hsearch
      rw [Outcome.andThen_of_ok hresult]
      -- the search has written the page if it evicted it; the load goes into a frame to spare
      have hloaded := hsafe.trans hsearch.grows grows_load fun hp _ =>
        safe_load (hsearch.placed_of_ok h) (hsearch.table_none hq) hp
      exact hloaded.fate hdirty

/-- A new page whose id is not that of a resident one evicts a dirty page at most, and writes it. -/
theorem fate_newPage (h : w.shard.Mapped w.shard.free) (hnew : w.MakesAbsent s)
    (hdirty : w.Dirty p f) : Fate p f w (w.newPage s).state := by
  have hsearch := w.search
  have hsafe := hsearch.safe h hdirty
  have hcreation := w.creation s
  generalize hmade : (w.newPage s).result = r, (w.newPage s).state = w' at hcreation
  -- the search may have evicted the page, and then it was written; the new page comes into the
  -- frame that was found, under an id that is not its own
  cases hcreation with
  | exhausted => exact .inl hdirty
  | unplaced => exact hsafe.fate hdirty
  | foreign => exact Safe.fate hsafe hdirty
  | @made q g _ hresult =>
    rw [hresult] at hsearch
    have habsent := hnew hmade
    have hinstalled : Safe p f w ⟨{ w.acquire.state.shard.install q g .zero with
        nextId := s.next? q }, w.acquire.state.disk⟩ :=
      hsafe.trans hsearch.grows List.prefix_rfl fun hp _ =>
        .inl ((hsearch.placed_of_ok h).stays_install habsent hp .zero)
    exact hinstalled.fate hdirty

/-! ## Pins, deletions, edits -/

omit [PageStore δ] in
/-- The records of a frame are changed, and it stays dirty if it was. -/
theorem Dirty.setFrame (h : w.Dirty p f) {frame : Frame} {disk : Recorded δ}
    (hframe : (w.shard.frame g).dirty = true → frame.dirty = true) :
    Dirty ⟨w.shard.setFrame g frame, disk⟩ p f := by
  refine ⟨h.1, ?_⟩
  show ((w.shard.setFrame g frame).frame f).dirty = true
  rw [Shard.frame_setFrame]
  split
  · next hfg => exact hframe (hfg ▸ h.2)
  · exact h.2

omit [PageStore δ] in
theorem dirty_unpin (hdirty : w.Dirty p f) (q : PageId) (dirty : Bool) :
    (w.unpin s q dirty).state.Dirty p f := by
  unfold unpin
  split
  swap
  · exact hdirty
  split
  · exact hdirty
  next g hq =>
  dsimp only
  split
  · exact hdirty
  have hless : Dirty ⟨w.shard.setFrame g { w.shard.frame g with
      pins := (w.shard.frame g).pins - 1
      dirty := (w.shard.frame g).dirty || dirty }, w.disk⟩ p f :=
    hdirty.setFrame fun h => by rw [h, Bool.true_or]
  split <;> exact hless

/-- Only a deletion of the page itself takes it away. -/
theorem dirty_delete (h : w.shard.Mapped w.shard.free) (hdirty : w.Dirty p f) (q : PageId) :
    (w.delete s q).state.Dirty p f ∨ q = p ∧ (w.delete s q).result = .ok true := by
  unfold delete
  split
  swap
  · exact .inl hdirty
  simp only [Outcome.state_after, Outcome.result_after, discard]
  split
  · exact .inl hdirty
  next g hq =>
  split
  · exact .inl hdirty
  simp only [Shard.untrack_fst]
  by_cases hpq : q = p
  · exact .inr ⟨hpq, trivial⟩
  · left
    have hfg : g ≠ f := by
      rintro rfl
      exact hpq (h.injective hq hdirty.1)
    refine ⟨(Shard.getElem?_erase ..).trans ((if_neg hpq).trans hdirty.1), ?_⟩
    refine Eq.trans (congrArg Frame.dirty ?_) hdirty.2
    exact (Shard.frame_setFrame ..).trans (if_neg hfg)

/-! ## Looks -/

/-- A flush of one page writes the dirty page or lets it be. -/
theorem safe_tryFlush (h : w.shard.Mapped w.shard.free) (hdirty : w.Dirty p f)
    (latched : Fin size → Bool) (q : PageId) :
    Safe p f w (w.tryFlush latched q).state := by
  have hlooked := w.looked latched q
  generalize (w.tryFlush latched q).result = r, (w.tryFlush latched q).state = w' at hlooked
  cases hlooked with
  | absent | clean | busy | unwritten => exact .inl ⟨hdirty.1, rfl⟩
  | @written g disk hq _ _ hwrite =>
    by_cases hfg : g = f
    · subst hfg
      obtain rfl : q = p := h.injective hq hdirty.1
      exact .inr (Recorded.saved_of_write hwrite)
    · exact .inl ⟨hdirty.1, (Shard.frame_setFrame ..).trans (if_neg hfg)⟩

theorem grows_tryFlush (latched : Fin size → Bool) (w : Backed size (Recorded δ)) (q : PageId) :
    Grows w.disk (w.tryFlush latched q).state.disk := by
  have hlooked := w.looked latched q
  generalize (w.tryFlush latched q).result = r, (w.tryFlush latched q).state = w' at hlooked
  cases hlooked with
  | absent | clean | busy => exact List.prefix_rfl
  | written _ _ _ hwrite | unwritten _ _ _ hwrite => exact Recorded.grows_of_write hwrite

/-- A dirty page that was looked at is in a writer's hands, or has been written. -/
theorem saved_tryFlush (hdirty : w.Dirty p f) {resident : Bool}
    (hsettled : (w.tryFlush latched p).result = .ok (.settled resident)) :
    Saved p (w.shard.frame f).bytes w.disk (w.tryFlush latched p).state.disk := by
  have hlooked := w.looked latched p
  rw [hsettled] at hlooked
  generalize (w.tryFlush latched p).state = w' at hlooked
  cases hlooked with
  | absent hp => exact absurd (hp.symm.trans hdirty.1) (by simp)
  | clean hp hclean =>
    obtain rfl := Option.some.inj (hp.symm.trans hdirty.1)
    exact absurd (hclean.symm.trans hdirty.2) (by simp)
  | written hp _ _ hwrite =>
    obtain rfl := Option.some.inj (hp.symm.trans hdirty.1)
    exact Recorded.saved_of_write hwrite

/-- A sweep takes nothing off the record of writes. -/
theorem grows_sweep (latched : Fin size → Bool) (pages : List PageId)
    (w : Backed size (Recorded δ)) : Grows w.disk (sweep latched pages w).state.disk := by
  induction pages generalizing w with
  | nil => exact List.prefix_rfl
  | cons q pages ih =>
    have hlook := grows_tryFlush latched w q
    rw [sweep]
    refine Outcome.state_andThen (P := fun w' : Backed size (Recorded δ) => Grows w.disk w'.disk)
      hlook fun look _ => ?_
    cases look <;> exact hlook.trans (ih _)

/-- A sweep loses no dirty page. -/
theorem safe_sweep (h : w.shard.Mapped w.shard.free) (hdirty : w.Dirty p f)
    (latched : Fin size → Bool) (pages : List PageId) :
    Safe p f w (sweep latched pages w).state := by
  -- each look is at the frame as it was, as long as nothing has been written
  induction pages generalizing w with
  | nil => exact .inl ⟨hdirty.1, rfl⟩
  | cons q pages ih =>
    have hlook := safe_tryFlush h hdirty latched q
    have hmapped := placed_tryFlush h latched q
    have hgrows := grows_tryFlush latched w q
    rw [sweep]
    refine Outcome.state_andThen (P := fun w' => Safe p f w w') hlook fun look _ => ?_
    have hrest : Safe p f w (sweep latched pages (w.tryFlush latched q).state).state :=
      hlook.trans hgrows (grows_sweep ..) fun hp hframe =>
        ih hmapped ⟨hp, by rw [hframe]; exact hdirty.2⟩
    cases look <;> exact hrest

/-- A dirty page that was swept is on the list of those to come back to, or has been written. -/
theorem saved_sweep (h : w.shard.Mapped w.shard.free) (hdirty : w.Dirty p f)
    (latched : Fin size → Bool) {pages held : List PageId} (hp : p ∈ pages)
    (hswept : (sweep latched pages w).result = .ok held) :
    p ∈ held ∨ Saved p (w.shard.frame f).bytes w.disk (sweep latched pages w).state.disk := by
  induction pages generalizing w held with
  | nil => exact absurd hp List.not_mem_nil
  | cons q pages ih =>
    have hlook := safe_tryFlush h hdirty latched q
    have hgrows := grows_tryFlush latched w q
    have hmapped := placed_tryFlush h latched q
    -- the other pages, from where the look at the first has led
    have hlater {held' : List PageId} (hp : p ∈ pages)
        (hrest : (sweep latched pages (w.tryFlush latched q).state).result = .ok held') :
        p ∈ held' ∨ Saved p (w.shard.frame f).bytes w.disk
          (sweep latched pages (w.tryFlush latched q).state).state.disk := by
      rcases hlook with ⟨hp', hframe⟩ | hsaved
      · have hdirty' : (w.tryFlush latched q).state.Dirty p f :=
          ⟨hp', by rw [hframe]; exact hdirty.2⟩
        have hih := ih hmapped hdirty' hp hrest
        rw [hframe] at hih
        exact hih.imp_right fun hsaved => hsaved.after hgrows
      · exact .inr (hsaved.before (grows_sweep ..))
    rw [sweep] at hswept ⊢
    cases hresult : (w.tryFlush latched q).result with
    | error e =>
      rw [Outcome.andThen_of_error hresult] at hswept
      exact absurd hswept (by simp)
    | ok look =>
      rw [Outcome.andThen_of_ok hresult] at hswept ⊢
      cases look with
      | settled resident =>
        rcases List.mem_cons.mp hp with rfl | hp
        · exact .inr ((saved_tryFlush hdirty hresult).before (grows_sweep ..))
        · exact hlater hp hswept
      | busy g =>
        have hmap : (sweep latched pages (w.tryFlush latched q).state).result.map (q :: ·) =
            .ok held := hswept
        cases hrest : (sweep latched pages (w.tryFlush latched q).state).result with
        | error e =>
          rw [hrest] at hmap
          exact absurd hmap (by simp [Except.map])
        | ok held' =>
          rw [hrest] at hmap
          obtain rfl : q :: held' = held := Except.ok.inj hmap
          rcases List.mem_cons.mp hp with rfl | hp
          · exact .inl List.mem_cons_self
          · exact (hlater hp hrest).imp_left (List.mem_cons_of_mem q)

end Backed

end PageCache
