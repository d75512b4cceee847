import PageCache.Proofs.Shard.Fate
import PageCache.Proofs.Shard.FlushAll
import PageCache.Proofs.Shard.Tracking

/-!
# Frames that are safe while they are pinned

A page is evicted because the recency list names its frame, and the list of a preloaded shard may
name any frame. Frame `f` is safe (`Shard.Shielded`) if the list names it only while there is a page
in it that nobody has pinned. Then every operation leaves it safe, and leaves a pinned page in it
where and as it is (`Shard.Guards`), whatever the list may say of other frames.
-/

namespace PageCache

variable {size : Nat}

namespace Shard

/-- The recency list names frame `f` only while the frame is in use and nobody has its page pinned.
The frames of `spare` are those without a page. -/
structure Shielded (sh : Shard size) (spare : List (Fin size)) (f : Fin size) : Prop where
  mapped : sh.Mapped spare
  chained : sh.recency.Chained
  idle : sh.recency.contains f = true → f ∉ spare ∧ (sh.frame f).pins = 0

/-- Page `p` lies in frame `f` and has these bytes. -/
def Has (sh : Shard size) (p : PageId) (f : Fin size) (bytes : Page) : Prop :=
  sh.table[p]? = some f ∧ (sh.frame f).bytes = bytes

/-- In `sh'`, where the frames of `spare` are without a page, the recency list names frame `f` only
for good reason, and the page that was pinned in it, if any, is still there. -/
structure Guards (f : Fin size) (sh sh' : Shard size) (spare : List (Fin size)) : Prop where
  idle : sh'.recency.contains f = true → f ∉ spare ∧ (sh'.frame f).pins = 0
  keeps : ∀ {p : PageId}, sh.table[p]? = some f → (sh.frame f).pins ≠ 0 →
    sh'.Has p f (sh.frame f).bytes

variable {sh sh' : Shard size} {spare : List (Fin size)} {p q : PageId} {f g : Fin size}

/-- A pinned page is not in a frame that the recency list names. -/
theorem Shielded.contains_of_pinned (h : sh.Shielded spare f) (hpins : (sh.frame f).pins ≠ 0) :
    sh.recency.contains f = false :=
  Bool.eq_false_iff.mpr fun hf => hpins (h.idle hf).2

theorem Shielded.guards_self (h : sh.Shielded spare f) : Guards f sh sh spare :=
  ⟨h.idle, fun hp _ => ⟨hp, rfl⟩⟩

namespace Guards

/-- What is said of the frame is not changed by what happens to another. -/
theorem setFrame_of_ne (h : Guards f sh sh' spare) (hgf : g ≠ f) (frame : Frame) :
    Guards f sh (sh'.setFrame g frame) spare := by
  have hsame : (sh'.setFrame g frame).frame f = sh'.frame f :=
    (frame_setFrame ..).trans (if_neg hgf)
  refine ⟨fun hf => ?_, fun hp hpins => ?_⟩
  · rw [hsame]
    exact h.idle hf
  · exact ⟨(h.keeps hp hpins).1, (congrArg Frame.bytes hsame).trans (h.keeps hp hpins).2⟩

/-- A page comes to a frame without one. -/
theorem install (h : Guards f sh sh' (g :: spare)) (hmapped : sh'.Mapped (g :: spare))
    (hq : sh'.table[q]? = none) (bytes : Page) :
    Guards f sh (sh'.install q g bytes) spare := by
  refine ⟨fun hf => ?_, fun hp hpins => ?_⟩
  · obtain ⟨hspare, hidle⟩ := h.idle hf
    have hgf : g ≠ f := fun hgf => hspare (hgf ▸ List.mem_cons_self)
    refine ⟨fun hmem => hspare (List.mem_cons_of_mem g hmem), ?_⟩
    rw [frame_install, if_neg hgf]
    exact hidle
  · obtain ⟨hp', hbytes⟩ := h.keeps hp hpins
    obtain ⟨htable, hframe⟩ := hmapped.stays_install hq hp' bytes
    exact ⟨htable, (congrArg Frame.bytes hframe).trans hbytes⟩

/-- The frame that was found is given back, for the page did not come. -/
theorem giveBack (h : Guards f sh sh' (g :: spare)) (hmapped : sh'.Mapped (g :: spare))
    (frame : Frame) : Guards f sh (sh'.setFrame g frame) (spare ++ [g]) := by
  refine ⟨fun hf => ?_, fun hp hpins => ?_⟩
  · obtain ⟨hspare, hidle⟩ := h.idle hf
    have hgf : g ≠ f := fun hgf => hspare (hgf ▸ List.mem_cons_self)
    refine ⟨fun hmem => hspare ((List.perm_append_singleton g spare).mem_iff.mp hmem), ?_⟩
    rw [frame_setFrame, if_neg hgf]
    exact hidle
  · obtain ⟨hp', hbytes⟩ := h.keeps hp hpins
    have hgf : g ≠ f := by
      rintro rfl
      exact hmapped.not_mem_spare (hmapped.holds hp') List.mem_cons_self
    exact ⟨hp', (congrArg Frame.bytes ((frame_setFrame ..).trans (if_neg hgf))).trans hbytes⟩

/-- The frame that was found is lost. -/
theorem tail (h : Guards f sh sh' (g :: spare)) : Guards f sh sh' spare :=
  ⟨fun hf => ⟨fun hmem => (h.idle hf).1 (List.mem_cons_of_mem g hmem), (h.idle hf).2⟩, h.keeps⟩

end Guards

/-- Setting flags moves no page and tracks no frame. -/
theorem SameButFlags.guards (hsame : sh.SameButFlags sh') (h : sh.Shielded spare f) :
    Guards f sh sh' spare := by
  have hpins : (sh'.frame f).pins = (sh.frame f).pins := by
    rcases hsame.frame f with hf | hf <;> rw [hf]
  refine ⟨fun hf => ?_, fun hp _ => ⟨hsame.table ▸ hp, hsame.bytes f⟩⟩
  rw [hsame.recency] at hf
  rw [hpins]
  exact h.idle hf

end Shard

open Shard (Guards)

variable {δ : Type} [PageStore δ] {w w' : Backed size δ} {s : Stripe} {p q : PageId}
variable {f g : Fin size}

/-! ## Searches -/

namespace Search

theorem free_subset {r : Except Failure (Fin size)} (hs : Search w r w') :
    w'.shard.free ⊆ w.shard.free := by
  cases hs with
  | free hfree =>
    rw [hfree]
    exact List.subset_cons_self ..
  | full | stray | vacant | clean | written | unwritten => exact fun _ hg => hg

/-- Another frame than the one that was found is as it was. -/
theorem frame_of_ne (hs : Search w (.ok g) w') (hgf : g ≠ f) :
    w'.shard.frame f = w.shard.frame f := by
  cases hs with
  | free => rfl
  | vacant => exact (Shard.frame_setFrame ..).trans (if_neg hgf)
  | clean | written => exact (Shard.frame_unmap ..).trans (if_neg hgf)

/-- A page in another frame than the one that was found lies where it did. -/
theorem table_of_ne (hs : Search w (.ok g) w') (h : w.shard.Mapped w.shard.free)
    (hp : w.shard.table[p]? = some f) (hgf : g ≠ f) : w'.shard.table[p]? = some f := by
  cases hs with
  | free | vacant => exact hp
  | clean _ _ hq | written _ _ hq => exact (h.stays_unmap hp hq hgf).1

/-- A search that finds no frame leaves table and frames alone. -/
theorem same_of_error {e : Failure} (hs : Search w (.error e) w') :
    w'.shard.table = w.shard.table ∧ w'.shard.frames = w.shard.frames := by
  cases hs with
  | full | stray | unwritten => exact ⟨rfl, rfl⟩

end Search

namespace Backed

/-- A victim that cannot be written is tracked again, and in no other case is the list changed. -/
theorem recency_evict (w : Backed size δ) (f : Fin size) :
    ((w.evict f).result = .ok f ∧ (w.evict f).state.shard.recency = w.shard.recency) ∨
      (∃ e, (w.evict f).result = .error e) ∧
        (w.evict f).state.shard.recency = (w.shard.recency.track f).1 := by
  rw [evict]
  dsimp only
  split
  · exact .inl ⟨rfl, rfl⟩
  next p _ =>
  split
  swap
  · exact .inl ⟨rfl, rfl⟩
  have hsame : (w.writeBack p f).state.shard.recency = w.shard.recency :=
    congrArg Shard.recency (w.shard_writeBack p f)
  split
  · exact .inl ⟨rfl, hsame⟩
  · next e _ => exact .inr ⟨⟨e, rfl⟩, congrArg (fun r => (r.track f).1) hsame⟩

/-- A search puts no frame on the recency list. The frame it finds was free, or was on the list and
is no more. -/
theorem contains_acquire (h : w.shard.recency.Chained) :
    (∀ k, w.acquire.state.shard.recency.contains k = true → w.shard.recency.contains k = true) ∧
    ∀ g, w.acquire.result = .ok g → g ∈ w.shard.free ∨
      w.shard.recency.contains g = true ∧ w.acquire.state.shard.recency.contains g = false := by
  rw [acquire]
  cases hfree : w.shard.free with
  | cons g free =>
    refine ⟨fun k hk => hk, fun g' hg' => .inl ?_⟩
    obtain rfl := Except.ok.inj hg'
    exact List.mem_cons_self
  | nil =>
    cases hvictim : w.shard.recency.victim with
    | none => exact ⟨fun k hk => hk, fun g hg => absurd hg (by simp)⟩
    | some found =>
      obtain ⟨k, recency⟩ := found
      obtain ⟨hk, -⟩ := h.victim_eq_some hvictim
      obtain ⟨hchained, -, hrest⟩ := h.without_victim hvictim
      have hless (j : Nat) (hj : recency.contains j = true) : w.shard.recency.contains j = true :=
        ((hrest j).mp hj).2
      simp only [Outcome.result_after, Outcome.state_after]
      split
      swap
      · exact ⟨hless, fun g hg => absurd hg (by simp)⟩
      next hlt =>
      rcases recency_evict { w with shard := { w.shard with recency } } ⟨k, hlt⟩ with
        ⟨hok, hsame⟩ | ⟨⟨e, herror⟩, htracked⟩
      · rw [hok, hsame]
        refine ⟨hless, fun g hg => .inr ?_⟩
        obtain rfl := Except.ok.inj hg
        exact ⟨hk, Bool.eq_false_iff.mpr fun hin => ((hrest k).mp hin).1 rfl⟩
      · rw [herror, htracked]
        refine ⟨fun j hj => ?_, fun g hg => absurd hg (by simp)⟩
        -- only the victim is put back
        rcases hchained.contains_of_track hj with rfl | hj
        · exact hk
        · exact hless j hj

section

variable (h : w.shard.Shielded w.shard.free f)

include h

/-- A search that finds a frame has it to spare, and takes it from no pinned page. -/
theorem guards_acquire_of_ok (hfound : w.acquire.result = .ok g) :
    Guards f w.shard w.acquire.state.shard (g :: w.acquire.state.shard.free) := by
  have hsearch := w.search
  rw [hfound] at hsearch
  obtain ⟨hless, hchosen⟩ := contains_acquire h.chained
  refine ⟨fun hf => ?_, fun hp hpins => ?_⟩
  · obtain ⟨hspare, hidle⟩ := h.idle (hless f hf)
    have hgf : g ≠ f := by
      rintro rfl
      rcases hchosen g hfound with hfree | ⟨-, hgone⟩
      · exact hspare hfree
      · exact absurd hf (by simp [hgone])
    refine ⟨fun hmem => ?_, (congrArg Frame.pins (hsearch.frame_of_ne hgf)).trans hidle⟩
    rcases List.mem_cons.mp hmem with rfl | hmem
    · exact hgf rfl
    · exact hspare (hsearch.free_subset hmem)
  · -- the frame that was found has no page, or its page is not pinned
    have hgf : g ≠ f := by
      rintro rfl
      rcases hchosen g hfound with hfree | ⟨hin, -⟩
      · exact h.mapped.not_mem_spare (h.mapped.holds hp) hfree
      · exact absurd hin (by simp [h.contains_of_pinned hpins])
    exact ⟨hsearch.table_of_ne h.mapped hp hgf, congrArg Frame.bytes (hsearch.frame_of_ne hgf)⟩

/-- A search that fails leaves every page where it was. -/
theorem guards_acquire_of_error {e : Failure} (hfailed : w.acquire.result = .error e) :
    Guards f w.shard w.acquire.state.shard w.acquire.state.shard.free := by
  have hsearch := w.search
  rw [hfailed] at hsearch
  obtain ⟨htable, hframes⟩ := hsearch.same_of_error
  have hframe : w.acquire.state.shard.frame f = w.shard.frame f :=
    congrArg (fun frames : Vector Frame size => frames[f]) hframes
  refine ⟨fun hf => ?_, fun hp _ => ⟨htable ▸ hp, congrArg Frame.bytes hframe⟩⟩
  obtain ⟨hspare, hidle⟩ := h.idle ((contains_acquire h.chained).1 f hf)
  exact ⟨fun hmem => hspare (hsearch.free_subset hmem),
    (congrArg Frame.pins hframe).trans hidle⟩

/-! ## Operations -/

/-- A fetch keeps the page that is pinned in the frame, if the frame is shielded. -/
theorem guards_fetch (s : Stripe) (q : PageId) :
    Guards f w.shard (w.fetch s q).state.shard (w.fetch s q).state.shard.free := by
  rw [fetch]
  split
  swap
  · exact h.guards_self
  split
  · next g hq =>
    dsimp only [pinAgain]
    split
    swap
    · exact h.guards_self
    simp only [Shard.untrack_fst]
    refine ⟨fun hf => ?_, fun hp _ => ⟨hp, ?_⟩⟩
    · -- the frame that is fetched comes off the list, so the one that is on it is another
      obtain ⟨hne, hf⟩ := (h.chained.contains_unlink g.val f.val).mp hf
      have hgf : g ≠ f := fun hgf => hne (hgf ▸ rfl)
      exact (h.guards_self.setFrame_of_ne hgf _).idle hf
    · refine (congrArg Frame.bytes (Shard.frame_setFrame ..)).trans ?_
      split
      · next hgf => rw [hgf]
      · rfl
  · next hq =>
    -- a page that is missed is loaded into a frame that was to spare
    have hsearch := w.search
    cases hresult : w.acquire.result with
    | error e =>
      rw [Outcome.andThen_of_error hresult]
      exact guards_acquire_of_error h hresult
    | ok g =>
      rw [hresult] at hsearch
      rw [Outcome.andThen_of_ok hresult]
      have hguards := guards_acquire_of_ok h hresult
      have hmapped := hsearch.placed_of_ok h.mapped
      simp only [Outcome.state_after, load]
      split
      · exact hguards.install hmapped (hsearch.table_none hq) _
      · have hback := hguards.giveBack hmapped
          { w.acquire.state.shard.frame g with bytes := .zero }
        exact ⟨hback.idle, hback.keeps⟩

/-- A new page keeps the page that is pinned in the frame, if its id is not resident. -/
theorem guards_newPage (s : Stripe) (hnew : w.MakesAbsent s) :
    Guards f w.shard (w.newPage s).state.shard (w.newPage s).state.shard.free := by
  have hcreation := w.creation s
  have hsearch := w.search
  generalize hmade : (w.newPage s).result = r, (w.newPage s).state = w' at hcreation
  cases hcreation with
  | exhausted => exact h.guards_self
  | unplaced _ hresult => exact guards_acquire_of_error h hresult
  | foreign _ hresult =>
    have hlost := (guards_acquire_of_ok h hresult).tail
    exact ⟨hlost.idle, hlost.keeps⟩
  | made _ hresult =>
    rw [hresult] at hsearch
    have hinstalled := (guards_acquire_of_ok h hresult).install (hsearch.placed_of_ok h.mapped)
      (hnew hmade) .zero
    exact ⟨hinstalled.idle, hinstalled.keeps⟩

omit [PageStore δ] in
/-- An unpin keeps it, too, and tracks the frame only when no pin is left. -/
theorem guards_unpin (s : Stripe) (q : PageId) (dirty : Bool) :
    Guards f w.shard (w.unpin s q dirty).state.shard (w.unpin s q dirty).state.shard.free := by
  have hunpin := w.unpin_cases s q dirty
  generalize (w.unpin s q dirty).result = r, (w.unpin s q dirty).state = w' at hunpin
  have hbytes (g : Fin size) :
      ((w.shard.setFrame g (w.unpinned g dirty)).frame f).bytes = (w.shard.frame f).bytes := by
    rw [Shard.frame_setFrame]
    split
    · next hgf => rw [← hgf, unpinned]
    · rfl
  cases hunpin with
  | refused => exact h.guards_self
  | @several g hq hpins =>
    refine ⟨fun hf => ?_, fun hp _ => ⟨hp, hbytes g⟩⟩
    have hgf : g ≠ f := by
      rintro rfl
      have hnone := (h.idle hf).2
      omega
    exact (h.guards_self.setFrame_of_ne hgf _).idle hf
  | @last g hq hpins =>
    refine ⟨fun hf => ?_, fun hp _ => ⟨hp, hbytes g⟩⟩
    by_cases hgf : g = f
    · -- this is how a frame comes to be on the list
      subst hgf
      refine ⟨h.mapped.not_mem_spare (h.mapped.holds hq), ?_⟩
      refine (congrArg Frame.pins ((Shard.frame_setFrame ..).trans (if_pos rfl))).trans ?_
      show (w.shard.frame g).pins - 1 = 0
      omega
    · have hf : w.shard.recency.contains f = true :=
        (h.chained.contains_of_track hf).resolve_left fun hfg => hgf (Fin.ext hfg).symm
      exact (h.guards_self.setFrame_of_ne hgf _).idle hf

/-- A delete clears no frame of a pinned page. -/
theorem guards_delete (s : Stripe) (q : PageId) :
    Guards f w.shard (w.delete s q).state.shard (w.delete s q).state.shard.free := by
  rw [delete]
  split
  swap
  · exact h.guards_self
  simp only [Outcome.state_after, discard]
  split
  · exact h.guards_self
  next g hq =>
  split
  · exact h.guards_self
  next hpins =>
  simp only [Shard.untrack_fst]
  refine ⟨fun hf => ?_, fun {p} hp hpinned => ?_⟩
  · -- the frame that is wiped comes off the list
    obtain ⟨hne, hf⟩ := (h.chained.contains_unlink g.val f.val).mp hf
    have hgf : g ≠ f := fun hgf => hne (hgf ▸ rfl)
    obtain ⟨hspare, hidle⟩ := (h.guards_self.setFrame_of_ne hgf .blank).idle hf
    refine ⟨fun hmem => ?_, hidle⟩
    rcases List.mem_append.mp hmem with hmem | hmem
    · exact hspare hmem
    · exact hgf (List.mem_singleton.mp hmem).symm
  · -- the frame of a pinned page is not wiped
    have hgf : g ≠ f := by
      rintro rfl
      omega
    have hqp : q ≠ p := by
      rintro rfl
      exact hgf (Option.some.inj (hq.symm.trans hp))
    exact ⟨(Shard.getElem?_erase ..).trans ((if_neg hqp).trans hp),
      ((h.guards_self.setFrame_of_ne hgf .blank).keeps hp hpinned).2⟩

end

end Backed

end PageCache
