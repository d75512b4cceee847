import PageCache.Proofs.Shard.Cases

/-!
# A frame for every resident page

A page of the table lies in a frame that names it, and the frames of the free list name none
(`Shard.Placed`). So no two resident pages share a frame. This is less than `Shard.Kept` says, and
it holds of more: of shards with any recency list, preloaded or not, and on any disk. As there, the
frames without a page are a parameter, since one of them is in no record while a page is being
brought in.

What a frame says of itself need not be what the table says of the page, for a new page under an id
that is resident takes the place of the other one, whose frame still names it. Whether the two agree
(`exact`) is a parameter as well. `Shard.Placed False` survives everything; `Shard.Mapped`, which is
`Shard.Placed True`, survives as long as no new page gets an id that is resident, and
`Backed.MakesAbsent` says that none would now. It is enough for that to look at the next id, which
`Backed.newIdAbsent` does.
-/

namespace PageCache

variable {size : Nat} {s : Stripe} {exact : Prop}

namespace Shard

/-- Every page of the table lies in a frame that names it, the frames of `spare` name none, and if
`exact` no frame names a page that the table has not there. -/
structure Placed (exact : Prop) (sh : Shard size) (spare : List (Fin size)) : Prop where
  holds : ∀ {p : PageId} {f : Fin size}, sh.table[p]? = some f → (sh.frame f).holds = some p
  listed : exact → ∀ {p : PageId} {f : Fin size}, (sh.frame f).holds = some p →
    sh.table[p]? = some f
  spare_nodup : spare.Nodup
  spare_holds : ∀ {f : Fin size}, f ∈ spare → (sh.frame f).holds = none

/-- The table and the frames tell the same. -/
abbrev Mapped (sh : Shard size) (spare : List (Fin size)) : Prop :=
  sh.Placed True spare

namespace Placed

variable {sh sh' : Shard size} {spare : List (Fin size)} {p q : PageId} {f g : Fin size}
variable {frame : Frame}

theorem holds_iff (h : sh.Mapped spare) : (sh.frame f).holds = some p ↔ sh.table[p]? = some f :=
  ⟨h.listed trivial, h.holds⟩

/-- A frame names one page at most. -/
theorem injective (h : sh.Placed exact spare) (hp : sh.table[p]? = some f)
    (hq : sh.table[q]? = some f) : p = q :=
  Option.some.inj ((h.holds hp).symm.trans (h.holds hq))

/-- A frame that holds a page is not to spare. -/
theorem not_mem_spare (h : sh.Placed exact spare) (hp : (sh.frame f).holds = some p) :
    f ∉ spare := by
  intro hf
  rw [h.spare_holds hf] at hp
  exact absurd hp (by simp)

/-- Where nothing has happened there are no pages yet, in the table or in the frames. -/
theorem fresh (s : Stripe) (recency : Recency) :
    ({ Shard.fresh s size with recency } : Shard size).Placed exact (List.finRange size) := by
  have hvacant (f : Fin size) : ((Shard.fresh s size).frame f).holds = none := by
    rw [frame_fresh]
    rfl
  exact
    { holds := fun hp => by simp [Shard.fresh] at hp
      listed := fun _ {p f} hp => absurd ((hvacant f).symm.trans hp) (by simp)
      spare_nodup := List.nodup_finRange size
      spare_holds := fun {f} _ => hvacant f }

/-- Nothing counts but the table and the pages that the frames name. -/
theorem congr (h : sh.Placed exact spare) (htable : sh'.table = sh.table)
    (hholds : ∀ f, (sh'.frame f).holds = (sh.frame f).holds) : sh'.Placed exact spare where
  holds {_ f} hp := (hholds f).trans (h.holds (htable ▸ hp))
  listed hexact _ f hp := by
    rw [htable]
    exact h.listed hexact ((hholds f).symm.trans hp)
  spare_nodup := h.spare_nodup
  spare_holds {f} hf := (hholds f).trans (h.spare_holds hf)

/-- Free list, recency list and counter are not concerned. -/
theorem withRecords (h : sh.Placed exact spare) (free : List (Fin size)) (recency : Recency)
    (nextId : Option PageId) :
    ({ sh with free, recency, nextId } : Shard size).Placed exact spare :=
  h.congr rfl fun _ => rfl

theorem perm {spare' : List (Fin size)} (h : sh.Placed exact spare) (hperm : spare.Perm spare') :
    sh.Placed exact spare' :=
  ⟨h.holds, h.listed, hperm.nodup_iff.mp h.spare_nodup,
    fun hf => h.spare_holds (hperm.mem_iff.mpr hf)⟩

/-- A spare frame may be lost. -/
theorem tail (h : sh.Placed exact (f :: spare)) : sh.Placed exact spare :=
  ⟨h.holds, h.listed, (List.nodup_cons.mp h.spare_nodup).2,
    fun hf => h.spare_holds (List.mem_cons_of_mem _ hf)⟩

/-- A frame goes on naming the page it names, if any. -/
theorem setFrame (h : sh.Placed exact spare) (hholds : frame.holds = (sh.frame f).holds) :
    (sh.setFrame f frame).Placed exact spare := by
  refine h.congr rfl fun g => ?_
  rw [frame_setFrame]
  split
  · next hfg => exact hfg ▸ hholds
  · rfl

/-- Flags are of no account. -/
theorem sameButFlags (h : sh.Placed exact spare) (hsame : sh.SameButFlags sh') :
    sh'.Placed exact spare :=
  h.congr hsame.table hsame.holds

/-- A frame that names no page counts as spare. -/
theorem setFrame_vacant (h : sh.Placed exact spare) (hf : f ∉ spare)
    (hvacant : (sh.frame f).holds = none) (hholds : frame.holds = none) :
    (sh.setFrame f frame).Placed exact (f :: spare) := by
  have hplaced : (sh.setFrame f frame).Placed exact spare := h.setFrame (hholds.trans hvacant.symm)
  have hnodup : (f :: spare).Nodup := List.nodup_cons.mpr ⟨hf, h.spare_nodup⟩
  refine ⟨hplaced.holds, hplaced.listed, hnodup, fun {g} hg => ?_⟩
  rcases List.mem_cons.mp hg with rfl | hg
  · rw [frame_setFrame, if_pos rfl]
    exact hholds
  · exact hplaced.spare_holds hg

/-- The page that frame `f` names goes from both, wherever the table had it, and its frame is
spare. -/
theorem vacate (h : sh.Placed exact spare) (hp : (sh.frame f).holds = some p)
    (hholds : frame.holds = none) :
    ({ sh with table := sh.table.erase p }.setFrame f frame : Shard size).Placed exact
      (f :: spare) := by
  have hframe (g : Fin size) :
      ({ sh with table := sh.table.erase p }.setFrame f frame : Shard size).frame g =
        if f = g then frame else sh.frame g := frame_setFrame ..
  have hlookup (q : PageId) :
      ({ sh with table := sh.table.erase p }.setFrame f frame : Shard size).table[q]? =
        if p = q then none else sh.table[q]? := getElem?_erase ..
  refine ⟨fun {q g} hq => ?_, fun hexact q g hq => ?_,
    List.nodup_cons.mpr ⟨h.not_mem_spare hp, h.spare_nodup⟩, fun {g} hg => ?_⟩
  · -- a page that is left has another frame, for frame `f` names the one that goes
    rw [hlookup] at hq
    split at hq
    · exact absurd hq (by simp)
    · next hpq =>
      have hfg : f ≠ g := fun hfg =>
        hpq (Option.some.inj (hp.symm.trans (hfg ▸ h.holds hq)))
      rw [hframe, if_neg hfg]
      exact h.holds hq
  · rw [hframe] at hq
    split at hq
    · exact absurd (hholds.symm.trans hq) (by simp)
    · next hfg =>
      -- a frame that still names a page names another one, since the table tells them apart
      have hpq : p ≠ q := by
        rintro rfl
        exact hfg (Option.some.inj ((h.listed hexact hp).symm.trans (h.listed hexact hq)))
      rw [hlookup, if_neg hpq]
      exact h.listed hexact hq
  · rw [hframe]
    split
    · exact hholds
    · next hfg => exact h.spare_holds ((List.mem_cons.mp hg).resolve_left (Ne.symm hfg))

/-- A page comes to a spare frame, and has no other if frames and table are to agree. -/
theorem install (h : sh.Placed exact (f :: spare)) (hp : exact → sh.table[p]? = none)
    (bytes : Page) : (sh.install p f bytes).Placed exact spare := by
  have hframe (g : Fin size) : (sh.install p f bytes).frame g =
      if f = g then .holding p bytes else sh.frame g := frame_install ..
  have hlookup (q : PageId) : (sh.install p f bytes).table[q]? =
      if p = q then some f else sh.table[q]? := getElem?_insert ..
  obtain ⟨hf, hnodup⟩ := List.nodup_cons.mp h.spare_nodup
  refine ⟨fun {q g} hq => ?_, fun hexact q g hq => ?_, hnodup, fun {g} hg => ?_⟩
  · rw [hlookup] at hq
    rw [hframe]
    split at hq
    · next hpq =>
      rw [if_pos (Option.some.inj hq), ← hpq]
      rfl
    · have hfg : f ≠ g := by
        rintro rfl
        exact h.not_mem_spare (h.holds hq) List.mem_cons_self
      rw [if_neg hfg]
      exact h.holds hq
  · rw [hframe] at hq
    rw [hlookup]
    split at hq
    · next hfg =>
      have hpq : p = q := Option.some.inj hq
      rw [if_pos hpq, hfg]
    · -- another frame names another page, for this one was absent
      have hpq : p ≠ q := by
        rintro rfl
        exact absurd ((hp hexact).symm.trans (h.listed hexact hq)) (by simp)
      rw [if_neg hpq]
      exact h.listed hexact hq
  · have hfg : f ≠ g := by
      rintro rfl
      exact hf hg
    rw [hframe, if_neg hfg]
    exact h.spare_holds (List.mem_cons_of_mem f hg)

/-- Page `p` stays as it is where another page comes to a spare frame. -/
theorem stays_install (h : sh.Placed exact (g :: spare)) (hq : sh.table[q]? = none)
    (hp : sh.table[p]? = some f) (bytes : Page) :
    (sh.install q g bytes).table[p]? = some f ∧ (sh.install q g bytes).frame f = sh.frame f := by
  have hgf : g ≠ f := by
    rintro rfl
    exact h.not_mem_spare (h.holds hp) List.mem_cons_self
  have hqp : q ≠ p := by
    rintro rfl
    exact absurd (hq.symm.trans hp) (by simp)
  exact ⟨(getElem?_insert ..).trans ((if_neg hqp).trans hp),
    (frame_install ..).trans (if_neg hgf)⟩

/-- Page `p` stays as it is where the page of another frame goes. -/
theorem stays_unmap (h : sh.Mapped spare) (hp : sh.table[p]? = some f)
    (hq : (sh.frame g).holds = some q) (hgf : g ≠ f) :
    (sh.unmap q g).table[p]? = some f ∧ (sh.unmap q g).frame f = sh.frame f := by
  have hqp : q ≠ p := by
    rintro rfl
    exact hgf (Option.some.inj ((h.holds_iff.mp hq).symm.trans hp))
  exact ⟨(getElem?_erase ..).trans ((if_neg hqp).trans hp), (frame_unmap ..).trans (if_neg hgf)⟩

end Placed

end Shard

/-! ## What every operation keeps -/

variable {δ : Type} [PageStore δ] {w w' : Backed size δ} {p : PageId} {f : Fin size}

namespace Search

/-- The frame that was found is spare, whatever was in it. -/
theorem placed_of_ok (h : w.shard.Placed exact w.shard.free) (hs : Search w (.ok f) w') :
    w'.shard.Placed exact (f :: w'.shard.free) := by
  cases hs with
  | @free _ free hfree =>
    have hsame := h.withRecords free w.shard.recency w.shard.nextId
    rw [hfree] at hsame
    exact hsame
  | @vacant _ recency hfree _ hvacant =>
    have hsame := h.withRecords w.shard.free recency w.shard.nextId
    exact hsame.setFrame_vacant (by rw [hfree]; exact List.not_mem_nil) hvacant rfl
  | @clean _ recency p hfree _ hholds | @written _ recency p _ hfree _ hholds =>
    exact (h.withRecords w.shard.free recency w.shard.nextId).vacate hholds rfl

/-- A search that fails moves no page. -/
theorem placed_of_error {e : Failure} (h : w.shard.Placed exact w.shard.free)
    (hs : Search w (.error e) w') : w'.shard.Placed exact w'.shard.free := by
  cases hs with
  | full => exact h
  | stray | unwritten => exact h.withRecords ..

end Search

namespace Backed

/-- The id that a new page would get now is not resident when it is given out. -/
def newIdAbsent (w : Backed size δ) : Bool :=
  match w.shard.nextId, w.acquire.result with
  | some p, .ok _ => w.acquire.state.shard.table[p]?.isNone
  | _, _ => true

/-- A page that is made now is not resident when it comes to its frame. -/
def MakesAbsent (s : Stripe) (w : Backed size δ) : Prop :=
  ∀ {p : PageId} {f : Fin size}, (w.newPage s).result = .ok (p, f) →
    w.acquire.state.shard.table[p]? = none

/-- If the next id is not resident, the page that is made was not. -/
theorem makesAbsent_of_newIdAbsent (h : w.newIdAbsent = true) : w.MakesAbsent s := by
  intro p f hresult
  obtain ⟨hnext, hacquired, -⟩ := made_of_newPage hresult
  unfold newIdAbsent at h
  rw [hnext, hacquired] at h
  exact Option.isNone_iff_eq_none.mp h

/-- Loaded or not, the page has a frame to itself, or the frame is free again. -/
theorem placed_load (h : w.shard.Placed exact (f :: w.shard.free))
    (hp : exact → w.shard.table[p]? = none) :
    (w.load p f).state.shard.Placed exact (w.load p f).state.shard.free := by
  unfold load
  dsimp only
  cases (PageStore.read w.disk p (w.shard.frame f).bytes).result with
  | ok => exact h.install hp _
  | error cause =>
    have hwiped : (w.shard.setFrame f { w.shard.frame f with bytes := .zero }).Placed exact
        (f :: w.shard.free) := h.setFrame rfl
    exact (hwiped.perm (List.perm_append_singleton f w.shard.free).symm).withRecords ..

/-- A fetch keeps the pages in their frames. -/
theorem placed_fetch (h : w.shard.Placed exact w.shard.free) (p : PageId) :
    (w.fetch s p).state.shard.Placed exact (w.fetch s p).state.shard.free := by
  unfold fetch
  split
  swap
  · exact h
  split
  · next f _ =>
    unfold pinAgain
    dsimp only
    split
    swap
    · exact h
    simp only [Shard.untrack_fst]
    have hpinned : (w.shard.setFrame f { w.shard.frame f with
        pins := (w.shard.frame f).pins + 1 }).Placed exact w.shard.free := h.setFrame rfl
    exact hpinned.withRecords ..
  · next hp =>
    have hsearch := w.search
    cases hresult : w.acquire.result with
    | error e =>
      rw [hresult] at hsearch
      rw [Outcome.andThen_of_error hresult]
      exact hsearch.placed_of_error h
    | ok f =>
      rw [hresult] at hsearch
      rw [Outcome.andThen_of_ok hresult]
      exact placed_load (hsearch.placed_of_ok h) fun _ => hsearch.table_none hp

/-- It is only for frames and table to agree that the new id must not be resident. -/
theorem placed_newPage (h : w.shard.Placed exact w.shard.free)
    (hnew : exact → w.MakesAbsent s) :
    (w.newPage s).state.shard.Placed exact (w.newPage s).state.shard.free := by
  have hcreation := w.creation s
  have hsearch := w.search
  generalize hmade : (w.newPage s).result = r, (w.newPage s).state = w' at hcreation
  cases hcreation with
  | exhausted => exact h
  | unplaced _ hresult =>
    rw [hresult] at hsearch
    exact hsearch.placed_of_error h
  | foreign _ hresult =>
    -- the frame that was found is in no record any more
    rw [hresult] at hsearch
    exact (hsearch.placed_of_ok h).tail.withRecords ..
  | made _ hresult =>
    rw [hresult] at hsearch
    have habsent (hexact : exact) := hnew hexact hmade
    exact ((hsearch.placed_of_ok h).install habsent .zero).withRecords ..

omit [PageStore δ] in
/-- An unpin keeps the pages in their frames. -/
theorem placed_unpin (h : w.shard.Placed exact w.shard.free) (p : PageId) (dirty : Bool) :
    (w.unpin s p dirty).state.shard.Placed exact (w.unpin s p dirty).state.shard.free := by
  have hunpin := w.unpin_cases s p dirty
  generalize (w.unpin s p dirty).result = r, (w.unpin s p dirty).state = w' at hunpin
  have hless (f : Fin size) :
      (w.shard.setFrame f (w.unpinned f dirty)).Placed exact w.shard.free := h.setFrame rfl
  cases hunpin with
  | refused => exact h
  | several => exact hless _
  | last => exact (hless _).withRecords ..

/-- A delete takes the page out of the table and the frame. -/
theorem placed_delete (h : w.shard.Placed exact w.shard.free) (p : PageId) :
    (w.delete s p).state.shard.Placed exact (w.delete s p).state.shard.free := by
  unfold delete
  split
  swap
  · exact h
  simp only [Outcome.state_after, discard]
  split
  · exact h
  next f hp =>
  split
  · exact h
  simp only [Shard.untrack_fst]
  have hgone : ({ w.shard with table := w.shard.table.erase p }.setFrame f .blank :
      Shard size).Placed exact (f :: w.shard.free) := h.vacate (h.holds hp) rfl
  exact (hgone.perm (List.perm_append_singleton f w.shard.free).symm).withRecords ..

/-- Flushes move no page. -/
theorem placed_tryFlush (h : w.shard.Placed exact w.shard.free) (latched : Fin size → Bool)
    (p : PageId) : (w.tryFlush latched p).state.shard.Placed exact
      (w.tryFlush latched p).state.shard.free := by
  have hsame := sameButFlags_tryFlush latched w p
  rw [hsame.free]
  exact h.sameButFlags hsame

/-- A sweep moves no page. -/
theorem placed_sweep (h : w.shard.Placed exact w.shard.free) (latched : Fin size → Bool)
    (pages : List PageId) :
    (sweep latched pages w).state.shard.Placed exact (sweep latched pages w).state.shard.free := by
  have hsame := sameButFlags_sweep latched pages w
  rw [hsame.free]
  exact h.sameButFlags hsame

end Backed

end PageCache
