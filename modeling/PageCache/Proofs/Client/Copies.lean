import PageCache.Proofs.Client.Placed

/-!
# The two copies of a page

A page has a copy in the store, and one in a frame while it is resident. As long as nobody changes
the bytes of the page, little can happen to these two: the page is pinned or unpinned, the frame's
copy becomes the stored one, the page goes when it is clean, or it comes in again. `Lasting` are the
statements about the two copies that survive all of this but the coming in, of which each has to say
for itself; a shard keeps them whatever it is asked (`Backed.carries_ask`), and a pool does
(`System.Carries.ask`).

All that is needed for this is that the frames which name the page are where the table has it
(`Shard.Lists`). That holds of a page unless it is created while it is resident; what becomes of the
other pages, and in which order pages go, does not matter.
-/

namespace PageCache

variable {size : Nat}

namespace Shard

/-- The frame of page `p`, if it is resident. -/
def frameOf? (sh : Shard size) (p : PageId) : Option Frame :=
  sh.table[p]?.map sh.frame

/-- Every frame that names page `p` is the one that the table has for it. -/
def Lists (sh : Shard size) (p : PageId) : Prop :=
  ∀ {f : Fin size}, (sh.frame f).holds = some p → sh.table[p]? = some f

variable {sh : Shard size} {p : PageId} {f : Fin size}

/-- A resident page has the frame where the table has it. -/
theorem frameOf?_of_table (hp : sh.table[p]? = some f) : sh.frameOf? p = some (sh.frame f) := by
  rw [frameOf?, hp]
  rfl

/-- A page that is not resident has no frame. -/
theorem frameOf?_of_none (hp : sh.table[p]? = none) : sh.frameOf? p = none := by
  rw [frameOf?, hp]
  rfl

end Shard

/-- What is true of the frame of a page, if it has one, and of its stored bytes, and goes on being
true while the page is where it is, is saved, and goes. -/
structure Lasting (P : Option Frame → Page → Prop) : Prop where
  repin : ∀ {frame frame' : Frame} {stored : Page}, P (some frame) stored →
    frame'.bytes = frame.bytes → (frame.dirty = true → frame'.dirty = true) → P (some frame') stored
  save : ∀ {frame : Frame} {stored : Page}, P (some frame) stored →
    P (some { frame with dirty := false }) frame.bytes
  evict : ∀ {frame : Frame} {stored : Page}, P (some frame) stored → frame.dirty = false →
    P none stored

variable {δ : Type} [PageStore δ] [LawfulStore δ] {s : Stripe} {p q : PageId} {f g : Fin size}
variable {P : Option Frame → Page → Prop} {w w' : Backed size δ} {spare spare' : List (Fin size)}

namespace Backed

/-- The shard is in order as far as page `p` is concerned, and `P` is true of its copies. -/
structure Carries (p : PageId) (P : Option Frame → Page → Prop) (w : Backed size δ)
    (spare : List (Fin size)) : Prop where
  placed : w.shard.Placed False spare
  lists : w.shard.Lists p
  copies : P (w.shard.frameOf? p) (LawfulStore.contents w.disk p)

namespace Carries

/-! ## One frame changes -/

section

variable (h : Carries p P w spare) (hplaced : w'.shard.Placed False spare')
  (hframes : ∀ g', g ≠ g' → w'.shard.frame g' = w.shard.frame g')

include h hplaced hframes

/-- The frame has nothing to do with the page. -/
theorem other (htable : w'.shard.table[p]? = w.shard.table[p]?)
    (hold : (w.shard.frame g).holds ≠ some p) (hnew : (w'.shard.frame g).holds ≠ some p)
    (hstored : LawfulStore.contents w'.disk p = LawfulStore.contents w.disk p) :
    Carries p P w' spare' := by
  refine ⟨hplaced, fun {g'} hholds => ?_, ?_⟩
  · have hgg : g ≠ g' := by
      rintro rfl
      exact hnew hholds
    rw [hframes g' hgg] at hholds
    rw [htable]
    exact h.lists hholds
  · have hsame : w'.shard.frameOf? p = w.shard.frameOf? p := by
      cases hp : w.shard.table[p]? with
      | none => rw [Shard.frameOf?_of_none hp, Shard.frameOf?_of_none (htable.trans hp)]
      | some f =>
        have hgf : g ≠ f := by
          rintro rfl
          exact hold (h.placed.holds hp)
        rw [Shard.frameOf?_of_table hp, Shard.frameOf?_of_table (htable.trans hp), hframes f hgf]
    rw [hsame, hstored]
    exact h.copies

/-- The page stays in the frame. -/
theorem stay (hp : w.shard.table[p]? = some g) (htable : w'.shard.table[p]? = some g)
    (hcopies : P (some (w'.shard.frame g)) (LawfulStore.contents w'.disk p)) :
    Carries p P w' spare' := by
  refine ⟨hplaced, fun {g'} hholds => ?_, ?_⟩
  · by_cases hgg : g = g'
    · exact hgg ▸ htable
    · rw [hframes g' hgg] at hholds
      exact absurd (Option.some.inj (hp.symm.trans (h.lists hholds))) hgg
  · rw [Shard.frameOf?_of_table htable]
    exact hcopies

/-- The page leaves the frame. -/
theorem leave (hp : w.shard.table[p]? = some g) (htable : w'.shard.table[p]? = none)
    (hholds : (w'.shard.frame g).holds ≠ some p)
    (hcopies : P none (LawfulStore.contents w'.disk p)) : Carries p P w' spare' := by
  refine ⟨hplaced, fun {g'} hholds' => ?_, ?_⟩
  · have hgg : g ≠ g' := by
      rintro rfl
      exact hholds hholds'
    rw [hframes g' hgg] at hholds'
    exact absurd (Option.some.inj (hp.symm.trans (h.lists hholds'))) hgg
  · rw [Shard.frameOf?_of_none htable]
    exact hcopies

/-- The page comes to the frame. -/
theorem enter (hp : w.shard.table[p]? = none) (htable : w'.shard.table[p]? = some g)
    (hcopies : P (some (w'.shard.frame g)) (LawfulStore.contents w'.disk p)) :
    Carries p P w' spare' := by
  refine ⟨hplaced, fun {g'} hholds => ?_, ?_⟩
  · by_cases hgg : g = g'
    · exact hgg ▸ htable
    · rw [hframes g' hgg] at hholds
      exact absurd (hp.symm.trans (h.lists hholds)) (by simp)
  · rw [Shard.frameOf?_of_table htable]
    exact hcopies

end

/-- Neither the table nor any frame is different. -/
theorem congr (h : Carries p P w spare) (hplaced : w'.shard.Placed False spare')
    (htable : w'.shard.table = w.shard.table) (hframes : w'.shard.frames = w.shard.frames)
    (hstored : LawfulStore.contents w'.disk p = LawfulStore.contents w.disk p) :
    Carries p P w' spare' := by
  -- the frames are the same, so each is
  have hframe (g : Fin size) : w'.shard.frame g = w.shard.frame g := by
    rw [Shard.frame, Shard.frame, hframes]
  refine ⟨hplaced, fun {g} hholds => ?_, ?_⟩
  · rw [hframe] at hholds
    rw [htable]
    exact h.lists hholds
  · have hsame : w'.shard.frameOf? p = w.shard.frameOf? p := by
      rw [Shard.frameOf?, Shard.frameOf?, htable, funext hframe]
    rw [hsame, hstored]
    exact h.copies

/-- The store is another one, with the same bytes of the page. -/
theorem withDisk (h : Carries p P w spare) {disk : δ}
    (hstored : LawfulStore.contents disk p = LawfulStore.contents w.disk p) :
    Carries p P ⟨w.shard, disk⟩ spare :=
  h.congr h.placed rfl rfl hstored

end Carries

/-- A page leaves its frame, this one or another. -/
theorem carries_vacate (h : Carries p P w spare) {sh : Shard size} {frame : Frame}
    {disk : δ} (hq : (w.shard.frame f).holds = some q) (hplaced : sh.Placed False spare')
    (htable : sh.table = w.shard.table.erase q)
    (hframe : ∀ g, sh.frame g = if f = g then frame else w.shard.frame g)
    (hholds : frame.holds = none)
    (hself : q = p → P (some (w.shard.frame f)) (LawfulStore.contents w.disk p) →
      P none (LawfulStore.contents disk p))
    (hother : q ≠ p → LawfulStore.contents disk p = LawfulStore.contents w.disk p) :
    Carries p P ⟨sh, disk⟩ spare' := by
  have hframes (g : Fin size) (hfg : f ≠ g) : sh.frame g = w.shard.frame g := by
    rw [hframe, if_neg hfg]
  have hvacant : (sh.frame f).holds ≠ some p := by
    rw [hframe, if_pos rfl, hholds]
    simp
  -- it is this page that goes, or another one, and then nothing is different
  by_cases hqp : q = p
  · subst hqp
    have hp := h.lists hq
    have hcopies := h.copies
    rw [Shard.frameOf?_of_table hp] at hcopies
    refine h.leave hplaced hframes hp ?_ hvacant (hself rfl hcopies)
    show sh.table[q]? = none
    rw [htable, Shard.getElem?_erase, if_pos rfl]
  · refine h.other hplaced hframes ?_ ?_ hvacant (hother hqp)
    · show sh.table[p]? = _
      rw [htable, Shard.getElem?_erase, if_neg hqp]
    · rw [hq]
      exact fun hsome => hqp (Option.some.inj hsome)

end Backed

open Backed (Carries carries_vacate)

/-! ## The search for a frame -/

namespace Search

/-- A frame was found, and the page is where it was, or saved, or has gone because it was clean. -/
theorem carries_of_ok (hP : Lasting P) (h : Carries p P w w.shard.free)
    (hs : Search w (.ok f) w') : Carries p P w' (f :: w'.shard.free) := by
  have hplaced := hs.placed_of_ok h.placed
  cases hs with
  | free => exact h.congr hplaced rfl rfl rfl
  | @vacant _ recency hfree _ hholds =>
    refine h.other (g := f) hplaced (fun g hfg => ?_) rfl (by simp [hholds]) ?_ rfl
    · exact (Shard.frame_setFrame ..).trans (if_neg hfg)
    · show ((Shard.setFrame _ f _).frame f).holds ≠ some p
      rw [Shard.frame_setFrame, if_pos rfl]
      simp [Frame.released]
  | @clean _ recency q hfree _ hholds hclean =>
    exact carries_vacate h hholds hplaced rfl (fun g => Shard.frame_unmap ..) rfl
      (fun _ hcopies => hP.evict hcopies hclean) fun _ => rfl
  | @written _ recency q disk hfree _ hholds hdirty hwrite =>
    have hstored := congrFun (LawfulStore.contents_write hwrite) p
    rw [Function.update_apply] at hstored
    refine carries_vacate h hholds hplaced rfl (fun g => Shard.frame_unmap ..) rfl
      (fun hqp hcopies => ?_) fun hqp => ?_
    -- to write a page back and let it go is to save it first
    · rw [hstored, if_pos hqp.symm]
      exact hP.evict (hP.save hcopies) rfl
    · rw [hstored, if_neg (Ne.symm hqp)]

/-- No frame was found, and nothing has happened to the page. -/
theorem carries_of_error {e : Failure} (h : Carries p P w w.shard.free)
    (hs : Search w (.error e) w') : Carries p P w' w'.shard.free := by
  have hplaced := hs.placed_of_error h.placed
  cases hs with
  | full => exact h
  | stray => exact h.congr hplaced rfl rfl rfl
  | unwritten _ _ _ _ hwrite =>
    exact h.congr hplaced rfl rfl (congrFun (LawfulStore.contents_failed_write hwrite) p)

end Search

namespace Backed

/-! ## What a shard is asked -/

omit [LawfulStore δ] in
/-- If page `p` comes in, is deleted or is changed, `P` is true of its copies afterwards if it was
before. -/
def Suits (s : Stripe) (p : PageId) (P : Option Frame → Page → Prop) (w : Backed size δ) :
    ShardOp size → Prop
  | .fetch q => q = p → s.Owns p → w.shard.table[p]? = none → ∀ {stored : Page},
      P none stored → P (some (.holding p stored)) stored
  | .newPage => ∀ {f : Fin size}, (w.newPage s).result = .ok (p, f) →
      w.shard.table[p]? = none ∧ ∀ {stored : Page}, P none stored →
        P (some (.holding p .zero)) stored
  | .delete q => q = p → ∀ {frame : Frame} {stored : Page}, P (some frame) stored → P none stored
  | .reach f g => w.shard.table[p]? = some f → ∀ {stored : Page},
      P (some (w.shard.frame f)) stored →
        P (some { w.shard.frame f with bytes := g (w.shard.frame f).bytes }) stored
  | .unpin .. | .flush _ | .flushAll _ => True

/-- A page that was not resident comes to a frame that was found for it. -/
theorem carries_install (h : Carries p P w (f :: spare)) {sh : Shard size} {bytes : Page}
    {disk : δ} (hplaced : sh.Placed False spare') (htable : sh.table = w.shard.table.insert q f)
    (hframe : ∀ g, sh.frame g = if f = g then .holding q bytes else w.shard.frame g)
    (hq : q = p → w.shard.table[p]? = none ∧ ∀ {stored : Page}, P none stored →
      P (some (.holding p bytes)) (LawfulStore.contents disk p))
    (hstored : LawfulStore.contents disk p = LawfulStore.contents w.disk p) :
    Carries p P ⟨sh, disk⟩ spare' := by
  have hframes (g : Fin size) (hfg : f ≠ g) : sh.frame g = w.shard.frame g := by
    rw [hframe, if_neg hfg]
  have hself : sh.frame f = .holding q bytes := by rw [hframe, if_pos rfl]
  -- either it is the page itself that comes in, or another page comes to a frame in which it was
  -- not
  by_cases hqp : q = p
  · subst hqp
    obtain ⟨habsent, hcopies⟩ := hq rfl
    have hbefore := h.copies
    rw [Shard.frameOf?_of_none habsent] at hbefore
    refine h.enter hplaced hframes habsent ?_ ?_
    · show sh.table[q]? = some f
      rw [htable, Shard.getElem?_insert, if_pos rfl]
    · show P (some (sh.frame f)) _
      rw [hself]
      exact hcopies hbefore
  · refine h.other hplaced hframes ?_ ?_ ?_ hstored
    · show sh.table[p]? = _
      rw [htable, Shard.getElem?_insert, if_neg hqp]
    · rw [h.placed.spare_holds List.mem_cons_self]
      simp
    · show (sh.frame f).holds ≠ some p
      rw [hself]
      exact fun hsome => hqp (Option.some.inj hsome)

/-- A page that is loaded has the same bytes in its frame and in the store. -/
theorem carries_load (h : Carries p P w (f :: w.shard.free)) (hq : w.shard.table[q]? = none)
    (howns : s.Owns q) (hop : w.Suits s p P (.fetch q)) :
    Carries p P (w.load q f).state (w.load q f).state.shard.free := by
  have hplaced := placed_load h.placed (p := q) False.elim
  have hread := congrFun (LawfulStore.contents_read w.disk q (w.shard.frame f).bytes) p
  unfold load at hplaced ⊢
  dsimp only at hplaced ⊢
  cases hresult : (PageStore.read w.disk q (w.shard.frame f).bytes).result with
  | ok =>
    rw [hresult] at hplaced
    refine carries_install h hplaced rfl (fun g => Shard.frame_install ..) (fun hqp => ?_) hread
    subst hqp
    refine ⟨hq, fun {stored} _ => ?_⟩
    rw [hread, LawfulStore.buffer_read hresult]
    have hbefore := h.copies
    rw [Shard.frameOf?_of_none hq] at hbefore
    exact hop rfl howns hq hbefore
  -- the frame is wiped, but no page was in it
  | error cause =>
    rw [hresult] at hplaced
    have hspare := h.placed.spare_holds (List.mem_cons_self (a := f))
    refine h.other (g := f) hplaced (fun g hfg => ?_) rfl (by simp [hspare]) ?_ hread
    · exact (Shard.frame_setFrame ..).trans (if_neg hfg)
    · show ((w.shard.setFrame f _).frame f).holds ≠ some p
      rw [Shard.frame_setFrame, if_pos rfl]
      simp [hspare]

/-- The frame of a page is pinned, unpinned or edited. -/
theorem carries_reframe (h : Carries p P w spare) {sh : Shard size} {frame : Frame}
    (hplaced : sh.Placed False spare') (htable : sh.table = w.shard.table)
    (hframe : ∀ g, sh.frame g = if f = g then frame else w.shard.frame g)
    (hholds : frame.holds = (w.shard.frame f).holds)
    (hcopies : w.shard.table[p]? = some f → ∀ {stored : Page},
      P (some (w.shard.frame f)) stored → P (some frame) stored) :
    Carries p P ⟨sh, w.disk⟩ spare' := by
  have hframes (g : Fin size) (hfg : f ≠ g) : sh.frame g = w.shard.frame g := by
    rw [hframe, if_neg hfg]
  have hself : sh.frame f = frame := by rw [hframe, if_pos rfl]
  by_cases hp : w.shard.table[p]? = some f
  · refine h.stay hplaced hframes hp (htable ▸ hp) ?_
    show P (some (sh.frame f)) _
    have hbefore := h.copies
    rw [Shard.frameOf?_of_table hp] at hbefore
    rw [hself]
    exact hcopies hp hbefore
  · -- a frame that the table does not have for the page does not name it
    have hnot : (w.shard.frame f).holds ≠ some p := fun hholds => hp (h.lists hholds)
    refine h.other hplaced hframes (congrArg (·[p]?) htable) hnot ?_ rfl
    show (sh.frame f).holds ≠ some p
    rw [hself, hholds]
    exact hnot

/-- A fetch, of this page or another, carries the copies of the page along. -/
theorem carries_fetch (hP : Lasting P) (h : Carries p P w w.shard.free)
    (hop : w.Suits s p P (.fetch q)) :
    Carries p P (w.fetch s q).state (w.fetch s q).state.shard.free := by
  have hplaced := placed_fetch (s := s) h.placed q
  rw [fetch] at hplaced ⊢
  by_cases howns : s.Owns q
  swap
  · rw [if_neg howns]
    exact h
  rw [if_pos howns] at hplaced ⊢
  cases hq : w.shard.table[q]? with
  -- a resident page gets one pin more, and keeps its bytes
  | some f =>
    rw [hq] at hplaced
    dsimp only at hplaced ⊢
    rw [pinAgain] at hplaced ⊢
    dsimp only at hplaced ⊢
    by_cases hpins : (w.shard.frame f).pins < Frame.maxPins
    · rw [if_pos hpins] at hplaced ⊢
      simp only [Shard.untrack_fst] at hplaced ⊢
      exact carries_reframe (f := f) h hplaced rfl (fun g => Shard.frame_setFrame ..) rfl
        fun _ _ hcopies => hP.repin hcopies rfl id
    · rw [if_neg hpins]
      exact h
  | none =>
    have hsearch := w.search
    dsimp only
    cases hresult : w.acquire.result with
    | error e =>
      rw [hresult] at hsearch
      rw [Outcome.andThen_of_error hresult]
      exact hsearch.carries_of_error h
    | ok f =>
      rw [hresult] at hsearch
      rw [Outcome.andThen_of_ok hresult]
      have habsent := hsearch.table_none hq
      refine carries_load (hsearch.carries_of_ok hP h) habsent howns fun hqp howns _ => ?_
      exact hop hqp howns (hqp ▸ hq)

/-- A creation carries the copies of the page along. -/
theorem carries_newPage (hP : Lasting P) (h : Carries p P w w.shard.free)
    (hop : w.Suits s p P .newPage) :
    Carries p P (w.newPage s).state (w.newPage s).state.shard.free := by
  have hplaced := placed_newPage (s := s) h.placed False.elim
  have hcreation := w.creation s
  have hsearch := w.search
  generalize hresult : (w.newPage s).result = r, (w.newPage s).state = w' at hcreation hplaced
  cases hcreation with
  | exhausted => exact h
  | unplaced _ hfailed =>
    rw [hfailed] at hsearch
    exact hsearch.carries_of_error h
  | foreign _ hfound =>
    rw [hfound] at hsearch
    exact (hsearch.carries_of_ok hP h).congr hplaced rfl rfl rfl
  | @made q f _ hfound =>
    rw [hfound] at hsearch
    have hbefore := hsearch.carries_of_ok hP h
    refine carries_install hbefore hplaced rfl (fun g => Shard.frame_install ..) (fun hqp => ?_) rfl
    -- the search may have written other pages, but none that would be this one
    obtain ⟨habsent, hcopies⟩ := hop (hqp ▸ hresult)
    refine ⟨hsearch.table_none habsent, fun {stored} _ => hcopies ?_⟩
    have hcopies := hbefore.copies
    rw [Shard.frameOf?_of_none (hsearch.table_none habsent)] at hcopies
    exact hcopies

/-- An unpin changes no bytes, and makes no page clean. -/
theorem carries_unpin (hP : Lasting P) (h : Carries p P w w.shard.free) (q : PageId)
    (dirty : Bool) :
    Carries p P (w.unpin s q dirty).state (w.unpin s q dirty).state.shard.free := by
  have hplaced := placed_unpin (s := s) h.placed q dirty
  have hcases := w.unpin_cases s q dirty
  have hframe {sh : Shard size} {f : Fin size} (hsame : sh.frames =
      (w.shard.setFrame f (w.unpinned f dirty)).frames) (g : Fin size) :
      sh.frame g = if f = g then w.unpinned f dirty else w.shard.frame g := by
    rw [← Shard.frame_setFrame, Shard.frame, Shard.frame, hsame]
  have hdirty (f : Fin size) (hdirty : (w.shard.frame f).dirty = true) :
      (w.unpinned f dirty).dirty = true := by
    rw [unpinned, hdirty, Bool.true_or]
  generalize (w.unpin s q dirty).result = r, (w.unpin s q dirty).state = w' at hcases hplaced
  cases hcases with
  | refused => exact h
  | several | last =>
    exact carries_reframe h hplaced rfl (hframe rfl) rfl fun _ _ hcopies =>
      hP.repin hcopies rfl (hdirty _)

/-- A deletion, of this page or another, carries the copies of the page along. -/
theorem carries_delete (h : Carries p P w w.shard.free) (hop : w.Suits s p P (.delete q)) :
    Carries p P (w.delete s q).state (w.delete s q).state.shard.free := by
  have hplaced := placed_delete (s := s) h.placed q
  have hstored := congrFun (LawfulStore.contents_deallocate w.disk q) p
  unfold delete at hplaced ⊢
  split at hplaced
  swap
  · next howns =>
    rw [if_neg howns]
    exact h
  next howns =>
  rw [if_pos howns]
  simp only [Outcome.state_after, discard] at hplaced ⊢
  cases hq : w.shard.table[q]? with
  | none => exact h.withDisk hstored
  | some g =>
    rw [hq] at hplaced
    dsimp only at hplaced ⊢
    by_cases hpins : 0 < (w.shard.frame g).pins
    · rw [if_pos hpins]
      exact h.withDisk hstored
    · rw [if_neg hpins] at hplaced ⊢
      simp only [Shard.untrack_fst] at hplaced ⊢
      -- the frame is wiped, and the copies in it go
      exact carries_vacate h (h.placed.holds hq) hplaced rfl (fun _ => Shard.frame_setFrame ..) rfl
        (fun hqp hcopies => hstored ▸ hop hqp hcopies) fun _ => hstored

/-- A look at a page saves it, or leaves its copies alone. -/
theorem carries_tryFlush (hP : Lasting P) (h : Carries p P w w.shard.free)
    (latched : Fin size → Bool) (q : PageId) :
    Carries p P (w.tryFlush latched q).state (w.tryFlush latched q).state.shard.free := by
  have hplaced := placed_tryFlush h.placed latched q
  have hlooked := w.looked latched q
  generalize (w.tryFlush latched q).result = r, (w.tryFlush latched q).state = w' at hlooked hplaced
  cases hlooked with
  | absent | clean | busy => exact h
  | unwritten _ _ _ hwrite =>
    exact h.withDisk (congrFun (LawfulStore.contents_failed_write hwrite) p)
  | @written g disk hq hdirty hfree hwrite =>
    have hframes (g' : Fin size) (hgg : g ≠ g') :
        (markClean { w with disk } g).shard.frame g' = w.shard.frame g' :=
      (Shard.frame_setFrame ..).trans (if_neg hgg)
    have hself : (markClean { w with disk } g).shard.frame g =
        { w.shard.frame g with dirty := false } := (Shard.frame_setFrame ..).trans (if_pos rfl)
    have hstored := congrFun (LawfulStore.contents_write hwrite) p
    rw [Function.update_apply] at hstored
    -- it is this page that is saved, or one in another frame
    by_cases hqp : q = p
    · subst hqp
      have hcopies := h.copies
      rw [Shard.frameOf?_of_table hq] at hcopies
      refine h.stay hplaced hframes hq hq ?_
      show P (some ((markClean { w with disk } g).shard.frame g)) (LawfulStore.contents disk q)
      rw [hself, hstored, if_pos rfl]
      exact hP.save hcopies
    · have hnot : (w.shard.frame g).holds ≠ some p := by
        rw [h.placed.holds hq]
        exact fun hsome => hqp (Option.some.inj hsome)
      refine h.other hplaced hframes rfl hnot ?_ ?_
      · rw [hself]
        exact hnot
      · exact hstored.trans (if_neg (Ne.symm hqp))

/-- A sweep saves the pages it comes to, this one or others. -/
theorem carries_sweep (hP : Lasting P) (h : Carries p P w w.shard.free)
    (latched : Fin size → Bool) (pages : List PageId) :
    Carries p P (sweep latched pages w).state (sweep latched pages w).state.shard.free := by
  induction pages generalizing w with
  | nil => exact h
  | cons q pages ih =>
    have hlook := carries_tryFlush hP h latched q
    rw [sweep]
    refine Outcome.state_andThen (P := fun w' : Backed size δ => Carries p P w' w'.shard.free)
      hlook fun look _ => ?_
    cases look <;> exact ih hlook

/-- Whatever a shard is asked, what lasts is carried along, if the request suits it. -/
theorem carries_ask (hP : Lasting P) (h : Carries p P w w.shard.free) {op : ShardOp size}
    (hop : w.Suits s p P op) : Carries p P (w.ask s op) (w.ask s op).shard.free := by
  -- each request by the lemma for it
  cases op with
  | fetch q => exact carries_fetch hP h hop
  | newPage => exact carries_newPage hP h hop
  | unpin q dirty => exact carries_unpin hP h q dirty
  | delete q => exact carries_delete h hop
  | flush q =>
    show Carries p P (w.flush s q).state (w.flush s q).state.shard.free
    rw [flush]
    split
    · exact carries_tryFlush hP h noWriter q
    · exact h
  | flushAll visit => exact carries_sweep hP h noWriter _
  | reach f g =>
    exact carries_reframe (f := f) h (h.placed.setFrame rfl) rfl
      (fun _ => Shard.frame_setFrame ..) rfl hop

end Backed

/-! ## Pools -/

namespace System

variable {l : Layout} {u : System l size δ} {i j : Fin l.width}

/-- All shards are in order as far as page `p` is concerned, and `P` is true of its copies, the one
in the store and the one in shard `i`. -/
structure Carries (p : PageId) (P : Option Frame → Page → Prop) (i : Fin l.width)
    (u : System l size δ) : Prop where
  placed : u.Placed
  lists : ∀ j, (u.pool.shard j).Lists p
  copies : P ((u.pool.shard i).frameOf? p) (LawfulStore.contents u.disk p)

/-- The shard of the page is one that carries the copies. -/
theorem Carries.shard (h : u.Carries p P i) :
    (u.backed i).Carries p P (u.pool.shard i).free :=
  ⟨h.placed.shard i, h.lists i, h.copies⟩

/-- What another shard is asked makes no difference to the copies of the page. -/
theorem Carries.ask_other (h : u.Carries p P i) (hp : ¬ (l.stripe j).Owns p) (op : ShardOp size) :
    ((u.backed j).ask (l.stripe j) op).Carries p
      (fun frame stored => frame = none ∧ stored = LawfulStore.contents u.disk p)
      ((u.backed j).ask (l.stripe j) op).shard.free := by
  have habsent : (u.pool.shard j).table[p]? = none :=
    Option.eq_none_iff_forall_not_mem.mpr fun f hf => hp ((h.placed.confined j).table hf)
  have hnone {frame : Frame} {stored : Page}
      (h : some frame = none ∧ stored = LawfulStore.contents u.disk p) : False :=
    absurd h.1 (by simp)
  -- to have no frame, and these bytes stored, lasts in a shard that cannot have the page
  refine Backed.carries_ask ⟨fun h => (hnone h).elim, fun h => (hnone h).elim,
    fun h => (hnone h).elim⟩ ⟨h.placed.shard j, h.lists j, Shard.frameOf?_of_none habsent, rfl⟩ ?_
  cases op with
  | fetch q => exact fun _ howns => absurd howns hp
  | newPage =>
    intro f hresult
    exact absurd ((h.placed.confined j).next (Backed.nextId_of_newPage hresult)) hp
  | delete q => exact fun _ _ _ h => (hnone h).elim
  | reach f g => exact fun _ _ h => (hnone h).elim
  | _ => trivial

/-- Whatever a shard of a pool is asked, the copies of a page are carried along in the shard of the
page. -/
theorem Carries.ask (hP : Lasting P) (howns : (l.stripe i).Owns p) (h : u.Carries p P i)
    {op : ShardOp size} (hop : (u.backed j).Suits (l.stripe j) p P op) :
    (u.ask j op).Carries p P i := by
  have hshard (k : Fin l.width) : (u.ask j op).pool.shard k =
      if j = k then ((u.backed j).ask (l.stripe j) op).shard else u.pool.shard k :=
    shard_onShard ..
  -- the shard that was asked is in order afterwards, and the others are as they were
  have hlists {P' : Option Frame → Page → Prop}
      (hafter : ((u.backed j).ask (l.stripe j) op).Carries p P'
        ((u.backed j).ask (l.stripe j) op).shard.free) (k : Fin l.width) :
      ((u.ask j op).pool.shard k).Lists p := by
    rw [hshard]
    split
    · exact hafter.lists
    · exact h.lists k
  by_cases hji : j = i
  · subst hji
    have hafter := Backed.carries_ask hP h.shard hop
    refine ⟨h.placed.ask j op, hlists hafter, ?_⟩
    rw [hshard, if_pos rfl]
    exact hafter.copies
  · have hp : ¬ (l.stripe j).Owns p := fun hp => hji (Layout.eq_of_owns hp howns)
    have hafter := h.ask_other hp op
    refine ⟨h.placed.ask j op, hlists hafter, ?_⟩
    have hstored : LawfulStore.contents (u.ask j op).disk p = LawfulStore.contents u.disk p :=
      hafter.copies.2
    rw [hshard, if_neg hji, hstored]
    exact h.copies

end System

end PageCache
