import PageCache.Proofs.Shard.Placed
import PageCache.Proofs.Store.Lawful

/-!
# A flush of all pages, faults and all

A sweep writes the pages it comes to until it meets one that cannot be written, and it changes
nothing but the flags of those it wrote. So all there is to say of it is which pages these are:
`Backed.saveAll` writes the dirty ones of a list, `Backed.sweep_cases` tells how far a sweep gets,
and where every resident page has a frame to itself the order does not matter (`saveAll_perm`).

* `Disk.Written`: what a flush makes of the disk.
* `Backed.Flushed`: every page of a shard that was dirty is stored.
* `Backed.PartlyFlushed`: each page that was dirty is stored, or is as it was.
* `Backed.flushAll_faulty`: which of the two it is, and when.
-/

namespace PageCache

variable {size : Nat}

/-! ## Writes -/

/-- It does not matter which of two entries with different keys was made first. -/
theorem insert_insert_comm {α β : Type} {cmp : α → α → Ordering} [Std.TransCmp cmp]
    [Std.LawfulEqCmp cmp] (t : Std.ExtTreeMap α β cmp) {a b : α} (hab : a ≠ b) (x y : β) :
    (t.insert a x).insert b y = (t.insert b y).insert a x := by
  apply Std.ExtTreeMap.ext_getElem?
  intro k
  simp only [Std.ExtTreeMap.getElem?_insert]
  by_cases hb : cmp b k = .eq
  · have ha : cmp a k ≠ .eq := by
      intro ha
      exact hab ((Std.LawfulEqCmp.eq_of_compare ha).trans (Std.LawfulEqCmp.eq_of_compare hb).symm)
    rw [if_pos hb, if_neg ha, if_pos hb]
  · rw [if_neg hb, if_neg hb]

namespace Medium

/-- Writes of different pages may be made in either order, on any medium. -/
theorem write_comm (m : Medium) {p q : PageId} (hpq : p ≠ q) (bytes bytes' : Page) :
    (m.write p bytes).write q bytes' = (m.write q bytes').write p bytes := by
  have herase (t : Std.ExtTreeSet PageId) : (t.erase p).erase q = (t.erase q).erase p := by
    apply Std.ExtTreeSet.ext_mem
    intro r
    simp only [Std.ExtTreeSet.mem_erase]
    exact and_left_comm
  cases m with
  | memory m =>
    simp only [write, MemoryStore.write, insert_insert_comm m.pages hpq, herase]
  | file f =>
    have hval : p.val ≠ q.val := fun h => hpq (PageId.ext h)
    have himage : (f.image.writeBlock p.val bytes).writeBlock q.val bytes' =
        (f.image.writeBlock q.val bytes').writeBlock p.val bytes := by
      simp only [Image.writeBlock, insert_insert_comm f.image.blocks hval, Nat.max_right_comm]
    simp only [write, FileStore.write, himage, herase]

/-- The medium after `pages` were written, in this order. -/
def writeAll (m : Medium) (pages : List (PageId × Page)) : Medium :=
  pages.foldl (fun m page => m.write page.1 page.2) m

variable {pages : List (PageId × Page)} {p : PageId} {bytes : Page}

/-- A page that is not written keeps its contents. -/
theorem contents_writeAll_of_not_mem (m : Medium) (hp : p ∉ pages.map Prod.fst) :
    (m.writeAll pages).contents p = m.contents p := by
  induction pages generalizing m with
  | nil => rfl
  | cons x pages ih =>
    obtain ⟨hne, hp⟩ := not_or.mp (mt List.mem_cons.mpr hp)
    show ((m.write x.1 x.2).writeAll pages).contents p = _
    rw [ih _ hp, contents_write]
    exact Function.update_of_ne hne _ _

/-- A page that is written once among others is read back. -/
theorem contents_writeAll (m : Medium) (hpages : (pages.map Prod.fst).Nodup)
    (hp : (p, bytes) ∈ pages) : (m.writeAll pages).contents p = bytes := by
  induction pages generalizing m with
  | nil => exact absurd hp List.not_mem_nil
  | cons x pages ih =>
    obtain ⟨hx, hpages⟩ := List.nodup_cons.mp hpages
    show ((m.write x.1 x.2).writeAll pages).contents p = _
    rcases List.mem_cons.mp hp with rfl | hp
    · -- no later write is of this page
      rw [contents_writeAll_of_not_mem _ hx, contents_write]
      exact Function.update_self ..
    · exact ih _ hpages hp

end Medium

namespace Disk

/-- Pages were written to the disk, each at most once and all of them as `S` tells, and nothing else
happened to it. -/
def Written (S : PageId → Page → Prop) (d d' : Disk) : Prop :=
  ∃ pages : List (PageId × Page), (pages.map Prod.fst).Nodup ∧ (∀ x ∈ pages, S x.1 x.2) ∧
    d' = { d with medium := d.medium.writeAll pages }

namespace Written

variable {S S' : PageId → Page → Prop} {d d' d'' : Disk} {p : PageId}

/-- A disk to which nothing is written is one to which nothing happened. -/
theorem refl (S : PageId → Page → Prop) (d : Disk) : d.Written S d :=
  ⟨[], List.nodup_nil, List.forall_mem_nil _, rfl⟩

/-- What was written as `S` tells was written as anything tells that follows from it. -/
theorem mono (h : d.Written S d') (hS : ∀ p bytes, S p bytes → S' p bytes) : d.Written S' d' := by
  obtain ⟨pages, hnodup, hpages, heq⟩ := h
  exact ⟨pages, hnodup, fun x hx => hS _ _ (hpages x hx), heq⟩

/-- Writes of two kinds, of which no page is of both, are writes of either kind. -/
theorem append (h : d.Written S d') (h' : d'.Written S' d'')
    (hapart : ∀ p bytes bytes', S p bytes → ¬ S' p bytes') :
    d.Written (fun p bytes => S p bytes ∨ S' p bytes) d'' := by
  obtain ⟨pages, hnodup, hpages, rfl⟩ := h
  obtain ⟨pages', hnodup', hpages', rfl⟩ := h'
  refine ⟨pages ++ pages', ?_, fun x hx => ?_, ?_⟩
  · -- a page of both lists would be told by `S` and by `S'`
    rw [List.map_append, List.nodup_append]
    refine ⟨hnodup, hnodup', ?_⟩
    rintro p hp q hq rfl
    obtain ⟨x, hx, rfl⟩ := List.mem_map.mp hp
    obtain ⟨y, hy, hxy⟩ := List.mem_map.mp hq
    exact hapart _ _ y.2 (hpages x hx) (hxy ▸ hpages' y hy)
  · exact (List.mem_append.mp hx).imp (hpages x) (hpages' x)
  · rw [Medium.writeAll, Medium.writeAll, Medium.writeAll, List.foldl_append]

/-- What the disk refuses does not change by what it takes. -/
theorem faults (h : d.Written S d') : d'.faults = d.faults := by
  obtain ⟨pages, -, -, rfl⟩ := h
  rfl

/-- A page of which `S` tells no bytes keeps its contents. -/
theorem contents_of_not (h : d.Written S d') (hp : ∀ bytes, ¬ S p bytes) :
    d'.contents p = d.contents p := by
  obtain ⟨pages, -, hpages, rfl⟩ := h
  apply Medium.contents_writeAll_of_not_mem
  intro hmem
  obtain ⟨x, hx, rfl⟩ := List.mem_map.mp hmem
  exact hp x.2 (hpages x hx)

end Written

end Disk

namespace Shard

/-- Where page `p` lies, if it is dirty. -/
def unsaved? (sh : Shard size) (p : PageId) : Option (Fin size) :=
  sh.table[p]?.filter fun f => (sh.frame f).dirty

variable {sh : Shard size} {p : PageId} {f : Fin size}

/-- A page is unsaved in the frame where it lies, if that is dirty. -/
theorem unsaved?_eq_some_iff :
    sh.unsaved? p = some f ↔ sh.table[p]? = some f ∧ (sh.frame f).dirty = true :=
  Option.filter_eq_some_iff

end Shard

namespace Backed

/-- Page `p` is resident and dirty, and its frame has these bytes. -/
def Unsaved (w : Backed size Disk) (p : PageId) (bytes : Page) : Prop :=
  ∃ f, w.shard.unsaved? p = some f ∧ (w.shard.frame f).bytes = bytes

/-- Page `p` is resident and clean, and these bytes are in its frame and on the disk. -/
def Stored (w : Backed size Disk) (p : PageId) (bytes : Page) : Prop :=
  ∃ f, w.shard.table[p]? = some f ∧ (w.shard.frame f).dirty = false ∧
    (w.shard.frame f).bytes = bytes ∧ w.disk.contents p = bytes

/-- Page `p` is dirty, and the disk refuses to write it. -/
def Stuck (w : Backed size Disk) (p : PageId) : Prop :=
  w.shard.unsaved? p ≠ none ∧ w.disk.faults.write p = true

/-- Page `p` written to the disk, if it is dirty. -/
def save (w : Backed size Disk) (p : PageId) : Backed size Disk :=
  match w.shard.unsaved? p with
  | none => w
  | some f =>
    markClean ⟨w.shard, { w.disk with
      medium := w.disk.medium.write p (w.shard.frame f).bytes }⟩ f

def saveAll (pages : List PageId) (w : Backed size Disk) : Backed size Disk :=
  pages.foldl save w

variable {exact : Prop} {w w' : Backed size Disk} {p q : PageId} {f : Fin size}
variable {pages : List PageId}

/-! ## What saving does -/

/-- Saving a page that is not dirty does nothing. -/
theorem save_of_none (h : w.shard.unsaved? p = none) : w.save p = w := by
  rw [save, h]

/-- Saving a dirty page writes it and clears the flag of its frame. -/
theorem save_of_some (h : w.shard.unsaved? p = some f) :
    w.save p = ⟨w.shard.setFrame f { w.shard.frame f with dirty := false },
      { w.disk with medium := w.disk.medium.write p (w.shard.frame f).bytes }⟩ := by
  rw [save, h]
  rfl

/-- What the disk refuses does not change by saving. -/
theorem faults_save (w : Backed size Disk) (p : PageId) :
    (w.save p).disk.faults = w.disk.faults := by
  cases hp : w.shard.unsaved? p with
  | none => rw [save_of_none hp]
  | some f => rw [save_of_some hp]

/-- Saving a page changes no record but a dirty flag. -/
theorem sameButFlags_save (w : Backed size Disk) (p : PageId) :
    w.shard.SameButFlags (w.save p).shard := by
  cases hp : w.shard.unsaved? p with
  | none =>
    rw [save_of_none hp]
    exact .refl w.shard
  | some f =>
    rw [save_of_some hp]
    refine ⟨rfl, rfl, rfl, rfl, fun g => ?_⟩
    rw [Shard.frame_setFrame]
    split
    · next hfg => exact .inr (hfg ▸ rfl)
    · exact .inl rfl

/-- A page that was saved is dirty no more, and every other page is what it was. -/
theorem unsaved?_save {spare : List (Fin size)} (h : w.shard.Placed exact spare) (p q : PageId) :
    (w.save p).shard.unsaved? q = if q = p then none else w.shard.unsaved? q := by
  cases hp : w.shard.unsaved? p with
  | none =>
    rw [save_of_none hp]
    split
    · next hqp => exact hqp ▸ hp
    · rfl
  | some f =>
    have hplace := (Shard.unsaved?_eq_some_iff.mp hp).1
    rw [save_of_some hp, Shard.unsaved?, Shard.unsaved?]
    show (w.shard.table[q]?).filter _ = _
    cases hq : w.shard.table[q]? with
    | none => split <;> rfl
    | some g =>
      rw [Option.filter_some, Option.filter_some, Shard.frame_setFrame]
      by_cases hfg : f = g
      · -- no two pages lie in one frame
        obtain rfl := h.injective hplace (hfg ▸ hq)
        rw [if_pos hfg, if_pos rfl]
        rfl
      · have hqp : q ≠ p := by
          rintro rfl
          exact hfg (Option.some.inj (hplace.symm.trans hq))
        rw [if_neg hfg, if_neg hqp]

/-- Two pages may be saved in either order. -/
theorem save_comm {spare : List (Fin size)} (h : w.shard.Placed exact spare) (p q : PageId) :
    (w.save p).save q = (w.save q).save p := by
  by_cases hpq : p = q
  · rw [hpq]
  have hp' := unsaved?_save h q p
  have hq' := unsaved?_save h p q
  rw [if_neg hpq] at hp'
  rw [if_neg (Ne.symm hpq)] at hq'
  cases hp : w.shard.unsaved? p with
  | none => rw [save_of_none hp, save_of_none (hp'.trans hp)]
  | some f =>
    cases hq : w.shard.unsaved? q with
    | none => rw [save_of_none hq, save_of_none (hq'.trans hq)]
    | some g =>
      have hfg : f ≠ g := by
        rintro rfl
        exact hpq (h.injective (Shard.unsaved?_eq_some_iff.mp hp).1
          (Shard.unsaved?_eq_some_iff.mp hq).1)
      have hval : f.val ≠ g.val := fun hval => hfg (Fin.ext hval)
      rw [save_of_some (hq'.trans hq), save_of_some (hp'.trans hp), save_of_some hp,
        save_of_some hq]
      -- the pages differ, and so do their frames: neither write nor flag is in the way of the other
      simp only [Shard.frame_setFrame, if_neg hfg, if_neg (Ne.symm hfg)]
      rw [Medium.write_comm _ hpq]
      simp only [Shard.setFrame, Vector.set_comm _ _ hval]

/-- A page that is stuck is refused, and the disk stays as it is. -/
theorem write_of_stuck (hp : w.shard.table[p]? = some f) (h : w.Stuck p) :
    (w.shard.frame f).dirty = true ∧
      PageStore.write w.disk p (w.shard.frame f).bytes = (.error .writeFault, w.disk) := by
  obtain ⟨hunsaved, hfault⟩ := h
  obtain ⟨g, hg⟩ := Option.ne_none_iff_exists'.mp hunsaved
  obtain ⟨hplace, hdirty⟩ := Shard.unsaved?_eq_some_iff.mp hg
  obtain rfl : f = g := Option.some.inj (hp.symm.trans hplace)
  refine ⟨hdirty, ?_⟩
  show w.disk.write p (w.shard.frame f).bytes = _
  rw [Disk.write, if_pos hfault]

/-- A page that is not stuck is clean, or the disk takes it. -/
theorem write_of_not_stuck (hp : w.shard.table[p]? = some f) (h : ¬ w.Stuck p) :
    (w.shard.frame f).dirty = false ∧ w.save p = w ∨
      (w.shard.frame f).dirty = true ∧
        PageStore.write w.disk p (w.shard.frame f).bytes = (.ok (), (w.save p).disk) ∧
        w.save p = markClean { w with disk := (w.save p).disk } f := by
  cases hdirty : (w.shard.frame f).dirty with
  | false =>
    refine .inl ⟨rfl, save_of_none ?_⟩
    rw [Shard.unsaved?, hp, Option.filter_some, hdirty]
    rfl
  | true =>
    have hunsaved : w.shard.unsaved? p = some f := Shard.unsaved?_eq_some_iff.mpr ⟨hp, hdirty⟩
    have hfault : w.disk.faults.write p ≠ true := fun hfault => h ⟨by simp [hunsaved], hfault⟩
    refine .inr ⟨rfl, ?_, ?_⟩
    · show w.disk.write p (w.shard.frame f).bytes = _
      rw [Disk.write, if_neg hfault, save_of_some hunsaved]
    · rw [save_of_some hunsaved]
      rfl

/-! ## How far a sweep gets -/

/-- A page that was saved is not stuck; the others are as stuck as before. -/
theorem stuck_save {spare : List (Fin size)} (h : w.shard.Placed exact spare) (p q : PageId) :
    (w.save p).Stuck q ↔ q ≠ p ∧ w.Stuck q := by
  rw [Stuck, Stuck, faults_save, unsaved?_save h]
  by_cases hqp : q = p
  · simp [hqp]
  · simp [hqp]

/-- A page that is not stuck is flushed by saving it. -/
theorem tryFlush_of_not_stuck (h : ¬ w.Stuck p) :
    ∃ resident, (w.tryFlush noWriter p).result = .ok (.settled resident) ∧
      (w.tryFlush noWriter p).state = w.save p := by
  rw [tryFlush]
  cases hp : w.shard.table[p]? with
  | none =>
    have hsaved : w.shard.unsaved? p = none := by rw [Shard.unsaved?, hp]; rfl
    exact ⟨false, rfl, (save_of_none hsaved).symm⟩
  | some f =>
    dsimp only
    rcases write_of_not_stuck hp h with ⟨hclean, hsave⟩ | ⟨hdirty, hwritten, hsave⟩
    · rw [if_neg (Bool.eq_false_iff.mp hclean), hsave]
      exact ⟨true, rfl, rfl⟩
    · rw [if_pos hdirty, writeBack, hwritten]
      exact ⟨true, rfl, hsave.symm⟩

/-- A page that is stuck is refused, and nothing changes. -/
theorem tryFlush_of_stuck (h : w.Stuck p) :
    (w.tryFlush noWriter p).result = .error (.storage (.io .writeFault)) ∧
      (w.tryFlush noWriter p).state = w := by
  obtain ⟨f, hf⟩ := Option.ne_none_iff_exists'.mp h.1
  have hp := (Shard.unsaved?_eq_some_iff.mp hf).1
  obtain ⟨hdirty, hrefused⟩ := write_of_stuck hp h
  rw [tryFlush, hp]
  dsimp only
  rw [if_pos hdirty, writeBack, hrefused]
  exact ⟨rfl, rfl⟩

/-- A sweep saves the pages it comes to, up to the first that is stuck. -/
theorem sweep_cases {spare : List (Fin size)} (h : w.shard.Placed exact spare)
    (hpages : pages.Nodup) : ∃ saved rest, pages = saved ++ rest ∧ (∀ p ∈ saved, ¬ w.Stuck p) ∧
      (sweep noWriter pages w).state = saveAll saved w ∧
      (rest = [] ∧ (sweep noWriter pages w).result = .ok [] ∨
        (∃ p, p ∈ rest ∧ w.Stuck p) ∧
          (sweep noWriter pages w).result = .error (.storage (.io .writeFault))) := by
  induction pages generalizing w with
  | nil => exact ⟨[], [], rfl, List.forall_mem_nil _, rfl, .inl ⟨rfl, rfl⟩⟩
  | cons p pages ih =>
    obtain ⟨hp, hpages⟩ := List.nodup_cons.mp hpages
    by_cases hstuck : w.Stuck p
    · obtain ⟨hresult, hstate⟩ := tryFlush_of_stuck hstuck
      rw [sweep, Outcome.andThen_of_error hresult]
      exact ⟨[], p :: pages, rfl, List.forall_mem_nil _, hstate,
        .inr ⟨⟨p, List.mem_cons_self, hstuck⟩, rfl⟩⟩
    · obtain ⟨resident, hresult, hstate⟩ := tryFlush_of_not_stuck hstuck
      rw [sweep, Outcome.andThen_of_ok hresult, hstate]
      obtain ⟨saved, rest, hsplit, hfree, hsaved, hend⟩ :=
        ih (h.sameButFlags (sameButFlags_save _ p)) hpages
      -- saving `p` does not change whether a later page is stuck
      have hkept {q : PageId} (hq : q ∈ pages) : (w.save p).Stuck q ↔ w.Stuck q := by
        rw [stuck_save h]
        exact and_iff_right fun hqp => hp (hqp ▸ hq)
      refine ⟨p :: saved, rest, congrArg _ hsplit, ?_, hsaved, ?_⟩
      · rintro q (_ | ⟨_, hq⟩)
        · exact hstuck
        · rw [← hkept (hsplit ▸ List.mem_append_left rest hq)]
          exact hfree q hq
      · rcases hend with hdone | ⟨⟨q, hq, hstuck⟩, hresult⟩
        · exact .inl hdone
        · refine .inr ⟨⟨q, hq, ?_⟩, hresult⟩
          rwa [← hkept (hsplit ▸ List.mem_append_right saved hq)]

/-! ## What saving a list of pages does -/

/-- What the disk refuses does not change by saving a list of pages. -/
theorem faults_saveAll (pages : List PageId) (w : Backed size Disk) :
    (saveAll pages w).disk.faults = w.disk.faults := by
  induction pages generalizing w with
  | nil => rfl
  | cons p pages ih => exact (ih (w.save p)).trans (faults_save w p)

/-- Saving a list of pages changes no record but dirty flags. -/
theorem sameButFlags_saveAll (pages : List PageId) (w : Backed size Disk) :
    w.shard.SameButFlags (saveAll pages w).shard := by
  induction pages generalizing w with
  | nil => exact .refl w.shard
  | cons p pages ih => exact (sameButFlags_save w p).trans (ih (w.save p))

/-- Every page of the list is dirty no more, and the others are what they were. -/
theorem unsaved?_saveAll {spare : List (Fin size)} (h : w.shard.Placed exact spare)
    (pages : List PageId) (q : PageId) :
    (saveAll pages w).shard.unsaved? q = if q ∈ pages then none else w.shard.unsaved? q := by
  induction pages generalizing w with
  | nil => rfl
  | cons p pages ih =>
    show (saveAll pages (w.save p)).shard.unsaved? q = _
    rw [ih (h.sameButFlags (sameButFlags_save _ p)), unsaved?_save h]
    by_cases hqp : q = p
    · simp only [hqp, List.mem_cons_self, if_true, ite_self]
    · rw [if_neg hqp]
      simp only [List.mem_cons, hqp, false_or]

/-- In what order the pages are saved does not matter. -/
theorem saveAll_perm {pages' : List PageId} {spare : List (Fin size)}
    (h : w.shard.Placed exact spare) (hperm : pages.Perm pages') :
    saveAll pages w = saveAll pages' w := by
  induction hperm generalizing w with
  | nil => rfl
  | cons p _ ih => exact ih (h.sameButFlags (sameButFlags_save _ p))
  -- only a swap of neighbours has to be shown
  | swap p q pages => exact congrArg (saveAll pages) (save_comm h q p)
  | trans _ _ ih ih' => exact (ih h).trans (ih' h)

/-- The dirty ones of a list of pages, with their bytes. -/
def dirtyPages (w : Backed size Disk) (pages : List PageId) : List (PageId × Page) :=
  pages.filterMap fun p => (w.shard.unsaved? p).map fun f => (p, (w.shard.frame f).bytes)

/-- It is the dirty pages of the list that are told, each with the bytes of its frame. -/
theorem mem_dirtyPages_iff {bytes : Page} :
    (p, bytes) ∈ w.dirtyPages pages ↔ p ∈ pages ∧ w.Unsaved p bytes := by
  rw [dirtyPages, List.mem_filterMap]
  constructor
  · rintro ⟨q, hq, hx⟩
    obtain ⟨f, hf, heq⟩ := Option.map_eq_some_iff.mp hx
    obtain ⟨rfl, rfl⟩ := Prod.mk.inj heq
    exact ⟨hq, f, hf, rfl⟩
  · rintro ⟨hp, f, hf, rfl⟩
    exact ⟨p, hp, by rw [hf]; rfl⟩

/-- The pages are told in the order of the list. -/
theorem map_fst_dirtyPages (w : Backed size Disk) (pages : List PageId) :
    (w.dirtyPages pages).map Prod.fst = pages.filter fun p => (w.shard.unsaved? p).isSome := by
  induction pages with
  | nil => rfl
  | cons p pages ih =>
    rw [dirtyPages, List.filterMap_cons, List.filter_cons]
    cases w.shard.unsaved? p with
    | none => exact ih
    | some f => exact congrArg (p :: ·) ih

/-- It is the dirty pages of the list that are written, in its order. -/
theorem disk_saveAll {spare : List (Fin size)} (h : w.shard.Placed exact spare)
    (hpages : pages.Nodup) : (saveAll pages w).disk =
      { w.disk with medium := w.disk.medium.writeAll (w.dirtyPages pages) } := by
  induction pages generalizing w with
  | nil => rfl
  | cons p pages ih =>
    obtain ⟨hp, hpages⟩ := List.nodup_cons.mp hpages
    -- a page that was saved is not on the list again, so the others are as dirty as before
    have hsame : (w.save p).dirtyPages pages = w.dirtyPages pages := by
      apply List.filterMap_congr
      intro q hq
      have hqp : q ≠ p := fun hqp => hp (hqp ▸ hq)
      rw [unsaved?_save h, if_neg hqp]
      simp only [(sameButFlags_save w p).bytes]
    show (saveAll pages (w.save p)).disk = _
    rw [ih (h.sameButFlags (sameButFlags_save _ p)) hpages, hsame, dirtyPages, dirtyPages,
      List.filterMap_cons]
    cases hunsaved : w.shard.unsaved? p with
    | none =>
      rw [save_of_none hunsaved]
      rfl
    | some f =>
      rw [save_of_some hunsaved]
      rfl

/-- Saving a list without repetitions writes dirty pages only, each at most once. -/
theorem written_saveAll {spare : List (Fin size)} (h : w.shard.Placed exact spare)
    (hpages : pages.Nodup) : w.disk.Written w.Unsaved (saveAll pages w).disk := by
  refine ⟨w.dirtyPages pages, ?_, fun x hx => (mem_dirtyPages_iff.mp hx).2, disk_saveAll h hpages⟩
  rw [map_fst_dirtyPages]
  exact hpages.filter _

/-- A dirty page of the list is stored then. -/
theorem stored_saveAll {spare : List (Fin size)} (h : w.shard.Placed exact spare)
    (hpages : pages.Nodup) (hp : p ∈ pages) {bytes : Page} (hunsaved : w.Unsaved p bytes) :
    (saveAll pages w).Stored p bytes := by
  have hsame := sameButFlags_saveAll pages w
  have hclean := unsaved?_saveAll h pages p
  have hcontents : (saveAll pages w).disk.contents p = bytes := by
    rw [disk_saveAll h hpages]
    apply Medium.contents_writeAll w.disk.medium _ (mem_dirtyPages_iff.mpr ⟨hp, hunsaved⟩)
    rw [map_fst_dirtyPages]
    exact hpages.filter _
  obtain ⟨f, hf, rfl⟩ := hunsaved
  have hplace : (saveAll pages w).shard.table[p]? = some f := by
    rw [hsame.table]
    exact (Shard.unsaved?_eq_some_iff.mp hf).1
  refine ⟨f, hplace, ?_, hsame.bytes f, hcontents⟩
  rw [if_pos hp, Shard.unsaved?, hplace, Option.filter_eq_none_iff] at hclean
  exact Bool.eq_false_iff.mpr (hclean f rfl)

/-- A dirty page that is not on the list is as it was, and so is what the disk has of it. -/
theorem unsaved_saveAll {spare : List (Fin size)} (h : w.shard.Placed exact spare)
    (hpages : pages.Nodup) (hp : p ∉ pages) {bytes : Page} (hunsaved : w.Unsaved p bytes) :
    (saveAll pages w).Unsaved p bytes ∧ (saveAll pages w).disk.contents p = w.disk.contents p := by
  constructor
  · obtain ⟨f, hf, rfl⟩ := hunsaved
    refine ⟨f, ?_, (sameButFlags_saveAll pages w).bytes f⟩
    rw [unsaved?_saveAll h, if_neg hp, hf]
  · rw [disk_saveAll h hpages]
    apply Medium.contents_writeAll_of_not_mem
    rw [map_fst_dirtyPages, List.mem_filter]
    exact fun hmem => hp hmem.1

/-! ## The flush -/

/-- Every page that was dirty is stored, and nothing else has happened to the shard. -/
structure Flushed (w w' : Backed size Disk) : Prop where
  same : w.shard.SameButFlags w'.shard
  stored : ∀ {p bytes}, w.Unsaved p bytes → w'.Stored p bytes

/-- Each page that was dirty is stored, or is as it was; one is left that the disk refuses to write,
and nothing else has happened to the shard. -/
structure PartlyFlushed (w w' : Backed size Disk) : Prop where
  same : w.shard.SameButFlags w'.shard
  stored_or : ∀ {p bytes}, w.Unsaved p bytes →
    w'.Stored p bytes ∨ w'.Unsaved p bytes ∧ w'.disk.contents p = w.disk.contents p
  stuck : ∃ p, w'.Stuck p

/-- A dirty page is resident, so a flush of everything comes to it. -/
theorem mem_residents_of_unsaved? (h : w.shard.unsaved? p ≠ none) : p ∈ w.shard.residents := by
  obtain ⟨f, hf⟩ := Option.ne_none_iff_exists'.mp h
  rw [Shard.residents, Std.ExtTreeMap.mem_keys, Std.ExtTreeMap.mem_iff_isSome_getElem?,
    (Shard.unsaved?_eq_some_iff.mp hf).1]
  rfl

/-- A flush of all pages succeeds if no page is stuck, and it fails if one is. -/
theorem flushAll_faulty (h : w.shard.Placed exact w.shard.free) (visit : Visit) :
    w.disk.Written w.Unsaved (w.flushAll visit).state.disk ∧
      ((∀ p, ¬ w.Stuck p) ∧ (w.flushAll visit).result = .ok () ∧
          w.Flushed (w.flushAll visit).state ∧
          (w.flushAll visit).state = saveAll w.shard.residents w ∨
        (∃ p, w.Stuck p) ∧ (w.flushAll visit).result = .error (.storage (.io .writeFault)) ∧
          w.PartlyFlushed (w.flushAll visit).state) := by
  have hperm : (visit.arrange w.shard.residents).Perm w.shard.residents := visit.perm _
  have hnodup : (visit.arrange w.shard.residents).Nodup :=
    hperm.nodup_iff.mpr Std.ExtTreeMap.nodup_keys
  obtain ⟨saved, rest, hsplit, hfree, hstate, hend⟩ := sweep_cases h hnodup
  have hsaved : saved.Nodup := (List.nodup_append.mp (hsplit ▸ hnodup)).1
  have hstate : (w.flushAll visit).state = saveAll saved w := hstate
  rw [hstate]
  refine ⟨written_saveAll h hsaved, ?_⟩
  rcases hend with ⟨rfl, hresult⟩ | ⟨⟨p, -, hstuck⟩, hresult⟩
  · rw [List.append_nil] at hsplit
    -- the sweep went through, so it came to every page that was dirty
    have hall {p : PageId} (hp : w.shard.unsaved? p ≠ none) : p ∈ saved :=
      hsplit ▸ hperm.mem_iff.mpr (mem_residents_of_unsaved? hp)
    refine .inl ⟨fun p hstuck => hfree p (hall hstuck.1) hstuck, ?_, ⟨sameButFlags_saveAll .., ?_⟩,
      saveAll_perm h (hsplit ▸ hperm)⟩
    · rw [flushAll, sweepAll, Outcome.result_map, hresult]
      rfl
    · intro p bytes hp
      have hmem : p ∈ saved := by
        obtain ⟨f, hf, -⟩ := hp
        exact hall (by simp [hf])
      exact stored_saveAll h hsaved hmem hp
  · refine .inr ⟨⟨p, hstuck⟩, ?_, ⟨sameButFlags_saveAll .., ?_, ⟨p, ?_⟩⟩⟩
    · rw [flushAll, sweepAll, Outcome.result_map, hresult]
      rfl
    · intro p bytes hp
      -- the sweep came to it before it ended, or it did not
      by_cases hmem : p ∈ saved
      · exact .inl (stored_saveAll h hsaved hmem hp)
      · exact .inr (unsaved_saveAll h hsaved hmem hp)
    · refine ⟨?_, (faults_saveAll saved w).symm ▸ hstuck.2⟩
      rw [unsaved?_saveAll h, if_neg fun hmem => hfree p hmem hstuck]
      exact hstuck.1

end Backed

end PageCache
