import PageCache.Proofs.Shard.Fate
import PageCache.Proofs.Store.Audited

/-!
# What happens to pages that nobody asks for

When a frame is sought, or pages are flushed, the shard acts on pages that were not named: dirty
ones are written back, and one may go. `Shard.record?` is what matters of a page, its pins and its
flag, and `Idles` lists what may become of it. `Backed.WritesBack` says that no more than this has
happened to any page, and that every call of the store on the way was to write a dirty page, with
the bytes that are in its frame. The records have to agree, with any recency list
(`Shard.Mapped`).
-/

namespace PageCache

variable {size : Nat}

namespace Shard

/-- How many pins page `p` has and whether it is dirty, if it is resident. -/
def record? (sh : Shard size) (p : PageId) : Option (Nat × Bool) :=
  sh.table[p]?.map fun f => ((sh.frame f).pins, (sh.frame f).dirty)

/-- Page `p` is dirty, and its frame has these bytes. -/
def Unsaved (sh : Shard size) (p : PageId) (bytes : Page) : Prop :=
  ∃ f, sh.table[p]? = some f ∧ (sh.frame f).dirty = true ∧ (sh.frame f).bytes = bytes

variable {sh sh' : Shard size} {spare : List (Fin size)} {p q : PageId} {f : Fin size}

theorem record?_of_table (hp : sh.table[p]? = some f) :
    sh.record? p = some ((sh.frame f).pins, (sh.frame f).dirty) := by
  rw [record?, hp]
  rfl

theorem record?_eq_none_iff : sh.record? p = none ↔ sh.table[p]? = none :=
  Option.map_eq_none_iff

theorem pinCount?_eq (sh : Shard size) (p : PageId) :
    sh.pinCount? p = (sh.record? p).map Prod.fst := by
  rw [record?, Option.map_map]
  rfl

theorem dirty?_eq (sh : Shard size) (p : PageId) :
    sh.dirty? p = (sh.record? p).map Prod.snd := by
  rw [record?, Option.map_map]
  rfl

/-- Free lists, recency lists and counters are not concerned. -/
theorem record?_congr (htable : sh'.table = sh.table) (hframes : sh'.frames = sh.frames)
    (p : PageId) : sh'.record? p = sh.record? p := by
  simp only [record?, Shard.frame, htable, hframes]

theorem Unsaved.record? {bytes : Page} (h : sh.Unsaved p bytes) :
    ∃ n, sh.record? p = some (n, true) := by
  obtain ⟨f, hp, hdirty, -⟩ := h
  exact ⟨_, by rw [record?_of_table hp, hdirty]⟩

/-- A frame that is clean now has nothing unsaved. -/
theorem unsaved_of_setFrame (sh : Shard size) {frame : Frame} {bytes : Page}
    (hclean : frame.dirty = false) (hq : (sh.setFrame f frame).Unsaved q bytes) :
    sh.Unsaved q bytes := by
  obtain ⟨g, hq, hframe⟩ := hq
  rw [frame_setFrame] at hframe
  split at hframe
  · exact absurd (hclean.symm.trans hframe.1) (by simp)
  · exact ⟨g, hq, hframe⟩

/-- No page becomes unsaved because another one goes. -/
theorem unsaved_of_unmap (sh : Shard size) {bytes : Page} (hq : (sh.unmap p f).Unsaved q bytes) :
    sh.Unsaved q bytes := by
  obtain ⟨g, hq, hframe⟩ := hq
  rw [frame_unmap] at hframe
  have hq : (sh.table.erase p)[q]? = some g := hq
  rw [getElem?_erase] at hq
  split at hq
  · exact absurd hq (by simp)
  split at hframe
  · exact absurd hframe.1 (by simp [Frame.released])
  · exact ⟨g, hq, hframe⟩

namespace Placed

/-- What is put in the frame of a page is the record of that page alone. -/
theorem record?_setFrame (h : sh.Placed exact spare) (hp : sh.table[p]? = some f) (frame : Frame)
    (q : PageId) :
    (sh.setFrame f frame).record? q =
      if p = q then some (frame.pins, frame.dirty) else sh.record? q := by
  -- another page has another frame, for the table and the frames agree
  by_cases hpq : p = q
  · subst hpq
    have hp' : (sh.setFrame f frame).table[p]? = some f := hp
    rw [if_pos rfl, record?_of_table hp', frame_setFrame, if_pos rfl]
  · rw [if_neg hpq]
    show sh.table[q]?.map _ = sh.table[q]?.map _
    refine Option.map_congr fun g hg => ?_
    have hfg : f ≠ g := by
      rintro rfl
      exact hpq (h.injective hp hg)
    rw [frame_setFrame, if_neg hfg]

/-- A frame without a page is nobody's record. -/
theorem record?_setFrame_vacant (h : sh.Placed exact spare) (hf : (sh.frame f).holds = none)
    (frame : Frame) (q : PageId) : (sh.setFrame f frame).record? q = sh.record? q := by
  show sh.table[q]?.map _ = sh.table[q]?.map _
  refine Option.map_congr fun g hg => ?_
  have hfg : f ≠ g := by
    rintro rfl
    exact absurd (hf.symm.trans (h.holds hg)) (by simp)
  rw [frame_setFrame, if_neg hfg]

/-- A page that leaves the table has no record, whatever is put in its frame, and the other pages
have theirs. -/
theorem record?_vacate (h : sh.Placed exact spare) (hp : sh.table[p]? = some f) (frame : Frame)
    (q : PageId) :
    ({ sh with table := sh.table.erase p }.setFrame f frame : Shard size).record? q =
      if p = q then none else sh.record? q := by
  show (sh.table.erase p)[q]?.map _ = _
  rw [getElem?_erase]
  split
  · rfl
  · next hpq =>
    refine Option.map_congr fun g hg => ?_
    have hfg : f ≠ g := by
      rintro rfl
      exact hpq (h.injective hp hg)
    rw [frame_setFrame, if_neg hfg]
    rfl

/-- A page that is evicted or deleted has no record, and the other pages have theirs. -/
theorem record?_unmap (h : sh.Placed exact spare) (hp : sh.table[p]? = some f) (q : PageId) :
    (sh.unmap p f).record? q = if p = q then none else sh.record? q :=
  h.record?_vacate hp (sh.frame f).released q

/-- A page that comes in has one pin and is clean, and the other pages have the records they had. -/
theorem record?_install (h : sh.Placed exact (f :: spare)) (p : PageId) (bytes : Page)
    (q : PageId) :
    (sh.install p f bytes).record? q = if p = q then some (1, false) else sh.record? q := by
  show (sh.table.insert p f)[q]?.map _ = _
  rw [getElem?_insert]
  split
  · show some (((sh.install p f bytes).frame f).pins, ((sh.install p f bytes).frame f).dirty) = _
    rw [frame_install, if_pos rfl]
    rfl
  · refine Option.map_congr fun g hg => ?_
    have hfg : f ≠ g := by
      rintro rfl
      exact h.not_mem_spare (h.holds hg) List.mem_cons_self
    rw [frame_install, if_neg hfg]

end Placed

end Shard

/-! ## Pages that nobody asks for -/

/-- What may become of the record of a page for which nobody asks, and which is written so often:
it stays as it is, or is written and clean, or goes, clean or after it was written. -/
inductive Idles : Option (Nat × Bool) → Nat → Option (Nat × Bool) → Prop
  | stays (r : Option (Nat × Bool)) : Idles r 0 r
  | cleaned (pins : Nat) : Idles (some (pins, true)) 1 (some (pins, false))
  | goes (pins : Nat) (dirty : Bool) : Idles (some (pins, dirty)) dirty.toNat none

/-- A page that is not resident is not written, and does not come in by itself. -/
theorem Idles.of_none {r : Option (Nat × Bool)} {k : Nat} (h : Idles none k r) :
    k = 0 ∧ r = none := by
  cases h with
  | stays => exact ⟨rfl, rfl⟩

/-- What idle pages come to, one time after the other, they may come to at once. -/
theorem Idles.trans {r r' r'' : Option (Nat × Bool)} {k k' : Nat} (h : Idles r k r')
    (h' : Idles r' k' r'') : Idles r (k + k') r'' := by
  -- a page that is gone stays gone, and one that is clean is not written again
  cases h with
  | stays => rwa [Nat.zero_add]
  | cleaned pins =>
    cases h' with
    | stays => exact .cleaned pins
    | goes => exact .goes pins true
  | goes pins dirty =>
    cases h' with
    | stays => exact .goes pins dirty

open Audited (Adds)

namespace Backed

variable {δ : Type} {w w' w'' : Backed size (Audited δ)} {calls calls' : List Attempt}
variable {p : PageId} {f : Fin size}

/-- Between `w` and `w'` the store was asked `calls`, all of them to write dirty pages back, and no
page was asked for. -/
structure WritesBack (calls : List Attempt) (w w' : Backed size (Audited δ)) : Prop where
  adds : Adds calls w.disk w'.disk
  reads : Attempt.reads calls = []
  unsaved : ∀ {p : PageId} {bytes : Page}, (p, bytes) ∈ Attempt.writes calls →
    w.shard.Unsaved p bytes
  once : ((Attempt.writes calls).map Prod.fst).Nodup
  idles : ∀ p, Idles (w.shard.record? p) (Attempt.saved p calls) (w'.shard.record? p)
  /-- No page is dirty that was not. -/
  fewer : ∀ {p : PageId} {bytes : Page}, w'.shard.Unsaved p bytes → w.shard.Unsaved p bytes

namespace WritesBack

/-- The store is not asked, and no page is concerned. -/
theorem still (hdisk : w'.disk = w.disk) (htable : w'.shard.table = w.shard.table)
    (hframes : w'.shard.frames = w.shard.frames) : WritesBack [] w w' where
  adds := hdisk ▸ .refl _
  reads := rfl
  unsaved h := absurd h List.not_mem_nil
  once := List.nodup_nil
  idles p := Shard.record?_congr htable hframes p ▸ .stays _
  fewer h := by
    obtain ⟨f, hp, hframe⟩ := h
    rw [htable] at hp
    simp only [Shard.frame, hframes] at hframe
    exact ⟨f, hp, hframe⟩

/-- One page is written, or was to be. -/
theorem one {succeeded : Bool} {bytes : Page} (hp : w.shard.Unsaved p bytes)
    (hadds : Adds [⟨p, .write bytes, succeeded⟩] w.disk w'.disk)
    (hself : Idles (w.shard.record? p) succeeded.toNat (w'.shard.record? p))
    (hother : ∀ q, p ≠ q → w'.shard.record? q = w.shard.record? q)
    (hfewer : ∀ {q : PageId} {bytes : Page}, w'.shard.Unsaved q bytes → w.shard.Unsaved q bytes) :
    WritesBack [⟨p, .write bytes, succeeded⟩] w w' where
  adds := hadds
  reads := rfl
  unsaved h := by
    obtain ⟨rfl, rfl⟩ := Prod.mk.inj (List.mem_singleton.mp h)
    exact hp
  once := List.nodup_singleton _
  idles q := by
    rw [Attempt.saved_write]
    split
    · next hpq => exact hpq ▸ hself
    · next hpq => exact hother q hpq ▸ .stays _
  fewer := hfewer

/-- One after the other, if what was written first is clean now. -/
theorem trans (h : WritesBack calls w w') (h' : WritesBack calls' w' w'')
    (hclean : ∀ {p : PageId} {bytes bytes' : Page}, (p, bytes) ∈ Attempt.writes calls →
      ¬ w'.shard.Unsaved p bytes') : WritesBack (calls ++ calls') w w'' where
  adds := h.adds.trans h'.adds
  reads := by rw [Attempt.reads_append, h.reads, h'.reads, List.append_nil]
  unsaved hmem := by
    rw [Attempt.writes_append] at hmem
    rcases List.mem_append.mp hmem with hmem | hmem
    · exact h.unsaved hmem
    · exact h.fewer (h'.unsaved hmem)
  once := by
    rw [Attempt.writes_append, List.map_append, List.nodup_append]
    refine ⟨h.once, h'.once, ?_⟩
    rintro p hp q hq rfl
    obtain ⟨⟨p, bytes⟩, hx, rfl⟩ := List.mem_map.mp hp
    obtain ⟨⟨q, bytes'⟩, hy, hqp⟩ := List.mem_map.mp hq
    obtain rfl : q = p := hqp
    exact hclean hx (h'.unsaved hy)
  idles p := by
    rw [Attempt.saved_append]
    exact (h.idles p).trans (h'.idles p)
  fewer hp := h.fewer (h'.fewer hp)

end WritesBack

end Backed

variable {δ : Type} [PageStore δ] {w w' : Backed size (Audited δ)}

open Backed (WritesBack)

/-! ## Searches -/

/-- Nobody asks for a page when a frame is sought. -/
theorem Search.writesBack {r : Except Failure (Fin size)} (h : w.shard.Mapped w.shard.free)
    (hs : Search w r w') : ∃ calls, WritesBack calls w w' := by
  have hrecency (recency : Recency) :
      ({ w.shard with recency } : Shard size).Mapped w.shard.free := h.withRecords ..
  -- the list that the victim was taken from is nobody's record; what counts is whether the victim
  -- held a page, and whether it was dirty
  cases hs with
  | free | full | stray => exact ⟨[], .still rfl rfl rfl⟩
  | @vacant f recency _ _ hholds =>
    refine ⟨[], .refl _, rfl, fun h => absurd h List.not_mem_nil, List.nodup_nil, fun p => ?_,
      Shard.unsaved_of_setFrame { w.shard with recency } rfl⟩
    have hsame := (hrecency recency).record?_setFrame_vacant hholds (w.shard.frame f).released p
    exact hsame ▸ .stays _
  | @clean f recency p _ _ hholds hclean =>
    have hp : w.shard.table[p]? = some f := h.holds_iff.mp hholds
    refine ⟨[], .refl _, rfl, fun h => absurd h List.not_mem_nil, List.nodup_nil, fun q => ?_,
      Shard.unsaved_of_unmap { w.shard with recency }⟩
    show Idles _ 0 (({ w.shard with recency } : Shard size).unmap p f |>.record? q)
    rw [(hrecency recency).record?_unmap hp]
    split
    · next hpq =>
      subst hpq
      rw [Shard.record?_of_table hp, hclean]
      exact .goes _ false
    · exact .stays _
  | @written f recency p disk _ _ hholds hdirty hwrite =>
    have hp : w.shard.table[p]? = some f := h.holds_iff.mp hholds
    have hunmap := (hrecency recency).record?_unmap hp
    refine ⟨_, .one ⟨f, hp, hdirty, rfl⟩ (Audited.adds_of_write hwrite) ?_ (fun q hpq => ?_)
      (Shard.unsaved_of_unmap { w.shard with recency })⟩
    · rw [hunmap, if_pos rfl, Shard.record?_of_table hp, hdirty]
      exact .goes _ true
    · exact (hunmap q).trans (if_neg hpq)
  | @unwritten f recency p disk cause _ _ hholds hdirty hwrite =>
    have hp : w.shard.table[p]? = some f := h.holds_iff.mp hholds
    -- the write failed, and the page is still in its frame
    exact ⟨_, .one ⟨f, hp, hdirty, rfl⟩ (Audited.adds_of_write hwrite) (.stays _)
      (fun _ _ => rfl) id⟩

/-! ## Looks and sweeps -/

/-- Nobody asks for a page when one is looked at, and a page that was written is clean. -/
theorem Looked.writesBack {latched : Fin size → Bool} {p : PageId}
    {r : Except Failure (Look size)} (h : w.shard.Mapped w.shard.free)
    (hl : Looked latched w p r w') : ∃ calls, WritesBack calls w w' ∧
      ∀ look, r = .ok look → ∀ {q : PageId} {bytes bytes' : Page},
        (q, bytes) ∈ Attempt.writes calls → ¬ w'.shard.Unsaved q bytes' := by
  have hnone {P : Prop} {q : PageId} {bytes : Page} (hq : (q, bytes) ∈ Attempt.writes []) : P :=
    absurd hq List.not_mem_nil
  cases hl with
  | absent | clean | busy => exact ⟨[], .still rfl rfl rfl, fun _ _ => hnone⟩
  | @written f disk hp hdirty _ hwrite =>
    have hset := h.record?_setFrame hp { w.shard.frame f with dirty := false }
    have hself : (Backed.markClean { w with disk } f).shard.record? p =
        some ((w.shard.frame f).pins, false) := (hset p).trans (if_pos rfl)
    refine ⟨_, .one ⟨f, hp, hdirty, rfl⟩ (Audited.adds_of_write hwrite) ?_ (fun q hpq => ?_)
      (w.shard.unsaved_of_setFrame rfl), ?_⟩
    · rw [hself, Shard.record?_of_table hp, hdirty]
      exact .cleaned _
    · exact (hset q).trans (if_neg hpq)
    · rintro _ - q bytes bytes' hq hunsaved
      obtain ⟨rfl, -⟩ := Prod.mk.inj (List.mem_singleton.mp hq)
      obtain ⟨n, hrecord⟩ := hunsaved.record?
      rw [hself] at hrecord
      exact absurd hrecord (by simp)
  | @unwritten f disk cause hp hdirty _ hwrite =>
    refine ⟨_, .one ⟨f, hp, hdirty, rfl⟩ (Audited.adds_of_write hwrite) (.stays _)
      (fun _ _ => rfl) id, ?_⟩
    rintro _ hok
    exact absurd hok (by simp)

namespace Backed

/-- A flush of one page, whoever has latches, writes no other page. -/
theorem writesBack_tryFlush (h : w.shard.Mapped w.shard.free) (latched : Fin size → Bool)
    (p : PageId) : ∃ calls, WritesBack calls w (w.tryFlush latched p).state := by
  obtain ⟨calls, hwrites, -⟩ := (w.looked latched p).writesBack h
  exact ⟨calls, hwrites⟩

/-- Each page is written once at most, since it is clean then; and what cannot be written ends the
sweep. -/
theorem writesBack_sweep (h : w.shard.Mapped w.shard.free) (latched : Fin size → Bool)
    (pages : List PageId) : ∃ calls, WritesBack calls w (sweep latched pages w).state := by
  induction pages generalizing w with
  | nil => exact ⟨[], .still rfl rfl rfl⟩
  | cons p pages ih =>
    obtain ⟨calls, hlook, hclean⟩ := (w.looked latched p).writesBack h
    rw [sweep]
    cases hresult : (w.tryFlush latched p).result with
    | error e =>
      rw [Outcome.andThen_of_error hresult]
      exact ⟨calls, hlook⟩
    | ok look =>
      obtain ⟨calls', hrest⟩ := ih (placed_tryFlush h latched p)
      rw [Outcome.andThen_of_ok hresult]
      refine ⟨calls ++ calls', ?_⟩
      have hboth := hlook.trans hrest (hclean look hresult)
      cases look <;> exact hboth

end Backed

end PageCache
