import PageCache.Proofs.Client.Kept

/-!
# The account of a page

A pool shows the right bytes because five things go together for every page: where it lies, what the
store has of it, the pins and the dirty flag of its frame, the guards that are held of it, and what
the answers have told of it. An `Account` is all that concerns one page, and `Account.Sound` says
how it goes together. The heart of it is `Account.Sound.clean`: if a page is not dirty, and nobody
holds it who has written to it, then the store has what the frame has.

A move changes the account of one page. There is a lemma for each: `Account.Sound.evict`,
`Account.Sound.save`, `Account.Sound.load`, `Account.Sound.create`, `Account.Sound.pin`,
`Account.Sound.unpin`, `Account.Sound.edit`, `Account.Sound.discard`.
-/

namespace PageCache

/-- How a guard holds its page. -/
structure Grip (size : Nat) where
  frame : Fin size
  /-- The page was written to through the guard. -/
  modified : Bool

structure Account (size : Nat) where
  place : Option (Fin size × Frame)
  stored : Page
  grips : List (Grip size)
  /-- The answers have told that the page was created. -/
  created : Prop
  /-- They have told that it was deleted. -/
  deleted : Prop
  /-- What the page has to show. -/
  bytes : Page

namespace Account

variable {size : Nat} {a : Account size} {f : Fin size} {frame : Frame} {p : PageId}

/-- What the page shows. -/
def shows (a : Account size) : Page :=
  match a.place with
  | some (_, frame) => frame.bytes
  | none => a.stored

theorem shows_of_place (h : a.place = some (f, frame)) : a.shows = frame.bytes := by
  rw [shows, h]

theorem shows_of_place_none (h : a.place = none) : a.shows = a.stored := by
  rw [shows, h]

structure Sound (a : Account size) : Prop where
  resident : ∀ {f : Fin size} {frame : Frame}, a.place = some (f, frame) → a.created
  pristine : ¬ a.created → a.stored = .zero
  pins : ∀ {f : Fin size} {frame : Frame}, a.place = some (f, frame) → frame.pins = a.grips.length
  placed : ∀ g ∈ a.grips, ∃ frame, a.place = some (g.frame, frame)
  /-- What the store does not have, the dirty flag or a guard knows of. -/
  clean : ∀ {f : Fin size} {frame : Frame}, a.place = some (f, frame) → frame.dirty = false →
    (∀ g ∈ a.grips, g.modified = false) → frame.bytes = a.stored
  shown : a.created → ¬ a.deleted → a.shows = a.bytes

namespace Sound

/-- Nobody holds a page that has no pin. -/
theorem grips_eq_nil (h : a.Sound) (hplace : a.place = some (f, frame)) (hpins : frame.pins = 0) :
    a.grips = [] :=
  List.eq_nil_of_length_eq_zero ((h.pins hplace).symm.trans hpins)

/-- Nobody holds a page that is not resident. -/
theorem grips_eq_nil_of_place_none (h : a.Sound) (hplace : a.place = none) : a.grips = [] := by
  rw [List.eq_nil_iff_forall_not_mem]
  intro g hg
  obtain ⟨frame, hframe⟩ := h.placed g hg
  exact absurd (hplace.symm.trans hframe) (by simp)

/-- A guard names the frame in which the page lies. -/
theorem frame_eq (h : a.Sound) (hplace : a.place = some (f, frame)) {g : Grip size}
    (hg : g ∈ a.grips) : g.frame = f := by
  obtain ⟨frame', hframe⟩ := h.placed g hg
  obtain ⟨rfl, -⟩ := Prod.mk.inj (Option.some.inj (hplace.symm.trans hframe))
  rfl

/-- A page that is not resident shows what the store has of it. -/
theorem of_place_none (hplace : a.place = none) (hgrips : a.grips = [])
    (hpristine : ¬ a.created → a.stored = .zero)
    (hstored : a.created → ¬ a.deleted → a.stored = a.bytes) : a.Sound where
  resident hp := absurd (hplace.symm.trans hp) (by simp)
  pristine := hpristine
  pins hp := absurd (hplace.symm.trans hp) (by simp)
  placed g hg := absurd (hgrips ▸ hg) List.not_mem_nil
  clean hp := absurd (hplace.symm.trans hp) (by simp)
  shown hcreated hdeleted := (shows_of_place_none hplace).trans (hstored hcreated hdeleted)

/-- If nobody holds the page and it is not dirty, the store has what it has to show. -/
theorem stored_eq (h : a.Sound) (hgrips : a.grips = [])
    (hclean : ∀ (f : Fin size) (frame : Frame), a.place = some (f, frame) → frame.dirty = false)
    (hcreated : a.created) (hdeleted : ¬ a.deleted) : a.stored = a.bytes := by
  have hshown := h.shown hcreated hdeleted
  cases hplace : a.place with
  | none => exact (shows_of_place_none hplace).symm.trans hshown
  | some place =>
    obtain ⟨f, frame⟩ := place
    have hbytes : frame.bytes = a.stored :=
      h.clean hplace (hclean f frame hplace) fun g hg => absurd (hgrips ▸ hg) List.not_mem_nil
    calc a.stored = a.shows := by rw [shows_of_place hplace, hbytes]
      _ = a.bytes := hshown

/-! ## Quiet moves -/

/-- A clean page without pins goes: what it shows is stored. -/
theorem evict (h : a.Sound) (hplace : a.place = some (f, frame)) (hpins : frame.pins = 0)
    (hclean : frame.dirty = false) : { a with place := none }.Sound where
  resident hp := absurd hp (by simp)
  pristine := h.pristine
  pins hp := absurd hp (by simp)
  placed g hg := by
    have hg : g ∈ a.grips := hg
    rw [h.grips_eq_nil hplace hpins] at hg
    exact absurd hg List.not_mem_nil
  clean hp := absurd hp (by simp)
  shown hcreated hdeleted := by
    -- the store has what the frame had
    have hbytes : frame.bytes = a.stored := by
      refine h.clean hplace hclean fun g hg => ?_
      rw [h.grips_eq_nil hplace hpins] at hg
      exact absurd hg List.not_mem_nil
    calc { a with place := none }.shows = a.stored := rfl
      _ = a.shows := by rw [shows_of_place hplace, hbytes]
      _ = a.bytes := h.shown hcreated hdeleted

/-- The page is written: what is stored is what it shows. -/
theorem save (h : a.Sound) (hplace : a.place = some (f, frame)) :
    { a with place := some (f, { frame with dirty := false }), stored := frame.bytes }.Sound where
  resident _ := h.resident hplace
  -- only pages that were created are ever saved
  pristine hnot := absurd (h.resident hplace) hnot
  pins hp := by
    have hpins := h.pins hplace
    obtain ⟨-, rfl⟩ := Prod.mk.inj (Option.some.inj hp)
    exact hpins
  placed g hg := ⟨_, by rw [h.frame_eq hplace hg]⟩
  clean hp _ _ := by
    obtain ⟨-, rfl⟩ := Prod.mk.inj (Option.some.inj hp)
    rfl
  shown hcreated hdeleted := (shows_of_place hplace).symm.trans (h.shown hcreated hdeleted)

/-! ## Moves that give a guard a hold -/

/-- A page that was created comes in from the store, with a guard of it. -/
theorem load (h : a.Sound) (hplace : a.place = none) (hcreated : a.created) (f : Fin size)
    (p : PageId) :
    { a with
      place := some (f, .holding p a.stored)
      grips := ⟨f, false⟩ :: a.grips }.Sound where
  resident _ := hcreated
  pristine := h.pristine
  pins hp := by
    obtain ⟨-, rfl⟩ := Prod.mk.inj (Option.some.inj hp)
    rw [h.grips_eq_nil_of_place_none hplace]
    rfl
  placed g hg := by
    rw [h.grips_eq_nil_of_place_none hplace] at hg
    obtain rfl := List.mem_singleton.mp hg
    exact ⟨_, rfl⟩
  clean hp _ _ := by
    obtain ⟨-, rfl⟩ := Prod.mk.inj (Option.some.inj hp)
    rfl
  shown hcreated hdeleted := (shows_of_place_none hplace).symm.trans (h.shown hcreated hdeleted)

/-- A new page comes in full of zeros, with a guard of it. -/
theorem create (h : a.Sound) (hplace : a.place = none) (hnew : ¬ a.created) (f : Fin size)
    (p : PageId) :
    { a with
      place := some (f, .holding p .zero)
      grips := ⟨f, false⟩ :: a.grips
      created := True
      bytes := .zero }.Sound where
  resident _ := trivial
  pristine hnot := absurd trivial hnot
  pins hp := by
    obtain ⟨-, rfl⟩ := Prod.mk.inj (Option.some.inj hp)
    rw [h.grips_eq_nil_of_place_none hplace]
    rfl
  placed g hg := by
    rw [h.grips_eq_nil_of_place_none hplace] at hg
    obtain rfl := List.mem_singleton.mp hg
    exact ⟨_, rfl⟩
  clean hp _ _ := by
    -- the page was never written, so the store has zeros of it too
    obtain ⟨-, rfl⟩ := Prod.mk.inj (Option.some.inj hp)
    exact (h.pristine hnew).symm
  shown _ _ := rfl

/-- One more guard, one more pin. -/
theorem pin (h : a.Sound) (hplace : a.place = some (f, frame)) :
    { a with
      place := some (f, { frame with pins := frame.pins + 1 })
      grips := ⟨f, false⟩ :: a.grips }.Sound where
  resident _ := h.resident hplace
  pristine := h.pristine
  pins hp := by
    obtain ⟨-, rfl⟩ := Prod.mk.inj (Option.some.inj hp)
    exact congrArg (· + 1) (h.pins hplace)
  placed g hg := by
    rcases List.mem_cons.mp hg with rfl | hg
    · exact ⟨_, rfl⟩
    · exact ⟨_, by rw [h.frame_eq hplace hg]⟩
  clean hp hdirty hmodified := by
    -- one guard more, and it has written nothing
    have hclean := h.clean hplace
    obtain ⟨-, rfl⟩ := Prod.mk.inj (Option.some.inj hp)
    exact hclean hdirty fun g hg => hmodified g (List.mem_cons_of_mem _ hg)
  shown hcreated hdeleted := (shows_of_place hplace).symm.trans (h.shown hcreated hdeleted)

/-! ## Moves through a guard -/

/-- A guard is dropped: its pin goes, and the flag is set if it was written through. -/
theorem unpin (h : a.Sound) (hplace : a.place = some (f, frame)) {g : Grip size}
    {rest : List (Grip size)} (hgrips : a.grips = g :: rest) :
    { a with
      place := some (f, { frame with
        pins := frame.pins - 1, dirty := frame.dirty || g.modified })
      grips := rest }.Sound where
  resident _ := h.resident hplace
  pristine := h.pristine
  pins hp := by
    obtain ⟨-, rfl⟩ := Prod.mk.inj (Option.some.inj hp)
    show frame.pins - 1 = rest.length
    rw [h.pins hplace, hgrips, List.length_cons, Nat.add_sub_cancel]
  placed g' hg' := by
    have hg' : g' ∈ a.grips := hgrips ▸ List.mem_cons_of_mem g hg'
    exact ⟨_, by rw [h.frame_eq hplace hg']⟩
  clean hp hdirty hmodified := by
    have hclean := h.clean hplace
    obtain ⟨-, rfl⟩ := Prod.mk.inj (Option.some.inj hp)
    -- the flag has taken over what the guard knew
    obtain ⟨hdirty, hg⟩ : frame.dirty = false ∧ g.modified = false := Bool.or_eq_false_iff.mp hdirty
    refine hclean hdirty fun g' hg' => ?_
    rw [hgrips] at hg'
    rcases List.mem_cons.mp hg' with rfl | hg'
    · exact hg
    · exact hmodified g' hg'
  shown hcreated hdeleted := (shows_of_place hplace).symm.trans (h.shown hcreated hdeleted)

/-- The page is written through one of its guards, which from then on counts as modified. -/
theorem edit (h : a.Sound) (hplace : a.place = some (f, frame)) {g : Grip size}
    {rest : List (Grip size)} (hgrips : a.grips = g :: rest) (e : Page → Page) :
    { a with
      place := some (f, { frame with bytes := e frame.bytes })
      grips := ⟨g.frame, true⟩ :: rest
      bytes := e a.bytes }.Sound where
  resident _ := h.resident hplace
  pristine := h.pristine
  pins hp := by
    have hpins : frame.pins = (g :: rest).length := hgrips ▸ h.pins hplace
    obtain ⟨-, rfl⟩ := Prod.mk.inj (Option.some.inj hp)
    exact hpins
  placed g' hg' := by
    have hframe : g'.frame = f := by
      rcases List.mem_cons.mp hg' with rfl | hg'
      · exact h.frame_eq hplace (g := g) (hgrips ▸ List.mem_cons_self)
      · exact h.frame_eq hplace (hgrips ▸ List.mem_cons_of_mem g hg')
    exact ⟨_, by rw [hframe]⟩
  -- the guard knows that the store is behind
  clean hp _ hmodified := absurd (hmodified _ List.mem_cons_self) (by simp)
  shown hcreated hdeleted := by
    have hbytes := (shows_of_place hplace).symm.trans (h.shown hcreated hdeleted)
    exact congrArg e hbytes

/-! ## Deleting -/

/-- A page without pins is deleted from its frame. -/
theorem discard (h : a.Sound) (hplace : a.place = some (f, frame)) (hpins : frame.pins = 0) :
    { a with place := none, deleted := True }.Sound where
  resident hp := absurd hp (by simp)
  pristine := h.pristine
  pins hp := absurd hp (by simp)
  placed g hg := by
    have hg : g ∈ a.grips := hg
    rw [h.grips_eq_nil hplace hpins] at hg
    exact absurd hg List.not_mem_nil
  clean hp := absurd hp (by simp)
  shown _ hnot := absurd trivial hnot

/-- What was told to be deleted has nothing to show any more. -/
theorem delete (h : a.Sound) : { a with deleted := True }.Sound :=
  ⟨h.resident, h.pristine, h.pins, h.placed, h.clean, fun _ hnot => absurd trivial hnot⟩

/-- The order in which the guards were taken does not matter. -/
theorem perm (h : a.Sound) {grips : List (Grip size)} (hperm : a.grips.Perm grips) :
    { a with grips }.Sound where
  resident := h.resident
  pristine := h.pristine
  pins hp := (h.pins hp).trans hperm.length_eq
  placed g hg := h.placed g (hperm.mem_iff.mpr hg)
  clean hp hdirty hmodified := h.clean hp hdirty fun g hg => hmodified g (hperm.mem_iff.mp hg)
  shown := h.shown

end Sound

end Account

end PageCache
