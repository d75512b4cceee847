import PageCache.Proofs.Shard.Acquire
import PageCache.Shard.Flush

/-!
# What looks, flushes and unpins come to

Every way in which one look of a flush can end (`Looked`), and every way in which an unpin can
(`Backed.Unpin`), with all that each leaves behind. Nothing is assumed of the records here.

However many looks a flush comes to, it changes no record and nothing of a frame but its dirty flag
(`Shard.SameButFlags`). So what does not depend on that flag is kept by every flush, and need not be
proved for each.
-/

namespace PageCache

variable {size : Nat} {δ : Type} [PageStore δ]

/-! ## Looks -/

/-- How one look at page `p` ends. -/
inductive Looked (latched : Fin size → Bool) (w : Backed size δ) (p : PageId) :
    Except Failure (Look size) → Backed size δ → Prop
  | absent (hp : w.shard.table[p]? = none) : Looked latched w p (.ok (.settled false)) w
  | clean {f : Fin size} (hp : w.shard.table[p]? = some f)
      (hclean : (w.shard.frame f).dirty = false) : Looked latched w p (.ok (.settled true)) w
  | busy {f : Fin size} (hp : w.shard.table[p]? = some f) (hdirty : (w.shard.frame f).dirty = true)
      (hlatched : latched f = true) : Looked latched w p (.ok (.busy f)) w
  | written {f : Fin size} {disk : δ} (hp : w.shard.table[p]? = some f)
      (hdirty : (w.shard.frame f).dirty = true) (hfree : latched f = false)
      (hwrite : PageStore.write w.disk p (w.shard.frame f).bytes = (.ok (), disk)) :
      Looked latched w p (.ok (.settled true)) (Backed.markClean { w with disk } f)
  | unwritten {f : Fin size} {disk : δ} {cause : IoError} (hp : w.shard.table[p]? = some f)
      (hdirty : (w.shard.frame f).dirty = true) (hfree : latched f = false)
      (hwrite : PageStore.write w.disk p (w.shard.frame f).bytes = (.error cause, disk)) :
      Looked latched w p (.error (.storage (.io cause))) { w with disk }

/-- A look ends in one of the five ways. -/
theorem Backed.looked (latched : Fin size → Bool) (w : Backed size δ) (p : PageId) :
    Looked latched w p (w.tryFlush latched p).result (w.tryFlush latched p).state := by
  unfold tryFlush
  cases hp : w.shard.table[p]? with
  | none => exact .absent hp
  | some f =>
    dsimp only
    cases hdirty : (w.shard.frame f).dirty with
    | false => exact .clean hp hdirty
    | true =>
      cases hlatched : latched f with
      | true => exact .busy hp hdirty hlatched
      | false =>
        -- a dirty page that nobody writes to is saved, and only the disk can refuse that
        rcases w.writeBack_cases p f with ⟨disk, hwrite, heq⟩ | ⟨cause, disk, hwrite, heq⟩
        · rw [heq]
          exact .written hp hdirty hlatched hwrite
        · rw [heq]
          exact .unwritten hp hdirty hlatched hwrite

/-! ## What flushes change -/

namespace Shard

omit [PageStore δ]

/-- The records are the same, and so is all of every frame but for pages that are clean now. -/
structure SameButFlags (sh sh' : Shard size) : Prop where
  table : sh'.table = sh.table
  free : sh'.free = sh.free
  recency : sh'.recency = sh.recency
  nextId : sh'.nextId = sh.nextId
  frame : ∀ f, sh'.frame f = sh.frame f ∨ sh'.frame f = { sh.frame f with dirty := false }

namespace SameButFlags

variable {sh sh' sh'' : Shard size}

/-- Where nothing happened, flags are the same too. -/
theorem refl (sh : Shard size) : sh.SameButFlags sh :=
  ⟨rfl, rfl, rfl, rfl, fun _ => .inl rfl⟩

/-- A flag that one flush has cleared stays so in the next. -/
theorem trans (h : sh.SameButFlags sh') (h' : sh'.SameButFlags sh'') : sh.SameButFlags sh'' where
  table := h'.table.trans h.table
  free := h'.free.trans h.free
  recency := h'.recency.trans h.recency
  nextId := h'.nextId.trans h.nextId
  frame f := by
    rcases h.frame f with hf | hf
    · -- the first flush left frame `f` as it was
      rw [← hf]
      exact h'.frame f
    · rcases h'.frame f with hf' | hf'
      · exact .inr (hf'.trans hf)
      · rw [hf', hf]
        exact .inr rfl

/-- Every frame keeps its bytes. -/
theorem bytes (h : sh.SameButFlags sh') (f : Fin size) :
    (sh'.frame f).bytes = (sh.frame f).bytes := by
  rcases h.frame f with hf | hf <;> rw [hf]

/-- Every frame goes on naming the page it names. -/
theorem holds (h : sh.SameButFlags sh') (f : Fin size) :
    (sh'.frame f).holds = (sh.frame f).holds := by
  rcases h.frame f with hf | hf <;> rw [hf]

end SameButFlags

end Shard

namespace Backed

/-- One look clears the flag of the page it saved, if any. -/
theorem sameButFlags_tryFlush (latched : Fin size → Bool) (w : Backed size δ) (p : PageId) :
    w.shard.SameButFlags (w.tryFlush latched p).state.shard := by
  have hlooked := w.looked latched p
  generalize (w.tryFlush latched p).result = r, (w.tryFlush latched p).state = w' at hlooked
  cases hlooked with
  | absent | clean | busy | unwritten => exact .refl _
  | @written g =>
    refine ⟨rfl, rfl, rfl, rfl, fun f => ?_⟩
    by_cases hgf : g = f
    · -- the page that was saved lies in frame `f`
      exact .inr ((Shard.frame_setFrame ..).trans ((if_pos hgf).trans (by rw [hgf])))
    · exact .inl ((Shard.frame_setFrame ..).trans (if_neg hgf))

/-- Looks at any number of pages clear flags only, by induction on the pages. -/
theorem sameButFlags_sweep (latched : Fin size → Bool) (pages : List PageId)
    (w : Backed size δ) : w.shard.SameButFlags (sweep latched pages w).state.shard := by
  induction pages generalizing w with
  | nil => exact .refl _
  | cons p pages ih =>
    have hlook := sameButFlags_tryFlush latched w p
    rw [sweep]
    refine Outcome.state_andThen (P := fun w' : Backed size δ =>
      w.shard.SameButFlags w'.shard) hlook fun look _ => ?_
    -- busy or not, the sweep goes on from where the look left the shard
    cases look <;> exact hlook.trans (ih _)

/-- A flush of one page is one look at it. -/
theorem sameButFlags_flush (s : Stripe) (w : Backed size δ) (p : PageId) :
    w.shard.SameButFlags (w.flush s p).state.shard := by
  rw [flush]
  split
  · exact sameButFlags_tryFlush noWriter w p
  · exact .refl _

/-- A flush of all pages is a look at each. -/
theorem sameButFlags_flushAll (visit : Visit) (w : Backed size δ) :
    w.shard.SameButFlags (w.flushAll visit).state.shard :=
  sameButFlags_sweep noWriter _ w

/-! ## Unpins -/

section

omit [PageStore δ]

/-- The frame of a page from which a pin was taken off. -/
def unpinned (w : Backed size δ) (f : Fin size) (dirty : Bool) : Frame :=
  { w.shard.frame f with
    pins := (w.shard.frame f).pins - 1, dirty := (w.shard.frame f).dirty || dirty }

/-- How an unpin of page `p` ends. -/
inductive Unpin (w : Backed size δ) (p : PageId) (dirty : Bool) :
    Except Failure Bool → Backed size δ → Prop
  /-- There is no pin to take off. -/
  | refused {r : Except Failure Bool} (hresult : r ≠ .ok true) : Unpin w p dirty r w
  | several {f : Fin size} (hp : w.shard.table[p]? = some f) (hpins : 1 < (w.shard.frame f).pins) :
      Unpin w p dirty (.ok true) { w with shard := w.shard.setFrame f (w.unpinned f dirty) }
  | last {f : Fin size} (hp : w.shard.table[p]? = some f) (hpins : (w.shard.frame f).pins = 1) :
      Unpin w p dirty (.ok true)
        { w with shard := ((w.shard.setFrame f (w.unpinned f dirty)).track f).1 }

/-- An unpin ends in one of the three ways, whatever the stripe. -/
theorem unpin_cases (w : Backed size δ) (s' : Stripe) (p : PageId) (dirty : Bool) :
    Unpin w p dirty (w.unpin s' p dirty).result (w.unpin s' p dirty).state := by
  rw [unpin]
  split
  swap
  · exact .refused (by simp)
  split
  · exact .refused (by simp)
  next f hp =>
  dsimp only
  split
  · exact .refused (by simp)
  next hpins =>
  split
  · -- a page without pins was refused above, so there was one pin or more
    next hone => exact .last hp hone
  · next hmore => exact .several hp (by omega)

end

end Backed

end PageCache
