import PageCache.Proofs.Recency.Order
import PageCache.Proofs.Shard.Acquire
import PageCache.Shard.Flush

/-!
# What failures leave behind

An operation of a shard that fails, or answers that there is nothing to do, leaves the shard as it
was, but for what it takes to be no worse off: `Backed.Untouched` is the rule. There are two
exceptions, and both are about making room.

* `Backed.VictimStays`: the page that was to go could not be written back. It stays, and is the last
  to be evicted from then on.
* `Backed.LoadFails`: a frame was found, but the page could not be read into it. The frame is blank
  and free, and one page may have gone to make room, with nothing lost.

`Backed.FailsGently` says all this of one state of a shard, for whatever it is asked, and
`Backed.failsGently` proves it where the records agree.
-/

namespace PageCache

variable {size : Nat} {δ : Type}

/-- Page `q` in frame `f` is the one that goes if a frame is needed: no frame is free, the page is
not pinned, and of all that may be evicted it became so first. The others are `rest`. -/
structure Shard.Next (sh : Shard size) (q : PageId) (f : Fin size) (rest : List Nat) : Prop where
  full : sh.free = []
  oldest : sh.recency.order = f.val :: rest
  lies : sh.table[q]? = some f
  unpinned : (sh.frame f).pins = 0

namespace Backed

variable [PageStore δ] [LawfulStore δ]

/-- No record and no byte is different, of the shard or of what is stored. -/
structure Untouched (w w' : Backed size δ) : Prop where
  shard : w'.shard = w.shard
  contents : LawfulStore.contents w'.disk = LawfulStore.contents w.disk

/-- The next page to go could not be written back because of `cause`. Nothing is different after
that but the order in which pages may be evicted: that page is the last. -/
inductive VictimStays (w : Backed size δ) (cause : IoError) (w' : Backed size δ) : Prop
  | intro {q : PageId} {f : Fin size} {rest : List Nat} (next : w.shard.Next q f rest)
      (dirty : (w.shard.frame f).dirty = true)
      (refused : (PageStore.write w.disk q (w.shard.frame f).bytes).1 = .error cause)
      (shard : w'.shard = { w.shard with recency := w'.shard.recency })
      (capacity : w'.shard.recency.capacity = w.shard.recency.capacity)
      (order : w'.shard.recency.order = rest ++ [f.val])
      (contents : LawfulStore.contents w'.disk = LawfulStore.contents w.disk)

/-- Page `p` could not be read because of `cause`, and the frame that was found for it is blank, and
the last of the free ones. If none was free before, a page has gone from it. -/
inductive LoadFails (w : Backed size δ) (p : PageId) (cause : IoError) (w' : Backed size δ) : Prop
  /-- There was a free frame, and it stays one. -/
  | free {f : Fin size} {free : List (Fin size)} (hfree : w.shard.free = f :: free)
      (refused : ∃ buffer, (PageStore.read w.disk p buffer).result = .error cause)
      (absent : w'.shard.table[p]? = none)
      (shard : w'.shard = { w.shard.setFrame f .blank with free := free ++ [f] })
      (contents : LawfulStore.contents w'.disk = LawfulStore.contents w.disk)
  /-- The next page to go has gone, and the store had its bytes. -/
  | clean {q : PageId} {f : Fin size} {rest : List Nat} (next : w.shard.Next q f rest)
      (clean : (w.shard.frame f).dirty = false)
      (refused : ∃ buffer, (PageStore.read w.disk p buffer).result = .error cause)
      (absent : w'.shard.table[p]? = none)
      (shard : w'.shard = { w.shard.setFrame f .blank with
        table := w.shard.table.erase q, free := [f], recency := w'.shard.recency })
      (capacity : w'.shard.recency.capacity = w.shard.recency.capacity)
      (order : w'.shard.recency.order = rest)
      (contents : LawfulStore.contents w'.disk = LawfulStore.contents w.disk)
  /-- The next page to go has gone, and the store has its bytes now. -/
  | written {q : PageId} {f : Fin size} {rest : List Nat} {disk : δ} (next : w.shard.Next q f rest)
      (dirty : (w.shard.frame f).dirty = true)
      (saved : PageStore.write w.disk q (w.shard.frame f).bytes = (.ok (), disk))
      (refused : ∃ buffer, (PageStore.read disk p buffer).result = .error cause)
      (absent : w'.shard.table[p]? = none)
      (shard : w'.shard = { w.shard.setFrame f .blank with
        table := w.shard.table.erase q, free := [f], recency := w'.shard.recency })
      (capacity : w'.shard.recency.capacity = w.shard.recency.capacity)
      (order : w'.shard.recency.order = rest)
      (contents : LawfulStore.contents w'.disk =
        Function.update (LawfulStore.contents w.disk) q (w.shard.frame f).bytes)

/-- Whatever a shard of stripe `s` is asked in state `w`, a failure leaves behind what it should.

Where no frame or no id is to be had, and where the answer is that there is nothing to unpin, to
delete or to flush, nothing is different. If a page cannot be created for a fault of the disk, that
was met in writing back the page that was to go; if one cannot be fetched, it was met there or in
reading the page. -/
structure FailsGently (s : Stripe) (w : Backed size δ) : Prop where
  fetch_full : ∀ p, (w.fetch s p).result = .error (.storage .poolFull) →
    Untouched w (w.fetch s p).state
  newPage_full : (w.newPage s).result = .error (.storage .poolFull) →
    Untouched w (w.newPage s).state
  newPage_exhausted : (w.newPage s).result = .error (.storage .idsExhausted) →
    Untouched w (w.newPage s).state
  unpin_false : ∀ p dirty, (w.unpin s p dirty).result = .ok false →
    Untouched w (w.unpin s p dirty).state
  delete_false : ∀ p, (w.delete s p).result = .ok false → Untouched w (w.delete s p).state
  flush_false : ∀ p, (w.flush s p).result = .ok false → Untouched w (w.flush s p).state
  newPage_io : ∀ cause, (w.newPage s).result = .error (.storage (.io cause)) →
    VictimStays w cause (w.newPage s).state
  fetch_io : ∀ p cause, (w.fetch s p).result = .error (.storage (.io cause)) →
    VictimStays w cause (w.fetch s p).state ∨ LoadFails w p cause (w.fetch s p).state

variable {w w' : Backed size δ} {s : Stripe} {capacity : Nat} {p : PageId} {f : Fin size}

theorem Untouched.refl (w : Backed size δ) : Untouched w w :=
  ⟨rfl, rfl⟩

/-! ## No frame is found -/

omit [PageStore δ] [LawfulStore δ] in
/-- The victim that a search comes to is the next page to go. -/
theorem next_of_victim (hrecency : (Recency.empty capacity).Becomes w.shard.recency)
    {recency : Recency} (hfree : w.shard.free = [])
    (hvictim : w.shard.recency.victim = some (f.val, recency)) (hp : w.shard.table[p]? = some f)
    (hpins : (w.shard.frame f).pins = 0) :
    ∃ rest, w.shard.Next p f rest ∧ recency.order = rest ∧
      (recency.track f).1.order = rest ++ [f.val] := by
  obtain ⟨rest, horder, hrest, hback⟩ := hrecency.order_of_victim hvictim
  exact ⟨rest, ⟨hfree, horder, hp, hpins⟩, hrest, hback⟩

theorem untouched_of_full
    (ha : Acquisition w (.error (.storage .poolFull)) w') : Untouched w w' := by
  cases ha with
  | full => exact .refl w

theorem victimStays_of_io (h : w.shard.Kept s capacity w.shard.free)
    (hrecency : (Recency.empty capacity).Becomes w.shard.recency) {cause : IoError}
    (ha : Acquisition w (.error (.storage (.io cause))) w') : VictimStays w cause w' := by
  cases ha with
  | unwritten hfree hvictim hp hpins hdirty hwrite =>
    obtain ⟨rest, hnext, -, hback⟩ := next_of_victim hrecency hfree hvictim hp hpins
    have hcapacity := (h.chained.without_victim hvictim).capacity_eq
    exact .intro hnext hdirty (congrArg Prod.fst hwrite) rfl
      ((Recency.capacity_track ..).trans hcapacity) hback
      (LawfulStore.contents_failed_write hwrite)

/-! ## A frame is found in vain -/

/-- A free frame that is wiped is blank. -/
theorem blank_of_idle {frame : Frame} (h : frame.Idle) :
    ({ frame with bytes := .zero } : Frame) = .blank := by
  rw [← h]
  rfl

omit [PageStore δ] [LawfulStore δ] in
/-- Of a page that has gone and of what came into its frame in vain, nothing is left there. -/
theorem wipe_unmap (hfree : w.shard.free = []) (recency : Recency) (q : PageId) (f : Fin size) :
    ({ ({ w.shard with recency }.unmap q f).setFrame f .blank with
      free := w.shard.free ++ [f] } : Shard size) =
      { w.shard.setFrame f .blank with
        table := w.shard.table.erase q, free := [f], recency } := by
  simp only [Shard.unmap, Shard.setFrame, Vector.set_set, hfree]
  rfl

theorem loadFails_of_read (h : w.shard.Kept s capacity w.shard.free)
    (hrecency : (Recency.empty capacity).Becomes w.shard.recency) {cause : IoError}
    (ha : Acquisition w (.ok f) w') (hp : w.shard.table[p]? = none)
    (hread : (PageStore.read w'.disk p (w'.shard.frame f).bytes).result = .error cause) :
    LoadFails w p cause (w'.load p f).state := by
  have habsent : w'.shard.table[p]? = none := (ha.search h).table_none hp
  have hload : (w'.load p f).state = ⟨{ w'.shard.setFrame f { w'.shard.frame f with bytes := .zero }
      with free := w'.shard.free ++ [f] },
      (PageStore.read w'.disk p (w'.shard.frame f).bytes).store⟩ := by
    simp only [load, hread]
    rfl
  have hblank := blank_of_idle ((ha.kept_of_ok h).spare_idle List.mem_cons_self)
  rw [hload, hblank]
  cases ha with
  | free hfree => exact .free hfree ⟨_, hread⟩ habsent rfl (LawfulStore.contents_read ..)
  | clean hfree hvictim hq hpins hclean =>
    obtain ⟨rest, hnext, horder, -⟩ := next_of_victim hrecency hfree hvictim hq hpins
    exact .clean hnext hclean ⟨_, hread⟩ habsent (wipe_unmap hfree ..)
      (h.chained.without_victim hvictim).capacity_eq horder (LawfulStore.contents_read ..)
  | written hfree hvictim hq hpins hdirty hwrite =>
    obtain ⟨rest, hnext, horder, -⟩ := next_of_victim hrecency hfree hvictim hq hpins
    exact .written hnext hdirty hwrite ⟨_, hread⟩ habsent (wipe_unmap hfree ..)
      (h.chained.without_victim hvictim).capacity_eq horder
      ((LawfulStore.contents_read ..).trans (LawfulStore.contents_write hwrite))

/-! ## Fetching and creating -/

omit [LawfulStore δ] in
/-- A fetch that fails for what the storage reports has found no frame, or has found one and could
not read the page into it. -/
theorem fetch_fails (h : w.shard.Kept s capacity w.shard.free) {e : StorageError}
    (hresult : (w.fetch s p).result = .error (.storage e)) :
    Acquisition w (.error (.storage e)) (w.fetch s p).state ∨
      ∃ f w' cause, Acquisition w (.ok f) w' ∧ w.shard.table[p]? = none ∧ e = .io cause ∧
        (PageStore.read w'.disk p (w'.shard.frame f).bytes).result = .error cause ∧
        (w.fetch s p).state = (w'.load p f).state := by
  rw [fetch] at hresult ⊢
  split at hresult
  swap
  · exact absurd hresult (by simp [Outcome.fail, Stripe.foreign])
  next howns =>
  rw [if_pos howns]
  split at hresult
  · -- a page that is there fails only for want of pins, which the storage does not report
    rw [pinAgain] at hresult
    split at hresult
    · exact absurd hresult (by simp)
    · exact absurd hresult (by simp)
  next hp =>
  have ha := h.acquisition
  cases hacquired : w.acquire.result with
  | error e' =>
    rw [Outcome.andThen_of_error hacquired] at hresult ⊢
    obtain rfl := Except.error.inj hresult
    exact .inl (hacquired ▸ ha)
  | ok f =>
    rw [Outcome.andThen_of_ok hacquired] at hresult ⊢
    rw [hacquired] at ha
    refine .inr ⟨f, w.acquire.state, ?_⟩
    cases hread : (PageStore.read w.acquire.state.disk p
        (w.acquire.state.shard.frame f).bytes).result with
    | ok _ => exact absurd hresult (by simp [load, hread])
    | error cause =>
      have hcause : Failure.storage (.io cause) = .storage e := by
        simpa [load, hread] using hresult
      exact ⟨cause, ha, hp, (Failure.storage.inj hcause).symm, rfl, rfl⟩

omit [LawfulStore δ] in
/-- A creation that fails for what the storage reports has found no id, or no frame. -/
theorem newPage_fails (h : w.shard.Kept s capacity w.shard.free) {e : StorageError}
    (hresult : (w.newPage s).result = .error (.storage e)) :
    (e = .idsExhausted ∧ (w.newPage s).state = w) ∨
      Acquisition w (.error (.storage e)) (w.newPage s).state := by
  have ha := h.acquisition
  have hcreation := w.creation s
  generalize (w.newPage s).state = w' at hcreation ⊢
  rw [hresult] at hcreation
  cases hcreation with
  | exhausted => exact .inl ⟨rfl, rfl⟩
  | unplaced _ hsearch => exact .inr (hsearch ▸ ha)

/-! ## Answers that nothing was to be done -/

theorem untouched_of_unpin {dirty : Bool} (hresult : (w.unpin s p dirty).result = .ok false) :
    Untouched w (w.unpin s p dirty).state := by
  rw [unpin] at hresult ⊢
  split at hresult
  swap
  · exact absurd hresult (by simp)
  next howns =>
  rw [if_pos howns]
  split at hresult
  · exact .refl w
  simp only at hresult ⊢
  split at hresult
  · next hpins => exact (if_pos hpins) ▸ .refl w
  · split at hresult <;> exact absurd hresult (by simp)

/-- The disk is told of a page that is not deleted after all, and keeps its bytes. -/
theorem untouched_of_delete (hresult : (w.delete s p).result = .ok false) :
    Untouched w (w.delete s p).state := by
  rw [delete] at hresult ⊢
  split at hresult
  swap
  · exact absurd hresult (by simp)
  next howns =>
  rw [if_pos howns]
  simp only [Outcome.result_after, Outcome.state_after, discard] at hresult ⊢
  split at hresult
  · exact absurd hresult (by simp)
  split at hresult
  · next hpins => exact (if_pos hpins) ▸ ⟨rfl, LawfulStore.contents_deallocate w.disk p⟩
  · exact absurd hresult (by simp)

theorem untouched_of_flush (hresult : (w.flush s p).result = .ok false) :
    Untouched w (w.flush s p).state := by
  rw [flush] at hresult ⊢
  split at hresult
  swap
  · exact absurd hresult (by simp)
  next howns =>
  rw [if_pos howns]
  simp only [Outcome.result_map, Outcome.state_map, tryFlush] at hresult ⊢
  split at hresult
  · exact .refl w
  -- a page that is there is written back, or need not be, or cannot be
  next g hp =>
  split at hresult
  swap
  · exact absurd hresult (by simp [Look.resident, Except.map])
  rw [if_neg (by simp [noWriter])] at hresult
  rcases writeBack_cases w p g with ⟨disk, -, heq⟩ | ⟨cause, disk, -, heq⟩
  · exact absurd hresult (by simp [heq, Outcome.andThen, Look.resident, Except.map])
  · exact absurd hresult (by simp [heq, Outcome.andThen, Except.map])

/-- Where the records agree, and the recency list had nothing but requests since it was empty, a
failure leaves behind what it should. -/
theorem failsGently (h : w.shard.Kept s capacity w.shard.free)
    (hrecency : (Recency.empty capacity).Becomes w.shard.recency) : w.FailsGently s where
  fetch_full p hresult := by
    obtain ha | ⟨f, w', cause, -, -, hio, -⟩ := fetch_fails h hresult
    · exact untouched_of_full ha
    · exact absurd hio (by simp)
  newPage_full hresult := by
    obtain ⟨hexhausted, -⟩ | ha := newPage_fails h hresult
    · exact absurd hexhausted (by simp)
    · exact untouched_of_full ha
  newPage_exhausted hresult := by
    obtain ⟨-, hsame⟩ | ha := newPage_fails h hresult
    · exact ⟨congrArg Backed.shard hsame, congrArg (LawfulStore.contents ·.disk) hsame⟩
    · cases ha
  unpin_false p dirty hresult := untouched_of_unpin hresult
  delete_false p hresult := untouched_of_delete hresult
  flush_false p hresult := untouched_of_flush hresult
  newPage_io cause hresult := by
    obtain ⟨hexhausted, -⟩ | ha := newPage_fails h hresult
    · exact absurd hexhausted (by simp)
    · exact victimStays_of_io h hrecency ha
  fetch_io p cause hresult := by
    obtain ha | ⟨f, w', cause', ha, hp, hio, hread, hstate⟩ := fetch_fails h hresult
    · exact .inl (victimStays_of_io h hrecency ha)
    · obtain rfl := StorageError.io.inj hio
      exact .inr (hstate ▸ loadFails_of_read h hrecency ha hp hread)

end Backed

end PageCache
