import PageCache.Proofs.Shard.Kept
import PageCache.Proofs.Store.Lawful
import PageCache.Shard.Operations

/-!
# How a frame is found

`Backed.acquire` tries the free list, then the recency list, and may have to write a page back.
`Search` lists the ways for it to end, with all that each leaves behind, and assumes nothing of the
records: a frame that the recency list names may hold no page, or be no frame at all. As long as the
records agree, a victim is a page's frame, and nobody has that page pinned, so these two ways are
never taken (`Shard.Kept.acquisition`); `Acquisition` lists the five that are left, with what is
known of the victim then.

`Creation` lists in the same way how `Backed.newPage` ends, which gives a page out in the frame that
was found.
-/

namespace PageCache

variable {size : Nat} {δ : Type} [PageStore δ]

/-! ## Whatever the records say -/

/-- How a search for a frame ends, whatever the records say. -/
inductive Search (w : Backed size δ) : Except Failure (Fin size) → Backed size δ → Prop
  | free {f : Fin size} {free : List (Fin size)} (hfree : w.shard.free = f :: free) :
      Search w (.ok f) { w with shard := { w.shard with free } }
  | full (hfree : w.shard.free = []) (hvictim : w.shard.recency.victim = none) :
      Search w (.error (.storage .poolFull)) w
  /-- The recency list names something that is no frame. -/
  | stray {k : Nat} {recency : Recency} (hfree : w.shard.free = [])
      (hvictim : w.shard.recency.victim = some (k, recency)) (hk : ¬ k < size) :
      Search w (.error (.violation (.frameOutOfRange size k)))
        { w with shard := { w.shard with recency } }
  /-- The victim holds no page. -/
  | vacant {f : Fin size} {recency : Recency} (hfree : w.shard.free = [])
      (hvictim : w.shard.recency.victim = some (f.val, recency))
      (hholds : (w.shard.frame f).holds = none) :
      Search w (.ok f) { w with
        shard := { w.shard with recency }.setFrame f (w.shard.frame f).released }
  | clean {f : Fin size} {recency : Recency} {p : PageId} (hfree : w.shard.free = [])
      (hvictim : w.shard.recency.victim = some (f.val, recency))
      (hholds : (w.shard.frame f).holds = some p) (hclean : (w.shard.frame f).dirty = false) :
      Search w (.ok f) { w with shard := { w.shard with recency }.unmap p f }
  | written {f : Fin size} {recency : Recency} {p : PageId} {disk : δ} (hfree : w.shard.free = [])
      (hvictim : w.shard.recency.victim = some (f.val, recency))
      (hholds : (w.shard.frame f).holds = some p) (hdirty : (w.shard.frame f).dirty = true)
      (hwrite : PageStore.write w.disk p (w.shard.frame f).bytes = (.ok (), disk)) :
      Search w (.ok f) ⟨{ w.shard with recency }.unmap p f, disk⟩
  | unwritten {f : Fin size} {recency : Recency} {p : PageId} {disk : δ} {cause : IoError}
      (hfree : w.shard.free = []) (hvictim : w.shard.recency.victim = some (f.val, recency))
      (hholds : (w.shard.frame f).holds = some p) (hdirty : (w.shard.frame f).dirty = true)
      (hwrite : PageStore.write w.disk p (w.shard.frame f).bytes = (.error cause, disk)) :
      Search w (.error (.storage (.io cause)))
        ⟨(({ w.shard with recency } : Shard size).track f).1, disk⟩

variable {w w' : Backed size δ} {s : Stripe} {capacity : Nat} {f : Fin size} {p : PageId}

/-- Writing back changes nothing but the disk. -/
theorem Backed.writeBack_cases (w : Backed size δ) (p : PageId) (f : Fin size) :
    (∃ disk, PageStore.write w.disk p (w.shard.frame f).bytes = (.ok (), disk) ∧
      w.writeBack p f = .ok () { w with disk }) ∨
    ∃ cause disk, PageStore.write w.disk p (w.shard.frame f).bytes = (.error cause, disk) ∧
      w.writeBack p f = .fail (.storage (.io cause)) { w with disk } := by
  rcases hwrite : PageStore.write w.disk p (w.shard.frame f).bytes with ⟨cause | ⟨⟨⟩⟩, disk⟩
  · exact .inr ⟨cause, disk, rfl, by simp only [Backed.writeBack, hwrite]⟩
  · exact .inl ⟨disk, rfl, by simp only [Backed.writeBack, hwrite]⟩

/-- A search for a frame ends in one of the seven ways. -/
theorem Backed.search (w : Backed size δ) : Search w w.acquire.result w.acquire.state := by
  unfold acquire
  -- along the branches of `Backed.acquire`, each with what it has found
  cases hfree : w.shard.free with
  | cons f free => exact .free hfree
  | nil =>
    cases hvictim : w.shard.recency.victim with
    | none => exact .full hfree hvictim
    | some found =>
      obtain ⟨k, recency⟩ := found
      simp only [Outcome.result_after, Outcome.state_after]
      by_cases hk : k < size
      swap
      · rw [dif_neg hk]
        exact .stray hfree hvictim hk
      rw [dif_pos hk]
      let f : Fin size := ⟨k, hk⟩
      show Search w (evict { w with shard := { w.shard with recency } } f).result
        (evict { w with shard := { w.shard with recency } } f).state
      unfold evict
      have hframe : ({ w.shard with recency } : Shard size).frame f = w.shard.frame f := rfl
      simp only [hframe]
      cases hholds : (w.shard.frame f).holds with
      | none => exact .vacant hfree hvictim hholds
      | some p =>
        cases hdirty : (w.shard.frame f).dirty with
        | false => exact .clean hfree hvictim hholds hdirty
        | true =>
          rcases writeBack_cases { w with shard := { w.shard with recency } } p f with
            ⟨disk, hwrite, heq⟩ | ⟨cause, disk, hwrite, heq⟩
          · simp only [heq, if_true]
            exact .written hfree hvictim hholds hdirty hwrite
          · simp only [heq, if_true]
            exact .unwritten hfree hvictim hholds hdirty hwrite

namespace Search

variable {r : Except Failure (Fin size)}

/-- No page comes in by a search. -/
theorem table_none (hs : Search w r w') (hp : w.shard.table[p]? = none) :
    w'.shard.table[p]? = none := by
  cases hs with
  | free | full | stray | vacant | unwritten => exact hp
  | @clean _ _ q | @written _ _ q =>
    show (w.shard.table.erase q)[p]? = none
    rw [Shard.getElem?_erase]
    split
    · rfl
    · exact hp

/-- A search takes no id. -/
theorem nextId_eq (hs : Search w r w') : w'.shard.nextId = w.shard.nextId := by
  cases hs <;> rfl

end Search

/-! ## Where the records agree -/

/-- How a search for a frame ends where the records agree. -/
inductive Acquisition (w : Backed size δ) : Except Failure (Fin size) → Backed size δ → Prop
  /-- There is a free frame. -/
  | free {f : Fin size} {free : List (Fin size)} (hfree : w.shard.free = f :: free) :
      Acquisition w (.ok f) { w with shard := { w.shard with free } }
  /-- No frame is free and none may be evicted. -/
  | full (hfree : w.shard.free = []) (hvictim : w.shard.recency.victim = none) :
      Acquisition w (.error (.storage .poolFull)) w
  /-- The victim's page has nothing to lose. -/
  | clean {f : Fin size} {recency : Recency} {p : PageId} (hfree : w.shard.free = [])
      (hvictim : w.shard.recency.victim = some (f.val, recency)) (hp : w.shard.table[p]? = some f)
      (hpins : (w.shard.frame f).pins = 0) (hclean : (w.shard.frame f).dirty = false) :
      Acquisition w (.ok f) { w with shard := { w.shard with recency }.unmap p f }
  /-- The victim's page has been written back. -/
  | written {f : Fin size} {recency : Recency} {p : PageId} {disk : δ} (hfree : w.shard.free = [])
      (hvictim : w.shard.recency.victim = some (f.val, recency)) (hp : w.shard.table[p]? = some f)
      (hpins : (w.shard.frame f).pins = 0) (hdirty : (w.shard.frame f).dirty = true)
      (hwrite : PageStore.write w.disk p (w.shard.frame f).bytes = (.ok (), disk)) :
      Acquisition w (.ok f) ⟨{ w.shard with recency }.unmap p f, disk⟩
  /-- The victim's page could not be written back, and stays. -/
  | unwritten {f : Fin size} {recency : Recency} {p : PageId} {disk : δ} {cause : IoError}
      (hfree : w.shard.free = []) (hvictim : w.shard.recency.victim = some (f.val, recency))
      (hp : w.shard.table[p]? = some f) (hpins : (w.shard.frame f).pins = 0)
      (hdirty : (w.shard.frame f).dirty = true)
      (hwrite : PageStore.write w.disk p (w.shard.frame f).bytes = (.error cause, disk)) :
      Acquisition w (.error (.storage (.io cause)))
        ⟨(({ w.shard with recency } : Shard size).track f).1, disk⟩

/-- Where the records agree, a search for a frame ends in one of five ways. -/
theorem Shard.Kept.acquisition (h : w.shard.Kept s capacity w.shard.free) :
    Acquisition w w.acquire.result w.acquire.state := by
  have hsearch := w.search
  generalize w.acquire.result = r, w.acquire.state = w' at hsearch
  -- the victim is tracked, so it is a frame, has a page, and nobody has that pinned
  have hidle {k : Nat} {recency : Recency}
      (hvictim : w.shard.recency.victim = some (k, recency)) :
      ∃ (p : PageId) (f : Fin size), f.val = k ∧ w.shard.table[p]? = some f ∧
        (w.shard.frame f).pins = 0 :=
    h.tracked (h.chained.victim_eq_some hvictim).1
  have hplace {f : Fin size} {recency : Recency} {q : PageId}
      (hvictim : w.shard.recency.victim = some (f.val, recency))
      (hq : (w.shard.frame f).holds = some q) :
      w.shard.table[q]? = some f ∧ (w.shard.frame f).pins = 0 := by
    obtain ⟨p, g, hk, hp, hpins⟩ := hidle hvictim
    obtain rfl : g = f := Fin.ext hk
    obtain rfl : p = q := Option.some.inj ((h.holds hp).symm.trans hq)
    exact ⟨hp, hpins⟩
  cases hsearch with
  | free hfree => exact .free hfree
  | full hfree hvictim => exact .full hfree hvictim
  | stray _ hvictim hk =>
    obtain ⟨-, f, rfl, -⟩ := hidle hvictim
    exact absurd f.isLt hk
  | vacant _ hvictim hholds =>
    obtain ⟨p, g, hk, hp, -⟩ := hidle hvictim
    obtain rfl := Fin.ext hk
    exact absurd (hholds.symm.trans (h.holds hp)) (by simp)
  | clean hfree hvictim hholds hclean =>
    obtain ⟨hp, hpins⟩ := hplace hvictim hholds
    exact .clean hfree hvictim hp hpins hclean
  | written hfree hvictim hholds hdirty hwrite =>
    obtain ⟨hp, hpins⟩ := hplace hvictim hholds
    exact .written hfree hvictim hp hpins hdirty hwrite
  | unwritten hfree hvictim hholds hdirty hwrite =>
    obtain ⟨hp, hpins⟩ := hplace hvictim hholds
    exact .unwritten hfree hvictim hp hpins hdirty hwrite

theorem Backed.owns_of_fetch (hresult : (w.fetch s p).result = .ok f) : s.Owns p := by
  rw [Backed.fetch] at hresult
  split at hresult
  · assumption
  · exact absurd hresult (by simp)

/-! ## What a creation comes to -/

/-- How a creation ends, whatever the records say. -/
inductive Creation (s : Stripe) (w : Backed size δ) :
    Except Failure (PageId × Fin size) → Backed size δ → Prop
  /-- There is no id left. -/
  | exhausted (hnext : w.shard.nextId = none) :
      Creation s w (.error (.storage .idsExhausted)) w
  /-- No frame was found, and the id is kept for later. -/
  | unplaced {p : PageId} {e : Failure} (hnext : w.shard.nextId = some p)
      (hsearch : w.acquire.result = .error e) : Creation s w (.error e) w.acquire.state
  /-- The id is not one of the stripe. It is used up, and so is the frame. -/
  | foreign {p : PageId} {f : Fin size} (hnext : w.shard.nextId = some p)
      (hsearch : w.acquire.result = .ok f) (howns : ¬ s.Owns p) :
      Creation s w (.error (s.foreign p)) { w.acquire.state with
        shard := { w.acquire.state.shard with nextId := s.next? p } }
  | made {p : PageId} {f : Fin size} (hnext : w.shard.nextId = some p)
      (hsearch : w.acquire.result = .ok f) (howns : s.Owns p) :
      Creation s w (.ok (p, f)) { w.acquire.state with
        shard := { w.acquire.state.shard.install p f .zero with nextId := s.next? p } }

namespace Backed

/-- A shard without an id does not even look for a frame. -/
theorem newPage_of_exhausted (s : Stripe) (hnext : w.shard.nextId = none) :
    w.newPage s = .fail (.storage .idsExhausted) w := by
  rw [newPage, hnext]

/-- Where no frame is found, a creation ends as the search does. -/
theorem newPage_of_error {e : Failure} (hnext : w.shard.nextId = some p)
    (hsearch : w.acquire.result = .error e) :
    w.newPage s = ⟨.error e, w.acquire.state, w.acquire.events⟩ := by
  rw [newPage, hnext]
  exact Outcome.andThen_of_error hsearch _

/-- The page comes to the frame that was found. -/
theorem newPage_of_ok (hnext : w.shard.nextId = some p) (hsearch : w.acquire.result = .ok f)
    (howns : s.Owns p) :
    (w.newPage s).result = .ok (p, f) ∧ (w.newPage s).state = { w.acquire.state with
      shard := { w.acquire.state.shard.install p f .zero with nextId := s.next? p } } := by
  rw [newPage, hnext]
  dsimp only
  rw [Outcome.andThen_of_ok hsearch, create, if_pos howns]
  exact ⟨rfl, rfl⟩

/-- An id of another stripe is refused, too late for the frame that was found for it. -/
theorem newPage_of_foreign (hnext : w.shard.nextId = some p) (hsearch : w.acquire.result = .ok f)
    (howns : ¬ s.Owns p) :
    (w.newPage s).result = .error (s.foreign p) ∧ (w.newPage s).state = { w.acquire.state with
      shard := { w.acquire.state.shard with nextId := s.next? p } } := by
  rw [newPage, hnext]
  dsimp only
  rw [Outcome.andThen_of_ok hsearch, create, if_neg howns]
  exact ⟨rfl, rfl⟩

/-- A creation ends in one of the four ways. -/
theorem creation (s : Stripe) (w : Backed size δ) :
    Creation s w (w.newPage s).result (w.newPage s).state := by
  cases hnext : w.shard.nextId with
  | none =>
    rw [newPage_of_exhausted s hnext]
    exact .exhausted hnext
  | some p =>
    cases hsearch : w.acquire.result with
    | error e =>
      rw [newPage_of_error hnext hsearch]
      exact .unplaced hnext hsearch
    | ok f =>
      by_cases howns : s.Owns p
      · rw [(newPage_of_ok hnext hsearch howns).1, (newPage_of_ok hnext hsearch howns).2]
        exact .made hnext hsearch howns
      · rw [(newPage_of_foreign hnext hsearch howns).1, (newPage_of_foreign hnext hsearch howns).2]
        exact .foreign hnext hsearch howns

/-- A page that was made has the next id, which is one of the stripe, and lies in the frame that was
found. -/
theorem made_of_newPage (hresult : (w.newPage s).result = .ok (p, f)) :
    w.shard.nextId = some p ∧ w.acquire.result = .ok f ∧ s.Owns p := by
  have hcreation := w.creation s
  generalize (w.newPage s).state = w' at hcreation
  rw [hresult] at hcreation
  cases hcreation with
  | made hnext hsearch howns => exact ⟨hnext, hsearch, howns⟩

/-- An answer names the next id. -/
theorem nextId_of_newPage (hresult : (w.newPage s).result = .ok (p, f)) :
    w.shard.nextId = some p :=
  (made_of_newPage hresult).1

end Backed

namespace Acquisition

/-- A frame that was found is off all records. -/
theorem kept_of_ok (h : w.shard.Kept s capacity w.shard.free) (ha : Acquisition w (.ok f) w') :
    w'.shard.Kept s capacity (f :: w'.shard.free) := by
  cases ha with
  | free hfree => exact hfree ▸ h.withFree _
  | clean _ hvictim hp | written _ hvictim hp =>
    exact h.vacate (h.chained.without_victim hvictim) hp (Frame.idle_released _)

theorem kept_of_error (h : w.shard.Kept s capacity w.shard.free) {e : Failure}
    (ha : Acquisition w (.error e) w') : w'.shard.Kept s capacity w'.shard.free := by
  cases ha with
  | full => exact h
  | unwritten _ hvictim hp hpins =>
    exact h.retrack (h.chained.without_victim hvictim) hp hpins

/-- It is a search, of which more is known. -/
theorem search (h : w.shard.Kept s capacity w.shard.free) {r : Except Failure (Fin size)}
    (ha : Acquisition w r w') : Search w r w' := by
  cases ha with
  | free hfree => exact .free hfree
  | full hfree hvictim => exact .full hfree hvictim
  | clean hfree hvictim hp _ hclean => exact .clean hfree hvictim (h.holds hp) hclean
  | written hfree hvictim hp _ hdirty hwrite =>
    exact .written hfree hvictim (h.holds hp) hdirty hwrite
  | unwritten hfree hvictim hp _ hdirty hwrite =>
    exact .unwritten hfree hvictim (h.holds hp) hdirty hwrite

theorem serves {r : Except Failure (Fin size)} (ha : Acquisition w r w') :
    Serves w.disk w'.disk := by
  cases ha with
  | free | full | clean => exact .refl
  | written _ _ _ _ _ hwrite | unwritten _ _ _ _ _ hwrite => exact .of_write hwrite

end Acquisition

/-! ## Searches and fetches that succeed -/

/-- There is a frame to be found. -/
def Shard.HasRoom (sh : Shard size) : Prop :=
  sh.free ≠ [] ∨ ∃ k, sh.recency.contains k = true

/-- A frame that nobody uses is to be found if the recency list has room for every frame. -/
theorem Shard.Kept.hasRoom {sh : Shard size} (h : sh.Kept s capacity sh.free)
    (hcapacity : size ≤ capacity) (f : Fin size)
    (hidle : ∀ p : PageId, sh.table[p]? = some f → (sh.frame f).pins = 0) : sh.HasRoom := by
  rcases h.covered f with hfree | ⟨p, hp⟩
  · exact .inl (List.ne_nil_of_mem hfree)
  · exact .inr ⟨f, h.evictable hcapacity hp (hidle p hp)⟩

theorem Acquisition.result_ok {r : Except Failure (Fin size)}
    (h : w.shard.Kept s capacity w.shard.free) (ha : Acquisition w r w') (hdisk : Reliable w.disk)
    (hroom : w.shard.HasRoom) : ∃ f, r = .ok f := by
  cases ha with
  | free | clean | written => exact ⟨_, rfl⟩
  | full hfree hvictim =>
    obtain hsome | ⟨k, hk⟩ := hroom
    · exact absurd hfree hsome
    · rw [h.chained.victim_eq_none hvictim k] at hk
      exact absurd hk (by simp)
  | @unwritten f _ p disk cause _ _ _ _ _ hwrite =>
    -- a reliable disk does not fail to write
    obtain ⟨disk', hok⟩ := (hdisk _ .refl).2 p (w.shard.frame f).bytes
    exact absurd (hwrite.symm.trans hok) (by simp)

theorem Backed.result_load (hdisk : Reliable w.disk) (p : PageId) (f : Fin size) :
    (w.load p f).result = .ok f := by
  rw [Backed.load]
  simp only [(hdisk _ .refl).1 p (w.shard.frame f).bytes]

/-- A fetch succeeds if there is room, the disk does what it is asked to, and a page that is there
can take one more pin. -/
theorem Backed.result_fetch (h : w.shard.Kept s capacity w.shard.free) (hdisk : Reliable w.disk)
    (hroom : w.shard.HasRoom) (howns : s.Owns p)
    (hpins : ∀ {f}, w.shard.table[p]? = some f → (w.shard.frame f).pins < Frame.maxPins) :
    ∃ f, (w.fetch s p).result = .ok f := by
  rw [Backed.fetch, if_pos howns]
  cases hp : w.shard.table[p]? with
  | some f =>
    simp only [Backed.pinAgain, if_pos (hpins hp)]
    exact ⟨f, rfl⟩
  | none =>
    have ha := h.acquisition
    obtain ⟨f, hf⟩ := ha.result_ok h hdisk hroom
    have hloaded := Backed.result_load (hdisk.serves ha.serves) p f
    exact ⟨f, by rw [Outcome.andThen_of_ok hf]; exact hloaded⟩

end PageCache
