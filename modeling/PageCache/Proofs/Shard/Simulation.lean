import PageCache.Proofs.Shard.Acquire
import PageCache.Proofs.Shard.Confined
import PageCache.Proofs.Store.Pagewise
import PageCache.Shard.Flush

/-!
# A shard sees of its store only the answers

Let a relation of two kinds of stores be kept by every call on a page of `P`, and let related stores
answer every such call alike (`StoreSimulation`). Then a shard that has to do with no other pages
does over one of them what it does over the other (`Backed.Mirror`): each operation gives the same
answer and leaves the same records, about pages of `P` still, over stores that are related again.

It is of no account what the relation is about. It may leave out what no answer shows, tie a store
to one that keeps a record of the calls, or speak of the pages of `P` only, and then tell that a
shard does not notice what becomes of others. And it may be equality: then all that is said of the
operations is that they keep a shard to its pages.
-/

namespace PageCache

open PageStore (answer after)

/-- Calls on pages of `P` are answered alike by stores that `R` relates, and leave them related. -/
structure StoreSimulation {δ ε : Type} [PageStore δ] [PageStore ε] (P : PageId → Prop)
    (R : δ → ε → Prop) : Prop where
  answer : ∀ {d : δ} {e : ε} {p : PageId}, R d e → P p → ∀ call, answer d p call = answer e p call
  after : ∀ {d : δ} {e : ε} {p : PageId}, R d e → P p → ∀ call, R (after d p call) (after e p call)

/-- A store answers as it does itself. -/
theorem StoreSimulation.eq {δ : Type} [PageStore δ] (P : PageId → Prop) :
    StoreSimulation P (Eq : δ → δ → Prop) :=
  ⟨fun h _ _ => h ▸ rfl, fun h _ _ => h ▸ rfl⟩

/-! ## Outcomes -/

namespace Outcome

variable {σ τ α β : Type} {S : σ → τ → Prop} {o : Outcome σ α} {o' : Outcome τ α}

/-- The same result, and states that are related. -/
structure Mirrors (S : σ → τ → Prop) (o : Outcome σ α) (o' : Outcome τ α) : Prop where
  result : o.result = o'.result
  state : S o.state o'.state

namespace Mirrors

section

variable {R : σ → σ → Prop} {o₁ o₂ o₃ : Outcome σ α}

/-- If the relation goes both ways, so does the mirror. -/
theorem symm (hR : ∀ {s t : σ}, R s t → R t s) (h : Mirrors R o₁ o₂) : Mirrors R o₂ o₁ :=
  ⟨h.result.symm, hR h.state⟩

/-- If the relation can be followed twice, so can the mirror. -/
theorem trans (hR : ∀ {s t u : σ}, R s t → R t u → R s u) (h : Mirrors R o₁ o₂)
    (h' : Mirrors R o₂ o₃) : Mirrors R o₁ o₃ :=
  ⟨h.result.trans h'.result, hR h.state h'.state⟩

end

/-- What is said of the answers makes no difference. -/
theorem map (h : Mirrors S o o') (g : α → β) : Mirrors S (o.map g) (o'.map g) :=
  ⟨congrArg (Except.map g) h.result, h.state⟩

/-- Two chains mirror each other if the first parts do, and the second parts do from related states
on. -/
theorem andThen (h : Mirrors S o o') {next : α → σ → Outcome σ β} {next' : α → τ → Outcome τ β}
    (hnext : ∀ (a : α) {s : σ} {t : τ}, S s t → Mirrors S (next a s) (next' a t)) :
    Mirrors S (o.andThen next) (o'.andThen next') := by
  -- both stop at the same failure, or both go on with the same answer
  cases hresult : o.result with
  | error e =>
    rw [andThen_of_error hresult, andThen_of_error (h.result.symm.trans hresult)]
    exact ⟨rfl, h.state⟩
  | ok a =>
    rw [andThen_of_ok hresult, andThen_of_ok (h.result.symm.trans hresult)]
    obtain ⟨hrest, hstate⟩ := hnext a h.state
    exact ⟨hrest, hstate⟩

end Mirrors

end Outcome

open Outcome (Mirrors)

/-! ## Shards -/

namespace Backed

variable {size : Nat} {α : Type} {δ ε : Type} [PageStore δ] [PageStore ε]
variable {P : PageId → Prop} {R : δ → ε → Prop}
variable {w : Backed size δ} {w' : Backed size ε} {s : Stripe} {p : PageId}

omit [PageStore δ] [PageStore ε] in
/-- The same shard, which has to do with pages of `P` only, over related stores. -/
structure Mirror (P : PageId → Prop) (R : δ → ε → Prop) (w : Backed size δ) (w' : Backed size ε) :
    Prop where
  shard : w.shard = w'.shard
  confined : w.shard.Confined P
  disk : R w.disk w'.disk

omit [PageStore δ] [PageStore ε] in
/-- The shard may change as long as it keeps to the pages of `P`. -/
theorem Mirror.withShard (h : Mirror P R w w') {sh : Shard size} (hsh : sh.Confined P) :
    Mirror P R { w with shard := sh } { w' with shard := sh } :=
  ⟨rfl, hsh, h.disk⟩

omit [PageStore δ] [PageStore ε] in
/-- Nothing is asked of the store. -/
theorem Mirror.still (h : Mirror P R w w') {sh : Shard size} (hsh : sh.Confined P)
    {r : Except Failure α} {events events' : List Event} :
    Mirrors (Mirror P R) ⟨r, { w with shard := sh }, events⟩
      ⟨r, { w' with shard := sh }, events'⟩ :=
  ⟨rfl, h.withShard hsh⟩

omit [PageStore δ] [PageStore ε] in
/-- Nothing is done at all. -/
theorem Mirror.stay (h : Mirror P R w w') {r : Except Failure α} {events events' : List Event} :
    Mirrors (Mirror P R) ⟨r, w, events⟩ ⟨r, w', events'⟩ :=
  ⟨rfl, h⟩

/-- The store is asked about a page of `P`. -/
theorem Mirror.call (h : Mirror P R w w') (hR : StoreSimulation P R) (hp : P p) (call : PageCall) :
    Mirror P R { w with disk := after w.disk p call } { w' with disk := after w'.disk p call } :=
  ⟨h.shard, h.confined, hR.after h.disk hp call⟩

/-- A page is written back by one call, and all that counts is whether that succeeds. -/
theorem writeBack_eq (w : Backed size δ) (p : PageId) (f : Fin size) :
    let call := PageCall.write (w.shard.frame f).bytes
    w.writeBack p f = ⟨(answer w.disk p call).1.mapError fun e => .storage (.io e),
      { w with disk := after w.disk p call }, []⟩ := by
  show w.writeBack p f =
    ⟨(PageStore.write w.disk p (w.shard.frame f).bytes).1.mapError _,
      { w with disk := (PageStore.write w.disk p (w.shard.frame f).bytes).2 }, []⟩
  rcases w.writeBack_cases p f with ⟨disk, hwrite, heq⟩ | ⟨cause, disk, hwrite, heq⟩
  · rw [heq, hwrite]
    rfl
  · rw [heq, hwrite]
    rfl

/-! ### Operations that need no store -/

omit [PageStore δ] [PageStore ε] in
/-- An unpin does the same over related stores, since it asks nothing of them. -/
theorem unpin_mirrors [PageStore δ] [PageStore ε] (h : Mirror P R w w') (s : Stripe) (p : PageId)
    (dirty : Bool) : Mirrors (Mirror P R) (w.unpin s p dirty) (w'.unpin s p dirty) := by
  rw [unpin, unpin, ← h.shard]
  split
  · cases w.shard.table[p]? with
    | none => exact h.stay
    | some f =>
      dsimp only
      split
      · exact h.stay
      · split
        · exact h.still ((h.confined.reframe f _ _ _).track f)
        · exact h.still (h.confined.reframe f _ _ _)
  · exact h.stay

omit [PageStore δ] [PageStore ε] in
/-- To drop a page from its frame asks nothing of the store. -/
theorem discard_mirrors [PageStore δ] [PageStore ε] (h : Mirror P R w w') (p : PageId) :
    Mirrors (Mirror P R) (w.discard p) (w'.discard p) := by
  rw [discard, discard, ← h.shard]
  cases w.shard.table[p]? with
  | none => exact h.stay
  | some f =>
    dsimp only
    split
    · exact h.stay
    · have hgone := (h.confined.erase p).untrack f
      exact h.still ((hgone.setFrame fun hq => absurd hq (by simp [Frame.blank])).withFree _)

omit [PageStore δ] [PageStore ε] in
/-- To pin a resident page asks nothing of the store. -/
theorem pinAgain_mirrors [PageStore δ] [PageStore ε] (h : Mirror P R w w') (f : Fin size) :
    Mirrors (Mirror P R) (w.pinAgain f) (w'.pinAgain f) := by
  rw [pinAgain, pinAgain, ← h.shard]
  dsimp only
  split
  · exact h.still ((h.confined.reframe f _ _ _).untrack f)
  · exact h.stay

omit [PageStore δ] [PageStore ε] in
/-- A new page is put into a frame, and the counter moves on, to a page of `P` again. -/
theorem create_mirrors [PageStore δ] [PageStore ε] (hs : s.Within P) (h : Mirror P R w w')
    (hp : P p) (f : Fin size) : Mirrors (Mirror P R) (w.create s p f) (w'.create s p f) := by
  rw [create, create, ← h.shard]
  split
  · exact h.still ((h.confined.install hp f .zero).withNext (hs.next hp))
  · exact h.still (h.confined.withNext (hs.next hp))

/-! ### Operations on the store -/

variable (hR : StoreSimulation P R)
include hR

/-- A page of `P` is written back over both stores, or over neither. -/
theorem writeBack_mirrors (h : Mirror P R w w') (hp : P p) (f : Fin size) :
    Mirrors (Mirror P R) (w.writeBack p f) (w'.writeBack p f) := by
  have hmirror := (h.call hR hp (.write (w.shard.frame f).bytes)).withShard h.confined
  rw [writeBack_eq, writeBack_eq, ← h.shard, hR.answer h.disk hp]
  exact ⟨rfl, hmirror⟩

/-- The page that is written back lies in a frame of the shard, so it is one of `P`. -/
theorem evict_mirrors (h : Mirror P R w w') (f : Fin size) :
    Mirrors (Mirror P R) (w.evict f) (w'.evict f) := by
  rw [evict, evict, ← h.shard]
  dsimp only
  cases hholds : (w.shard.frame f).holds with
  | none => exact h.still (h.confined.setFrame fun hp => absurd hp (by simp [Frame.released]))
  | some p =>
    cases (w.shard.frame f).dirty with
    | false => exact h.still (h.confined.unmap p f)
    | true =>
      obtain ⟨hresult, hmirror⟩ := writeBack_mirrors hR h (h.confined.holds hholds) f
      simp only [if_true]
      rw [← hresult, ← hmirror.shard]
      -- written or not, the stores are related as the call left them
      cases (w.writeBack p f).result with
      | ok => exact ⟨rfl, hmirror.withShard (hmirror.confined.unmap p f)⟩
      | error e => exact ⟨rfl, hmirror.withShard (hmirror.confined.track f)⟩

/-- The same frame is found over related stores, and the same page has to go for it. -/
theorem acquire_mirrors (h : Mirror P R w w') : Mirrors (Mirror P R) w.acquire w'.acquire := by
  rw [acquire, acquire, ← h.shard]
  cases w.shard.free with
  | cons f free => exact h.still (h.confined.withFree free)
  | nil =>
    cases w.shard.recency.victim with
    | none => exact h.stay
    | some found =>
      obtain ⟨frame, recency⟩ := found
      -- the victim is off the list before anybody knows whether it can go
      have hpopped := h.withShard (h.confined.withRecency recency)
      dsimp only
      split
      · next hframe =>
        obtain ⟨hresult, hmirror⟩ := evict_mirrors hR hpopped ⟨frame, hframe⟩
        exact ⟨hresult, hmirror⟩
      · exact h.still (h.confined.withRecency recency)

/-- A page of `P` is read with the same bytes over both stores, or over neither. -/
theorem load_mirrors (h : Mirror P R w w') (hp : P p) (f : Fin size) :
    Mirrors (Mirror P R) (w.load p f) (w'.load p f) := by
  -- the answer to the read is its result and the bytes it left in the frame
  let call := PageCall.read (w.shard.frame f).bytes
  obtain ⟨hresult, hbuffer⟩ := Prod.mk.inj (hR.answer h.disk hp call)
  have hmirror := h.call hR hp call
  rw [load, load, ← h.shard]
  dsimp only
  rw [← hresult, ← hbuffer]
  cases (PageStore.read w.disk p (w.shard.frame f).bytes).result with
  | ok => exact ⟨rfl, hmirror.withShard (h.confined.install hp f _)⟩
  | error e => exact ⟨rfl, hmirror.withShard ((h.confined.reframe f _ _ _).withFree _)⟩

/-- A fetch does the same over related stores. -/
theorem fetch_mirrors (hs : s.Within P) (h : Mirror P R w w') (p : PageId) :
    Mirrors (Mirror P R) (w.fetch s p) (w'.fetch s p) := by
  rw [fetch, fetch, ← h.shard]
  split
  · -- the page is one of the stripe, so the stores agree about it
    next howns =>
    cases w.shard.table[p]? with
    | none =>
      exact (acquire_mirrors hR h).andThen fun f _ _ h => load_mirrors hR h (hs.owns howns) f
    | some f => exact pinAgain_mirrors h f
  · exact h.stay

/-- A creation does the same over related stores. -/
theorem newPage_mirrors (hs : s.Within P) (h : Mirror P R w w') :
    Mirrors (Mirror P R) (w.newPage s) (w'.newPage s) := by
  rw [newPage, newPage, ← h.shard]
  cases hnext : w.shard.nextId with
  | none => exact h.stay
  | some p =>
    have hp := h.confined.next hnext
    exact (acquire_mirrors hR h).andThen fun f _ _ h => create_mirrors hs h hp f

/-- A deletion does the same over related stores. -/
theorem delete_mirrors (hs : s.Within P) (h : Mirror P R w w') (p : PageId) :
    Mirrors (Mirror P R) (w.delete s p) (w'.delete s p) := by
  rw [delete, delete]
  split
  · next howns =>
    -- the store is told first, and then the shard drops the page or not
    obtain ⟨hresult, hmirror⟩ := discard_mirrors (h.call hR (hs.owns howns) .deallocate) p
    exact ⟨hresult, hmirror⟩
  · exact h.stay

/-! ### Flushes -/

/-- A look at one page finds the same over related stores. -/
theorem tryFlush_mirrors (h : Mirror P R w w') (latched : Fin size → Bool) (p : PageId) :
    Mirrors (Mirror P R) (w.tryFlush latched p) (w'.tryFlush latched p) := by
  rw [tryFlush, tryFlush, ← h.shard]
  cases hp : w.shard.table[p]? with
  | none => exact h.stay
  | some f =>
    dsimp only
    split
    · split
      · exact h.stay
      · -- a dirty page that nobody holds lies in the table, so it is one of `P`
        refine (writeBack_mirrors hR h (h.confined.table hp) f).andThen fun _ v v' h => ?_
        rw [markClean, markClean, ← h.shard]
        exact h.still (h.confined.reframe f _ _ _)
    · exact h.stay

/-- A flush of one page does the same over related stores. -/
theorem flush_mirrors (h : Mirror P R w w') (s : Stripe) (p : PageId) :
    Mirrors (Mirror P R) (w.flush s p) (w'.flush s p) := by
  rw [flush, flush]
  split
  · exact (tryFlush_mirrors hR h noWriter p).map _
  · exact h.stay

/-- A sweep over the same pages finds the same over related stores. -/
theorem sweep_mirrors (h : Mirror P R w w') (latched : Fin size → Bool) (pages : List PageId) :
    Mirrors (Mirror P R) (sweep latched pages w) (sweep latched pages w') := by
  -- page by page, in related states
  induction pages generalizing w w' with
  | nil => exact h.stay
  | cons p pages ih =>
    rw [sweep, sweep]
    refine (tryFlush_mirrors hR h latched p).andThen fun look _ _ h => ?_
    cases look with
    | settled => exact ih h
    | busy => exact (ih h).map _

/-- The pages are visited in the same order, for the tables are the same. -/
theorem flushAll_mirrors (h : Mirror P R w w') (visit : Visit) :
    Mirrors (Mirror P R) (w.flushAll visit) (w'.flushAll visit) := by
  rw [flushAll, flushAll, sweepAll, sweepAll, ← h.shard]
  exact (sweep_mirrors hR h noWriter _).map _

end Backed

end PageCache
