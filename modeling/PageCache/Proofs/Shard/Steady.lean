import PageCache.Proofs.Shard.Acquire
import PageCache.Shard.Flush

/-!
# Operations that break no rule

An operation that meets a broken rule stops with a `Violation`. A shard is `Steady` if what it has
on record cannot lead there: everything its recency list tracks is a frame, the links of the list
are in order, and no frame has more pins than a pin count can tell. Nothing is asked of how the
records fit together, so a shard stays steady even if a page is taken out of the table while it lies
in a frame.

`Backed.Behaves` says of an operation that it leaves the shard steady, and which violations it may
end with. There are two: a page of another stripe was named, or a page was fetched that has all the
pins it can have. A new page gets the next id of the shard, so that one has to be of its stripe.
-/

namespace PageCache

variable {size : Nat} {s : Stripe}

/-! ## Steady shards -/

namespace Recency

/-- The links are in order, and all that is tracked is below `n`. -/
structure Below (r : Recency) (n : Nat) : Prop where
  chained : r.Chained
  lt : ∀ {k}, r.contains k = true → k < n

namespace Below

variable {r : Recency} {n : Nat}

/-- A list that tracks nothing is below any bound. -/
theorem empty (capacity n : Nat) : (Recency.empty capacity).Below n where
  chained := .empty capacity
  lt hk := by simp [Recency.contains, Recency.empty] at hk

/-- A list with one frame less is still below the bound. -/
theorem unlink (h : r.Below n) (k : Nat) : (r.unlink k).Below n where
  chained := h.chained.unlink k
  lt hj := h.lt ((h.chained.contains_unlink k _).mp hj).2

/-- A list may track one more number that is below the bound. -/
theorem track (h : r.Below n) {k : Nat} (hk : k < n) : (r.track k).1.Below n where
  chained := h.chained.track k
  lt hj := by
    rcases h.chained.contains_of_track hj with rfl | hj
    · exact hk
    · exact h.lt hj

/-- The victim is below the bound, and so is what is left. -/
theorem victim (h : r.Below n) {k : Nat} {rest : Recency} (hv : r.victim = some (k, rest)) :
    k < n ∧ rest.Below n := by
  obtain ⟨hk, rfl⟩ := h.chained.victim_eq_some hv
  exact ⟨h.lt hk, h.unlink k⟩

end Below

end Recency

namespace Shard

/-- The recency list names frames and is in order, and every pin count can be told. -/
structure Steady (sh : Shard size) : Prop where
  recency : sh.recency.Below size
  pins : ∀ f, (sh.frame f).pins ≤ Frame.maxPins

namespace Steady

variable {sh : Shard size} {f : Fin size} {frame : Frame} {p : PageId}

/-- A shard to which nothing has happened is steady, whatever its list has room for. -/
theorem fresh (s : Stripe) (capacity : Nat) :
    ({ Shard.fresh s size with recency := .empty capacity } : Shard size).Steady where
  recency := .empty capacity size
  pins f := by
    show ((Shard.fresh s size).frame f).pins ≤ Frame.maxPins
    rw [frame_fresh]
    exact Nat.zero_le _

/-- Nothing counts of a frame but its pins. -/
theorem setFrame (h : sh.Steady) (f : Fin size) (hpins : frame.pins ≤ Frame.maxPins) :
    (sh.setFrame f frame).Steady where
  recency := h.recency
  pins g := by
    rw [frame_setFrame]
    split
    · exact hpins
    · exact h.pins g

/-- Free list, table and counter do not count at all. -/
theorem withRecords (h : sh.Steady) (table : Std.ExtTreeMap PageId (Fin size))
    (free : List (Fin size)) (nextId : Option PageId) :
    ({ sh with table, free, nextId } : Shard size).Steady :=
  ⟨h.recency, h.pins⟩

/-- A page that leaves its frame leaves a frame without pins. -/
theorem unmap (h : sh.Steady) (p : PageId) (f : Fin size) : (sh.unmap p f).Steady := by
  have hreleased : (sh.setFrame f (sh.frame f).released).Steady := h.setFrame f (Nat.zero_le _)
  exact hreleased.withRecords ..

/-- A page that is installed has one pin. -/
theorem install (h : sh.Steady) (p : PageId) (f : Fin size) (bytes : Page) :
    (sh.install p f bytes).Steady := by
  have hone : (Frame.holding p bytes).pins ≤ Frame.maxPins := show 1 ≤ Frame.maxPins by decide
  exact (h.setFrame f hone).withRecords ..

/-- Another list will do, if it names frames and is in order. -/
theorem withRecency (h : sh.Steady) {recency : Recency} (hrecency : recency.Below size) :
    ({ sh with recency } : Shard size).Steady :=
  ⟨hrecency, h.pins⟩

/-- A frame of the shard may be tracked. -/
theorem track (h : sh.Steady) (f : Fin size) : (sh.track f).1.Steady :=
  h.withRecency (h.recency.track f.isLt)

/-- A frame may be taken off the list. -/
theorem untrack (h : sh.Steady) (f : Fin size) : (sh.untrack f).1.Steady := by
  rw [untrack_fst]
  exact h.withRecency (h.recency.unlink f.val)

end Steady

end Shard

/-! ## The operations -/

namespace Backed

variable {δ : Type} [PageStore δ] {w : Backed size δ} {α β : Type} {V V' : Violation → Prop}

omit [PageStore δ] in
/-- The shard is steady afterwards, and if a rule was broken it was as `V` says. -/
structure Behaves (V : Violation → Prop) (o : Outcome (Backed size δ) α) : Prop where
  steady : o.state.shard.Steady
  broken : ∀ {v}, o.result = .error (.violation v) → V v

namespace Behaves

variable {o : Outcome (Backed size δ) α}

omit [PageStore δ]

/-- What is allowed to be broken may be more. -/
theorem mono (h : Behaves V o) (hV : ∀ {v}, V v → V' v) : Behaves V' o :=
  ⟨h.steady, fun hv => hV (h.broken hv)⟩

/-- An operation that succeeds breaks no rule. -/
theorem ok {a : α} {events : List Event} (hw : w.shard.Steady) :
    Behaves V ⟨.ok a, w, events⟩ :=
  ⟨hw, fun hv => absurd hv (by simp)⟩

/-- A failure callers are expected to handle. -/
theorem storage {e : StorageError} {events : List Event} (hw : w.shard.Steady) :
    Behaves V (⟨.error (.storage e), w, events⟩ : Outcome (Backed size δ) α) :=
  ⟨hw, fun hv => absurd hv (by simp)⟩

/-- A rule was broken, and it was an allowed one. -/
theorem violation {v : Violation} {events : List Event} (hw : w.shard.Steady) (hv : V v) :
    Behaves V (⟨.error (.violation v), w, events⟩ : Outcome (Backed size δ) α) :=
  ⟨hw, fun hv' => Failure.violation.inj (Except.error.inj hv') ▸ hv⟩

/-- What is made of the result breaks no rule. -/
theorem map (h : Behaves V o) (g : α → β) : Behaves V (o.map g) :=
  ⟨h.steady, fun hv => h.broken (Outcome.result_map_eq_error_iff.mp hv)⟩

/-- One operation after the other breaks no rule but what each of them may break. -/
theorem andThen (h : Behaves V o) {next : α → Backed size δ → Outcome (Backed size δ) β}
    (hnext : ∀ (a : α) {w' : Backed size δ}, w'.shard.Steady → Behaves V (next a w')) :
    Behaves V (o.andThen next) := by
  cases hresult : o.result with
  -- the first operation failed, so what was broken was broken by it
  | error e =>
    rw [Outcome.andThen_of_error hresult]
    exact ⟨h.steady, fun hv => h.broken (hresult.trans (congrArg _ (Except.error.inj hv)))⟩
  | ok a =>
    rw [Outcome.andThen_of_ok hresult]
    obtain ⟨hsteady, hbroken⟩ := hnext a h.steady
    exact ⟨hsteady, hbroken⟩

end Behaves

/-- No rule is broken. -/
abbrev Never : Violation → Prop :=
  fun _ => False

/-- A page is written, or the disk refuses it; no rule is broken. -/
theorem writeBack_behaves (h : w.shard.Steady) (p : PageId) (f : Fin size) :
    Behaves Never (w.writeBack p f) := by
  rcases w.writeBack_cases p f with ⟨disk, -, heq⟩ | ⟨cause, disk, -, heq⟩
  · rw [heq]
    exact .ok h
  · rw [heq]
    exact .storage h

/-- An eviction breaks no rule; a victim that cannot be written is tracked again. -/
theorem evict_behaves (h : w.shard.Steady) (f : Fin size) : Behaves Never (w.evict f) := by
  rw [evict]
  dsimp only
  cases (w.shard.frame f).holds with
  | none => exact .ok (h.setFrame f (Nat.zero_le _))
  | some p =>
    cases (w.shard.frame f).dirty with
    | false => exact .ok (h.unmap p f)
    -- dirty: written first, and kept if that fails
    | true =>
      simp only [if_true]
      rcases w.writeBack_cases p f with ⟨disk, -, heq⟩ | ⟨cause, disk, -, heq⟩
      · rw [heq]
        exact .ok (h.unmap p f)
      · rw [heq]
        exact .storage (h.track f)

/-- Every frame that is found is one, and so is every victim. -/
theorem acquire_behaves (h : w.shard.Steady) : Behaves Never w.acquire := by
  rw [acquire]
  cases w.shard.free with
  | cons f free => exact .ok (h.withRecords ..)
  | nil =>
    cases hvictim : w.shard.recency.victim with
    | none => exact .storage h
    | some found =>
      obtain ⟨k, recency⟩ := found
      obtain ⟨hk, hrecency⟩ := h.recency.victim hvictim
      dsimp only
      rw [dif_pos hk]
      obtain ⟨hsteady, hbroken⟩ :=
        evict_behaves (w := { w with shard := { w.shard with recency } }) (h.withRecency hrecency)
          ⟨k, hk⟩
      exact ⟨hsteady, hbroken⟩

/-- Loading a page breaks no rule; a frame that cannot be filled is wiped and is free again. -/
theorem load_behaves (h : w.shard.Steady) (p : PageId) (f : Fin size) :
    Behaves Never (w.load p f) := by
  rw [load]
  dsimp only
  cases (PageStore.read w.disk p (w.shard.frame f).bytes).result with
  | ok => exact .ok (h.install p f _)
  | error e =>
    have hwiped : (w.shard.setFrame f { w.shard.frame f with bytes := .zero }).Steady :=
      h.setFrame f (h.pins f)
    exact .storage (hwiped.withRecords ..)

/-- A fetch breaks a rule only if the page is another shard's, or has all the pins it can have. -/
theorem fetch_behaves (h : w.shard.Steady) (p : PageId) :
    Behaves (fun _ => s.Owns p → w.shard.pinCount? p = some Frame.maxPins) (w.fetch s p) := by
  rw [fetch]
  split
  · next hp =>
    cases hplace : w.shard.table[p]? with
    | none =>
      refine Behaves.mono (V := Never) ?_ False.elim
      exact (acquire_behaves h).andThen fun f _ h => load_behaves h p f
    | some f =>
      dsimp only
      rw [pinAgain]
      dsimp only
      split
      · next hpins =>
        have hpinned : (w.shard.setFrame f { w.shard.frame f with
            pins := (w.shard.frame f).pins + 1 }).Steady := h.setFrame f hpins
        exact .ok (hpinned.untrack f)
      · -- the page has all the pins it can have: the count cannot be told
        next hpins =>
        refine .violation h fun _ => ?_
        rw [Shard.pinCount?, hplace, Option.map_some]
        exact congrArg some (Nat.le_antisymm (h.pins f) (Nat.not_lt.mp hpins))
  · next hp => exact .violation h fun howns => absurd howns hp

/-- A creation breaks a rule only if the next id is one of another shard. -/
theorem newPage_behaves (h : w.shard.Steady) :
    Behaves (fun _ => ∃ p, w.shard.nextId = some p ∧ ¬ s.Owns p) (w.newPage s) := by
  rw [newPage]
  cases hnext : w.shard.nextId with
  | none => exact .storage h
  | some p =>
    refine ((acquire_behaves h).mono False.elim).andThen fun f v h => ?_
    rw [create]
    -- the id is checked against the stripe once a frame was had for it
    split
    · exact .ok ((h.install p f .zero).withRecords ..)
    · next howns => exact .violation (h.withRecords ..) ⟨p, rfl, howns⟩

omit [PageStore δ] in
/-- Unpinning breaks a rule only if the page is another shard's. -/
theorem unpin_behaves (h : w.shard.Steady) (p : PageId) (dirty : Bool) :
    Behaves (fun _ => ¬ s.Owns p) (w.unpin s p dirty) := by
  rw [unpin]
  split
  · cases w.shard.table[p]? with
    | none => exact .ok h
    | some f =>
      have hpins : (w.shard.frame f).pins - 1 ≤ Frame.maxPins := by
        have := h.pins f
        omega
      dsimp only
      split
      · -- there was no pin to take
        exact .ok h
      · split
        · exact .ok ((h.setFrame f hpins).track f)
        · exact .ok (h.setFrame f hpins)
  · next hp => exact .violation h hp

/-- Deleting breaks a rule only if the page is another shard's. -/
theorem delete_behaves (h : w.shard.Steady) (p : PageId) :
    Behaves (fun _ => ¬ s.Owns p) (w.delete s p) := by
  rw [delete]
  split
  · -- the disk is told first, whatever becomes of the page
    dsimp only
    rw [discard]
    dsimp only
    cases w.shard.table[p]? with
    | none => exact .ok h
    | some f =>
      dsimp only
      split
      · exact .ok h
      · exact .ok ((((h.withRecords ..).untrack f).setFrame f (Nat.zero_le _)).withRecords ..)
  · next hp => exact .violation h hp

/-- A look at one page breaks no rule, whoever holds latches. -/
theorem tryFlush_behaves (h : w.shard.Steady) (latched : Fin size → Bool) (p : PageId) :
    Behaves Never (w.tryFlush latched p) := by
  rw [tryFlush]
  cases w.shard.table[p]? with
  | none => exact .ok h
  | some f =>
    dsimp only
    split
    · split
      · exact .ok h
      · exact (writeBack_behaves h p f).andThen fun _ w' h =>
          .ok (h.setFrame f (h.pins f))
    · exact .ok h

/-- A flush breaks a rule only if the page is another shard's. -/
theorem flush_behaves (h : w.shard.Steady) (p : PageId) :
    Behaves (fun _ => ¬ s.Owns p) (w.flush s p) := by
  rw [flush]
  split
  · exact ((tryFlush_behaves h noWriter p).map _).mono False.elim
  · next hp => exact .violation h hp

/-- A sweep breaks no rule, whichever pages it is to visit. -/
theorem sweep_behaves (h : w.shard.Steady) (latched : Fin size → Bool) (pages : List PageId) :
    Behaves Never (sweep latched pages w) := by
  -- page by page; a busy page is only noted
  induction pages generalizing w with
  | nil => exact .ok h
  | cons p pages ih =>
    rw [sweep]
    refine (tryFlush_behaves h latched p).andThen fun look _ h => ?_
    cases look with
    | settled => exact ih h
    | busy => exact (ih h).map _

/-- A flush of everything breaks no rule. -/
theorem flushAll_behaves (h : w.shard.Steady) (visit : Visit) :
    Behaves Never (w.flushAll visit) :=
  (sweep_behaves h noWriter _).map _

end Backed

end PageCache
