import PageCache.Client.Held
import PageCache.Proofs.Flusher.Race
import PageCache.Proofs.Shard.Cases
import PageCache.Proofs.Shard.Moves

/-!
# A flush of one page is one step

A flush of a page may look at the page many times before it gets to write it, and the page may be
anywhere by then. Only the last look counts (`flush_linearizes`): up to it the pool and the
disk are as the others leave them, then they change as they do by `Backed.flush`, all at once, and
afterwards it is the others again. The proof follows the turns. A look either ends the flush, and
then it did what `Backed.flush` does (`Backed.tryFlush_noWriter`), or it finds a writer, and then it
did nothing (`Backed.tryFlush_busy`).
-/

namespace PageCache

/-! ## One look -/

namespace Backed

variable {size : Nat} {δ : Type} [PageStore δ] {w : Backed size δ} {p : PageId} {f : Fin size}
variable {latched : Fin size → Bool}

/-- A look that finds a writer changes nothing. -/
theorem tryFlush_busy (h : (w.tryFlush latched p).result = .ok (.busy f)) :
    (w.tryFlush latched p).state = w ∧ w.shard.table[p]? = some f ∧
      (w.shard.frame f).dirty = true ∧ latched f = true := by
  have hlooked := w.looked latched p
  rw [h] at hlooked
  generalize (w.tryFlush latched p).state = w' at hlooked
  cases hlooked with
  | busy hp hdirty hlatched => exact ⟨rfl, hp, hdirty, hlatched⟩

/-- A look that finds no writer does what it would do if there were none at all. -/
theorem tryFlush_noWriter (h : ∀ f, (w.tryFlush latched p).result ≠ .ok (.busy f)) :
    w.tryFlush noWriter p = w.tryFlush latched p := by
  unfold tryFlush at h ⊢
  split
  · rfl
  next g hp =>
  simp only [hp] at h
  split
  swap
  · rfl
  next hdirty =>
  have hfree : latched g = false := by
    rw [← Bool.not_eq_true]
    intro hlatched
    apply h g
    simp only [hdirty, hlatched, if_true]
    rfl
  rw [hfree]
  rfl

theorem tryFlush_latched (hp : w.shard.table[p]? = some f)
    (hdirty : (w.shard.frame f).dirty = true) (hlatched : latched f = true) :
    (w.tryFlush latched p).result = .ok (.busy f) := by
  unfold tryFlush
  simp only [hp, hdirty, hlatched, if_true]
  rfl

/-- The bytes that a flush of a dirty page writes are those of the frame it lies in. -/
theorem disk_flush {s : Stripe} (howns : s.Owns p) (hp : w.shard.table[p]? = some f)
    (hdirty : (w.shard.frame f).dirty = true) :
    (w.flush s p).state.disk = (PageStore.write w.disk p (w.shard.frame f).bytes).2 := by
  have hflush : (w.flush s p).state = (w.tryFlush noWriter p).state := by
    rw [flush, if_pos howns]
    rfl
  have hfree : noWriter f = false := rfl
  rw [hflush, tryFlush]
  simp only [hp, hdirty, hfree, if_true, Bool.false_eq_true, if_false]
  rcases w.writeBack_cases p f with ⟨disk, hwrite, heq⟩ | ⟨cause, disk, hwrite, heq⟩
  · rw [heq, hwrite]
    rfl
  · rw [heq, hwrite]
    rfl

end Backed

/-! ## All looks but the last -/

variable {l : Layout} {size : Nat} {δ : Type} [PageStore δ]
variable {i : Fin l.width} {p : PageId} {t t' : Shared l size δ} {result : Except Failure Bool}
variable {turns : List (Turn l size)}

namespace System

/-- An atomic flush is a look that finds no writer. -/
theorem onShard_flush (howns : (l.stripe i).Owns p) (w : System l size δ) :
    (w.onShard i fun s b => b.flush s p) =
      (w.onShard i fun _ b => b.tryFlush Backed.noWriter p).map Look.resident := by
  show (w.onShard i fun s b => b.flush s p) =
    w.onShard i fun _ b => (b.tryFlush Backed.noWriter p).map Look.resident
  refine onShard_congr ?_
  rw [Backed.flush, if_pos howns]

end System

namespace Shared

/-- Page `p` is flushed, at once. -/
def flushed (t : Shared l size δ) (i : Fin l.width) (p : PageId) : Shared l size δ :=
  { t with system := (t.system.onShard i fun s b => b.flush s p).state }

end Shared

/-- A flush of page `p` that has not come to its end. -/
inductive Flusher.At (i : Fin l.width) (p : PageId) : Flusher l size → Prop
  | ready (resident : Bool) : Flusher.At i p (.ready resident [.page i p])
  | waiting (f : Fin size) : Flusher.At i p (.waiting i f [.page i p])

namespace Race

/-- The flush of page `p` that is over after `turns` comes to what one atomic flush does that takes
place between `before` and `after`. -/
structure Linearizes (i : Fin l.width) (p : PageId) (r : Race l size δ) (turns : List (Turn l size))
    (t' : Shared l size δ) (result : Except Failure Bool) (before after : List (Turn l size))
    (now : Shared l size δ) : Prop where
  split : turns = before ++ .flusher :: after
  last : Turn.flusher ∉ after
  /-- There the flush takes the lock for the last time. -/
  reached : ∃ resident, run? before r = some ⟨now, .ready resident [.page i p]⟩
  /-- What it did before has changed nothing. -/
  before : r.shared.acts? (Turn.others before) = some now
  result : result = (now.system.onShard i fun s b => b.flush s p).result
  after : (now.flushed i p).acts? (Turn.others after) = some t'
  /-- If there is something to write, these are the bytes, and nobody is changing them. -/
  written : ∀ {f : Fin size}, (now.system.pool.shard i).table[p]? = some f →
    ((now.system.pool.shard i).frame f).dirty = true →
      now.latched i f = false ∧
      (now.flushed i p).system.disk =
        (PageStore.write now.system.disk p ((now.system.pool.shard i).frame f).bytes).2

variable {result' : Except Failure Bool} {r r' : Race l size δ}

/-- When the flush is over, the others have all the turns. -/
theorem acts?_of_ended (h : run? turns ⟨t, .ended result⟩ = some ⟨t', .ended result'⟩) :
    Turn.flusher ∉ turns ∧ result' = result ∧ t.acts? (Turn.others turns) = some t' := by
  induction turns generalizing t with
  | nil =>
    have heq := Option.some.inj h
    injection heq with hshared hflusher
    injection hflusher with hresult
    exact ⟨List.not_mem_nil, hresult.symm, congrArg some hshared⟩
  | cons turn turns ih =>
    cases turn with
    | flusher => exact absurd h (by simp [run?, turn?, flush?])
    | other a =>
      rw [run?_other] at h
      obtain ⟨t₁, hact, hrest⟩ := Option.bind_eq_some_iff.mp h
      obtain ⟨hlast, hresult, hacts⟩ := ih hrest
      refine ⟨?_, hresult, ?_⟩
      · rw [List.mem_cons, not_or]
        exact ⟨by simp, hlast⟩
      · rw [Turn.others, Shared.acts?, hact]
        exact hacts

/-! ## The last look -/

/-- A look that is not kept waiting is an atomic flush. -/
theorem work_page (howns : (l.stripe i).Owns p) (t : Shared l size δ) :
    (∃ f, work t [] (.page i p) = ⟨t, .waiting i f [.page i p]⟩) ∨
      (∀ f, ((t.system.backed i).tryFlush (t.latched i) p).result ≠ .ok (.busy f)) ∧
      work t [] (.page i p) =
        ⟨t.flushed i p, .ended (t.system.onShard i fun s b => b.flush s p).result⟩ := by
  by_cases hbusy : ∃ f, ((t.system.backed i).tryFlush (t.latched i) p).result = .ok (.busy f)
  · left
    obtain ⟨f, hf⟩ := hbusy
    have hsame : (t.system.onShard i fun _ b => b.tryFlush (t.latched i) p).state = t.system :=
      System.onShard_self (Backed.tryFlush_busy hf).1
    have hresult : (t.system.onShard i fun _ b => b.tryFlush (t.latched i) p).result =
        .ok (.busy f) := hf
    refine ⟨f, ?_⟩
    simp only [work, hsame, hresult]
    rfl
  · right
    rw [not_exists] at hbusy
    -- nobody is in the way, so the look is what it would be without latches
    have hlook : (t.system.onShard i fun s b => b.flush s p) =
        (t.system.onShard i fun _ b => b.tryFlush (t.latched i) p).map Look.resident := by
      rw [System.onShard_flush howns]
      exact congrArg (Outcome.map Look.resident)
        (System.onShard_congr (Backed.tryFlush_noWriter hbusy))
    refine ⟨hbusy, ?_⟩
    simp only [work, Shared.flushed, hlook, Outcome.state_map, Outcome.result_map]
    cases hresult : (t.system.onShard i fun _ b => b.tryFlush (t.latched i) p).result with
    | error e => rfl
    | ok look =>
      cases look with
      | settled resident => rfl
      | busy f => exact absurd hresult (hbusy f)

namespace Linearizes

variable {before after : List (Turn l size)} {now : Shared l size δ} {place : Flusher l size}

/-- Somebody else moves first. -/
theorem other {a : Act l size} {t₁ : Shared l size δ} (hact : t.act? a = some t₁)
    (h : Linearizes i p ⟨t₁, place⟩ turns t' result before after now) :
    Linearizes i p ⟨t, place⟩ (.other a :: turns) t' result (.other a :: before) after now := by
  obtain ⟨resident, hreached⟩ := h.reached
  exact
    { h with
      split := congrArg (List.cons _) h.split
      reached := ⟨resident, by rw [run?_other, hact]; exact hreached⟩
      before := by
        rw [Turn.others, Shared.acts?, hact]
        exact h.before }

/-- The flush moves first, and changes nothing. -/
theorem idle {place' : Flusher l size} (hmove : flush? ⟨t, place⟩ = some ⟨t, place'⟩)
    (h : Linearizes i p ⟨t, place'⟩ turns t' result before after now) :
    Linearizes i p ⟨t, place⟩ (.flusher :: turns) t' result (.flusher :: before) after now := by
  obtain ⟨resident, hreached⟩ := h.reached
  exact
    { h with
      split := congrArg (List.cons _) h.split
      reached := ⟨resident, by rw [run?, turn?, hmove]; exact hreached⟩
      before := h.before }

/-- The flush looks for the last time, and then there are only the others. -/
theorem settled (howns : (l.stripe i).Owns p) {resident : Bool}
    (hbusy : ∀ f, ((t.system.backed i).tryFlush (t.latched i) p).result ≠ .ok (.busy f))
    (hwork : work t [] (.page i p) =
      ⟨t.flushed i p, .ended (t.system.onShard i fun s b => b.flush s p).result⟩)
    (hrun : run? turns (work t [] (.page i p)) = some ⟨t', .ended result⟩) :
    Linearizes i p ⟨t, .ready resident [.page i p]⟩ (.flusher :: turns) t' result [] turns t := by
  rw [hwork] at hrun
  obtain ⟨hlast, hresult, hacts⟩ := acts?_of_ended hrun
  refine ⟨rfl, hlast, ⟨resident, rfl⟩, rfl, hresult, hacts, fun {f} hp hdirty => ⟨?_, ?_⟩⟩
  · rw [← Bool.not_eq_true]
    intro hlatched
    exact hbusy f (Backed.tryFlush_latched hp hdirty hlatched)
  · exact Backed.disk_flush howns hp hdirty

end Linearizes

/-- There is a last look, and the flush is what it does. -/
theorem linearizes_of_at (howns : (l.stripe i).Owns p) (hat : r.flusher.At i p)
    (hrun : run? turns r = some ⟨t', .ended result⟩) :
    ∃ before after now, Linearizes i p r turns t' result before after now := by
  induction turns generalizing r with
  | nil =>
    exfalso
    obtain rfl := Option.some.inj hrun
    cases hat
  | cons turn turns ih =>
    obtain ⟨t, place⟩ := r
    cases turn with
    | other a =>
      rw [run?_other] at hrun
      obtain ⟨t₁, hact, hrest⟩ := Option.bind_eq_some_iff.mp hrun
      obtain ⟨before, after, now, h⟩ := ih (r := ⟨t₁, place⟩) hat hrest
      exact ⟨_, after, now, h.other hact⟩
    | flusher =>
      rw [run?, turn?] at hrun
      obtain ⟨r₁, hmove, hrest⟩ := Option.bind_eq_some_iff.mp hrun
      cases hat with
      | waiting f =>
        -- the writer has let go, and the flush starts over
        unfold flush? at hmove
        simp only at hmove
        split at hmove
        · exact absurd hmove (by simp)
        next hfree =>
        obtain rfl := Option.some.inj hmove
        obtain ⟨before, after, now, h⟩ := ih (.ready true) hrest
        exact ⟨_, after, now, h.idle (by unfold flush?; simp [hfree])⟩
      | ready resident =>
        obtain rfl := Option.some.inj hmove
        rcases work_page howns t with ⟨f, hwork⟩ | ⟨hbusy, hwork⟩
        · -- the look found a writer
          rw [hwork] at hrest
          obtain ⟨before, after, now, h⟩ := ih (.waiting f) hrest
          exact ⟨_, after, now, h.idle (congrArg some hwork)⟩
        · exact ⟨_, _, _, .settled howns hbusy hwork hrest⟩

end Race

/-! ## A flush beside the writer that it waits for -/

namespace System

variable {w : System l size δ} {latched : Latches l size}

/-- A flush does not get past a page that a writer has. -/
theorem advance_latched (resident : Bool) {f : Fin size}
    (hp : (w.pool.shard i).table[p]? = some f) (hdirty : ((w.pool.shard i).frame f).dirty = true)
    (hlatched : latched i f = true) :
    (w.advance latched resident [.page i p]).result = .ok (.waiting [.page i p]) ∧
      (w.advance latched resident [.page i p]).state = w := by
  have hbusy : ((w.backed i).tryFlush (latched i) p).result = .ok (.busy f) :=
    Backed.tryFlush_latched hp hdirty hlatched
  obtain ⟨hresult, hstate⟩ := lookAt_eq latched i p w
  rw [advance, Outcome.andThen_of_ok (hresult.trans hbusy)]
  exact ⟨rfl, hstate.trans (onShard_self (Backed.tryFlush_busy hbusy).1)⟩

/-- With no writer about, a flush gets to its end at once. -/
theorem advance_noWriter (howns : (l.stripe i).Owns p) (resident : Bool) :
    (w.advance (fun _ _ => false) resident [.page i p]).result =
        (w.onShard i fun s b => b.flush s p).result.map .finished ∧
      (w.advance (fun _ _ => false) resident [.page i p]).state =
        (w.onShard i fun s b => b.flush s p).state := by
  obtain ⟨hresult, hstate⟩ := lookAt_eq (fun _ _ => false) i p w
  rw [onShard_flush howns, advance]
  cases hlook : ((w.backed i).tryFlush Backed.noWriter p).result with
  | error e =>
    have hflush : (w.onShard i fun _ b => b.tryFlush Backed.noWriter p).result = .error e := hlook
    rw [Outcome.andThen_of_error (hresult.trans hlook), Outcome.result_map, hflush]
    exact ⟨rfl, hstate⟩
  | ok look =>
    have hflush : (w.onShard i fun _ b => b.tryFlush Backed.noWriter p).result = .ok look := hlook
    rw [Outcome.andThen_of_ok (hresult.trans hlook), Outcome.result_map, hflush]
    cases look with
    | settled found => exact ⟨rfl, hstate⟩
    | busy f => exact absurd hlook (Backed.result_tryFlush_noWriter _ p f)

end System

namespace Client

variable {c : Client l size}

/-- The steps `during`, the edits, and then a flush. -/
def flushAfter (c : Client l size) (scope : Scope l) (h : Handle l size) (during : List Step)
    (edits : List Edit) : List (Except Failure Reply) × Outcome (Client l size) Bool :=
  let taken := takeAll during c
  (taken.1, (taken.2.1.editFrame h edits).flush scope h.page)

theorem heldChores_page {scope : Scope l} {h : Handle l size}
    (hscope : scope = .whole ∨ scope = .only h.shard) (howns : (l.stripe h.shard).Owns h.page) :
    heldChores scope h .page = .ok [.page h.shard h.page] := by
  rcases hscope with rfl | rfl
  · unfold heldChores
    simp only [Layout.route_eq_of_owns howns, if_pos howns]
  · unfold heldChores
    simp only [if_pos howns]

/-- The shard of the page is asked, whichever way the flush is addressed. -/
theorem flush_eq_lift {scope : Scope l} {h : Handle l size}
    (hscope : scope = .whole ∨ scope = .only h.shard) (howns : (l.stripe h.shard).Owns h.page)
    (c : Client l size) : c.flush scope h.page =
      c.lift (c.system.onShard h.shard fun s b => b.flush s h.page) := by
  rcases hscope with rfl | rfl
  · unfold flush System.flush
    rw [Layout.route_eq_of_owns howns]
  · rfl

/-- The flush of a dirty page that is in the client's own hands. -/
theorem flushHeld_page {scope : Scope l} {h : Handle l size}
    (hscope : scope = .whole ∨ scope = .only h.shard) (howns : (l.stripe h.shard).Owns h.page)
    (hp : (c.system.pool.shard h.shard).table[h.page]? = some h.frame)
    (hdirty : ((c.system.pool.shard h.shard).frame h.frame).dirty = true)
    (during : List Step) (edits : List Edit) :
    (c.flushHeld scope .page h during edits).1 =
        .flushHeld (c.flushAfter scope h during edits).1
          (c.flushAfter scope h during edits).2.result ∧
      (c.flushHeld scope .page h during edits).2.1 =
        (c.flushAfter scope h during edits).2.state := by
  let held : Latches l size := fun i f => i = h.shard && f = h.frame
  have hheld : held h.shard h.frame = true := by simp [held]
  -- the flush stops at the client's own latch, and nothing has happened
  obtain ⟨hwaits, hsame⟩ :=
    System.advance_latched (w := c.system) true hp hdirty hheld
  have hstart : (c.lift (c.system.advance held true [.page h.shard h.page])).state = c := by
    show { c with system := _ } = c
    rw [hsame]
  have hstopped : (c.lift (c.system.advance held true [.page h.shard h.page])).result =
      .ok (.waiting [.page h.shard h.page]) := hwaits
  simp only [held] at hstart hstopped
  unfold flushHeld flushAfter
  simp only [heldChores_page hscope howns, hstart, hstopped]
  rcases takeAll during c with ⟨results, c', between⟩
  obtain ⟨hresult, hstate⟩ :=
    System.advance_noWriter (w := (c'.editFrame h edits).system) howns true
  simp only [flush_eq_lift hscope howns, lift, Outcome.result_inside, Outcome.state_inside, hresult,
    hstate]
  refine ⟨?_, trivial⟩
  cases ((c'.editFrame h edits).system.onShard h.shard fun s b => b.flush s h.page).result <;> rfl

end Client

/-! ## Flushes are atomic -/

/-- In every race a flush that returns has the effect of an atomic one at its last look; and the
flush of a dirty page in the hands of the client that started it comes after all that the client
still did. -/
theorem flush_linearizes (l : Layout) (size : Nat) :
    (∀ {δ : Type} [PageStore δ] {i : Fin l.width} {p : PageId} {t t' : Shared l size δ}
      {turns : List (Turn l size)} {result : Except Failure Bool}, (l.stripe i).Owns p →
        Race.run? turns ⟨t, .ready true [.page i p]⟩ = some ⟨t', .ended result⟩ →
        ∃ before after now,
          Race.Linearizes i p ⟨t, .ready true [.page i p]⟩ turns t' result before after now) ∧
    ∀ {c : Client l size} {scope : Scope l} {h : Handle l size},
      scope = .whole ∨ scope = .only h.shard → (l.stripe h.shard).Owns h.page →
      (c.system.pool.shard h.shard).table[h.page]? = some h.frame →
      ((c.system.pool.shard h.shard).frame h.frame).dirty = true →
      ∀ (during : List Step) (edits : List Edit),
        (c.flushHeld scope .page h during edits).1 =
            .flushHeld (c.flushAfter scope h during edits).1
              (c.flushAfter scope h during edits).2.result ∧
          (c.flushHeld scope .page h during edits).2.1 =
            (c.flushAfter scope h during edits).2.state := by
  constructor
  · intro δ _ i p t t' turns result howns hrun
    exact Race.linearizes_of_at howns (.ready true) hrun
  · intro c scope h hscope howns hp hdirty during edits
    exact Client.flushHeld_page hscope howns hp hdirty during edits

/-- Page `0` is dirty in frame `0` and has a writer when its flush begins. By the time the flush
looks again the page has been evicted, and has come back to frame `1`, where it was changed. -/
def Turn.wandering (i : Fin (Layout.alone .whole).width) : List (Turn (.alone .whole) 2) :=
  [.other (.ask i .newPage), .other (.latch i 0), .other (.ask i (.unpin ⟨0, by decide⟩ true)),
    .flusher,
    .other (.ask i .newPage), .other (.ask i (.reach 0 fun _ => .fill 1)), .other (.release i 0),
    .other (.ask i (.unpin ⟨1, by decide⟩ false)), .other (.ask i .newPage),
    .other (.ask i (.fetch ⟨0, by decide⟩)), .other (.latch i 1),
    .other (.ask i (.reach 1 fun _ => .fill 2)), .other (.release i 1),
    .other (.ask i (.unpin ⟨0, by decide⟩ true)),
    .flusher, .flusher]

/-- The flush of a page that wanders writes what its last frame has; and a client that flushes a
dirty page with its own hand on it goes on first. -/
theorem flush_linearizes_two_frames :
    (∃ t' : Shared (.alone .whole) 2 Disk,
      (∃ before after now, Race.Linearizes (Layout.first _) ⟨0, by decide⟩
        ⟨.unlatched ⟨.fresh _ 2, .onMedium (.memory .empty)⟩,
          .ready true [.page (Layout.first _) ⟨0, by decide⟩]⟩
        (Turn.wandering (Layout.first _)) t' (.ok true) before after now) ∧
      t'.system.disk.medium.writtenBytes? ⟨0, by decide⟩ = some (.fill 2)) ∧
    ∃ (c : Client (.alone .whole) 2) (h : Handle (.alone .whole) 2),
      (c.flushHeld .whole .page h [⟨none, .unpin h.page false⟩] [.fill 1]).1 =
        .flushHeld [.ok (.truth true)] (.ok true) := by
  constructor
  · have hrun : ∃ t' : Shared (.alone .whole) 2 Disk,
        Race.run? (Turn.wandering (Layout.first _))
          ⟨.unlatched ⟨.fresh _ 2, .onMedium (.memory .empty)⟩,
            .ready true [.page (Layout.first _) ⟨0, by decide⟩]⟩ = some ⟨t', .ended (.ok true)⟩ ∧
        t'.system.disk.medium.writtenBytes? ⟨0, by decide⟩ = some (.fill 2) := ⟨_, rfl, rfl⟩
    obtain ⟨t', hrun, hbytes⟩ := hrun
    exact ⟨t', (flush_linearizes _ 2).1 (Stripe.owns_whole _) hrun, hbytes⟩
  · have hheld := ((flush_linearizes (.alone .whole) 2).2
      (c := (Client.takeAll [⟨none, .newPage "a"⟩, ⟨none, .unpin ⟨0, by decide⟩ true⟩,
        ⟨none, .fetch ⟨0, by decide⟩ "a"⟩]
        (.fresh ⟨.fresh _ 2, .onMedium (.memory .empty)⟩ none)).2.1)
      (h := ⟨⟨0, by decide⟩, Layout.first _, 0⟩)
      (.inl rfl) (Stripe.owns_whole _) rfl rfl [⟨none, .unpin ⟨0, by decide⟩ false⟩] [.fill 1]).1
    exact ⟨_, _, hheld.trans (congrArg₂ Answer.flushHeld rfl rfl)⟩

end PageCache
