import PageCache.Proofs.Client.Ideal

/-!
# Sharding is invisible

On a disk without faults a pool answers a client that keeps to pages in use as the ideal pool does,
as long as it is not full and new pages are made at the cursor (`Client.faithful_iff`). So a pool of
many shards and one that stands alone cannot be told apart, as long as no new page has to pass over
a full shard (`Client.sharding_invisible`). The pool of many shards does not report that it did, and
a client that counts pages notices.
-/

namespace PageCache

/-! ## Requests that cannot fail -/

namespace Backed

variable {size : Nat} {δ : Type} [PageStore δ] {w : Backed size δ}

/-- On a disk that cannot fail a look at a page succeeds. -/
theorem tryFlush_of_reliable (hdisk : Reliable w.disk) (p : PageId) :
    ∃ resident, (w.tryFlush noWriter p).result = .ok (.settled resident) ∧
      Reliable (w.tryFlush noWriter p).state.disk := by
  rw [tryFlush]
  split
  · exact ⟨false, rfl, hdisk⟩
  next f _ =>
  split
  swap
  · exact ⟨true, rfl, hdisk⟩
  rw [if_neg (by simp [noWriter])]
  rcases w.writeBack_cases p f with ⟨disk, hwrite, heq⟩ | ⟨cause, disk, hwrite, -⟩
  · rw [heq]
    exact ⟨true, rfl, hdisk.serves (.of_write hwrite)⟩
  · -- the write would have failed, but none does
    obtain ⟨disk', hok⟩ := (hdisk _ .refl).2 p (w.shard.frame f).bytes
    exact absurd (hwrite.symm.trans hok) (by simp)

/-- On a disk that cannot fail a sweep goes through. -/
theorem sweep_of_reliable (hdisk : Reliable w.disk) (pages : List PageId) :
    (∃ waiting, (sweep noWriter pages w).result = .ok waiting) ∧
      Reliable (sweep noWriter pages w).state.disk := by
  induction pages generalizing w with
  | nil => exact ⟨⟨[], rfl⟩, hdisk⟩
  | cons p pages ih =>
    obtain ⟨resident, hlook, hdisk'⟩ := w.tryFlush_of_reliable hdisk p
    rw [sweep, Outcome.andThen_of_ok hlook]
    exact ih hdisk'

end Backed

namespace System

variable {l : Layout} {size : Nat} {δ : Type} [PageStore δ] {w : System l size δ}

/-- On a disk that cannot fail some shards can be flushed. -/
theorem flushShards_of_reliable (hdisk : Reliable w.disk) (visit : Visit)
    (shards : List (Fin l.width)) : (flushShards visit shards w).result = .ok () := by
  induction shards generalizing w with
  | nil => rfl
  | cons i rest ih =>
    obtain ⟨⟨waiting, hsweep⟩, hdisk'⟩ := (w.backed i).sweep_of_reliable hdisk
      (visit.arrange (w.backed i).shard.residents)
    have hflush : (w.onShard i fun _ b => b.flushAll visit).result = .ok () := by
      show ((w.backed i).sweepAll Backed.noWriter visit).result.map _ = _
      rw [Backed.sweepAll, hsweep]
      rfl
    rw [flushShards, Outcome.andThen_of_ok hflush]
    exact ih hdisk'

end System

/-- A disk without faults to which nothing was written. -/
structure Disk.Fresh (disk : Disk) : Prop where
  faults : disk.faults = .none
  whole : disk.medium.Whole
  contents : ∀ p, disk.contents p = .zero

namespace Client

variable {l : Layout} {size : Nat} {capacity : Nat} {c : Client l size} {L : Ledger} {k : Nat}

/-- What is true of a client of which the answers have told `L`, on a pool that has answered as the
ideal pool and was asked for `k` new pages. -/
structure Following (capacity : Nat) (c : Client l size) (L : Ledger) (k : Nat) : Prop where
  coherent : c.Coherent capacity L
  known : c.system.view.Known L.created
  live : L.Live
  reliable : Reliable c.system.disk
  numbered : c.system.Numbered k

namespace Following

variable {p : PageId} {f : Fin size}

/-- The pins of a page are the guards on it. -/
theorem pins_eq (h : c.Following capacity L k)
    (hp : (c.system.pool.shard (l.route p)).table[p]? = some f) :
    ((c.system.pool.shard (l.route p)).frame f).pins = L.guards p := by
  have hslot : c.system.view.slot p = some (f, (c.system.pool.shard (l.route p)).frame f) :=
    (System.slot_view ((h.coherent.kept.system _).owned hp)).trans (Shard.slot_of_table hp)
  rw [h.coherent.named.guards_eq p]
  exact (h.coherent.accounts p).pins hslot

/-- Nobody has a guard on a page that is not resident. -/
theorem guards_eq_zero (h : c.Following capacity L k) (hcomplete : l.Complete)
    (hp : (c.system.pool.shard (l.route p)).table[p]? = none) : L.guards p = 0 := by
  have hslot : c.system.view.slot p = none :=
    (System.slot_view (hcomplete p)).trans (Shard.slot_eq_none_iff.mpr hp)
  rw [h.coherent.named.guards_eq p]
  exact List.length_eq_zero_iff.mpr ((h.coherent.accounts p).grips_eq_nil_of_place_none hslot)

/-! ## One answer after the other -/

/-- The page that is created was not resident. -/
theorem spared (h : c.Following capacity L k) {made : Handle l size}
    (hok : (c.newHandle .whole).result = .ok made) : c.system.view.slot made.page = none :=
  h.known.slot_none (unused_of_newHandle h.coherent.kept.system hok)

/-- A guard of a new page is answered with the page that the pool created. -/
theorem result_newGuard (h : c.Following capacity L k) (name : String) :
    (c.perform .whole (.newGuard name)).result =
      (c.system.newPage.result.map Handle.page).map fun p => .newGuard p p := by
  show _ = ((c.newHandle .whole).result.map _).map _
  rw [perform]
  cases hresult : (c.newHandle .whole).result with
  | error e =>
    rw [Outcome.andThen_of_error hresult]
    rfl
  | ok made =>
    obtain ⟨ms, hruns, hcreated⟩ := c.newHandle_runs h.coherent.kept.system .whole h.spared
    rw [hresult] at hcreated
    have hkept : (c.newHandle .whole).state.Kept capacity :=
      ⟨hruns.kept, (guards_newHandle ..).symm ▸ h.coherent.kept.routed⟩
    have hheld := (hold_still hkept name (g := ⟨made, .write, false⟩) hcreated.1).2
    rw [Outcome.andThen_of_ok hresult]
    simp only [Outcome.result_after, Outcome.result_map, hheld]
    rfl

/-- The right page is made if and only if it is made at the cursor. -/
theorem newGuard_iff (h : c.Following capacity L k) {name : String}
    (hroom : (c.perform .whole (.newGuard name)).result ≠ .error (.storage .poolFull)) :
    ¬ c.system.Full c.system.pool.cursor ↔
      (c.perform .whole (.newGuard name)).result = L.answer k (.newGuard name) := by
  have hresult := h.result_newGuard name
  rw [hresult] at hroom ⊢
  -- the guard would have been told that the pool is full
  have hfound : c.system.newPage.result ≠ .error (.storage .poolFull) := by
    intro hfull
    exact hroom (by rw [hfull]; rfl)
  rw [h.numbered.not_full_iff h.coherent.kept.system h.reliable hfound, Ledger.answer]
  refine ⟨congrArg _, fun hmap => ?_⟩
  -- an answer tells which page was made
  cases hmade : c.system.newPage.result.map Handle.page with
  | error e =>
    cases hnth : PageId.nth k with
    | error e' => rw [hmade, hnth] at hmap; exact congrArg _ (Except.error.inj hmap)
    | ok p => rw [hmade, hnth] at hmap; exact absurd hmap (by simp [Except.map])
  | ok p =>
    cases hnth : PageId.nth k with
    | error e => rw [hmade, hnth] at hmap; exact absurd hmap (by simp [Except.map])
    | ok q =>
      rw [hmade, hnth] at hmap
      exact congrArg _ (Reply.newGuard.inj (Except.ok.inj hmap)).1

/-- A page can be fetched unless no frame is found for it or it has all the pins it can have. -/
theorem result_fetchHandle (h : c.Following capacity L k) (hcomplete : l.Complete) (p : PageId)
    (hroom : (c.fetchHandle .whole p).result ≠ .error (.storage .poolFull)) :
    if L.guards p < Frame.maxPins then ∃ made, (c.fetchHandle .whole p).result = .ok made
    else (c.fetchHandle .whole p).result = .error (.violation .pinOverflow) := by
  let w := c.system.backed (l.route p)
  have hfetch : (c.fetchHandle .whole p).result =
      (w.fetch (l.stripe (l.route p)) p).result.map fun f => ⟨p, l.route p, f⟩ := rfl
  cases hp : w.shard.table[p]? with
  | some f =>
    rw [hfetch, Backed.fetch, if_pos (hcomplete p), hp, ← h.pins_eq hp]
    simp only [Backed.pinAgain]
    split
    · next hmax => exact (if_pos hmax) ▸ ⟨_, rfl⟩
    · next hmax => exact (if_neg hmax) ▸ rfl
  -- a page that comes in has no pins yet, so all it takes is a frame
  | none =>
    have hkept := h.coherent.kept.system (l.route p)
    rw [h.guards_eq_zero hcomplete hp, if_pos (by decide)]
    have hfound : w.acquire.result ≠ .error (.storage .poolFull) := by
      intro hnone
      have hfull := (Backed.fetch_full_iff_acquire (hcomplete p) hp).mpr hnone
      exact hroom (hfetch.trans (by rw [hfull]; rfl))
    obtain ⟨f, hf⟩ := Backed.result_fetch (w := w) hkept h.reliable
      (not_not.mp fun hnone => hfound ((hkept.acquisition.full_iff hkept).mpr hnone)) (hcomplete p)
      fun hsome => absurd (hp.symm.trans hsome) (by simp)
    exact ⟨_, hfetch.trans (by rw [hf]; rfl)⟩

/-- A guard of a page in use is answered as the ideal pool answers it. -/
theorem result_fetchGuard (h : c.Following capacity L k) (hcomplete : l.Complete)
    (access : Access) (p : PageId) (name : String)
    (hroom : (c.perform .whole (.fetchGuard access p name)).result ≠
      .error (.storage .poolFull)) :
    (c.perform .whole (.fetchGuard access p name)).result =
      L.answer k (.fetchGuard access p name) := by
  rw [perform] at hroom ⊢
  have hfetch := h.result_fetchHandle hcomplete p fun hfull =>
    hroom (by rw [Outcome.andThen_of_error hfull])
  rw [Ledger.answer]
  split at hfetch
  · next hmax =>
    obtain ⟨made, hmade⟩ := hfetch
    obtain ⟨hkept, -, -, howns⟩ := c.fetchHandle_keeps h.coherent.kept .whole p
    obtain ⟨hpage, howns⟩ := howns hmade
    have hheld := (hold_still hkept name (g := ⟨made, access, false⟩) howns).2
    rw [if_pos hmax, Outcome.andThen_of_ok hmade]
    simp only [Outcome.result_after, Outcome.result_map, hheld, hpage]
    rfl
  · next hmax => rw [if_neg hmax, Outcome.andThen_of_error hfetch]

/-- A guard reads what the ideal pool has of its page. -/
theorem result_readGuard (h : c.Following capacity L k) (name : String) :
    (c.perform .whole (.readGuard name)).result = L.answer k (.readGuard name) := by
  rw [Ledger.answer]
  cases hheld : L.held name with
  | none =>
    have hname : c.guards[name]? = none := by
      have hnamed := h.coherent.named name
      rw [hheld] at hnamed
      exact Option.map_eq_none_iff.mp hnamed.symm
    rw [perform, hname]
    rfl
  | some held =>
    obtain ⟨p, access⟩ := held
    exact congrArg Outcome.result
      (h.coherent.take_readGuard hheld (h.live.held name p access hheld))

/-- A guard that may write is told the same as in the ideal pool, and so is one that may not. -/
theorem result_writeGuard (h : c.Following capacity L k) (name : String) (edits : List Edit) :
    (c.perform .whole (.writeGuard name edits)).result = L.answer k (.writeGuard name edits) := by
  rw [Ledger.answer, h.coherent.named name, perform]
  cases hname : c.guards[name]? with
  | none => rfl
  | some g => cases haccess : g.access <;> simp only [Option.map_some, haccess] <;> rfl

/-- A guard is dropped as in the ideal pool. -/
theorem result_dropGuard (h : c.Following capacity L k) (name : String) :
    (c.perform .whole (.dropGuard name)).result = L.answer k (.dropGuard name) := by
  rw [Ledger.answer, h.coherent.named name, perform, dropGuard]
  cases hname : c.guards[name]? with
  | none => rfl
  | some g =>
    have howns := h.coherent.kept.routed name g hname
    rw [← Layout.route_eq_of_owns howns] at howns
    simp only [Option.map_some, Outcome.result_map, result_release howns]
    rfl

/-- A page can be deleted if nobody has a guard on it, as in the ideal pool. -/
theorem result_delete (h : c.Following capacity L k) (hcomplete : l.Complete) (p : PageId) :
    (c.perform .whole (.delete p)).result = L.answer k (.delete p) := by
  let w := c.system.backed (l.route p)
  have hdelete : (c.perform .whole (.delete p)).result =
      (w.delete (l.stripe (l.route p)) p).result.map .truth := rfl
  rw [hdelete, Ledger.answer, Backed.delete, if_pos (hcomplete p)]
  simp only [Outcome.result_after, Backed.discard]
  -- not resident: deleted, and nobody had it
  cases hp : w.shard.table[p]? with
  | none => simp [h.guards_eq_zero hcomplete hp, Except.map]
  | some f =>
    have hpins : (w.shard.frame f).pins = L.guards p := h.pins_eq hp
    simp only [hpins]
    split
    · next hpos => simp [Except.map, Nat.ne_of_gt hpos]
    · next hzero => simp [Except.map, Nat.eq_zero_of_not_pos hzero]

/-- A pool that is not full answers as the ideal pool does, unless it makes a new page elsewhere
than at the cursor. -/
theorem result_iff (h : c.Following capacity L k) (hcomplete : l.Complete) {op : Op}
    (hop : op.InUse L) (hroom : (c.perform .whole op).result ≠ .error (.storage .poolFull)) :
    (op.isNew = true → ¬ c.system.Full c.system.pool.cursor) ↔
      (c.perform .whole op).result = L.answer k op := by
  cases op with
  | newGuard name => exact (forall_prop_of_true rfl).trans (h.newGuard_iff hroom)
  | fetchGuard access p name =>
    exact iff_of_true (by simp [Op.isNew]) (h.result_fetchGuard hcomplete access p name hroom)
  | readGuard name => exact iff_of_true (by simp [Op.isNew]) (h.result_readGuard name)
  | writeGuard name edits => exact iff_of_true (by simp [Op.isNew]) (h.result_writeGuard name edits)
  | dropGuard name => exact iff_of_true (by simp [Op.isNew]) (h.result_dropGuard name)
  | delete p => exact iff_of_true (by simp [Op.isNew]) (h.result_delete hcomplete p)
  | flushAll visit =>
    refine iff_of_true (by simp [Op.isNew]) ?_
    show (c.system.flushAll visit).result.map _ = _
    rw [System.flushAll, System.flushShards_of_reliable h.reliable]
    rfl
  | _ => exact hop.elim

/-! ## Steps -/

/-- A page without guards is held under no name. -/
theorem held_ne (h : c.Following capacity L k) (hzero : L.guards p = 0) (name : String)
    (access : Access) : L.held name ≠ some (p, access) := by
  intro hheld
  rw [h.coherent.named name, Option.map_eq_some_iff] at hheld
  obtain ⟨g, hname, hg⟩ := hheld
  obtain ⟨rfl, -⟩ := Prod.mk.inj hg
  rw [h.coherent.named.guards_eq, List.length_eq_zero_iff] at hzero
  exact List.not_mem_nil (hzero ▸ mem_grips (mem_held hname))

/-- The next page was not created before. -/
theorem not_mem_created (h : c.Following capacity L k) (hp : PageId.nth k = .ok p) :
    p ∉ L.created := by
  refine h.known.fresh ((h.numbered.unused_iff p).mpr (Nat.le_of_eq ?_))
  rw [PageId.nth] at hp
  split at hp
  · next q hk => exact Except.ok.inj hp ▸ (PageId.ofNat?_eq_some_iff.mp hk).symm
  · exact absurd hp (by simp)

/-- The answers of the ideal pool leave pages that are held undeleted. -/
theorem live_follow (h : c.Following capacity L k) {op : Op} (hop : op.InUse L) :
    (L.follow ⟨⟨none, op⟩, L.answer k op⟩).Live := by
  refine h.live.follow _ ?_ ?_ ?_
  · rintro name p q rfl hnew
    have hnth : PageId.nth k = .ok p := by
      have hnew : (PageId.nth k).map (fun p => Reply.newGuard p p) = .ok (.newGuard p q) := hnew
      cases hnth : PageId.nth k with
      | error e => rw [hnth] at hnew; exact absurd hnew (by simp [Except.map])
      | ok p' =>
        rw [hnth] at hnew
        exact congrArg _ (Reply.newGuard.inj (Except.ok.inj hnew)).1
    exact h.not_mem_created hnth
  · rintro access p name rfl
    exact hop.2
  · -- the page would not have been deleted
    rintro p rfl hanswer name access
    have hzero : L.guards p = 0 := by simpa [Ledger.answer] using hanswer
    exact h.held_ne hzero name access

/-- No page that is created is resident. -/
theorem noTakeover (h : c.Following capacity L k) (log : List Entry) (step : Step) :
    NoTakeover log c step := by
  intro o made ho hok
  obtain ⟨scope, -, rfl⟩ := creation?_eq_some ho
  exact not_resident_of_unused h.coherent.kept h.known
    (unused_of_newHandle h.coherent.kept.system hok)

/-- After a new page was asked for, the next one is the one after. -/
theorem numbered_newGuard (h : c.Following capacity L k) (name : String)
    (hroom : ¬ c.system.Full c.system.pool.cursor) :
    (c.perform .whole (.newGuard name)).state.system.Numbered (k + 1) := by
  have hnext : (c.newHandle .whole).state.system.Numbered (k + 1) :=
    h.numbered.next h.coherent.kept.system h.reliable (fun hok => h.spared hok) hroom
  exact Outcome.state_andThen (P := fun c' : Client l size => c'.system.Numbered (k + 1)) hnext
    fun made _ => hnext.of_counters (counters_hold ..)

/-- A pool that answers as the ideal pool goes on to do so. -/
theorem take (h : c.Following capacity L k) {op : Op} (hop : op.InUse L)
    (hcursor : op.isNew = true → ¬ c.system.Full c.system.pool.cursor)
    (hresult : (c.take ⟨none, op⟩).result = L.answer k op) :
    (c.take ⟨none, op⟩).state.Following capacity
      (L.follow ⟨⟨none, op⟩, (c.take ⟨none, op⟩).result⟩) (k + if op.isNew then 1 else 0) := by
  have hguards : op.ThroughGuards := by
    cases op <;> trivial
  have hcreated : op.FetchesCreated L := by
    cases op with
    | fetchGuard => exact hop.1
    | _ => trivial
  have hkeeps := keeps_take h.coherent.kept ⟨none, op⟩ (h.noTakeover [] ⟨none, op⟩)
  have hcoherent := h.coherent.take ⟨none, op⟩ rfl hguards hcreated fun _ _ => h.known
  refine ⟨hcoherent.follow, hkeeps.known h.known hcreated, hresult ▸ h.live_follow hop,
    h.reliable.serves (hkeeps.serves ?_), ?_⟩
  · rintro op' rfl
    exact hop.elim
  · cases op with
    | newGuard name => exact h.numbered_newGuard name (hcursor rfl)
    | newPage name => exact hop.elim
    | _ => exact h.numbered.of_counters (c.counters_perform .whole (by simp) (by simp))

/-- A pool that was just built has told nothing yet. -/
theorem of_build {b : Blueprint} {built : AnyPool} (hbuild : b.build = .ok built)
    (hunloaded : b.Unloaded) (hcomplete : built.layout.Complete) {disk : Disk} (hdisk : disk.Fresh)
    (durable : Option Lsn) : (built.start disk durable).Following b.capacity .empty 0 where
  coherent := .of_build hbuild hunloaded durable (fun p _ => hdisk.contents p)
    (fun p _ _ => hdisk.contents p) fun _ => rfl
  known := known_of_build hbuild hunloaded disk durable
  live := ⟨fun _ hp => absurd hp List.not_mem_nil, fun _ _ _ _ => List.not_mem_nil⟩
  reliable := Disk.reliable_of_whole hdisk.faults hdisk.whole
  numbered := .of_build hbuild hunloaded hcomplete disk

end Following

/-! ## Histories -/

/-- One step after the other is addressed to the whole pool, and asks for pages in use only. -/
def InUse (log : List Entry) (_ : Client l size) (step : Step) : Prop :=
  step.shard = none ∧ step.op.InUse (.current log)

/-- A new page does not have to pass over the shard at the cursor. -/
def AtCursor (_ : List Entry) (c : Client l size) (step : Step) : Prop :=
  step.op.isNew = true → ¬ c.system.Full c.system.pool.cursor

/-- No answer is that the pool is full. -/
def NeverFull (log : List Entry) : Prop :=
  ∀ entry ∈ log, entry.answer ≠ .error (.storage .poolFull)

/-- Whether an answer was that the pool is full can be read off the answers. -/
theorem neverFull_of_answers {log : List Entry} {answers : List (Except Failure Reply)}
    (hanswers : log.map Entry.answer = answers) (hnot : .error (.storage .poolFull) ∉ answers) :
    NeverFull log := by
  subst hanswers
  simpa [NeverFull] using hnot

/-- As long as it is not full, a pool on a disk without faults answers a client that asks for pages
in use as the ideal pool does, until a new page has to pass over a full shard. -/
theorem faithful_iff {b : Blueprint} {built : AnyPool} (hbuild : b.build = .ok built)
    (hunloaded : b.Unloaded) (hcomplete : built.layout.Complete) {disk : Disk} (hdisk : disk.Fresh)
    {durable : Option Lsn} {log : List Entry} {c : Client built.layout built.size}
    (h : History InUse (built.start disk durable) log c) (hroom : NeverFull log) :
    (History AtCursor (built.start disk durable) log c ↔ Faithful log) ∧
      (Faithful log → c.Following b.capacity (.current log) (creations log)) := by
  induction h with
  | start => exact ⟨iff_of_true .start .nil,
      fun _ => .of_build hbuild hunloaded hcomplete hdisk durable⟩
  | @step log c h step hstep ih =>
    obtain ⟨shard, op⟩ := step
    obtain ⟨rfl, hop⟩ := hstep
    obtain ⟨hroom, hanswer⟩ := List.forall_mem_append.mp hroom
    have hanswer := List.forall_mem_singleton.mp hanswer
    obtain ⟨hiff, hfollowing⟩ := ih hroom
    rw [Faithful.concat_iff, Ledger.current_concat, creations_concat]
    -- the last step is made at the cursor if and only if the answer is right
    have hlast (hfaithful : Faithful log) : AtCursor log c ⟨none, op⟩ ↔
        (c.take ⟨none, op⟩).result = (Ledger.current log).answer (creations log) op :=
      (hfollowing hfaithful).result_iff hcomplete hop hanswer
    refine ⟨⟨fun hcursor => ?_, fun ⟨hfaithful, hresult⟩ => ?_⟩, fun ⟨hfaithful, hresult⟩ => ?_⟩
    · -- the history is told by the log, so it is the same one
      obtain ⟨c₁, h₁, hallowed, -, -⟩ := hcursor.of_concat
      obtain rfl := h.unique h₁
      have hfaithful := hiff.mp h₁
      exact ⟨hfaithful, (hlast hfaithful).mp hallowed⟩
    · exact .step (hiff.mpr hfaithful) _ ((hlast hfaithful).mpr hresult)
    · exact (hfollowing hfaithful).take hop ((hlast hfaithful).mpr hresult) hresult

/-- Where there is one shard, there is no other to pass on to. -/
theorem atCursor_of_single {c₀ : Client l size} {log : List Entry}
    (hsingle : ∀ i j : Fin l.width, i = j) (h : History InUse c₀ log c) (hroom : NeverFull log) :
    History AtCursor c₀ log c := by
  induction h with
  | start => exact .start
  | @step log c h step hstep ih =>
    obtain ⟨shard, op⟩ := step
    obtain ⟨rfl, -⟩ := hstep
    obtain ⟨hroom, hanswer⟩ := List.forall_mem_append.mp hroom
    refine .step (ih hroom) _ fun hnew hfull => ?_
    have hnone : (c.newHandle .whole).result = .error (.storage .poolFull) :=
      (System.newPage_of_full fun i => hsingle c.system.pool.cursor i ▸ hfull).1
    cases op with
    | newGuard name =>
      refine List.forall_mem_singleton.mp hanswer ?_
      show (c.perform .whole (.newGuard name)).result = _
      rw [perform, Outcome.andThen_of_error hnone]
    | _ => exact absurd hnew (by simp [Op.isNew])

/-- A pool of many shards and one that stands alone, of any sizes and each over a fresh disk, are
asked the same by a client that asks for pages in use, and neither of them is ever full. Then they
answer alike if and only if the pool of many shards never had to pass over a full one for a new
page; and the `k`th new page of the pool that stands alone is page `k`, while there are ids left. -/
theorem sharding_invisible {size size' : Nat} {count : UInt32} {split alone : AnyPool}
    (hsplit : (Blueprint.split size count).build = .ok split)
    (halone : (Blueprint.alone size' 1 0 none).build = .ok alone) {disk disk' : Disk}
    (hdisk : disk.Fresh) (hdisk' : disk'.Fresh) {durable durable' : Option Lsn}
    {log log' : List Entry} {c : Client split.layout split.size}
    {c' : Client alone.layout alone.size}
    (h : History InUse (split.start disk durable) log c)
    (h' : History InUse (alone.start disk' durable') log' c')
    (hops : log.map (fun entry => entry.step.op.plain) =
      log'.map fun entry => entry.step.op.plain)
    (hroom : NeverFull log) (hroom' : NeverFull log') :
    (History AtCursor (split.start disk durable) log c ↔
        log.map Entry.answer = log'.map Entry.answer) ∧
      (log'.filter fun entry => entry.step.op.isNew).map Entry.answer =
        (List.range (creations log')).map fun k => (PageId.nth k).map fun p => .newGuard p p := by
  have hcomplete : split.layout.Complete := by
    rw [Blueprint.build, Layout.split?] at hsplit
    split at hsplit
    · exact absurd hsplit (by simp)
    · next layout hlayout =>
      split at hlayout
      · obtain rfl := Except.ok.inj hlayout
        obtain rfl := Except.ok.inj hsplit
        exact Layout.complete_split _ _
      · exact absurd hlayout (by simp)
  have hfaithful' : Faithful log' := by
    obtain rfl : AnyPool.fresh (.alone .whole) size' = alone := Except.ok.inj halone
    -- with one shard the cursor has nowhere else to go
    have hsingle (i j : Fin (Layout.alone .whole).width) : i = j :=
      Fin.ext ((Nat.lt_one_iff.mp i.isLt).trans (Nat.lt_one_iff.mp j.isLt).symm)
    have hcursor := atCursor_of_single hsingle h' hroom'
    exact (faithful_iff halone trivial Layout.complete_whole hdisk' h' hroom').1.mp hcursor
  refine ⟨?_, hfaithful'.creations_eq⟩
  rw [(faithful_iff hsplit trivial hcomplete hdisk h hroom).1]
  exact hfaithful'.iff_answers_eq hops

/-- A store in memory without pages is fresh. -/
theorem fresh_memory : (Disk.onMedium (.memory .empty)).Fresh :=
  ⟨rfl, trivial, MemoryStore.bytes_empty⟩

/-- With two shards of one frame, and with one of three: page `0` is written to, and makes room for
page `2` in the first pool only; page `1` is deleted; page `0` shows in both what was written. -/
theorem sharding_invisible_two_shards :
    ∃ (log log' : List Entry) (c : Client (.split 2 (by decide) (by decide)) 1)
      (c' : Client (.alone .whole) 3),
      History InUse ((AnyPool.fresh (.split 2 (by decide) (by decide)) 1).start
        (.onMedium (.memory .empty)) none) log c ∧
      History InUse ((AnyPool.fresh (.alone .whole) 3).start
        (.onMedium (.file ⟨.empty, ∅⟩)) none) log' c' ∧
      History AtCursor ((AnyPool.fresh (.split 2 (by decide) (by decide)) 1).start
        (.onMedium (.memory .empty)) none) log c ∧
      log'.map Entry.answer = [.ok (.newGuard ⟨0, by decide⟩ ⟨0, by decide⟩), .ok .nothing,
        .ok .nothing, .ok (.newGuard ⟨1, by decide⟩ ⟨1, by decide⟩),
        .ok (.newGuard ⟨2, by decide⟩ ⟨2, by decide⟩), .ok .nothing, .ok .nothing,
        .ok (.truth true), .ok (.guarding ⟨0, by decide⟩),
        .ok (.bytes (.edit [.put 7 [42]] .zero)), .ok .done] := by
  let answers : List (Except Failure Reply) := [.ok (.newGuard ⟨0, by decide⟩ ⟨0, by decide⟩),
    .ok .nothing, .ok .nothing, .ok (.newGuard ⟨1, by decide⟩ ⟨1, by decide⟩),
    .ok (.newGuard ⟨2, by decide⟩ ⟨2, by decide⟩), .ok .nothing, .ok .nothing, .ok (.truth true),
    .ok (.guarding ⟨0, by decide⟩), .ok (.bytes (.edit [.put 7 [42]] .zero)), .ok .done]
  let ops : List Op := [.newGuard "a", .writeGuard "a" [.put 7 [42]], .dropGuard "a", .newGuard "b",
    .newGuard "c", .dropGuard "c", .dropGuard "b", .delete ⟨1, by decide⟩,
    .fetchGuard .read ⟨0, by decide⟩ "a", .readGuard "a", .flushAll .ascending]
  have hused : (⟨0, by decide⟩ : PageId) ∈
        [⟨2, by decide⟩, ⟨1, by decide⟩, (⟨0, by decide⟩ : PageId)] ∧
      (⟨0, by decide⟩ : PageId) ∉ [(⟨1, by decide⟩ : PageId)] := by decide
  obtain ⟨log, c, h, hops, hanswers⟩ : ∃ log c, History InUse
      ((AnyPool.fresh (.split 2 (by decide) (by decide)) 1).start
        (.onMedium (.memory .empty)) none) log c ∧
      log.map (fun entry => entry.step.op.plain) = ops ∧ log.map Entry.answer = answers := by
    have h : History InUse ((AnyPool.fresh (.split 2 (by decide) (by decide)) 1).start
      (.onMedium (.memory .empty)) none) [] _ := .start
    have h := h.step ⟨none, .newGuard "a"⟩ ⟨rfl, trivial⟩
    have h := h.step ⟨none, .writeGuard "a" [.put 7 [42]]⟩ ⟨rfl, trivial⟩
    have h := h.step ⟨none, .dropGuard "a"⟩ ⟨rfl, trivial⟩
    have h := h.step ⟨none, .newGuard "b"⟩ ⟨rfl, trivial⟩
    have h := h.step ⟨none, .newGuard "c"⟩ ⟨rfl, trivial⟩
    have h := h.step ⟨none, .dropGuard "c"⟩ ⟨rfl, trivial⟩
    have h := h.step ⟨none, .dropGuard "b"⟩ ⟨rfl, trivial⟩
    have h := h.step ⟨none, .delete ⟨1, by decide⟩⟩ ⟨rfl, trivial⟩
    have h := h.step ⟨none, .fetchGuard .read ⟨0, by decide⟩ "a"⟩ ⟨rfl, hused⟩
    have h := h.step ⟨none, .readGuard "a"⟩ ⟨rfl, trivial⟩
    have h := h.step ⟨none, .flushAll .ascending⟩ ⟨rfl, trivial⟩
    exact ⟨_, _, h, rfl, rfl⟩
  obtain ⟨log', c', h', hops', hanswers'⟩ : ∃ log c, History InUse
      ((AnyPool.fresh (.alone .whole) 3).start (.onMedium (.file ⟨.empty, ∅⟩)) none) log c ∧
      log.map (fun entry => entry.step.op.plain) = ops ∧ log.map Entry.answer = answers := by
    have h : History InUse ((AnyPool.fresh (.alone .whole) 3).start
      (.onMedium (.file ⟨.empty, ∅⟩)) none) [] _ := .start
    have h := h.step ⟨none, .newGuard "a"⟩ ⟨rfl, trivial⟩
    have h := h.step ⟨none, .writeGuard "a" [.put 7 [42]]⟩ ⟨rfl, trivial⟩
    have h := h.step ⟨none, .dropGuard "a"⟩ ⟨rfl, trivial⟩
    have h := h.step ⟨none, .newGuard "b"⟩ ⟨rfl, trivial⟩
    have h := h.step ⟨none, .newGuard "c"⟩ ⟨rfl, trivial⟩
    have h := h.step ⟨none, .dropGuard "c"⟩ ⟨rfl, trivial⟩
    have h := h.step ⟨none, .dropGuard "b"⟩ ⟨rfl, trivial⟩
    have h := h.step ⟨none, .delete ⟨1, by decide⟩⟩ ⟨rfl, trivial⟩
    have h := h.step ⟨none, .fetchGuard .read ⟨0, by decide⟩ "a"⟩ ⟨rfl, hused⟩
    have h := h.step ⟨none, .readGuard "a"⟩ ⟨rfl, trivial⟩
    have h := h.step ⟨none, .flushAll .ascending⟩ ⟨rfl, trivial⟩
    exact ⟨_, _, h, rfl, rfl⟩
  have hsplit : Blueprint.build (.split 1 2) =
      .ok (.fresh (.split 2 (by decide) (by decide)) 1) := rfl
  have halone : Blueprint.build (.alone 3 1 0 none) = .ok (.fresh (.alone .whole) 3) := rfl
  have hfile : (Disk.onMedium (.file ⟨.empty, ∅⟩)).Fresh :=
    ⟨rfl, Nat.dvd_zero _, fun p => Image.empty.block_of_size_le (Nat.zero_le (p.val * _))⟩
  have hnot : .error (.storage .poolFull) ∉ answers := by simp [answers]
  have hinvisible := sharding_invisible hsplit halone fresh_memory hfile h h'
    (hops.trans hops'.symm) (neverFull_of_answers hanswers hnot)
    (neverFull_of_answers hanswers' hnot)
  exact ⟨log, log', c, c', h, h', hinvisible.1.mpr (hanswers.trans hanswers'.symm), hanswers'⟩

/-- With two shards of one frame, and with one of two: the second page is let go of while the first
is held, and a third is created. The shard it should come from is full, and is passed over. -/
theorem not_invisible_past_full :
    ∃ (log log' : List Entry) (c : Client (.split 2 (by decide) (by decide)) 1)
      (c' : Client (.alone .whole) 2),
      History InUse ((AnyPool.fresh (.split 2 (by decide) (by decide)) 1).start
        (.onMedium (.memory .empty)) none) log c ∧
      History InUse ((AnyPool.fresh (.alone .whole) 2).start
        (.onMedium (.memory .empty)) none) log' c' ∧
      log.map (fun entry => entry.step.op) = log'.map (fun entry => entry.step.op) ∧
      NeverFull log ∧ NeverFull log' ∧
      log.map Entry.answer = [.ok (.newGuard ⟨0, by decide⟩ ⟨0, by decide⟩),
        .ok (.newGuard ⟨1, by decide⟩ ⟨1, by decide⟩), .ok .nothing,
        .ok (.newGuard ⟨3, by decide⟩ ⟨3, by decide⟩)] ∧
      log'.map Entry.answer = [.ok (.newGuard ⟨0, by decide⟩ ⟨0, by decide⟩),
        .ok (.newGuard ⟨1, by decide⟩ ⟨1, by decide⟩), .ok .nothing,
        .ok (.newGuard ⟨2, by decide⟩ ⟨2, by decide⟩)] := by
  let ops : List Op := [.newGuard "a", .newGuard "b", .dropGuard "b", .newGuard "c"]
  let answers (last : PageId) : List (Except Failure Reply) :=
    [.ok (.newGuard ⟨0, by decide⟩ ⟨0, by decide⟩), .ok (.newGuard ⟨1, by decide⟩ ⟨1, by decide⟩),
      .ok .nothing, .ok (.newGuard last last)]
  obtain ⟨log, c, h, hops, hanswers⟩ : ∃ log c, History InUse
      ((AnyPool.fresh (.split 2 (by decide) (by decide)) 1).start
        (.onMedium (.memory .empty)) none) log c ∧ log.map (fun entry => entry.step.op) = ops ∧
      log.map Entry.answer = answers ⟨3, by decide⟩ := by
    have h : History InUse ((AnyPool.fresh (.split 2 (by decide) (by decide)) 1).start
      (.onMedium (.memory .empty)) none) [] _ := .start
    have h := h.step ⟨none, .newGuard "a"⟩ ⟨rfl, trivial⟩
    have h := h.step ⟨none, .newGuard "b"⟩ ⟨rfl, trivial⟩
    have h := h.step ⟨none, .dropGuard "b"⟩ ⟨rfl, trivial⟩
    have h := h.step ⟨none, .newGuard "c"⟩ ⟨rfl, trivial⟩
    exact ⟨_, _, h, rfl, rfl⟩
  obtain ⟨log', c', h', hops', hanswers'⟩ : ∃ log c, History InUse
      ((AnyPool.fresh (.alone .whole) 2).start (.onMedium (.memory .empty)) none) log c ∧
      log.map (fun entry => entry.step.op) = ops ∧
      log.map Entry.answer = answers ⟨2, by decide⟩ := by
    have h : History InUse ((AnyPool.fresh (.alone .whole) 2).start
      (.onMedium (.memory .empty)) none) [] _ := .start
    have h := h.step ⟨none, .newGuard "a"⟩ ⟨rfl, trivial⟩
    have h := h.step ⟨none, .newGuard "b"⟩ ⟨rfl, trivial⟩
    have h := h.step ⟨none, .dropGuard "b"⟩ ⟨rfl, trivial⟩
    have h := h.step ⟨none, .newGuard "c"⟩ ⟨rfl, trivial⟩
    exact ⟨_, _, h, rfl, rfl⟩
  have hnot (last : PageId) : .error (.storage .poolFull) ∉ answers last := by simp [answers]
  exact ⟨log, log', c, c', h, h', hops.trans hops'.symm, neverFull_of_answers hanswers (hnot _),
    neverFull_of_answers hanswers' (hnot _), hanswers, hanswers'⟩

end Client

end PageCache
