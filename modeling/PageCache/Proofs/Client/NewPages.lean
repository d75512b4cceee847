import PageCache.Proofs.Client.Copies
import PageCache.Proofs.Client.FlushAll
import PageCache.Proofs.Client.Ids
import PageCache.Proofs.Client.Kept
import PageCache.Proofs.Client.Numbering

/-!
# What a new page shows

A new page is a frame of zeros, and nothing more: the disk is not told. The frame starts clean, so
when it has to make room it is not written either, and the page is then what the disk had under its
id all along. That may be anything, a page of an earlier session for one. Until somebody changes it,
the page shows zeros or these old bytes, and `Client.NewPage` tells when it is zeros: as long as the
page has not left its frame, and for good once it was dirty there (`Client.newPage_of_history`).

Three statements about the two copies of the page are carried from its creation on, one for each of
these: `ZeroOr`, `ZeroInPlace`, `ZeroSaved`. That there is no second creation of the page needs no
assumption, since ids are not given out twice: the counter of the shard is past the page
(`Shard.Beyond`).
-/

namespace PageCache

variable {size : Nat} {p : PageId}

/-! ## The counter moves on -/

/-- The ids that the shard has still to give out come after `p`. -/
def Shard.Beyond (sh : Shard size) (p : PageId) : Prop :=
  ∀ {n : PageId}, sh.nextId = some n → p.val < n.val

namespace Backed

variable {δ : Type} [PageStore δ] {w : Backed size δ} {s : Stripe}

/-- A page that was just made is not made again. -/
theorem beyond_newPage {f : Fin size} (h : (w.newPage s).result = .ok (p, f)) :
    (w.newPage s).state.shard.Beyond p := by
  intro n hn
  rw [nextId_newPage_of_ok h, Stripe.next?, PageId.plus?_eq_some_iff] at hn
  have hcount := s.count_pos
  omega

/-- However a creation ends, the counter stands where it did or further on. -/
theorem le_nextId_newPage {n : PageId} (hn : (w.newPage s).state.shard.nextId = some n) :
    ∃ m, w.shard.nextId = some m ∧ m.val ≤ n.val := by
  have hmoved {m : PageId} (hnext : s.next? m = some n) : m.val ≤ n.val := by
    rw [Stripe.next?, PageId.plus?_eq_some_iff] at hnext
    omega
  have hcreation := w.creation s
  generalize (w.newPage s).result = r, (w.newPage s).state = w' at hcreation hn
  cases hcreation with
  | exhausted => exact ⟨n, hn, Nat.le_refl _⟩
  | unplaced => exact ⟨n, w.search.nextId_eq.symm.trans hn, Nat.le_refl _⟩
  | foreign hnext | made hnext => exact ⟨_, hnext, hmoved hn⟩

/-- An id that was given out is not given out again. -/
theorem beyond_ask (h : w.shard.Beyond p) (op : ShardOp size) : (w.ask s op).shard.Beyond p := by
  intro n hn
  by_cases hop : op = .newPage
  · subst hop
    obtain ⟨m, hm, hle⟩ := le_nextId_newPage hn
    exact Nat.lt_of_lt_of_le (h hm) hle
  · exact h ((nextId_ask s w hop).symm.trans hn)

/-- Before a page is created, every frame that names it is the one that the table has for it. -/
theorem lists_or_beyond_ask [LawfulStore δ] (hplaced : w.shard.Placed False w.shard.free)
    (h : w.shard.Lists p ∨ w.shard.Beyond p) (op : ShardOp size) :
    (w.ask s op).shard.Lists p ∨ (w.ask s op).shard.Beyond p := by
  rcases h with hlists | hbeyond
  swap
  · exact .inr (beyond_ask hbeyond op)
  by_cases hmade : op = .newPage ∧ ∃ f, (w.newPage s).result = .ok (p, f)
  · obtain ⟨rfl, f, hresult⟩ := hmade
    exact .inr (beyond_newPage hresult)
  · have hcarries : Carries p (fun _ _ => True) w w.shard.free := ⟨hplaced, hlists, trivial⟩
    refine .inl (carries_ask ⟨fun _ _ _ => trivial, fun _ => trivial, fun _ _ => trivial⟩
      hcarries ?_).lists
    cases op with
    | newPage => exact fun {f} hresult => absurd ⟨rfl, f, hresult⟩ hmade
    | fetch q => exact fun _ _ _ _ _ => trivial
    | delete q => exact fun _ _ _ _ => trivial
    | reach f g => exact fun _ _ _ => trivial
    | _ => trivial

/-- A page that was fetched lies in the frame that was told. -/
theorem table_of_fetch {f : Fin size} (h : (w.fetch s p).result = .ok f) :
    (w.fetch s p).state.shard.table[p]? = some f := by
  have howns := owns_of_fetch h
  rw [fetch, if_pos howns] at h ⊢
  cases hp : w.shard.table[p]? with
  -- it was there, and lies where it did
  | some g =>
    rw [hp] at h
    dsimp only at h ⊢
    rw [pinAgain] at h ⊢
    dsimp only at h ⊢
    split at h
    · next hpins =>
      obtain rfl := Except.ok.inj h
      rw [if_pos hpins]
      simp only [Shard.untrack_fst]
      exact hp
    · exact absurd h (by simp)
  | none =>
    rw [hp] at h
    dsimp only at h ⊢
    cases hacquired : w.acquire.result with
    | error e =>
      rw [Outcome.andThen_of_error hacquired] at h
      exact absurd h (by simp)
    | ok g =>
      rw [Outcome.andThen_of_ok hacquired] at h ⊢
      rw [load] at h ⊢
      simp only [Outcome.result_after, Outcome.state_after] at h ⊢
      split at h
      · obtain rfl := Except.ok.inj h
        -- it was loaded into the frame that was found
        exact (Shard.getElem?_insert ..).trans (if_pos rfl)
      · exact absurd h (by simp)

end Backed

variable {l : Layout} {i j : Fin l.width} {P : Option Frame → Page → Prop}

/-- What a shard may be asked while `P` is to stay true of the copies of page `p`. -/
def Permit.suits (p : PageId) (P : Option Frame → Page → Prop) : Permit l size Disk where
  ask i b op := b.Suits (l.stripe i) p P op
  beside d d' := LawfulStore.contents d' p = LawfulStore.contents d p

namespace System

variable {w w' : System l size Disk}

/-- What a pool comes to by calls that suit the page carries its copies along. -/
theorem EvolvesBy.carries (h : EvolvesBy (.suits p P) w w') (hP : Lasting P)
    (howns : (l.stripe i).Owns p) (hw : w.Carries p P i) : w'.Carries p P i :=
  h.keeps (fun _ _ _ hw hop => hw.ask hP howns hop)
    (fun _ _ hw => ⟨⟨hw.placed.shard, hw.placed.confined⟩, hw.lists, hw.copies⟩)
    (fun _ _ hw hdisk => ⟨⟨hw.placed.shard, hw.placed.confined⟩, hw.lists, hdisk ▸ hw.copies⟩) hw

/-- No call takes a number back. -/
theorem Evolves.beyond (h : Evolves w w') (hw : (w.pool.shard i).Beyond p) :
    (w'.pool.shard i).Beyond p :=
  h.shards (P := fun j sh => j = i → sh.Beyond p)
    (fun _ _ op hb hji => Backed.beyond_ask (hb hji) op) (fun _ hji => hji ▸ hw) i rfl

end System

namespace Client

variable {c : Client l size} {scope : Scope l} {step : Step}

/-! ## Steps that leave a page alone -/

/-- What `edits` would do to the frame of handle `k` is nothing, or the frame is not that of
page `p`. -/
def SparesEdits (c : Client l size) (p : PageId) (k : Handle l size) (edits : List Edit) : Prop :=
  (c.system.pool.shard k.shard).table[p]? = some k.frame →
    Page.edit edits (c.system.bytes k) = c.system.bytes k

/-- The bytes of page `p` are not modified, neither in its frame nor on the disk past the pool, and
nobody deletes it. -/
def LeavesAlone (p : PageId) (_ : List Entry) (c : Client l size) (step : Step) : Prop :=
  match step.op with
  | .delete q => q ≠ p
  | .writeHandle name edits => ∀ k, c.handles[name]? = some k → c.SparesEdits p k edits
  | .writeGuard name edits => ∀ g, c.guards[name]? = some g → g.access = .write →
      c.SparesEdits p g.handle edits
  | .disk op => LawfulStore.contents (c.system.disk.perform op).state p =
      LawfulStore.contents c.system.disk p
  | _ => True

/-- Nor has the page left the pool. -/
def LeavesInPlace (p : PageId) (log : List Entry) (c : Client l size) (step : Step) : Prop :=
  LeavesAlone p log c step ∧ c.Resident p

/-- Page `p` is resident, and marked as changed. -/
def Dirty (c : Client l size) (p : PageId) : Prop :=
  ∃ i, (c.system.pool.shard i).dirty? p = some true

/-- Whoever is given page `p` now finds bytes of which `Q` is true. -/
def Yields (c : Client l size) (p : PageId) (Q : Page → Prop) : Prop :=
  ∀ (scope : Scope l) (k : Handle l size), (c.fetchHandle scope p).result = .ok k →
    Q ((c.fetchHandle scope p).state.system.bytes k)

/-- Page `p` was just created, and the disk has `old` under its id. -/
structure NewPage (c₁ : Client l size) (p : PageId) (old : Page) : Prop where
  /-- While it is left alone it shows zeros or the old bytes, wherever it has been meanwhile. -/
  anywhere : ∀ {log : List Entry} {c : Client l size}, History (LeavesAlone p) c₁ log c →
    c.Yields p fun bytes => bytes = .zero ∨ bytes = old
  /-- It shows zeros as long as it has not left the pool. -/
  inPlace : ∀ {log : List Entry} {c : Client l size}, History (LeavesInPlace p) c₁ log c →
    c.Resident p → c.Yields p (· = .zero)
  /-- If it was dirty before it left the pool, it shows zeros from then on, wherever it goes. -/
  saved : ∀ {log : List Entry} {c : Client l size}, History (LeavesInPlace p) c₁ log c →
    c.Dirty p → ∀ {log' : List Entry} {c' : Client l size}, History (LeavesAlone p) c log' c' →
      c'.Yields p (· = .zero)

/-! ## From the creation on -/

/-- The page was created in shard `i`, and `P` is true of its copies. -/
structure Carries (c : Client l size) (p : PageId) (P : Option Frame → Page → Prop)
    (i : Fin l.width) : Prop where
  owns : (l.stripe i).Owns p
  system : c.system.Carries p P i
  beyond : (c.system.pool.shard i).Beyond p

/-- Only the shard that owns a page can have it. -/
theorem not_resident (hplaced : c.system.Placed) (howns : (l.stripe i).Owns p)
    (habsent : (c.system.pool.shard i).table[p]? = none) : ¬ c.Resident p := by
  rintro ⟨j, f, hf⟩
  obtain rfl := Layout.eq_of_owns howns ((hplaced.confined j).table hf)
  exact absurd (habsent.symm.trans hf) (by simp)

namespace Carries

/-- No step that leaves the page alone makes `P` false, unless the page comes in again. -/
theorem permits (h : c.Carries p P i) {log : List Entry} (hstep : LeavesAlone p log c step)
    (hreload : ¬ c.Resident p → ∀ {stored : Page}, P none stored →
      P (some (.holding p stored)) stored) (scope : Scope l) :
    c.Permits (.suits p P) scope step.op := by
  obtain ⟨shard, op⟩ := step
  -- an edit of the page's own frame has no effect
  have hedit {k : Handle l size} {edits : List Edit} (hspared : c.SparesEdits p k edits) :
      (c.system.backed k.shard).Suits (l.stripe k.shard) p P
        (.reach k.frame (Page.edit edits)) := by
    intro hp stored hcopies
    have hbytes : Page.edit edits ((c.system.backed k.shard).shard.frame k.frame).bytes =
        ((c.system.backed k.shard).shard.frame k.frame).bytes := hspared hp
    rw [hbytes]
    exact hcopies
  cases op with
  | newPage | newGuard =>
    intro j _ f hresult
    have hnext := Backed.nextId_of_newPage hresult
    obtain rfl := Layout.eq_of_owns h.owns ((h.system.placed.confined j).next hnext)
    exact absurd (h.beyond hnext) (Nat.lt_irrefl _)
  | fetch q | fetchGuard _ q =>
    intro j hqp howns habsent
    exact hreload (not_resident h.system.placed howns habsent)
  | delete q => exact fun _ hqp => absurd hqp hstep
  | writeHandle name edits => exact fun k hk => hedit (hstep k hk)
  | writeGuard name edits => exact fun g hg hwrite => hedit (hstep g hg hwrite)
  | disk op => exact hstep
  | _ => trivial

theorem take (hP : Lasting P) (h : c.Carries p P i)
    (hstep : ∀ scope, c.Permits (.suits p P) scope step.op) :
    (c.take step).state.Carries p P i where
  owns := h.owns
  system := (evolvesBy_take fun scope _ => hstep scope).carries hP h.owns h.system
  beyond := (c.evolves_take step).beyond h.beyond

/-- What is true of the copies of a page goes on being true while the page is left alone. -/
theorem history {allowed : List Entry → Client l size → Step → Prop} {c₁ : Client l size}
    {log : List Entry} (hP : Lasting P) (h₁ : c₁.Carries p P i) (h : History allowed c₁ log c)
    (hallowed : ∀ {log c step}, allowed log c step → LeavesAlone p log c step)
    (hreload : ∀ {log c step}, allowed log c step → ¬ c.Resident p → ∀ {stored : Page},
      P none stored → P (some (.holding p stored)) stored) : c.Carries p P i :=
  h.keeps (P := fun _ c => c.Carries p P i) h₁ fun _ hc hstep =>
    hc.take hP (hc.permits (hallowed hstep) (hreload hstep))

/-- What a fetch of the page shows. -/
theorem yields {Q : Page → Prop} (hP : Lasting P) (h : c.Carries p P i)
    (hreload : ¬ c.Resident p → ∀ {stored : Page}, P none stored →
      P (some (.holding p stored)) stored)
    (hQ : ∀ {frame : Frame} {stored : Page}, P (some frame) stored → Q frame.bytes) :
    c.Yields p Q := by
  intro scope k hresult
  have hcarries : (c.fetchHandle scope p).state.system.Carries p P i := by
    refine (evolvesBy_fetchHandle fun j _ howns habsent => ?_).carries hP h.owns h.system
    exact hreload (not_resident h.system.placed howns habsent)
  -- the page lies in the frame of the handle
  have hplace (j : Fin l.width) (hfetch : (c.system.fetchIn j p).result = .ok k)
      (hstate : (c.fetchHandle scope p).state.system = (c.system.fetchIn j p).state) :
      k.shard = i ∧
        ((c.fetchHandle scope p).state.system.pool.shard i).table[p]? = some k.frame := by
    obtain ⟨f, hf, rfl⟩ := Outcome.result_map_eq_ok_iff.mp hfetch
    obtain rfl := Layout.eq_of_owns h.owns (Backed.owns_of_fetch hf)
    refine ⟨rfl, ?_⟩
    rw [hstate, System.fetchIn, Outcome.state_map, System.shard_onShard, if_pos rfl]
    exact Backed.table_of_fetch hf
  obtain ⟨hshard, hp⟩ : k.shard = i ∧
      ((c.fetchHandle scope p).state.system.pool.shard i).table[p]? = some k.frame := by
    cases scope with
    | whole => exact hplace (l.route p) hresult rfl
    | only j => exact hplace j hresult rfl
  have hcopies := hcarries.copies
  rw [Shard.frameOf?_of_table hp] at hcopies
  rw [System.bytes, hshard]
  exact hQ hcopies

end Carries

/-! ## The creation -/

/-- A new page is the work of the shard that has it then, and of no other. -/
theorem newPage_of_newHandle {k : Handle l size} (h : (c.newHandle scope).result = .ok k) :
    ((c.system.backed k.shard).newPage (l.stripe k.shard)).result = .ok (k.page, k.frame) ∧
      (c.newHandle scope).state.system.pool.shard k.shard =
        ((c.system.backed k.shard).newPage (l.stripe k.shard)).state.shard := by
  have hmade {w : System l size Disk} {j : Fin l.width} (hbacked : w.backed j = c.system.backed j)
      (hresult : (c.system.newPageIn j).result = .ok k)
      (hstate : (c.newHandle scope).state.system = (w.newPageIn j).state) :
      ((c.system.backed k.shard).newPage (l.stripe k.shard)).result = .ok (k.page, k.frame) ∧
        (c.newHandle scope).state.system.pool.shard k.shard =
          ((c.system.backed k.shard).newPage (l.stripe k.shard)).state.shard := by
    obtain ⟨⟨q, f⟩, hnew, rfl⟩ := Outcome.result_map_eq_ok_iff.mp hresult
    refine ⟨hnew, ?_⟩
    show _ = ((c.system.backed j).newPage (l.stripe j)).state.shard
    rw [hstate, System.newPageIn, Outcome.state_map, System.shard_onShard, if_pos rfl, hbacked]
  cases scope with
  | only j => exact hmade rfl h rfl
  | whole =>
    rcases c.system.full_or_decides with hall | ⟨j, hj⟩
    · have hfull : (c.newHandle .whole).result = .error (.storage .poolFull) :=
        (System.newPage_of_full hall).1
      exact absurd (h.symm.trans hfull) (by simp)
    · obtain ⟨hresult, hstate⟩ := System.newPage_of_decides hj
      exact hmade (w := c.system.turned) rfl (hresult.symm.trans h) hstate

/-- After a page is created, a guard may be let go of. -/
theorem evolves_creation {o : Outcome (Client l size) (Handle l size)}
    (h : c.creation? step = some o) {k : Handle l size} (hk : o.result = .ok k) :
    o.state.system.Evolves (c.take step).state.system := by
  obtain ⟨shard, op⟩ := step
  obtain ⟨scope, hscope, rfl⟩ := creation?_eq_some h
  have htake : (c.take ⟨shard, op⟩).state = (c.perform scope op).state := by
    rw [take, hscope]
  rw [htake]
  cases op with
  | newPage name =>
    rw [perform, Outcome.andThen_of_ok hk]
    exact .refl
  | newGuard name =>
    rw [perform, Outcome.andThen_of_ok hk]
    exact (evolvesBy_hold (P := .suits k.page fun _ _ => True) _ name _).evolves
  | _ => exact absurd h (by simp [creation?])

/-- Each frame that names page `p` is where the table says, unless the page was created. -/
theorem lists_or_beyond_of_history {b : Blueprint} {built : AnyPool} (hbuild : b.build = .ok built)
    (disk : Disk) (durable : Option Lsn)
    {allowed : List Entry → Client built.layout built.size → Step → Prop} {log : List Entry}
    {c : Client built.layout built.size} (h : History allowed (built.start disk durable) log c)
    (p : PageId) (i : Fin built.layout.width) :
    (c.system.pool.shard i).Lists p ∨ (c.system.pool.shard i).Beyond p := by
  refine (h.shards (P := fun i sh => sh.Placed False sh.free ∧ (sh.Lists p ∨ sh.Beyond p))
    (fun i w op hw => ?_) (fun i => ?_) i).2
  · exact ⟨Backed.placed_ask hw.1 False.elim, Backed.lists_or_beyond_ask hw.1 hw.2 op⟩
  · obtain ⟨recency, hshard⟩ := Blueprint.fresh_of_build hbuild i
    show (built.pool.shard i).Placed False (built.pool.shard i).free ∧
      ((built.pool.shard i).Lists p ∨ (built.pool.shard i).Beyond p)
    rw [hshard]
    refine ⟨.fresh _ recency, .inl fun {f} hf => ?_⟩
    -- no frame names a page yet
    have hblank : (Shard.fresh (built.layout.stripe i) built.size).frame f = .blank :=
      Shard.frame_fresh ..
    exact absurd ((congrArg Frame.holds hblank).symm.trans hf) (by simp [Frame.blank])

/-- What is true of a page that is not resident, and of a frame of zeros if it is created then. -/
theorem carries_of_creation (hP : Lasting P) (hplaced : c.system.Placed)
    (hlists : ∀ j, (c.system.pool.shard j).Lists p ∨ (c.system.pool.shard j).Beyond p)
    {o : Outcome (Client l size) (Handle l size)} (hstep : c.creation? step = some o)
    {k : Handle l size} (hk : o.result = .ok k) (hp : k.page = p) (hnew : ¬ c.Resident p)
    (hold : P none (LawfulStore.contents c.system.disk p))
    (hzero : ∀ {stored : Page}, P none stored → P (some (.holding p .zero)) stored) :
    (c.take step).state.Carries p P k.shard := by
  subst hp
  obtain ⟨scope, hscope, rfl⟩ := creation?_eq_some hstep
  obtain ⟨hmade, hafter⟩ := newPage_of_newHandle hk
  have hnext := Backed.nextId_of_newPage hmade
  have howns := (hplaced.confined k.shard).next hnext
  have habsent (j : Fin l.width) : (c.system.pool.shard j).table[k.page]? = none :=
    Option.eq_none_iff_forall_not_mem.mpr fun f hf => hnew ⟨j, f, hf⟩
  -- the page was not created before, for it is the next one
  have hsystem : c.system.Carries k.page P k.shard := by
    refine ⟨hplaced, fun j f hholds => ?_, ?_⟩
    · obtain rfl := Layout.eq_of_owns howns ((hplaced.confined j).holds hholds)
      rcases hlists k.shard with hlists | hbeyond
      · exact hlists hholds
      · exact absurd (hbeyond hnext) (Nat.lt_irrefl _)
    · rw [Shard.frameOf?_of_none (habsent k.shard)]
      exact hold
  refine ⟨howns, (evolvesBy_take (P := .suits k.page P) fun scope' _ => ?_).carries hP
    howns hsystem, (evolves_creation hstep hk).beyond ?_⟩
  · obtain ⟨shard, op⟩ := step
    cases op with
    | newPage | newGuard => exact fun j _ f _ => ⟨habsent j, hzero⟩
    | _ => exact absurd hstep (by simp [creation?])
  · rw [hafter]
    exact Backed.beyond_newPage hmade

/-! ## What is carried -/

/-- Both copies of the page are zeros or the old bytes. -/
def ZeroOr (old : Page) : Option Frame → Page → Prop
  | some frame, stored =>
    (frame.bytes = .zero ∨ frame.bytes = old) ∧ (stored = .zero ∨ stored = old)
  | none, stored => stored = .zero ∨ stored = old

/-- The frame of the page is of zeros. -/
def ZeroInPlace : Option Frame → Page → Prop
  | some frame, _ => frame.bytes = .zero
  | none, _ => True

/-- The page is zeros, also on the disk, where the frame need not be written any more. -/
def ZeroSaved : Option Frame → Page → Prop
  | some frame, stored => frame.bytes = .zero ∧ (frame.dirty = false → stored = .zero)
  | none, stored => stored = .zero

/-- Zeros, or what was stored before, are so for good. -/
theorem lasting_zeroOr (old : Page) : Lasting (ZeroOr old) where
  repin h hbytes _ := ⟨hbytes ▸ h.1, h.2⟩
  save h := ⟨h.1, h.1⟩
  evict h _ := h.2

/-- Zeros in the frame are so as long as the page is there. -/
theorem lasting_zeroInPlace : Lasting ZeroInPlace where
  repin h hbytes _ := hbytes.trans h
  save h := h
  evict _ _ := trivial

/-- Once the page is dirty the store gets its zeros before the frame goes. -/
theorem lasting_zeroSaved : Lasting ZeroSaved where
  repin h hbytes hdirty := by
    refine ⟨hbytes.trans h.1, fun hclean => h.2 ?_⟩
    rw [← Bool.not_eq_true]
    intro hwas
    exact absurd (hclean.symm.trans (hdirty hwas)) (by simp)
  save h := ⟨h.1, fun _ => h.1⟩
  evict h hclean := h.2 hclean

/-- A page that is zeros in its frame, and dirty, is as good as saved. -/
theorem Carries.saved (h : c.Carries p ZeroInPlace i) (hdirty : c.Dirty p) :
    c.Carries p ZeroSaved i := by
  refine ⟨h.owns, ⟨h.system.placed, h.system.lists, ?_⟩, h.beyond⟩
  obtain ⟨j, hj⟩ := hdirty
  obtain ⟨f, hf, hmarked⟩ := Option.map_eq_some_iff.mp hj
  obtain rfl := Layout.eq_of_owns h.owns ((h.system.placed.confined j).table hf)
  have hcopies := h.system.copies
  rw [Shard.frameOf?_of_table hf] at hcopies ⊢
  exact ⟨hcopies, fun hclean => absurd (hmarked.symm.trans hclean) (by simp)⟩

/-- On any pool, preloaded or not, over a disk with any contents, and after every history: a page
that is created, and was not resident, shows zeros or what the disk had of it until it is changed or
deleted; and zeros if it has not left the pool, or was dirty before it did. -/
theorem newPage_of_history {b : Blueprint} {built : AnyPool} (hbuild : b.build = .ok built)
    (disk : Disk) (durable : Option Lsn)
    {allowed : List Entry → Client built.layout built.size → Step → Prop} {log : List Entry}
    {c : Client built.layout built.size} (h : History allowed (built.start disk durable) log c)
    {step : Step} {o : Outcome (Client built.layout built.size) (Handle built.layout built.size)}
    (hstep : c.creation? step = some o) {k : Handle built.layout built.size}
    (hk : o.result = .ok k) (hnew : ¬ c.Resident k.page) :
    (c.take step).state.NewPage k.page (LawfulStore.contents c.system.disk k.page) := by
  have hplaced : c.system.Placed := placed_of_history hbuild disk durable h
  have hlists := lists_or_beyond_of_history hbuild disk durable h k.page
  have hzeroOr := carries_of_creation (lasting_zeroOr (LawfulStore.contents c.system.disk k.page))
    hplaced hlists hstep hk rfl hnew (.inr rfl) fun h => ⟨.inl rfl, h⟩
  have hinPlace := carries_of_creation lasting_zeroInPlace hplaced hlists hstep hk rfl hnew trivial
    fun _ => rfl
  -- a page that is resident does not come in again
  have hstays {log : List Entry} {c' : Client built.layout built.size}
      (h : History (LeavesInPlace k.page) (c.take step).state log c') :
      c'.Carries k.page ZeroInPlace k.shard :=
    hinPlace.history lasting_zeroInPlace h (fun hallowed => hallowed.1)
      fun hallowed hgone => absurd hallowed.2 hgone
  refine ⟨fun h => ?_, fun h hresident => ?_, fun h hdirty _ _ h' => ?_⟩
  · refine (hzeroOr.history (lasting_zeroOr _) h id fun _ _ _ h => ⟨h, h⟩).yields (lasting_zeroOr _)
      (fun _ _ h => ⟨h, h⟩) fun h => h.1
  · exact (hstays h).yields lasting_zeroInPlace (fun hgone => absurd hresident hgone) id
  · have hsaved := (hstays h).saved hdirty
    exact (hsaved.history lasting_zeroSaved h' id fun _ _ _ h => ⟨h, fun _ => h⟩).yields
      lasting_zeroSaved (fun _ _ h => ⟨h, fun _ => h⟩) fun h => h.1

/-- With one frame, over a disk that has page `0` full of sevens: the page is created when it is not
resident. -/
theorem newPage_of_history_one_frame :
    ∃ c : Client (.alone .whole) 1,
      History (fun _ _ _ => True) ((AnyPool.fresh (.alone .whole) 1).start
        (.onMedium (.memory (MemoryStore.empty.write ⟨0, by decide⟩ (.fill 7)))) none) [] c ∧
      (c.take ⟨none, .newPage "a"⟩).result = .ok (.placed ⟨0, by decide⟩ 0) ∧
      ¬ c.Resident ⟨0, by decide⟩ ∧
      (c.take ⟨none, .newPage "a"⟩).state.NewPage ⟨0, by decide⟩ (.fill 7) := by
  have h : History (fun _ _ _ => True) ((AnyPool.fresh (.alone .whole) 1).start
    (.onMedium (.memory (MemoryStore.empty.write ⟨0, by decide⟩ (.fill 7)))) none) [] _ := .start
  have hbuild : Blueprint.build (.alone 1 1 0 none) = .ok (.fresh (.alone .whole) 1) := rfl
  have hnew : ¬ Resident ((AnyPool.fresh (.alone .whole) 1).start
      (.onMedium (.memory (MemoryStore.empty.write ⟨0, by decide⟩ (.fill 7)))) none)
      ⟨0, by decide⟩ := by
    rintro ⟨i, f, hf⟩
    obtain rfl : i = ⟨0, by decide⟩ := Fin.fin_one_eq_zero i
    have hnone : (none : Option (Fin 1)) = some f := hf
    exact absurd hnone (by simp)
  refine ⟨_, h, rfl, hnew, ?_⟩
  exact newPage_of_history hbuild _ none h rfl
    (k := ⟨⟨0, by decide⟩, ⟨0, by decide⟩, ⟨0, by decide⟩⟩) rfl hnew

/-- The same page, unpinned as it was created, makes room for the next one. Fetched again it shows
sevens. -/
theorem not_yields_zero :
    ∃ (log log' : List Entry) (c c' : Client (.alone .whole) 1),
      History (fun _ _ _ => True) ((AnyPool.fresh (.alone .whole) 1).start
        (.onMedium (.memory (MemoryStore.empty.write ⟨0, by decide⟩ (.fill 7)))) none) log c ∧
      log.map Entry.answer = [.ok (.placed ⟨0, by decide⟩ 0)] ∧
      History (LeavesAlone ⟨0, by decide⟩) c log' c' ∧
      log'.map Entry.answer =
        [.ok (.truth true), .ok (.placed ⟨1, by decide⟩ 0), .ok (.truth true)] ∧
      ¬ c'.Yields ⟨0, by decide⟩ (· = .zero) := by
  have h : History (fun _ _ _ => True) ((AnyPool.fresh (.alone .whole) 1).start
    (.onMedium (.memory (MemoryStore.empty.write ⟨0, by decide⟩ (.fill 7)))) none) [] _ := .start
  have h := h.step ⟨none, .newPage "a"⟩ trivial
  have h' := h.rest (LeavesAlone ⟨0, by decide⟩)
  have h' := h'.step ⟨none, .unpin ⟨0, by decide⟩ false⟩ trivial
  have h' := h'.step ⟨none, .newPage "b"⟩ trivial
  have h' := h'.step ⟨none, .unpin ⟨1, by decide⟩ false⟩ trivial
  refine ⟨_, _, _, _, h, rfl, h', rfl, fun hzero => ?_⟩
  -- the page is read from the disk
  have hbytes : Page.fill 7 = .fill 0 :=
    hzero .whole ⟨⟨0, by decide⟩, ⟨0, by decide⟩, ⟨0, by decide⟩⟩ rfl
  exact absurd (Page.fill_injective hbytes) (by decide)

end Client

end PageCache
