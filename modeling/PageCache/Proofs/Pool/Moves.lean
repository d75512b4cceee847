import PageCache.Pool.Basic
import PageCache.Proofs.Shard.Moves

/-!
# The moves of a pool

The shards of a pool have the ids divided among them, so a pool has one view, put together from
those of its shards (`System.view`), and what runs on one shard makes the same moves in it
(`System.Runs.onShard`). The specifications of the operations are those of the shards, told of
handles: `fetch_runs`, `newPage_runs`, `unpin_runs`, `delete_runs`, `flush_runs`, `flushAll_runs`,
and `modifyBytes_runs` for what the holder of a frame does past the pool.
-/

namespace PageCache

/-- A page belongs to one shard at most, and that is where the layout routes it to. -/
theorem Layout.route_eq_of_owns {l : Layout} {i : Fin l.width} {p : PageId}
    (h : (l.stripe i).Owns p) : l.route p = i := by
  cases l with
  | alone s =>
    have hi : i.val < 1 := i.isLt
    have hp : (Layout.route (.alone s) p).val < 1 := (Layout.route (.alone s) p).isLt
    exact Fin.ext (by omega)
  | split count hpos hle => exact Fin.ext h

/-- No page belongs to two shards. -/
theorem Layout.eq_of_owns {l : Layout} {i j : Fin l.width} {p : PageId} (hi : (l.stripe i).Owns p)
    (hj : (l.stripe j).Owns p) : i = j :=
  (route_eq_of_owns hi).symm.trans (route_eq_of_owns hj)

namespace System

variable {l : Layout} {size : Nat} {δ : Type}

/-- The records of every shard agree, no operation being under way. -/
def Kept (w : System l size δ) (capacity : Nat) : Prop :=
  ∀ i, (w.pool.shard i).Kept (l.stripe i) capacity (w.pool.shard i).free

variable [PageStore δ] [LawfulStore δ]

/-- Every shard answers for its own pages. -/
def view (w : System l size δ) : View size where
  slot p :=
    if (l.stripe (l.route p)).Owns p then (w.pool.shard (l.route p)).slot p else none
  stored := LawfulStore.contents w.disk
  unused p := (l.stripe (l.route p)).Owns p ∧ (w.pool.shard (l.route p)).Unused p

variable {w w' w'' : System l size δ} {capacity : Nat} {i : Fin l.width} {p : PageId}

/-- A page lies where its shard has it. -/
theorem slot_view (howns : (l.stripe i).Owns p) :
    w.view.slot p = (w.pool.shard i).slot p := by
  obtain rfl := Layout.route_eq_of_owns howns
  exact if_pos howns

/-- The view of a pool is that of any of its shards, among the others. -/
theorem view_eq_of_ne (h : ∀ j, i ≠ j → w'.pool.shard j = w.pool.shard j) :
    w'.view = (w'.backed i).view (l.stripe i) w.view := by
  have hother {p : PageId} (hp : ¬ (l.stripe i).Owns p) (howns : (l.stripe (l.route p)).Owns p) :
      w'.pool.shard (l.route p) = w.pool.shard (l.route p) :=
    h _ (by rintro rfl; exact hp howns)
  have hslot : ∀ p, w'.view.slot p = ((w'.backed i).view (l.stripe i) w.view).slot p := by
    intro p
    -- the page is one of this shard, of another, or of none
    by_cases hp : (l.stripe i).Owns p
    · rw [slot_view hp, Backed.slot_view hp]
      rfl
    · show _ = if (l.stripe i).Owns p then _ else w.view.slot p
      rw [if_neg hp]
      by_cases howns : (l.stripe (l.route p)).Owns p
      · rw [slot_view howns, slot_view howns, hother hp howns]
      · exact (if_neg howns).trans (if_neg howns).symm
  have hunused : ∀ p, w'.view.unused p = ((w'.backed i).view (l.stripe i) w.view).unused p := by
    intro p
    show (_ ∧ _) = if (l.stripe i).Owns p then (w'.pool.shard i).Unused p else (_ ∧ _)
    by_cases hp : (l.stripe i).Owns p
    · obtain rfl := Layout.route_eq_of_owns hp
      rw [if_pos hp]
      exact propext (and_iff_right hp)
    · rw [if_neg hp]
      exact propext (and_congr_right fun howns => by rw [hother hp howns])
  exact View.ext (funext hslot) rfl (funext hunused)

/-- In the view of a pool each of its shards sees its own pages. -/
theorem view_eq_backed (w : System l size δ) (i : Fin l.width) :
    w.view = (w.backed i).view (l.stripe i) w.view :=
  view_eq_of_ne fun _ _ => rfl

/-! ## Specifications -/

/-- The moves `ms` lead from `w` to `w'`, and on the way the records stay in agreement. -/
structure Runs (capacity : Nat) (w : System l size δ) (ms : List (Move size))
    (w' : System l size δ) : Prop where
  kept : w'.Kept capacity
  path : View.Path w.view ms w'.view
  serves : Serves w.disk w'.disk

namespace Runs

variable {ms ms' : List (Move size)} {α : Type}

theorem refl (h : w.Kept capacity) : Runs capacity w [] w :=
  ⟨h, .nil _, .refl⟩

theorem trans (h : Runs capacity w ms w') (h' : Runs capacity w' ms' w'') :
    Runs capacity w (ms ++ ms') w'' :=
  ⟨h'.kept, h.path.append h'.path, h.serves.trans h'.serves⟩

/-- What runs on one shard runs on the pool. -/
theorem onShard (h : w.Kept capacity)
    {op : Stripe → Backed size δ → Outcome (Backed size δ) α}
    (hruns : Backed.Runs (l.stripe i) capacity (w.backed i) ms
      (op (l.stripe i) (w.backed i)).state) :
    Runs capacity w ms (w.onShard i op).state := by
  refine ⟨fun j => ?_, ?_, hruns.serves⟩
  · rw [shard_onShard]
    split
    · next hij => exact hij ▸ hruns.kept
    · exact h j
  · -- the shard sees its moves among the pages of the others
    have hpath := hruns.path w.view
    rw [← view_eq_backed] at hpath
    have hview : (w.onShard i op).state.view =
        ((w.onShard i op).state.backed i).view (l.stripe i) w.view :=
      view_eq_of_ne fun j hij => by rw [shard_onShard, if_neg hij]
    have hbacked : (w.onShard i op).state.backed i = (op (l.stripe i) (w.backed i)).state := by
      rw [backed, shard_onShard, if_pos rfl]
      rfl
    rw [hview, hbacked]
    exact hpath

end Runs

/-! ## Fetching -/

/-- A handle of page `p` comes of a pin or of a load of that page, in the frame the handle names. -/
def Fetched (p : PageId) (ms : List (Move size)) : Except Failure (Handle l size) → Prop
  | .ok h => h.page = p ∧ (l.stripe h.shard).Owns p ∧
      ((Move.pin p h.frame).Ends ms ∨ (Move.load p h.frame).Ends ms)
  | .error _ => Move.AllQuiet ms

/-- A fetch pins its page where it lies, or loads it; if it fails, only quiet moves were made. -/
theorem fetchIn_runs (h : w.Kept capacity) (i : Fin l.width) (p : PageId) :
    ∃ ms, Runs capacity w ms (w.fetchIn i p).state ∧ Fetched p ms (w.fetchIn i p).result := by
  obtain ⟨ms, hruns, hfetched⟩ := Backed.fetch_runs (w := w.backed i) (h i) p
  have hpool : Runs capacity w ms (w.onShard i fun s b => b.fetch s p).state := .onShard h hruns
  refine ⟨ms, hpool, ?_⟩
  show Fetched p ms (((w.backed i).fetch (l.stripe i) p).result.map fun f => ⟨p, i, f⟩)
  cases hresult : ((w.backed i).fetch (l.stripe i) p).result with
  | error e =>
    rw [hresult] at hfetched
    exact hfetched
  | ok f =>
    rw [hresult] at hfetched
    exact ⟨rfl, Backed.owns_of_fetch hresult, hfetched⟩

/-! ## Creating pages -/

/-- A handle of a new page comes of its creation, in the frame the handle names. -/
def Created (ms : List (Move size)) : Except Failure (Handle l size) → Prop
  | .ok h => (l.stripe h.shard).Owns h.page ∧ (Move.create h.page h.frame).Ends ms
  | .error _ => Move.AllQuiet ms

/-- Quiet moves may come before. -/
theorem Created.after {ms quiet : List (Move size)} {r : Except Failure (Handle l size)}
    (h : Created ms r) (hquiet : Move.AllQuiet quiet) : Created (quiet ++ ms) r := by
  cases r with
  | error e => exact hquiet.append h
  | ok k => exact ⟨h.1, h.2.after hquiet⟩

omit [LawfulStore δ] in
/-- A shard answers with the place of the page, told as a handle. -/
theorem result_newPageIn (w : System l size δ) (i : Fin l.width) :
    (w.newPageIn i).result =
      ((w.backed i).newPage (l.stripe i)).result.map fun placed => ⟨placed.1, i, placed.2⟩ :=
  rfl

/-- A creation in one shard creates the page that is answered; if it fails, only quiet moves were
made. -/
theorem newPageIn_runs (h : w.Kept capacity) (i : Fin l.width)
    (hspared : ∀ {k : Handle l size}, (w.newPageIn i).result = .ok k →
      w.view.slot k.page = none) :
    ∃ ms, Runs capacity w ms (w.newPageIn i).state ∧ Created ms (w.newPageIn i).result := by
  have hanswer := w.result_newPageIn i
  -- the id that is given is the next one, and that is of the stripe
  have howned {p : PageId} {f : Fin size}
      (hresult : ((w.backed i).newPage (l.stripe i)).result = .ok (p, f)) :
      (l.stripe i).Owns p :=
    (h i).next_owned (Backed.nextId_of_newPage hresult)
  obtain ⟨ms, hruns, hcreated⟩ := Backed.newPage_runs (w := w.backed i) (h i)
    fun {p f} hresult => by
      have hnone := hspared (hanswer.trans (congrArg _ hresult))
      rw [slot_view (howned hresult)] at hnone
      exact Shard.slot_eq_none_iff.mp hnone
  refine ⟨ms, Runs.onShard h hruns, ?_⟩
  rw [hanswer]
  cases hresult : ((w.backed i).newPage (l.stripe i)).result with
  | error e =>
    rw [hresult] at hcreated
    exact hcreated
  | ok pf =>
    rw [hresult] at hcreated
    exact ⟨howned hresult, hcreated⟩

section

omit [LawfulStore δ]

variable {rest : List (Fin l.width)}

/-- The first shard that creates the page ends the search, and it is told which one it was. -/
theorem newPageAmong_of_ok {k : Handle l size} (h : (w.newPageIn i).result = .ok k) :
    newPageAmong (i :: rest) w =
      ⟨.ok k, (w.newPageIn i).state, (w.newPageIn i).events ++ [.shardCreated i k.page]⟩ := by
  simp only [newPageAmong, h]

/-- A shard that is full hands on to the rest. -/
theorem newPageAmong_of_full (h : (w.newPageIn i).result = .error (.storage .poolFull)) :
    newPageAmong (i :: rest) w =
      (newPageAmong rest (w.newPageIn i).state).after (w.newPageIn i).events := by
  simp only [newPageAmong, h]

/-- Any other failure ends the search. -/
theorem newPageAmong_of_error {e : Failure} (h : (w.newPageIn i).result = .error e)
    (he : e ≠ .storage .poolFull) :
    newPageAmong (i :: rest) w = ⟨.error e, (w.newPageIn i).state, (w.newPageIn i).events⟩ := by
  rw [newPageAmong]
  split <;> simp_all

end

/-- Shards that are full are passed over with quiet moves. -/
theorem newPageAmong_runs (shards : List (Fin l.width)) (h : w.Kept capacity)
    (hspared : ∀ {k : Handle l size}, (newPageAmong shards w).result = .ok k →
      w.view.slot k.page = none) :
    ∃ ms, Runs capacity w ms (newPageAmong shards w).state ∧
      Created ms (newPageAmong shards w).result := by
  induction shards generalizing w with
  | nil => exact ⟨[], .refl h, Move.allQuiet_nil⟩
  | cons i rest ih =>
    cases hresult : (w.newPageIn i).result with
    | ok k =>
      rw [newPageAmong_of_ok hresult] at hspared ⊢
      obtain ⟨ms, hruns, hcreated⟩ := newPageIn_runs h i fun hk => hspared (hresult.symm.trans hk)
      exact ⟨ms, hruns, hresult ▸ hcreated⟩
    | error e =>
      obtain ⟨quiet, hruns, hquiet⟩ := newPageIn_runs h i fun hk => by simp [hresult] at hk
      rw [hresult] at hquiet
      by_cases hfull : e = .storage .poolFull
      · subst hfull
        rw [newPageAmong_of_full hresult] at hspared ⊢
        -- what was not resident before is not so now
        obtain ⟨ms, hrest, hcreated⟩ := ih hruns.kept fun hk =>
          hruns.path.slot_none_of_quiet hquiet (hspared hk)
        exact ⟨quiet ++ ms, hruns.trans hrest, hcreated.after hquiet⟩
      · -- an error that ends the search leaves what was moved to make room
        rw [newPageAmong_of_error hresult hfull]
        exact ⟨quiet, hruns, hquiet⟩

/-- A creation creates the page that is answered; if it fails, only quiet moves were made. -/
theorem newPage_runs (h : w.Kept capacity)
    (hspared : ∀ {k : Handle l size}, w.newPage.result = .ok k → w.view.slot k.page = none) :
    ∃ ms, Runs capacity w ms w.newPage.state ∧ Created ms w.newPage.result := by
  rw [newPage] at hspared ⊢
  -- dealt around from the cursor, or there is but one shard
  split
  · next hdeals =>
    rw [if_pos hdeals] at hspared
    obtain ⟨ms, hruns, hcreated⟩ := newPageAmong_runs (l.tour w.pool.cursor)
      (w := { w with pool := { w.pool with cursor := l.next w.pool.cursor } }) h hspared
    exact ⟨ms, ⟨hruns.kept, hruns.path, hruns.serves⟩, hcreated⟩
  · next hdeals =>
    rw [if_neg hdeals] at hspared
    exact newPageIn_runs h l.first hspared

/-! A new page takes an id that was still to be given out. -/

/-- The page that one shard creates had not been given out. -/
theorem unused_of_newPageIn {k : Handle l size} (h : w.Kept capacity)
    (hresult : (w.newPageIn i).result = .ok k) : w.view.unused k.page := by
  rw [result_newPageIn] at hresult
  cases hnew : ((w.backed i).newPage (l.stripe i)).result with
  | error e => rw [hnew] at hresult; exact absurd hresult (by simp [Except.map])
  | ok pf =>
    rw [hnew] at hresult
    obtain rfl := Except.ok.inj hresult
    have hnext := Backed.nextId_of_newPage hnew
    rw [view_eq_backed w i]
    exact Backed.unused_of_nextId ((h i).next_owned hnext) hnext

/-- The page that one of several shards creates had not been given out. -/
theorem unused_of_newPageAmong {k : Handle l size} (shards : List (Fin l.width))
    (h : w.Kept capacity) (hresult : (newPageAmong shards w).result = .ok k) :
    w.view.unused k.page := by
  induction shards generalizing w with
  | nil => exact absurd hresult (by simp [newPageAmong])
  | cons i rest ih =>
    cases hin : (w.newPageIn i).result with
    | ok k' =>
      rw [newPageAmong_of_ok hin] at hresult
      obtain rfl := Except.ok.inj hresult
      exact unused_of_newPageIn h hin
    | error e =>
      by_cases hfull : e = .storage .poolFull
      · subst hfull
        -- a shard that is full gives out no id
        obtain ⟨quiet, hruns, hquiet⟩ := newPageIn_runs h i fun hk => by simp [hin] at hk
        rw [hin] at hquiet
        rw [newPageAmong_of_full hin] at hresult
        rw [← hruns.path.unused_of_quiet hquiet]
        exact ih hruns.kept hresult
      · rw [newPageAmong_of_error hin hfull] at hresult
        exact absurd hresult (by simp)

/-- A page that is created had not been given out. -/
theorem unused_of_newPage {k : Handle l size} (h : w.Kept capacity)
    (hresult : w.newPage.result = .ok k) : w.view.unused k.page := by
  rw [newPage] at hresult
  split at hresult
  · exact unused_of_newPageAmong (l.tour w.pool.cursor)
      (w := { w with pool := { w.pool with cursor := l.next w.pool.cursor } }) h hresult
  · exact unused_of_newPageIn h hresult

/-! ## Unpinning and deleting -/

/-- An unpin is one move if there was a pin, and none if there was not. -/
theorem unpinIn_runs (h : w.Kept capacity) (i : Fin l.width) (p : PageId) (dirty : Bool) :
    ∃ ms, Runs capacity w ms (w.onShard i fun s b => b.unpin s p dirty).state ∧
      Backed.Moved (.unpin p dirty) ms (w.onShard i fun s b => b.unpin s p dirty).result := by
  obtain ⟨ms, hruns, hmoved⟩ := Backed.unpin_runs (w := w.backed i) (h i) p dirty
  exact ⟨ms, .onShard h hruns, hmoved⟩

/-- A deletion discards the page and says so, or makes no move. -/
theorem deleteIn_runs (h : w.Kept capacity) (i : Fin l.width) (p : PageId) :
    ∃ ms, Runs capacity w ms (w.onShard i fun s b => b.delete s p).state ∧
      (ms = [] ∨ ms = [.discard p] ∧ (w.onShard i fun s b => b.delete s p).result = .ok true) := by
  obtain ⟨ms, hruns, hmoved⟩ := Backed.delete_runs (w := w.backed i) (h i) p
  exact ⟨ms, .onShard h hruns, hmoved⟩

/-! ## Flushing -/

/-- A flush of one page makes quiet moves. -/
theorem flushIn_runs (h : w.Kept capacity) (i : Fin l.width) (p : PageId) :
    ∃ ms, Runs capacity w ms (w.onShard i fun s b => b.flush s p).state ∧ Move.AllQuiet ms := by
  obtain ⟨ms, hruns, hquiet⟩ := Backed.flush_runs (w := w.backed i) (h i) p
  exact ⟨ms, .onShard h hruns, hquiet⟩

/-- A flush of one shard makes quiet moves, and leaves its pages clean unless it fails. -/
theorem flushAllIn_runs (h : w.Kept capacity) (visit : Visit) (i : Fin l.width) :
    ∃ ms, Runs capacity w ms (w.onShard i fun _ b => b.flushAll visit).state ∧
      Move.AllQuiet ms ∧ ((w.onShard i fun _ b => b.flushAll visit).result = .ok () →
        ∀ p, (l.stripe i).Owns p →
          (w.onShard i fun _ b => b.flushAll visit).state.view.Clean p) := by
  obtain ⟨ms, hruns, hquiet, hclean⟩ := Backed.flushAll_runs (w := w.backed i) visit (h i)
  have hpool : Runs capacity w ms (w.onShard i fun _ b => b.flushAll visit).state :=
    .onShard h hruns
  refine ⟨ms, hpool, hquiet, fun hok p howns => ?_⟩
  -- the shard is clean in any view of the others, so in this one
  have hshard := hclean hok p howns w.view
  intro f frame hslot
  refine hshard f frame ?_
  rw [Backed.slot_view howns]
  rw [slot_view howns, shard_onShard, if_pos rfl] at hslot
  exact hslot

/-- A flush of some shards makes quiet moves, and leaves their pages clean unless it fails. -/
theorem flushShards_runs (visit : Visit) (shards : List (Fin l.width)) (h : w.Kept capacity) :
    ∃ ms, Runs capacity w ms (flushShards visit shards w).state ∧ Move.AllQuiet ms ∧
      ((flushShards visit shards w).result = .ok () →
        ∀ i ∈ shards, ∀ p, (l.stripe i).Owns p →
          (flushShards visit shards w).state.view.Clean p) := by
  induction shards generalizing w with
  | nil => exact ⟨[], .refl h, Move.allQuiet_nil, fun _ i hi => absurd hi List.not_mem_nil⟩
  | cons i rest ih =>
    obtain ⟨ms, hruns, hquiet, hclean⟩ := flushAllIn_runs h visit i
    rw [flushShards]
    cases hresult : (w.onShard i fun _ b => b.flushAll visit).result with
    | error e =>
      rw [Outcome.andThen_of_error hresult]
      exact ⟨ms, hruns, hquiet, fun hok => absurd hok (by simp)⟩
    | ok _ =>
      rw [Outcome.andThen_of_ok hresult]
      obtain ⟨ms', hrest, hquiet', hpages⟩ := ih hruns.kept
      refine ⟨ms ++ ms', hruns.trans hrest, hquiet.append hquiet', fun hok j hj p howns => ?_⟩
      rcases List.mem_cons.mp hj with rfl | hj
      · -- the shards that are flushed later make quiet moves too
        exact hrest.path.clean_of_quiet hquiet' (hclean hresult p howns)
      · exact hpages hok j hj p howns

/-- A flush of the pool makes quiet moves, and leaves every page clean unless it fails. -/
theorem flushAll_runs (visit : Visit) (h : w.Kept capacity) :
    ∃ ms, Runs capacity w ms (w.flushAll visit).state ∧ Move.AllQuiet ms ∧
      ((w.flushAll visit).result = .ok () → ∀ p, (w.flushAll visit).state.view.Clean p) := by
  obtain ⟨ms, hruns, hquiet, hclean⟩ := flushShards_runs visit (List.finRange l.width) h
  refine ⟨ms, hruns, hquiet, fun hok p f frame hslot => ?_⟩
  -- a page that no shard owns is nowhere, and cannot be dirty
  by_cases howns : (l.stripe (l.route p)).Owns p
  · exact hclean hok _ (List.mem_finRange _) p howns f frame hslot
  · exact absurd ((if_neg howns).symm.trans hslot) (by simp)

/-! ## Reaching into a frame -/

/-- A handle that tells the truth reaches the bytes of its page. -/
theorem bytes_eq_of_slot {k : Handle l size} {frame : Frame}
    (howns : (l.stripe k.shard).Owns k.page)
    (hslot : w.view.slot k.page = some (k.frame, frame)) : w.bytes k = w.view.bytes k.page := by
  rw [View.bytes_of_slot hslot]
  rw [slot_view howns] at hslot
  exact congrArg Frame.bytes (Shard.slot_eq_some_iff.mp hslot).2

/-- Where a page lies is told by the shard that owns it. -/
theorem lies_iff {f : Fin size} {page : Page} (howns : (l.stripe i).Owns p) :
    w.view.Lies p f page ↔ (w.pool.shard i).table[p]? = some f ∧
      ((w.pool.shard i).frame f).bytes = page := by
  constructor
  · rintro ⟨frame, hslot, hbytes⟩
    rw [slot_view howns, Shard.slot_eq_some_iff] at hslot
    exact ⟨hslot.1, hslot.2 ▸ hbytes⟩
  · rintro ⟨hp, hbytes⟩
    exact ⟨_, (slot_view howns).trans (Shard.slot_of_table hp), hbytes⟩

/-- Reaching into a frame is an operation on its shard. -/
def reach (f : Fin size) (g : Page → Page) (_ : Stripe) (b : Backed size δ) :
    Outcome (Backed size δ) Unit :=
  .ok () { b with
    shard := b.shard.setFrame f { b.shard.frame f with bytes := g (b.shard.frame f).bytes } }

omit [PageStore δ] [LawfulStore δ] in
/-- Whoever reaches into a frame asks only the shard of the frame. -/
theorem modifyBytes_eq_onShard (w : System l size δ) (k : Handle l size) (g : Page → Page) :
    w.modifyBytes k g = (w.onShard k.shard (reach k.frame g)).state :=
  rfl

/-- Reaching into a frame edits the page that lies there, if there is one. -/
theorem modifyBytes_runs (h : w.Kept capacity) (k : Handle l size) (g : Page → Page) :
    ∃ ms, Runs capacity w ms (w.modifyBytes k g) ∧ (ms = [] ∨ ∃ p, ms = [.edit p g]) := by
  obtain ⟨ms, hruns, hms⟩ := Backed.reach_runs (w := w.backed k.shard) (h k.shard) k.frame g
  rw [modifyBytes_eq_onShard]
  exact ⟨ms, .onShard h hruns, hms⟩

/-- A write through a handle that tells the truth changes the bytes of its page. -/
theorem modifyBytes_runs_of_slot (h : w.Kept capacity) {k : Handle l size} {frame : Frame}
    (howns : (l.stripe k.shard).Owns k.page) (hslot : w.view.slot k.page = some (k.frame, frame))
    (g : Page → Page) : Runs capacity w [.edit k.page g] (w.modifyBytes k g) := by
  rw [slot_view howns] at hslot
  obtain ⟨hp, -⟩ := Shard.slot_eq_some_iff.mp hslot
  have hedit := Backed.edit_runs (w := w.backed k.shard) (h k.shard) hp g
  rw [modifyBytes_eq_onShard]
  exact .onShard h hedit

end System

end PageCache
