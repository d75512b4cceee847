import Mathlib.Data.Nat.Find
import PageCache.Proofs.Client.Journal
import PageCache.Proofs.Pool.Build

/-!
# New pages are dealt out in turn

The shards of a pool take turns. The `k`th new page that the pool is asked for, whatever came of the
others, is sought from shard `k` on, going round; the first shard that is not full decides, and it
decides alone (`System.DealsFrom`). All that moves the cursor is a new page that is asked of the
whole pool (`Client.cursor_take`), so a history has only to be counted
(`Client.dealsFrom_of_history`).
-/

namespace PageCache

namespace Layout

/-- The shard one comes to `k` places from the first, going round. -/
def place (l : Layout) (k : Nat) : Fin l.width :=
  ⟨k % l.width, Nat.mod_lt _ l.width_pos⟩

variable {l : Layout}

theorem next_place (l : Layout) (k : Nat) : l.next (l.place k) = l.place (k + 1) :=
  Fin.ext (Nat.mod_add_mod k l.width 1)

theorem tour_place (l : Layout) (k : Nat) :
    l.tour (l.place k) = (List.range l.width).map fun m => l.place (k + m) := by
  rw [tour]
  exact List.map_congr_left fun m _ => Fin.ext (Nat.mod_add_mod k l.width m)

/-- A tour up to a shard of it, that shard, and the rest. -/
theorem tour_place_split (k : Nat) {j : Nat} (hj : j < l.width) :
    ∃ rest, l.tour (l.place k) =
      ((List.range j).map fun m => l.place (k + m)) ++ l.place (k + j) :: rest := by
  obtain ⟨r, hr⟩ : ∃ r, l.width = j + 1 + r := Nat.exists_eq_add_of_le hj
  have hrange : List.range l.width = List.range j ++ j :: (List.range r).map (j + 1 + ·) := by
    rw [hr, List.range_add, List.range_succ, List.append_assoc]
    rfl
  refine ⟨((List.range r).map (j + 1 + ·)).map fun m => l.place (k + m), ?_⟩
  rw [tour_place, hrange, List.map_append, List.map_cons]

end Layout

namespace System

variable {l : Layout} {size : Nat} {δ : Type} [PageStore δ] {w : System l size δ}

/-- The shards that a new page is asked of, in order. -/
def asked (w : System l size δ) : List (Fin l.width) :=
  (w.exchanges .newPage).map Exchange.shard

/-- Shard `i` answers for itself that it has no frame to spare. -/
def SaysFull (w : System l size δ) (i : Fin l.width) : Prop :=
  ((w.backed i).newPage (l.stripe i)).result = .error (.storage .poolFull)

/-- A new page is sought from the shard at place `k` on, and comes from the first that has room. -/
structure DealsFrom (w : System l size δ) (k : Nat) : Prop where
  cursor : w.pool.cursor = l.place k
  /-- The next one is sought from the shard after that, whatever comes of this. -/
  moves : w.newPage.state.pool.cursor = l.place (k + 1)
  full_iff : w.newPage.result = .error (.storage .poolFull) ↔ ∀ i, w.SaysFull i
  /-- If all shards are full, all were asked, and nothing happens. -/
  refused : (∀ i, w.SaysFull i) →
    w.asked = (List.range l.width).map (fun m => l.place (k + m)) ∧
      (∀ i, w.newPage.state.pool.shard i = w.pool.shard i) ∧ w.newPage.state.disk = w.disk
  /-- Otherwise there is a first one that is not. -/
  decides : ¬ (∀ i, w.SaysFull i) → ∃ j < l.width, ¬ w.SaysFull (l.place (k + j)) ∧
    ∀ m < j, w.SaysFull (l.place (k + m))
  /-- What the pool answers and does is what that shard answers and does. -/
  decided : ∀ j < l.width, ¬ w.SaysFull (l.place (k + j)) →
    (∀ m < j, w.SaysFull (l.place (k + m))) →
      let i := l.place (k + j)
      let own := (w.backed i).newPage (l.stripe i)
      w.asked = (List.range (j + 1)).map (fun m => l.place (k + m)) ∧
        w.newPage.result = own.result.map (fun (p, f) => ⟨p, i, f⟩) ∧
        w.newPage.state.backed i = own.state ∧
        ∀ i', i' ≠ i → w.newPage.state.pool.shard i' = w.pool.shard i'

/-! ## Which shards are asked -/

theorem saysFull_iff_full {i : Fin l.width} : w.SaysFull i ↔ w.Full i :=
  full_iff.symm

/-- Full shards are passed over. -/
theorem scanned_of_full {before : List (Fin l.width)} (hbefore : ∀ i ∈ before, w.Full i)
    (rest : List (Fin l.width)) :
    (scanned .newPage saysFull (before ++ rest) w).map Exchange.shard =
      before ++ (scanned .newPage saysFull rest w).map Exchange.shard := by
  -- over the shards that are passed over
  induction before with
  | nil => rfl
  | cons i before ih =>
    obtain ⟨hi, hbefore⟩ := List.forall_mem_cons.mp hbefore
    have hstate : (w.serve i .newPage).state = w := state_newPageIn_of_full hi
    rw [List.cons_append, scanned]
    simp only [(w.saysFull_serve i).mpr hi, if_true, hstate, List.map_cons, ih hbefore,
      List.cons_append]

/-- A shard that is not full is the last to be asked. -/
theorem scanned_of_not_full {i : Fin l.width} (hi : ¬ w.Full i) (rest : List (Fin l.width)) :
    (scanned .newPage saysFull (i :: rest) w).map Exchange.shard = [i] := by
  have hends : saysFull (w.serve i .newPage).result = false := by
    rw [← Bool.not_eq_true]
    exact fun hgo => hi ((w.saysFull_serve i).mp hgo)
  rw [scanned]
  simp [hends]

/-! ## One new page -/

/-- If not every shard is full, one of them on the tour is the first that is not. -/
theorem exists_decides {k : Nat} (hroom : ¬ ∀ i, w.SaysFull i) :
    ∃ j < l.width, ¬ w.SaysFull (l.place (k + j)) ∧ ∀ m < j, w.SaysFull (l.place (k + m)) := by
  classical
  obtain ⟨i, hi⟩ := not_forall.mp hroom
  have hsome : ∃ j, j < l.width ∧ ¬ w.SaysFull (l.place (k + j)) := by
    have hmem := l.mem_tour (l.place k) i
    rw [Layout.tour_place] at hmem
    obtain ⟨j, hj, rfl⟩ := List.mem_map.mp hmem
    exact ⟨j, List.mem_range.mp hj, hi⟩
  obtain ⟨hlt, hfirst⟩ := Nat.find_spec hsome
  refine ⟨Nat.find hsome, hlt, hfirst, fun m hm => ?_⟩
  by_contra hroom
  exact Nat.find_min hsome hm ⟨Nat.lt_trans hm hlt, hroom⟩

theorem asked_of_cursor {k : Nat} (hcursor : w.pool.cursor = l.place k) :
    w.asked = (scanned .newPage saysFull (l.tour (l.place k)) w.turned).map Exchange.shard :=
  hcursor ▸ rfl

/-- With the cursor at a place, that is where a new page is sought from. -/
theorem dealsFrom_of_cursor {k : Nat} (hcursor : w.pool.cursor = l.place k) : w.DealsFrom k := by
  have hfull {i : Fin l.width} (hi : w.SaysFull i) : w.turned.Full i := saysFull_iff_full.mp hi
  have hsaid (hall : ∀ i, w.SaysFull i) := newPage_of_full fun i => saysFull_iff_full.mp (hall i)
  -- the shards that are passed over, and the one that is not
  have hdecides {j : Nat} (hj : j < l.width) (hroom : ¬ w.SaysFull (l.place (k + j)))
      (hpassed : ∀ m < j, w.SaysFull (l.place (k + m))) : w.Decides (l.place (k + j)) := by
    obtain ⟨rest, htour⟩ := Layout.tour_place_split k hj
    refine ⟨_, rest, hcursor ▸ htour, fun i hi => ?_, fun h => hroom (saysFull_iff_full.mpr h)⟩
    obtain ⟨m, hm, rfl⟩ := List.mem_map.mp hi
    exact saysFull_iff_full.mp (hpassed m (List.mem_range.mp hm))
  refine
    { cursor := hcursor
      moves := ?_
      full_iff := ⟨fun hresult => ?_, fun hall => (hsaid hall).1⟩
      refused := fun hall => ⟨?_, fun i => ?_, ?_⟩
      decides := exists_decides
      decided := fun j hj hroom hpassed => ⟨?_, ?_, ?_, fun i' hi' => ?_⟩ }
  · have hmoved := w.cursor_call .newPage
    rw [PoolOp.turn, hcursor, Layout.next_place] at hmoved
    exact hmoved
  · by_contra hroom
    obtain ⟨j, hj, hroom, hpassed⟩ := exists_decides (k := k) hroom
    rw [(newPage_of_decides (hdecides hj hroom hpassed)).1] at hresult
    exact hroom (saysFull_iff_full.mpr hresult)
  · have htour : ∀ i ∈ l.tour (l.place k), w.turned.Full i := fun i _ => hfull (hall i)
    have hscanned := scanned_of_full htour []
    rw [List.append_nil] at hscanned
    rw [asked_of_cursor hcursor, hscanned, Layout.tour_place]
    exact List.append_nil _
  · rw [(hsaid hall).2]
    rfl
  · rw [(hsaid hall).2]
    rfl
  · obtain ⟨rest, htour⟩ := Layout.tour_place_split k hj
    have hbefore : ∀ i ∈ (List.range j).map (fun m => l.place (k + m)), w.turned.Full i := by
      intro i hi
      obtain ⟨m, hm, rfl⟩ := List.mem_map.mp hi
      exact hfull (hpassed m (List.mem_range.mp hm))
    have hroom : ¬ w.turned.Full (l.place (k + j)) := fun h => hroom (saysFull_iff_full.mpr h)
    rw [asked_of_cursor hcursor, htour, scanned_of_full hbefore, scanned_of_not_full hroom,
      List.range_succ, List.map_append]
    rfl
  · rw [(newPage_of_decides (hdecides hj hroom hpassed)).1, result_newPageIn]
  · rw [(newPage_of_decides (hdecides hj hroom hpassed)).2]
    exact backed_onShard w.turned _ _
  · rw [(newPage_of_decides (hdecides hj hroom hpassed)).2]
    exact (shard_onShard w.turned _ _ _).trans (if_neg (Ne.symm hi'))

/-- The cursor moves with the calls, whatever is answered. -/
theorem cursor_after (calls : List (PoolOp l size)) (w : System l size δ) :
    (w.after calls).pool.cursor = calls.foldl (fun cursor c => c.turn cursor) w.pool.cursor := by
  induction calls generalizing w with
  | nil => rfl
  | cons c calls ih =>
    rw [List.foldl_cons, ← cursor_call]
    exact ih _

end System

/-! ## Histories -/

/-- The whole pool is asked for a new page. -/
def Step.deals (l : Layout) (step : Step) : Bool :=
  match l.scope? step.shard, step.op with
  | some .whole, .newPage _ | some .whole, .newGuard _ => true
  | _, _ => false

/-- A shard that has a preload stands alone. -/
theorem Blueprint.unloaded_of_deals {b : Blueprint} {built : AnyPool}
    (hbuild : b.build = .ok built) (hdeals : built.layout.deals = true) : b.Unloaded := by
  cases b with
  | alone size count index preload =>
    rw [build] at hbuild
    split at hbuild
    · exact absurd hbuild (by simp)
    · cases preload <;>
        (obtain rfl := Except.ok.inj hbuild
         exact absurd hdeals (by simp [AnyPool.fresh, Layout.deals]))
  | split | checked => trivial

namespace Client

variable {l : Layout} {size : Nat} {c : Client l size}

theorem turn_lettingGo (c : Client l size) (name : String) (cursor : Fin l.width) :
    (c.lettingGo name).foldl (fun cursor call => call.turn cursor) cursor = cursor := by
  rw [lettingGo]
  cases c.guards[name]? <;> rfl

theorem turn_ite_lettingGo (c : Client l size) (name : String) (had : Bool)
    (cursor : Fin l.width) :
    (if had then c.lettingGo name else []).foldl (fun cursor call => call.turn cursor) cursor =
      cursor := by
  cases had with
  | true => exact turn_lettingGo c name cursor
  | false => rfl

/-- Nothing moves the cursor but a new page that is asked of the whole pool. -/
theorem cursor_take (c : Client l size) (step : Step) :
    (c.take step).state.system.pool.cursor =
      if step.deals l then l.next c.system.pool.cursor else c.system.pool.cursor := by
  obtain ⟨shard, op⟩ := step
  rw [take, Step.deals]
  cases l.scope? shard with
  | none => rfl
  | some scope =>
    dsimp only
    -- the disk is set up without a call to the pool; all else is the calls that it comes down to
    by_cases hop : ∃ r, op = .disk r
    · obtain ⟨r, rfl⟩ := hop
      cases scope <;> rfl
    · rw [system_perform c scope fun r hr => hop ⟨r, hr⟩, System.cursor_after]
      cases op with
      | disk r => exact absurd ⟨r, rfl⟩ hop
      | newGuard name | fetchGuard _ _ name =>
        rw [asksFor, List.foldl_cons, turn_ite_lettingGo]
        cases scope <;> rfl
      | dropGuard name => cases scope <;> exact turn_lettingGo c name _
      | writeHandle name edits =>
        rw [asksFor]
        cases c.handles[name]? <;> cases scope <;> rfl
      | writeGuard name edits =>
        rw [asksFor]
        cases c.guards[name]? with
        | none => cases scope <;> rfl
        | some g =>
          dsimp only
          cases g.access <;> cases scope <;> rfl
      | _ => cases scope <;> rfl

/-- The cursor has moved as often as there were calls for a new page. -/
theorem cursor_of_history {c₀ : Client l size} {log : List Entry}
    (h : History (fun _ _ _ => True) c₀ log c) (hstart : c₀.system.pool.cursor = l.place 0) :
    c.system.pool.cursor = l.place (log.countP fun entry => entry.step.deals l) := by
  -- over the history: only a call for a new page turns the cursor
  induction h with
  | start => exact hstart
  | @step log c _ step _ ih =>
    rw [cursor_take, ih, List.countP_append, List.countP_singleton]
    split
    · exact l.next_place _
    · rfl

/-- Whatever has been asked of a pool of shards, all together or one by one, and whatever came of
it: the next new page is sought from the shard whose turn it is, by the number of times that the
pool has been asked for one. -/
theorem dealsFrom_of_history {b : Blueprint} {built : AnyPool} (hbuild : b.build = .ok built)
    (hdeals : built.layout.deals = true) (disk : Disk) (durable : Option Lsn) {log : List Entry}
    {c : Client built.layout built.size}
    (h : History (fun _ _ _ => True) (built.start disk durable) log c) :
    c.system.DealsFrom (log.countP fun entry => entry.step.deals built.layout) := by
  have hcursor := Blueprint.cursor_of_build hbuild (Blueprint.unloaded_of_deals hbuild hdeals)
  refine System.dealsFrom_of_cursor (cursor_of_history h (hcursor.trans (Fin.ext ?_)))
  exact (Nat.zero_mod _).symm

/-- Two shards of one frame. The fourth new page is sought from the second shard on, since the third
call moved the cursor although both were full. The second shard still is, and the first has a page
to evict. -/
theorem dealsFrom_of_history_two_shards :
    ∃ (log : List Entry) (c : Client (.split 2 (by decide) (by decide)) 1),
      History (fun _ _ _ => True)
        ((AnyPool.fresh (.split 2 (by decide) (by decide)) 1).start
          (.onMedium (.memory .empty)) none) log c ∧
      log.map Entry.answer = [.ok (.placed ⟨0, by decide⟩ 0), .ok (.placed ⟨1, by decide⟩ 0),
        .error (.storage .poolFull), .ok (.truth true)] ∧
      c.system.DealsFrom 3 ∧ c.system.asked = [⟨1, by decide⟩, ⟨0, by decide⟩] ∧
      c.system.newPage.result =
        .ok ⟨⟨2, by decide⟩, ⟨0, by decide⟩, ⟨0, by decide⟩⟩ := by
  have h : History (fun _ _ _ => True)
      ((AnyPool.fresh (.split 2 (by decide) (by decide)) 1).start
        (.onMedium (.memory .empty)) none) [] _ := .start
  have h := h.step ⟨none, .newPage "a"⟩ trivial
  have h := h.step ⟨none, .newPage "b"⟩ trivial
  have h := h.step ⟨none, .newGuard "c"⟩ trivial
  have h := h.step ⟨some 0, .unpin ⟨0, by decide⟩ true⟩ trivial
  have hbuild : Blueprint.build (.split 1 2) =
      .ok (.fresh (.split 2 (by decide) (by decide)) 1) := rfl
  exact ⟨_, _, h, rfl, dealsFrom_of_history hbuild rfl _ none h, rfl, rfl⟩

end Client

end PageCache
