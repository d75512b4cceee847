import PageCache.Proofs.Pool.Moves

/-!
# Which shard a new page comes from

A pool tries its shards in turn for a new page, and it is the first one that is not full whose
answer counts (`System.newPage_of_decides`): the shards that it passed over are as they were, and
those after it are not even asked. That first shard may have something else to say than that a page
was created, and then the pool says so too, whatever the others could have done.
-/

namespace PageCache

variable {l : Layout} {size : Nat} {δ : Type}

/-! ## A shard that is full -/

namespace Backed

variable [PageStore δ] {w : Backed size δ} {s : Stripe}

/-- To take a page out of its frame may fail only because the page cannot be written. -/
theorem evict_fails {f : Fin size} {e : Failure} (h : (w.evict f).result = .error e) :
    ∃ cause, e = .storage (.io cause) := by
  rw [evict] at h
  simp only at h
  split at h
  · exact absurd h (by simp)
  next p _ =>
  split at h
  · rcases w.writeBack_cases p f with ⟨disk, -, heq⟩ | ⟨cause, disk, -, heq⟩
    · simp [heq] at h
    · simp only [heq, Outcome.result_fail] at h
      exact ⟨cause, (Except.error.inj h).symm⟩
  · exact absurd h (by simp)

/-- To take a page out of its frame is to have a frame, if it can be done at all. -/
theorem result_evict_ne_full (w : Backed size δ) (f : Fin size) :
    (w.evict f).result ≠ .error (.storage .poolFull) := by
  intro h
  obtain ⟨cause, hcause⟩ := evict_fails h
  exact absurd hcause (by simp)

/-- A search that finds no frame changes nothing. -/
theorem state_acquire_of_full (hfull : w.acquire.result = .error (.storage .poolFull)) :
    w.acquire.state = w := by
  rw [acquire] at hfull ⊢
  split at hfull
  · exact absurd hfull (by simp)
  split at hfull
  · rfl
  · split at hfull
    · exact absurd hfull (result_evict_ne_full _ _)
    · exact absurd hfull (by simp)

/-- A shard that was asked for a new page and is full is as it was before. -/
theorem state_newPage_of_full (hfull : (w.newPage s).result = .error (.storage .poolFull)) :
    (w.newPage s).state = w := by
  have hcreation := w.creation s
  rw [hfull] at hcreation
  generalize (w.newPage s).state = w' at hcreation
  cases hcreation with
  | unplaced _ hsearch => exact state_acquire_of_full hsearch

end Backed

/-! ## Every shard has its turn -/

namespace Layout

theorem mem_tour (l : Layout) (start i : Fin l.width) : i ∈ l.tour start := by
  have hpos := l.width_pos
  -- `i` comes as many places after the start as there are between them, going round
  refine List.mem_map.mpr ⟨(i.val + (l.width - start.val)) % l.width,
    List.mem_range.mpr (Nat.mod_lt _ hpos), Fin.ext ?_⟩
  show (start.val + (i.val + (l.width - start.val)) % l.width) % l.width = i.val
  have hsum : start.val + (i.val + (l.width - start.val)) = i.val + l.width := by omega
  rw [Nat.add_mod_mod, hsum, Nat.add_mod_right, Nat.mod_eq_of_lt i.isLt]

/-- The shard at the start comes first. -/
theorem tour_eq_cons (l : Layout) (start : Fin l.width) : ∃ rest, l.tour start = start :: rest := by
  have hrange : List.range l.width = 0 :: (List.range (l.width - 1)).map Nat.succ := by
    rw [← List.range_succ_eq_map, Nat.sub_add_cancel l.width_pos]
  refine ⟨(l.tour start).tail, ?_⟩
  rw [tour, hrange, List.map_cons, List.tail_cons, List.cons.injEq]
  exact ⟨Fin.ext (Nat.mod_eq_of_lt start.isLt), rfl⟩

end Layout

namespace System

variable [PageStore δ] {w : System l size δ} {i : Fin l.width}

/-- Shard `i` has no frame for a new page. -/
def Full (w : System l size δ) (i : Fin l.width) : Prop :=
  (w.newPageIn i).result = .error (.storage .poolFull)

omit [PageStore δ] in
/-- The system with its cursor moved on. -/
def turned (w : System l size δ) : System l size δ :=
  { w with pool := { w.pool with cursor := l.next w.pool.cursor } }

theorem full_iff :
    w.Full i ↔ ((w.backed i).newPage (l.stripe i)).result = .error (.storage .poolFull) := by
  rw [Full, result_newPageIn]
  cases ((w.backed i).newPage (l.stripe i)).result <;> simp [Except.map]

theorem state_newPageIn_of_full (hfull : w.Full i) : (w.newPageIn i).state = w :=
  onShard_self (Backed.state_newPage_of_full (full_iff.mp hfull))

/-- Shards that are full make no difference to those that are tried after them. -/
theorem newPageAmong_append {before : List (Fin l.width)} (hbefore : ∀ j ∈ before, w.Full j)
    (rest : List (Fin l.width)) :
    (newPageAmong (before ++ rest) w).result = (newPageAmong rest w).result ∧
      (newPageAmong (before ++ rest) w).state = (newPageAmong rest w).state := by
  induction before with
  | nil => exact ⟨rfl, rfl⟩
  | cons j before ih =>
    obtain ⟨hj, hbefore⟩ := List.forall_mem_cons.mp hbefore
    rw [List.cons_append, newPageAmong_of_full hj, state_newPageIn_of_full hj]
    exact ih hbefore

/-- A shard that is not full ends the search. -/
theorem newPageAmong_cons (hi : ¬ w.Full i) (after : List (Fin l.width)) :
    (newPageAmong (i :: after) w).result = (w.newPageIn i).result ∧
      (newPageAmong (i :: after) w).state = (w.newPageIn i).state := by
  cases hresult : (w.newPageIn i).result with
  | ok k => rw [newPageAmong_of_ok hresult]; exact ⟨rfl, rfl⟩
  | error e =>
    have he : e ≠ .storage .poolFull := fun he => hi (hresult.trans (congrArg _ he))
    rw [newPageAmong_of_error hresult he]
    exact ⟨rfl, rfl⟩

/-! ## The shard that decides -/

/-- Shard `i` is the first from the cursor on that is not full. -/
def Decides (w : System l size δ) (i : Fin l.width) : Prop :=
  ∃ before after, l.tour w.pool.cursor = before ++ i :: after ∧ (∀ j ∈ before, w.Full j) ∧
    ¬ w.Full i

theorem decides_cursor (hroom : ¬ w.Full w.pool.cursor) : w.Decides w.pool.cursor := by
  obtain ⟨rest, htour⟩ := l.tour_eq_cons w.pool.cursor
  exact ⟨[], rest, htour, by simp, hroom⟩

theorem full_or_decides (w : System l size δ) : (∀ i, w.Full i) ∨ ∃ i, w.Decides i := by
  have hlist (is : List (Fin l.width)) : (∀ i ∈ is, w.Full i) ∨
      ∃ i before after, is = before ++ i :: after ∧ (∀ j ∈ before, w.Full j) ∧ ¬ w.Full i := by
    induction is with
    | nil => exact .inl (by simp)
    | cons i rest ih =>
      by_cases hfull : w.Full i
      · rcases ih with hall | ⟨j, before, after, rfl, hbefore, hj⟩
        · exact .inl (List.forall_mem_cons.mpr ⟨hfull, hall⟩)
        · exact .inr ⟨j, i :: before, after, rfl, List.forall_mem_cons.mpr ⟨hfull, hbefore⟩, hj⟩
      · exact .inr ⟨i, [], rest, rfl, by simp, hfull⟩
  exact (hlist (l.tour w.pool.cursor)).imp_left fun hall i => hall i (l.mem_tour _ i)

/-- Dealing or not, a pool tries its shards from the cursor on. -/
theorem newPage_eq_among (w : System l size δ) :
    w.newPage.result = (newPageAmong (l.tour w.pool.cursor) w.turned).result ∧
      w.newPage.state = (newPageAmong (l.tour w.pool.cursor) w.turned).state := by
  cases l with
  | alone s =>
    -- there is one shard, and nowhere to go from it
    have honly (i : Fin (Layout.alone s).width) : i = (Layout.alone s).first :=
      Fin.ext (Nat.lt_one_iff.mp i.isLt)
    have hturned : w.turned = w :=
      congrArg (fun cursor => (⟨⟨w.pool.shards, cursor⟩, w.disk⟩ : System (.alone s) size δ))
        ((honly _).trans (honly w.pool.cursor).symm)
    have htour : (Layout.alone s).tour w.pool.cursor = [(Layout.alone s).first] :=
      List.singleton_inj.mpr (honly _)
    have hnew : w.newPage = w.newPageIn (Layout.alone s).first := rfl
    rw [hturned, htour, hnew]
    by_cases hfull : w.Full (Layout.alone s).first
    · rw [newPageAmong_of_full hfull, state_newPageIn_of_full hfull]
      exact ⟨hfull, rfl⟩
    · obtain ⟨hresult, hstate⟩ := newPageAmong_cons hfull []
      exact ⟨hresult.symm, hstate.symm⟩
  | split => exact ⟨rfl, rfl⟩

theorem newPage_of_full (hall : ∀ i, w.Full i) :
    w.newPage.result = .error (.storage .poolFull) ∧ w.newPage.state = w.turned := by
  obtain ⟨hresult, hstate⟩ := w.newPage_eq_among
  have hbefore : ∀ i ∈ l.tour w.pool.cursor, w.turned.Full i := fun i _ => hall i
  have happend := newPageAmong_append hbefore []
  rw [List.append_nil] at happend
  exact ⟨hresult.trans happend.1, hstate.trans happend.2⟩

/-- What the pool says is what the shard says that decides, and it is left as that shard leaves it,
but for the cursor. -/
theorem newPage_of_decides (hi : w.Decides i) :
    w.newPage.result = (w.newPageIn i).result ∧
      w.newPage.state = (w.turned.newPageIn i).state := by
  obtain ⟨before, after, htour, hbefore, hroom⟩ := hi
  obtain ⟨hresult, hstate⟩ := w.newPage_eq_among
  rw [hresult, hstate, htour]
  -- no shard asks where the cursor stands
  have happend := newPageAmong_append (w := w.turned) hbefore (i :: after)
  have hcons := newPageAmong_cons (w := w.turned) hroom after
  exact ⟨happend.1.trans hcons.1, happend.2.trans hcons.2⟩

end System

end PageCache
