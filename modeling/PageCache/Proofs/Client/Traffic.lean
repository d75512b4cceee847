import PageCache.Proofs.Client.Journal

/-!
# Flags and disk traffic are exact

The flag of a resident page says no more and no less than that somebody unpinned it as changed after
it came in and after it was last written (`ChangedSince`). So a pool writes a page only when there
is something to write, and never more often than there were changes; and it reads a page only to
bring it in, once (`Client.traffic_of_history`). The recency list may be any, and faults may be in
the way of any call.
-/

namespace PageCache

variable {l : Layout} {size : Nat} {δ : Type} [PageStore δ]

/-- Page `p` was unpinned as changed, and neither came in nor was written after that. -/
def ChangedSince (p : PageId) (es : List (Errand l size δ)) : Prop :=
  ∃ past e since, es = past ++ e :: since ∧ e.concern p = .unpins true ∧
    ∀ e' ∈ since, e'.concern p ≠ .brings ∧ e'.saved p = 0

/-- A page was changed since it came in or was written if the last errand says so, or if it was so
before and the last errand neither brings it in nor writes it. -/
theorem changedSince_concat {p : PageId} {es : List (Errand l size δ)} {e : Errand l size δ} :
    ChangedSince p (es ++ [e]) ↔ e.concern p = .unpins true ∨
      ChangedSince p es ∧ e.concern p ≠ .brings ∧ e.saved p = 0 := by
  constructor
  · rintro ⟨past, e₀, since, hsplit, hchanged, hsince⟩
    rcases split_of_concat hsplit with ⟨-, rfl, -⟩ | ⟨since, rfl, rfl⟩
    · exact .inl hchanged
    · obtain ⟨hsince, hlast⟩ := List.forall_mem_append.mp hsince
      exact .inr ⟨⟨past, e₀, since, rfl, hchanged, hsince⟩, hlast e List.mem_cons_self⟩
  · rintro (hchanged | ⟨⟨past, e₀, since, rfl, hchanged, hsince⟩, hlast⟩)
    · exact ⟨es, e, [], rfl, hchanged, List.forall_mem_nil _⟩
    · refine ⟨past, e₀, since ++ [e], by simp, hchanged, ?_⟩
      exact List.forall_mem_append.mpr ⟨hsince, List.forall_mem_singleton.mpr hlast⟩

namespace Errand

/-- How often page `p` was written. -/
def savedIn (p : PageId) (es : List (Errand l size δ)) : Nat :=
  Attempt.saved p (es.flatMap calls)

/-- How often page `p` was unpinned as changed. -/
def changesIn (p : PageId) (es : List (Errand l size δ)) : Nat :=
  es.countP fun e => e.concern p = .unpins true

theorem savedIn_concat (p : PageId) (es : List (Errand l size δ)) (e : Errand l size δ) :
    savedIn p (es ++ [e]) = savedIn p es + e.saved p := by
  rw [savedIn, List.flatMap_append, List.flatMap_singleton, Attempt.saved_append]
  rfl

theorem changesIn_concat (p : PageId) (es : List (Errand l size δ)) (e : Errand l size δ) :
    changesIn p (es ++ [e]) = changesIn p es + if e.concern p = .unpins true then 1 else 0 := by
  simp [changesIn, List.countP_append, List.countP_cons]

end Errand

/-- Of a shard that was sent on the errands `es` and is `b` now, flags and traffic are exact. -/
structure TrafficExact (es : List (Errand l size δ)) (b : Backed size δ) : Prop where
  dirty_iff : ∀ {p : PageId} {dirty : Bool}, b.shard.dirty? p = some dirty →
    (dirty = true ↔ ChangedSince p es)
  /-- A page is written only when it is resident and dirty, with the bytes of its frame. -/
  writes : ∀ e ∈ es, ∀ {p : PageId} {bytes : Page}, (p, bytes) ∈ Attempt.writes e.calls →
    ∃ f, e.found.shard.table[p]? = some f ∧ (e.found.shard.frame f).dirty = true ∧
      (e.found.shard.frame f).bytes = bytes
  once : ∀ e ∈ es, ((Attempt.writes e.calls).map Prod.fst).Nodup
  /-- A page that was written is clean, or gone. -/
  clean : ∀ e ∈ es, ∀ p, 0 < e.saved p →
    e.left.shard.dirty? p = some false ∨ e.left.shard.table[p]? = none
  savedIn_le : ∀ p, Errand.savedIn p es ≤ Errand.changesIn p es
  /-- The store is not asked for a page that is there. -/
  resident : ∀ e ∈ es, ∀ {p : PageId}, e.op = .fetch p → e.found.shard.table[p]? ≠ none →
    e.calls = []
  /-- One that is not there is read once, if there is a frame for it. -/
  missing : ∀ e ∈ es, ∀ {p : PageId} {f : Fin size}, e.op = .fetch p → e.stripe.Owns p →
    e.found.shard.table[p]? = none → e.found.acquire.result = .ok f → Attempt.reads e.calls = [p]
  /-- Nothing else is read. -/
  reads : ∀ e ∈ es, ∀ {p : PageId}, p ∈ Attempt.reads e.calls → e.op = .fetch p ∧
    e.found.shard.table[p]? = none ∧ ∃ f, e.found.acquire.result = .ok f

/-! ## One errand -/

namespace Errand

variable {e : Errand l size δ} {p : PageId}

/-- A page that is written is dirty before, and is clean or gone afterwards. -/
theorem Accounted.clean (h : e.Accounted) (hp : 0 < e.saved p) :
    e.left.shard.dirty? p = some false ∨ e.left.shard.table[p]? = none := by
  have hstep := h.record p
  generalize e.found.shard.record? p = r₀, hr : e.left.shard.record? p = r, e.concern p = c,
    e.saved p = k at hstep hp
  cases hstep with
  | brings | hits | unpins | deletes | absent => exact absurd hp (Nat.lt_irrefl 0)
  | idles hidles =>
    cases hidles with
    | stays => exact absurd hp (Nat.lt_irrefl 0)
    | cleaned =>
      left
      rw [Shard.dirty?_eq, hr]
      rfl
    | goes => exact .inr (Shard.record?_eq_none_iff.mp hr)

/-- To fetch a page that is there takes no more than a look at the table. -/
theorem calls_of_resident (hop : e.op = .fetch p) (hp : e.found.shard.table[p]? ≠ none) :
    e.calls = [] := by
  obtain ⟨f, hf⟩ := Option.ne_none_iff_exists'.mp hp
  have hf : e.found.audited.shard.table[p]? = some f := hf
  have hdisk : (e.found.audited.fetch e.stripe p).state.disk = e.found.audited.disk := by
    rw [Backed.fetch]
    split
    · simp only [hf, Backed.pinAgain]
      split <;> rfl
    · rfl
  rw [calls, hop]
  exact congrArg Audited.calls hdisk

theorem Accounted.reads_missing (h : e.Accounted) {f : Fin size} (hop : e.op = .fetch p)
    (howns : e.stripe.Owns p) (hp : e.found.shard.table[p]? = none)
    (hframe : e.found.acquire.result = .ok f) : Attempt.reads e.calls = [p] := by
  rw [h.reads, hop, Backed.wanted, if_pos]
  exact ⟨howns, hp, by rw [hframe]; rfl⟩

/-- What is read is a page that was fetched and missed. -/
theorem Accounted.of_read (h : e.Accounted) (hp : p ∈ Attempt.reads e.calls) :
    e.op = .fetch p ∧ e.found.shard.table[p]? = none ∧ ∃ f, e.found.acquire.result = .ok f := by
  rw [h.reads] at hp
  cases hop : e.op with
  | fetch q =>
    rw [hop, Backed.wanted] at hp
    split at hp
    · next hmiss =>
      obtain rfl := List.mem_singleton.mp hp
      obtain ⟨-, habsent, hok⟩ := hmiss
      refine ⟨rfl, habsent, ?_⟩
      cases hframe : e.found.acquire.result with
      | ok f => exact ⟨f, rfl⟩
      | error cause =>
        rw [hframe] at hok
        exact absurd hok (by simp [Except.isOk, Except.toBool])
    · exact absurd hp List.not_mem_nil
  | _ =>
    rw [hop] at hp
    exact absurd hp List.not_mem_nil

end Errand

/-! ## All errands -/

namespace Diary

variable {i : Fin l.width} {b₀ b : Backed size δ} {es : List (Errand l size δ)} {p : PageId}

/-- A resident page is dirty if it was changed since it came in and was last written, and not
otherwise. -/
theorem dirty_iff (h : Diary i b₀ es b) (h₀ : b₀.shard.Mapped b₀.shard.free)
    (hp : b₀.shard.record? p = none) {n : Nat} {dirty : Bool}
    (hrecord : b.shard.record? p = some (n, dirty)) : dirty = true ↔ ChangedSince p es := by
  refine h.record (P := fun es r => ∀ n dirty, r = some (n, dirty) →
    (dirty = true ↔ ChangedSince p es)) h₀ ?_ ?_ n dirty hrecord
  · rw [hp]
    exact fun _ _ hsome => absurd hsome (by simp)
  · intro es e r ih _ hstep n dirty hr
    rw [changedSince_concat]
    generalize e.found.shard.record? p = r₀, e.concern p = c, e.saved p = k at ih hstep
    subst hr
    cases hstep with
    | brings => simp
    | hits pins => simpa using ih pins dirty rfl
    | unpins _ d changed => simpa [or_comm] using or_congr_left (c := changed = true) (ih _ d rfl)
    | idles hidles =>
      cases hidles with
      | stays => simpa using ih n dirty rfl
      | cleaned => simp

/-- Every change is good for one write, and a page that is dirty still has one to come. -/
theorem savedIn_le (h : Diary i b₀ es b) (h₀ : b₀.shard.Mapped b₀.shard.free)
    (hp : b₀.shard.record? p = none) : Errand.savedIn p es ≤ Errand.changesIn p es := by
  have hmore : Errand.savedIn p es + (b.shard.record? p).elim 0 (fun r => r.2.toNat) ≤
      Errand.changesIn p es := by
    -- a dirty flag is a change that has not been written yet, so it counts together with the writes
    refine h.record (P := fun es r => Errand.savedIn p es + r.elim 0 (fun r => r.2.toNat) ≤
      Errand.changesIn p es) h₀ ?_ ?_
    · rw [hp]
      exact Nat.zero_le _
    · intro es e r ih _ hstep
      rw [Errand.savedIn_concat, Errand.changesIn_concat]
      generalize e.found.shard.record? p = r₀, e.concern p = c, e.saved p = k at ih hstep ⊢
      cases hstep with
      | brings | hits | deletes | absent => simp at ih ⊢; omega
      | unpins _ dirty changed => cases dirty <;> cases changed <;> simp at ih ⊢ <;> omega
      | idles hidles =>
        cases hidles with
        | stays => simpa using ih
        | cleaned => simpa using ih
        | goes => simpa [Nat.add_assoc] using ih
  exact Nat.le_of_add_right_le hmore

/-- The traffic of a shard that began without pages is what its errands account for. -/
theorem trafficExact (h : Diary i b₀ es b) (h₀ : b₀.shard.Mapped b₀.shard.free)
    (hempty : ∀ p, b₀.shard.record? p = none) : TrafficExact es b := by
  have haccounted := h.accounted h₀
  refine
    { dirty_iff := fun {p dirty} hdirty => ?_
      writes := fun e he _ _ hmem => (haccounted e he).unsaved hmem
      once := fun e he => (haccounted e he).once
      clean := fun e he p => (haccounted e he).clean
      savedIn_le := fun p => h.savedIn_le h₀ (hempty p)
      resident := fun e _ p => Errand.calls_of_resident
      missing := fun e he p f => (haccounted e he).reads_missing
      reads := fun e he p => (haccounted e he).of_read }
  rw [Shard.dirty?_eq] at hdirty
  obtain ⟨⟨n, _⟩, hrecord, rfl⟩ := Option.map_eq_some_iff.mp hdirty
  exact h.dirty_iff h₀ (hempty p) hrecord

end Diary

/-! ## Histories -/

namespace Client

/-- However a pool is used, short of creating a page that is resident, and whatever its disk refuses
to do: every flag and every call of the disk is as it should be. -/
theorem traffic_of_history {b : Blueprint} {built : AnyPool} (hbuild : b.build = .ok built)
    (disk : Disk) (durable : Option Lsn) {log : List Entry} {c : Client built.layout built.size}
    (h : History NoTakeover (built.start disk durable) log c) (i : Fin built.layout.width) :
    TrafficExact (Errand.of i ((built.start disk durable).errands log)) (c.system.backed i) :=
  (diary_of_history h i).trafficExact (Blueprint.mapped_of_build hbuild i)
    (Blueprint.record?_of_build hbuild i)

/-- One frame. Page `0` is changed and makes room for page `1`, so it is written, once; then it is
fetched, which reads it, and fetched again, which asks nothing of the disk. -/
theorem traffic_of_history_one_frame :
    ∃ log c, History NoTakeover ((AnyPool.fresh (.alone .whole) 1).start
        (.onMedium (.memory .empty)) none) log c ∧
      let es := Errand.of ⟨0, by decide⟩ (((AnyPool.fresh (.alone .whole) 1).start
        (.onMedium (.memory .empty)) none).errands log)
      TrafficExact es (c.system.backed ⟨0, by decide⟩) ∧
      es.map (fun e => e.concern ⟨0, by decide⟩) =
        [.brings, .unpins true, .nothing, .nothing, .brings, .hits] ∧
      es.map (fun e => (Attempt.writes e.calls).map Prod.fst) =
        [[], [], [⟨0, by decide⟩], [], [], []] ∧
      es.map (fun e => Attempt.reads e.calls) = [[], [], [], [], [⟨0, by decide⟩], []] := by
  have h : History FetchesCreated ((AnyPool.fresh (.alone .whole) 1).start
      (.onMedium (.memory .empty)) none) [] _ := .start
  have h := h.step ⟨none, .newPage "a"⟩ trivial
  have h := h.step ⟨none, .unpin ⟨0, by decide⟩ true⟩ trivial
  have h := h.step ⟨none, .newPage "b"⟩ trivial
  have h := h.step ⟨none, .unpin ⟨1, by decide⟩ false⟩ trivial
  have h := h.step ⟨none, .fetch ⟨0, by decide⟩ "a"⟩ (List.mem_cons_of_mem _ List.mem_cons_self)
  have h := h.step ⟨none, .fetch ⟨0, by decide⟩ "a"⟩ (List.mem_cons_of_mem _ List.mem_cons_self)
  have hbuild : Blueprint.build (.alone 1 1 0 none) = .ok (.fresh (.alone .whole) 1) := rfl
  have hspared := (noTakeover_of_fetchesCreated (kept_of_build hbuild trivial _ none)
    (known_of_build hbuild trivial _ none) h).1
  exact ⟨_, _, hspared, traffic_of_history hbuild _ none hspared _, rfl, rfl, rfl⟩

end Client

end PageCache
