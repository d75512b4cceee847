import PageCache.Proofs.Client.Kept

/-!
# Pinned pages stay where they are

As long as a page is pinned it lies in one frame, every handle of it that anybody gets names that
frame, and its bytes change by nothing but what is written through handles and guards on the frame
(`Client.pin_protects`). Whatever else a client does, to this page or to others, and whether it
succeeds or fails, makes moves that take no pin off, and at the end perhaps one that does
(`Client.perform_lies`).

* `Client.obtained?`: the handle that a step has got.
* `Client.writes?`, `Client.written`: what a step writes, and what of it goes to a certain frame.
* `Client.KeepsInPlace`: what a step does to a page that is pinned.
-/

namespace PageCache

namespace Client

variable {l : Layout} {size : Nat} {capacity : Nat} {c : Client l size}

/-! ## What a step gets and what it writes -/

/-- The handle that a step has got, under the name it was to have: a handle of its own, or that of a
guard. -/
def obtained? (c : Client l size) (step : Step) : Option (Handle l size) :=
  match step.op, (c.take step).result with
  | .newPage name, .ok (.placed ..) | .fetch _ name, .ok (.placed ..) =>
    (c.take step).state.handles[name]?
  | .newGuard name, .ok (.newGuard ..) | .fetchGuard _ _ name, .ok (.guarding _) =>
    (c.take step).state.guards[name]?.map Guard.handle
  | _, _ => none

/-- The handle through which a step writes, itself or as that of a guard, and what it writes. -/
def writes? (c : Client l size) (step : Step) : Option (Handle l size × List Edit) :=
  match step.op, l.scope? step.shard with
  | .writeHandle name edits, some _ => c.handles[name]?.map fun k => (k, edits)
  | .writeGuard name edits, some _ =>
    c.guards[name]?.bind fun g => if g.access = .write then some (g.handle, edits) else none
  | _, _ => none

/-- What a step writes to frame `f` of shard `i`, through whatever handle or guard on it. -/
def written (c : Client l size) (step : Step) (i : Fin l.width) (f : Fin size) : List Edit :=
  match c.writes? step with
  | some (k, edits) => if k.shard = i ∧ k.frame = f then edits else []
  | none => []

/-- Somebody has page `p` pinned. -/
def Pinned (c : Client l size) (p : PageId) : Prop :=
  ∃ (i : Fin l.width) (n : Nat), (c.system.pool.shard i).pinCount? p = some n ∧ 0 < n

/-- What a step does to page `p`, which lies in frame `f` of shard `i` and is pinned: it stays
there, its bytes change by what is written to the frame, and a handle of it that the step gets names
the frame. -/
structure KeepsInPlace (p : PageId) (i : Fin l.width) (f : Fin size) (_ : List Entry)
    (c : Client l size) (step : Step) : Prop where
  lies : (c.system.pool.shard i).table[p]? = some f
  stays : ((c.take step).state.system.pool.shard i).table[p]? = some f
  bytes : (((c.take step).state.system.pool.shard i).frame f).bytes =
    .edit (c.written step i f) ((c.system.pool.shard i).frame f).bytes
  handle : ∀ {k : Handle l size}, c.obtained? step = some k → k.page = p → k = ⟨p, i, f⟩

variable {p : PageId} {i : Fin l.width} {f : Fin size} {page : Page} {scope : Scope l}
variable {shard : Option Nat}

/-- A pinned page has a frame. -/
theorem exists_table_of_pinned (h : c.Pinned p) : ∃ (i : Fin l.width) (f : Fin size),
    (c.system.pool.shard i).table[p]? = some f := by
  obtain ⟨i, n, hn, -⟩ := h
  obtain ⟨f, hf, -⟩ := Option.map_eq_some_iff.mp hn
  exact ⟨i, f, hf⟩

/-- Where the page is, there the pins are. -/
theorem pins_ne_zero_of_pinned (h : c.Kept capacity)
    (hp : (c.system.pool.shard i).table[p]? = some f) (hpinned : c.Pinned p) :
    ((c.system.pool.shard i).frame f).pins ≠ 0 := by
  obtain ⟨j, n, hn, hpos⟩ := hpinned
  obtain ⟨g, hg, rfl⟩ := Option.map_eq_some_iff.mp hn
  -- there is one shard that can have the page
  obtain rfl : j = i := Layout.eq_of_owns ((h.system j).owned hg) ((h.system i).owned hp)
  obtain rfl := Option.some.inj (hg.symm.trans hp)
  exact Nat.ne_of_gt hpos

/-! ## Operations that take no pin off -/

/-- A fetch keeps a pinned page in its place, and a handle of it names the frame. -/
theorem fetchHandle_pinned (h : c.system.Kept capacity) (scope : Scope l) (q : PageId)
    (hp : c.system.view.Pinned p f page) :
    (c.fetchHandle scope q).state.system.view.Pinned p f page ∧
      ∀ {k : Handle l size}, (c.fetchHandle scope q).result = .ok k → k.page = p →
        (l.stripe k.shard).Owns p ∧ k.frame = f := by
  obtain ⟨ms, hruns, hfetched⟩ := c.fetchHandle_runs h scope q
  cases hresult : (c.fetchHandle scope q).result with
  | error e =>
    rw [hresult] at hfetched
    exact ⟨hruns.path.pinned (fun m hm => Move.gentle_of_quiet (hfetched m hm)) hp,
      fun hok => absurd hok (by simp)⟩
  | ok k =>
    rw [hresult] at hfetched
    obtain ⟨rfl, howns, hends⟩ := hfetched
    refine ⟨hruns.path.pinned (fun m hm => ?_) hp, fun hok hkp => ?_⟩
    · rcases hends with hends | hends
      all_goals
        rcases hends.quiet_or_eq hm with hm | rfl
        · exact Move.gentle_of_quiet hm
        · trivial
    · obtain rfl := Except.ok.inj hok
      subst hkp
      rcases hends with hpin | hload
      · exact ⟨howns, hruns.path.frame_eq_of_pin hpin hp⟩
      · exact absurd hload (hruns.path.not_ends_load hp)

/-- A new page keeps a pinned page in its place, unless it takes it over. -/
theorem newHandle_pinned (h : c.system.Kept capacity) (scope : Scope l)
    (hspared : ∀ {k : Handle l size}, (c.newHandle scope).result = .ok k → ¬ c.Resident k.page)
    (hp : c.system.view.Pinned p f page) :
    (c.newHandle scope).state.system.view.Pinned p f page := by
  obtain ⟨ms, hruns, hcreated⟩ := c.newHandle_runs h scope fun hk =>
    slot_none_of_not_resident (hspared hk)
  refine hruns.path.pinned (fun m hm => ?_) hp
  cases hresult : (c.newHandle scope).result with
  | error e =>
    rw [hresult] at hcreated
    exact Move.gentle_of_quiet (hcreated m hm)
  | ok k =>
    rw [hresult] at hcreated
    rcases hcreated.2.quiet_or_eq hm with hm | rfl
    · exact Move.gentle_of_quiet hm
    · trivial

/-! ## Operations that may take a pin off -/

/-- An unpin leaves the page where it is, with its bytes. -/
theorem unpin_lies (h : c.system.Kept capacity) (scope : Scope l) (q : PageId) (dirty : Bool)
    (hp : c.system.view.Lies p f page) :
    (c.unpin scope q dirty).state.system.view.Lies p f page := by
  obtain ⟨ms, hruns, hmoved⟩ := c.unpin_runs h scope q dirty
  exact hruns.path.lies_of_unpin hmoved.nil_or_single hp

/-- To let a guard go leaves the page where it is, with its bytes. -/
theorem release_lies (h : c.system.Kept capacity) (g : Guard l size)
    (hp : c.system.view.Lies p f page) : (c.release g).state.system.view.Lies p f page :=
  state_release c g ▸ c.unpin_lies h .whole g.handle.page g.modified hp

/-- A guard may take the place of another under its name, and the page stays where it is. -/
theorem hold_lies (h : c.system.Kept capacity) (name : String) (g : Guard l size)
    (hp : c.system.view.Lies p f page) : (c.hold name g).state.system.view.Lies p f page := by
  rw [hold]
  cases c.guards[name]? with
  | none => exact hp
  | some old => exact release_lies (c := { c with guards := c.guards.insert name g }) h old hp

/-- To drop a guard by name leaves the page where it is, with its bytes. -/
theorem dropGuard_lies (h : c.system.Kept capacity) (name : String)
    (hp : c.system.view.Lies p f page) : (c.dropGuard name).state.system.view.Lies p f page := by
  rw [dropGuard]
  cases c.guards[name]? with
  | none => exact hp
  | some g => exact release_lies (c := { c with guards := c.guards.erase name }) h g hp

/-- Reaching into a frame changes the bytes of the page that lies there. -/
theorem editFrame_lies (howns : (l.stripe i).Owns p) (k : Handle l size) (edits : List Edit)
    (hp : c.system.view.Lies p f page) :
    (c.editFrame k edits).system.view.Lies p f
      (.edit (if k.shard = i ∧ k.frame = f then edits else []) page) := by
  rw [System.lies_iff howns] at hp ⊢
  obtain ⟨htable, rfl⟩ := hp
  refine ⟨(congrArg (·[p]?) (c.system.table_modifyBytes k _ i)).trans htable, ?_⟩
  have hbytes := c.system.bytes_modifyBytes k ⟨p, i, f⟩ (Page.edit edits)
  split
  · next hk => exact hbytes.trans (if_pos hk)
  · next hk => exact hbytes.trans (if_neg hk)

/-! ## Steps -/

theorem written_of_none {step : Step} (h : c.writes? step = none) : c.written step i f = [] := by
  rw [written, h]

theorem written_of_some {step : Step} {k : Handle l size} {edits : List Edit}
    (h : c.writes? step = some (k, edits)) :
    c.written step i f = if k.shard = i ∧ k.frame = f then edits else [] := by
  rw [written, h]

/-- The handle under a name that was to have one. -/
theorem result_of_handles {o : Outcome (Client l size) (Handle l size)} {name : String}
    {k : Handle l size} {reply : Handle l size → Reply} {answer : Reply}
    (hok : (o.andThen fun k c =>
      .ok (reply k) { c with handles := c.handles.insert name k }).result = .ok answer)
    (hk : (o.andThen fun k c =>
      .ok (reply k) { c with handles := c.handles.insert name k }).state.handles[name]? = some k) :
    o.result = .ok k := by
  cases hresult : o.result with
  | error e =>
    rw [Outcome.andThen_of_error hresult] at hok
    exact absurd hok (by simp)
  | ok k' =>
    rw [Outcome.andThen_of_ok hresult] at hk
    exact congrArg _ (Option.some.inj (Std.ExtTreeMap.getElem?_insert_self.symm.trans hk))

/-- The handle of the guard under a name that was to have one. -/
theorem result_of_guards {o : Outcome (Client l size) (Handle l size)} {name : String}
    {access : Access} {k : Handle l size} {reply : Handle l size → Reply} {answer : Reply}
    (hok : (o.andThen fun k c =>
      (c.hold name ⟨k, access, false⟩).map fun _ => reply k).result = .ok answer)
    (hk : (o.andThen fun k c =>
      (c.hold name ⟨k, access, false⟩).map fun _ => reply k).state.guards[name]?.map Guard.handle =
        some k) : o.result = .ok k := by
  cases hresult : o.result with
  | error e =>
    rw [Outcome.andThen_of_error hresult] at hok
    exact absurd hok (by simp)
  | ok k' =>
    rw [Outcome.andThen_of_ok hresult, Outcome.state_after, Outcome.state_map, guards_hold,
      Std.ExtTreeMap.getElem?_insert_self] at hk
    exact congrArg _ (Option.some.inj hk)

/-- Every handle that a step has got is of a page that it created or fetched. -/
theorem asked_of_obtained? {step : Step} {k : Handle l size} (h : c.obtained? step = some k) :
    ∃ scope, l.scope? step.shard = some scope ∧
      (c.creation? step = some (c.newHandle scope) ∧ (c.newHandle scope).result = .ok k ∨
        ∃ q, (c.fetchHandle scope q).result = .ok k) := by
  obtain ⟨shard, op⟩ := step
  rw [obtained?, take] at h
  cases hscope : l.scope? shard with
  | none =>
    simp only [hscope] at h
    cases op <;> exact absurd h (by simp)
  | some scope =>
    simp only [hscope] at h
    refine ⟨scope, rfl, ?_⟩
    split at h
    · next hok =>
      exact .inl ⟨by simp only [creation?, hscope], result_of_handles hok h⟩
    · next p _ _ _ hok => exact .inr ⟨p, result_of_handles hok h⟩
    · next hok => exact .inl ⟨by simp only [creation?, hscope], result_of_guards hok h⟩
    · next p _ _ hok => exact .inr ⟨p, result_of_guards hok h⟩
    · exact absurd h (by simp)

/-- Whatever is done, a pinned page stays in its frame, with what is written there. -/
theorem perform_lies (h : c.Kept capacity) (hscope : l.scope? shard = some scope) (op : Op)
    {log : List Entry} (hspared : NoTakeover log c ⟨shard, op⟩) (howns : (l.stripe i).Owns p)
    (hp : c.system.view.Pinned p f page) :
    (c.perform scope op).state.system.view.Lies p f
      (.edit (c.written ⟨shard, op⟩ i f) page) := by
  have hspared' (hop : c.creation? ⟨shard, op⟩ = some (c.newHandle scope)) {k : Handle l size}
      (hok : (c.newHandle scope).result = .ok k) : ¬ c.Resident k.page :=
    hspared _ k hop hok
  -- an operation that asks shards comes down to moves, none of which takes the page out of its
  -- frame while it is pinned; one that writes edits a frame, which may be this one
  cases op with
  | newPage name =>
    have hnew := (newHandle_pinned h.system scope
      (hspared' (by simp only [creation?, hscope])) hp).lies
    exact Outcome.state_andThen (P := fun c' : Client l size => c'.system.view.Lies p f page) hnew
      fun _ _ => hnew
  | newGuard name =>
    have hspared {k : Handle l size} : (c.newHandle scope).result = .ok k → ¬ c.Resident k.page :=
      hspared' (by simp only [creation?, hscope])
    have hnew := (newHandle_pinned h.system scope hspared hp).lies
    have hkept := (c.newHandle_keeps h scope hspared).1.system
    exact Outcome.state_andThen (P := fun c' : Client l size => c'.system.view.Lies p f page) hnew
      fun _ _ => hold_lies hkept name _ hnew
  | fetch q name =>
    have hfetched := (fetchHandle_pinned h.system scope q hp).1.lies
    exact Outcome.state_andThen (P := fun c' : Client l size => c'.system.view.Lies p f page)
      hfetched fun _ _ => hfetched
  | fetchGuard access q name =>
    have hfetched := (fetchHandle_pinned h.system scope q hp).1.lies
    have hkept := (c.fetchHandle_keeps h scope q).1.system
    exact Outcome.state_andThen (P := fun c' : Client l size => c'.system.view.Lies p f page)
      hfetched fun _ _ => hold_lies hkept name _ hfetched
  -- the last pin may go here, so the page lies where it did but need not be pinned any more
  | unpin q dirty => exact unpin_lies h.system scope q dirty hp.lies
  | dropGuard name => exact dropGuard_lies h.system name hp.lies
  | delete q =>
    obtain ⟨ms, hruns, hms⟩ := c.delete_runs h.system scope q
    refine (hruns.path.pinned (fun m hm => ?_) hp).lies
    rcases hms with rfl | ⟨rfl, -⟩
    · exact absurd hm List.not_mem_nil
    · obtain rfl := List.mem_singleton.mp hm
      trivial
  | flush q =>
    obtain ⟨ms, hruns, hquiet⟩ := c.flush_runs h.system scope q
    exact (hruns.path.pinned_of_quiet hquiet hp).lies
  | flushAll visit =>
    obtain ⟨ms, hruns, hquiet⟩ := c.flushAll_runs h.system scope visit
    exact (hruns.path.pinned_of_quiet hquiet hp).lies
  | writeHandle name edits =>
    rw [perform]
    cases hname : c.handles[name]? with
    | none =>
      have hnone : c.writes? ⟨shard, .writeHandle name edits⟩ = none := by
        simp [writes?, hscope, hname]
      rw [written_of_none hnone]
      exact hp.lies
    | some k =>
      have hsome : c.writes? ⟨shard, .writeHandle name edits⟩ = some (k, edits) := by
        simp [writes?, hscope, hname]
      rw [written_of_some hsome]
      exact editFrame_lies howns k edits hp.lies
  | writeGuard name edits =>
    rw [perform]
    cases hname : c.guards[name]? with
    | none =>
      have hnone : c.writes? ⟨shard, .writeGuard name edits⟩ = none := by
        simp [writes?, hscope, hname]
      rw [written_of_none hnone]
      exact hp.lies
    | some g =>
      cases haccess : g.access with
      | read =>
        have hnone : c.writes? ⟨shard, .writeGuard name edits⟩ = none := by
          -- a read guard writes nothing
          simp [writes?, hscope, hname, haccess]
        rw [written_of_none hnone]
        simp only [haccess]
        exact hp.lies
      | write =>
        have hsome : c.writes? ⟨shard, .writeGuard name edits⟩ = some (g.handle, edits) := by
          simp [writes?, hscope, hname, haccess]
        rw [written_of_some hsome]
        simp only [haccess]
        exact editFrame_lies howns g.handle edits hp.lies
  | readHandle | tellHandle | readGuard =>
    rw [perform]
    split <;> exact hp.lies
  | disk | capacity | shardCount | shardFacts | pins => exact hp.lies

/-- In any step a pinned page stays where it is, and its bytes change by what is written to the
frame. -/
theorem take_lies (h : c.Kept capacity) {step : Step} {log : List Entry}
    (hspared : NoTakeover log c step) (howns : (l.stripe i).Owns p)
    (hp : c.system.view.Pinned p f page) :
    (c.take step).state.system.view.Lies p f (.edit (c.written step i f) page) := by
  rw [take]
  cases hscope : l.scope? step.shard with
  | none =>
    have hnone : c.writes? step = none := by
      rw [writes?, hscope]
      cases step.op <;> rfl
    rw [written_of_none hnone]
    exact hp.lies
  | some scope => exact perform_lies h hscope step.op hspared howns hp

/-- A step that takes over no resident page keeps a pinned page in its place. -/
theorem keepsInPlace_take (h : c.Kept capacity) {step : Step} {log : List Entry}
    (hspared : NoTakeover log c step) (hp : (c.system.pool.shard i).table[p]? = some f)
    (hpinned : c.Pinned p) : KeepsInPlace p i f log c step := by
  have howns := (h.system i).owned hp
  have hpins := pins_ne_zero_of_pinned h hp hpinned
  have hview : c.system.view.Pinned p f ((c.system.pool.shard i).frame f).bytes :=
    ⟨_, (System.slot_view howns).trans (Shard.slot_of_table hp), hpins, rfl⟩
  obtain ⟨hstays, hbytes⟩ := (System.lies_iff howns).mp (take_lies h hspared howns hview)
  refine ⟨hp, hstays, hbytes, fun {k} hk hkp => ?_⟩
  obtain ⟨scope, -, ⟨hcreation, hok⟩ | ⟨q, hok⟩⟩ := asked_of_obtained? hk
  · -- a page that is created is another one
    exact absurd ⟨i, f, hkp ▸ hp⟩ (hspared _ k hcreation hok)
  · obtain ⟨hshard, hframe⟩ := (fetchHandle_pinned h.system scope q hview).2 hok hkp
    have hi : k.shard = i := Layout.eq_of_owns hshard howns
    obtain ⟨page, shard, frame⟩ := k
    obtain ⟨rfl, rfl, rfl⟩ : page = p ∧ shard = i ∧ frame = f := ⟨hkp, hi, hframe⟩
    rfl

/-! ## Stretches of a history -/

/-- Take any history in which no resident page is taken over, and go on from its end for as long as
page `p` is pinned before every step, and again no resident page is taken over. Then there is one
frame that the page lies in all along: every step keeps it there, changes its bytes only by what is
written through handles and guards on the frame, and gets no other handle of it. -/
theorem pin_protects {b : Blueprint} {built : AnyPool} (hbuild : b.build = .ok built)
    (hunloaded : b.Unloaded) (disk : Disk) (durable : Option Lsn) {log stretch : List Entry}
    {c c' : Client built.layout built.size} {p : PageId}
    (h : History NoTakeover (built.start disk durable) log c) (hpinned : c.Pinned p)
    (hstretch : History (fun log c step => NoTakeover log c step ∧ c.Pinned p) c stretch c') :
    ∃ (i : Fin built.layout.width) (f : Fin built.size),
      History (KeepsInPlace p i f) c stretch c' ∧
        (c'.system.pool.shard i).table[p]? = some f := by
  have hkept := kept_of_history (kept_of_build hbuild hunloaded disk durable) h
  obtain ⟨i, f, hp⟩ := exists_table_of_pinned hpinned
  obtain ⟨hkeeps, -, hstays⟩ := hstretch.allowing
    (P := fun _ c => c.Kept b.capacity ∧ (c.system.pool.shard i).table[p]? = some f) ⟨hkept, hp⟩
    fun {log c} step ⟨hkept, hp⟩ ⟨hspared, hpinned⟩ => by
      have hstep := keepsInPlace_take hkept hspared hp hpinned
      exact ⟨hstep, (keeps_take hkept step hspared).kept, hstep.stays⟩
  exact ⟨i, f, hkeeps, hstays⟩

/-- With two frames: while page `0` is pinned it is written to, page `1` makes room for page `2` and
does not come back, because it cannot be read, page `0` is not deleted, fetched once more, and
flushed. -/
theorem pin_protects_two_frames : ∃ log c stretch c',
    History NoTakeover
        ((AnyPool.fresh (.alone .whole) 2).start (.onMedium (.memory .empty)) none) log c ∧
      log.map Entry.answer = [.ok (.placed ⟨0, by decide⟩ 0), .ok (.placed ⟨1, by decide⟩ 1),
        .ok (.truth true)] ∧
      stretch.map Entry.answer = [.ok .nothing, .ok (.placed ⟨2, by decide⟩ 1), .ok (.truth true),
        .ok (.disk .nothing), .error (.storage (.io .readFault)), .ok (.truth false),
        .ok (.placed ⟨0, by decide⟩ 0), .ok (.truth true)] ∧
      ∃ i f, History (KeepsInPlace ⟨0, by decide⟩ i f) c stretch c' ∧
        (c'.system.pool.shard i).table[(⟨0, by decide⟩ : PageId)]? = some f := by
  have h : History FetchesCreated
      ((AnyPool.fresh (.alone .whole) 2).start (.onMedium (.memory .empty)) none) [] _ := .start
  have h := h.step ⟨none, .newPage "a"⟩ trivial
  have h := h.step ⟨none, .newPage "b"⟩ trivial
  have h := h.step ⟨none, .unpin ⟨1, by decide⟩ true⟩ trivial
  have hbuild : Blueprint.build (.alone 2 1 0 none) = .ok (.fresh (.alone .whole) 2) := rfl
  have hspared := (noTakeover_of_fetchesCreated (kept_of_build hbuild trivial _ none)
    (known_of_build hbuild trivial _ none) h).1
  have hstretch := h.rest fun log c step => NoTakeover log c step ∧ c.Pinned ⟨0, by decide⟩
  have hstretch := hstretch.step ⟨none, .writeHandle "a" [.put 7 [42]]⟩
    ⟨noTakeover_of_none rfl, ⟨0, by decide⟩, 1, rfl, Nat.one_pos⟩
  have hstretch := hstretch.step ⟨none, .newPage "b"⟩ ⟨by
    -- page `2` lies nowhere
    rintro o k ho hok ⟨i, f, hf⟩
    obtain rfl := Option.some.inj ho
    obtain rfl := Except.ok.inj hok
    obtain rfl : i = ⟨0, by decide⟩ := Fin.ext (Nat.lt_one_iff.mp i.isLt)
    have hnone : (none : Option (Fin 2)) = some f := hf
    exact absurd hnone (by simp), ⟨0, by decide⟩, 1, rfl, Nat.one_pos⟩
  have hstretch := hstretch.step ⟨none, .unpin ⟨2, by decide⟩ false⟩
    ⟨noTakeover_of_none rfl, ⟨0, by decide⟩, 1, rfl, Nat.one_pos⟩
  have hstretch := hstretch.step ⟨none, .disk (.setFaults ⟨fun _ => true, fun _ => false⟩)⟩
    ⟨noTakeover_of_none rfl, ⟨0, by decide⟩, 1, rfl, Nat.one_pos⟩
  have hstretch := hstretch.step ⟨none, .fetch ⟨1, by decide⟩ "b"⟩
    ⟨noTakeover_of_none rfl, ⟨0, by decide⟩, 1, rfl, Nat.one_pos⟩
  have hstretch := hstretch.step ⟨none, .delete ⟨0, by decide⟩⟩
    ⟨noTakeover_of_none rfl, ⟨0, by decide⟩, 1, rfl, Nat.one_pos⟩
  have hstretch := hstretch.step ⟨none, .fetch ⟨0, by decide⟩ "b"⟩
    ⟨noTakeover_of_none rfl, ⟨0, by decide⟩, 1, rfl, Nat.one_pos⟩
  have hstretch := hstretch.step ⟨none, .flush ⟨0, by decide⟩⟩
    ⟨noTakeover_of_none rfl, ⟨0, by decide⟩, 2, rfl, Nat.two_pos⟩
  have hprotects := pin_protects hbuild trivial _ none hspared
    ⟨⟨0, by decide⟩, 1, rfl, Nat.one_pos⟩ hstretch
  exact ⟨_, _, _, _, hspared, rfl, rfl, hprotects⟩

end Client

end PageCache
