import PageCache.Proofs.Shard.Simulation

/-!
# A store with a list of all it was asked

`Audited δ` is a store like `δ` that lists every call, with the page it names and whether it
succeeded. It answers as `δ` does (`Audited.simulates`). So what a pool reads and writes in the
course of an operation, and what it tries to, can be read off the list (`Attempt.read?`,
`Attempt.write?`, `Attempt.saves`).
-/

namespace PageCache

open PageStore (answer after)

/-- A call of a store. -/
structure Attempt where
  page : PageId
  call : PageCall
  succeeded : Bool

namespace Attempt

/-- The page that was to be read. -/
def read? (a : Attempt) : Option PageId :=
  match a.call with
  | .read _ => some a.page
  | _ => none

/-- The page that was to be written, with its bytes. -/
def write? (a : Attempt) : Option (PageId × Page) :=
  match a.call with
  | .write bytes => some (a.page, bytes)
  | _ => none

/-- Page `p` has been written. -/
def saves (p : PageId) (a : Attempt) : Bool :=
  a.write?.any fun x => x.1 = p && a.succeeded

/-! ## Lists of calls -/

variable {calls calls' : List Attempt} {p : PageId}

/-- The pages that were to be read. -/
def reads (calls : List Attempt) : List PageId :=
  calls.filterMap read?

/-- What was to be written. -/
def writes (calls : List Attempt) : List (PageId × Page) :=
  calls.filterMap write?

/-- How often page `p` was written. -/
def saved (p : PageId) (calls : List Attempt) : Nat :=
  calls.countP (saves p)

/-- What is read in two lists of calls is read in the whole; and so for the writes. -/
@[simp]
theorem reads_append : reads (calls ++ calls') = reads calls ++ reads calls' :=
  List.filterMap_append ..

@[simp]
theorem writes_append : writes (calls ++ calls') = writes calls ++ writes calls' :=
  List.filterMap_append ..

@[simp]
theorem saved_append : saved p (calls ++ calls') = saved p calls + saved p calls' :=
  List.countP_append ..

/-- A read writes nothing. -/
@[simp]
theorem writes_read (p : PageId) (buffer : Page) (succeeded : Bool) :
    writes [⟨p, .read buffer, succeeded⟩] = [] := rfl

/-- A read saves nothing. -/
@[simp]
theorem saved_read (p q : PageId) (buffer : Page) (succeeded : Bool) :
    saved p [⟨q, .read buffer, succeeded⟩] = 0 := rfl

/-- Handing a page back saves nothing. -/
@[simp]
theorem saved_deallocate (p q : PageId) (succeeded : Bool) :
    saved p [⟨q, .deallocate, succeeded⟩] = 0 := rfl

/-- A write saves its page if it succeeds. -/
theorem saved_write (p q : PageId) (bytes : Page) (succeeded : Bool) :
    saved p [⟨q, .write bytes, succeeded⟩] = if q = p then succeeded.toNat else 0 := by
  cases succeeded <;> simp [saved, saves, write?]

end Attempt

structure Audited (δ : Type) where
  disk : δ
  /-- The first of them first. -/
  calls : List Attempt

namespace Audited

variable {δ : Type} [PageStore δ]

/-- The store after a call, which is put on the list. -/
def note (d : Audited δ) (p : PageId) (call : PageCall) : Audited δ :=
  ⟨after d.disk p call, d.calls ++ [⟨p, call, (answer d.disk p call).1.isOk⟩]⟩

instance : PageStore (Audited δ) where
  read d p buffer := (PageStore.read d.disk p buffer).map fun _ => d.note p (.read buffer)
  write d p bytes := ((PageStore.write d.disk p bytes).1, d.note p (.write bytes))
  deallocate d p := (d.note p .deallocate, (PageStore.deallocate d.disk p).2)

/-- Nothing was asked yet. -/
def start (d : δ) : Audited δ :=
  ⟨d, []⟩

/-- The calls between `d` and `e`. -/
def Adds (calls : List Attempt) (d e : Audited δ) : Prop :=
  e.calls = d.calls ++ calls

variable {d e f : Audited δ} {p : PageId} {calls calls' : List Attempt}

omit [PageStore δ] in
/-- Nothing was asked in between. -/
theorem Adds.refl (d : Audited δ) : Adds [] d d :=
  (List.append_nil _).symm

omit [PageStore δ] in
/-- What was asked in two parts was asked in the whole. -/
theorem Adds.trans (h : Adds calls d e) (h' : Adds calls' e f) : Adds (calls ++ calls') d f := by
  rw [Adds, h', h, List.append_assoc]

/-- A call puts itself on the list. -/
theorem adds_note (d : Audited δ) (p : PageId) (call : PageCall) :
    Adds [⟨p, call, (answer d.disk p call).1.isOk⟩] d (d.note p call) :=
  rfl

/-- A write puts itself on the list, with whether it succeeded. -/
theorem adds_of_write {r : Except IoError Unit} {bytes : Page}
    (h : PageStore.write d p bytes = (r, e)) : Adds [⟨p, .write bytes, r.isOk⟩] d e := by
  obtain ⟨rfl, rfl⟩ := Prod.mk.inj h
  exact d.adds_note p (.write bytes)

/-- The list is not asked for an answer. -/
theorem answer_eq (d : Audited δ) (p : PageId) (call : PageCall) :
    answer d p call = answer d.disk p call := by
  cases call <;> rfl

/-- A call is put on the list, whatever it asks. -/
theorem after_eq (d : Audited δ) (p : PageId) (call : PageCall) :
    after d p call = d.note p call := by
  cases call <;> rfl

/-- What becomes of a store by one call after the other. -/
def afterAll (d : δ) (calls : List Attempt) : δ :=
  calls.foldl (fun d a => after d a.page a.call) d

/-- Later calls find what the earlier ones left. -/
theorem afterAll_append (d : δ) (calls calls' : List Attempt) :
    afterAll d (calls ++ calls') = afterAll (afterAll d calls) calls' :=
  List.foldl_append

/-- The store under `e` is `d`, and all that happened to it since it was `d₀` is on the list. -/
structure Accounts (d₀ d : δ) (e : Audited δ) : Prop where
  disk : d = e.disk
  calls : d = afterAll d₀ e.calls

/-- The list makes no difference to what the store does, and leaves nothing out. -/
theorem simulates (P : PageId → Prop) (d₀ : δ) : StoreSimulation P (Accounts d₀) where
  answer h _ _ := by
    rw [h.disk, answer_eq]
  after {d e p} h _ call := by
    -- the call goes to the store, and to the end of the list
    rw [after_eq]
    refine ⟨congrArg (after · p call) h.disk, ?_⟩
    show after d p call = afterAll d₀ (e.calls ++ [_])
    rw [afterAll_append, ← h.calls]
    rfl

/-- At the start nothing has happened that the list could leave out. -/
theorem accounts_start (d : δ) : Accounts d d (start d) :=
  ⟨rfl, rfl⟩

end Audited

end PageCache
