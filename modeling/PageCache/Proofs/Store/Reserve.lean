import PageCache.Proofs.Store.FileBytes

/-!
# Pages reserved in a file

A page file grows by a page that is written behind its end, and by a page that is reserved at its
end. It counts its pages in one word, while page ids are all the numbers that fit one: a file that
has them all counts none, and the next page reserved is page `0` again, with the rest cut off.

* `FileStore.WholePages`: a page file that was created has whole pages, `UInt32.size` at the most.
* `FileStore.CountsExactly`: the count is the length, and what is reserved is a new page at the end.
* `FileStore.StartsOver`: what is reserved is page `0`, and the file is cut to it.
* `FileStore.countsExactly_iff`: it counts exactly as long as nobody takes the last page there is.
-/

namespace PageCache

/-- What makes a page file grow. -/
inductive FileCall
  | write (p : PageId) (page : Page)
  | reserve

namespace FileStore

open FileBytes

/-! ## Calls -/

/-- The page the call takes, by writing it or because it is given out, and the file after that. -/
def call (f : FileStore) : FileCall → PageId × FileStore
  | .write p page => (p, f.write p page)
  | .reserve => f.reserve

/-- The pages that calls in turn take. -/
def taken (f : FileStore) : List FileCall → List PageId
  | [] => []
  | c :: calls => (f.call c).1 :: (f.call c).2.taken calls

/-- The file after calls in turn. -/
def after (f : FileStore) : List FileCall → FileStore
  | [] => f
  | c :: calls => (f.call c).2.after calls

/-! ## What the count tells -/

/-- With the pages in `ids` taken: the count is the length of the file in pages, it is beyond all
pages taken, and what is reserved next is none of them and makes the file one page of zeros
longer. -/
structure CountsExactly (f : FileStore) (ids : List PageId) : Prop where
  count : f.pageCount = f.image.bytes.length / pageSize
  beyond : ∀ p ∈ ids, p.val < f.pageCount
  unused : f.reserve.1 ∉ ids
  grown : f.reserve.2.image.bytes = f.image.bytes ++ List.replicate pageSize 0

/-- No page is counted, and what is reserved next is page `0`, all that is left of the file. -/
structure StartsOver (f : FileStore) : Prop where
  count : f.pageCount = 0
  id : f.reserve.1.val = 0
  cut : f.reserve.2.image.bytes = f.image.bytes.take pageSize

/-- To reserve a page is to set the length to one page more than are counted. -/
theorem bytes_reserve (f : FileStore) :
    f.reserve.2.image.bytes = setLength ((f.pageCount + 1) * pageSize) f.image.bytes := by
  apply List.ext_getElem?
  intro i
  rw [getElem?_setLength, Image.getElem?_bytes, Image.getD_getElem?_bytes]
  show (if i < (f.pageCount + 1) * pageSize then
    some ((f.image.resize ((f.pageCount + 1) * pageSize)).byte i) else none) = _
  rw [Image.byte_resize]
  split <;> rfl

theorem val_reserve (f : FileStore) : f.reserve.1.val = f.pageCount :=
  PageId.wrap_of_lt (Nat.mod_lt _ (by decide))

/-- A count that is the length cannot be wrong. -/
theorem countsExactly_of_size {f : FileStore} {ids : List PageId}
    (hsize : f.image.size = f.pageCount * pageSize) (hbeyond : ∀ p ∈ ids, p.val < f.pageCount) :
    f.CountsExactly ids where
  count := by rw [Image.length_bytes, hsize, Nat.mul_div_cancel _ pageSize_pos]
  beyond := hbeyond
  unused hmem := absurd (hbeyond _ hmem) (by rw [val_reserve]; exact Nat.lt_irrefl _)
  grown := by
    have hlength : f.image.bytes.length = f.pageCount * pageSize := by
      rw [Image.length_bytes, hsize]
    have hmore : (f.pageCount + 1) * pageSize - f.image.bytes.length = pageSize := by
      rw [hlength, Nat.succ_mul, Nat.add_sub_cancel_left]
    rw [bytes_reserve, setLength, hmore, List.take_of_length_le]
    rw [hlength]
    exact Nat.mul_le_mul_right _ (Nat.le_succ _)

/-- A file with every page there can be starts over. -/
theorem startsOver_of_full {f : FileStore} (hfull : f.image.size = UInt32.size * pageSize) :
    f.StartsOver := by
  have hcount : f.pageCount = 0 := by
    rw [pageCount, hfull, Nat.mul_div_cancel _ pageSize_pos, Nat.mod_self]
  have hle : pageSize ≤ f.image.bytes.length := by
    rw [Image.length_bytes, hfull]
    exact Nat.le_mul_of_pos_left _ (by decide)
  refine ⟨hcount, f.val_reserve.trans hcount, ?_⟩
  rw [bytes_reserve, hcount, Nat.zero_add, Nat.one_mul, setLength, Nat.sub_eq_zero_of_le hle,
    List.replicate_zero, List.append_nil]

/-! ## One call -/

/-- The file has whole pages only, and no more than there are page ids. -/
def WholePages (f : FileStore) : Prop :=
  ∃ n ≤ UInt32.size, f.image.size = n * pageSize

variable {f : FileStore}

theorem pageCount_of_size {n : Nat} (hsize : f.image.size = n * pageSize) :
    f.pageCount = n % UInt32.size := by
  rw [pageCount, hsize, Nat.mul_div_cancel _ pageSize_pos]

theorem size_write {n : Nat} (hsize : f.image.size = n * pageSize) (p : PageId) (page : Page) :
    (f.write p page).image.size = max n (p.val + 1) * pageSize := by
  show max f.image.size ((p.val + 1) * pageSize) = _
  rw [hsize, Nat.mul_max_mul_right]

/-- A call leaves whole pages, and no more than there can be. -/
theorem WholePages.call (h : f.WholePages) (c : FileCall) : (f.call c).2.WholePages := by
  obtain ⟨n, hn, hsize⟩ := h
  cases c with
  | write p page => exact ⟨_, Nat.max_le.mpr ⟨hn, p.isLt⟩, size_write hsize p page⟩
  | reserve => exact ⟨f.pageCount + 1, Nat.mod_lt _ (by decide), rfl⟩

/-- Calls in turn leave whole pages, and no more than there can be. -/
theorem WholePages.after (h : f.WholePages) (calls : List FileCall) :
    (f.after calls).WholePages := by
  induction calls generalizing f with
  | nil => exact h
  | cons c calls ih => exact ih (h.call c)

/-- Whoever takes the last page there is leaves the file full. -/
theorem WholePages.full_of_last (h : f.WholePages) {c : FileCall}
    (hlast : (f.call c).1.val + 1 = UInt32.size) :
    (f.call c).2.image.size = UInt32.size * pageSize := by
  obtain ⟨n, hn, hsize⟩ := h
  cases c with
  | write p page =>
    have hlast : p.val + 1 = UInt32.size := hlast
    exact (size_write hsize p page).trans (by rw [hlast, Nat.max_eq_right hn])
  | reserve =>
    have hlast : f.reserve.1.val + 1 = UInt32.size := hlast
    rw [val_reserve] at hlast
    exact congrArg (· * pageSize) hlast

/-- Any other page it counts from now on. -/
theorem counts_call {ids : List PageId} (hsize : f.image.size = f.pageCount * pageSize)
    (hbeyond : ∀ p ∈ ids, p.val < f.pageCount) {c : FileCall}
    (hlt : (f.call c).1.val + 1 < UInt32.size) :
    (f.call c).2.image.size = (f.call c).2.pageCount * pageSize ∧
      ∀ p ∈ ids ++ [(f.call c).1], p.val < (f.call c).2.pageCount := by
  have hcount : f.pageCount < UInt32.size := Nat.mod_lt _ (by decide)
  -- the file has `n` pages now, which one word can count
  obtain ⟨n, hn, hbefore, htaken, hnext⟩ : ∃ n < UInt32.size, f.pageCount ≤ n ∧
      (f.call c).1.val < n ∧ (f.call c).2.image.size = n * pageSize := by
    cases c with
    | write p page =>
      exact ⟨max f.pageCount (p.val + 1), Nat.max_lt.mpr ⟨hcount, hlt⟩, Nat.le_max_left ..,
        Nat.lt_of_succ_le (Nat.le_max_right ..), size_write hsize p page⟩
    | reserve =>
      have hlt : f.reserve.1.val + 1 < UInt32.size := hlt
      rw [val_reserve] at hlt
      exact ⟨f.pageCount + 1, hlt, Nat.le_succ _, f.val_reserve ▸ Nat.lt_succ_self _, rfl⟩
  have hnow : (f.call c).2.pageCount = n := by
    rw [pageCount_of_size hnext, Nat.mod_eq_of_lt hn]
  refine ⟨by rw [hnow, hnext], fun p hp => ?_⟩
  rw [hnow]
  rcases List.mem_append.mp hp with hp | hp
  · exact Nat.lt_of_lt_of_le (hbeyond p hp) hbefore
  · obtain rfl := List.mem_singleton.mp hp
    exact htaken

/-! ## All calls -/

/-- It counts exactly, whatever is taken, as long as nobody takes the last page. -/
theorem countsExactly_after {ids : List PageId} (hsize : f.image.size = f.pageCount * pageSize)
    (hbeyond : ∀ p ∈ ids, p.val < f.pageCount) {calls : List FileCall}
    (hlt : ∀ p ∈ f.taken calls, p.val + 1 < UInt32.size) :
    (f.after calls).CountsExactly (ids ++ f.taken calls) := by
  induction calls generalizing f ids with
  | nil =>
    rw [taken, List.append_nil]
    exact countsExactly_of_size hsize hbeyond
  | cons c calls ih =>
    obtain ⟨hsize', hbeyond'⟩ := counts_call hsize hbeyond (hlt _ List.mem_cons_self)
    have hrest := ih hsize' hbeyond' fun p hp => hlt p (List.mem_cons_of_mem _ hp)
    rwa [List.append_assoc] at hrest

/-- The pages that the first calls take are the first that are taken. -/
theorem taken_take (calls : List FileCall) (n : Nat) :
    f.taken (calls.take n) = (f.taken calls).take n := by
  -- over the calls, one taken from both sides at a time
  induction calls generalizing f n with
  | nil => rw [List.take_nil, taken, List.take_nil]
  | cons c calls ih =>
    cases n with
    | zero => rfl
    | succ n => exact congrArg ((f.call c).1 :: ·) (ih n)

/-- Where the last page is taken, there is a moment when the file is full. -/
theorem full_of_taken (h : f.WholePages) {calls : List FileCall} {p : PageId}
    (hp : p ∈ f.taken calls) (hlast : p.val + 1 = UInt32.size) :
    ∃ n, (f.after (calls.take n)).image.size = UInt32.size * pageSize := by
  induction calls generalizing f with
  | nil => cases hp
  | cons c calls ih =>
    rcases List.mem_cons.mp hp with rfl | hp
    · exact ⟨1, h.full_of_last hlast⟩
    · obtain ⟨n, hn⟩ := ih (h.call c) hp
      exact ⟨n + 1, hn⟩

/-- A page file that counts exactly is not full. -/
theorem CountsExactly.not_full {ids : List PageId} (h : f.CountsExactly ids) :
    f.image.size ≠ UInt32.size * pageSize := by
  intro hfull
  have hcount := h.count
  rw [(startsOver_of_full hfull).count, Image.length_bytes, hfull,
    Nat.mul_div_cancel _ pageSize_pos] at hcount
  exact absurd hcount (by decide)

/-- From its creation on a page file has whole pages, as many as there are ids at the most. At every
moment of the calls it counts them exactly, and gives out new pages at the end, if and only if none
of the calls takes the last page there is; and whenever it is full, it starts over. -/
theorem countsExactly_iff {target : Target} (hcreate : create target = .ok f)
    (calls : List FileCall) :
    ((∀ n, (f.after (calls.take n)).CountsExactly (f.taken (calls.take n))) ↔
      ∀ p ∈ f.taken calls, p.val + 1 < UInt32.size) ∧
    (f.after calls).WholePages ∧
    ((f.after calls).image.bytes.length = UInt32.size * pageSize → (f.after calls).StartsOver) := by
  have hempty : f.image.size = 0 := by
    cases target with
    | file | vacant => cases hcreate; rfl
    | directory | nowhere | overlong => cases hcreate
  have hsize : f.image.size = f.pageCount * pageSize := by
    rw [pageCount, hempty, Nat.zero_div, Nat.zero_mod, Nat.zero_mul]
  have hwhole : f.WholePages := ⟨0, Nat.zero_le _, hempty.trans (Nat.zero_mul _).symm⟩
  refine ⟨⟨fun h p hp => ?_, fun h n => ?_⟩, hwhole.after calls, fun hfull => ?_⟩
  · refine Nat.lt_of_le_of_ne p.isLt fun hlast => ?_
    obtain ⟨n, hfull⟩ := full_of_taken hwhole hp hlast
    exact (h n).not_full hfull
  · refine countsExactly_after hsize (List.forall_mem_nil _) fun p hp => h p ?_
    rw [taken_take] at hp
    exact List.mem_of_mem_take hp
  · exact startsOver_of_full ((Image.length_bytes _).symm.trans hfull)

/-- A new page file in a vacant place, where a page is reserved and page `2` is written. -/
theorem countsExactly_iff_three_pages :
    create .vacant = .ok ⟨.empty, ∅⟩ ∧
    ∀ n, ((⟨.empty, ∅⟩ : FileStore).after
        ([.reserve, .write ⟨2, by decide⟩ (.fill 7)].take n)).CountsExactly
      ((⟨.empty, ∅⟩ : FileStore).taken
        ([.reserve, .write ⟨2, by decide⟩ (.fill 7)].take n)) := by
  refine ⟨rfl, (countsExactly_iff (show create .vacant = .ok ⟨.empty, ∅⟩ from rfl) _).1.mpr ?_⟩
  have hfirst : (⟨.empty, ∅⟩ : FileStore).reserve.1.val = 0 := by
    rw [val_reserve, pageCount, Image.empty, Nat.zero_div, Nat.zero_mod]
  intro p hp
  rcases List.mem_cons.mp hp with rfl | hp
  · show (⟨.empty, ∅⟩ : FileStore).reserve.1.val + 1 < UInt32.size
    rw [hfirst]
    decide
  · obtain rfl := List.mem_singleton.mp hp
    decide

/-- Once the last page there is was written, no page is counted, and the next page reserved is page
`0`, with the file cut from `2 ^ 44` bytes to those of one page. -/
theorem not_countsExactly_of_last :
    ∃ f, create .vacant = .ok f ∧
      (f.after [.write ⟨4294967295, by decide⟩ (.fill 7)]).image.bytes.length = 17592186044416 ∧
      ¬ (f.after [.write ⟨4294967295, by decide⟩ (.fill 7)]).CountsExactly
        (f.taken [.write ⟨4294967295, by decide⟩ (.fill 7)]) ∧
      (f.after [.write ⟨4294967295, by decide⟩ (.fill 7)]).pageCount = 0 ∧
      (f.after [.write ⟨4294967295, by decide⟩ (.fill 7), .reserve]).image.bytes.length = 4096 ∧
      (f.taken [.write ⟨4294967295, by decide⟩ (.fill 7), .reserve]).map PageId.val =
        [4294967295, 0] := by
  have hwhole : (⟨.empty, ∅⟩ : FileStore).WholePages :=
    ⟨0, Nat.zero_le _, (Nat.zero_mul _).symm⟩
  have hfull := hwhole.full_of_last (c := .write ⟨4294967295, by decide⟩ (.fill 7)) rfl
  have hover := startsOver_of_full hfull
  have hlength := (Image.length_bytes _).trans hfull
  refine ⟨_, rfl, ?_, fun h => h.not_full hfull, hover.count, ?_, ?_⟩
  · exact hlength.trans (by rw [pageSize_eq]; rfl)
  · refine (congrArg List.length hover.cut).trans ?_
    rw [List.length_take, hlength, pageSize_eq]
    rfl
  · exact congrArg (fun n => [4294967295, n]) hover.id

end FileStore

end PageCache
