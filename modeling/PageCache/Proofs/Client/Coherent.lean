import PageCache.Proofs.Client.Account

/-!
# Pools that show the right bytes

The accounts of all pages are sound (`Coherent`) when a pool is new, and every step of a client that
works through guards keeps them so (`Client.Coherent.take`). Pages are independent here: a move
changes the account of its page, and no other (`Coherent.of_step`).
-/

namespace PageCache

open PageCache.System (Runs)

variable {l : Layout} {size : Nat}

/-- The grips that the guards of `held` have on page `p`. -/
def grips (held : List (Guard l size)) (p : PageId) : List (Grip size) :=
  (held.filter fun g => g.handle.page = p).map fun g => ⟨g.handle.frame, g.modified⟩

theorem grips_cons_self (g : Guard l size) (held : List (Guard l size)) :
    grips (g :: held) g.handle.page = ⟨g.handle.frame, g.modified⟩ :: grips held g.handle.page := by
  simp [grips]

theorem grips_cons_of_ne {g : Guard l size} {p : PageId} (h : p ≠ g.handle.page)
    (held : List (Guard l size)) : grips (g :: held) p = grips held p := by
  simp [grips, Ne.symm h]

/-- A guard has a grip on its page. -/
theorem mem_grips {held : List (Guard l size)} {g : Guard l size} (h : g ∈ held) :
    ⟨g.handle.frame, g.modified⟩ ∈ grips held g.handle.page :=
  List.mem_map_of_mem (List.mem_filter.mpr ⟨h, decide_eq_true rfl⟩)

/-- Every grip is that of a guard. -/
theorem exists_of_mem_grips {held : List (Guard l size)} {p : PageId} {grip : Grip size}
    (h : grip ∈ grips held p) :
    ∃ g ∈ held, g.handle.page = p ∧ grip = ⟨g.handle.frame, g.modified⟩ := by
  obtain ⟨g, hg, rfl⟩ := List.mem_map.mp h
  obtain ⟨hmem, hpage⟩ := List.mem_filter.mp hg
  exact ⟨g, hmem, of_decide_eq_true hpage, rfl⟩

/-- The account of page `p` while the guards of `held` are held. -/
def account (v : View size) (held : List (Guard l size)) (L : Ledger) (p : PageId) : Account size :=
  ⟨v.slot p, v.stored p, grips held p, p ∈ L.created, p ∈ L.deleted, L.bytes p⟩

/-- Of a page that was put somewhere the account tells the new place, and nothing else has changed.
-/
theorem account_put (v : View size) (held : List (Guard l size)) (L : Ledger) (p : PageId)
    (place : Option (Fin size × Frame)) :
    account (v.put p place) held L p = { account v held L p with place } := by
  simp only [account, View.slot_put_self]
  rfl

/-- The account of every page is sound. -/
def Coherent (v : View size) (held : List (Guard l size)) (L : Ledger) : Prop :=
  ∀ p, (account v held L p).Sound

namespace Coherent

variable {v v' : View size} {held held' : List (Guard l size)} {L L' : Ledger} {p : PageId}
variable {g : Guard l size}

/-- A page that was created and not deleted shows what it has to. -/
theorem bytes_eq (h : Coherent v held L) (hcreated : p ∈ L.created) (hdeleted : p ∉ L.deleted) :
    v.bytes p = L.bytes p :=
  (h p).shown hcreated hdeleted

/-- In what order the guards are listed does not matter. -/
theorem perm (h : Coherent v held L) (hperm : held.Perm held') : Coherent v held' L :=
  fun p => (h p).perm ((hperm.filter _).map _)

/-- After a move there is one account to look at. -/
theorem of_step {m : Move size} (h : Coherent v held L) (hstep : v.Step m v')
    (hgrips : ∀ q, q ≠ m.page → grips held' q = grips held q)
    (hcreated : ∀ q, q ≠ m.page → (q ∈ L'.created ↔ q ∈ L.created))
    (hdeleted : ∀ q, q ≠ m.page → (q ∈ L'.deleted ↔ q ∈ L.deleted))
    (hbytes : ∀ q, q ≠ m.page → L'.bytes q = L.bytes q)
    (hself : (account v' held' L' m.page).Sound) : Coherent v' held' L' := by
  intro q
  by_cases hq : q = m.page
  · exact hq ▸ hself
  · -- whatever an account of another page is made of is as it was
    obtain ⟨hslot, hstored, -⟩ := hstep.elsewhere hq
    have hsame : account v' held' L' q = account v held L q := by
      simp only [account, hslot, hstored, hgrips q hq, hcreated q hq, hdeleted q hq, hbytes q hq]
    exact hsame ▸ h q

/-! ## Moves -/

/-- A page that is saved or evicted shows the same bytes. -/
theorem quiet_step {m : Move size} (hm : m.Quiet) (h : Coherent v held L) (hstep : v.Step m v') :
    Coherent v' held L := by
  refine h.of_step hstep (fun _ _ => rfl) (fun _ _ => .rfl) (fun _ _ => .rfl) (fun _ _ => rfl) ?_
  cases hstep with
  -- the store has what was shown
  | @evict p f frame hslot hpins hclean =>
    exact account_put v held L p none ▸ (h p).evict hslot hpins hclean
  | @save p f frame hslot =>
    have hself : account ((v.put p (some (f, { frame with dirty := false }))).store p frame.bytes)
        held L p = { account v held L p with
          place := some (f, { frame with dirty := false }), stored := frame.bytes } := by
      simp only [account, View.store, View.put, Function.update_self]
    exact hself ▸ (h p).save hslot
  | _ => exact hm.elim

/-- What a pool does unasked changes no bytes that are shown. -/
theorem quiet {ms : List (Move size)} (h : Coherent v held L) (hquiet : Move.AllQuiet ms)
    (hpath : v.Path ms v') : Coherent v' held L :=
  hpath.keeps hquiet (P := fun v => Coherent v held L) (fun hm hstep h => h.quiet_step hm hstep) h

/-- A page that was loaded for a guard shows what the store had. -/
theorem load (h : Coherent v held L) (hcreated : g.handle.page ∈ L.created)
    (hg : g.modified = false) (hstep : v.Step (.load g.handle.page g.handle.frame) v') :
    Coherent v' (g :: held) L := by
  refine h.of_step hstep (fun _ hq => grips_cons_of_ne hq held) (fun _ _ => .rfl) (fun _ _ => .rfl)
    (fun _ _ => rfl) ?_
  cases hstep with
  | load f hslot =>
    have hself := (h g.handle.page).load hslot hcreated g.handle.frame g.handle.page
    rw [Move.page, account_put, account, grips_cons_self, hg]
    exact hself

/-- A page that was pinned for a guard shows what it did. -/
theorem pin (h : Coherent v held L) (hg : g.modified = false)
    (hstep : v.Step (.pin g.handle.page g.handle.frame) v') : Coherent v' (g :: held) L := by
  refine h.of_step hstep (fun _ hq => grips_cons_of_ne hq held) (fun _ _ => .rfl) (fun _ _ => .rfl)
    (fun _ _ => rfl) ?_
  cases hstep with
  | pin hslot =>
    have hself := (h g.handle.page).pin hslot
    rw [Move.page, account_put, account, grips_cons_self, hg]
    exact hself

/-- A page that was created for a guard shows zeros. -/
theorem create (h : Coherent v held L) (hnew : g.handle.page ∉ L.created)
    (hg : g.modified = false) (hstep : v.Step (.create g.handle.page g.handle.frame) v') :
    Coherent v' (g :: held) (L.create g.handle.page) := by
  refine h.of_step hstep (fun _ hq => grips_cons_of_ne hq held)
    (fun _ hq => List.mem_cons.trans (or_iff_right hq)) (fun _ _ => .rfl)
    (fun _ hq => Function.update_of_ne hq ..) ?_
  cases hstep with
  | create f hslot =>
    have hself := (h g.handle.page).create hslot hnew g.handle.frame g.handle.page
    have hcreated : account ((v.put g.handle.page (some (g.handle.frame, .holding g.handle.page
        .zero))).use g.handle.page) (g :: held) (L.create g.handle.page) g.handle.page =
        { account v held L g.handle.page with
          place := some (g.handle.frame, .holding g.handle.page .zero)
          grips := ⟨g.handle.frame, false⟩ :: grips held g.handle.page
          created := True
          bytes := .zero } := by
      simp [account, View.use, View.put, grips_cons_self, hg, Ledger.create]
    exact hcreated ▸ hself

/-- A guard that is let go of leaves its page as dirty as it made it. -/
theorem unpin (h : Coherent v (g :: held) L)
    (hstep : v.Step (.unpin g.handle.page g.modified) v') : Coherent v' held L := by
  refine h.of_step hstep (fun _ hq => (grips_cons_of_ne hq held).symm) (fun _ _ => .rfl)
    (fun _ _ => .rfl) (fun _ _ => rfl) ?_
  cases hstep with
  | unpin _ hslot =>
    have hself := (h g.handle.page).unpin hslot (grips_cons_self g held)
    rw [Move.page, account_put]
    exact hself

/-- A guard that writes changes what its page has to show. -/
theorem edit (h : Coherent v (g :: held) L) (e : Page → Page)
    (hstep : v.Step (.edit g.handle.page e) v') :
    Coherent v' ({ g with modified := true } :: held)
      { L with bytes := Function.update L.bytes g.handle.page (e (L.bytes g.handle.page)) } := by
  refine h.of_step hstep (fun _ hq => ?_) (fun _ _ => .rfl)
    (fun _ _ => .rfl) (fun _ hq => Function.update_of_ne hq ..) ?_
  · rw [grips_cons_of_ne (g := { g with modified := true }) hq, grips_cons_of_ne hq]
  cases hstep with
  | edit _ hslot =>
    have hself := (h g.handle.page).edit hslot (grips_cons_self g held) e
    have hgrips := grips_cons_self { g with modified := true } held
    rw [Move.page, account_put, account, hgrips]
    simp only [Function.update_self]
    exact hself

/-- A page that is deleted has nothing to show any more. -/
theorem discard (h : Coherent v held L) (hstep : v.Step (.discard p) v') :
    Coherent v' held (L.delete p) := by
  refine h.of_step hstep (fun _ _ => rfl) (fun _ _ => .rfl)
    (fun _ hq => List.mem_cons.trans (or_iff_right hq)) (fun _ _ => rfl) ?_
  cases hstep with
  | discard hslot hpins =>
    have hself := (h p).discard hslot hpins
    rw [Move.page, account_put, account, Ledger.delete, eq_true List.mem_cons_self]
    exact hself

/-- A page that was deleted while it was not resident has nothing to show any more, either. -/
theorem delete (h : Coherent v held L) (p : PageId) : Coherent v held (L.delete p) := by
  intro q
  by_cases hq : q = p
  · have hself := (h q).delete
    simpa [account, Ledger.delete, hq] using hself
  · have hsame : account v held (L.delete p) q = account v held L q := by
      simp [account, Ledger.delete, hq]
    exact hsame ▸ h q

end Coherent

/-! ## Guards under names -/

/-- The guards that names stand for. -/
def held (guards : Std.ExtTreeMap String (Guard l size)) : List (Guard l size) :=
  guards.toList.map Prod.snd

/-- One entry of a map can be put first. -/
theorem toList_perm {β : Type} {entries : Std.ExtTreeMap String β} {name : String} {b : β}
    (h : entries[name]? = some b) :
    entries.toList.Perm ((name, b) :: (entries.erase name).toList) := by
  -- lists of different entries are compared by what is in them
  have hnodup (entries : Std.ExtTreeMap String β) : entries.toList.Nodup := by
    refine List.Pairwise.imp ?_ entries.distinct_keys_toList
    rintro x y hxy rfl
    exact hxy (Std.ReflCmp.compare_self)
  have hmem (entries : Std.ExtTreeMap String β) (x : String × β) :
      x ∈ entries.toList ↔ entries[x.1]? = some x.2 :=
    Std.ExtTreeMap.mem_toList_iff_getElem?_eq_some
  have hnot : (name, b) ∉ (entries.erase name).toList := by
    rw [hmem]
    simp
  rw [List.perm_ext_iff_of_nodup (hnodup _) (List.nodup_cons.mpr ⟨hnot, hnodup _⟩)]
  rintro ⟨name', b'⟩
  rw [List.mem_cons, hmem, hmem, Std.ExtTreeMap.getElem?_erase]
  simp only [Std.LawfulEqCmp.compare_eq_iff_eq, Prod.mk.injEq]
  -- the entry itself is told once, and every other as before
  by_cases hname : name = name'
  · subst hname
    simp [h, eq_comm]
  · simp [hname, Ne.symm hname]

/-- A guard that a name stands for may be listed first. -/
theorem held_perm {guards : Std.ExtTreeMap String (Guard l size)} {name : String}
    {g : Guard l size} (h : guards[name]? = some g) :
    (held guards).Perm (g :: held (guards.erase name)) :=
  (toList_perm h).map Prod.snd

/-- A guard that gets a name may be listed first; the one that had it is gone. -/
theorem held_insert_perm (guards : Std.ExtTreeMap String (Guard l size)) (name : String)
    (g : Guard l size) : (held (guards.insert name g)).Perm (g :: held (guards.erase name)) := by
  have hself : (guards.insert name g)[name]? = some g := Std.ExtTreeMap.getElem?_insert_self
  have herase : (guards.insert name g).erase name = guards.erase name := by
    ext1 name'
    simp only [Std.ExtTreeMap.getElem?_erase, Std.ExtTreeMap.getElem?_insert]
    split <;> rfl
  exact herase ▸ held_perm hself

/-- A name that stands for nothing may be dropped. -/
theorem erase_of_none {guards : Std.ExtTreeMap String (Guard l size)} {name : String}
    (h : guards[name]? = none) : guards.erase name = guards := by
  ext1 name'
  simp only [Std.ExtTreeMap.getElem?_erase, Std.LawfulEqCmp.compare_eq_iff_eq]
  split
  · next hname => rw [← hname, h]
  · rfl

/-- Without names there are no guards. -/
theorem held_eq_nil {guards : Std.ExtTreeMap String (Guard l size)}
    (h : ∀ name : String, guards[name]? = none) : held guards = [] := by
  rw [held, List.map_eq_nil_iff, List.eq_nil_iff_forall_not_mem]
  rintro ⟨name, g⟩ hmem
  rw [Std.ExtTreeMap.mem_toList_iff_getElem?_eq_some, h name] at hmem
  exact absurd hmem (by simp)

/-- What a name stands for is one of the guards. -/
theorem mem_held {guards : Std.ExtTreeMap String (Guard l size)} {name : String}
    {g : Guard l size} (h : guards[name]? = some g) : g ∈ held guards :=
  List.mem_map.mpr ⟨(name, g), Std.ExtTreeMap.mem_toList_iff_getElem?_eq_some.mpr h, rfl⟩

/-- Each of the guards has a name. -/
theorem exists_name_of_mem_held {guards : Std.ExtTreeMap String (Guard l size)}
    {g : Guard l size} (h : g ∈ held guards) : ∃ name : String, guards[name]? = some g := by
  obtain ⟨⟨name, g⟩, hmem, rfl⟩ := List.mem_map.mp h
  exact ⟨name, Std.ExtTreeMap.mem_toList_iff_getElem?_eq_some.mp hmem⟩

end PageCache
