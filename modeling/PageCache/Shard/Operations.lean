import PageCache.Shard.Basic

/-!
# Operations of a shard

Each operation runs as a whole: nothing else happens to the shard or its disk in between. `fetch`,
`unpin` and `delete` name a page and refuse one of another stripe; `newPage` takes the next id of
the stripe, and would refuse that too if it were one of another.

A page is brought into a frame that `acquire` found for it: a free one, or else the one that became
evictable first. A dirty victim is written back before its frame is used again, and stays, as the
last to be evicted, if that fails.
-/

namespace PageCache.Backed

variable {size : Nat} {δ : Type} [PageStore δ]

/-! ## Finding a frame -/

/-- Write the bytes of frame `f` to the disk as page `p`. -/
def writeBack (w : Backed size δ) (p : PageId) (f : Fin size) : Outcome (Backed size δ) Unit :=
  match PageStore.write w.disk p (w.shard.frame f).bytes with
  | (.ok (), disk) => .ok () { w with disk }
  | (.error e, disk) => .fail (.storage (.io e)) { w with disk }

/-- Take the page out of frame `f`, which the recency list has just given up. -/
def evict (w : Backed size δ) (f : Fin size) : Outcome (Backed size δ) (Fin size) :=
  let frame := w.shard.frame f
  match frame.holds with
  | none => .ok f { w with shard := w.shard.setFrame f frame.released }
  | some p =>
    if frame.dirty then
      let o := w.writeBack p f
      match o.result with
      | .ok () =>
        .after (o.events ++ [.evictedDirty p f])
          (.ok f { o.state with shard := o.state.shard.unmap p f })
      | .error e =>
        let (shard, events) := o.state.shard.track f
        ⟨.error e, { o.state with shard }, o.events ++ events⟩
    else .after [.evictedClean p f] (.ok f { w with shard := w.shard.unmap p f })

/-- Find a frame for a page: the first free one, or else the oldest evictable one. -/
def acquire (w : Backed size δ) : Outcome (Backed size δ) (Fin size) :=
  match w.shard.free with
  | f :: free => .ok f { w with shard := { w.shard with free } }
  | [] =>
    match w.shard.recency.victim with
    | none => .fail (.storage .poolFull) w
    | some (frame, recency) =>
      let w := { w with shard := { w.shard with recency } }
      .after [.victim frame]
        (if h : frame < size then w.evict ⟨frame, h⟩
         else .fail (.violation (.frameOutOfRange size frame)) w)

/-! ## Fetching -/

/-- One more pin on the page in frame `f`. -/
def pinAgain (w : Backed size δ) (f : Fin size) : Outcome (Backed size δ) (Fin size) :=
  let frame := w.shard.frame f
  if frame.pins < Frame.maxPins then
    let shard := w.shard.setFrame f { frame with pins := frame.pins + 1 }
    let (shard, events) := shard.untrack f
    ⟨.ok f, { w with shard }, events⟩
  else .fail (.violation .pinOverflow) w

/-- Read page `p` into frame `f`. If that fails the frame is wiped and free again. -/
def load (w : Backed size δ) (p : PageId) (f : Fin size) : Outcome (Backed size δ) (Fin size) :=
  let frame := w.shard.frame f
  let r := PageStore.read w.disk p frame.bytes
  match r.result with
  | .ok () => ⟨.ok f, ⟨w.shard.install p f r.buffer, r.store⟩, r.events ++ [.loaded p f]⟩
  | .error e =>
    let wiped := w.shard.setFrame f { frame with bytes := .zero }
    ⟨.error (.storage (.io e)), ⟨{ wiped with free := wiped.free ++ [f] }, r.store⟩, r.events⟩

/-- Pin page `p`, reading it from the disk if it is not resident, and tell its frame. -/
def fetch (s : Stripe) (w : Backed size δ) (p : PageId) : Outcome (Backed size δ) (Fin size) :=
  if s.Owns p then
    match w.shard.table[p]? with
    | some f => w.pinAgain f
    | none => w.acquire.andThen fun f w => w.load p f
  else .fail (s.foreign p) w

/-! ## Creating, unpinning, deleting -/

/-- Give page `p` of zeros out, pinned once, in frame `f`. The counter of the shard moves on before
it is asked whether the page is one of the stripe. -/
def create (s : Stripe) (w : Backed size δ) (p : PageId) (f : Fin size) :
    Outcome (Backed size δ) (PageId × Fin size) :=
  if s.Owns p then
    .after [.created p f]
      (.ok (p, f) { w with shard := { w.shard.install p f .zero with nextId := s.next? p } })
  else .fail (s.foreign p) { w with shard := { w.shard with nextId := s.next? p } }

/-- A page of zeros under the next id of the stripe, pinned once. No id is used up if no frame is
found for it. -/
def newPage (s : Stripe) (w : Backed size δ) : Outcome (Backed size δ) (PageId × Fin size) :=
  match w.shard.nextId with
  | none => .fail (.storage .idsExhausted) w
  | some p => w.acquire.andThen fun f w => w.create s p f

/-- Take one pin off page `p`; `dirty` says that its bytes were changed. False if there was no pin
to take off. -/
def unpin (s : Stripe) (w : Backed size δ) (p : PageId) (dirty : Bool) :
    Outcome (Backed size δ) Bool :=
  if s.Owns p then
    match w.shard.table[p]? with
    | none => .ok false w
    | some f =>
      let frame := w.shard.frame f
      if frame.pins = 0 then .after [.overUnpinned p] (.ok false w)
      else
        let shard := w.shard.setFrame f
          { frame with pins := frame.pins - 1, dirty := frame.dirty || dirty }
        if frame.pins = 1 then
          let (shard, events) := shard.track f
          ⟨.ok true, { w with shard }, events⟩
        else .ok true { w with shard }
  else .fail (s.foreign p) w

/-- Drop page `p` from the shard, unsaved changes and all. False if it is pinned. -/
def discard (w : Backed size δ) (p : PageId) : Outcome (Backed size δ) Bool :=
  match w.shard.table[p]? with
  | none => .ok true w
  | some f =>
    if 0 < (w.shard.frame f).pins then .after [.deleteRefused p] (.ok false w)
    else
      let (shard, events) := { w.shard with table := w.shard.table.erase p }.untrack f
      let shard := shard.setFrame f .blank
      ⟨.ok true, { w with shard := { shard with free := shard.free ++ [f] } }, events⟩

/-- Tell the disk that page `p` may be reclaimed, and drop it. -/
def delete (s : Stripe) (w : Backed size δ) (p : PageId) : Outcome (Backed size δ) Bool :=
  if s.Owns p then
    let (disk, events) := PageStore.deallocate w.disk p
    .after events (discard { w with disk } p)
  else .fail (s.foreign p) w

end PageCache.Backed
