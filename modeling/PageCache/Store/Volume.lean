import PageCache.Store.Request

/-!
# Volumes

What outlives a pool is its disk: pages in memory stay as they are, of a page file only the file
stays. Mounting a volume gives the disk of the next session.
-/

namespace PageCache

inductive Volume
  | memory (disk : Disk)
  /-- A directory, with or without a page file in it. -/
  | directory (image : Option Image)

/-- The path a page file is opened at. -/
inductive Place
  | pageFile
  /-- Another name in the same directory; there is no such file. -/
  | otherFile
  | directory
  | missingDirectory
  /-- A name longer than files may have. -/
  | overlong
deriving DecidableEq

/-- The most bytes a name in a path may have. -/
def Place.maxName : Nat :=
  255

/-- Where the segments of a path lead that starts at the directory, or `outside` it at one of which
nothing is known. There are no directories in the directory, and no page file yet; it will have the
name `pageFile`. A slash after a new name asks for a directory, which a file cannot be. -/
def Place.follow (pageFile : String) : (outside : Bool) → List String → Place
  | _, [] => directory
  | outside, segment :: rest =>
    if segment = "" || segment = "." then follow pageFile outside rest
    else if segment = ".." then follow pageFile true rest
    else if maxName < segment.utf8ByteSize then overlong
    else if rest.isEmpty then
      if !outside && segment = pageFile then Place.pageFile else otherFile
    else if rest.all (· = "") then directory
    else missingDirectory

structure Mount where
  /-- Start an empty file, rather than open the one that is there. -/
  create : Bool
  place : Place
deriving DecidableEq

namespace Volume

def target (image : Option Image) : Place → Target
  | .pageFile => match image with
    | some image => .file image
    | none => .vacant
  | .otherFile => .vacant
  | .directory => .directory
  | .missingDirectory => .nowhere
  | .overlong => .overlong

/-- The disk of the next session. Faults are forgotten when a file is opened. -/
def mount (v : Volume) (m : Mount) : Except IoError Disk :=
  match v with
  | memory disk => .ok disk
  | directory image =>
    let opened := if m.create then FileStore.create (target image m.place)
      else FileStore.openExisting (target image m.place)
    opened.map fun store => .onMedium (.file store)

/-- What is left of a disk when its session is over. -/
def ofDisk (d : Disk) : Volume :=
  match d.medium with
  | .memory _ => memory d
  | .file store => directory (some store.image)

end Volume

/-! ## What can be seen of a disk -/

inductive DiskSnapshot
  | memory (reads writes deallocations : Nat)
  | file (pages : Nat)
deriving DecidableEq

def Disk.snapshot (d : Disk) : DiskSnapshot :=
  match d.medium with
  | .memory m => .memory m.reads m.writes m.deallocations
  | .file f => .file f.pageCount

/-- Requests in turn, each answered with the state of the disk after it. -/
def Disk.run : List DiskOp → Disk → List (Except Failure DiskReply × DiskSnapshot) × Disk
  | [], d => ([], d)
  | op :: rest, d =>
    let o := d.perform op
    let (answers, d) := run rest o.state
    ((o.result, o.state.snapshot) :: answers, d)

/-- A session without a pool. -/
def Volume.runDisk (v : Volume) (m : Mount) (ops : List DiskOp) :
    Except Failure (List (Except Failure DiskReply × DiskSnapshot)) × Volume :=
  match v.mount m with
  | .error e => (.error (.storage (.io e)), v)
  | .ok disk =>
    let (answers, disk) := disk.run ops
    (.ok answers, .ofDisk disk)

end PageCache
