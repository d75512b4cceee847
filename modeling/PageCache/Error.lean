/-!
# What can go wrong

Two kinds of failure leave an operation. A `StorageError` is an answer callers are expected to
handle. A `Violation` means that the caller or the set-up broke a rule of the pool; the operation
stops where the rule was broken, and what it changed before stays changed. Each cause has one
wording, in `message`.
-/

namespace PageCache

/-- What the storage under the pool reports. -/
inductive IoError
  | notFound
  | isDirectory
  | nameTooLong
  /-- The file ends inside the page that was asked for. -/
  | shortRead
  | readFault
  | writeFault
deriving DecidableEq

inductive ConfigError
  | noFrames
  | noShards
deriving DecidableEq

inductive StorageError
  /-- No frame is free and none may be evicted. -/
  | poolFull
  /-- A whole page has to be read or written, and the buffer held `actual` bytes. -/
  | bufferSize (actual : Nat)
  | config (cause : ConfigError)
  | io (cause : IoError)
  /-- Every id the shard may give out has been given out. -/
  | idsExhausted
deriving DecidableEq

inductive Violation
  /-- A page was asked of a shard that another shard owns it from. -/
  | foreignPage (page index count : Nat)
  | noShards
  | shardOutOfRange (index count : Nat)
  /-- A frame was named for eviction that the pool does not have. -/
  | frameOutOfRange (size frame : Nat)
  /-- A page was pinned once more than a pin count can tell. -/
  | pinOverflow
  /-- The frames of all shards together are more than a machine word can tell. -/
  | frameCountOverflow
deriving DecidableEq

inductive Failure
  | storage (error : StorageError)
  | violation (cause : Violation)
deriving DecidableEq

/-! ## Wording -/

def IoError.message : IoError → String
  | notFound => "No such file or directory (os error 2)"
  | isDirectory => "Is a directory (os error 21)"
  | nameTooLong => "File name too long (os error 36)"
  | shortRead => "failed to fill whole buffer"
  | readFault => "injected read fault"
  | writeFault => "injected write fault"

def ConfigError.message : ConfigError → String
  | noFrames => "pool_size must be at least 1"
  | noShards => "num_instances must be at least 1"

def StorageError.message : StorageError → String
  | poolFull => "Buffer pool is full: every frame is pinned"
  | bufferSize actual => "Invalid buffer size: expected 4096 bytes, got " ++ toString actual
  | config cause => "Invalid configuration: " ++ cause.message
  | io cause => "IO error: " ++ cause.message
  | idsExhausted => "Page id space exhausted"

def Violation.message : Violation → String
  | foreignPage page index count =>
    s!"page {page} does not belong to buffer pool instance {index} of {count}"
  | noShards => "a buffer pool needs at least one instance"
  | shardOutOfRange index count => s!"instance index {index} out of range for {count} instances"
  | frameOutOfRange size frame =>
    s!"index out of bounds: the len is {size} but the index is {frame}"
  | pinOverflow => "attempt to add with overflow"
  | frameCountOverflow => "attempt to multiply with overflow"

def Failure.message : Failure → String
  | storage error => error.message
  | violation cause => cause.message

end PageCache
