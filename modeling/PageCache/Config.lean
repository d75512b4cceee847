import PageCache.Error

/-!
# Configurations

A configuration asks for a number of shards and of frames in each. Both have to be positive before
a pool is built.
-/

namespace PageCache

structure Config where
  /-- Frames in each shard. -/
  frames : UInt64
  shards : UInt32
deriving DecidableEq

namespace Config

def standard : Config :=
  ⟨64, 1⟩

instance : Inhabited Config := ⟨standard⟩

/-- Frames in all shards together, if a machine word can tell. -/
def totalFrames (c : Config) : Except Violation Nat :=
  if c.frames.toNat * c.shards.toNat < UInt64.size then .ok (c.frames.toNat * c.shards.toNat)
  else .error .frameCountOverflow

/-- The frames are looked at first. -/
def validate (c : Config) : Except ConfigError Unit :=
  if c.frames = 0 then .error .noFrames
  else if c.shards = 0 then .error .noShards
  else .ok ()

/-- The configuration under the names of its fields. -/
def tagged (c : Config) : String :=
  "BufferPoolConfig \x7b pool_size: " ++ toString c.frames.toNat ++
    ", num_instances: " ++ toString c.shards.toNat ++ " \x7d"

end Config

end PageCache
