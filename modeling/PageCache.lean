import PageCache.Client.Session
import PageCache.Main
import PageCache.Page.Digest
import PageCache.Proofs.Client.Clean
import PageCache.Proofs.Client.Creation
import PageCache.Proofs.Client.Dealing
import PageCache.Proofs.Client.Deleted
import PageCache.Proofs.Client.Durable
import PageCache.Proofs.Client.Failures
import PageCache.Proofs.Client.Flushing
import PageCache.Proofs.Client.Full
import PageCache.Proofs.Client.Ids
import PageCache.Proofs.Client.Intact
import PageCache.Proofs.Client.LeastRecent
import PageCache.Proofs.Client.NewPages
import PageCache.Proofs.Client.PinCounts
import PageCache.Proofs.Client.Pinned
import PageCache.Proofs.Client.Preloaded
import PageCache.Proofs.Client.Product
import PageCache.Proofs.Client.Refusals
import PageCache.Proofs.Client.Rotation
import PageCache.Proofs.Client.Sharding
import PageCache.Proofs.Client.Takeover
import PageCache.Proofs.Client.Traffic
import PageCache.Proofs.Client.Unbroken
import PageCache.Proofs.Flusher.Atomic
import PageCache.Proofs.Flusher.Complete
import PageCache.Proofs.Recency.Order
import PageCache.Proofs.Shard.Cases
import PageCache.Proofs.Store.Agreement
import PageCache.Proofs.Store.AnyLength
import PageCache.Proofs.Store.Reserve
import PageCache.Proofs.Workload.Delivery
import PageCache.Recency.Queue
