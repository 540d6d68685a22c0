import GeodeNative.Cache.MemberList
import GeodeNative.Cache.Convergence
import GeodeNative.Cache.MapSize
import GeodeNative.Cache.Tracking
import GeodeNative.Cache.PlainCounters
import GeodeNative.Cache.TrackAll
import GeodeNative.Cache.MembershipID
import GeodeNative.Cache.LRUInvariant
import GeodeNative.Serialization.StreamReads
import GeodeNative.Serialization.DataOutputSafety
import GeodeNative.Serialization.CacheableString
import GeodeNative.Serialization.Durations
import GeodeNative.Pdx.TypeRoundTrip
import GeodeNative.Pdx.MergeEffect
import GeodeNative.Pdx.Writers
import GeodeNative.Pdx.ByName
import GeodeNative.Pdx.TypeIds
import GeodeNative.Events.DuplicateFilter
import GeodeNative.Routing.ServerToFilterMap
import GeodeNative.Routing.BucketLists
import GeodeNative.Bulk.PartialResult
import GeodeNative.Bulk.VersionTags
import GeodeNative.Region.TrackerBalance
import GeodeNative.Pool.ExcludedServers
import GeodeNative.Pool.Registration
import GeodeNative.Pool.ClientOps
import GeodeNative.Pool.PoolLimit
import GeodeNative.Pool.TransactionManager
import GeodeNative.Messages.RequestFraming
import GeodeNative.Messages.TimeBudget
import GeodeNative.Events.EventId
import GeodeNative.Cache.ExpiryTaskManager
import GeodeNative.Subscription.CqQuery
import GeodeNative.Subscription.RedundancyLists
import GeodeNative.Subscription.SubscriptionRequests
import GeodeNative.Subscription.InterestLists
import GeodeNative.Pool.TransactionRegistry
import GeodeNative.Cache.FailedCalls
import GeodeNative.Serialization.ByteArrays
import GeodeNative.Serialization.StringHash
