import RedisSmq.Guarantees.Attempts
import RedisSmq.Guarantees.AuditBounds
import RedisSmq.Guarantees.RateLimiting
import RedisSmq.Guarantees.RetryDelay
import RedisSmq.Guarantees.Stranding
import RedisSmq.Guarantees.Exclusivity
import RedisSmq.Guarantees.Settlement
import RedisSmq.Guarantees.Expiry
import RedisSmq.Guarantees.Occurrences
import RedisSmq.Guarantees.Tracking
import RedisSmq.Guarantees.Purging
import RedisSmq.Guarantees.LockExclusion
import RedisSmq.Guarantees.Registration
import RedisSmq.Guarantees.GroupDeletion
import RedisSmq.Guarantees.Reaping
import RedisSmq.Guarantees.OneInstance
import RedisSmq.Guarantees.ExchangeRemoval
import RedisSmq.Guarantees.ExchangePolicy
import RedisSmq.Guarantees.KnownGroups
import RedisSmq.Guarantees.ConfigAgreement
import RedisSmq.Guarantees.ConfigInit
import RedisSmq.Guarantees.WorkerLock
import RedisSmq.Guarantees.QueueRemoval
import RedisSmq.Guarantees.TopicRouting
import RedisSmq.Guarantees.Batching
import RedisSmq.Guarantees.CronSchedule
import RedisSmq.Guarantees.PopOrder
import RedisSmq.Guarantees.StateEncoding
import RedisSmq.Guarantees.KeySeparation
import RedisSmq.Guarantees.JobStatus
import RedisSmq.Guarantees.DeleteStatistics
import RedisSmq.Guarantees.UnackEvents
import RedisSmq.Guarantees.NamespaceDeletion
import RedisSmq.Guarantees.Finality
import RedisSmq.Consumers.Heartbeat
import RedisSmq.Guarantees.JobLifecycle
