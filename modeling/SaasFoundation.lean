import SaasFoundation.Lib.Prog
import SaasFoundation.Lib.Threads
import SaasFoundation.Lib.Tickets
import SaasFoundation.Lib.Text
import SaasFoundation.Lib.IsoDate
import SaasFoundation.Vestibulum.Runtime
import SaasFoundation.Vestibulum.SignIn.Requests
import SaasFoundation.Vestibulum.SignIn.Limits
import SaasFoundation.Vestibulum.SignIn.Create
import SaasFoundation.Vestibulum.SignIn.Login
import SaasFoundation.Vestibulum.SignIn.Redeem
import SaasFoundation.Vestibulum.SignIn.Verify
import SaasFoundation.Lib.Fresh
import SaasFoundation.Lib.Script
import SaasFoundation.Lib.Store
import SaasFoundation.Vestibulum.SignIn.World
import SaasFoundation.Vestibulum.SignIn.SingleUse
import SaasFoundation.Vestibulum.SignIn.Soundness
import SaasFoundation.Vestibulum.SignIn.Binding
import SaasFoundation.Vestibulum.SignIn.Enumeration
import SaasFoundation.Vestibulum.SignIn.CustomAuth
import SaasFoundation.Vestibulum.SignIn.SendCaps
import SaasFoundation.Lib.Lease
import SaasFoundation.Vestibulum.SharedDistribution.Registry
import SaasFoundation.Vestibulum.SharedDistribution.Uniqueness
import SaasFoundation.Vestibulum.SharedDistribution.Edge
import SaasFoundation.Vestibulum.SharedDistribution.PassThrough
import SaasFoundation.Lib.Asks
import SaasFoundation.Vestibulum.SharedDistribution.Triggers
import SaasFoundation.Vestibulum.SharedDistribution.Isolation
import SaasFoundation.Vestibulum.SharedDistribution.Bounce
import SaasFoundation.Vestibulum.SharedDistribution.Pool
import SaasFoundation.Vestibulum.SharedDistribution.AllowList
import SaasFoundation.Vestibulum.SharedDistribution.Quarantine
import SaasFoundation.Lib.History
import SaasFoundation.Foundation.RateLimit.TokenBucket
import SaasFoundation.Foundation.RateLimit.Limiters
import SaasFoundation.Foundation.RateLimit.LostUpdates
import SaasFoundation.Lib.BigStep
import SaasFoundation.Vestibulum.Idp.Secrets
import SaasFoundation.Lib.BigStep
import SaasFoundation.Vestibulum.Idp.Secrets
import SaasFoundation.Vestibulum.Idp.SecretIsolation
import SaasFoundation.Vestibulum.Idp.Names
import SaasFoundation.Vestibulum.Idp.Managers
import SaasFoundation.Vestibulum.Idp.ProviderIsolation
import SaasFoundation.Foundation.Kv.Memory
import SaasFoundation.Foundation.Kv.Dynamo
import SaasFoundation.Foundation.Kv.Postgres
import SaasFoundation.Foundation.Kv.Agreement
import SaasFoundation.Foundation.Kv.DynamoSystem
import SaasFoundation.Foundation.Kv.DynamoRuns
import SaasFoundation.Foundation.Kv.Locks
import SaasFoundation.Foundation.Kv.Versions
import SaasFoundation.Foundation.Kv.PostgresSystem
import SaasFoundation.Lib.Revisions
import SaasFoundation.Foundation.Kv.LostUpdates
import SaasFoundation.Foundation.Kv.Retries
import SaasFoundation.Foundation.Kv.Freshness
import SaasFoundation.Foundation.Kv.Sweep
import SaasFoundation.Foundation.Kv.Namespaces
import SaasFoundation.Foundation.Net.Cidr
import SaasFoundation.Vestibulum.Discovery.PrivateIp
import SaasFoundation.Foundation.Net.Reserved
import SaasFoundation.Vestibulum.Discovery.FailClosed
import SaasFoundation.Vestibulum.Discovery.Pinning
import SaasFoundation.Foundation.Secrets.Resolve
import SaasFoundation.Foundation.Secrets.Intact
import SaasFoundation.Foundation.FeatureToggles.Prisma
import SaasFoundation.Foundation.FeatureToggles.ReadYourWrites
import SaasFoundation.Vestibulum.SharedDistribution.EdgeKeys
import SaasFoundation.Vestibulum.SharedDistribution.TtlCache
import SaasFoundation.Vestibulum.SharedDistribution.ClientConfigLoader
import SaasFoundation.Lib.LowerCase
import SaasFoundation.Vestibulum.SharedDistribution.AllowedDomains
import SaasFoundation.Vestibulum.SharedDistribution.TenantLabel
import SaasFoundation.Lib.Url
import SaasFoundation.Vestibulum.SharedDistribution.LoginRedirect
import SaasFoundation.Lib.Cookies
import SaasFoundation.Vestibulum.SharedDistribution.AuthVerify
import SaasFoundation.Vestibulum.SharedDistribution.Cloud
import SaasFoundation.Vestibulum.SharedDistribution.DeleteRetry
import SaasFoundation.Foundation.RateLimit.Results
import SaasFoundation.Foundation.RateLimit.Expiry
import SaasFoundation.Foundation.Kv.IncrementFrame
import SaasFoundation.Foundation.Kv.LegacyItems
import SaasFoundation.Foundation.Kv.ItemCodec
import SaasFoundation.Vestibulum.SignIn.CompareFirst
import SaasFoundation.Foundation.Kv.Cursors
import SaasFoundation.Foundation.Kv.ListAgreement
import SaasFoundation.Vestibulum.Verify.JwksFallback
import SaasFoundation.Vestibulum.SharedDistribution.AllOrNothing
import SaasFoundation.Vestibulum.SharedDistribution.CreatedOnce
import SaasFoundation.Foundation.Net.ClientIp
import SaasFoundation.Foundation.Net.Anonymize
import SaasFoundation.Lib.JsonReread
import SaasFoundation.Vestibulum.Verify.LastGood
import SaasFoundation.Vestibulum.Idp.AppClients
import SaasFoundation.Vestibulum.Idp.NameHistory
import SaasFoundation.Vestibulum.Idp.SecretHistory
import SaasFoundation.Lib.Lru
import SaasFoundation.Foundation.Secrets.LruRefinement
import SaasFoundation.Foundation.Secrets.Scaleway
import SaasFoundation.Foundation.Secrets.CacheKeys
import SaasFoundation.Foundation.Secrets.SharedCache
import SaasFoundation.Foundation.Session.Cookie
import SaasFoundation.Foundation.Session.RoundTrip
import SaasFoundation.Lib.Fitting
import SaasFoundation.Lib.JsonSize
import SaasFoundation.Foundation.Audit.AuditLog
import SaasFoundation.Foundation.Audit.MetadataBound
import SaasFoundation.Lib.Numerals
import SaasFoundation.Foundation.Audit.PiiRemoved
import SaasFoundation.Foundation.Audit.Ulid
import SaasFoundation.Foundation.Audit.DynamoStore
import SaasFoundation.Foundation.Queue.BatchReport
import SaasFoundation.Foundation.Tenant.Hostnames
import SaasFoundation.Foundation.Region.Residency
import SaasFoundation.Foundation.Net.SignedBits
import SaasFoundation.Foundation.Net.Lenient
import SaasFoundation.Vestibulum.Discovery.LenientText
import SaasFoundation.Vestibulum.Discovery.ParsersAgree
