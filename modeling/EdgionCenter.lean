import EdgionCenter.Lease.Reconcile
import EdgionCenter.Watch.Consistency
import EdgionCenter.Watch.Batch
import EdgionCenter.Directory.Frame
import EdgionCenter.Directory.Tombstone
import EdgionCenter.Federation.Liveness
import EdgionCenter.Federation.Revocation
import EdgionCenter.Federation.Eviction
import EdgionCenter.Federation.DirectorySweep
import EdgionCenter.Federation.Spiffe
import EdgionCenter.Federation.Aggregator
import EdgionCenter.Federation.RuntimeProjector
import EdgionCenter.Cloudflare.PutOutcome
import EdgionCenter.Cloudflare.Agreement
import EdgionCenter.Cloud.Traversal
import EdgionCenter.Route53.Roundtrip
import EdgionCenter.Account.Linear
import EdgionCenter.Admin.Unapplied
import EdgionCenter.Admin.Mediation
import EdgionCenter.Admin.ProxyTarget
import EdgionCenter.Admin.Confined
import EdgionCenter.Admin.GlobalPaging
import EdgionCenter.Route53.Dnssec
import EdgionCenter.Auth.Accepted
import EdgionCenter.Federation.Observation
import EdgionCenter.Cloud.Labels
import EdgionCenter.Auth.AccessReview
import EdgionCenter.Audit.Log
import EdgionCenter.Auth.Permissions
