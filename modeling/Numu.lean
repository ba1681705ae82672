import Numu.Lib.Pool
import Numu.Api.Members
import Numu.Api.Auth
import Numu.Api.Relations
import Numu.Api.Orchestrator
import Numu.Api.Search
import Numu.Api.Types
import Numu.Api.Service
import Numu.Proofs.Reach
import Numu.Proofs.Steps
import Numu.Proofs.FieldPlane
import Numu.Proofs.Roster
import Numu.Proofs.Sharing
import Numu.Proofs.Mirror
import Numu.Lib.Versioned
import Numu.Proofs.Versions
import Numu.Proofs.Pipeline
import Numu.Proofs.Chain
import Numu.Proofs.Histories
import Numu.Proofs.Deletion
import Numu.Proofs.Addressing
import Numu.Proofs.Oracles
import Numu.Proofs.Search
import Numu.Proofs.Effects
import Numu.Proofs.Schema
import Numu.Proofs.ScopeForest
import Numu.Proofs.Updatable
import Numu.Proofs.Registration
import Numu.Proofs.Options
import Numu.Lib.Watch
import Numu.Proofs.Publication
import Numu.Proofs.Sightings
import Numu.Proofs.Admins
import Numu.Proofs.CloseGate
import Numu.Proofs.Audit
import Numu.Proofs.Backstop
import Numu.Proofs.Overrides
import Numu.Lib.Canonical
import Numu.Proofs.MergePatch
import Numu.Proofs.Replace
import Numu.Proofs.Logins
import Numu.Proofs.Oauth
import Numu.Proofs.RateLimit
import Numu.Proofs.HttpClient
import Numu.Proofs.Conditional
import Numu.Proofs.Cookies
import Numu.Proofs.Trail
import Numu.Proofs.Rows
import Numu.Proofs.Conformity
import Numu.Proofs.Excuses
import Numu.Proofs.Freshness
import Numu.Proofs.Outside
import Numu.Proofs.Disclosure
import Numu.Proofs.Progress
