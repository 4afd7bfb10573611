import Ramp.Billing.Replays
import Ramp.Billing.TigerBeetle.Operations
import Ramp.Billing.TigerBeetle.Restoring
import Ramp.Broker.Budget
import Ramp.Broker.Ranking
import Ramp.Broker.RelayRuns
import Ramp.BuyerKeys.Lookup
import Ramp.Catalog.Ownership
import Ramp.Edge.KeyCache
import Ramp.Edge.Query
import Ramp.Evidence.Assertions
import Ramp.Exchange.CompRender
import Ramp.Exchange.MergeStruct
import Ramp.Exchange.PriceAgreement
import Ramp.Exchange.Recovery
import Ramp.Exchange.RelayGate
import Ramp.Exchange.SharedHolds
import Ramp.Exchange.StatusCache
import Ramp.HTTPSig.Replay
import Ramp.Identity.Accounts
import Ramp.Identity.Freshness
import Ramp.Identity.Outages
import Ramp.Identity.RegistrationLog
import Ramp.Identity.Rotation
import Ramp.Ingest.Parser
import Ramp.Mcp.Deliver
import Ramp.OAuth.Consent
import Ramp.Registration.Agreement
import Ramp.Reporting.Remedy
import Ramp.Reporting.Settlement
import Ramp.WellKnown.Lifetime
