import IndenturedServer.Artifacts.AllOrNothing
import IndenturedServer.Artifacts.Eviction
import IndenturedServer.Artifacts.Expiry
import IndenturedServer.Artifacts.RawZip
import IndenturedServer.Artifacts.Selection
import IndenturedServer.Client.Election
import IndenturedServer.Client.LineLimiter
import IndenturedServer.Client.StreamRoundTrip
import IndenturedServer.Phases.Bridge
import IndenturedServer.Phases.Budget
import IndenturedServer.Phases.Decoding
import IndenturedServer.Phases.Order
import IndenturedServer.Services.Cleanup
import IndenturedServer.Sessions.Archives
import IndenturedServer.Sessions.IdleTimers
import IndenturedServer.Sessions.Ownership
import IndenturedServer.Sessions.ReadyEvent
import IndenturedServer.Sessions.Retention
import IndenturedServer.Sessions.StopElection
import IndenturedServer.Source.SymlinkEscape
import IndenturedServer.SourceUpdates.Agreement
import IndenturedServer.SourceUpdates.Atomicity
import IndenturedServer.SourceUpdates.Confined
import IndenturedServer.Workspace.Opens
import IndenturedServer.Source.Aggregate
import IndenturedServer.Http.BearerToken
import IndenturedServer.Sessions.Startup
import IndenturedServer.Logging.Rotation
import IndenturedServer.HostObservation.Crc
import IndenturedServer.Configuration.Validation
