import UnifiedApi.Lib.StrMap
import UnifiedApi.Lib.Clock
import UnifiedApi.Domain.Dataset
import UnifiedApi.Domain.CacheEntry
import UnifiedApi.Domain.Source
import UnifiedApi.Ports.Connector
import UnifiedApi.Cache.MemoryCache
import UnifiedApi.Application.ApplyToCache
import UnifiedApi.Application.SyncedHosts
import UnifiedApi.Application.TruthfulAges
import UnifiedApi.Adapters.Http.Error
import UnifiedApi.Adapters.Http.Hosts
import UnifiedApi.Domain.EntryOps
import UnifiedApi.Lib.Runs
import UnifiedApi.Lib.Slots
import UnifiedApi.Lib.Lists
import UnifiedApi.Application.Enrich
import UnifiedApi.Cache.Persistence
import UnifiedApi.Application.Instance
import UnifiedApi.Application.EnricherRuns
import UnifiedApi.Adapters.Http.Scope
import UnifiedApi.Application.ScopeAdvertising
import UnifiedApi.Lib.FormUrl
import UnifiedApi.Application.SyncCoordinator
import UnifiedApi.Application.CoalescedSync
import UnifiedApi.Application.Refresh
import UnifiedApi.Application.RefreshLocks
import UnifiedApi.Domain.HostFilter
import UnifiedApi.Adapters.Http.Dataset
import UnifiedApi.Adapters.Http.ConditionalReads
import UnifiedApi.Adapters.Http.ViewSelection
import UnifiedApi.Application.RefreshPermits
import UnifiedApi.Application.ReplaceKeeping
import UnifiedApi.Application.ScopedCreation
import UnifiedApi.Application.SnapshotConsistency
import UnifiedApi.Cache.RoundTrip
import UnifiedApi.Cache.SnapshotTask
import UnifiedApi.Connectors.Federation
import UnifiedApi.Connectors.RefreshChains
import UnifiedApi.Connectors.FederationPull
import UnifiedApi.Application.RefreshConvergence
import UnifiedApi.Application.RefreshWindow
import UnifiedApi.Domain.SyncHealth
import UnifiedApi.Application.RefreshTimeouts
import UnifiedApi.Application.SourceRemoval
import UnifiedApi.Adapters.Http.Status
import UnifiedApi.Domain.ApiKey
import UnifiedApi.Domain.Ldap
import UnifiedApi.Adapters.Http.Login
import UnifiedApi.Application.Config
import UnifiedApi.Adapters.Http.Config
import UnifiedApi.Application.Output
import UnifiedApi.Domain.AnsibleInventory
import UnifiedApi.Application.AnsibleRoundTrip
import UnifiedApi.Application.EnrichOrder
import UnifiedApi.Domain.JsonPaths
import UnifiedApi.Domain.KeptPaths
import UnifiedApi.Domain.DroppedPaths
import UnifiedApi.Domain.ImportedHosts
import UnifiedApi.Application.GroupPruning
import UnifiedApi.Application.RefreshOutcome
import UnifiedApi.Application.ScopedMembership
import UnifiedApi.Domain.Topology
import UnifiedApi.Application.Credentials
import UnifiedApi.Application.Topology
import UnifiedApi.Application.PeerDescriptions
import UnifiedApi.Application.MapRedaction
import UnifiedApi.Application.EndpointCall
import UnifiedApi.Application.HostSearch
import UnifiedApi.Application.SearchReach
import UnifiedApi.Application.SearchIsolation
import UnifiedApi.Domain.HostGlob
import UnifiedApi.Adapters.Http.TrimmedGroups
import UnifiedApi.Adapters.Http.HostPages
import UnifiedApi.Domain.Yaml
import UnifiedApi.Domain.YamlAliases
import UnifiedApi.Domain.YamlDocument
import UnifiedApi.Domain.YamlNesting
import UnifiedApi.Domain.YamlReadings
import UnifiedApi.Domain.StaticInventory
import UnifiedApi.Domain.InventoryWalk
import UnifiedApi.Domain.InventoryDataset
import UnifiedApi.Domain.InventoryVars
import UnifiedApi.Lib.Results
import UnifiedApi.Lib.ShellWords
import UnifiedApi.Connectors.Ssh
import UnifiedApi.Connectors.SshFacts
import UnifiedApi.Domain.YamlIntegers
import UnifiedApi.Adapters.Scheduler
import UnifiedApi.Application.CredentialDelivery
import UnifiedApi.Lib.Csv
import UnifiedApi.Application.CsvOutput
import UnifiedApi.Domain.HostsFromSource
import UnifiedApi.Connectors.SshFanOut
import UnifiedApi.Lib.Memo
import UnifiedApi.Adapters.Http.ViewGauges
import UnifiedApi.Application.AdmittedNumbers
import UnifiedApi.Connectors.KnownHosts
import UnifiedApi.Application.Projects
import UnifiedApi.Adapters.Supervisor
import UnifiedApi.Lib.Expiring
import UnifiedApi.Application.FederationStore
import UnifiedApi.Application.FederationPush
import UnifiedApi.Config.Load
import UnifiedApi.Application.EnrichPass
import UnifiedApi.Adapters.ProcessScripts
import UnifiedApi.Adapters.ProcessEnv
import UnifiedApi.Connectors.ConditionalPull
import UnifiedApi.Adapters.Http.Endpoints
import UnifiedApi.Adapters.Http.WriteAccess
