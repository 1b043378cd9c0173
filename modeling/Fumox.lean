import Fumox.StructuredExport
import Fumox.StructuredEntries
import Fumox.ClashParser
import Fumox.SingboxParser
import Fumox.LineRoundTrip
import Fumox.UriLines
import Fumox.LineParser
import Fumox.FormatParams
import Fumox.VmessLine
import Fumox.YamlValue
import Fumox.PayloadGuards
import Fumox.Base64Text
import Fumox.UriRoundTrip
import Fumox.TransitionRuns
import Fumox.OptionalFields
import Fumox.LaneCoverage
import Fumox.ProxyFingerprint
import Fumox.RemovedTerminal
import Fumox.ProxyIdentity
import Fumox.PercentText
import Fumox.RenderCache
import Fumox.RenderCacheSteps
import Fumox.StaleRenderings
import Fumox.ReconcilePass
import Fumox.RowRepresentation
import Fumox.LineFraming
import Fumox.SubscriptionParser
import Fumox.WellFormedEntries
import Fumox.ProbeCycle
import Fumox.CycleCharges
import Fumox.TunnelStarvation
import Fumox.IngestInvalidation
import Fumox.SingboxWriter
import Fumox.ClashWriter
import Fumox.ClashReading
import Fumox.WriterAgreement
import Fumox.SingboxReading
import Fumox.SingboxRereading
import Fumox.SingboxRoundTrip
import Fumox.WriterDifferences
import Fumox.InsecureToggles
import Fumox.AddressText
import Fumox.ClientKey
import Fumox.PipelineConfig
import Fumox.RankedPrefix
import Fumox.PipelineSteps
import Fumox.ConfigModels
import Fumox.ProfileRender
import Fumox.ProfileLimit
import Fumox.SessionCookies
import Fumox.SessionRevocation
import Fumox.FreshnessStamp
import Fumox.ConfigImport
import Fumox.ImportSteps
import Fumox.ConfigLoader
import Fumox.SettingsForm
import Fumox.SettingsSave
import Fumox.UneditedSave
import Fumox.FinalizeOrder
import Fumox.VettedAddresses
import Fumox.ReportedTransitions
import Fumox.LadderWalk
import Fumox.ChunkedQuota
import Fumox.QueueQuota
import Fumox.SsRoundTrip
import Fumox.WindowSample
import Fumox.VmessRoundTrip
import Fumox.IngestDrops
import Fumox.TunnelPriority
import Fumox.AddressPolicy
import Fumox.DedupeNames
import Fumox.EncodedPayload
import Fumox.PinnedConfig
import Fumox.XrayHarvest
import Fumox.BatchVetting
import Fumox.MergedPipeline
import Fumox.TlsVerdicts
import Fumox.RenamedLines
import Fumox.PipelineEditor
import Fumox.EmittedPipelines
import Fumox.CanonicalPipelines
import Fumox.SourceForm
import Fumox.HeaderSecrets
import Fumox.SourceSave
import Fumox.UneditedSources
import Fumox.RejectionLogs
import Fumox.CycleModel
import Fumox.RateLimiter
import Fumox.TimeArithmetic
import Fumox.TuningAdvice
import Fumox.FailureBackoff
import Fumox.SweepSpacing
import Fumox.HostGate
import Fumox.UrlRecord
import Fumox.UrlRedaction
import Fumox.SourceFetch
import Fumox.ServedList
import Fumox.RowHistory
import Fumox.GeoBackfill
import Fumox.FetchGuard
import Fumox.ProxyBrowser
import Fumox.JournalRetention
