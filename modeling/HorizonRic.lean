import HorizonRic.Python.Number
import HorizonRic.Python.Value
import HorizonRic.Python.Mapping
import HorizonRic.Python.Raises
import HorizonRic.Python.Equality
import HorizonRic.Python.Format
import HorizonRic.Python.Json
import HorizonRic.Python.JsonRoundTrip
import HorizonRic.Python.JsonCanonical
import HorizonRic.Python.JsonText
import HorizonRic.Python.DecimalText
import HorizonRic.Python.Bytes
import HorizonRic.Python.BigEndian
import HorizonRic.Python.TextFile
import HorizonRic.Python.AsyncGenerator
import HorizonRic.Library.Coordinates
import HorizonRic.Library.DecimalNotation
import HorizonRic.Library.HashChain
import HorizonRic.Library.Interpolation
import HorizonRic.Library.OrderStatistics
import HorizonRic.Library.EuclideanList
import HorizonRic.Library.CriticalSection
import HorizonRic.Library.KeyedTransactions
import HorizonRic.Library.Machine
import HorizonRic.Library.TwoRuns
import HorizonRic.Library.SignatureScheme
import HorizonRic.Shield.Certificate
import HorizonRic.Policy.LiConstraint
import HorizonRic.Shield.Invariants
import HorizonRic.Shield.Shield
import HorizonRic.Shield.Containment
import HorizonRic.Shield.Loop
import HorizonRic.Shield.Settling
import HorizonRic.Shield.Soundness
import HorizonRic.Shield.Corrections
import HorizonRic.Shield.PfdMask
import HorizonRic.Shield.InterceptGate
import HorizonRic.Shield.ProtectedSlice
import HorizonRic.Shield.InvariantClasses
import HorizonRic.Shield.Totality
import HorizonRic.Shield.Feasibility
import HorizonRic.Shield.SelfReports
import HorizonRic.Shield.Completeness
import HorizonRic.Shield.MinimalChange
import HorizonRic.Federated.VerifiableSecagg
import HorizonRic.Federated.HonestAggregation
import HorizonRic.Federated.TamperDetection
import HorizonRic.Federated.ShamirSecretSharing
import HorizonRic.Federated.RobustAggregation
import HorizonRic.Federated.Krum
import HorizonRic.Federated.FLTrust
import HorizonRic.Security.Jwt
import HorizonRic.Security.RotationWindow
import HorizonRic.Runtime.AtomicPromotion
import HorizonRic.Runtime.InFlight
import HorizonRic.Runtime.CircuitBreaker
import HorizonRic.Runtime.HalfOpen
import HorizonRic.Observability.X733Alarms
import HorizonRic.Observability.BreakerAlarms
import HorizonRic.Evidence.Fields
import HorizonRic.Evidence.Schema
import HorizonRic.Evidence.SchemaRoundTrip
import HorizonRic.Evidence.Store
import HorizonRic.Evidence.StoreChain
import HorizonRic.Evidence.Append
import HorizonRic.Evidence.ChainHead
import HorizonRic.Evidence.LinearChains
import HorizonRic.Evidence.AppendRoundTrip
import HorizonRic.Evidence.UnprotectedFields
import HorizonRic.Evidence.Interchangeable
import HorizonRic.Evidence.PostgresStore
import HorizonRic.Evidence.JsonbColumn
import HorizonRic.Evidence.JsonbTransport
import HorizonRic.Evidence.JsonbMarks
import HorizonRic.Evidence.JsonbRoundTrip
import HorizonRic.Io.Schemas
import HorizonRic.Io.KafkaConnector
import HorizonRic.Policy.Counterfactual
import HorizonRic.Policy.EmitGuards
import HorizonRic.Rapp.A1Adapter
import HorizonRic.Rapp.Planner
import HorizonRic.Rapp.Pipeline
import HorizonRic.Rapp.DecisionRecords
import HorizonRic.Rapp.AuditedEvents
import HorizonRic.Rapp.StateCheckpoint
import HorizonRic.Rapp.EventLoop
import HorizonRic.Rapp.MalformedMessages
import HorizonRic.Rapp.TolerantFile
import HorizonRic.Rapp.CheckpointedResume
import HorizonRic.Rapp.ShutdownAudit
import HorizonRic.Learning.ShieldEnv
import HorizonRic.Learning.ExecutedActions
import HorizonRic.Shield.Signing
import HorizonRic.Shield.TamperEvidence
import HorizonRic.Library.ClippedSum
import HorizonRic.Federated.DifferentialPrivacy
import HorizonRic.Federated.DpSensitivity
import HorizonRic.E2.KpmTimestamp
import HorizonRic.Library.SeparatedFields
import HorizonRic.Provenance.Signing
import HorizonRic.Provenance.SignedPayload
import HorizonRic.Federated.Certificates
import HorizonRic.Federated.CertificateFields
import HorizonRic.Evidence.Rfc3161
import HorizonRic.Evidence.AnchoredChains
import HorizonRic.Rapp.ShutdownDrain
import HorizonRic.Rapp.EmittedCount
import HorizonRic.Federated.SubjectErasure
import HorizonRic.Federated.ExactErasure
import HorizonRic.Evidence.RepeatedAppends
import HorizonRic.Learning.RecordedNumbers
import HorizonRic.Learning.TransitionLog
import HorizonRic.Library.ProRata
import HorizonRic.Shield.Idempotence
import HorizonRic.Shield.SliceReservation
import HorizonRic.Rapp.AuditedCorrections
import HorizonRic.Federated.TrimmedAggregation
import HorizonRic.Federated.SecureMean
import HorizonRic.Federated.NoiseMultiplier
import HorizonRic.Python.Rounding
import HorizonRic.Shield.RoundedChecks
import HorizonRic.Learning.FeasibleMask
import HorizonRic.Spectrum.DsaEnv
import HorizonRic.Spectrum.LocalTraining
import HorizonRic.E2.KpmRisk
import HorizonRic.Federated.Unlearning
import HorizonRic.Library.BoundedBuffer
import HorizonRic.Runtime.LoopState
import HorizonRic.Security.TenantScope
import HorizonRic.Runtime.ArtefactVault
import HorizonRic.Security.AuthAlarm
import HorizonRic.Library.OneShotLoading
import HorizonRic.Policy.GuardRegistry
import HorizonRic.Io.ConnectorRegistry
import HorizonRic.Python.JsonRaises
import HorizonRic.Library.DurableFiles
import HorizonRic.Library.FallibleProgram
import HorizonRic.Rapp.CorruptCheckpoints
import HorizonRic.Python.JsonObjects
import HorizonRic.Runtime.StateRecovery
import HorizonRic.Rapp.DaemonAccounts
import HorizonRic.E2.KpmIngest
import HorizonRic.Io.FileConnector
import HorizonRic.Io.FileRoundTrip
import HorizonRic.Library.SharedChannels
import HorizonRic.Spectrum.DsaWorld
import HorizonRic.Library.Averages
import HorizonRic.Spectrum.BoundedValues
import HorizonRic.Evidence.AiPhyLineage
import HorizonRic.Data.DatasetLineage
import HorizonRic.Federated.StateVectors
import HorizonRic.Library.Buckets
import HorizonRic.Runtime.ShadowExecutor
import HorizonRic.Spectrum.PoisoningClients
import HorizonRic.Federated.BreakdownPoints
import HorizonRic.Spectrum.DecisionLoop
import HorizonRic.Runtime.DegradationAlarms
import HorizonRic.Runtime.BufferedEvidence
import HorizonRic.Rapp.OAuthToken
import HorizonRic.Security.RequestAdmission
import HorizonRic.Library.RemoteObject
import HorizonRic.Python.JsonSchema
import HorizonRic.Rapp.A1PolicyTypes
import HorizonRic.Rapp.A1Requests
import HorizonRic.Rapp.OscEmulator
import HorizonRic.Rapp.OscPolicies
import HorizonRic.Rapp.A1OverTheWire
import HorizonRic.Rapp.OscConformance
