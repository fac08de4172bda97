import UncrackableL5.Library.BigEndian
import UncrackableL5.Library.Base128
import UncrackableL5.Library.Transition
import UncrackableL5.Library.Pairing
import UncrackableL5.Library.Gregorian
import UncrackableL5.Library.Scan
import UncrackableL5.Library.Effects
import UncrackableL5.Js.Exception
import UncrackableL5.Js.Text
import UncrackableL5.Js.Number
import UncrackableL5.Js.Rounding
import UncrackableL5.Js.Date
import UncrackableL5.Js.Sort
import UncrackableL5.Verifier.Base64
import UncrackableL5.Verifier.Der
import UncrackableL5.Verifier.DerWriter
import UncrackableL5.Verifier.X509
import UncrackableL5.Verifier.Anchors
import UncrackableL5.Verifier.KeyDescription
import UncrackableL5.Verifier.KeyDescriptionWriter
import UncrackableL5.Verifier.Path
import UncrackableL5.Verifier.Verifier
import UncrackableL5.Server.Revocations
import UncrackableL5.Server.State
import UncrackableL5.Server.Refreshes
import UncrackableL5.Server.Challenges
import UncrackableL5.Server.Worker
import UncrackableL5.Server.Alarm
import UncrackableL5.Server.Http
import UncrackableL5.Server.Config
import UncrackableL5.Server.Deployment
import UncrackableL5.Kotlin.Runtime
import UncrackableL5.Kotlin.Base64
import UncrackableL5.Kotlin.Failure
import UncrackableL5.Android.FlagRecord
import UncrackableL5.Android.FlagStore
import UncrackableL5.Android.Backend
import UncrackableL5.Android.Protocol
import UncrackableL5.Android.Attestation
import UncrackableL5.Android.MainActivity
import UncrackableL5.Properties.Base64
import UncrackableL5.Properties.Base64Grammar
import UncrackableL5.Properties.DerRoundTrip
import UncrackableL5.Properties.DerCanonical
import UncrackableL5.Properties.IntegerContents
import UncrackableL5.Properties.ObjectIdentifiers
import UncrackableL5.Properties.SignedFields
import UncrackableL5.Properties.EcdsaSignatures
import UncrackableL5.Properties.NameEquality
import UncrackableL5.Properties.AnchorBundles
import UncrackableL5.Properties.CalendarDates
import UncrackableL5.Properties.CertificateTimes
import UncrackableL5.Properties.KeyDescriptionRoundTrip
import UncrackableL5.Properties.AuthorizationFields
import UncrackableL5.Properties.PathValidation
import UncrackableL5.Properties.ChainVerification
import UncrackableL5.Properties.ChainShape
import UncrackableL5.Properties.Acceptance
import UncrackableL5.Properties.AcceptanceWindow
import UncrackableL5.Properties.AppAttempts
import UncrackableL5.Properties.AppRuns
import UncrackableL5.Properties.RefreshSchedule
import UncrackableL5.Properties.SnapshotSupply
import UncrackableL5.Properties.TrustAnchor
import UncrackableL5.Properties.AnchorOrder
import UncrackableL5.Properties.PatchWindow
import UncrackableL5.Properties.Rejection
import UncrackableL5.Properties.RevokedSerials
import UncrackableL5.Properties.RefreshSteps
import UncrackableL5.Properties.SnapshotFreshness
import UncrackableL5.Properties.RevocationMatching
import UncrackableL5.Properties.SnapshotOrder
import UncrackableL5.Properties.SnapshotLifetime
import UncrackableL5.Properties.RequestBudget
import UncrackableL5.Properties.ChallengeUse
import UncrackableL5.Properties.ChallengeWindow
import UncrackableL5.Properties.AttestSteps
import UncrackableL5.Properties.SingleUse
import UncrackableL5.Properties.RefusedAttempts
import UncrackableL5.Properties.FlagCalls
import UncrackableL5.Properties.FlagAuthenticity
import UncrackableL5.Properties.FlagReadBack
import UncrackableL5.Properties.FailedStore
import UncrackableL5.Properties.RuntimeLoading
import UncrackableL5.Properties.Configuration
import UncrackableL5.Properties.DeploymentSteps
import UncrackableL5.Properties.RequestFlow
import UncrackableL5.Properties.RedeemedChallenges
import UncrackableL5.Properties.GenuineClient
import UncrackableL5.Properties.FlagProvenance
import UncrackableL5.Properties.FlagAgreement
import UncrackableL5.Properties.ServedRequests
import UncrackableL5.Properties.ChallengeDecoding
import UncrackableL5.Properties.AttestationKeys
