import KosSim.AdminTeams
import KosSim.AnsweredFlags
import KosSim.Captures
import KosSim.CheckedFlags
import KosSim.CheckerAttempts
import KosSim.CheckerExecutor
import KosSim.CheckerJobs
import KosSim.CheckerRuns
import KosSim.CheckerTicks
import KosSim.CommittedPaths
import KosSim.EnoChecker
import KosSim.EventIds
import KosSim.EventMirror
import KosSim.FeedReads
import KosSim.FeedRecords
import KosSim.FirstbloodRaces
import KosSim.FlagBatches
import KosSim.FlagCodec
import KosSim.FlagCrypto
import KosSim.FlagPayments
import KosSim.FlagReports
import KosSim.FlagRounds
import KosSim.FlagSubmit
import KosSim.ForgeDocs
import KosSim.ForgeTokens
import KosSim.FrozenBoards
import KosSim.GameTimer
import KosSim.HistoryPages
import KosSim.InclusionProofs
import KosSim.InitDb
import KosSim.JobDeadlines
import KosSim.Ledger
import KosSim.LedgerForge
import KosSim.Library.AttemptBook
import KosSim.Library.Base64
import KosSim.Library.Base64Url
import KosSim.Library.BlockChaining
import KosSim.Library.Bracketed
import KosSim.Library.Counting
import KosSim.Library.Cuts
import KosSim.Library.Decimal
import KosSim.Library.Dict
import KosSim.Library.FirstClaim
import KosSim.Library.FirstMatch
import KosSim.Library.Folds
import KosSim.Library.Handlers
import KosSim.Library.Hex
import KosSim.Library.HttpMessage
import KosSim.Library.Json
import KosSim.Library.JsonStrings
import KosSim.Library.LatestVersion
import KosSim.Library.LengthExtension
import KosSim.Library.LogPositions
import KosSim.Library.LossyUtf8
import KosSim.Library.MerkleProof
import KosSim.Library.MerkleTree
import KosSim.Library.Ordering
import KosSim.Library.PaddingOracle
import KosSim.Library.Rounding
import KosSim.Library.RunningMean
import KosSim.Library.Runs
import KosSim.Library.Separated
import KosSim.Library.Sha256
import KosSim.Library.Sha256Blocks
import KosSim.Library.SharedRow
import KosSim.Library.SourceText
import KosSim.Library.Spans
import KosSim.Library.TokenBucket
import KosSim.Library.UniqueColumn
import KosSim.Library.Utf16
import KosSim.Library.Utf8Cuts
import KosSim.MerkleRoot
import KosSim.NanoCrash
import KosSim.NanoFleet
import KosSim.NanoStore
import KosSim.Networking
import KosSim.PartialCredit
import KosSim.PathIndex
import KosSim.PlantedFlags
import KosSim.Platform
import KosSim.PlatformFrames
import KosSim.PolicyAttacks
import KosSim.PolicyCache
import KosSim.PolicyChecks
import KosSim.PolicyClients
import KosSim.PolicyDsl
import KosSim.PolicyFlags
import KosSim.PolicyForge
import KosSim.PolicyPatches
import KosSim.PolicyRoutes
import KosSim.PolicyRuns
import KosSim.PolicyTokens
import KosSim.RateBuckets
import KosSim.Rescoring
import KosSim.Restarts
import KosSim.Rotator
import KosSim.RoundCap
import KosSim.RoundWindows
import KosSim.Schema
import KosSim.ScoreSummaries
import KosSim.Scoreboard
import KosSim.ScoredPlays
import KosSim.Scoring
import KosSim.ScoringBlocked
import KosSim.ScoringInputs
import KosSim.ScoringLedger
import KosSim.SeasonScores
import KosSim.Simulator
import KosSim.SimulatorRuns
import KosSim.SingleCalls
import KosSim.SnapshotStats
import KosSim.SpecterFlags
import KosSim.SpecterLog
import KosSim.StatusLights
import KosSim.StolenFlags
import KosSim.StolenSeason
import KosSim.StoredScores
import KosSim.SubmitSessions
import KosSim.TcpFlagServer
import KosSim.TeamApi
import KosSim.TeamExport
import KosSim.TeamIsolation
import KosSim.TeamRosters
import KosSim.TickClosing
import KosSim.TickDeadlines
import KosSim.TickRounds
import KosSim.TimerClients
import KosSim.TimerRuns
import KosSim.VaultAccounts
import KosSim.VaultCodec
import KosSim.VaultCrypt
import KosSim.VaultDb
import KosSim.VaultDigest
import KosSim.VaultFeed
import KosSim.VaultHttp
import KosSim.VaultJson
import KosSim.VaultOracle
import KosSim.VaultProxy
import KosSim.VaultSessions
import KosSim.VaultState
import KosSim.VulnboxRuns
import KosSim.Vulnboxes
