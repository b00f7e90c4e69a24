import EcoMint.BondIssuer
import EcoMint.BondSupply
import EcoMint.RedemptionSolvency
import EcoMint.OracleConsumer
import EcoMint.CouponEngine
import EcoMint.CouponBatch
import EcoMint.CreditRetirement
import EcoMint.DexRouter
import EcoMint.Protocol
import EcoMint.DexEscrow
import EcoMint.ListedBacking
import EcoMint.CouponLedger
import EcoMint.CreditSpending
import EcoMint.CouponPeriods
import EcoMint.ReportProvenance
import EcoMint.PeriodIssuance
import EcoMint.ProjectRegistry
import EcoMint.PurchaseAuthorisation
import EcoMint.RegistryGuards
import EcoMint.Governance
import EcoMint.GovernanceBallots
import EcoMint.GovernanceSafety
import EcoMint.GovernedRegistry
import EcoMint.OracleCalls
import EcoMint.OracleReports
import EcoMint.OracleChallenges
import EcoMint.OracleQuorum
import EcoMint.OracleStake
import EcoMint.CouponDisputes
import EcoMint.Tasks
import EcoMint.NonceUse
import EcoMint.NonceAllocation
import EcoMint.Idempotency
import EcoMint.ExportChecksum
import EcoMint.KycStore
import EcoMint.HolderIndex
import EcoMint.KycService
import EcoMint.RateLimit
import EcoMint.ReportSubmission
import EcoMint.ProjectExport
import EcoMint.DexLedger
import EcoMint.DexOrders
import EcoMint.OracleFinality
import EcoMint.OracleCollateral
import EcoMint.RetiredTypes
import EcoMint.AccruedRetirable
import EcoMint.OracleIncidents
import EcoMint.Delimited
import EcoMint.DecimalText
import EcoMint.Binary64
import EcoMint.AdminIntents
import EcoMint.AuthChallenges
import EcoMint.ReadCache
import EcoMint.PortfolioFreshness
import EcoMint.BondLifecycle
import EcoMint.RetirementLedger
import EcoMint.VerifiedRecords
import EcoMint.ProjectLifecycle
import EcoMint.CouponExact
import EcoMint.CouponItems
import EcoMint.ProRata
import EcoMint.CouponAccounting
import EcoMint.CouponSplit
import EcoMint.Radix
import EcoMint.CidRoundTrip
import EcoMint.Paging
import EcoMint.OrderSweep
import EcoMint.ProjectPages
import EcoMint.RedemptionCoverage
import EcoMint.SlashArithmetic
import EcoMint.PurchaseSettlement
import EcoMint.VerificationCounts
import EcoMint.BiodiversityTotals
import EcoMint.Evidence
import EcoMint.OracleValidator
import EcoMint.JsonOrder
import EcoMint.Manifest
import EcoMint.DexService
import EcoMint.GreedyFill
import EcoMint.Liquidity
import EcoMint.PriceReports
import EcoMint.CheckLoop
import EcoMint.Reconciliation
import EcoMint.QuoteIndex
import EcoMint.KycTransitions
import EcoMint.TextPattern
import EcoMint.Staleness
import EcoMint.InsertionMap
import EcoMint.Anomaly
import EcoMint.AnomalyVerdicts
import EcoMint.ExactNumber
import EcoMint.SatelliteMeasurement
import EcoMint.IotMeasurement
import EcoMint.StalenessMonitor
import EcoMint.BondExport
import EcoMint.ReadPoint
import EcoMint.BondDetail
import EcoMint.Utf8
import EcoMint.JsonParse
import EcoMint.JsonCut
import EcoMint.AuditTail
import EcoMint.SecondaryIndex
import EcoMint.OrderIndex
import EcoMint.OracleProviders
import EcoMint.Signatures
import EcoMint.DexScheduler
import EcoMint.RetiredIssuance
import EcoMint.OpenExits
import EcoMint.References
import EcoMint.AccountSequence
import EcoMint.AuthSessions
import EcoMint.PendingTransactions
import EcoMint.Base64
import EcoMint.AdminConsole
import EcoMint.BondIsolation
import EcoMint.DetailReload
import EcoMint.ReportReview
import EcoMint.ProjectDocuments
import EcoMint.TextRuns
import EcoMint.RequestLog
import EcoMint.CouponSchedule
import EcoMint.BondEvents
