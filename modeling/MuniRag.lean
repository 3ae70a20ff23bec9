import MuniRag.Api.CanonicalJson
import MuniRag.Api.DerivedIds
import MuniRag.Api.EvidenceGaps
import MuniRag.Api.EvidenceIdentity
import MuniRag.Api.ProcedureQueries
import MuniRag.Cases.Bindings
import MuniRag.Cases.Blockers
import MuniRag.Cases.Convergence
import MuniRag.Cases.Database
import MuniRag.Cases.Effects
import MuniRag.Cases.ErrorTransparency
import MuniRag.Cases.ExactlyOnce
import MuniRag.Cases.History
import MuniRag.Cases.InMemory
import MuniRag.Cases.Locks
import MuniRag.Cases.Mutation
import MuniRag.Cases.Postgres
import MuniRag.Cases.Record
import MuniRag.Cases.Relations
import MuniRag.Cases.SelfDeadlock
import MuniRag.Catalog.Listing
import MuniRag.Catalog.Pagination
import MuniRag.Corpus.Backfill
import MuniRag.Corpus.Manifest
import MuniRag.Corpus.SecondRun
import MuniRag.Corpus.Stores
import MuniRag.Documents.HtmlExtractor
import MuniRag.Documents.LineExtractors
import MuniRag.Documents.Lines
import MuniRag.Documents.Normalize
import MuniRag.Documents.Patterns
import MuniRag.Documents.Sections
import MuniRag.Embeddings.ChunkIdentity
import MuniRag.Embeddings.ChunkPlanner
import MuniRag.Embeddings.Indexer
import MuniRag.Embeddings.Lossless
import MuniRag.Embeddings.Slicing
import MuniRag.Http.StaticFiles
import MuniRag.HumanSession.ClockSkew
import MuniRag.HumanSession.Constraints
import MuniRag.HumanSession.Database
import MuniRag.HumanSession.Effects
import MuniRag.HumanSession.Handler
import MuniRag.HumanSession.Lineage
import MuniRag.HumanSession.OneUse
import MuniRag.HumanSession.SessionRuns
import MuniRag.Ingestion.Acceptance
import MuniRag.Ingestion.AcceptanceFencing
import MuniRag.Ingestion.Backlog
import MuniRag.Ingestion.Completing
import MuniRag.Ingestion.CompletionLaw
import MuniRag.Ingestion.Database
import MuniRag.Ingestion.Deduplication
import MuniRag.Ingestion.EnqueueLaw
import MuniRag.Ingestion.Enqueueing
import MuniRag.Ingestion.HeadOfLine
import MuniRag.Ingestion.Identity
import MuniRag.Ingestion.Inspecting
import MuniRag.Ingestion.JobIdentity
import MuniRag.Ingestion.Jobs
import MuniRag.Ingestion.LeaseFencing
import MuniRag.Ingestion.ObjectReading
import MuniRag.Ingestion.PipelineParsing
import MuniRag.Ingestion.PublicSections
import MuniRag.Ingestion.PublicSectionsLaw
import MuniRag.Ingestion.Publication
import MuniRag.Ingestion.Recording
import MuniRag.Ingestion.System
import MuniRag.Ingestion.Vectors
import MuniRag.Ingestion.Worker
import MuniRag.Ingestion.WorkerLaw
import MuniRag.Lib.Actions
import MuniRag.Lib.Acyclic
import MuniRag.Lib.Chains
import MuniRag.Lib.FileSystem
import MuniRag.Lib.FirstMatch
import MuniRag.Lib.FixedPattern
import MuniRag.Lib.FixedWindow
import MuniRag.Lib.Grouping
import MuniRag.Lib.JsMap
import MuniRag.Lib.JsValue
import MuniRag.Lib.Json
import MuniRag.Lib.JsonOrder
import MuniRag.Lib.JsonParse
import MuniRag.Lib.Keyset
import MuniRag.Lib.Like
import MuniRag.Lib.LimitedSearch
import MuniRag.Lib.Locks
import MuniRag.Lib.PosixPath
import MuniRag.Lib.RankFusion
import MuniRag.Lib.Replacing
import MuniRag.Lib.ReservationLaw
import MuniRag.Lib.Reservations
import MuniRag.Lib.Results
import MuniRag.Lib.RoundRobin
import MuniRag.Lib.Runs
import MuniRag.Lib.Segments
import MuniRag.Lib.Spans
import MuniRag.Lib.Table
import MuniRag.Lib.Unwinding
import MuniRag.Lib.Utf16
import MuniRag.Library.Examining
import MuniRag.Library.ImportLaw
import MuniRag.Library.ImportSteps
import MuniRag.Library.Importing
import MuniRag.Library.InspectLaw
import MuniRag.Library.InspectSteps
import MuniRag.Library.Inspecting
import MuniRag.Library.Inventory
import MuniRag.Library.Operations
import MuniRag.Library.Settling
import MuniRag.Library.StepLaws
import MuniRag.Oidc.Adapter
import MuniRag.Oidc.Completeness
import MuniRag.Oidc.Exchange
import MuniRag.Oidc.Progress
import MuniRag.Oidc.Soundness
import MuniRag.Procedure.Authorities
import MuniRag.Procedure.Composer
import MuniRag.Procedure.StepSupport
import MuniRag.PublicGateway.EvidenceSelection
import MuniRag.PublicGateway.PublicEvidence
import MuniRag.PublicGateway.RateGate
import MuniRag.PublicGateway.RateStores
import MuniRag.Retrieval.Dedupe
import MuniRag.Retrieval.DedupeNormalForm
import MuniRag.SearchEvidence.Authority
import MuniRag.SearchEvidence.Bundle
import MuniRag.SearchEvidence.Candidates
import MuniRag.SearchEvidence.ClaimOwnership
import MuniRag.SearchEvidence.Closure
import MuniRag.SearchEvidence.Conflicts
import MuniRag.SearchEvidence.FilteredSearch
import MuniRag.SearchEvidence.Fusion
import MuniRag.SearchEvidence.Idempotency
import MuniRag.SearchEvidence.PhraseSearch
import MuniRag.SearchEvidence.Promotion
import MuniRag.SearchEvidence.Ranking
import MuniRag.Security.TenantIsolation
import MuniRag.Security.TenantTransactions
import MuniRag.Sources.AddressSpelling
import MuniRag.Sources.GovernedFetch
import MuniRag.Sources.HtmlAcquisition
import MuniRag.Sources.NetworkAddress
import MuniRag.Text
import MuniRag.Workflow.Database
import MuniRag.Workflow.Governance
import MuniRag.Workflow.InMemory
import MuniRag.Workflow.OneApproved
import MuniRag.Workflow.Repository
import MuniRag.Workflow.ReviewRounds
import MuniRag.Workflow.StateMachine
import MuniRag.Workflow.Succession
import MuniRag.Workflow.SuccessionLaw
import MuniRag.WorkflowTemplates.Conversion
import MuniRag.WorkflowTemplates.Templates
import MuniRag.WorkflowTemplates.Validation
