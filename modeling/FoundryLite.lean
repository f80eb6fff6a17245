import FoundryLite.Pipeline.MergeSymmetry
import FoundryLite.Ontology.MigrationSoundness
import FoundryLite.Ontology.BranchMerge
import FoundryLite.Actions.RevertIdentity
import FoundryLite.Actions.RevertOnce
import FoundryLite.Dataset.CurrentView
import FoundryLite.Indexing.Provenance
import FoundryLite.Runtime.LeaseHolder
import FoundryLite.Runtime.OutboxDelivery
import FoundryLite.Runtime.EffectStranding
import FoundryLite.Pipeline.AttemptFencing
import FoundryLite.Actions.AsyncCommit
import FoundryLite.Dataset.EvolutionChain
import FoundryLite.ResourceCatalog.Tenants
import FoundryLite.Dataset.ReplayedOnce
import FoundryLite.OAuth.SessionSafety
import FoundryLite.Transforms.GraphRuns
import FoundryLite.Ontology.ApprovedText
import FoundryLite.Ontology.MergedContent
import FoundryLite.ObjectStore.CursorBinding
import FoundryLite.Pipeline.FencedRuns
import FoundryLite.ObjectStore.ExactSearches
import FoundryLite.ObjectStore.MaskedInfluence
import FoundryLite.Actions.SagaConsistency
import FoundryLite.Media.ServedTruth
import FoundryLite.Media.RetainedVersions
import FoundryLite.Aip.ConfirmedOnce
import FoundryLite.Aip.ReleaseTruth
import FoundryLite.Aip.DeliveryLedger
import FoundryLite.Actions.PlanBuilder
import FoundryLite.Actions.EditBatch
import FoundryLite.Actions.ConditionGroups
import FoundryLite.Pipeline.PreviewJoins
import FoundryLite.Pipeline.PlanCompiler
import FoundryLite.Pipeline.ExecutionLaw
import FoundryLite.Transforms.SqlGuards
import FoundryLite.Schedules.SlotEnumeration
import FoundryLite.Schedules.DecisionLaw
import FoundryLite.Actions.SafeExpression
import FoundryLite.Security.CertificateLaw
import FoundryLite.Media.ContentChunks
import FoundryLite.Mcp.RateLimitLaw
import FoundryLite.Aip.LogicListings
import FoundryLite.Security.PseudonymLaw
import FoundryLite.Dataset.AggregationLaw
import FoundryLite.Mcp.JsonSchemaLaw
import FoundryLite.ObjectStore.Subscription
