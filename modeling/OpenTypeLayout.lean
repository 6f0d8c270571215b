import OpenTypeLayout.Positioning.Apply
import OpenTypeLayout.Proofs.Ahead
import OpenTypeLayout.Proofs.Applications
import OpenTypeLayout.Proofs.Bisection
import OpenTypeLayout.Proofs.BuiltClasses
import OpenTypeLayout.Proofs.Caching
import OpenTypeLayout.Proofs.ClassTables
import OpenTypeLayout.Proofs.Consumption
import OpenTypeLayout.Proofs.ContextLength
import OpenTypeLayout.Proofs.CoverageTables
import OpenTypeLayout.Proofs.DenseCoverage
import OpenTypeLayout.Proofs.DeviceTables
import OpenTypeLayout.Proofs.DirectArrays
import OpenTypeLayout.Proofs.DirectIndexing
import OpenTypeLayout.Proofs.ExtensionLookups
import OpenTypeLayout.Proofs.Filtering
import OpenTypeLayout.Proofs.GlyphText
import OpenTypeLayout.Proofs.Invocation
import OpenTypeLayout.Proofs.LateLoading
import OpenTypeLayout.Proofs.LoadComparison
import OpenTypeLayout.Proofs.LoadedBytes
import OpenTypeLayout.Proofs.Loading
import OpenTypeLayout.Proofs.Locate
import OpenTypeLayout.Proofs.Lookalikes
import OpenTypeLayout.Proofs.MarkAttachment
import OpenTypeLayout.Proofs.NestingLimit
import OpenTypeLayout.Proofs.Places
import OpenTypeLayout.Proofs.PlainAnswers
import OpenTypeLayout.Proofs.Positioning.Amounts
import OpenTypeLayout.Proofs.Positioning.Attachment
import OpenTypeLayout.Proofs.Positioning.Axes
import OpenTypeLayout.Proofs.Positioning.Chain
import OpenTypeLayout.Proofs.Positioning.Consumption
import OpenTypeLayout.Proofs.Positioning.Context
import OpenTypeLayout.Proofs.Positioning.Contract
import OpenTypeLayout.Proofs.Positioning.Coupling
import OpenTypeLayout.Proofs.Positioning.CursiveForm
import OpenTypeLayout.Proofs.Positioning.Devices
import OpenTypeLayout.Proofs.Positioning.Guarded
import OpenTypeLayout.Proofs.Positioning.JoinedGlyphs
import OpenTypeLayout.Proofs.Positioning.Keeping
import OpenTypeLayout.Proofs.Positioning.LinkHistory
import OpenTypeLayout.Proofs.Positioning.Loaded
import OpenTypeLayout.Proofs.Positioning.Lookups
import OpenTypeLayout.Proofs.Positioning.MarkSubtables
import OpenTypeLayout.Proofs.Positioning.MarkToLigature
import OpenTypeLayout.Proofs.Positioning.PairClasses
import OpenTypeLayout.Proofs.Positioning.PairForm
import OpenTypeLayout.Proofs.Positioning.Parts
import OpenTypeLayout.Proofs.Positioning.RecordSizes
import OpenTypeLayout.Proofs.Positioning.Rounds
import OpenTypeLayout.Proofs.Positioning.Spans
import OpenTypeLayout.Proofs.Positioning.Visits
import OpenTypeLayout.Proofs.Programs
import OpenTypeLayout.Proofs.Progress
import OpenTypeLayout.Proofs.RecordOrder
import OpenTypeLayout.Proofs.RecordedClasses
import OpenTypeLayout.Proofs.Rewriting
import OpenTypeLayout.Proofs.Rounds
import OpenTypeLayout.Proofs.RuleFormats
import OpenTypeLayout.Proofs.Rules
import OpenTypeLayout.Proofs.Selection
import OpenTypeLayout.Proofs.Settled
import OpenTypeLayout.Proofs.SharedLoading
import OpenTypeLayout.Proofs.StoredRecords
import OpenTypeLayout.Proofs.Substitution.Components
import OpenTypeLayout.Proofs.Substitution.Consumption
import OpenTypeLayout.Proofs.Substitution.Context
import OpenTypeLayout.Proofs.Substitution.Contract
import OpenTypeLayout.Proofs.Substitution.Counts
import OpenTypeLayout.Proofs.Substitution.Discipline
import OpenTypeLayout.Proofs.Substitution.Emission
import OpenTypeLayout.Proofs.Substitution.Failures
import OpenTypeLayout.Proofs.Substitution.FormedLigatures
import OpenTypeLayout.Proofs.Substitution.FreshNumbers
import OpenTypeLayout.Proofs.Substitution.Ignored
import OpenTypeLayout.Proofs.Substitution.LigatureChoice
import OpenTypeLayout.Proofs.Substitution.LigatureOutput
import OpenTypeLayout.Proofs.Substitution.LigaturePass
import OpenTypeLayout.Proofs.Substitution.Ligatures
import OpenTypeLayout.Proofs.Substitution.Lookups
import OpenTypeLayout.Proofs.Substitution.Numbering
import OpenTypeLayout.Proofs.Substitution.Parts
import OpenTypeLayout.Proofs.Substitution.Provenance
import OpenTypeLayout.Proofs.Substitution.ReversePass
import OpenTypeLayout.Proofs.Substitution.Uncovered
import OpenTypeLayout.Proofs.TagText
import OpenTypeLayout.Proofs.UnusedClasses
import OpenTypeLayout.Proofs.Words
import OpenTypeLayout.Substitution.Apply
import OpenTypeLayout.Unicode
