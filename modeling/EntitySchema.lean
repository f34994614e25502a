import EntitySchema.Compile.Compile
import EntitySchema.Field.Attributes
import EntitySchema.Live.Session
import EntitySchema.Validation.Pool
import EntitySchema.Live.Content
import EntitySchema.Live.Accept
import EntitySchema.Live.Assign
import EntitySchema.Live.Checks
import EntitySchema.Live.Relations
import EntitySchema.Live.Copies
import EntitySchema.Live.Show
import EntitySchema.Proofs.InsertionOrder
import EntitySchema.Proofs.ReferentialSoundness
import EntitySchema.Proofs.Text.Literal
import EntitySchema.Proofs.Text.Fences
import EntitySchema.Proofs.Text.ClosingTags
import EntitySchema.Proofs.Reordered.Schema
import EntitySchema.Proofs.Reordered.Document
import EntitySchema.Proofs.Text.Documentation
import EntitySchema.Proofs.Thawed.Record
import EntitySchema.Proofs.Thawed.Reading
import EntitySchema.Proofs.Thawed.Document
import EntitySchema.Proofs.Relation.ReverseIndex
import EntitySchema.Proofs.Relation.EdgeKeys
import EntitySchema.Proofs.Settings
import EntitySchema.Proofs.StrictRuns
import EntitySchema.Proofs.MergedSettings
import EntitySchema.Proofs.RefusedNodes
import EntitySchema.Proofs.Frozen.Record
import EntitySchema.Proofs.Frozen.Growth
import EntitySchema.Proofs.Frozen.Planting
import EntitySchema.Proofs.Frozen.Session
import EntitySchema.Proofs.Retouched.Checks
import EntitySchema.Proofs.Arranged.Preview
import EntitySchema.Proofs.Arranged.Reading
import EntitySchema.Proofs.Arranged.Reordering
import EntitySchema.Proofs.Arranged.Document
import EntitySchema.Proofs.Relation.Analyses
import EntitySchema.Proofs.Declarations
import EntitySchema.Proofs.Relation.Dangling
import EntitySchema.Proofs.Relation.BackReferences
import EntitySchema.Proofs.FieldLaws
import EntitySchema.Proofs.FirstDeclarations
import EntitySchema.Proofs.ReportPools
import EntitySchema.Proofs.WarningCount
import EntitySchema.Proofs.WritePayloads
import EntitySchema.Proofs.Typed.Document
import EntitySchema.Proofs.InsertionDefaults
import EntitySchema.Proofs.ModelViews
import EntitySchema.Proofs.Text.EnumReference
import EntitySchema.Proofs.UniqueKeys
import EntitySchema.Proofs.Counterparts
import EntitySchema.Proofs.Rekeyed.Schema
import EntitySchema.Proofs.Rekeyed.Reading
import EntitySchema.Proofs.Rekeyed.Document
import EntitySchema.Proofs.DroppedDefaults
import EntitySchema.Proofs.EnumDefaults
import EntitySchema.Proofs.NameCollisions
import EntitySchema.Proofs.Naming.Agreement
import EntitySchema.Proofs.Naming.Alphanumerics
import EntitySchema.Proofs.Naming.NormalForms
import EntitySchema.Proofs.Thawed.Copies
import EntitySchema.Proofs.Relation.FrozenAnalyses
