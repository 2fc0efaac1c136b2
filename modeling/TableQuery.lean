import TableQuery.Descriptor.Json
import TableQuery.Descriptor.ProjectionPlan
import TableQuery.Descriptor.SortPlan
import TableQuery.GraphQL.Input
import TableQuery.GraphQL.Selection
import TableQuery.Main
import TableQuery.Sql.Reader
import TableQuery.Proofs.Checked
import TableQuery.Proofs.FilterTree
import TableQuery.Proofs.AtomText
import TableQuery.Proofs.Grammar
import TableQuery.Proofs.Grouping
import TableQuery.Proofs.IntegerText
import TableQuery.Proofs.Cursor
import TableQuery.Proofs.PageEdges
import TableQuery.Proofs.Fetch
import TableQuery.Proofs.PageWalk
import TableQuery.Proofs.PlaceholderText
import TableQuery.Proofs.Placeholders
import TableQuery.Proofs.RepeatedFields
import TableQuery.Proofs.OperandConfinement
import TableQuery.Proofs.SplicedNames
import TableQuery.Proofs.CountAndData
import TableQuery.Proofs.CalendarDays
import TableQuery.Proofs.InstantText
import TableQuery.Proofs.WrittenInstants
import TableQuery.Proofs.InstantRoundTrip
import TableQuery.Proofs.DateFilters
import TableQuery.Proofs.NamedEntries
import TableQuery.Proofs.OperatorReading
import TableQuery.Proofs.OperatorNotations
import TableQuery.Proofs.JsonFilters
import TableQuery.Proofs.DerivedFilters
import TableQuery.Proofs.MatchingRows
import TableQuery.Proofs.ListOperators
import TableQuery.Proofs.SingleOperators
import TableQuery.Proofs.OppositeOperators
import TableQuery.Proofs.ListMembership
import TableQuery.Proofs.LiteralPatterns
import TableQuery.Proofs.CaseFlags
import TableQuery.Proofs.CompileFaults
import TableQuery.Proofs.BuildOutcome
import TableQuery.Proofs.RegisteredNames
import TableQuery.Proofs.JsonFields
import TableQuery.Proofs.PrunedFilters
import TableQuery.Proofs.TokenText
import TableQuery.Proofs.ConditionTokens
import TableQuery.Proofs.ReadingUnits
import TableQuery.Proofs.ReadingComparisons
import TableQuery.Proofs.ReadingAtoms
import TableQuery.Proofs.ConjoinedConditions
import TableQuery.Proofs.SortKeys
import TableQuery.Proofs.AcceptedSettings
import TableQuery.Proofs.DateConversion
import TableQuery.Proofs.DateSpelling
import TableQuery.Proofs.OctetOrder
import TableQuery.Proofs.RequestedPaths
import TableQuery.Proofs.MarkedFields
import TableQuery.Proofs.ReturnedColumns
import TableQuery.Proofs.AttributeKeys
import TableQuery.Proofs.FilterDeclarations
import TableQuery.Proofs.ProjectionDeclarations
import TableQuery.Proofs.MarkedRecords
import TableQuery.Proofs.ConstrainingSets
