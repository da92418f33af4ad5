import CubeSql.Compilation
import CubeSql.Execution
import CubeSql.Json.Document
import CubeSql.Proofs.Aliases
import CubeSql.Proofs.BaseQuery
import CubeSql.Proofs.ComparisonJoin
import CubeSql.Proofs.Isolation
import CubeSql.Proofs.Schema
import CubeSql.Proofs.Totals
import CubeSql.Proofs.WellScoped
import CubeSql.Request.Form
import CubeSql.Request.Reading
import CubeSql.Settings.Source
import CubeSql.Yaml.Document
import CubeSql.Proofs.GroupClause
import CubeSql.Proofs.GroupingSets
import CubeSql.Proofs.StaysGrouped
import CubeSql.Proofs.Headings
import CubeSql.Proofs.Marks
import CubeSql.Proofs.Validity
import CubeSql.Proofs.GroupedOrder
import CubeSql.Proofs.SplitFrame
import CubeSql.Proofs.DimensionOrder
import CubeSql.Proofs.ExprForm
import CubeSql.Proofs.RequestForm
import CubeSql.Proofs.TotalsRows
import CubeSql.Proofs.ClosedText
import CubeSql.Proofs.Quotations
import CubeSql.Proofs.OperatorText
import CubeSql.Proofs.Choices
import CubeSql.Proofs.ComparisonFilters
import CubeSql.Proofs.StableGrouping
import CubeSql.Proofs.SplitEffects
import CubeSql.Proofs.RollupArguments
import CubeSql.Proofs.AggregateFree
import CubeSql.Proofs.FaithfulLowering
import CubeSql.Proofs.TableAddresses
import CubeSql.Proofs.GroupedExpressions
import CubeSql.Proofs.Numerals
import CubeSql.Proofs.ConstantLists
import CubeSql.Proofs.Runs
import CubeSql.Proofs.ComparedMetrics
import CubeSql.Proofs.WrittenColumns
import CubeSql.Proofs.Descriptions
import CubeSql.Proofs.SetKeys
import CubeSql.Proofs.Conjunctions
import CubeSql.Proofs.ReadColumns
