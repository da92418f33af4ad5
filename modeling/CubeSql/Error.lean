import CubeSql.Request.Vocabulary

/-!
# Errors

What can be wrong with a request and with running it, each cause with the values that its message names.
The wording is in `Error.message` alone.
-/

namespace CubeSql

/-- What is wrong with the value of a filter. -/
inductive FilterFault where
  /-- A list filter has no value. -/
  | noValue
  /-- A range filter has no two bounds. -/
  | noPair
  /-- A comparison is with the absent value. -/
  | absentValue
  /-- A comparison is with a list or an object. -/
  | notScalar
  /-- A pattern is not a text. -/
  | notPattern
deriving DecidableEq, Repr, Inhabited

/-- What the value of a filter should have been. -/
def FilterFault.message : FilterFault → String
  | noValue => "expects at least one value"
  | noPair => "expects a [low, high] pair"
  | absentValue => "compares against null; use is_null"
  | notScalar => "expects a single scalar value"
  | notPattern => "like expects a string pattern"

/-- Why a request is refused or its run fails. -/
inductive Error where
  /-- A field has a blank key. -/
  | blankFieldKey
  /-- A reference name has an unknown ending. -/
  | unknownReferenceModifier (name : String)
  /-- A reference name names no period. -/
  | unknownReference (name : String)
  /-- The base table has a blank name. -/
  | noBaseTable
  /-- There is no join at a position. -/
  | noJoin (position : Nat)
  /-- The value of a filter does not fit its operator. -/
  | filterValue (key : String) (op : FilterOp) (fault : FilterFault)
  /-- A rollup group names nothing. -/
  | emptyRollupGroup
  /-- A dimension is named by the rollup groups more than once. -/
  | repeatedRollup (key : String)
  /-- Two result sets replace the same dimension. -/
  | repeatedReplacement (key : String)
  /-- Nothing is selected. -/
  | emptyProjection
  /-- Two columns or comparisons share a name. -/
  | duplicateAlias (name : String)
  /-- A reference is bound to a dimension that holds no dates. -/
  | incompatibleReference (reference dimension : String) (found : DataType)
  /-- A name is that of no dimension. -/
  | unknownDimension (key : String)
  /-- A name is that of no table. -/
  | unknownTable (name : String)
  /-- The database refused a statement. -/
  | execution (reason : String)
  /-- Something else went wrong during a run. -/
  | other (reason : String)
deriving DecidableEq, Repr, Inhabited

namespace Error

/-- The text of an error. -/
def message : Error → String
  | blankFieldKey => "invalid field: field key must not be empty"
  | unknownReferenceModifier name => "invalid request: unknown reference modifier in " ++ name
  | unknownReference name => "invalid request: unknown reference " ++ name
  | noBaseTable => "invalid request: request has no base table"
  | noJoin position => "invalid request: no join at position " ++ toString position
  | filterValue key op fault =>
    "invalid request: filter on " ++ key ++ " (" ++ op.label ++ ") " ++ fault.message
  | emptyRollupGroup => "invalid request: empty rollup group"
  | repeatedRollup key => "invalid request: dimension " ++ key ++ " is rolled up more than once"
  | repeatedReplacement key =>
    "invalid request: dimension " ++ key ++ " is already replaced by another result-set filter"
  | emptyProjection => "query requires at least one dimension or metric"
  | duplicateAlias name => "duplicate alias " ++ name
  | incompatibleReference reference dimension found =>
    "reference " ++ reference ++ " cannot be applied to dimension " ++ dimension
      ++ ": expected a date dimension, found " ++ found.label
  | unknownDimension key => "unknown dimension " ++ key
  | unknownTable name => "unknown table " ++ name
  | execution reason => "execution error: " ++ reason
  | other reason => reason

end Error

/-- Why a document does not yield what it should: it is malformed for its purpose, or something in it is
refused for a reason of its own. -/
inductive Fault where
  /-- The text is not well formed, or not of the expected form. -/
  | malformed
  /-- The form is right, and the content is refused. -/
  | refused (cause : Error)
deriving DecidableEq, Repr, Inhabited

end CubeSql
