import CubeSql.Request.Filter
import CubeSql.Request.Reference

/-!
# Requests

An analytical request: which metrics to compute, by which dimensions, over which tables, and how the
result is restricted, compared and subtotalled.
-/

namespace CubeSql

/-- A table joined to the tables before it. -/
structure Join where
  /-- The name of the table. -/
  table : String
  /-- The condition under which rows match. -/
  on : Expr
  /-- Which rows are kept without a match. -/
  joinType : JoinType

namespace Join

/-- Joins are the same when their tables, conditions and kinds are. -/
def same (a b : Join) : Bool := a.table == b.table && a.on.same b.on && a.joinType == b.joinType

end Join

/-- Dimensions that are subtotalled together. -/
inductive RollupGroup where
  /-- One dimension, by its key. -/
  | single (key : String)
  /-- Several dimensions, by their keys. -/
  | composite (keys : List String)
deriving DecidableEq, Repr, Inhabited

/-- The keys of the dimensions in a group. -/
def RollupGroup.keys : RollupGroup → List String
  | single key => [key]
  | composite keys => keys

/-- An analytical request. -/
structure Request where
  /-- The name of the base table. -/
  table : String
  /-- Further tables, in the order in which they are joined. -/
  joins : List Join
  /-- What to group by. -/
  dimensions : List Dimension
  /-- What to compute for every group. -/
  metrics : List Metric
  /-- What to restrict or split. -/
  filters : List RequestFilter
  /-- What to compare with. -/
  references : List Reference
  /-- The arguments of the subtotals, in order. -/
  rollup : List RollupGroup
  /-- How many rows to return at most. -/
  limit : Option UInt64
  /-- How many rows to leave out first. -/
  offset : Option UInt64

namespace Request

/-- The empty request over a table. -/
def ofTable (table : String) : Request := ⟨table, [], [], [], [], [], [], none, none⟩

/-- Whether two lists have the same items, one by one. -/
def sameList {α : Type} (same : α → α → Bool) : List α → List α → Bool
  | [], [] => true
  | a :: as, b :: bs => same a b && sameList same as bs
  | _, _ => false

/-- Requests are the same when all their parts are, in the same order. -/
def same (a b : Request) : Bool :=
  a.table == b.table && sameList Join.same a.joins b.joins
    && sameList Dimension.same a.dimensions b.dimensions && sameList Metric.same a.metrics b.metrics
    && sameList RequestFilter.same a.filters b.filters && a.references == b.references
    && a.rollup == b.rollup && a.limit == b.limit && a.offset == b.offset

/-! ## Building a request part by part -/

/-- The request with one more joined table. -/
def addJoin (r : Request) (j : Join) : Request := { r with joins := r.joins ++ [j] }

/-- The request with one more dimension. -/
def addDimension (r : Request) (d : Dimension) : Request := { r with dimensions := r.dimensions ++ [d] }

/-- The request with one more metric. -/
def addMetric (r : Request) (m : Metric) : Request := { r with metrics := r.metrics ++ [m] }

/-- The request with one more filter. -/
def addFilter (r : Request) (f : RequestFilter) : Request := { r with filters := r.filters ++ [f] }

/-- The request with one more reference. -/
def addReference (r : Request) (ref : Reference) : Request := { r with references := r.references ++ [ref] }

/-- The request with one more rollup group. -/
def addRollup (r : Request) (g : RollupGroup) : Request := { r with rollup := r.rollup ++ [g] }

end Request

end CubeSql
