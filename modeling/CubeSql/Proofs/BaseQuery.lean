import CubeSql.Proofs.Plan
import CubeSql.Sql.Text

/-!
# References leave the base query as it is

A request that compiles also compiles without its references, to statements of the same roles over the same
columns. With the references each statement selects from the statement without them, whose text stands in
its own text unchanged.
-/

namespace CubeSql

/-! ## The text of a query over a query -/

namespace Sql

/-- The text of what a query selects, after SELECT. -/
def Query.selectList (s : Spelling) (q : Query) : String :=
  (if q.distinct then "DISTINCT " else "") ++ ", ".intercalate (q.items.map (SelectItem.text s))

/-- The text of the query selects from the given text, in parentheses under an alias. -/
def Query.SelectsFromText (s : Spelling) (q : Query) (inner aliasName : String) : Prop :=
  ∃ rest, Query.text s q = "SELECT " ++ q.selectList s ++
    " FROM " ++ "(" ++ inner ++ ")" ++ " " ++ s.quoteName aliasName ++ rest

theorem Query.text_eq (s : Spelling) (q : Query) :
    Query.text s q = selectText s (⟨q.distinct, q.items, (), [], q.restrictions, q.groups, q.having,
      q.order, q.limit, q.offset⟩ : Select Unit) (Source.text s q.source) (joinsText s q.joins) := by
  obtain ⟨distinct, items, source, joins, restrictions, groups, having, order, limit, offset⟩ := q
  rw [Query.text]

theorem Source.text_derived (s : Spelling) (q : Query) (aliasName : String) :
    Source.text s (.derived q aliasName) =
      "(" ++ Query.text s q ++ ")" ++ " " ++ s.quoteName aliasName := by
  rw [Source.text, aliased]

/-- The text of a query that is selected from stands unchanged in the text of the query around it. -/
theorem Query.selectsFromText {q inner : Query} {aliasName : String}
    (h : q.source = .derived inner aliasName) (s : Spelling) :
    q.SelectsFromText s (Query.text s inner) aliasName := by
  have hsource := Source.text_derived s inner aliasName
  rw [← h] at hsource
  unfold Query.SelectsFromText Query.selectList
  rw [Query.text_eq s q, hsource]
  unfold selectText
  simp only [String.append_assoc]
  exact ⟨_, rfl⟩

end Sql

/-! ## Plans without comparisons -/

/-- The request without its references. -/
def Request.withoutReferences (r : Request) : Request := { r with references := [] }

/-- The plan without its comparisons. -/
def Plan.withoutComparisons (p : Plan) : Plan := { p with comparisons := [] }

variable {r : Request} {settings : Settings}

/-- What a request selects does not depend on its references. -/
theorem Selection.Resolved.withoutReferences {s : Selection} (h : Resolved r s) :
    Resolved r.withoutReferences s := { h with }

namespace Plan

variable {p : Plan}

theorem outputAliases_withoutComparisons (p : Plan) :
    p.withoutComparisons.outputAliases = p.grouping.columns.map DimensionColumn.aliasName ++
      p.selection.metrics.map MetricColumn.aliasName := List.append_nil _

/-- A request without its references has the plan without its comparisons. -/
theorem Resolved.withoutReferences (h : Resolved r settings p) :
    Resolved r.withoutReferences settings p.withoutComparisons where
  selection := h.selection.withoutReferences
  grouping := h.grouping
  comparisons := .nil
  names_nodup := List.nodup_nil
  settings := h.settings
  aliases_nodup := by
    rw [outputAliases_withoutComparisons]
    exact h.base_aliases_nodup

theorem query_withoutComparisons (p : Plan) (collapsed : List String) :
    p.withoutComparisons.query collapsed = p.baseQuery collapsed := if_pos rfl

end Plan

/-! ## Statements -/

/-- The statement selects from the query of another one as its base query, and so does its text. -/
structure Statement.Surrounds (s base : Statement) : Prop where
  source : s.query.source = .derived base.query Plan.baseAlias
  text : ∀ d : Sql.Dialect,
    s.query.SelectsFromText d.spelling (Sql.Query.text d.spelling base.query) Plan.baseAlias

/-- A request that compiles also compiles without its references, to the same roles and the same columns; and
if it has references, each of its statements selects from the statement without them. -/
theorem references_keep_base {c : Compilation} (h : Compilation.ofRequest r settings = .ok c) :
    ∃ c₀, Compilation.ofRequest r.withoutReferences settings = .ok c₀ ∧
      c₀.statements.map Statement.kind = c.statements.map Statement.kind ∧
      c₀.dimensionKeys = c.dimensionKeys ∧ c₀.metricKeys = c.metricKeys ∧
      c₀.rollupKeys = c.rollupKeys ∧
      (r.references ≠ [] → List.Forall₂ Statement.Surrounds c.statements c₀.statements) := by
  obtain ⟨p, hp, rfl⟩ := Compilation.ofRequest_eq_ok.mp h
  refine ⟨_, Compilation.ofRequest_eq_ok.mpr ⟨_, hp.withoutReferences, rfl⟩, ?_, rfl, rfl, rfl, ?_⟩
  · simp only [Compilation.statementsOf_eq_map, List.map_map]
    rfl
  · intro hrefs
    -- The roles depend on the totalled dimensions alone, so the statements correspond role by role.
    simp only [Compilation.statementsOf_eq_map, List.forall₂_map_left_iff, List.forall₂_map_right_iff]
    refine List.forall₂_same.mpr fun kind _ => ?_
    have hsource : (p.query kind.collapsed).source =
        .derived (p.withoutComparisons.query kind.collapsed) Plan.baseAlias := by
      rw [hp.query_eq_comparedQuery hrefs, p.query_withoutComparisons]
      rfl
    exact ⟨hsource, fun d => Sql.Query.selectsFromText hsource d.spelling⟩

theorem references_keep_base_clicksByDay :
    ∃ c c₀, Compilation.ofRequest .clicksByDay .default = .ok c ∧
      Compilation.ofRequest Request.clicksByDay.withoutReferences .default = .ok c₀ ∧
      c₀.statements.map Statement.kind =
        [.base, .totals ["device", "day"], .totals ["day"]] ∧
      List.Forall₂ Statement.Surrounds c.statements c₀.statements := by
  obtain ⟨c, hc⟩ := compiles_clicksByDay
  obtain ⟨c₀, hc₀, hkinds, -, -, -, hsurrounds⟩ := references_keep_base hc
  have hall : (Compilation.ofRequest .clicksByDay .default).toOption.map
      (fun c => c.statements.map Statement.kind) =
        some [.base, .totals ["device", "day"], .totals ["day"]] := by
    decide +kernel
  rw [hc] at hall
  exact ⟨c, c₀, hc, hc₀, hkinds.trans (Option.some.inj hall), hsurrounds (by decide)⟩

end CubeSql
