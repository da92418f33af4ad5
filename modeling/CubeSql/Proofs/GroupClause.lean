import CubeSql.Proofs.BaseQuery

/-!
# What is written of GROUP BY

Where a dialect does not group by aliases, a query leaves out the constants among its group entries. What is
left are entries again, and the clause is their text. It stands in the text of the query unless nothing is
left.
-/

namespace CubeSql.Sql

/-! ## Entries -/

/-- What is written of an entry: an argument of ROLLUP without any members is left out, and so is ROLLUP
without any arguments. -/
def GroupItem.written? (s : Spelling) (items : List SelectItem) : GroupItem → Option GroupItem
  | .expr e => (groupTerm? s items e).map .expr
  | .rollup args =>
    match (args.map fun members => members.filterMap (groupTerm? s items)).filter (!·.isEmpty) with
    | [] => none
    | left => some (.rollup left)

/-- The text of an argument of ROLLUP: in parentheses if it has several members. -/
def argumentText (s : Spelling) : List Expr → String
  | [member] => member.text s
  | members => "(" ++ ", ".intercalate (members.map (Expr.text s)) ++ ")"

/-- The text of an entry of which nothing is left out. -/
def GroupItem.text (s : Spelling) : GroupItem → String
  | .expr e => e.text s
  | .rollup args => "ROLLUP(" ++ ", ".intercalate (args.map (argumentText s)) ++ ")"

theorem rollupArgument?_map (s : Spelling) (members : List Expr) :
    rollupArgument? (members.map (Expr.text s)) =
      if !members.isEmpty then some (argumentText s members) else none := by
  match members with
  | [] => rfl
  | [_] => rfl
  | _ :: _ :: _ => rfl

/-- The text of an entry is that of what is written of it. -/
theorem GroupItem.text?_eq (s : Spelling) (items : List SelectItem) (g : GroupItem) :
    g.text? s items = (g.written? s items).map (GroupItem.text s) := by
  cases g with
  | expr e =>
    rw [text?, written?, Option.map_map]
    rfl
  | rollup args =>
    have hargs : (args.filterMap fun members =>
        rollupArgument? ((members.filterMap (groupTerm? s items)).map (Expr.text s))) =
        ((args.map fun members => members.filterMap (groupTerm? s items)).filter (!·.isEmpty)).map
          (argumentText s) := by
      simp only [rollupArgument?_map]
      rw [← List.filterMap_eq_map', List.filterMap_filter, List.filterMap_map]
      rfl
    rw [text?, written?, hargs]
    cases (args.map fun members => members.filterMap (groupTerm? s items)).filter (!·.isEmpty) with
    | nil => rfl
    | cons arg left => rfl

/-! ## The clause -/

namespace Query

/-- The entries of GROUP BY as they are written. -/
def writtenGroups (s : Spelling) (q : Query) : List GroupItem :=
  q.groups.filterMap (GroupItem.written? s q.items)

/-- The text of the query has a clause GROUP BY with the given entries: without its own entries the query
has the same text but for this clause. -/
def WritesGroups (s : Spelling) (q : Query) (entries : List GroupItem) : Prop :=
  ∃ head tail, Query.text s q =
      head ++ clause " GROUP BY " ", " (entries.map (GroupItem.text s)) ++ tail ∧
    Query.text s { q with groups := [] } = head ++ tail

/-- The text of the query has a clause GROUP BY. -/
def HasGroupBy (s : Spelling) (q : Query) : Prop := ∃ entries ≠ [], q.WritesGroups s entries

theorem groupTexts_eq (s : Spelling) (q : Query) :
    q.groups.filterMap (GroupItem.text? s q.items) = (q.writtenGroups s).map (GroupItem.text s) := by
  have htext : GroupItem.text? s q.items = fun g => (g.written? s q.items).map (GroupItem.text s) := by
    funext g
    exact g.text?_eq s q.items
  rw [writtenGroups, List.map_filterMap, htext]

/-- The text of a query up to GROUP BY. -/
def textBeforeGroups (s : Spelling) (q : Query) : String :=
  "SELECT " ++ q.selectList s ++ " FROM " ++ Source.text s q.source ++ joinsText s q.joins ++
    clause " WHERE " " AND " (q.restrictions.map (Expr.text s))

/-- The text of a query from HAVING on. -/
def textAfterGroups (s : Spelling) (q : Query) : String :=
  clause " HAVING " " AND " (q.having.map (Expr.text s)) ++
    clause " ORDER BY " ", " (q.order.map (OrderItem.text s)) ++
    countClause " LIMIT " q.limit ++ countClause " OFFSET " q.offset

theorem text_eq_around (s : Spelling) (q : Query) :
    Query.text s q = q.textBeforeGroups s ++
      clause " GROUP BY " ", " (q.groups.filterMap (GroupItem.text? s q.items)) ++ q.textAfterGroups s := by
  have htext := text_eq s q
  unfold selectText at htext
  unfold textBeforeGroups textAfterGroups selectList
  simp only [String.append_assoc] at htext ⊢
  exact htext

/-- GROUP BY has the entries that are written of the query's. -/
theorem writesGroups (s : Spelling) (q : Query) : q.WritesGroups s (q.writtenGroups s) := by
  refine ⟨q.textBeforeGroups s, q.textAfterGroups s, ?_, ?_⟩
  · rw [text_eq_around, groupTexts_eq]
  · have hwithout := text_eq_around s { q with groups := [] }
    rw [List.filterMap_nil, clause, String.append_empty] at hwithout
    exact hwithout

theorem clause_ne_empty {keyword separator : String} (hkeyword : keyword ≠ "") {entries : List String}
    (h : entries ≠ []) : clause keyword separator entries ≠ "" := by
  cases entries with
  | nil => exact absurd rfl h
  | cons entry entries =>
    intro hempty
    exact hkeyword (String.append_eq_empty_iff.mp hempty).1

/-- The clause stands in the text exactly if anything is written of the entries. -/
theorem hasGroupBy_iff {s : Spelling} {q : Query} : q.HasGroupBy s ↔ q.writtenGroups s ≠ [] := by
  constructor
  · rintro ⟨entries, hentries, head, tail, htext, hwithout⟩ hnil
    obtain ⟨head', tail', htext', hwithout'⟩ := q.writesGroups s
    -- Nothing is written, so the text is the one without entries, which has no room for the clause.
    have hsame : Query.text s q = Query.text s { q with groups := [] } := by
      rw [htext', hwithout', hnil, List.map_nil, clause, String.append_empty]
    have hlength : (clause " GROUP BY " ", " (entries.map (GroupItem.text s))).length = 0 := by
      have hboth := congrArg String.length ((htext.symm.trans hsame).trans hwithout)
      simp only [String.length_append] at hboth
      omega
    exact clause_ne_empty (by decide) (by simpa using hentries) (String.length_eq_zero_iff.mp hlength)
  · intro h
    exact ⟨_, h, q.writesGroups s⟩

end Query

end CubeSql.Sql
