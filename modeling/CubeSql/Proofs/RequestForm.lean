import CubeSql.Proofs.ExprForm
import CubeSql.Request.Form
import CubeSql.Request.Reading

/-!
# Requests survive being written

The written form of a request is read as the request, and so is that of each of its parts, whatever kind of
document they stand in. Each record is read into a draft that has every part in its place, and nothing in a
part is refused.
-/

namespace CubeSql

/-! ## Fields -/

namespace Field

theorem draft_ofValue (c : Conventions) (f : Field) :
    (Node.ofValue f.toValue).readRecord c shape (Draft.step c) .empty =
      .ok ⟨some f.key, some f.dataType, some f.definition⟩ := by
  have htype : (Node.ofValue (.text f.dataType.name)).readChoice c DataType.words = .ok f.dataType :=
    Node.readChoice_ofValue c f.dataType.ofName?_name
  rw [toValue, Node.readRecord_ofValue c (by simp [shape])]
  simp only [List.foldlM_cons, List.foldlM_nil, Draft.step, Draft.empty, htype, Expr.read_toValue,
    Node.readText_ofValue, Node.fill_ok]
  rfl

/-- A key that is not blank is not refused. -/
theorem finish_draft (f : Field) :
    Draft.finish ⟨some f.key, some f.dataType, some f.definition⟩ = .ok f := by
  simp only [Draft.finish, Reading.required, Reading.ofOption, bind_eq_ok, Except.ok.injEq, exists_eq_left',
    f.make?_self]
  rfl

theorem read_toValue (c : Conventions) (f : Field) : read c (.ofValue f.toValue) = .ok f := by
  rw [read, f.draft_ofValue]
  exact f.finish_draft

end Field

theorem Dimension.read_toValue (c : Conventions) (d : Dimension) : read c (.ofValue d.toValue) = .ok d := by
  have htype : (Node.ofValue (.text d.field.dataType.name)).readChoice c DataType.words =
      .ok d.field.dataType := Node.readChoice_ofValue c d.field.dataType.ofName?_name
  have hmodifier : (Node.ofValue (.text d.modifier.name)).readChoice c Modifier.words = .ok d.modifier :=
    Node.readChoice_ofValue c d.modifier.ofName?_name
  have hdraft : (Node.ofValue d.toValue).readRecord c shape (Draft.step c) ⟨.empty, none⟩ =
      .ok ⟨⟨some d.field.key, some d.field.dataType, some d.field.definition⟩, some d.modifier⟩ := by
    rw [toValue, Node.readRecord_ofValue c (by simp [shape])]
    simp only [List.foldlM_cons, List.foldlM_nil, Draft.step, Field.Draft.step, Field.Draft.empty, htype,
      hmodifier, Expr.read_toValue, Node.readText_ofValue, Node.fill_ok]
    rfl
  rw [read, hdraft]
  show (Field.Draft.finish _ >>= fun f => pure ⟨f, d.modifier⟩) = .ok d
  rw [d.field.finish_draft]
  rfl

theorem Metric.read_toValue (c : Conventions) (m : Metric) : read c (.ofValue m.toValue) = .ok m := by
  rw [read, toValue, m.field.read_toValue]
  rfl

/-! ## Filters -/

theorem Filter.read_toValue (c : Conventions) (f : Filter) : read c (.ofValue f.toValue) = .ok f := by
  have hop : (Node.ofValue (.text f.op.name)).readChoice c FilterOp.words = .ok f.op :=
    Node.readChoice_ofValue c f.op.ofName?_name
  have hvalue : (Node.ofValue f.value.value).readValue.map Literal.ofValue = .ok f.value := by
    rw [Node.readValue_ofValue, Except.map, f.value.ofValue_value]
  have hdraft : (Node.ofValue f.toValue).readRecord c shape (Draft.step c) ⟨none, none, none⟩ =
      .ok ⟨some f.field, some f.op, some f.value⟩ := by
    rw [toValue, Node.readRecord_ofValue c (by simp [shape])]
    simp only [List.foldlM_cons, List.foldlM_nil, Draft.step, f.field.read_toValue, hop, hvalue, Node.fill_ok]
    rfl
  rw [read, hdraft]
  rfl

theorem ResultSet.read_toValue (c : Conventions) (s : ResultSet) : read c (.ofValue s.toValue) = .ok s := by
  have hdraft : (Node.ofValue s.toValue).readRecord c shape (Draft.step c) ⟨none, none, none, none, none⟩ =
      .ok ⟨some s.filter, some s.setLabel, some s.complementLabel, some s.replaces,
        some s.groupsComplement⟩ := by
    rw [toValue, Node.readRecord_ofValue c (by simp [shape])]
    simp only [List.foldlM_cons, List.foldlM_nil, Draft.step, s.filter.read_toValue,
      Node.readOptional_optionalText, Node.readBool_ofValue, Node.fill_ok]
    rfl
  rw [read, hdraft]
  rfl

namespace RequestFilter

/-- What remains of a filter without its kind is the filter's own form. -/
theorem splitKind_toValue (f : RequestFilter) : splitKind (.ofValue f.toValue) = .ok (match f with
    | .dimension f => ("dimension", .ofValue f.toValue)
    | .metric f => ("metric", .ofValue f.toValue)
    | .resultSet s => ("result_set", .ofValue s.toValue)) := by
  cases f <;> rfl

theorem read_toValue (f : RequestFilter) : read (.ofValue f.toValue) = .ok f := by
  rw [read, Node.settled?_ofValue]
  show (splitKind (.ofValue f.toValue) >>= _) = .ok f
  rw [splitKind_toValue]
  cases f with
  | dimension f =>
    show (Filter.read .settled (.ofValue f.toValue) >>= fun f => pure (dimension f)) = _
    rw [f.read_toValue]
    rfl
  | metric f =>
    show (Filter.read .settled (.ofValue f.toValue) >>= fun f => pure (metric f)) = _
    rw [f.read_toValue]
    rfl
  | resultSet s =>
    show (ResultSet.read .settled (.ofValue s.toValue) >>= fun s => pure (resultSet s)) = _
    rw [s.read_toValue]
    rfl

end RequestFilter

/-! ## References, joins and rollup groups -/

theorem Reference.read_toValue (c : Conventions) (x : Reference) : read c (.ofValue x.toValue) = .ok x := by
  have hdraft : (Node.ofValue x.toValue).readRecord c shape Draft.step ⟨none, none⟩ =
      .ok ⟨some x.name, some x.dimension⟩ := by
    rw [toValue, Node.readRecord_ofValue c (by simp [shape])]
    rfl
  rw [read, hdraft]
  show (parse x.name x.dimension).mapError Fault.refused = .ok x
  rw [x.parse_name]
  rfl

theorem Join.read_toValue (c : Conventions) (j : Join) : read c (.ofValue j.toValue) = .ok j := by
  have htype : (Node.ofValue (.text j.joinType.name)).readChoice c JoinType.words = .ok j.joinType :=
    Node.readChoice_ofValue c j.joinType.ofName?_name
  have hdraft : (Node.ofValue j.toValue).readRecord c shape (Draft.step c) ⟨none, none, none⟩ =
      .ok ⟨some j.table, some j.on, some j.joinType⟩ := by
    rw [toValue, Node.readRecord_ofValue c (by simp [shape])]
    simp only [List.foldlM_cons, List.foldlM_nil, Draft.step, htype, Expr.read_toValue, Node.readText_ofValue,
      Node.fill_ok]
    rfl
  rw [read, hdraft]
  rfl

theorem RollupGroup.read_toValue (g : RollupGroup) : read (.ofValue g.toValue) = .ok g := by
  rw [read, Node.settled?_ofValue]
  cases g with
  | single key => rfl
  | composite keys =>
    have hkeys : (Node.ofValues (keys.map .text)).mapM Node.readText = .ok keys :=
      Node.mapM_ofValues fun key _ => Node.readText_ofValue key
    show ((Node.ofValues (keys.map .text)).mapM Node.readText >>= fun keys => pure (composite keys)) = _
    rw [hkeys]
    rfl

/-! ## Requests -/

namespace Node

theorem fitsUnsigned_toNat (n : UInt64) : fitsUnsigned 64 n.toNat = true := by
  have hlt : (n.toNat : Int) < wordCount 64 := by exact_mod_cast n.toNat_lt
  simp [fitsUnsigned, hlt]

theorem readCount_ofValue (n : UInt64) : (ofValue (.int n.toNat)).readCount = .ok n := by
  simp [ofValue, readCount, isNegated, fitsUnsigned_toNat]

theorem readOptional_optionalCount (n : Option UInt64) :
    (ofValue (.optionalCount n)).readOptional readCount = .ok n := by
  cases n with
  | none => rfl
  | some n =>
    have hnull : (ofValue (.int n.toNat)).isNull = false := rfl
    rw [Value.optionalCount, readOptional, hnull, readCount_ofValue]
    rfl

end Node

namespace Request

theorem read_toValue (c : Conventions) (r : Request) : read c (.ofValue r.toValue) = .ok r := by
  have hdimensions := Node.readList_ofValue c fun d (_ : d ∈ r.dimensions) => d.read_toValue c
  have hfilters := Node.readList_ofValue c fun f (_ : f ∈ r.filters) => f.read_toValue
  have hjoins := Node.readList_ofValue c fun j (_ : j ∈ r.joins) => j.read_toValue c
  have hmetrics := Node.readList_ofValue c fun m (_ : m ∈ r.metrics) => m.read_toValue c
  have hreferences := Node.readList_ofValue c fun x (_ : x ∈ r.references) => x.read_toValue c
  have hrollup := Node.readList_ofValue c fun g (_ : g ∈ r.rollup) => g.read_toValue
  have hdraft : (Node.ofValue r.toValue).readRecord c shape (Draft.step c) .empty =
      .ok ⟨some r.table, some r.joins, some r.dimensions, some r.metrics, some r.filters, some r.references,
        some r.rollup, some r.limit, some r.offset⟩ := by
    rw [toValue, Node.readRecord_ofValue c (by simp [shape])]
    simp only [List.foldlM_cons, List.foldlM_nil, Draft.step, Draft.empty, hdimensions, hfilters, hjoins,
      hmetrics, hreferences, hrollup, Node.readOptional_optionalCount, Node.readText_ofValue, Node.fill_ok]
    rfl
  rw [read, hdraft]
  rfl

/-- The written form of a request is read as the request. -/
theorem ofValue_toValue (r : Request) : ofValue r.toValue = .ok r := r.read_toValue .value

end Request

end CubeSql
