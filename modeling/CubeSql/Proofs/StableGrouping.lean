import CubeSql.Proofs.DimensionOrder

/-!
# Planning rollup groups only reorders

The columns of a plan are those that were given, each with its rollup flag set or not, in a stable order. With
every column kept beside its position among the given ones, the order is that of the positions, except that the
flagged columns come last and that the members of a rollup group are listed where the first of them is. As the
positions differ, this holds of columns under one key as well.
-/

namespace CubeSql.Grouping

/-! ## The order -/

/-- The position of the first grouped column under a key. -/
def firstGrouped? (columns : List DimensionColumn) (key : String) : Option Nat :=
  columns.findIdx? fun d => decide (d.key = key ∧ d.grouped = true)

/-- The column at a position is rolled up. -/
def RolledAt (columns : List DimensionColumn) (i : Nat) : Prop := ∃ d, columns[i]? = some d ∧ d.rollup = true

/-- A column with its position among the given ones. -/
abbrev Placed := DimensionColumn × Nat

/-- The columns are rolled up in one group. -/
def Together (groups : List (List String)) (d e : DimensionColumn) : Prop :=
  d.rollup = true ∧ e.rollup = true ∧ ∃ keys ∈ groups, d.key ∈ keys ∧ e.key ∈ keys

instance (groups : List (List String)) (d e : DimensionColumn) : Decidable (Together groups d e) :=
  inferInstanceAs (Decidable (d.rollup = true ∧ e.rollup = true ∧ ∃ keys ∈ groups, d.key ∈ keys ∧ e.key ∈ keys))

/-- Where a column is listed: at the first member of its group, or at its own position. -/
def listedAt (groups : List (List String)) (columns : List DimensionColumn) (p : Placed) : Nat :=
  (columns.findIdx? fun e => decide (Together groups p.1 e)).getD p.2

/-- The first column is listed before the second one, by its own position where they are listed at one place. -/
def Precedes (lead : Placed → Nat) (p q : Placed) : Prop := lead p < lead q ∨ (lead p = lead q ∧ p.2 < q.2)

/-- The first column stands before the second one: a flagged column before flagged ones only, and among columns
of which both are flagged or neither is, in the order in which they are listed. -/
def StandsBefore (groups : List (List String)) (columns : List DimensionColumn) (p q : Placed) : Prop :=
  (p.1.isFlagged = true → q.1.isFlagged = true) ∧
    (p.1.isFlagged = q.1.isFlagged → Precedes (listedAt groups columns) p q)

/-- Columns of which those at some positions have been rolled up, and which then were put in order. -/
structure StablyOrdered (columns : List DimensionColumn) (groups : List (List String))
    (marked : List DimensionColumn) (placed : List Placed) : Prop where
  /-- Only rollup flags change. -/
  remarked : List.Forall₂ Remarked columns marked
  /-- Every key that a group names is that of a grouped column. -/
  named : ∀ key ∈ groups.flatten, (firstGrouped? columns key).isSome = true
  /-- The first grouped column under each of these keys is rolled up, and no other column. -/
  rolled : ∀ i, RolledAt marked i ↔ ∃ key ∈ groups.flatten, firstGrouped? columns key = some i
  /-- Every column is there once. -/
  perm : placed.Perm marked.zipIdx
  /-- The flagged columns stand last, and otherwise the columns stand as they are listed. -/
  sorted : placed.Pairwise (StandsBefore groups marked)
  /-- Between two members of a group there are only members of it. -/
  adjacent : ∀ front p between q back, placed = front ++ p :: (between ++ q :: back) →
    Together groups p.1 q.1 → ∀ c ∈ between, Together groups p.1 c.1

/-! ## Marks -/

theorem firstGrouped?_cons (d : DimensionColumn) (rest : List DimensionColumn) (key : String) :
    firstGrouped? (d :: rest) key =
      if d.key = key ∧ d.grouped = true then some 0 else (firstGrouped? rest key).map (· + 1) := by
  simp only [firstGrouped?, List.findIdx?_cons, decide_eq_true_eq]

theorem firstGrouped?_of_remarked {columns marked : List DimensionColumn}
    (h : List.Forall₂ Remarked columns marked) (key : String) :
    firstGrouped? marked key = firstGrouped? columns key := by
  induction h with
  | nil => rfl
  | cons hdm _ ih =>
    rw [firstGrouped?_cons, firstGrouped?_cons, ih, hdm]

@[simp] theorem rolledAt_zero (d : DimensionColumn) (rest : List DimensionColumn) :
    RolledAt (d :: rest) 0 ↔ d.rollup = true := by
  simp [RolledAt]

@[simp] theorem rolledAt_succ (d : DimensionColumn) (rest : List DimensionColumn) (i : Nat) :
    RolledAt (d :: rest) (i + 1) ↔ RolledAt rest i := by
  simp [RolledAt]

theorem not_rolledAt {columns : List DimensionColumn} (h : ∀ d ∈ columns, d.rollup = false) (i : Nat) :
    ¬ RolledAt columns i := by
  rintro ⟨d, hd, hrollup⟩
  rw [h d (List.mem_of_getElem? hd)] at hrollup
  cases hrollup

/-- A mark rolls up the first grouped column under its key, which was not rolled up before. -/
theorem rolledAt_of_mark {key : String} : ∀ {columns marked : List DimensionColumn},
    mark columns key = .ok marked → ∃ i, firstGrouped? columns key = some i ∧ ¬ RolledAt columns i ∧
      ∀ j, RolledAt marked j ↔ RolledAt columns j ∨ j = i := by
  intro columns
  induction columns with
  | nil =>
    intro marked h
    cases h
  | cons d rest ih =>
    intro marked h
    unfold mark at h
    rw [firstGrouped?_cons]
    split_ifs at h with hkey hrolled
    · cases h
      refine ⟨0, if_pos hkey, by simpa using hrolled, fun j => ?_⟩
      cases j <;> simp
    · simp only [bind_eq_ok, pure_eq_ok] at h
      obtain ⟨rest', hrest, rfl⟩ := h
      obtain ⟨i, hi, hnot, hall⟩ := ih hrest
      refine ⟨i + 1, by rw [if_neg hkey, hi]; rfl, by simpa using hnot, fun j => ?_⟩
      cases j with
      | zero => simp
      | succ j => simp [hall j]

/-- Marks roll up the first grouped column under each of their keys, and no key is marked twice. -/
theorem rolledAt_of_marks {keys : List String} : ∀ {columns marked : List DimensionColumn},
    keys.foldlM mark columns = .ok marked →
      (∀ key ∈ keys, ∃ i, firstGrouped? columns key = some i ∧ ¬ RolledAt columns i) ∧ keys.Nodup ∧
        ∀ j, RolledAt marked j ↔ RolledAt columns j ∨ ∃ key ∈ keys, firstGrouped? columns key = some j := by
  induction keys with
  | nil =>
    intro columns marked h
    rw [List.foldlM_nil, pure_eq_ok] at h
    subst h
    simp
  | cons key keys ih =>
    intro columns marked h
    rw [List.foldlM_cons, bind_eq_ok] at h
    obtain ⟨next, hmark, h⟩ := h
    obtain ⟨i, hi, hnot, hnext⟩ := rolledAt_of_mark hmark
    obtain ⟨hfree, hnodup, hrolled⟩ := ih h
    simp only [firstGrouped?_of_remarked (remarked_of_mark hmark)] at hfree hrolled
    refine ⟨List.forall_mem_cons.mpr ⟨⟨i, hi, hnot⟩, fun other hother => ?_⟩,
      List.nodup_cons.mpr ⟨fun hmem => ?_, hnodup⟩, fun j => ?_⟩
    · -- What is not rolled up after a mark was not before.
      obtain ⟨j, hj, hnotj⟩ := hfree other hother
      exact ⟨j, hj, fun hrolledj => hnotj ((hnext j).mpr (.inl hrolledj))⟩
    · obtain ⟨j, hj, hnotj⟩ := hfree key hmem
      obtain rfl : i = j := Option.some.inj (hi.symm.trans hj)
      exact hnotj ((hnext i).mpr (.inr rfl))
    · rw [hrolled, hnext, List.exists_mem_cons_iff, or_assoc, hi, Option.some.injEq, @eq_comm _ j i]

/-! ## Groups -/

section

variable {groups : List (List String)}

/-- Where no key is named twice, the group of a rolled up column is the one that names its key. -/
theorem groupOf?_eq_some_iff (hn : groups.flatten.Nodup) {d : DimensionColumn} {g : Nat} :
    groupOf? groups d = some g ↔ d.rollup = true ∧ ∃ keys, groups[g]? = some keys ∧ d.key ∈ keys := by
  unfold groupOf?
  split_ifs with hrollup
  · simp only [List.findIdx?_eq_some_iff_getElem, decide_eq_true_eq, hrollup, true_and]
    constructor
    · rintro ⟨hg, hmem, -⟩
      exact ⟨_, List.getElem?_eq_getElem hg, hmem⟩
    · rintro ⟨keys, hkeys, hmem⟩
      obtain ⟨hg, rfl⟩ := List.getElem?_eq_some_iff.mp hkeys
      refine ⟨hg, hmem, fun j hj hmemj => ?_⟩
      have hdisjoint := List.pairwise_iff_getElem.mp (List.nodup_flatten.mp hn).2 j g (Nat.lt_trans hj hg) hg hj
      exact hdisjoint hmemj hmem
  · simp [hrollup]

theorem together_iff (hn : groups.flatten.Nodup) {d e : DimensionColumn} :
    Together groups d e ↔ ∃ g, groupOf? groups d = some g ∧ groupOf? groups e = some g := by
  simp only [groupOf?_eq_some_iff hn]
  constructor
  · rintro ⟨hd, he, keys, hkeys, hdkeys, hekeys⟩
    obtain ⟨g, hg⟩ := List.mem_iff_getElem?.mp hkeys
    exact ⟨g, ⟨hd, keys, hg, hdkeys⟩, he, keys, hg, hekeys⟩
  · rintro ⟨g, ⟨hd, keys, hkeys, hdkeys⟩, he, keys', hkeys', hekeys⟩
    obtain rfl : keys = keys' := Option.some.inj (hkeys.symm.trans hkeys')
    exact ⟨hd, he, keys, List.mem_of_getElem? hkeys, hdkeys, hekeys⟩

/-! ## Places -/

/-- The function gives where each of the columns is listed: a column outside all groups at its own position, and
all members of a group at the position of the first of them. -/
structure Leads (groups : List (List String)) (ps : List Placed) (lead : Placed → Nat) : Prop where
  alone : ∀ p ∈ ps, groupOf? groups p.1 = none → lead p = p.2
  led : ∀ p ∈ ps, ∀ g, groupOf? groups p.1 = some g →
    ∃ q ∈ ps, groupOf? groups q.1 = some g ∧ lead p = q.2
  least : ∀ p ∈ ps, ∀ q ∈ ps, ∀ g, groupOf? groups p.1 = some g → groupOf? groups q.1 = some g → lead p ≤ q.2

variable {ps kept : List Placed} {lead : Placed → Nat}

/-- Columns are listed where they are listed among more columns, if these are of other groups. -/
theorem Leads.of_closed (h : Leads groups ps lead) (hsub : ∀ p ∈ kept, p ∈ ps)
    (hclosed : ∀ p ∈ kept, ∀ q ∈ ps, ∀ g, groupOf? groups p.1 = some g → groupOf? groups q.1 = some g →
      q ∈ kept) : Leads groups kept lead where
  alone p hp := h.alone p (hsub p hp)
  led p hp g hg := by
    obtain ⟨q, hq, hqg, hlead⟩ := h.led p (hsub p hp) g hg
    exact ⟨q, hclosed p hp q hq g hg hqg, hqg, hlead⟩
  least p hp q hq := h.least p (hsub p hp) q (hsub q hq)

/-- A column is listed at the position of one of the columns. -/
theorem Leads.exists_mem (h : Leads groups ps lead) {p : Placed} (hp : p ∈ ps) : ∃ q ∈ ps, lead p = q.2 := by
  cases hgroup : groupOf? groups p.1 with
  | none => exact ⟨p, hp, h.alone p hp hgroup⟩
  | some g =>
    obtain ⟨q, hq, -, hlead⟩ := h.led p hp g hgroup
    exact ⟨q, hq, hlead⟩

/-- Behind a column outside all groups the others are listed as before. -/
theorem Leads.tail {p : Placed} (h : Leads groups (p :: ps) lead) (hp : groupOf? groups p.1 = none) :
    Leads groups ps lead := by
  refine h.of_closed (fun q hq => List.mem_cons_of_mem _ hq) fun _ _ q hq g _ hqg => ?_
  rcases List.mem_cons.mp hq with rfl | hq
  · rw [hp] at hqg
    cases hqg
  · exact hq

/-- Without the group of the first column the others are listed as before. -/
theorem Leads.others {p : Placed} {g : Nat} (h : Leads groups (p :: ps) lead)
    (hp : groupOf? groups p.1 = some g) : Leads groups (ps.filter fun q => groupOf? groups q.1 != some g) lead := by
  refine h.of_closed (fun q hq => List.mem_cons_of_mem _ (List.mem_filter.mp hq).1)
    fun a ha q hq g' hag hqg => ?_
  have hne : groupOf? groups a.1 ≠ some g := by simpa using (List.mem_filter.mp ha).2
  rw [hag, ← hqg] at hne
  rcases List.mem_cons.mp hq with rfl | hq
  · exact absurd hp hne
  · exact List.mem_filter.mpr ⟨hq, by simpa using hne⟩

/-- The members of the first column's group are listed at the first column. -/
theorem Leads.eq_first {p m : Placed} {g : Nat} (h : Leads groups (p :: ps) lead)
    (hfirst : ∀ q ∈ ps, p.2 < q.2) (hp : groupOf? groups p.1 = some g) (hm : m ∈ p :: ps)
    (hmg : groupOf? groups m.1 = some g) : lead m = p.2 := by
  obtain ⟨q, hq, -, hlisted⟩ := h.led m hm g hmg
  have hle := h.least m hm p List.mem_cons_self g hmg hp
  have hge : p.2 ≤ q.2 := by
    rcases List.mem_cons.mp hq with rfl | hq
    · exact Nat.le_refl _
    · exact Nat.le_of_lt (hfirst q hq)
  omega

/-- Columns chosen with their positions are the chosen columns. -/
theorem map_fst_filter (f : DimensionColumn → Bool) (ps : List Placed) :
    (ps.filter fun p => f p.1).map Prod.fst = (ps.map Prod.fst).filter f := by
  rw [List.filter_map]
  rfl

theorem gather_alone {d : DimensionColumn} (h : groupOf? groups d = none) (rest : List DimensionColumn) :
    gather groups (d :: rest) = d :: gather groups rest := by
  rw [gather, runs_alone h]
  rfl

theorem gather_led {d : DimensionColumn} {g : Nat} (h : groupOf? groups d = some g)
    (rest : List DimensionColumn) : gather groups (d :: rest) =
      d :: rest.filter (groupOf? groups · == some g) ++
        gather groups (rest.filter (groupOf? groups · != some g)) := by
  rw [gather, runs_led h]
  rfl

/-- Gathering the members of the groups puts the columns where they are listed. -/
theorem exists_gathered (hascending : ps.Pairwise fun p q => p.2 < q.2) (hlead : Leads groups ps lead) :
    ∃ placed : List Placed, placed.map Prod.fst = gather groups (ps.map Prod.fst) ∧ placed.Perm ps ∧
      placed.Pairwise (Precedes lead) := by
  generalize hcolumns : ps.map Prod.fst = columns
  induction columns using runs_induction groups generalizing ps with
  | nil =>
    obtain rfl := List.map_eq_nil_iff.mp hcolumns
    exact ⟨[], by simp [gather, runs], .refl _, .nil⟩
  | alone d rest hgroup ih =>
    obtain ⟨p, ps, rfl, rfl, rfl⟩ := List.map_eq_cons_iff.mp hcolumns
    obtain ⟨hfirst, hrest⟩ := List.pairwise_cons.mp hascending
    have hothers : Leads groups ps lead := hlead.tail hgroup
    obtain ⟨placed, hmap, hperm, hsorted⟩ := ih hrest hothers rfl
    refine ⟨p :: placed, by rw [List.map_cons, hmap, gather_alone hgroup], hperm.cons p,
      List.pairwise_cons.mpr ⟨fun q hq => .inl ?_, hsorted⟩⟩
    obtain ⟨q', hq', hlisted⟩ := hothers.exists_mem (hperm.mem_iff.mp hq)
    rw [hlead.alone p List.mem_cons_self hgroup, hlisted]
    exact hfirst q' hq'
  | led d rest g hgroup ih =>
    obtain ⟨p, ps, rfl, rfl, rfl⟩ := List.map_eq_cons_iff.mp hcolumns
    obtain ⟨hfirst, hrest⟩ := List.pairwise_cons.mp hascending
    have hothers := hlead.others hgroup
    obtain ⟨placed, hmap, hperm, hsorted⟩ := ih (hrest.sublist List.filter_sublist) hothers
      (map_fst_filter (groupOf? groups · != some g) ps)
    have hsub : (p :: ps.filter fun q => groupOf? groups q.1 == some g).Sublist (p :: ps) :=
      List.filter_sublist.cons_cons p
    -- All members are listed at the first column, and all others after it.
    have hmembers : ∀ m ∈ p :: ps.filter (fun q => groupOf? groups q.1 == some g), lead m = p.2 := by
      intro m hm
      refine hlead.eq_first hfirst hgroup (hsub.mem hm) ?_
      rcases List.mem_cons.mp hm with rfl | hm
      · exact hgroup
      · simpa using (List.mem_filter.mp hm).2
    refine ⟨p :: ps.filter (fun q => groupOf? groups q.1 == some g) ++ placed, ?_, ?_,
      List.pairwise_append.mpr ⟨?_, hsorted, fun m hm q hq => .inl ?_⟩⟩
    · rw [List.map_append, List.map_cons, hmap, gather_led hgroup,
        map_fst_filter (groupOf? groups · == some g)]
    · exact ((hperm.append_left _).trans (List.filter_append_perm _ _)).cons p
    · refine (hascending.sublist hsub).imp_of_mem fun {a b} ha hb hab => .inr ⟨?_, hab⟩
      rw [hmembers a ha, hmembers b hb]
    · obtain ⟨q', hq', hlisted⟩ := hothers.exists_mem (hperm.mem_iff.mp hq)
      rw [hmembers m hm, hlisted]
      exact hfirst q' (List.mem_filter.mp hq').1

variable {columns : List DimensionColumn}

theorem listedAt_alone (hn : groups.flatten.Nodup) {p : Placed} (h : groupOf? groups p.1 = none) :
    listedAt groups columns p = p.2 := by
  have hnone : columns.findIdx? (fun e => decide (Together groups p.1 e)) = none :=
    List.findIdx?_eq_none_iff.mpr fun e _ => by simp [together_iff hn, h]
  rw [listedAt, hnone]
  rfl

/-- A member of a group is listed at the first member of the group. -/
theorem listedAt_led (hn : groups.flatten.Nodup) {p : Placed} (hp : columns[p.2]? = some p.1) {g : Nat}
    (h : groupOf? groups p.1 = some g) :
    (∃ e, columns[listedAt groups columns p]? = some e ∧ groupOf? groups e = some g) ∧
      ∀ (i : Nat) (e : DimensionColumn), columns[i]? = some e → groupOf? groups e = some g →
        listedAt groups columns p ≤ i := by
  have hmember : ∀ e, decide (Together groups p.1 e) = true ↔ groupOf? groups e = some g := by
    intro e
    simp [together_iff hn, h]
  cases hfind : columns.findIdx? (fun e => decide (Together groups p.1 e)) with
  | none =>
    have hself := List.findIdx?_eq_none_iff.mp hfind p.1 (List.mem_of_getElem? hp)
    rw [(hmember p.1).mpr h] at hself
    cases hself
  | some i =>
    obtain ⟨hi, htogether, hleast⟩ := List.findIdx?_eq_some_iff_getElem.mp hfind
    rw [listedAt, hfind, Option.getD_some]
    refine ⟨⟨columns[i], List.getElem?_eq_getElem hi, (hmember _).mp htogether⟩, fun j e hj he => ?_⟩
    by_contra hlt
    obtain ⟨hj', rfl⟩ := List.getElem?_eq_some_iff.mp hj
    exact hleast j (Nat.lt_of_not_le hlt) ((hmember _).mpr he)

theorem leads_listedAt (hn : groups.flatten.Nodup) (columns : List DimensionColumn) :
    Leads groups columns.zipIdx (listedAt groups columns) where
  alone p _ h := listedAt_alone hn h
  led p hp g h := by
    obtain ⟨⟨e, he, heg⟩, -⟩ := listedAt_led hn (List.mem_zipIdx_iff_getElem?.mp hp) h
    exact ⟨(e, _), List.mem_zipIdx_iff_getElem?.mpr he, heg, rfl⟩
  least p hp q hq g h hqg :=
    (listedAt_led hn (List.mem_zipIdx_iff_getElem?.mp hp) h).2 q.2 q.1 (List.mem_zipIdx_iff_getElem?.mp hq) hqg

theorem isFlagged_of_groupOf? {d : DimensionColumn} {g : Nat} (h : groupOf? groups d = some g) :
    d.isFlagged = true := by
  rw [DimensionColumn.isFlagged, rollup_of_groupOf? (by rw [h]; rfl), Bool.or_true]

/-- Positions ascend. -/
theorem pairwise_zipIdx (columns : List DimensionColumn) : columns.zipIdx.Pairwise fun p q => p.2 < q.2 := by
  have hpositions : (columns.zipIdx.map Prod.snd).Pairwise (· < ·) := by
    rw [List.zipIdx_map_snd]
    exact List.pairwise_lt_range'
  exact List.pairwise_map.mp hpositions

/-! ## Planned columns -/

/-- The columns that are not flagged, and then the flagged ones where they are listed. -/
theorem exists_ordered (hn : groups.flatten.Nodup) (columns : List DimensionColumn) :
    ∃ placed : List Placed, placed.map Prod.fst = gather groups (flaggedLast columns) ∧
      placed.Perm columns.zipIdx ∧ placed.Pairwise (StandsBefore groups columns) := by
  have hascending := pairwise_zipIdx columns
  have hplain : ∀ p ∈ columns.zipIdx.filter (fun p => !p.1.isFlagged), p.1.isFlagged = false := by
    intro p hp
    simpa using (List.mem_filter.mp hp).2
  have hflagged : Leads groups (columns.zipIdx.filter fun p => p.1.isFlagged) (listedAt groups columns) :=
    (leads_listedAt hn columns).of_closed (fun p hp => (List.mem_filter.mp hp).1)
      fun p _ q hq g _ hqg => List.mem_filter.mpr ⟨hq, isFlagged_of_groupOf? hqg⟩
  obtain ⟨placed, hmap, hperm, hsorted⟩ :=
    exists_gathered (hascending.sublist List.filter_sublist) hflagged
  have hplaced : ∀ p ∈ placed, p.1.isFlagged = true := fun p hp =>
    (List.mem_filter.mp (hperm.mem_iff.mp hp)).2
  refine ⟨columns.zipIdx.filter (fun p => !p.1.isFlagged) ++ placed, ?_, ?_,
    List.pairwise_append.mpr ⟨?_, ?_, fun p hp q hq => ⟨fun _ => hplaced q hq, fun hsame => ?_⟩⟩⟩
  · have halone : ∀ d ∈ columns.filter (!·.isFlagged), groupOf? groups d = none := fun d hd =>
      groupOf?_eq_none (by simpa using (List.mem_filter.mp hd).2)
    rw [flaggedLast, gather_append halone, List.map_append, hmap, map_fst_filter (!·.isFlagged),
      map_fst_filter (·.isFlagged), List.zipIdx_map_fst]
  · exact (hperm.append_left _).trans (List.perm_append_comm.trans (List.filter_append_perm _ _))
  · refine (hascending.sublist List.filter_sublist).imp_of_mem fun {p q} hp hq hpq => ?_
    have hp' := hplain p hp
    have hq' := hplain q hq
    refine ⟨fun hflag => ?_, fun _ => .inl ?_⟩
    · rw [hp'] at hflag
      cases hflag
    · rwa [listedAt_alone hn (groupOf?_eq_none hp'), listedAt_alone hn (groupOf?_eq_none hq')]
  · exact hsorted.imp_of_mem fun {p q} _ hq hpq => ⟨fun _ => hplaced q hq, fun _ => hpq⟩
  · rw [hplain p hp, hplaced q hq] at hsame
    cases hsame

theorem Precedes.le {lead : Placed → Nat} {p q : Placed} (h : Precedes lead p q) : lead p ≤ lead q :=
  h.elim Nat.le_of_lt fun hsame => Nat.le_of_eq hsame.1

/-- A column that is listed where a member of a group is listed is a member of it. -/
theorem together_of_listedAt_eq (hn : groups.flatten.Nodup) {p c : Placed} (hp : columns[p.2]? = some p.1)
    (hc : columns[c.2]? = some c.1) {g : Nat} (hpg : groupOf? groups p.1 = some g)
    (hsame : listedAt groups columns c = listedAt groups columns p) : Together groups p.1 c.1 := by
  obtain ⟨⟨e, he, heg⟩, -⟩ := listedAt_led hn hp hpg
  rw [← hsame] at he
  refine (together_iff hn).mpr ⟨g, hpg, ?_⟩
  cases hgroup : groupOf? groups c.1 with
  | none =>
    rw [listedAt_alone hn hgroup, hc] at he
    obtain rfl := Option.some.inj he
    exact hgroup.symm.trans heg
  | some g' =>
    obtain ⟨⟨e', he', heg'⟩, -⟩ := listedAt_led hn hc hgroup
    obtain rfl := Option.some.inj (he.symm.trans he')
    exact heg'.symm.trans heg

/-- Where columns stand as they are listed, the members of a group stand next to each other. -/
theorem adjacent_of_sorted (hn : groups.flatten.Nodup) {between back : List Placed} {p q : Placed}
    (hmem : ∀ c ∈ p :: (between ++ q :: back), columns[c.2]? = some c.1)
    (hsorted : (p :: (between ++ q :: back)).Pairwise (StandsBefore groups columns))
    (htogether : Together groups p.1 q.1) : ∀ c ∈ between, Together groups p.1 c.1 := by
  intro c hc
  obtain ⟨hfirst, hrest⟩ := List.pairwise_cons.mp hsorted
  have hpc := hfirst c (List.mem_append_left _ hc)
  have hcq := (List.pairwise_append.mp hrest).2.2 c hc q List.mem_cons_self
  obtain ⟨g, hpg, hqg⟩ := (together_iff hn).mp htogether
  have hpflag := isFlagged_of_groupOf? hpg
  have hcflag := hpc.1 hpflag
  have hqflag := hcq.1 hcflag
  have hp : columns[p.2]? = some p.1 := hmem p List.mem_cons_self
  have hq : columns[q.2]? = some q.1 := hmem q (by simp)
  have hpc' := (hpc.2 (hpflag.trans hcflag.symm)).le
  have hcq' := (hcq.2 (hcflag.trans hqflag.symm)).le
  -- Both members are listed at the first one, so what stands between them is listed there as well.
  have hqp : listedAt groups columns q ≤ listedAt groups columns p := by
    obtain ⟨⟨e, he, heg⟩, -⟩ := listedAt_led hn hp hpg
    exact (listedAt_led hn hq hqg).2 _ e he heg
  exact together_of_listedAt_eq hn hp (hmem c (by simp [hc])) hpg (by omega)

end

/-- Planning the rollup groups over columns that are not rolled up yet rolls up the first grouped column under
each key that a group names, and otherwise only reorders the columns: stably, the flagged ones last, and the
members of a group at the first of them. -/
theorem stablyOrdered_of_ofRollup {columns : List DimensionColumn} {rollup : List RollupGroup} {g : Grouping}
    (h : ofRollup columns rollup = .ok g) (hnone : ∀ d ∈ columns, d.rollup = false) :
    ∃ marked placed, g.columns = placed.map Prod.fst ∧
      StablyOrdered columns (rollup.map RollupGroup.keys) marked placed := by
  simp only [ofRollup, bind_eq_ok, pure_eq_ok, foldlM_markGroup] at h
  obtain ⟨marked, ⟨-, hmarks⟩, rfl⟩ := h
  obtain ⟨hfree, hnodup, hrolled⟩ := rolledAt_of_marks hmarks
  rw [List.flatMap_def] at hfree hnodup hrolled
  obtain ⟨placed, hmap, hperm, hsorted⟩ := exists_ordered hnodup marked
  refine ⟨marked, placed, hmap.symm, remarked_of_marks hmarks, fun key hkey => ?_, fun i => ?_, hperm, hsorted,
    fun front p between q back hplaced => ?_⟩
  · obtain ⟨i, hi, -⟩ := hfree key hkey
    rw [hi]
    rfl
  · rw [hrolled, or_iff_right (not_rolledAt hnone i)]
  · rw [hplaced] at hsorted hperm
    exact adjacent_of_sorted hnodup
      (fun c hc => List.mem_zipIdx_iff_getElem?.mp (hperm.mem_iff.mp (List.mem_append_right _ hc)))
      (List.pairwise_append.mp hsorted).2.1

/-- Columns under repeated keys: the first city is computed from aggregates, and the day is totalled. -/
def cityColumns : List DimensionColumn := [
  ⟨"city", .text, .column none "town", false, false, false⟩,
  ⟨"country", .text, .column none "country", false, false, true⟩,
  ⟨"day", .date, .column none "day", true, false, true⟩,
  ⟨"city", .text, .column none "city", false, false, true⟩,
  ⟨"city", .text, .column none "place", false, false, true⟩,
  ⟨"device", .text, .column none "device", false, false, true⟩]

theorem stablyOrdered_cityColumns :
    (∀ d ∈ cityColumns, d.rollup = false) ∧
      ∃ g, ofRollup cityColumns [.single "device", .composite ["city", "country"]] = .ok g ∧
        g.keys = ["city", "city", "country", "city", "day", "device"] ∧
        g.rollupKeys = ["country", "city", "device"] ∧
        ∃ marked placed, g.columns = placed.map Prod.fst ∧
          StablyOrdered cityColumns [["device"], ["city", "country"]] marked placed := by
  have hnone : ∀ d ∈ cityColumns, d.rollup = false := by decide
  have hkeys : (ofRollup cityColumns [.single "device", .composite ["city", "country"]]).toOption.map
      (fun g => (g.keys, g.rollupKeys)) =
      some (["city", "city", "country", "city", "day", "device"], ["country", "city", "device"]) := by
    decide +kernel
  obtain ⟨g, hg, hkeys⟩ := exists_of_map_toOption hkeys
  obtain ⟨hall, hrolled⟩ := Prod.mk.inj hkeys
  exact ⟨hnone, g, hg, hall, hrolled, stablyOrdered_of_ofRollup hg hnone⟩

end CubeSql.Grouping
