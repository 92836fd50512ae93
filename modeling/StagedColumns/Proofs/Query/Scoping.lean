import StagedColumns.Proofs.Query.Merge
import StagedColumns.Proofs.Text.Split

/-!
# Scopes

The parts of a fragment are texts, and what a text refers to is read off it as a database would read
it: a name without a point is a column of the main table, a name with a point a column of the table
under the alias before it. Tables are well scoped if each of them is joined by an equality between
one of its own columns and a column of the main table or of a table that comes strictly before. The
order matters here: a table whose join refers to a later one is an error in every database.

Tables that are added one after the other are well scoped (`Tables.WellScoped.add`), and merging
keeps readings well scoped where readings that are not the same have no alias in common
(`Reading.Apart.wellScoped_mergeAll`).
-/

set_option autoImplicit false

namespace StagedColumns

/-! ### References -/

/-- What a name in a query refers to. -/
inductive Reference
  /-- A column of the main table. -/
  | main (column : String)
  /-- A column of the table that is added under an alias. -/
  | joined (shortName column : String)
deriving DecidableEq

/-- What the text refers to, if it is a name with at most one point. -/
def reference? (text : String) : Option Reference :=
  match Text.splitOn '.' text.toList with
  | [column] => some (.main (.ofList column))
  | [shortName, column] => some (.joined (.ofList shortName) (.ofList column))
  | _ => none

/-- There is no point in the name. -/
def PointFree (name : String) : Prop :=
  '.' ∉ name.toList

instance (name : String) : Decidable (PointFree name) :=
  inferInstanceAs (Decidable ('.' ∉ name.toList))

theorem PointFree.append {front back : String} (hfront : PointFree front) (hback : PointFree back) :
    PointFree (front ++ back) := by
  intro h
  rw [String.toList_append] at h
  exact (List.mem_append.mp h).elim hfront hback

theorem PointFree.of_append_left {front back : String} (h : PointFree (front ++ back)) :
    PointFree front := by
  intro hpoint
  refine h ?_
  rw [String.toList_append]
  exact List.mem_append_left _ hpoint

theorem reference?_column {name : String} (hname : PointFree name) :
    reference? (Expression.column name).render = some (.main name) := by
  have hparts : Text.splitOn '.' name.toList = [name.toList] := by
    rw [Text.splitOn_eq, List.splitOn_eq_singleton hname]
  rw [Expression.render, reference?, hparts]
  simp only [String.ofList_toList]

theorem reference?_qualified {shortName column : String} (hshort : PointFree shortName)
    (hcolumn : PointFree column) :
    reference? (Expression.qualified shortName column).render =
      some (.joined shortName column) := by
  have hchars : (Expression.qualified shortName column).render.toList =
      shortName.toList ++ '.' :: column.toList := by
    simp [Expression.render, String.toList_append]
  have hparts : Text.splitOn '.' (shortName.toList ++ '.' :: column.toList) =
      [shortName.toList, column.toList] := by
    rw [Text.splitOn_eq, List.splitOn_append_cons_self, List.splitOn_eq_singleton hshort,
      List.splitOn_eq_singleton hcolumn]
    rfl
  rw [reference?, hchars, hparts]
  simp only [String.ofList_toList]

/-- The text refers to a column of the main table or of a table under one of the aliases. -/
def RefersWithin (shortNames : List String) (text : String) : Prop :=
  (∃ column, reference? text = some (.main column)) ∨
    ∃ shortName ∈ shortNames, ∃ column, reference? text = some (.joined shortName column)

theorem RefersWithin.mono {shortNames more : List String} {text : String}
    (h : RefersWithin shortNames text) (hmore : shortNames ⊆ more) : RefersWithin more text := by
  rcases h with hmain | ⟨shortName, hmem, hjoined⟩
  · exact .inl hmain
  · exact .inr ⟨shortName, hmore hmem, hjoined⟩

theorem refersWithin_column {name : String} (hname : PointFree name) (shortNames : List String) :
    RefersWithin shortNames (Expression.column name).render :=
  .inl ⟨name, reference?_column hname⟩

theorem refersWithin_qualified {shortName column : String} {shortNames : List String}
    (hmem : shortName ∈ shortNames) (hshort : PointFree shortName) (hcolumn : PointFree column) :
    RefersWithin shortNames (Expression.qualified shortName column).render :=
  .inr ⟨shortName, hmem, column, reference?_qualified hshort hcolumn⟩

/-! ### Tables -/

/-- The join ties a table under the alias to the main table or to a table under one of the earlier
aliases, by an equality with a column of its own. -/
def Join.TiesTo (join : Join) (shortName : String) (earlier : List String) : Prop :=
  ∃ left right column, join.tie.render = left ++ " = " ++ right ∧
    reference? left = some (.joined shortName column) ∧ RefersWithin earlier right

theorem tiesTo_inner {shortName column : String} (hshort : PointFree shortName)
    (hcolumn : PointFree column) {right : Expression} {earlier : List String}
    (hright : RefersWithin earlier right.render) :
    (Join.inner (.qualified shortName column) right).TiesTo shortName earlier :=
  ⟨_, _, column, rfl, reference?_qualified hshort hcolumn, hright⟩

/-- The tables and their joins stand under the same aliases in the same order, and each table is
tied to what is there before it. -/
structure Tables.WellScoped (t : Tables) : Prop where
  joined : t.joins.names = t.tables.names
  tied {earlier later : List String} {shortName : String} :
    t.tables.names = earlier ++ shortName :: later →
      ∃ join, t.joins.get? shortName = some join ∧ join.TiesTo shortName earlier

namespace Tables

theorem wellScoped_empty : empty.WellScoped := by
  refine ⟨rfl, fun {earlier later shortName} h ↦ ?_⟩
  have hnil : [] = earlier ++ shortName :: later := h
  simp at hnil

/-- A table under a new alias may be tied to those that are there. -/
theorem WellScoped.add {t : Tables} (h : t.WellScoped) {shortName : String}
    (hfresh : shortName ∉ t.tables.names) (table : String) {join : Join}
    (hjoin : join.TiesTo shortName t.tables.names) : (t.add shortName table join).WellScoped := by
  have htables : (t.add shortName table join).tables.names = t.tables.names ++ [shortName] :=
    t.tables.names_put_of_fresh hfresh table
  have hjoins : (t.add shortName table join).joins.names = t.joins.names ++ [shortName] :=
    t.joins.names_put_of_fresh (h.joined ▸ hfresh) join
  refine ⟨by rw [hjoins, htables, h.joined], fun {earlier later name} hsplit ↦ ?_⟩
  rw [htables] at hsplit
  -- the alias is the new one, or one of those before it
  rcases List.eq_nil_or_concat later with rfl | ⟨between, last, rfl⟩
  · obtain ⟨rfl, heq⟩ := List.append_inj' hsplit rfl
    obtain rfl := List.singleton_inj.mp heq
    exact ⟨join, OrderedMap.get?_put_self _ _ _, hjoin⟩
  · have hbefore : t.tables.names ++ [shortName] = (earlier ++ name :: between) ++ [last] := by
      simpa using hsplit
    obtain ⟨hnames, -⟩ := List.append_inj' hbefore rfl
    obtain ⟨kept, hkept, hties⟩ := h.tied hnames
    refine ⟨kept, ?_, hties⟩
    have hne : name ≠ shortName := by
      rintro rfl
      exact hfresh (hnames ▸ List.mem_append_right earlier List.mem_cons_self)
    rw [Tables.add, OrderedMap.get?_put, if_neg hne, hkept]

/-- The text that adds the tables one by one, each by the join at its own place. -/
def renderJoins (t : Tables) : String :=
  " ".intercalate (List.zipWith
    (fun table join ↦
      join.2.kind ++ " " ++ table.2 ++ " " ++ table.1 ++ " ON " ++ join.2.tie.render)
    t.tables.entries t.joins.entries)

/-- Every table is added by its join, and none by a comma. -/
theorem WellScoped.render_eq {t : Tables} (h : t.WellScoped) : t.render = t.renderJoins := by
  have hlength : t.tables.entries.length = t.joins.entries.length := by
    simpa [OrderedMap.names] using congrArg List.length h.joined.symm
  rw [render, renderJoins]
  congr 1
  refine List.ext_getElem (by simp [hlength]) fun i hi hi' ↦ ?_
  simp only [List.length_map] at hi
  have hname : t.joins.entries[i].1 = t.tables.entries[i].1 := by
    simpa [OrderedMap.names] using List.getElem_of_eq h.joined (i := i)
      (by simpa [OrderedMap.names] using hlength ▸ hi)
  have hjoin : t.joins.get? t.tables.entries[i].1 = some t.joins.entries[i].2 :=
    hname ▸ (OrderedMap.get?_eq_some_iff_mem _ _ _).mpr (List.getElem_mem _)
  rw [List.getElem_map, List.getElem_zipWith, renderTable, hjoin]

end Tables

/-! ### Readings -/

/-- The tables are well scoped, and each output refers to what is there, if to anything. -/
structure Reading.WellScoped (r : Reading) : Prop where
  source : r.source.WellScoped
  outputs {name : String} {e : Expression} : r.outputs.get? name = some e →
    e = .null ∨ RefersWithin r.source.tables.names e.render

/-- A place in lists that stand one after the other is a place in one of them. -/
theorem exists_of_flatMap_eq {α β : Type} {l : List α} {f : α → List β} {front back : List β}
    {b : β} (h : l.flatMap f = front ++ b :: back) :
    ∃ a ∈ l, ∃ before inner after, f a = inner ++ b :: after ∧ front = before ++ inner := by
  induction l generalizing front with
  | nil => simp at h
  | cons a rest ih =>
    rw [List.flatMap_cons, List.append_eq_append_iff] at h
    rcases h with ⟨inner, rfl, hrest⟩ | ⟨inner, ha, hback⟩
    · obtain ⟨c, hc, before, inside, after, heq, rfl⟩ := ih hrest
      exact ⟨c, List.mem_cons_of_mem a hc, f a ++ before, inside, after, heq,
        (List.append_assoc _ _ _).symm⟩
    · cases inner with
      | nil =>
        have hnext : rest.flatMap f = [] ++ b :: back := hback.symm
        obtain ⟨c, hc, before, inside, after, heq, hnone⟩ := ih hnext
        refine ⟨c, List.mem_cons_of_mem a hc, f a ++ before, inside, after, heq, ?_⟩
        rw [List.append_assoc, ← hnone, ha]
        simp
      | cons first after =>
        cases hback
        exact ⟨a, List.mem_cons_self, [], front, after, ha, rfl⟩

namespace Reading

variable {ι : Type} {l : List ι} {own : ι → Reading}

theorem Apart.names_tables_mergeAll [BEq ι] [LawfulBEq ι] (h : Apart l own) :
    (mergeAll (l.map own)).source.tables.names =
      l.eraseDups.flatMap fun a ↦ (own a).source.tables.names := by
  rw [tables_mergeAll, List.map_map]
  exact OrderedMap.names_mergeAll_of_apart fun a ha b hb _ ↦ h.eq_of_alias ha hb

theorem Apart.names_joins_mergeAll [BEq ι] [LawfulBEq ι] (h : Apart l own) :
    (mergeAll (l.map own)).source.joins.names =
      l.eraseDups.flatMap fun a ↦ (own a).source.joins.names := by
  rw [joins_mergeAll, List.map_map]
  refine OrderedMap.names_mergeAll_of_apart fun a ha b hb name hna hnb ↦ ?_
  exact h.eq_of_alias ha hb (h.joined ha ▸ hna) (h.joined hb ▸ hnb)

/-- What comes before an alias in its own reading comes before it in the merged one. -/
theorem Apart.wellScoped_mergeAll [BEq ι] [LawfulBEq ι] (h : Apart l own)
    (hown : ∀ a ∈ l, (own a).WellScoped) : (mergeAll (l.map own)).WellScoped := by
  have htables := h.names_tables_mergeAll
  refine ⟨⟨?_, fun {earlier later shortName} hsplit ↦ ?_⟩, fun {name e} he ↦ ?_⟩
  · rw [htables, h.names_joins_mergeAll]
    exact List.flatMap_congr fun a ha ↦ h.joined (List.mem_eraseDups.mp ha)
  · rw [htables] at hsplit
    obtain ⟨a, ha, before, inner, after, hnames, rfl⟩ := exists_of_flatMap_eq hsplit
    have ha := List.mem_eraseDups.mp ha
    obtain ⟨join, hjoin, left, right, column, htie, hleft, hright⟩ := (hown a ha).source.tied hnames
    obtain ⟨table, htable⟩ := Option.isSome_iff_exists.mp ((OrderedMap.mem_names_iff _ _).mp
      (hnames ▸ List.mem_append_right inner (List.mem_cons_self (a := shortName))))
    obtain ⟨other, hother, -, hmerged⟩ := h.exists_join ha htable
    obtain rfl : join = other := Option.some.inj (hjoin.symm.trans hother)
    exact ⟨join, hmerged, left, right, column, htie, hleft,
      hright.mono (List.subset_append_right before inner)⟩
  · rw [outputs_mergeAll, List.map_map] at he
    obtain ⟨front, a, back, rfl, hvalue, -⟩ := (OrderedMap.get?_mergeAll_eq_some_iff name e).mp he
    have ha : a ∈ front ++ a :: back := List.mem_append_right front List.mem_cons_self
    rcases (hown a ha).outputs hvalue with hnull | hrefers
    · exact .inl hnull
    · refine .inr (hrefers.mono fun shortName hname ↦ ?_)
      rw [htables]
      exact List.mem_flatMap.mpr ⟨a, List.mem_eraseDups.mpr ha, hname⟩

end Reading

end StagedColumns
