import StagedColumns.Proofs.OrderedMap
import StagedColumns.Query.Fragment

/-!
# Merged readings

Merging readings merges their tables, their joins and their outputs, each as maps. Where readings
that are not the same have no alias in common, the text that adds the merged tables is made of the
texts of the readings, each where the reading first occurs.
-/

set_option autoImplicit false

namespace StagedColumns

variable {ι : Type} {l : List ι}

/-! ### Texts -/

theorem intercalate_eq_empty_iff {texts : List String} (htexts : ∀ text ∈ texts, text ≠ "") :
    " ".intercalate texts = "" ↔ texts = [] := by
  cases texts with
  | nil => simp
  | cons text rest =>
    have htext : text ≠ "" := htexts text List.mem_cons_self
    cases rest <;> simp [String.append_eq_empty_iff, htext]

/-- Texts that stand between blanks can be grouped, where groups without texts are left out. -/
theorem intercalate_flatMap {texts : ι → List String}
    (htexts : ∀ a ∈ l, ∀ text ∈ texts a, text ≠ "") :
    " ".intercalate (l.flatMap texts) =
      " ".intercalate ((l.map fun a ↦ " ".intercalate (texts a)).filter (· ≠ "")) := by
  induction l with
  | nil => rfl
  | cons a rest ih =>
    have hrest : ∀ text ∈ rest.flatMap texts, text ≠ "" := by
      intro text htext
      obtain ⟨b, hb, htext⟩ := List.mem_flatMap.mp htext
      exact htexts b (List.mem_cons_of_mem a hb) text htext
    have ih := ih fun b hb ↦ htexts b (List.mem_cons_of_mem a hb)
    generalize hgroups : (rest.map fun b ↦ " ".intercalate (texts b)).filter (· ≠ "") = groups at ih
    have hnone : rest.flatMap texts = [] ↔ groups = [] := by
      have hgroup : ∀ text ∈ groups, text ≠ "" := by
        intro text htext
        rw [← hgroups] at htext
        simpa using (List.mem_filter.mp htext).2
      rw [← intercalate_eq_empty_iff hrest, ← intercalate_eq_empty_iff hgroup, ih]
    have hfirst := intercalate_eq_empty_iff (htexts a List.mem_cons_self)
    rw [List.flatMap_cons, List.map_cons]
    -- a blank stands between the first group and the others only if there are texts on both sides
    by_cases ha : texts a = []
    · rw [List.filter_cons_of_neg (by simp [ha]), hgroups, ha, List.nil_append, ih]
    · rw [List.filter_cons_of_pos (by simpa using mt hfirst.mp ha), hgroups]
      by_cases hlast : groups = []
      · rw [hlast, hnone.mpr hlast, List.append_nil, String.intercalate_singleton]
      · rw [String.intercalate_append_of_ne_nil ha (mt hnone.mp hlast), ih,
          String.intercalate_cons_of_ne_nil hlast]

theorem Tables.renderTable_ne_empty (t : Tables) (shortName table : String) :
    t.renderTable shortName table ≠ "" := by
  unfold renderTable
  split <;> simp [String.append_eq_empty_iff]

/-- The aliases that tables or their joins stand under. -/
def Tables.aliases (t : Tables) : List String :=
  t.tables.names ++ t.joins.names

/-- The text of tables that are merged and have no alias in common is made of both texts. -/
theorem Tables.render_merge {t later : Tables} (h : List.Disjoint t.aliases later.aliases) :
    (t.merge later).render = " ".intercalate ([t.render, later.render].filter (· ≠ "")) := by
  have htables : List.Disjoint t.tables.names later.tables.names := fun _ hname hlater ↦
    h (List.mem_append_left _ hname) (List.mem_append_left _ hlater)
  have hfront : ∀ entry ∈ t.tables.entries,
      (t.merge later).renderTable entry.1 entry.2 = t.renderTable entry.1 entry.2 := by
    intro entry hentry
    have hjoin : later.joins.get? entry.1 = none :=
      (OrderedMap.get?_eq_none_iff _ _).mpr fun hlater ↦
        h (List.mem_append_left _ (List.mem_map_of_mem hentry)) (List.mem_append_right _ hlater)
    rw [renderTable, renderTable, merge, OrderedMap.get?_merge, hjoin, Option.none_or]
  have hback : ∀ entry ∈ later.tables.entries,
      (t.merge later).renderTable entry.1 entry.2 = later.renderTable entry.1 entry.2 := by
    intro entry hentry
    have hjoin : t.joins.get? entry.1 = none :=
      (OrderedMap.get?_eq_none_iff _ _).mpr fun hname ↦
        h (List.mem_append_right _ hname) (List.mem_append_left _ (List.mem_map_of_mem hentry))
    rw [renderTable, renderTable, merge, OrderedMap.get?_merge, hjoin, Option.or_none]
  have hentries : (t.merge later).tables.entries = t.tables.entries ++ later.tables.entries :=
    OrderedMap.entries_merge_of_disjoint htables
  have htexts : ((t.merge later).tables.entries.map fun entry ↦
      (t.merge later).renderTable entry.1 entry.2) =
        [t, later].flatMap fun part ↦ part.tables.entries.map fun entry ↦
          part.renderTable entry.1 entry.2 := by
    rw [hentries, List.map_append, List.map_congr_left hfront, List.map_congr_left hback]
    simp
  rw [render, htexts]
  refine intercalate_flatMap fun part _ text htext ↦ ?_
  obtain ⟨entry, -, rfl⟩ := List.mem_map.mp htext
  exact renderTable_ne_empty _ _ _

/-! ### The laws of merging -/

namespace Reading

theorem empty_merge (r : Reading) : empty.merge r = r := by
  rw [merge, Tables.merge, empty, Tables.empty, OrderedMap.empty_merge, OrderedMap.empty_merge,
    OrderedMap.empty_merge]

theorem merge_empty (r : Reading) : r.merge empty = r :=
  rfl

theorem merge_self (r : Reading) : r.merge r = r := by
  rw [merge, Tables.merge, OrderedMap.merge_self, OrderedMap.merge_self, OrderedMap.merge_self]

theorem merge_assoc (r later last : Reading) :
    (r.merge later).merge last = r.merge (later.merge last) := by
  simp only [merge, Tables.merge, OrderedMap.merge_assoc]

/-- Nothing is lost if merging starts with the first reading. -/
theorem mergeAll_cons (r : Reading) (rest : List Reading) :
    mergeAll (r :: rest) = rest.foldl merge r := by
  rw [mergeAll, List.foldl_cons, empty_merge]

/-- Readings in a row can be merged in two groups. -/
theorem mergeAll_append (front back : List Reading) :
    mergeAll (front ++ back) = (mergeAll front).merge (mergeAll back) := by
  induction back using List.reverseRecOn with
  | nil => rw [List.append_nil]; rfl
  | append_singleton back r ih =>
    have hlast (readings : List Reading) :
        mergeAll (readings ++ [r]) = (mergeAll readings).merge r := by
      rw [mergeAll, List.foldl_append]
      rfl
    rw [← List.append_assoc, hlast, hlast, ih, merge_assoc]

/-! ### The parts of a merged reading -/

/-- A part of readings that is merged where they are. -/
theorem part_mergeAll {α : Type} (part : Reading → OrderedMap α) (hempty : part empty = .empty)
    (hmerge : ∀ r later, part (r.merge later) = (part r).merge (part later))
    (readings : List Reading) : part (mergeAll readings) = .mergeAll (readings.map part) := by
  rw [mergeAll, OrderedMap.mergeAll, List.foldl_map, ← hempty]
  exact (List.foldl_hom part fun r later ↦ (hmerge r later).symm).symm

theorem outputs_mergeAll (readings : List Reading) :
    (mergeAll readings).outputs = .mergeAll (readings.map outputs) :=
  part_mergeAll outputs rfl (fun _ _ ↦ rfl) readings

theorem tables_mergeAll (readings : List Reading) :
    (mergeAll readings).source.tables = .mergeAll (readings.map (·.source.tables)) :=
  part_mergeAll (·.source.tables) rfl (fun _ _ ↦ rfl) readings

theorem joins_mergeAll (readings : List Reading) :
    (mergeAll readings).source.joins = .mergeAll (readings.map (·.source.joins)) :=
  part_mergeAll (·.source.joins) rfl (fun _ _ ↦ rfl) readings

section Apart

variable {own : ι → Reading}

/-- The readings join the tables that they add, and no two of them have an alias in common. -/
structure Apart (l : List ι) (own : ι → Reading) : Prop where
  joined {a : ι} : a ∈ l → (own a).source.joins.names = (own a).source.tables.names
  eq_of_alias {a b : ι} {shortName : String} : a ∈ l → b ∈ l →
    shortName ∈ (own a).source.tables.names → shortName ∈ (own b).source.tables.names → a = b

/-- Each table that a reading adds is there after the merge, with its join. -/
theorem Apart.exists_join (h : Apart l own) {a : ι} (ha : a ∈ l) {shortName table : String}
    (htable : (own a).source.tables.get? shortName = some table) :
    ∃ join, (own a).source.joins.get? shortName = some join ∧
      (mergeAll (l.map own)).source.tables.get? shortName = some table ∧
      (mergeAll (l.map own)).source.joins.get? shortName = some join := by
  have hname : shortName ∈ (own a).source.joins.names := by
    rw [h.joined ha, OrderedMap.mem_names_iff, htable]
    rfl
  obtain ⟨join, hjoin⟩ := Option.isSome_iff_exists.mp ((OrderedMap.mem_names_iff _ _).mp hname)
  refine ⟨join, hjoin, ?_, ?_⟩
  · rw [tables_mergeAll, List.map_map]
    exact OrderedMap.get?_mergeAll_of_apart (fun a ha b hb _ ↦ h.eq_of_alias ha hb) ha htable
  · rw [joins_mergeAll, List.map_map]
    refine OrderedMap.get?_mergeAll_of_apart (fun a ha b hb name hna hnb ↦ ?_) ha hjoin
    exact h.eq_of_alias ha hb (h.joined ha ▸ hna) (h.joined hb ▸ hnb)

theorem Apart.renderTable_eq (h : Apart l own) {a : ι} (ha : a ∈ l) {shortName table : String}
    (htable : (own a).source.tables.get? shortName = some table) :
    (mergeAll (l.map own)).source.renderTable shortName table =
      (own a).source.renderTable shortName table := by
  obtain ⟨join, hown, -, hmerged⟩ := h.exists_join ha htable
  rw [Tables.renderTable, Tables.renderTable, hown, hmerged]

/-- The text that adds the merged tables is that of each reading, where it first occurs. -/
theorem Apart.render_mergeAll [BEq ι] [LawfulBEq ι] (h : Apart l own) :
    (mergeAll (l.map own)).source.render =
      " ".intercalate ((l.eraseDups.map fun a ↦ (own a).source.render).filter (· ≠ "")) := by
  have hentries : (mergeAll (l.map own)).source.tables.entries =
      l.eraseDups.flatMap fun a ↦ (own a).source.tables.entries := by
    rw [tables_mergeAll, List.map_map]
    exact OrderedMap.entries_mergeAll_of_apart fun a ha b hb _ ↦ h.eq_of_alias ha hb
  have hparts : ((mergeAll (l.map own)).source.tables.entries.map fun entry ↦
      (mergeAll (l.map own)).source.renderTable entry.1 entry.2) =
        l.eraseDups.flatMap fun a ↦ (own a).source.tables.entries.map fun entry ↦
          (own a).source.renderTable entry.1 entry.2 := by
    rw [hentries, List.map_flatMap]
    refine List.flatMap_congr fun a ha ↦ List.map_congr_left fun entry hentry ↦ ?_
    exact h.renderTable_eq (List.mem_eraseDups.mp ha)
      ((OrderedMap.get?_eq_some_iff_mem _ _ _).mpr hentry)
  rw [Tables.render, hparts]
  refine intercalate_flatMap fun a _ text htext ↦ ?_
  obtain ⟨entry, -, rfl⟩ := List.mem_map.mp htext
  exact Tables.renderTable_ne_empty _ _ _

end Apart

end Reading

end StagedColumns
