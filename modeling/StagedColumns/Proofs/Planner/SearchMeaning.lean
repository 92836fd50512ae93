import StagedColumns.Proofs.Field.DefaultNames
import StagedColumns.Proofs.Planner.Search
import StagedColumns.Rehearsal

/-!
# The meaning of a search

A search is given by texts, and here they are read back as a database reads them. Each alternative
is one test of one column, and its literals are the values of one bucket, without repetitions and in
the order in which they first came up; no name can make more or less of it. The condition holds
where one of the alternatives does, and with no alternative at all it holds nowhere and adds no
tables.
-/

set_option autoImplicit false

namespace StagedColumns.Planner

open Sql

variable {ω : Type}

theorem actorsOf_of_positive {found : User → Option Int} {users : List User}
    (hpositive : ∀ u ∈ users, ∀ actor, found u = some actor → 0 < actor) :
    actorsOf found users = users.filterMap found := by
  induction users with
  | nil => rfl
  | cons u rest ih =>
    have hrest := ih fun v hv ↦ hpositive v (List.mem_cons_of_mem _ hv)
    unfold actorsOf at hrest ⊢
    rw [List.filterMap_cons, List.filterMap_cons, hrest]
    cases h : found u with
    | none => rfl
    | some actor =>
      have hactor := hpositive u List.mem_cons_self actor h
      rw [Option.filter_some_pos (by simpa using Int.ne_of_gt hactor)]

theorem soughtIds_add_soughtNames (includeIds : Bool) (u : User) :
    (soughtIds includeIds [u]).length + (soughtNames includeIds [u]).length = 1 := by
  rw [soughtIds_eq, soughtNames_eq]
  cases h : byId includeIds u <;> simp [h]

theorem bucketConditions_eq_nil_iff (buckets : List Bucket) :
    bucketConditions buckets = [] ↔ ∀ b ∈ buckets, b.values = [] := by
  simp [bucketConditions, List.filter_eq_nil_iff]

theorem Written.eq_nil_iff {d : Dialect} {buckets : List Bucket}
    {alternatives : List (String × String)} (h : Written d buckets alternatives) :
    alternatives = [] ↔ ∀ b ∈ buckets, b.values = [] := by
  rw [← bucketConditions_eq_nil_iff, ← List.map_eq_nil_iff, h, List.map_eq_nil_iff]

/-- Reading the alternatives gives the conditions of the buckets. -/
theorem Written.exists_mem_iff {d : Dialect} {buckets : List Bucket}
    {alternatives : List (String × String)} (h : Written d buckets alternatives)
    (holds : Condition → Prop) :
    (∃ b ∈ bucketConditions buckets, holds b.2) ↔
      ∃ entry ∈ alternatives, ∃ c, parse d entry.2 = some c ∧ holds c := by
  constructor
  · rintro ⟨b, hb, hholds⟩
    have hmem : (b.1, some b.2) ∈ alternatives.map fun entry ↦ (entry.1, parse d entry.2) :=
      h ▸ List.mem_map_of_mem hb
    obtain ⟨entry, hentry, heq⟩ := List.mem_map.mp hmem
    exact ⟨entry, hentry, b.2, congrArg Prod.snd heq, hholds⟩
  · rintro ⟨entry, hentry, c, hparse, hholds⟩
    have hmem : (entry.1, parse d entry.2) ∈
        (bucketConditions buckets).map fun entry ↦ (entry.1, some entry.2) :=
      h ▸ List.mem_map_of_mem hentry
    obtain ⟨b, hb, heq⟩ := List.mem_map.mp hmem
    have hc : some b.2 = some c := (congrArg Prod.snd heq).trans hparse
    exact ⟨b, hb, Option.some.inj hc ▸ hholds⟩

theorem searchTables_of_no_values {stage : Stage} {key : String} {field : UserField}
    {includeIds : Bool} {users : List User} {actors : List Int}
    (h : ∀ b ∈ buckets stage key field includeIds users actors, b.values = []) :
    searchTables stage key field actors = .empty := by
  unfold searchTables
  unfold buckets at h
  cases hreading : stage.reading with
  | old => rfl
  | new =>
    simp only [hreading, newBuckets, List.mem_singleton, forall_eq, List.map_eq_nil_iff] at h
    cases actors with
    | nil => rfl
    | cons actor rest => simp [List.eraseDups_cons] at h

/-- A search says that a row has one of the values that its users stand for: each of its
alternatives is read as the test for the values of one bucket, the condition holds where an
alternative does, and without values nothing is searched. -/
theorem search_reads_as_buckets (p : Planner) {storage : Storage ω} {handle : Handle}
    {key : String} {field : UserField} (hadmits : p.table.Admits key field)
    (hplain : field.HasPlainNames key) {among : Datum} {users : List User}
    (husers : User.listOf among = .ok users) (includeIds : Bool) {found : User → Option Int}
    {state : ω} (hfind : p.Finds storage handle users found state)
    (hpositive : ∀ u ∈ users, ∀ actor, found u = some actor → 0 < actor) :
    ∃ s, (p.search storage handle key among includeIds).Gives state s state ∧
      (let sought := buckets p.stage key field includeIds users (users.filterMap found)
      s.alternatives.entries.map (fun entry ↦ (entry.1, parse handle.dialect entry.2)) =
        ((sought.filter fun b ↦ !b.values.isEmpty).map fun b ↦
          (b.name, some (Condition.oneOf b.column b.values))) ∧
      (∃ c, parse handle.dialect s.condition = some c ∧
        ∀ columns, c.Holds columns ↔ ∃ entry ∈ s.alternatives.entries, ∃ alternative,
          parse handle.dialect entry.2 = some alternative ∧ alternative.Holds columns) ∧
      ((s.condition = "1=0" ∧ s.alternatives.entries = [] ∧ s.source = .empty) ↔
        ∀ b ∈ sought, b.values = [])) ∧
      ∀ u ∈ users, (soughtIds includeIds [u]).length + (soughtNames includeIds [u]).length = 1 := by
  obtain ⟨s, hgives, hmeans⟩ := p.exists_search hadmits hplain husers includeIds hfind
  rw [actorsOf_of_positive hpositive] at hmeans
  have hwritten := hmeans.alternatives
  refine ⟨s, hgives, ⟨?_, ?_, ?_⟩, fun u _ ↦ soughtIds_add_soughtNames includeIds u⟩
  · rw [hwritten, bucketConditions, List.map_map]
    rfl
  · obtain ⟨c, hparse, hholds⟩ := hmeans.condition
    exact ⟨c, hparse, fun columns ↦ (hholds columns).trans (hwritten.exists_mem_iff _)⟩
  · constructor
    · rintro ⟨-, hnone, -⟩
      exact hwritten.eq_nil_iff.mp hnone
    · intro hvalues
      have hnone := hwritten.eq_nil_iff.mpr hvalues
      exact ⟨hmeans.nothing hnone, hnone,
        hmeans.tables.trans (searchTables_of_no_values hvalues)⟩

/-- A name with a quote and a user who comes up twice. -/
theorem search_reads_names_with_quotes :
    ∃ s, (search ⟨⟨.both, .old, rfl⟩, ⟨.empty, true, "core", "planner"⟩⟩ Storage.rehearsal
          ⟨"main", .mysql, "local"⟩ "rev_user"
          (.list [.user 7 "Ada" .null, .user 0 "a') OR ('b" .null, .user 7 "Ada" .null])
          true).Gives ⟨.empty, [], .empty⟩ s ⟨.empty, [], .empty⟩ ∧
      s.alternatives.entries.map (fun entry ↦ (entry.1, parse .mysql entry.2)) =
        [("userid", some (.equal (.column (.column "rev_user")) (.value (.int 7)))),
          ("username",
            some (.equal (.column (.column "rev_user_text")) (.value (.text "a') OR ('b"))))] := by
  have hadmits : FieldTable.Admits ⟨.empty, true, "core", "planner"⟩ "rev_user" .plain :=
    FieldTable.admits_assumed rfl rfl
  have hplain : UserField.plain.HasPlainNames "rev_user" :=
    UserField.hasPlainNames_plain (by decide)
  have husers : User.listOf
      (.list [.user 7 "Ada" .null, .user 0 "a') OR ('b" .null, .user 7 "Ada" .null]) =
      .ok [⟨7, "Ada", .null⟩, ⟨0, "a') OR ('b", .null⟩, ⟨7, "Ada", .null⟩] := rfl
  have hfind : Finds ⟨⟨.both, .old, rfl⟩, ⟨.empty, true, "core", "planner"⟩⟩ Storage.rehearsal
      ⟨"main", .mysql, "local"⟩ [⟨7, "Ada", .null⟩, ⟨0, "a') OR ('b", .null⟩, ⟨7, "Ada", .null⟩]
      (fun _ ↦ none) ⟨.empty, [], .empty⟩ := nofun
  obtain ⟨s, hgives, ⟨hreads, -, -⟩, -⟩ := search_reads_as_buckets _ hadmits hplain husers true
    hfind nofun
  exact ⟨s, hgives, hreads⟩

end StagedColumns.Planner
