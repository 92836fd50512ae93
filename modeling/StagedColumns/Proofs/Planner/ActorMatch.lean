import StagedColumns.Proofs.Field.DefaultNames
import StagedColumns.Proofs.Planner.Read
import StagedColumns.Proofs.Planner.Search
import StagedColumns.Proofs.Query.DatabaseStorage

/-!
# Searching by actors for what was written

A search in the new representation adds the tables that a reading needs for the actor id, so it sees
the actor id that was stored, in the row or in the temp table. It finds the row if a user sought has
that actor id. The id zero is an exception: a search takes it for none, so no search finds the rows
of an actor with the id zero.
-/

set_option autoImplicit false

namespace StagedColumns.Planner

open Sql

variable {ω : Type}

theorem mem_actorsOf {found : User → Option Int} {users : List User} {actor : Int} :
    actor ∈ actorsOf found users ↔ actor ≠ 0 ∧ ∃ u ∈ users, found u = some actor := by
  simp only [actorsOf, List.mem_filterMap, Option.filter_eq_some_iff, decide_eq_true_eq]
  constructor
  · rintro ⟨u, hu, hfound, hactor⟩
    exact ⟨hactor, u, hu, hfound⟩
  · rintro ⟨hactor, u, hu, hfound⟩
    exact ⟨u, hu, hfound, hactor⟩

/-- Where the expression for the actor id has a value, the condition of the bucket holds if that is
one of the actors. -/
theorem newBuckets_hold_iff {actorId : Expression} {actors : List Int}
    {columns : Expression → Datum} {actor : Int} (hactor : columns actorId = .int actor) :
    (∃ c ∈ bucketConditions (newBuckets actorId actors), c.2.Holds columns) ↔ actor ∈ actors := by
  rw [exists_bucketCondition_holds_iff]
  simp only [newBuckets, List.mem_singleton, exists_eq_left, hactor,
    Datum.faithful_int.exists_same_iff]
  exact ⟨And.right, fun h ↦ ⟨nofun, h⟩⟩

theorem finds?_eq {s : Search} {d : Dialect} {db : Database} {main : Row} {c : Condition}
    {scope : Scope} (hparse : parse d s.condition = some c)
    (hscopes : s.source.scopes? d db main = some [scope]) :
    s.finds? d db main = some (decide (c.Holds scope.value)) := by
  unfold Search.finds?
  rw [hparse, hscopes]
  simp

/-- A search by actors finds a row, in whose scope the actor id has a value, exactly if that is one
of the actors found. -/
theorem exists_search_new {p : Planner} {storage : Storage ω} {handle : Handle} {key : String}
    {field : UserField} (hadmits : p.table.Admits key field) (hplain : field.HasPlainNames key)
    (hreads : p.stage.reading = .new) {among : Datum} {users : List User}
    (husers : User.listOf among = .ok users) (includeIds : Bool) {found : User → Option Int}
    {state : ω} (hfind : ∀ u ∈ users, storage.find handle.domain u state = .ok (found u))
    {db : Database} {full : Row} {scope : Scope} {actor : Int}
    (hscopes : (actorTables key field).scopes? handle.dialect db full = some [scope])
    (hactor : scope.value (actorExpression key field) = .int actor) :
    ∃ s b, (p.search storage handle key among includeIds).Gives state s state ∧
      s.finds? handle.dialect db full = some b ∧
      (b = true ↔ actor ≠ 0 ∧ ∃ u ∈ users, found u = some actor) := by
  obtain ⟨s, hgives, hmeans⟩ := p.exists_search hadmits hplain husers includeIds
    (fun _ ↦ hfind : p.Finds storage handle users found state)
  obtain ⟨c, hparse, hholds⟩ := hmeans.condition
  have htables := hmeans.tables
  unfold buckets at hholds
  unfold searchTables at htables
  rw [hreads] at hholds htables
  simp only at hholds htables
  rw [← mem_actorsOf]
  by_cases hnone : actorsOf found users = []
  · rw [if_pos hnone] at htables
    rw [hnone] at hholds ⊢
    have hempty : s.source.scopes? handle.dialect db full = some [⟨full, []⟩] := by
      rw [htables, Tables.scopes?_empty]
    refine ⟨s, _, hgives, finds?_eq hparse hempty, ?_⟩
    rw [decide_eq_true_iff, hholds]
    simp [bucketConditions, newBuckets]
  · rw [if_neg hnone] at htables
    refine ⟨s, _, hgives, finds?_eq hparse (htables ▸ hscopes), ?_⟩
    rw [decide_eq_true_iff, hholds]
    exact newBuckets_hold_iff hactor

/-- A row that was stored for a user is found by a search for several users exactly if one of them
has the actor id that was stored and that is not zero. -/
theorem stored_row_found_iff {writer reader : Planner} {storage : Storage ω}
    {content : ω → Database} {primary : String → List String} {handle searched : Handle}
    {key : String} {field : UserField} {linked : Bool} {main : String} {user : User}
    {state later : ω} {actor : Int} {row : Row} {mainKey extras : Datum}
    (hwriter : writer.table.Admits key field) (hreader : reader.table.Admits key field)
    (hplain : field.HasPlainNames key) (hdistinct : field.HasDistinctNames key)
    (haccepts : field.accepts linked = true) (hwrites : writer.stage.writesNew = true)
    (hreads : reader.stage.reading = .new) (hlives : field.LivesIn main primary)
    (hreaches : handle.Reaches storage content primary)
    (hacquires : storage.acquire handle.domain user state = (.ok actor, later))
    (hkept : ∀ table, table ≠ actorTable →
      (content later).rows table = (content state).rows table)
    (hstorable : field.Storable (content state) main primary row
      (row.merge (mainValues writer.stage key field user actor)) mainKey extras) :
    ∃ full final, (writer.storeRow storage handle key linked user main row mainKey extras).Gives
        state full final ∧ full ∈ (content final).rows main ∧
      ∀ among users, User.listOf among = .ok users → ∀ found : User → Option Int,
        (∀ u ∈ users, storage.find searched.domain u final = .ok (found u)) → ∀ includeIds,
        ∃ s b, (reader.search storage searched key among includeIds).Gives final s final ∧
          s.finds? searched.dialect (content final) full = some b ∧
          (b = true ↔ actor ≠ 0 ∧ ∃ u ∈ users, found u = some actor) := by
  have hacquires' : writer.Acquires storage handle user state actor later := by
    unfold Acquires
    rw [if_pos hwrites]
    exact hacquires
  obtain ⟨final, hstore, hstores⟩ := exists_storeRow hwriter hdistinct haccepts hlives hreaches
    hacquires' hkept hstorable
  obtain ⟨scope, hscopes, hactor, -, -⟩ := exists_actorScope hplain hwrites hstores
    (fun htable ↦ cell_actorColumn user actor hdistinct hwrites htable row)
    (fun t htable ↦ (cell_mainKey user actor hdistinct htable row).trans (hstorable.held htable))
    searched.dialect
  exact ⟨_, final, hstore, hstores.mem_main, fun among users husers found hfind includeIds ↦
    exists_search_new hreader hplain hreads husers includeIds hfind hscopes hactor⟩

/-- A revision, and a search for an unknown user and its own. -/
theorem revision_found :
    ∃ full final,
      (storeRow ⟨⟨.both, .old, rfl⟩, ⟨.empty, true, "core", "planner"⟩⟩ Storage.ofDatabase
        ⟨"main", .sqlite, "local"⟩ "rev_user" false ⟨7, "Ada", .null⟩ "revision"
        (OrderedMap.ofList [("rev_id", .int 1)]) (.int 1) .null).Gives ⟨fun _ ↦ []⟩ full final ∧
      full ∈ final.rows "revision" ∧
      ∃ s, (search ⟨.only .new, ⟨.empty, true, "core", "planner"⟩⟩ Storage.ofDatabase
          ⟨"main", .sqlite, "local"⟩ "rev_user"
          (.list [.user 0 "10.0.0.1" .null, .user 7 "Ada" .null]) true).Gives final s final ∧
        s.finds? .sqlite final full = some true := by
  have hadmits : FieldTable.Admits ⟨.empty, true, "core", "planner"⟩ "rev_user" .plain :=
    FieldTable.admits_assumed rfl rfl
  have hplain : UserField.plain.HasPlainNames "rev_user" :=
    UserField.hasPlainNames_plain (by decide)
  have hdistinct := UserField.hasDistinctNames_plain "rev_user"
  have haccepts : UserField.plain.accepts false = true := rfl
  have hreads : (Planner.mk (.only .new) ⟨.empty, true, "core", "planner"⟩).stage.reading = .new :=
    rfl
  have hlives : UserField.plain.LivesIn "revision" fun _ ↦ ["rev_id"] :=
    ⟨by decide, nofun, nofun⟩
  have hacquires : Storage.ofDatabase.acquire "local" ⟨7, "Ada", .null⟩ ⟨fun _ ↦ []⟩ =
      (.ok 1, Database.insert ⟨fun _ ↦ []⟩ actorTable (Database.actorRow ⟨7, "Ada", .null⟩ 1)) :=
    rfl
  have hwrites : (Planner.mk ⟨.both, .old, rfl⟩
      ⟨.empty, true, "core", "planner"⟩).stage.writesNew = true := rfl
  have hreaches := Handle.reaches_ofDatabase ⟨"main", .sqlite, "local"⟩ fun _ ↦ ["rev_id"]
  have hstorable : UserField.plain.Storable ⟨fun _ ↦ []⟩ "revision" (fun _ ↦ ["rev_id"])
      (OrderedMap.ofList [("rev_id", .int 1)])
      ((OrderedMap.ofList [("rev_id", .int 1)]).merge
        (mainValues ⟨.both, .old, rfl⟩ "rev_user" .plain ⟨7, "Ada", .null⟩ 1)) (.int 1) .null :=
    ⟨nofun, rfl, nofun, nofun, nofun⟩
  obtain ⟨full, final, hstore, hmem, hfound⟩ := stored_row_found_iff hadmits hadmits hplain
    hdistinct haccepts hwrites hreads hlives hreaches hacquires
    (fun _ h ↦ Database.rows_change_of_ne _ _ h) hstorable
  have husers : User.listOf (.list [.user 0 "10.0.0.1" .null, .user 7 "Ada" .null]) =
      .ok [⟨0, "10.0.0.1", .null⟩, ⟨7, "Ada", .null⟩] := rfl
  obtain ⟨s, b, hgives, hfinds, hb⟩ := hfound _ _ husers final.actorOf? (fun _ _ ↦ rfl) true
  have hstored : (storeRow ⟨⟨.both, .old, rfl⟩, ⟨.empty, true, "core", "planner"⟩⟩
      Storage.ofDatabase ⟨"main", .sqlite, "local"⟩ "rev_user" false ⟨7, "Ada", .null⟩ "revision"
      (OrderedMap.ofList [("rev_id", .int 1)]) (.int 1) .null).Gives ⟨fun _ ↦ []⟩
      (OrderedMap.ofList [("rev_id", .int 1), ("rev_user", .int 7), ("rev_user_text", .text "Ada"),
        ("rev_actor", .int 1)]) _ := ⟨_, rfl⟩
  obtain ⟨-, rfl⟩ := hstore.unique hstored
  have hactor : b = true := hb.mpr ⟨by decide, ⟨7, "Ada", .null⟩, by simp, rfl⟩
  exact ⟨full, _, hstore, hmem, s, hgives, hactor ▸ hfinds⟩

/-- The rows of an actor with the id zero are not found. -/
theorem actor_zero_not_found :
    ∃ full final s,
      (storeRow ⟨.only .new, ⟨.empty, true, "core", "planner"⟩⟩ Storage.ofDatabase
        ⟨"main", .sqlite, "local"⟩ "rev_user" false ⟨7, "Zero", .null⟩ "revision"
        (OrderedMap.ofList [("rev_id", .int 1)]) (.int 1) .null).Gives
        ⟨fun table ↦
          if table = actorTable then [Database.actorRow ⟨7, "Zero", .null⟩ 0] else []⟩
        full final ∧
      full ∈ final.rows "revision" ∧ cell full "rev_actor" = .int 0 ∧
      Storage.ofDatabase.find "local" ⟨7, "Zero", .null⟩ final = .ok (some 0) ∧
      (search ⟨.only .new, ⟨.empty, true, "core", "planner"⟩⟩ Storage.ofDatabase
        ⟨"main", .sqlite, "local"⟩ "rev_user" (.user 7 "Zero" .null) true).Gives final s final ∧
      s.finds? .sqlite final full = some false := by
  refine ⟨OrderedMap.ofList [("rev_id", .int 1), ("rev_actor", .int 0)], _,
    ⟨.empty, "1=0", .empty⟩, ⟨_, rfl⟩, List.mem_cons_self, rfl, rfl, ⟨_, rfl⟩, rfl⟩

end StagedColumns.Planner
