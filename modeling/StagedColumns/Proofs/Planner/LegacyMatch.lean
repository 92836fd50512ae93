import StagedColumns.Proofs.Field.DefaultNames
import StagedColumns.Proofs.Planner.Search
import StagedColumns.Proofs.Planner.Write
import StagedColumns.Proofs.Query.Evaluation
import StagedColumns.Rehearsal

/-!
# Searching the old representation for what was written

A write stores a user's name as it is given, and a search looks for the canonical name. So a user
who is searched for by name is found only if the name is canonical: other spellings of an address,
and names with blanks around them, are stored under a name that no search looks for.
-/

set_option autoImplicit false

namespace StagedColumns.Planner

open Sql

variable {ω : Type}

/-- A search for the one user looks for what the row of the other one holds: the same id, or the
canonical name of the first as the name of the second. -/
def LooksFor (includeIds : Bool) (sought stored : User) : Prop :=
  if includeIds = true ∧ sought.id ≠ 0 then sought.id = stored.id
  else canonicalName sought.name = stored.name

theorem looksFor_iff (includeIds : Bool) (sought stored : User) :
    LooksFor includeIds sought stored ↔
      soughtBy includeIds sought = .inl (stored.id : Int) ∨
        soughtBy includeIds sought = .inr stored.name := by
  unfold LooksFor soughtBy
  by_cases h : includeIds = true ∧ sought.id ≠ 0
  · rw [if_pos h, if_pos h]
    simp only [Sum.inl.injEq, Int.ofNat_inj, reduceCtorEq, or_false]
  · rw [if_neg h, if_neg h]
    simp

theorem mem_soughtIds {includeIds : Bool} {users : List User} {id : Int} :
    id ∈ soughtIds includeIds users ↔ ∃ u ∈ users, soughtBy includeIds u = .inl id := by
  simp [soughtIds]

theorem mem_soughtNames {includeIds : Bool} {users : List User} {name : String} :
    name ∈ soughtNames includeIds users ↔ ∃ u ∈ users, soughtBy includeIds u = .inr name := by
  simp [soughtNames]

/-- A row that holds a user's id and name meets a condition of the buckets if one of the users
sought is looked for in it. -/
theorem oldBuckets_hold_iff {key textColumn : String} {includeIds : Bool} {users : List User}
    {columns : Expression → Datum} {stored : User}
    (hkey : columns (.column key) = .int stored.id)
    (htext : columns (.column textColumn) = .text stored.name) :
    (∃ c ∈ bucketConditions (oldBuckets key textColumn includeIds users), c.2.Holds columns) ↔
      ∃ u ∈ users, LooksFor includeIds u stored := by
  have hids := Datum.faithful_int.exists_same_iff stored.id (soughtIds includeIds users)
  have hnames := Datum.faithful_text.exists_same_iff stored.name (soughtNames includeIds users)
  rw [exists_bucketCondition_holds_iff]
  simp only [oldBuckets, List.mem_cons, List.not_mem_nil, or_false, exists_eq_or_imp,
    exists_eq_left, hkey, htext, hids, hnames, mem_soughtIds, mem_soughtNames, looksFor_iff]
  constructor
  · rintro (⟨-, u, hu, hid⟩ | ⟨-, u, hu, hname⟩)
    · exact ⟨u, hu, .inl hid⟩
    · exact ⟨u, hu, .inr hname⟩
  · rintro ⟨u, hu, hid | hname⟩
    · exact .inl ⟨nofun, u, hu, hid⟩
    · exact .inr ⟨nofun, u, hu, hname⟩

theorem looksFor_self_iff (includeIds : Bool) (user : User) :
    LooksFor includeIds user user ↔
      (includeIds = true ∧ user.id ≠ 0) ∨ canonicalName user.name = user.name := by
  unfold LooksFor
  by_cases h : includeIds = true ∧ user.id ≠ 0
  · rw [if_pos h]
    exact iff_of_true rfl (.inl h)
  · rw [if_neg h]
    exact ⟨.inr, fun h' ↦ h'.resolve_left h⟩

/-- The search of a row's old columns finds it if one of the users is looked for in it. -/
theorem exists_search_old {p : Planner} {storage : Storage ω} {handle : Handle} {key : String}
    {field : UserField} (hadmits : p.table.Admits key field) (hplain : field.HasPlainNames key)
    (hreads : p.stage.reading = .old) {among : Datum} {users : List User}
    (husers : User.listOf among = .ok users) (includeIds : Bool) {row : Row} {stored : User}
    (hkey : cell row key = .int stored.id)
    (htext : cell row (field.columnNames key).text = .text stored.name) (state : ω) :
    ∃ s c, (p.search storage handle key among includeIds).Gives state s state ∧
      parse handle.dialect s.condition = some c ∧
      (c.Holds (Scope.mk row []).value ↔ ∃ u ∈ users, LooksFor includeIds u stored) := by
  have hfind : p.Finds storage handle users (fun _ ↦ none) state := by
    intro hnew
    rw [hreads] at hnew
    cases hnew
  obtain ⟨s, hgives, hmeans⟩ := p.exists_search hadmits hplain husers includeIds hfind
  obtain ⟨c, hparse, hholds⟩ := hmeans.condition
  refine ⟨s, c, hgives, hparse, (hholds _).trans ?_⟩
  unfold buckets
  rw [hreads]
  exact oldBuckets_hold_iff hkey htext

/-- A row that was written for a user is found by a search for several users exactly if one of them
is looked for in it. So all searches for the user find it exactly if the user is searched for by id
or has a canonical name. -/
theorem written_row_found_iff {writer reader : Planner} {storage : Storage ω}
    {handle searched : Handle} {key : String} {field : UserField} {linked : Bool} {user : User}
    {state later : ω} {actor : Int} (hwriter : writer.table.Admits key field)
    (hreader : reader.table.Admits key field) (hplain : field.HasPlainNames key)
    (hdistinct : field.HasDistinctNames key) (haccepts : field.accepts linked = true)
    (hwrites : writer.stage.writesOld = true) (hreads : reader.stage.reading = .old)
    (hacquires : writer.Acquires storage handle user state actor later) (includeIds : Bool) :
    ∃ values pending,
      (writer.writeBy storage handle key user linked).Gives state (values, pending) later ∧
      ∀ row : Row, row.get? key = values.get? key →
        row.get? (field.columnNames key).text = values.get? (field.columnNames key).text →
        (∀ among users, User.listOf among = .ok users → ∀ now, ∃ s c,
          (reader.search storage searched key among includeIds).Gives now s now ∧
          parse searched.dialect s.condition = some c ∧
          (c.Holds (Scope.mk row []).value ↔ ∃ u ∈ users, LooksFor includeIds u user)) ∧
        ((∀ among users, User.listOf among = .ok users → user ∈ users → ∀ now s c,
            (reader.search storage searched key among includeIds).Gives now s now →
            parse searched.dialect s.condition = some c → c.Holds (Scope.mk row []).value) ↔
          (includeIds = true ∧ user.id ≠ 0) ∨ canonicalName user.name = user.name) := by
  refine ⟨_, _, gives_writeBy hwriter haccepts hacquires, ?_⟩
  intro row hkeyValue htextValue
  have hkey : cell row key = .int user.id := by
    rw [cell, hkeyValue, get?_mainValues_key user actor hdistinct hwrites, Option.getD_some]
  have htext : cell row (field.columnNames key).text = .text user.name := by
    rw [cell, htextValue, get?_mainValues_text user actor hdistinct hwrites, Option.getD_some]
  have hsearch {among : Datum} {users : List User} (husers : User.listOf among = .ok users)
      (now : ω) : ∃ s c, (reader.search storage searched key among includeIds).Gives now s now ∧
        parse searched.dialect s.condition = some c ∧
        (c.Holds (Scope.mk row []).value ↔ ∃ u ∈ users, LooksFor includeIds u user) :=
    exists_search_old hreader hplain hreads husers includeIds hkey htext now
  refine ⟨fun among users husers now ↦ hsearch husers now, ?_⟩
  rw [← looksFor_self_iff]
  constructor
  · intro hall
    obtain ⟨s, c, hgives, hparse, hholds⟩ := hsearch (rfl : User.listOf user.toDatum = _) state
    obtain ⟨u, hu, hlooks⟩ :=
      hholds.mp (hall user.toDatum [user] rfl List.mem_cons_self state s c hgives hparse)
    rw [List.mem_singleton.mp hu] at hlooks
    exact hlooks
  · intro hself among users husers huser now s c hgives hparse
    obtain ⟨s', c', hgives', hparse', hholds⟩ := hsearch husers now
    obtain ⟨rfl, -⟩ := hgives.unique hgives'
    obtain rfl : c = c' := Option.some.inj (hparse.symm.trans hparse')
    exact hholds.mpr ⟨user, huser, hself⟩

/-- An address in its canonical text. -/
theorem canonical_address_found :
    ∃ values pending,
      (writeBy ⟨.only .old, ⟨.empty, true, "core", "planner"⟩⟩ Storage.rehearsal
        ⟨"main", .sqlite, "local"⟩ "rev_user" ⟨0, "10.0.0.1", .null⟩ false).Gives
        ⟨.empty, [], .empty⟩ (values, pending) ⟨.empty, [], .empty⟩ ∧
      ∀ among users, User.listOf among = .ok users → ⟨0, "10.0.0.1", .null⟩ ∈ users →
        ∀ now s c, (search ⟨.only .old, ⟨.empty, true, "core", "planner"⟩⟩ Storage.rehearsal
            ⟨"main", .mysql, "local"⟩ "rev_user" among false).Gives now s now →
          parse .mysql s.condition = some c → c.Holds (Scope.mk values []).value := by
  have hadmits : FieldTable.Admits ⟨.empty, true, "core", "planner"⟩ "rev_user" .plain :=
    FieldTable.admits_assumed rfl rfl
  have hplain : UserField.plain.HasPlainNames "rev_user" :=
    UserField.hasPlainNames_plain (by decide)
  have hdistinct := UserField.hasDistinctNames_plain "rev_user"
  have hacquires : Acquires ⟨.only .old, ⟨.empty, true, "core", "planner"⟩⟩ Storage.rehearsal
      ⟨"main", .sqlite, "local"⟩ ⟨0, "10.0.0.1", .null⟩ ⟨.empty, [], .empty⟩ 0
      ⟨.empty, [], .empty⟩ := rfl
  have hreads : (Planner.mk (.only .old) ⟨.empty, true, "core", "planner"⟩).stage.reading = .old :=
    rfl
  have haccepts : UserField.plain.accepts false = true := rfl
  obtain ⟨values, pending, hgives, hfound⟩ := written_row_found_iff hadmits hadmits hplain
    hdistinct haccepts rfl hreads hacquires false
  have hcanonical : canonicalName "10.0.0.1" = "10.0.0.1" := by decide
  exact ⟨values, pending, hgives, (hfound values rfl rfl).2.mpr (.inr hcanonical)⟩

/-- An address with a leading zero is stored as it is and searched for without the zero. -/
theorem padded_address_not_found :
    ∃ values pending s c,
      (writeBy ⟨.only .old, ⟨.empty, true, "core", "planner"⟩⟩ Storage.rehearsal
        ⟨"main", .sqlite, "local"⟩ "rev_user" ⟨0, "010.0.0.1", .null⟩ false).Gives
        ⟨.empty, [], .empty⟩ (values, pending) ⟨.empty, [], .empty⟩ ∧
      (search ⟨.only .old, ⟨.empty, true, "core", "planner"⟩⟩ Storage.rehearsal
        ⟨"main", .sqlite, "local"⟩ "rev_user" (.user 0 "010.0.0.1" .null) true).Gives
        ⟨.empty, [], .empty⟩ s ⟨.empty, [], .empty⟩ ∧
      parse .sqlite s.condition = some c ∧ ¬c.Holds (Scope.mk values []).value := by
  refine ⟨OrderedMap.ofList [("rev_user", .int 0), ("rev_user_text", .text "010.0.0.1")],
    .idle "rev_user", ⟨.empty, "rev_user_text = '10.0.0.1'",
      OrderedMap.ofList [("username", "rev_user_text = '10.0.0.1'")]⟩,
    .equal (.column (.column "rev_user_text")) (.value (.text "10.0.0.1")), ⟨_, rfl⟩, ⟨_, rfl⟩,
    rfl, ?_⟩
  decide

end StagedColumns.Planner
