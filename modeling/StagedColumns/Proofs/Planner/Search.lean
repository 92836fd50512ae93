import StagedColumns.Planner.Search
import StagedColumns.Proofs.OrderedMap
import StagedColumns.Proofs.Planner.ActorSource

/-!
# What a search looks for

A search looks for values in columns: a bucket names a column and the values that are looked for
there, without repetitions. The buckets follow from the users alone; in the old representation each
user goes into one of two, by the id or by the name, in the new one those who have an actor go into
the only one. A bucket without values is left out.

`exists_search` says that a search of a key that passes the gate succeeds, and that its texts say no
more and no less than that a row has one of the values of some bucket.
-/

set_option autoImplicit false

namespace StagedColumns.Planner

open Sql

variable {ω : Type}

/-- The values that are looked for in a column, under the name of the alternative. -/
structure Bucket where
  name : String
  column : Expression
  values : List Datum

/-- The alternatives of the buckets that have values. -/
def bucketConditions (buckets : List Bucket) : List (String × Condition) :=
  (buckets.filter fun b ↦ !b.values.isEmpty).map fun b ↦ (b.name, Condition.oneOf b.column b.values)

/-- What the old representation is searched by for a user: the id, or the canonical name. -/
def soughtBy (includeIds : Bool) (u : User) : Int ⊕ String :=
  if includeIds ∧ u.id ≠ 0 then .inl u.id else .inr (canonicalName u.name)

/-- The ids that the old representation is searched by. -/
def soughtIds (includeIds : Bool) (users : List User) : List Int :=
  users.filterMap fun u ↦ (soughtBy includeIds u).getLeft?

/-- The names that the old representation is searched by. -/
def soughtNames (includeIds : Bool) (users : List User) : List String :=
  users.filterMap fun u ↦ (soughtBy includeIds u).getRight?

/-- The buckets of a search in the old representation. -/
def oldBuckets (key textColumn : String) (includeIds : Bool) (users : List User) : List Bucket :=
  [⟨"userid", .column key, (soughtIds includeIds users).eraseDups.map .int⟩,
    ⟨"username", .column textColumn, (soughtNames includeIds users).eraseDups.map .text⟩]

/-- The buckets of a search in the new representation, by the actor ids found. -/
def newBuckets (actorId : Expression) (actors : List Int) : List Bucket :=
  [⟨"actor", actorId, actors.eraseDups.map .int⟩]

/-- The buckets of a search at a stage. The actors are those found for the users. -/
def buckets (stage : Stage) (key : String) (field : UserField) (includeIds : Bool)
    (users : List User) (actors : List Int) : List Bucket :=
  match stage.reading with
  | .old => oldBuckets key (field.columnNames key).text includeIds users
  | .new => newBuckets (actorExpression key field) actors

/-! ### The partition of the users -/

theorem soughtBy_eq (includeIds : Bool) (u : User) :
    soughtBy includeIds u =
      if byId includeIds u then .inl (u.id : Int) else .inr (canonicalName u.name) := by
  simp [soughtBy, byId, User.isRegistered]

theorem soughtIds_eq (includeIds : Bool) (users : List User) :
    soughtIds includeIds users = (users.filter (byId includeIds)).map fun u ↦ (u.id : Int) := by
  induction users with
  | nil => rfl
  | cons u rest ih =>
    rw [soughtIds, List.filterMap_cons, soughtBy_eq, ← soughtIds, ih]
    cases h : byId includeIds u <;> simp [h]

theorem soughtNames_eq (includeIds : Bool) (users : List User) :
    soughtNames includeIds users =
      (users.filter fun u ↦ !byId includeIds u).map fun u ↦ canonicalName u.name := by
  induction users with
  | nil => rfl
  | cons u rest ih =>
    rw [soughtNames, List.filterMap_cons, soughtBy_eq, ← soughtNames, ih]
    cases h : byId includeIds u <;> simp [h]

/-! ### Alternatives -/

/-- The alternatives, read by the database, are those of the buckets. -/
def Written (d : Dialect) (buckets : List Bucket) (alternatives : List (String × String)) : Prop :=
  alternatives.map (fun entry ↦ (entry.1, parse d entry.2)) =
    (bucketConditions buckets).map fun entry ↦ (entry.1, some entry.2)

theorem Written.append {d : Dialect} {buckets more : List Bucket}
    {alternatives others : List (String × String)} (h : Written d buckets alternatives)
    (hmore : Written d more others) : Written d (buckets ++ more) (alternatives ++ others) := by
  have hboth : bucketConditions (buckets ++ more) =
      bucketConditions buckets ++ bucketConditions more := by
    simp [bucketConditions]
  rw [Written, List.map_append, h, hmore, hboth, List.map_append]

theorem exists_alternative {α : Type} [BEq α] [LawfulBEq α] {d : Dialect} {wrap : α → Datum}
    (hwrap : Datum.Faithful wrap) (hscalar : ∀ a, Scalar d (wrap a)) (name : String)
    {column : String} {e : Expression} (hcolumn : lex d column.toList = some [.column e])
    (values : List α) :
    ∃ found, alternative d name column (values.map wrap) = .ok found ∧
      Written d [⟨name, e, values.eraseDups.map wrap⟩] found := by
  cases values with
  | nil => exact ⟨[], rfl, rfl⟩
  | cons a rest =>
    have hkept : ∀ v ∈ (a :: rest).eraseDups.map wrap, Scalar d v := by
      intro v hv
      obtain ⟨b, -, rfl⟩ := List.mem_map.mp hv
      exact hscalar b
    obtain ⟨text, htest, hparse⟩ := exists_testColumn hcolumn hkept (by simp)
      (Datum.distinct_map hwrap (a :: rest))
    refine ⟨[(name, text)], ?_, ?_⟩
    · rw [List.map_cons] at htest ⊢
      simp only [alternative, htest]
      rfl
    · simp [Written, bucketConditions, List.eraseDups_cons, hparse]

theorem exists_oldAlternatives (d : Dialect) {key textColumn : String}
    (hkey : isPlainName key = true) (htext : isPlainName textColumn = true) (includeIds : Bool)
    (users : List User) :
    ∃ found, oldAlternatives d key textColumn includeIds users = .ok found ∧
      Written d (oldBuckets key textColumn includeIds users) found := by
  obtain ⟨ids, hids, hidsWritten⟩ := exists_alternative Datum.faithful_int (scalar_int d) "userid"
    (lex_name d hkey) (soughtIds includeIds users)
  obtain ⟨names, hnames, hnamesWritten⟩ := exists_alternative Datum.faithful_text (scalar_text d)
    "username" (lex_name d htext) (soughtNames includeIds users)
  refine ⟨ids ++ names, ?_, hidsWritten.append hnamesWritten⟩
  rw [soughtIds_eq, List.map_map] at hids
  rw [soughtNames_eq, List.map_map] at hnames
  simp only [Function.comp_def] at hids hnames
  simp only [oldAlternatives, hids, hnames]
  rfl

theorem exists_newAlternatives (d : Dialect) {key : String} {field : UserField}
    (hplain : field.HasPlainNames key) (actors : List Int) :
    ∃ found, newAlternatives d key (field.columnNames key).actor field.tempTable actors =
        .ok (if actors = [] then .empty
          else actorTables key field, found) ∧
      Written d (newBuckets (actorExpression key field) actors) found := by
  cases actors with
  | nil => exact ⟨[], rfl, rfl⟩
  | cons a rest =>
    obtain ⟨found, hfound, hwritten⟩ := exists_alternative Datum.faithful_int (scalar_int d) "actor"
      (lex_actorExpression d hplain) (a :: rest)
    refine ⟨found, ?_, hwritten⟩
    unfold newAlternatives
    simp only [List.cons_ne_nil, if_false]
    change Except.bind (alternative d "actor" (actorExpression key field).render _) _ = _
    rw [hfound]
    rfl

/-- The actors found for users, where an id of zero counts as none. -/
def actorsOf (found : User → Option Int) (users : List User) : List Int :=
  users.filterMap fun u ↦ (found u).filter (· ≠ 0)

theorem gives_findActors {storage : Storage ω} {domain : String} {found : User → Option Int}
    {state : ω} {users : List User}
    (hfind : ∀ u ∈ users, storage.find domain u state = .ok (found u)) :
    (findActors storage domain users).Gives state (actorsOf found users) state := by
  induction users with
  | nil => exact .pure _ _
  | cons u rest ih =>
    have hfirst : (storage.findActor domain u).Gives state (found u) state :=
      ⟨[.call (.find domain u.name)], by
        rw [Storage.findActor, hfind u List.mem_cons_self]
        rfl⟩
    have hrest := ih fun v hv ↦ hfind v (List.mem_cons_of_mem _ hv)
    refine .bind hfirst (.bind hrest ?_)
    unfold actorsOf
    rw [List.filterMap_cons]
    cases h : found u with
    | none => exact .pure _ _
    | some actor =>
      by_cases hactor : actor = 0
      · rw [Option.filter_some_neg (by simpa using hactor)]
        simp only [hactor, if_true]
        exact .pure _ _
      · rw [Option.filter_some_pos (by simpa using hactor)]
        simp only [hactor, if_false]
        exact .pure _ _

/-- The search of a key in the new representation asks the roster, which knows the given actors. -/
def Finds (p : Planner) (storage : Storage ω) (handle : Handle) (users : List User)
    (found : User → Option Int) (state : ω) : Prop :=
  p.stage.reading = .new →
    ∀ u ∈ users, storage.find handle.domain u state = .ok (found u)

/-- The tables that a search adds. -/
def searchTables (stage : Stage) (key : String) (field : UserField) (actors : List Int) : Tables :=
  match stage.reading with
  | .old => .empty
  | .new =>
    if actors = [] then .empty
    else actorTables key field

theorem exists_alternatives (p : Planner) {storage : Storage ω} {handle : Handle} {key : String}
    {field : UserField} (hplain : field.HasPlainNames key) {users : List User} (includeIds : Bool)
    {found : User → Option Int} {state : ω} (hfind : p.Finds storage handle users found state) :
    ∃ alternatives, (p.alternatives storage handle key field users includeIds).Gives state
        (searchTables p.stage key field (actorsOf found users), alternatives) state ∧
      Written handle.dialect
        (buckets p.stage key field includeIds users (actorsOf found users)) alternatives := by
  unfold Planner.alternatives searchTables buckets
  unfold Finds at hfind
  cases hreading : p.stage.reading with
  | old =>
    obtain ⟨found, hfound, hwritten⟩ := exists_oldAlternatives handle.dialect hplain.plain_key
      hplain.plain_text includeIds users
    exact ⟨found, .bind (.ofExcept hfound state) (.pure _ _), hwritten⟩
  | new =>
    cases users with
    | nil => exact ⟨[], .pure _ _, rfl⟩
    | cons u rest =>
      obtain ⟨alternatives, hmade, hwritten⟩ :=
        exists_newAlternatives handle.dialect hplain (actorsOf found (u :: rest))
      exact ⟨alternatives, .bind (.sign _ _) (.bind (gives_findActors (hfind hreading))
        (.ofExcept hmade state)), hwritten⟩

theorem exists_anyOf {d : Dialect} {buckets : List Bucket} {alternatives : List (String × String)}
    (h : Written d buckets alternatives) :
    ∃ text c, anyOf alternatives = .ok text ∧ parse d text = some c ∧
      (∀ columns, c.Holds columns ↔ ∃ b ∈ bucketConditions buckets, b.2.Holds columns) ∧
      (alternatives = [] → text = impossible) := by
  unfold Written at h
  generalize bucketConditions buckets = conditions at h
  cases alternatives with
  | nil =>
    have hnone : conditions = [] := by simpa using h.symm
    subst hnone
    refine ⟨impossible, .equal (.value (.int 1)) (.value (.int 0)), rfl, by cases d <;> rfl, ?_,
      fun _ ↦ rfl⟩
    intro columns
    refine iff_of_false ?_ (by simp)
    intro h
    cases Option.some.inj h
  | cons first rest =>
    cases conditions with
    | nil => cases h
    | cons condition conditions =>
      have htexts : ((first :: rest).map Prod.snd).map (parse d) =
          ((condition :: conditions).map Prod.snd).map some := by
        have hsecond := congrArg (List.map Prod.snd) h
        simpa only [List.map_map, Function.comp_def] using hsecond
      obtain ⟨text, hcombine, hparse⟩ := parse_combine .or htexts
      refine ⟨text, _, hcombine, hparse, ?_, nofun⟩
      intro columns
      rw [Condition.holds_chain_or, ← List.map_cons (f := Prod.snd)]
      constructor
      · rintro ⟨c, hc, hholds⟩
        obtain ⟨b, hb, rfl⟩ := List.mem_map.mp hc
        exact ⟨b, hb, hholds⟩
      · rintro ⟨b, hb, hholds⟩
        exact ⟨b.2, List.mem_map_of_mem hb, hholds⟩

/-- The conditions of the buckets hold where a column has a value of its bucket. -/
theorem exists_bucketCondition_holds_iff (buckets : List Bucket) (columns : Expression → Datum) :
    (∃ c ∈ bucketConditions buckets, c.2.Holds columns) ↔
      ∃ b ∈ buckets, columns b.column ≠ .null ∧ ∃ v ∈ b.values,
        (columns b.column).same v = true := by
  constructor
  · rintro ⟨c, hc, hholds⟩
    obtain ⟨b, hb, rfl⟩ := List.mem_map.mp hc
    have hmem := (List.mem_filter.mp hb).1
    exact ⟨b, hmem, (Condition.holds_oneOf ..).mp hholds⟩
  · rintro ⟨b, hb, hcolumn, v, hv, hsame⟩
    have hsome : (!b.values.isEmpty) = true := by
      simpa using List.ne_nil_of_mem hv
    exact ⟨_, List.mem_map_of_mem (List.mem_filter.mpr ⟨hb, hsome⟩),
      (Condition.holds_oneOf ..).mpr ⟨hcolumn, v, hv, hsame⟩⟩

/-! ### The search -/

theorem nodup_bucketConditions (stage : Stage) (key : String) (field : UserField)
    (includeIds : Bool) (users : List User) (actors : List Int) :
    ((bucketConditions (buckets stage key field includeIds users actors)).map Prod.fst).Nodup := by
  have hsub : ((bucketConditions (buckets stage key field includeIds users actors)).map
      Prod.fst).Sublist ((buckets stage key field includeIds users actors).map Bucket.name) := by
    rw [bucketConditions, List.map_map]
    exact List.Sublist.map Bucket.name List.filter_sublist
  refine hsub.nodup ?_
  unfold buckets
  cases stage.reading with
  | old => exact (by decide : ["userid", "username"].Nodup)
  | new => exact (by decide : ["actor"].Nodup)

/-- What a search of a key that passes the gate gives. -/
structure SearchMeans (s : Search) (d : Dialect) (source : Tables) (buckets : List Bucket) :
    Prop where
  tables : s.source = source
  alternatives : Written d buckets s.alternatives.entries
  condition : ∃ c, parse d s.condition = some c ∧
    ∀ columns, c.Holds columns ↔ ∃ b ∈ bucketConditions buckets, b.2.Holds columns
  nothing : s.alternatives.entries = [] → s.condition = impossible

/-- The search of a key that passes the gate succeeds, and it looks for the values of the
buckets. -/
theorem exists_search (p : Planner) {storage : Storage ω} {handle : Handle} {key : String}
    {field : UserField} (hadmits : p.table.Admits key field) (hplain : field.HasPlainNames key)
    {among : Datum} {users : List User} (husers : User.listOf among = .ok users)
    (includeIds : Bool) {found : User → Option Int} {state : ω}
    (hfind : p.Finds storage handle users found state) :
    ∃ s, (p.search storage handle key among includeIds).Gives state s state ∧
      SearchMeans s handle.dialect (searchTables p.stage key field (actorsOf found users))
        (buckets p.stage key field includeIds users (actorsOf found users)) := by
  obtain ⟨alternatives, hmade, hwritten⟩ := p.exists_alternatives hplain includeIds hfind
  obtain ⟨text, c, htext, hparse, hholds, hnothing⟩ := exists_anyOf hwritten
  have hentries : (OrderedMap.ofList alternatives).entries = alternatives := by
    refine OrderedMap.entries_ofList ?_
    have hnames := congrArg (List.map Prod.fst) hwritten
    simp only [List.map_map, Function.comp_def] at hnames
    rw [hnames]
    exact nodup_bucketConditions _ _ _ _ _ _
  refine ⟨⟨_, text, OrderedMap.ofList alternatives⟩, ?_, ⟨rfl, ?_, ⟨c, hparse, hholds⟩, ?_⟩⟩
  · exact .bind (hadmits.gives_pass state) (.bind (.ofExcept husers state)
      (.bind hmade (.bind (.ofExcept htext state) (.bind (.sign _ _) (.pure _ _)))))
  · exact hentries.symm ▸ hwritten
  · exact hentries.symm ▸ hnothing

end StagedColumns.Planner
