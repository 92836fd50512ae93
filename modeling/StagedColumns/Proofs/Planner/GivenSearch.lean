import StagedColumns.Proofs.Planner.Search

/-!
# What a search that is given consists of

A search that succeeds has passed the gate, has been given users, and has looked for each of them.
Its alternatives are those of one representation, each the test of one column for the values that
are left, and its condition combines them. Nothing is said here of the names of columns: whatever
they are, a search that is given is of this form (`GivenBy`).
-/

set_option autoImplicit false

namespace StagedColumns.Planner

variable {ω : Type}

/-- An alternative is there if there are values, and then it is the test of its column for them. -/
theorem of_alternative_eq_ok {d : Dialect} {name column : String} {values : List Datum}
    {found : List (String × String)} (h : alternative d name column values = .ok found) :
    (values = [] ∧ found = []) ∨
      ∃ text, d.testColumn column (.list values) = .ok text ∧ found = [(name, text)] := by
  unfold alternative at h
  split at h
  · cases h
    exact .inl ⟨rfl, rfl⟩
  · cases htext : d.testColumn column (.list values) with
    | error failure =>
      rw [htext] at h
      cases h
    | ok text =>
      rw [htext] at h
      cases h
      exact .inr ⟨text, rfl, rfl⟩

theorem of_mem_alternative {d : Dialect} {name column : String} {values : List Datum}
    {found : List (String × String)} (h : alternative d name column values = .ok found)
    {other text : String} (hmem : (other, text) ∈ found) :
    other = name ∧ d.testColumn column (.list values) = .ok text := by
  rcases of_alternative_eq_ok h with ⟨-, rfl⟩ | ⟨test, htest, rfl⟩
  · cases hmem
  · cases List.mem_singleton.mp hmem
    exact ⟨rfl, htest⟩

theorem of_oldAlternatives_eq_ok {d : Dialect} {key textColumn : String} {includeIds : Bool}
    {users : List User} {found : List (String × String)}
    (h : oldAlternatives d key textColumn includeIds users = .ok found) :
    ∃ idValues nameValues ids names, alternative d "userid" key idValues = .ok ids ∧
      alternative d "username" textColumn nameValues = .ok names ∧ found = ids ++ names := by
  unfold oldAlternatives at h
  simp only at h
  generalize (users.filter (byId includeIds)).map _ = idValues at h
  generalize (users.filter fun user ↦ !byId includeIds user).map _ = nameValues at h
  cases hids : alternative d "userid" key idValues with
  | error failure =>
    rw [hids] at h
    cases h
  | ok ids =>
    cases hnames : alternative d "username" textColumn nameValues with
    | error failure =>
      rw [hids, hnames] at h
      cases h
    | ok names =>
      rw [hids, hnames] at h
      cases h
      exact ⟨idValues, nameValues, ids, names, hids, hnames, rfl⟩

/-- The tables for the actor id come with the test of the actor id, and not without it. -/
theorem of_newAlternatives_eq_ok {d : Dialect} {key : String} {field : UserField}
    {actors : List Int} {source : Tables} {found : List (String × String)}
    (h : newAlternatives d key (field.columnNames key).actor field.tempTable actors =
      .ok (source, found)) :
    (actors = [] ∧ source = .empty ∧ found = []) ∨
      source = actorTables key field ∧
        ∃ text, found = [("actor", text)] ∧
          d.testColumn (actorExpression key field).render (.list (actors.map .int)) = .ok text := by
  cases actors with
  | nil =>
    cases h
    exact .inl ⟨rfl, rfl, rfl⟩
  | cons actor rest =>
    cases htest : alternative d "actor" (actorExpression key field).render
        ((actor :: rest).map .int) with
    | error failure =>
      unfold actorExpression at htest
      simp only [newAlternatives, htest] at h
      cases h
    | ok alternatives =>
      have hfound := of_alternative_eq_ok htest
      unfold actorExpression at htest
      simp only [newAlternatives, htest] at h
      cases h
      rcases hfound with ⟨hnone, -⟩ | ⟨text, htext, rfl⟩
      · cases hnone
      · exact .inr ⟨rfl, text, rfl, htext⟩

/-- What the roster of a domain answers for a user, if it answers. -/
def knownActor (storage : Storage ω) (domain : String) (state : ω) (u : User) : Option Int :=
  (storage.find domain u state).toOption.join

/-- Actor ids are found for users only if the roster answers for each of them. -/
theorem of_gives_findActors {storage : Storage ω} {domain : String} {users : List User}
    {state later : ω} {actors : List Int}
    (h : (findActors storage domain users).Gives state actors later) :
    later = state ∧ ∃ found : User → Option Int,
      (∀ u ∈ users, storage.find domain u state = .ok (found u)) ∧
        actors = actorsOf found users := by
  have hanswers : ∀ u ∈ users, ∃ answer, storage.find domain u state = .ok answer := by
    induction users generalizing actors later with
    | nil => exact nofun
    | cons u rest ih =>
      obtain ⟨answer, middle, ⟨trace, hfirst⟩, hothers⟩ := h.of_bind
      obtain ⟨others, final, hrest, -⟩ := hothers.of_bind
      cases hfind : storage.find domain u state with
      | error message =>
        rw [Storage.findActor, hfind] at hfirst
        cases hfirst
      | ok found =>
        rw [Storage.findActor, hfind] at hfirst
        cases hfirst
        exact List.forall_mem_cons.mpr ⟨⟨_, hfind⟩, ih hrest⟩
  have hfind : ∀ u ∈ users, storage.find domain u state =
      .ok (knownActor storage domain state u) := by
    intro u hu
    obtain ⟨answer, hanswer⟩ := hanswers u hu
    rw [knownActor, hanswer]
    rfl
  obtain ⟨rfl, rfl⟩ := h.unique (gives_findActors hfind)
  exact ⟨rfl, _, hfind, rfl⟩

section Search

variable {p : Planner} {storage : Storage ω} {handle : Handle} {key : String} {field : UserField}
  {users : List User} {includeIds : Bool} {state later : ω} {source : Tables}
  {found : List (String × String)}

/-- What a search of a key with users finds, in the representation that is read. -/
inductive Found (p : Planner) (storage : Storage ω) (handle : Handle) (key : String)
    (field : UserField) (users : List User) (includeIds : Bool) (state : ω) :
    Tables → List (String × String) → Prop
  | old {found : List (String × String)} (hreading : p.stage.reading = .old)
      (hfound : oldAlternatives handle.dialect key (field.columnNames key).text includeIds users =
        .ok found) : Found p storage handle key field users includeIds state .empty found
  | new {source : Tables} {found : List (String × String)} {actors : User → Option Int}
      (hreading : p.stage.reading = .new)
      (hfind : ∀ u ∈ users, storage.find handle.domain u state = .ok (actors u))
      (hfound : newAlternatives handle.dialect key (field.columnNames key).actor field.tempTable
        (actorsOf actors users) = .ok (source, found)) :
      Found p storage handle key field users includeIds state source found

theorem of_gives_alternatives
    (h : (p.alternatives storage handle key field users includeIds).Gives state (source, found)
      later) :
    later = state ∧ p.Found storage handle key field users includeIds state source found := by
  unfold alternatives at h
  cases hreading : p.stage.reading with
  | old =>
    simp only [hreading] at h
    obtain ⟨alternatives, middle, hmade, hpure⟩ := h.of_bind
    obtain ⟨hold, rfl⟩ := hmade.of_ofExcept
    obtain ⟨heq, rfl⟩ := hpure.unique (.pure _ _)
    cases heq
    exact ⟨rfl, .old hreading hold⟩
  | new =>
    simp only [hreading] at h
    cases users with
    | nil =>
      obtain ⟨heq, rfl⟩ := h.unique (.pure _ state)
      cases heq
      have hnobody : ∀ u ∈ ([] : List User), storage.find handle.domain u later = .ok none := nofun
      exact ⟨rfl, .new hreading hnobody rfl⟩
    | cons u rest =>
      simp only [List.isEmpty_cons, Bool.false_eq_true, if_false] at h
      obtain ⟨_, asked, hask, hfinds⟩ := h.of_bind
      obtain ⟨-, rfl⟩ := hask.unique (.sign _ state)
      obtain ⟨actors, middle, hactors, hmade⟩ := hfinds.of_bind
      obtain ⟨rfl, known, hfind, rfl⟩ := of_gives_findActors hactors
      obtain ⟨hnew, rfl⟩ := hmade.of_ofExcept
      exact ⟨rfl, .new hreading hfind hnew⟩

/-- No two alternatives have one name. -/
theorem Found.nodup_names
    (h : p.Found storage handle key field users includeIds state source found) :
    (found.map Prod.fst).Nodup := by
  cases h with
  | old hreading hfound =>
    obtain ⟨idValues, nameValues, ids, names, hids, hnames, rfl⟩ := of_oldAlternatives_eq_ok hfound
    rcases of_alternative_eq_ok hids with ⟨-, rfl⟩ | ⟨idText, -, rfl⟩ <;>
      rcases of_alternative_eq_ok hnames with ⟨-, rfl⟩ | ⟨nameText, -, rfl⟩ <;> simp
  | new hreading hfind hfound =>
    rcases of_newAlternatives_eq_ok hfound with ⟨-, -, rfl⟩ | ⟨-, text, rfl, -⟩ <;> simp

/-- A search that is given is that of a field that passes the gate and of users, and it has what
was found for them. -/
structure GivenBy (p : Planner) (storage : Storage ω) (handle : Handle) (key : String)
    (among : Datum) (includeIds : Bool) (state : ω) (s : Search) (field : UserField)
    (users : List User) : Prop where
  admits : p.table.Admits key field
  listed : User.listOf among = .ok users
  found : p.Found storage handle key field users includeIds state s.source s.alternatives.entries
  condition : anyOf s.alternatives.entries = .ok s.condition

/-- A search that is given leaves the state as it is. -/
theorem of_gives_search {among : Datum} {s : Search}
    (h : (p.search storage handle key among includeIds).Gives state s later) :
    later = state ∧ ∃ field users,
      p.GivenBy storage handle key among includeIds state s field users := by
  by_cases hadmitted : ∃ field, p.table.Admits key field
  · obtain ⟨field, hadmits⟩ := hadmitted
    obtain ⟨other, passed, hpass, hlisting⟩ := h.of_bind
    obtain ⟨rfl, rfl⟩ := hpass.unique (hadmits.gives_pass state)
    obtain ⟨users, middle, hlist, hsearching⟩ := hlisting.of_bind
    obtain ⟨hlisted, rfl⟩ := hlist.of_ofExcept
    obtain ⟨⟨source, found⟩, searched, hsearched, hcombining⟩ := hsearching.of_bind
    obtain ⟨rfl, hfound⟩ := of_gives_alternatives hsearched
    obtain ⟨text, combined, hcombined, hreporting⟩ := hcombining.of_bind
    obtain ⟨htext, rfl⟩ := hcombined.of_ofExcept
    obtain ⟨rfl, rfl⟩ := hreporting.unique (.bind (.sign _ _) (.pure _ _))
    have hentries := OrderedMap.entries_ofList hfound.nodup_names
    refine ⟨rfl, other, users, hadmits, hlisted, ?_, ?_⟩
    · exact hentries.symm ▸ hfound
    · exact hentries.symm ▸ htext
  · obtain ⟨failure, hpass⟩ := FieldTable.exists_pass_refused (not_exists.mp hadmitted)
    obtain ⟨trace, h⟩ := h
    rw [search, Operation.bind_of_error (hpass state)] at h
    cases h

end Search

end StagedColumns.Planner
