import StagedColumns.Proofs.Field.DefaultNames
import StagedColumns.Proofs.Planner.Misuse
import StagedColumns.Proofs.Planner.Write
import StagedColumns.Proofs.Query.DatabaseStorage

/-!
# The two ways to write cover every field

A field that passes the gate is accepted by the direct write if it has no temp table, and by the
linked one if it has a temp table or had one in an earlier version. So at least one of them accepts
it, and a way that does not names the other one, which does (`writeBy_of_not_accepts`). Where both
accept the field they give the same values, and nothing is pending. The actor id that was acquired
has exactly one place: a column of the main row, or a column that is known already in the row that
is pending (`actorPlaces_of_gives`).
-/

set_option autoImplicit false

namespace StagedColumns

variable {ω : Type}

/-- No state makes the roster of the domain refuse to enter the user. -/
def Storage.Enrols (storage : Storage ω) (domain : String) (user : User) : Prop :=
  ∀ state, ∃ actor later, storage.acquire domain user state = (.ok actor, later)

namespace Planner

/-- What a way to write is called. -/
def writeName (linked : Bool) : String :=
  if linked then linkedWrite else directWrite

/-- A place for an actor id: a column of the main row, or one of the row that is pending. -/
inductive ActorPlace
  | main (column : String)
  | pending (column : String)
deriving DecidableEq

/-- The places where a write puts the actor id, with what it puts there: the column of the main row
that is meant for it, and the columns of the pending row that are known already. -/
def actorPlaces (actorColumn : String) (row : Row) (w : PendingWrite) : List (ActorPlace × Datum) :=
  ((row.get? actorColumn).map fun value ↦ (ActorPlace.main actorColumn, value)).toList ++
    w.knownColumns.entries.map fun entry ↦ (.pending entry.1, entry.2)

/-- The place that a field has for the actor id. -/
def actorPlace (field : UserField) (key : String) : ActorPlace :=
  match field.tempTable with
  | none => .main (field.columnNames key).actor
  | some t => .pending t.actorColumn

section Ways

variable {p : Planner} {storage : Storage ω} {handle : Handle} {key : String} {field : UserField}
variable {user : User} {state later : ω}

theorem exists_acquires (p : Planner) (henrols : storage.Enrols handle.domain user) (state : ω) :
    ∃ actor later, p.Acquires storage handle user state actor later := by
  unfold Acquires
  by_cases hnew : p.stage.writesNew = true
  · obtain ⟨actor, later, hacquire⟩ := henrols state
    exact ⟨actor, later, by rw [if_pos hnew]; exact hacquire⟩
  · exact ⟨0, state, by rw [if_neg hnew]⟩

theorem accepts_or_accepts_other (field : UserField) {linked : Bool}
    (hrefuses : field.accepts linked = false) : field.accepts (!linked) = true := by
  cases linked with
  | true =>
    simp only [UserField.accepts, if_true, Bool.or_eq_false_iff] at hrefuses
    simpa [UserField.accepts] using hrefuses.2
  | false =>
    have hsome : field.tempTable.isSome = true := by
      simpa [UserField.accepts] using hrefuses
    simp [UserField.accepts, hsome]

/-- A way that does not accept the field names the other one, and has changed nothing by then. -/
theorem writeBy_of_not_accepts (storage : Storage ω) (handle : Handle) (user : User)
    (hadmits : p.table.Admits key field) {linked : Bool}
    (hrefuses : field.accepts linked = false) (state : ω) :
    ∃ signs, p.writeBy storage handle key user linked state =
      ⟨.error (.wrongWrite key (writeName !linked)), state, signs⟩ := by
  cases linked with
  | true =>
    simp only [UserField.accepts, if_true, Bool.or_eq_false_iff, Option.isSome_eq_false_iff,
      Option.isNone_iff_eq_none] at hrefuses
    obtain ⟨signs, hfailed, -⟩ := (p.screens_writeLinked storage handle key user).refused
      (.inr ⟨field, hadmits, .linked hrefuses.2 hrefuses.1⟩) state
    exact ⟨signs, hfailed⟩
  | false =>
    have hsome : field.tempTable.isSome = true := by
      simpa [UserField.accepts] using hrefuses
    obtain ⟨t, htable⟩ := Option.isSome_iff_exists.mp hsome
    obtain ⟨signs, hfailed, -⟩ := (p.screens_write storage handle key user).refused
      (.inr ⟨field, hadmits, .direct htable⟩) state
    exact ⟨signs, Operation.bind_of_error hfailed _⟩

/-- Where rosters enter the user, a way to write gives something exactly if it accepts the field.
-/
theorem exists_gives_writeBy_iff (hadmits : p.table.Admits key field)
    (henrols : storage.Enrols handle.domain user) (linked : Bool) (state : ω) :
    (∃ given later, (p.writeBy storage handle key user linked).Gives state given later) ↔
      field.accepts linked = true := by
  constructor
  · rintro ⟨given, later, trace, hgiven⟩
    by_contra hrefuses
    obtain ⟨signs, hfailed⟩ :=
      writeBy_of_not_accepts storage handle user hadmits (Bool.eq_false_iff.mpr hrefuses) state
    rw [hgiven] at hfailed
    cases hfailed
  · intro haccepts
    obtain ⟨actor, later, hacquires⟩ := p.exists_acquires henrols state
    exact ⟨_, later, gives_writeBy hadmits haccepts hacquires⟩

/-- What a write gives is what follows from the field and the actor id that was acquired. -/
theorem of_gives_writeBy (hadmits : p.table.Admits key field)
    (henrols : storage.Enrols handle.domain user) {linked : Bool} {row : Row} {w : PendingWrite}
    (h : (p.writeBy storage handle key user linked).Gives state (row, w) later) :
    ∃ actor, p.Acquires storage handle user state actor later ∧
      row = mainValues p.stage key field user actor ∧
      w = pendingWrite p.stage handle key field actor := by
  have haccepts := (exists_gives_writeBy_iff hadmits henrols linked state).mp ⟨_, _, h⟩
  obtain ⟨actor, next, hacquires⟩ := p.exists_acquires henrols state
  obtain ⟨heq, rfl⟩ := h.unique (gives_writeBy hadmits haccepts hacquires)
  cases heq
  exact ⟨actor, hacquires, rfl, rfl⟩

theorem knownColumns_pendingWrite (stage : Stage) (handle : Handle) (key : String)
    (field : UserField) (actor : Int) :
    (pendingWrite stage handle key field actor).knownColumns.entries =
      match field.tempTable with
      | some t => if stage.writesNew then [(t.actorColumn, .int actor)] else []
      | none => [] := by
  unfold pendingWrite
  cases field.tempTable with
  | none => rfl
  | some t =>
    simp only
    by_cases hnew : stage.writesNew = true
    · rw [if_pos hnew, if_pos hnew]
      rfl
    · rw [if_neg hnew, if_neg hnew]
      rfl

/-- The actor id has exactly the place that the field has for it, or none where no actor ids are
written. -/
theorem actorPlaces_eq (stage : Stage) (handle : Handle) (user : User) (actor : Int)
    (hcolumns : [key, (field.columnNames key).text, (field.columnNames key).actor].Nodup) :
    actorPlaces (field.columnNames key).actor (mainValues stage key field user actor)
        (pendingWrite stage handle key field actor) =
      if stage.writesNew then [(actorPlace field key, .int actor)] else [] := by
  unfold actorPlaces actorPlace
  rw [get?_mainValues user actor hcolumns, if_pos rfl, knownColumns_pendingWrite]
  by_cases hnew : stage.writesNew = true
  · cases field.tempTable <;> simp [hnew]
  · cases field.tempTable <;> simp [hnew]

theorem exists_gives_write_iff (p : Planner) (storage : Storage ω) (handle : Handle)
    (key : String) (user : User) (state : ω) :
    (∃ row later, (p.write storage handle key user).Gives state row later) ↔
      ∃ given later, (p.writeBy storage handle key user false).Gives state given later := by
  constructor
  · rintro ⟨row, later, hwritten⟩
    exact ⟨_, later, .bind hwritten (.pure _ _)⟩
  · rintro ⟨given, later, hgiven⟩
    obtain ⟨row, middle, hwritten, -⟩ := hgiven.of_bind
    exact ⟨row, middle, hwritten⟩

/-- Where both ways to write give something, for one actor id they give the same values, and
nothing is pending. -/
theorem ways_agree (hadmits : p.table.Admits key field) (htable : field.tempTable = none)
    {state' later' : ω} {row row' : Row} {w : PendingWrite} {actor : Int}
    (haccepts : field.accepts true = true)
    (hacquires : p.Acquires storage handle user state actor later)
    (hacquires' : p.Acquires storage handle user state' actor later')
    (hdirect : (p.write storage handle key user).Gives state row later)
    (hlinked : (p.writeLinked storage handle key user).Gives state' (row', w) later') :
    row = row' ∧ w = .idle key := by
  have hrow := (hdirect.unique (gives_write hadmits htable hacquires)).1
  have hlinked := (hlinked.unique (gives_writeLinked hadmits haccepts hacquires')).1
  have hpending : pendingWrite p.stage handle key field actor = .idle key := by
    rw [pendingWrite, htable]
  rw [hpending] at hlinked
  cases hlinked
  exact ⟨hrow, rfl⟩

/-- For a key that passes the gate, and where rosters enter the user: the direct write succeeds
exactly if the field has no temp table, the linked one exactly if it has one or had one in an
earlier version. So one of the two succeeds, and one that does not fails with the name of the other,
which then succeeds. If both succeed, for the same actor id they give equal values, and what is
pending is finished without writing anything. And if the columns of the main row have different
names, a write gives values for the old ones exactly if the old representation is written, and puts
the actor id that was acquired into exactly one place exactly if the new one is: into the main row,
or into the pending row where there is a temp table. -/
theorem ways_to_write_cover_fields (hadmits : p.table.Admits key field)
    (henrols : storage.Enrols handle.domain user) :
    (∀ state, (∃ row later, (p.write storage handle key user).Gives state row later) ↔
      field.tempTable = none) ∧
    (∀ state, (∃ row w later, (p.writeLinked storage handle key user).Gives state (row, w) later) ↔
      field.tempTable ≠ none ∨ field.formerTempTableIn ≠ none) ∧
    (∀ state, ∃ linked given later,
      (p.writeBy storage handle key user linked).Gives state given later) ∧
    (∀ linked state failure,
      (p.writeBy storage handle key user linked state).result = .error failure →
      failure = .wrongWrite key (writeName !linked) ∧ ∃ given later,
        (p.writeBy storage handle key user !linked).Gives
          (p.writeBy storage handle key user linked state).state given later) ∧
    (∀ state later state' later' row row' w actor,
      p.Acquires storage handle user state actor later →
      p.Acquires storage handle user state' actor later' →
      (p.write storage handle key user).Gives state row later →
      (p.writeLinked storage handle key user).Gives state' (row', w) later' →
      row = row' ∧ ∀ (mainKey extras : Datum) (now : ω), ∃ c : Completion,
        w.finish storage mainKey extras now = ⟨.ok c, now, []⟩ ∧ c.performed = false) ∧
    ([key, (field.columnNames key).text, (field.columnNames key).actor].Nodup →
      ∀ linked state row w later,
        (p.writeBy storage handle key user linked).Gives state (row, w) later →
        row.names = (if p.stage.writesOld then [key, (field.columnNames key).text] else []) ++
          (if p.stage.writesNew ∧ field.tempTable = none then [(field.columnNames key).actor]
            else []) ∧
        ∃ actor, p.Acquires storage handle user state actor later ∧
          actorPlaces (field.columnNames key).actor row w =
            if p.stage.writesNew then [(actorPlace field key, .int actor)] else []) := by
  have hdirect : field.accepts false = true ↔ field.tempTable = none := by
    simp [UserField.accepts]
  have hlinked : field.accepts true = true ↔
      field.tempTable ≠ none ∨ field.formerTempTableIn ≠ none := by
    simp [UserField.accepts, Option.isSome_iff_ne_none, or_comm]
  have hsucceeds := exists_gives_writeBy_iff hadmits henrols
  refine ⟨fun state ↦ ?_, fun state ↦ ?_, fun state ↦ ?_, ?_, ?_, ?_⟩
  · rw [exists_gives_write_iff, hsucceeds, hdirect]
  · rw [← hlinked, ← hsucceeds true state]
    simp only [Prod.exists]
    rfl
  · by_cases haccepts : field.accepts false = true
    · exact ⟨false, (hsucceeds false state).mpr haccepts⟩
    · exact ⟨true, (hsucceeds true state).mpr
        (accepts_or_accepts_other field (Bool.eq_false_iff.mpr haccepts))⟩
  · intro linked state failure hfailed
    have hrefuses : field.accepts linked = false := by
      by_contra haccepts
      obtain ⟨given, later, trace, hgiven⟩ :=
        (hsucceeds linked state).mpr (Bool.not_eq_false _ ▸ haccepts)
      rw [hgiven] at hfailed
      cases hfailed
    obtain ⟨signs, hrefused⟩ :=
      writeBy_of_not_accepts storage handle user hadmits hrefuses state
    rw [hrefused] at hfailed ⊢
    cases hfailed
    exact ⟨rfl, (hsucceeds _ state).mpr (accepts_or_accepts_other field hrefuses)⟩
  · intro state later state' later' row row' w actor hacquires hacquires' hgiven hgiven'
    have htable := hdirect.mp ((hsucceeds false state).mp
      ((exists_gives_write_iff ..).mp ⟨row, later, hgiven⟩))
    have haccepts := (hsucceeds true state').mp ⟨(row', w), later', hgiven'⟩
    obtain ⟨hrow, rfl⟩ := ways_agree hadmits htable haccepts hacquires hacquires' hgiven hgiven'
    exact ⟨hrow, fun mainKey extras now ↦ ⟨_, rfl, rfl⟩⟩
  · intro hcolumns linked state row w later hgiven
    obtain ⟨actor, hacquires, rfl, rfl⟩ := of_gives_writeBy hadmits henrols hgiven
    exact ⟨names_mainValues user actor hcolumns, actor, hacquires,
      actorPlaces_eq p.stage handle user actor hcolumns⟩

end Ways

/-- A planner for revisions, whose actors were kept in a temp table once. -/
def revisionPlanner (stage : Stage) : Planner :=
  ⟨stage, ⟨OrderedMap.ofList [("rev_user",
    { UserField.plain with formerTempTableIn := some "1.37" })], false, "core", "planner"⟩⟩

/-- Ada's first revision is written either way, with the same values. -/
theorem revision_written_either_way :
    (revisionPlanner ⟨.both, .new, rfl⟩).table.Admits "rev_user"
        { UserField.plain with formerTempTableIn := some "1.37" } ∧
      Storage.ofDatabase.Enrols "local" ⟨7, "Ada", .null⟩ ∧
      ∃ row w later, ((revisionPlanner ⟨.both, .new, rfl⟩).writeLinked Storage.ofDatabase
          ⟨"main", .sqlite, "local"⟩ "rev_user" ⟨7, "Ada", .null⟩).Gives ⟨fun _ ↦ []⟩ (row, w)
        later ∧
      row.names = ["rev_user", "rev_user_text", "rev_actor"] ∧
      actorPlaces "rev_actor" row w = [(.main "rev_actor", .int 1)] ∧
      ∀ mainKey extras now, ∃ c : Completion,
        w.finish Storage.ofDatabase mainKey extras now = ⟨.ok c, now, []⟩ ∧
          c.performed = false := by
  have hadmits : (revisionPlanner ⟨.both, .new, rfl⟩).table.Admits "rev_user"
      { UserField.plain with formerTempTableIn := some "1.37" } := ⟨rfl, rfl⟩
  have henrols : Storage.ofDatabase.Enrols (Handle.domain ⟨"main", .sqlite, "local"⟩)
      ⟨7, "Ada", .null⟩ := fun db ↦ ⟨_, _, rfl⟩
  obtain ⟨hdirect, hlinked, -, -, hagree, hplaces⟩ := ways_to_write_cover_fields hadmits henrols
  obtain ⟨row, later, hgiven⟩ := (hdirect ⟨fun _ ↦ []⟩).mpr rfl
  obtain ⟨row', w, later', hgiven'⟩ := (hlinked ⟨fun _ ↦ []⟩).mpr (.inr nofun)
  have hplaces := hplaces (UserField.nodup_defaultColumns "rev_user")
  obtain ⟨-, actor, hacquires, -⟩ := hplaces false _ row _ later (.bind hgiven (.pure _ _))
  obtain ⟨hnames, actor', hacquires', hplace⟩ := hplaces true _ row' w later' hgiven'
  have hactor : actor = 1 := by
    cases hacquires
    rfl
  have hactor' : actor' = 1 := by
    cases hacquires'
    rfl
  subst hactor hactor'
  obtain ⟨rfl, hidle⟩ := hagree _ _ _ _ _ _ w 1 hacquires hacquires' hgiven hgiven'
  exact ⟨hadmits, henrols, row, w, later', hgiven', hnames, hplace, hidle⟩

end Planner

end StagedColumns
