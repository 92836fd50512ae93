import StagedColumns.Failure.Report
import StagedColumns.PendingWrite
import StagedColumns.Proofs.OrderedMap

/-!
# What a pending write needs

A pending write that is accepted has all that its action needs (`make_eq_ok_iff`), and what it is
still to be given are the values of the columns that it requires. These are looked for one after the
other, so that the first one without a value is reported before anything else is done
(`repeatedColumns_of_missing`), and all of them are copied if none is missing
(`repeatedColumns_of_complete`).
-/

set_option autoImplicit false

namespace StagedColumns

/-- The failure is of the kind, or of a more special one. -/
def Failure.Is (f : Failure) (kind : Kind) : Prop :=
  ∃ k, f.kind? = some k ∧ kind ∈ k.family

theorem Failure.is_iff {f : Failure} {own kind : Kind} (h : f.kind? = some own) :
    f.Is kind ↔ kind ∈ own.family := by
  simp [Failure.Is, h]

/-- The values handed in, by their columns: those of a record, or none at all. -/
inductive Datum.HandsIn : Datum → List (String × Datum) → Prop
  | nothing : HandsIn .null []
  | record (entries : List (String × Datum)) : HandsIn (.record entries) entries

/-- Nothing at all counts as a record without entries. -/
theorem Datum.HandsIn.eq_record {extras : Datum} {entries : List (String × Datum)}
    (h : extras.HandsIn entries) :
    (if extras.truthy then extras else .record []) = .record entries := by
  cases h with
  | nothing => rfl
  | record entries => cases entries <;> rfl

/-- The action has all that it needs: a temp table unless there is nothing to do, and an actor id
and a handle where a row is to be stored. -/
structure WriteAction.Has (action : WriteAction) (table : Option TempTable)
    (actor : Option Int) (handle : Option Handle) : Prop where
  table_isSome : action ≠ .nothing → table.isSome = true
  actor_isSome : action = .store → actor.isSome = true
  handle_isSome : action = .store → handle.isSome = true

namespace PendingWrite

variable {key : String} {entries : List (String × Datum)}

/-- All columns that the write requires are among those handed in. -/
def Complete (w : PendingWrite) (columns : List String) : Prop :=
  ∀ column ∈ w.requiredColumns, column ∈ columns

instance (w : PendingWrite) (columns : List String) : Decidable (w.Complete columns) :=
  inferInstanceAs (Decidable (∀ column ∈ w.requiredColumns, column ∈ columns))

/-- The column is the first one that the write requires and that is not handed in. -/
def FirstMissing (w : PendingWrite) (columns : List String) (column : String) : Prop :=
  ∃ before after, w.requiredColumns = before ++ column :: after ∧
    (∀ earlier ∈ before, earlier ∈ columns) ∧ column ∉ columns

theorem FirstMissing.not_complete {w : PendingWrite} {columns : List String} {column : String}
    (h : w.FirstMissing columns column) : ¬w.Complete columns := by
  obtain ⟨before, after, heq, -, hmissing⟩ := h
  intro hcomplete
  exact hmissing (hcomplete column (heq ▸ List.mem_append_right before List.mem_cons_self))

/-- There is at most one first missing column. -/
theorem FirstMissing.unique {w : PendingWrite} {columns : List String} {column other : String}
    (h : w.FirstMissing columns column) (hother : w.FirstMissing columns other) :
    column = other := by
  obtain ⟨before, after, heq, hbefore, hmissing⟩ := h
  obtain ⟨front, back, heq', hfront, hmissing'⟩ := hother
  have hfound : w.requiredColumns.find? (fun c ↦ decide (c ∉ columns)) = some column :=
    List.find?_eq_some_iff_append.mpr ⟨by simpa using hmissing, before, after, heq,
      by simpa using hbefore⟩
  have hfound' : w.requiredColumns.find? (fun c ↦ decide (c ∉ columns)) = some other :=
    List.find?_eq_some_iff_append.mpr ⟨by simpa using hmissing', front, back, heq',
      by simpa using hfront⟩
  exact Option.some.inj (hfound.symm.trans hfound')

/-- Either nothing is missing, or there is a first column that is. -/
theorem complete_or_firstMissing (w : PendingWrite) (columns : List String) :
    w.Complete columns ∨ ∃ column, w.FirstMissing columns column := by
  cases hfound : w.requiredColumns.find? fun column ↦ decide (column ∉ columns) with
  | none =>
    refine .inl fun column hcolumn ↦ ?_
    simpa using List.find?_eq_none.mp hfound column hcolumn
  | some column =>
    obtain ⟨hmissing, before, after, heq, hbefore⟩ := List.find?_eq_some_iff_append.mp hfound
    exact .inr ⟨column, before, after, heq, by simpa using hbefore, by simpa using hmissing⟩

/-- The values handed in, by the columns of the temp table that repeat them. -/
def copied (entries : List (String × Datum)) (copies : List (String × String)) :
    List (String × Datum) :=
  copies.map fun copy ↦ (copy.1, (entries.lookup copy.2).getD .null)

theorem repeatedColumns_cons_of_mem {copy : String × String} {rest : List (String × String)}
    (hgiven : copy.2 ∈ entries.map Prod.fst) :
    repeatedColumns key (.record entries) (copy :: rest) =
      (repeatedColumns key (.record entries) rest).map
        ((copy.1, (entries.lookup copy.2).getD .null) :: ·) := by
  obtain ⟨value, hvalue⟩ := Option.isSome_iff_exists.mp (lookup_isSome_iff_mem.mpr hgiven)
  rw [repeatedColumns, Datum.valueUnder, hvalue]
  simp only [bind, Except.bind]
  cases repeatedColumns key (.record entries) rest <;> rfl

theorem repeatedColumns_of_complete (key : String) {copies : List (String × String)}
    (hcomplete : ∀ source ∈ copies.map Prod.snd, source ∈ entries.map Prod.fst) :
    repeatedColumns key (.record entries) copies = .ok (copied entries copies) := by
  induction copies with
  | nil => rfl
  | cons copy rest ih =>
    simp only [List.map_cons, List.mem_cons, forall_eq_or_imp] at hcomplete
    rw [repeatedColumns_cons_of_mem hcomplete.1, ih hcomplete.2]
    rfl

theorem repeatedColumns_of_missing (key : String) {copies : List (String × String)}
    {before after : List String} {source : String} (heq : copies.map Prod.snd = before ++ source :: after)
    (hbefore : ∀ earlier ∈ before, earlier ∈ entries.map Prod.fst)
    (hmissing : source ∉ entries.map Prod.fst) :
    repeatedColumns key (.record entries) copies = .error (.missingValue key source) := by
  induction copies generalizing before with
  | nil => simp at heq
  | cons copy rest ih =>
    cases before with
    | nil =>
      obtain ⟨rfl, -⟩ := List.cons.inj heq
      have hnone : entries.lookup copy.2 = none := lookup_eq_none_of_fresh hmissing
      rw [repeatedColumns, Datum.valueUnder, hnone]
      rfl
    | cons earlier before =>
      obtain ⟨hhead, htail⟩ := List.cons.inj heq
      simp only [List.mem_cons, forall_eq_or_imp] at hbefore
      rw [repeatedColumns_cons_of_mem (hhead ▸ hbefore.1), ih htail hbefore.2]
      rfl

/-- What a pending write is made of, for each action with all that the action needs. -/
inductive Made (key : String) :
    WriteAction → Option TempTable → Option Int → Option Handle → PendingWrite → Prop
  | nothing (table : Option TempTable) (actor : Option Int) (handle : Option Handle) :
      Made key .nothing table actor handle ⟨key, .nothing table actor⟩
  | check (t : TempTable) (actor : Option Int) (handle : Option Handle) :
      Made key .check (some t) actor handle ⟨key, .check t actor⟩
  | store (t : TempTable) (actor : Int) (handle : Handle) :
      Made key .store (some t) (some actor) (some handle) ⟨key, .store t actor handle⟩

theorem make_eq_ok_iff {action : WriteAction} {table : Option TempTable} {actor : Option Int}
    {handle : Option Handle} {w : PendingWrite} :
    make key action table actor handle = .ok w ↔ Made key action table actor handle w := by
  constructor
  · intro h
    cases action with
    | nothing =>
      cases h
      exact .nothing table actor handle
    | check =>
      cases table with
      | none => cases h
      | some t =>
        cases h
        exact .check t actor handle
    | store =>
      cases table with
      | none => cases h
      | some t =>
        cases actor with
        | none => cases h
        | some actor =>
          cases handle with
          | none => cases h
          | some handle =>
            cases h
            exact .store t actor handle
  · intro h
    cases h <;> rfl

/-- A pending write is accepted exactly if there is all that its action needs. -/
theorem exists_made_iff {action : WriteAction} {table : Option TempTable} {actor : Option Int}
    {handle : Option Handle} :
    (∃ w, Made key action table actor handle w) ↔ action.Has table actor handle := by
  constructor
  · rintro ⟨w, hmade⟩
    cases hmade with
    | nothing => exact ⟨fun h ↦ absurd rfl h, nofun, nofun⟩
    | check => exact ⟨fun _ ↦ rfl, nofun, nofun⟩
    | store => exact ⟨fun _ ↦ rfl, fun _ ↦ rfl, fun _ ↦ rfl⟩
  · intro h
    cases action with
    | nothing => exact ⟨_, .nothing table actor handle⟩
    | check =>
      obtain ⟨t, rfl⟩ := Option.isSome_iff_exists.mp (h.table_isSome nofun)
      exact ⟨_, .check t actor handle⟩
    | store =>
      obtain ⟨t, rfl⟩ := Option.isSome_iff_exists.mp (h.table_isSome nofun)
      obtain ⟨actor, rfl⟩ := Option.isSome_iff_exists.mp (h.actor_isSome rfl)
      obtain ⟨handle, rfl⟩ := Option.isSome_iff_exists.mp (h.handle_isSome rfl)
      exact ⟨_, .store t actor handle⟩

end PendingWrite

end StagedColumns
