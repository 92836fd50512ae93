import StagedColumns.User

/-!
# What stands for users

Nobody, one user, and collections of users are taken for users. Everything else is refused by the
type of the value that is at fault: the whole, if it is no collection, and otherwise the first of
its items that is no user, however late it comes.
-/

set_option autoImplicit false

namespace StagedColumns

namespace Datum

/-- The value stands for nobody, or for one user. -/
def standsForUser : Datum → Bool
  | .null | .bool false | .user .. => true
  | _ => false

/-- The value has items, but not as a collection of users would. -/
def isOtherCollection : Datum → Bool
  | .text _ | .bytes _ | .record _ => true
  | _ => false

/-- The value stands for no users, because of a value of the type: the value itself, which is no
collection, or else the first of its items that is no user. -/
inductive NotUsers (d : Datum) : String → Prop
  | noCollection (halone : d.standsForUser = false)
      (hitems : d.isOtherCollection = true ∨ ∃ failure, d.items = .error failure) :
      NotUsers d d.typeName
  | badItem {front back : List Datum} {item : Datum} (halone : d.standsForUser = false)
      (hcollection : d.isOtherCollection = false) (hitems : d.items = .ok (front ++ item :: back))
      (hfront : ∀ other ∈ front, (User.ofDatum? other).isSome)
      (hitem : User.ofDatum? item = none) : NotUsers d item.typeName

end Datum

namespace User

theorem listOfItems_eq_error_iff (items : List Datum) (failure : Failure) :
    listOfItems items = .error failure ↔
      ∃ front item back, items = front ++ item :: back ∧
        (∀ other ∈ front, (ofDatum? other).isSome) ∧ ofDatum? item = none ∧
        failure = .invalidUsers searchName item.typeName := by
  induction items with
  | nil => simp [listOfItems]
  | cons first rest ih =>
    cases hfirst : ofDatum? first with
    | none =>
      have hlist : listOfItems (first :: rest) =
          .error (.invalidUsers searchName first.typeName) := by
        rw [listOfItems, hfirst]
      rw [hlist]
      constructor
      · intro h
        cases h
        exact ⟨[], first, rest, rfl, nofun, hfirst, rfl⟩
      · rintro ⟨front, item, back, hitems, hfront, hitem, rfl⟩
        cases front with
        | nil =>
          cases hitems
          rfl
        | cons other front =>
          cases hitems
          simp [hfirst] at hfront
    | some user =>
      have hlist : listOfItems (first :: rest) = .error failure ↔
          listOfItems rest = .error failure := by
        rw [listOfItems, hfirst]
        cases listOfItems rest with
        | error other => exact Iff.rfl
        | ok users => exact ⟨nofun, nofun⟩
      rw [hlist, ih]
      constructor
      · rintro ⟨front, item, back, rfl, hfront, hitem, rfl⟩
        refine ⟨first :: front, item, back, rfl, ?_, hitem, rfl⟩
        exact List.forall_mem_cons.mpr ⟨by simp [hfirst], hfront⟩
      · rintro ⟨front, item, back, hitems, hfront, hitem, rfl⟩
        cases front with
        | nil =>
          cases hitems
          simp [hfirst] at hitem
        | cons other front =>
          cases hitems
          exact ⟨front, item, back, rfl, (List.forall_mem_cons.mp hfront).2, hitem, rfl⟩

/-- Nobody and one user are users; a text, bytes and a record are none; of other values the items
are looked at. -/
theorem listOf_cases (d : Datum) :
    (d.standsForUser = true ∧ ∃ users, listOf d = .ok users) ∨
      d.standsForUser = false ∧
        (d.isOtherCollection = true ∧ listOf d = .error (.invalidUsers searchName d.typeName) ∨
          d.isOtherCollection = false ∧
            listOf d =
              match d.items with
              | .ok items => listOfItems items
              | .error _ => .error (.invalidUsers searchName d.typeName)) := by
  cases d with
  | null => exact .inl ⟨rfl, _, rfl⟩
  | user => exact .inl ⟨rfl, _, rfl⟩
  | bool b =>
    cases b with
    | false => exact .inl ⟨rfl, _, rfl⟩
    | true => exact .inr ⟨rfl, .inr ⟨rfl, rfl⟩⟩
  | text => exact .inr ⟨rfl, .inl ⟨rfl, rfl⟩⟩
  | bytes => exact .inr ⟨rfl, .inl ⟨rfl, rfl⟩⟩
  | record => exact .inr ⟨rfl, .inl ⟨rfl, rfl⟩⟩
  | _ => exact .inr ⟨rfl, .inr ⟨rfl, rfl⟩⟩

theorem listOf_eq_error_iff (d : Datum) (failure : Failure) :
    listOf d = .error failure ↔
      ∃ type, d.NotUsers type ∧ failure = .invalidUsers searchName type := by
  rcases listOf_cases d with ⟨halone, users, hlist⟩ | ⟨halone, ⟨hother, hlist⟩ | ⟨hother, hlist⟩⟩
  · rw [hlist]
    constructor
    · nofun
    · rintro ⟨type, hnot, -⟩
      cases hnot <;> simp_all
  · rw [hlist]
    constructor
    · intro h
      cases h
      exact ⟨_, .noCollection halone (.inl hother), rfl⟩
    · rintro ⟨type, hnot, rfl⟩
      cases hnot with
      | noCollection => rfl
      | badItem _ hcollection => simp [hother] at hcollection
  · rw [hlist]
    cases hitems : d.items with
    | error reason =>
      simp only
      constructor
      · intro h
        cases h
        exact ⟨_, .noCollection halone (.inr ⟨reason, hitems⟩), rfl⟩
      · rintro ⟨type, hnot, rfl⟩
        cases hnot with
        | noCollection => rfl
        | badItem _ _ hfound => simp [hitems] at hfound
    | ok items =>
      simp only
      rw [listOfItems_eq_error_iff]
      constructor
      · rintro ⟨front, item, back, rfl, hfront, hitem, rfl⟩
        exact ⟨_, .badItem halone hother hitems hfront hitem, rfl⟩
      · rintro ⟨type, hnot, rfl⟩
        cases hnot with
        | noCollection _ hnone => simp [hother, hitems] at hnone
        | badItem _ _ hfound hfront hitem =>
          rw [hitems] at hfound
          cases hfound
          exact ⟨_, _, _, rfl, hfront, hitem, rfl⟩

end User

end StagedColumns
