import StagedColumns.Datum.Collection

/-!
# Users

A user as the rows of the old representation name one: by an id and a name. Users who are not
registered, who mostly go by an IP address, have the id zero. Operations that look for the rows of
several users take them in any kind of collection.
-/

set_option autoImplicit false

namespace StagedColumns

/-- A user of a storage domain; without a domain, of the local one. -/
structure User where
  id : Nat
  name : String
  domain : Datum

namespace User

/-- The user is registered. -/
def isRegistered (u : User) : Bool :=
  u.id ≠ 0

/-- The user as a value. -/
def toDatum (u : User) : Datum :=
  .user u.id u.name u.domain

/-- The user that the values describe: the id has to be a natural number, the name a text with at
least one character. -/
def ofData (id name domain : Datum) : Except Failure User :=
  match id, name with
  | .int (.ofNat n), .text s => if s = "" then .error .invalidUserName else .ok ⟨n, s, domain⟩
  | .int (.ofNat _), _ => .error .invalidUserName
  | _, _ => .error (.invalidUserId id.shown)

/-- The user that the value is. -/
def ofDatum? : Datum → Option User
  | .user id name domain => some ⟨id, name, domain⟩
  | _ => none

/-- The operation that looks for users, as its refusals name it. -/
def searchName : String :=
  "build_where"

/-- The users that the items are, all of which have to be users. -/
def listOfItems : List Datum → Except Failure (List User)
  | [] => .ok []
  | item :: rest =>
    match ofDatum? item with
    | none => .error (.invalidUsers searchName item.typeName)
    | some user => do return user :: (← listOfItems rest)

/-- The users that a value stands for: nobody, one user, or the items of a collection. A text, bytes
and a record are no collections of users, nor is anything that has no items. -/
def listOf : Datum → Except Failure (List User)
  | .null | .bool false => .ok []
  | .user id name domain => .ok [⟨id, name, domain⟩]
  | d@(.text _) | d@(.bytes _) | d@(.record _) => .error (.invalidUsers searchName d.typeName)
  | other =>
    match other.items with
    | .ok items => listOfItems items
    | .error _ => .error (.invalidUsers searchName other.typeName)

end User

end StagedColumns
