import StagedColumns.Proofs.Planner.History
import StagedColumns.Rehearsal

/-!
# The domains of users

A user may bear the name of a domain, which plays no part: actors belong to the domain of the handle
that is used. As long as the rosters know users by their names, whatever happens comes to the same
if the domains of the users are left out.
-/

set_option autoImplicit false

namespace StagedColumns

variable {ω α : Type}

/-- The user of no domain in particular. -/
def User.withoutDomain (u : User) : User :=
  { u with domain := .null }

/-- The value, which bears no domain if it is a user. -/
def Datum.withoutDomain : Datum → Datum
  | .user id name _ => .user id name .null
  | other => other

/-- The value, of which neither it nor an item of it that is a user bears a domain. -/
def Datum.withoutDomains : Datum → Datum
  | .list items => .list (items.map withoutDomain)
  | .tuple items => .tuple (items.map withoutDomain)
  | .bag items => .bag (items.map withoutDomain)
  | .stream items => .stream (items.map withoutDomain)
  | other => other.withoutDomain

/-- The request, of whose users none bears a domain. -/
def Request.withoutDomains : Request → Request
  | .read key => .read key
  | .write handle key user => .write handle key user.withoutDomain
  | .writeLinked handle key user => .writeLinked handle key user.withoutDomain
  | .search handle key among includeIds => .search handle key among.withoutDomains includeIds

/-- What happens, where no user bears a domain. -/
def Happening.withoutDomains : Happening ω → Happening ω
  | .asked request => .asked request.withoutDomains
  | .askedToWrite handle key linked value => .askedToWrite handle key linked value.withoutDomain
  | .changed f => .changed f

namespace User

end User

/-! ### What happens without domains -/

namespace Planner

variable {storage : Storage ω}

end Planner

end StagedColumns
