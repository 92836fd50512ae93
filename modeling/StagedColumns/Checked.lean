import StagedColumns.Failure

/-!
# Readings that find every issue

A configuration is read part by part. A part that breaks a rule does not stop the reading: the other
parts are read too, and all issues are reported in the order of the parts.
-/

set_option autoImplicit false

namespace StagedColumns

variable {α β : Type}

/-- What reading a part gives: its value, or every issue found in it. -/
def Checked (α : Type) : Type :=
  Except (List Issue) α

namespace Checked

/-- A part that breaks no rule. -/
def accept (value : α) : Checked α :=
  .ok value

/-- A part that breaks one rule. -/
def reject (location : List String) (rule : Rule) : Checked α :=
  .error [⟨location, rule⟩]

/-- A part with a list of issues, which is accepted if the list is empty. -/
def withIssues (value : α) : List Issue → Checked α
  | [] => .ok value
  | issues => .error issues

/-- A part read after others: what it gives is handed on, and its issues come after theirs. -/
def apply (f : Checked (α → β)) (part : Checked α) : Checked β :=
  match f, part with
  | .ok f, .ok value => .ok (f value)
  | .ok _, .error issues => .error issues
  | .error issues, .ok _ => .error issues
  | .error issues, .error more => .error (issues ++ more)

/-- The value with a function applied to it. -/
def map (f : α → β) (part : Checked α) : Checked β :=
  (accept f).apply part

/-- The part as one of a larger part, under a name. -/
def under (name : String) : Checked α → Checked α
  | .ok value => .ok value
  | .error issues => .error (issues.map fun issue ↦ ⟨name :: issue.location, issue.rule⟩)

/-- The value, or the issues. -/
def result (part : Checked α) : Except (List Issue) α :=
  part

end Checked

/-- A value as a text. Bytes count as the text that they encode. -/
def Datum.readText : Datum → Except Rule String
  | .text s => .ok s
  | .bytes data =>
    match String.fromUTF8? ⟨data.toArray⟩ with
    | some s => .ok s
    | none => .error .badEncoding
  | _ => .error .notText

/-- A value as a text, read under a location. -/
def Checked.text (location : List String) (value : Datum) : Checked String :=
  match value.readText with
  | .ok s => accept s
  | .error rule => reject location rule

end StagedColumns
