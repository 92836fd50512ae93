import StagedColumns.Sql.Condition

/-!
# Combined texts

Conditions that are combined stand each in parentheses, with a connective between them. However a
lexer cuts texts, it cuts a combined text into what it cuts the conditions into, if it cuts
parentheses and connectives off what follows them (`CutsCombined.tokens`).
-/

set_option autoImplicit false

namespace StagedColumns.Sql

/-- A text in parentheses. -/
def grouped (text : String) : String :=
  "(" ++ text ++ ")"

/-- Texts in parentheses with a connective between them. -/
def combined (connective : Connective) (texts : List String) : String :=
  (" " ++ connective.word ++ " ").intercalate (texts.map grouped)

theorem combine_of_several (connective : Connective) (first second : String)
    (rest : List String) : combine connective (first :: second :: rest) =
      .ok (combined connective (first :: second :: rest)) :=
  rfl

/-- The lexer cuts a text in parentheses off what follows, and so it does with the connective. -/
structure CutsCombined {τ : Type} (cut : List Char → Option (List τ)) (group : List τ → List τ)
    (connective : Connective) (mark : τ) : Prop where
  nothing : cut [] = some []
  grouped : ∀ {text : String} {tokens : List τ}, cut text.toList = some tokens → ∀ rest,
    cut ((grouped text).toList ++ rest) = (cut rest).map (group tokens ++ ·)
  connective : ∀ rest,
    cut ((" " ++ connective.word ++ " ").toList ++ rest) = (cut rest).map (mark :: ·)

/-- The tokens of a combined text are those of the texts in parentheses, with the connective before
each but the first. -/
theorem CutsCombined.tokens {τ : Type} {cut : List Char → Option (List τ)}
    {group : List τ → List τ} {connective : Connective} {mark : τ}
    (h : CutsCombined cut group connective mark) {text : String} {texts : List String}
    {first : List τ} {rest : List (List τ)} (htext : cut text.toList = some first)
    (htexts : texts.map (fun other ↦ cut other.toList) = rest.map some) :
    cut (combined connective (text :: texts)).toList =
      some (group first ++ rest.flatMap fun tokens ↦ mark :: group tokens) := by
  induction texts generalizing text first rest with
  | nil =>
    have hnone : rest = [] := by simpa using htexts.symm
    subst hnone
    rw [combined, List.map_singleton, String.intercalate_singleton,
      ← List.append_nil (Sql.grouped text).toList, h.grouped htext, h.nothing]
    rfl
  | cons second texts ih =>
    obtain ⟨tokens, more, rfl, hsecond, hmore⟩ := List.map_eq_cons_iff.mp htexts.symm
    have htail := ih hsecond.symm hmore.symm
    rw [combined, List.map_cons] at htail
    rw [combined, List.map_cons, List.map_cons, String.intercalate_cons_cons,
      String.toList_append, String.toList_append, List.append_assoc, h.grouped htext,
      h.connective, htail]
    simp

end StagedColumns.Sql
