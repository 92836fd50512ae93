import StagedColumns.Proofs.Sql.Formula
import StagedColumns.Proofs.Sql.Spelling

/-!
# Lexemes without structure

How a condition is made up shows in a few words and signs only. All other lexemes are ordinary:
where they stand, no bracket is opened or closed and no connective joins anything, so they and what
stands in parentheses among them are one basic condition (`Inert`).

The lexemes that spell the tokens of a comparison are ordinary, unless a column has one of the
`keywords` for a name: those are words of SQL that say how a condition is made up, but not among the
tokens of simple conditions.
-/

set_option autoImplicit false

namespace StagedColumns.Sql

/-- The words that say how a condition is made up and that are no tokens of their own. -/
def keywords : List String :=
  ["CASE", "BETWEEN", "XOR", "SELECT", "WITH"]

namespace Lexeme

/-- The words that say how a condition is made up. -/
def structural : List String :=
  ["AND", "OR"] ++ keywords

/-- The lexeme opens no bracket, and can only close brackets that are words. -/
structure Flat (l : Lexeme) : Prop where
  opens : l.opens? = none
  round : l.closes .round = false
  square : l.closes .square = false

/-- The lexeme says nothing about how a condition is made up. -/
structure Ordinary (l : Lexeme) : Prop where
  word : ∀ word ∈ structural, l.isWord word = false
  sign : ∀ c ∈ ['(', ')', '[', ']', ','], l.isSign c = false

variable {l : Lexeme}

theorem Ordinary.flat (h : l.Ordinary) : l.Flat where
  opens := by
    simp [opens?, h.sign '(' (by decide), h.sign '[' (by decide), h.word "CASE" (by decide),
      h.word "BETWEEN" (by decide)]
  round := h.sign ')' (by decide)
  square := h.sign ']' (by decide)

theorem flat_comma : comma.Flat :=
  ⟨rfl, rfl, rfl⟩

theorem ordinary_sign {c : Char} (h : c ∉ ['(', ')', '[', ']', ',']) :
    Ordinary ⟨.sign, [c]⟩ := by
  refine ⟨fun _ _ ↦ rfl, fun x hx ↦ ?_⟩
  have hne : c ≠ x := fun hc ↦ h (hc ▸ hx)
  simp [isSign, hne]

theorem ordinary_quoted (chars : List Char) : Ordinary ⟨.quoted, chars⟩ :=
  ⟨fun _ _ ↦ rfl, fun _ _ ↦ rfl⟩

/-- A word is ordinary if in capital letters it is none of those that matter. -/
theorem ordinary_word {word : List Char}
    (h : String.ofList (word.map Char.toUpper) ∉ structural) : Ordinary ⟨.word, word⟩ := by
  refine ⟨fun other hother ↦ ?_, fun _ _ ↦ rfl⟩
  have hne : String.ofList (word.map Char.toUpper) ≠ other := fun hsame ↦ h (hsame ▸ hother)
  simp [isWord, hne]

theorem toUpper_of_isDigit {c : Char} (hc : c.isDigit = true) : c.toUpper = c := by
  have hdigit : c.val ≤ '9'.val := of_decide_eq_true (Bool.and_eq_true_iff.mp hc).2
  have hletters : '9'.val < 'a'.val := by decide
  have hsmall : ¬('a'.val ≤ c.val ∧ c.val ≤ 'z'.val) := fun h ↦
    UInt32.not_le.mpr hletters (UInt32.le_trans h.1 hdigit)
  exact dif_neg hsmall

/-- The words that matter have letters only, so a word with another character is ordinary. -/
theorem ordinary_of_mem {c : Char} {word : List Char} (hmem : c ∈ word) (hupper : c.toUpper = c)
    (hother : ∀ text ∈ structural, c ∉ text.toList) : Ordinary ⟨.word, word⟩ := by
  refine ordinary_word fun hword ↦ hother _ hword ?_
  rw [String.toList_ofList, ← hupper]
  exact List.mem_map_of_mem hmem

theorem ordinary_number {c : Char} {digits : List Char} (hc : c.isDigit = true) :
    Ordinary ⟨.word, c :: digits⟩ := by
  refine ordinary_of_mem List.mem_cons_self (toUpper_of_isDigit hc) fun text htext hmem ↦ ?_
  have hletters : ∀ text ∈ structural, text.toList.all (!·.isDigit) = true := by decide
  have hletter := List.all_eq_true.mp (hletters text htext) c hmem
  simp [hc] at hletter

end Lexeme

/-! ### Parts without structure -/

namespace Nesting

theorem step_of_flat {l : Lexeme} (h : l.Flat) (parts : List Part) :
    step ⟨parts, []⟩ l = some ⟨parts ++ [.lexeme l], []⟩ := by
  simp [step, h.opens, keep, h.round, h.square, add]

theorem foldlM_of_flat {lexemes : List Lexeme} (h : ∀ l ∈ lexemes, l.Flat) (parts : List Part) :
    lexemes.foldlM step ⟨parts, []⟩ = some ⟨parts ++ lexemes.map .lexeme, []⟩ := by
  induction lexemes generalizing parts with
  | nil => simp
  | cons l lexemes ih =>
    obtain ⟨hl, hothers⟩ := List.forall_mem_cons.mp h
    rw [List.foldlM_cons, step_of_flat hl]
    simp only [Option.bind_eq_bind, Option.bind_some, ih hothers]
    simp

end Nesting

/-- The lexemes make up the parts, whatever stands before them. -/
def Nests (lexemes : List Lexeme) (parts : List Part) : Prop :=
  ∀ before, lexemes.foldlM Nesting.step ⟨before, []⟩ = some ⟨before ++ parts, []⟩

section Nests

variable {lexemes more : List Lexeme} {parts others : List Part}

theorem Nests.nest (h : Nests lexemes parts) : nest lexemes = some parts := by
  rw [Sql.nest, h []]
  rfl

theorem Nests.append (h : Nests lexemes parts) (hmore : Nests more others) :
    Nests (lexemes ++ more) (parts ++ others) := by
  intro before
  rw [List.foldlM_append, h before, ← List.append_assoc]
  exact hmore (before ++ parts)

theorem Nests.inParentheses (h : Nests lexemes parts) :
    Nests (Lexeme.inParentheses lexemes) [.group .round parts] :=
  fun before ↦ foldlM_inParentheses h.nest ⟨before, []⟩

theorem nests_of_flat (h : ∀ l ∈ lexemes, l.Flat) : Nests lexemes (lexemes.map .lexeme) :=
  Nesting.foldlM_of_flat h

end Nests

namespace Bracket

/-- The lexeme that opens the bracket. -/
def opening : Bracket → Lexeme
  | round => .opening
  | square => ⟨.sign, ['[']⟩
  | cases => .ofWord "CASE"
  | between => .ofWord "BETWEEN"

/-- The lexeme that closes the bracket. -/
def closing : Bracket → Lexeme
  | round => .closing
  | square => ⟨.sign, [']']⟩
  | cases => .ofWord "END"
  | between => .ofWord "AND"

end Bracket

mutual

/-- The lexemes that a part is made up of. -/
def Part.lexemes : Part → List Lexeme
  | .lexeme l => [l]
  | .group b inside => b.opening :: (lexemesOf inside ++ [b.closing])

/-- The lexemes that parts are made up of. -/
def lexemesOf : List Part → List Lexeme
  | [] => []
  | p :: rest => p.lexemes ++ lexemesOf rest

end

theorem lexemesOf_append (parts others : List Part) :
    lexemesOf (parts ++ others) = lexemesOf parts ++ lexemesOf others := by
  induction parts with
  | nil => rfl
  | cons p rest ih => rw [List.cons_append, lexemesOf, ih, lexemesOf, List.append_assoc]

theorem lexemesOf_map_lexeme (lexemes : List Lexeme) :
    lexemesOf (lexemes.map .lexeme) = lexemes := by
  induction lexemes with
  | nil => rfl
  | cons l rest ih => rw [List.map_cons, lexemesOf, ih, Part.lexemes, List.singleton_append]

/-- The part says nothing about how the condition around it is made up. -/
def Part.Ordinary : Part → Prop
  | .lexeme l => l.Ordinary
  | .group _ _ => True

theorem Part.Ordinary.isWord {p : Part} (h : p.Ordinary) {word : String}
    (hword : word ∈ Lexeme.structural) (inner : Option Formula) :
    ReadPart.isWord word (p, inner) = false := by
  cases p with
  | lexeme l => exact Lexeme.Ordinary.word h word hword
  | group b inside => rfl

theorem Part.Ordinary.isComma {p : Part} (h : p.Ordinary) (inner : Option Formula) :
    ReadPart.isComma (p, inner) = false := by
  cases p with
  | lexeme l => exact Lexeme.Ordinary.sign h ',' (by decide)
  | group b inside => rfl

/-- The lexemes make up the parts, which say nothing about how the condition around them is made
up. -/
structure Inert (lexemes : List Lexeme) (parts : List Part) : Prop where
  nests : Nests lexemes parts
  lexemes : lexemesOf parts = lexemes
  ordinary : ∀ p ∈ parts, p.Ordinary

section Inert

variable {lexemes more : List Lexeme} {parts others : List Part}

theorem Inert.append (h : Inert lexemes parts) (hmore : Inert more others) :
    Inert (lexemes ++ more) (parts ++ others) where
  nests := h.nests.append hmore.nests
  lexemes := by rw [lexemesOf_append, h.lexemes, hmore.lexemes]
  ordinary := List.forall_mem_append.mpr ⟨h.ordinary, hmore.ordinary⟩

theorem inert_of_ordinary (h : ∀ l ∈ lexemes, l.Ordinary) :
    Inert lexemes (lexemes.map .lexeme) where
  nests := nests_of_flat fun l hl ↦ (h l hl).flat
  lexemes := lexemesOf_map_lexeme lexemes
  ordinary := List.forall_mem_map.mpr h

/-- In parentheses there may be commas, too. -/
theorem inert_inParentheses (h : ∀ l ∈ lexemes, l.Flat) :
    Inert (Lexeme.inParentheses lexemes) [.group .round (lexemes.map .lexeme)] where
  nests := (nests_of_flat h).inParentheses
  lexemes := by
    simp [lexemesOf, Part.lexemes, lexemesOf_map_lexeme, Lexeme.inParentheses, Bracket.opening,
      Bracket.closing]
  ordinary := List.forall_mem_singleton.mpr trivial

/-- Ordinary parts that start with a lexeme, and so are not all in parentheses, are a basic
condition. -/
theorem Inert.factor (d : Dialect) {l : Lexeme} (h : Inert lexemes (.lexeme l :: parts)) :
    ReadPart.factor (readParts d (.lexeme l :: parts)) = some (.basic (.lexeme l :: parts)) := by
  have hcommas : (readParts d (.lexeme l :: parts)).any ReadPart.isComma = false := by
    rw [List.any_eq_false, readParts_eq_map]
    intro x hx
    obtain ⟨p, hp, rfl⟩ := List.mem_map.mp hx
    exact Bool.eq_false_iff.mp ((h.ordinary p hp).isComma _)
  have hparts : (readParts d (.lexeme l :: parts)).map Prod.fst = .lexeme l :: parts := by
    rw [readParts_eq_map, List.map_map]
    exact List.map_id _
  have hsome : readParts d (.lexeme l :: parts) ≠ [] := by
    rw [readParts]
    exact List.cons_ne_nil _ _
  unfold ReadPart.factor
  split
  · next hgroup =>
    rw [readParts] at hgroup
    cases hgroup
  · simp [ReadPart.basic, hcommas, hparts, hsome]

end Inert

end StagedColumns.Sql
