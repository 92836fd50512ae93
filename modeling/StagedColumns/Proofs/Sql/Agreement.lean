import StagedColumns.Proofs.Sql.ConditionTree
import StagedColumns.Proofs.Sql.Grammar
import StagedColumns.Proofs.Sql.Ordinary

/-!
# The two readers agree

`Sql.parse` reads conditions of columns and values and says what each comparison compares;
`Sql.readFormula` reads the connectives of any condition and leaves the rest as it is. Where the
first one reads a text, so does the second one, with the same connectives between the same
conditions: what it leaves as it is, read by the first one, gives the comparison that stands there
(`exists_formula_of_parse`). So a text has one truth value, whichever of the two reads it
(`Formula.truth_of_condition?`).

A column must not have one of the `keywords` for a name, which a database does not take for a column
either unless it is quoted.
-/

set_option autoImplicit false

namespace StagedColumns.Sql

/-! ### Columns -/

/-- The columns of an operand. -/
def Operand.columns : Operand → List Expression
  | column e => [e]
  | value _ => []

/-- The columns that a condition compares. -/
def Condition.columns : Condition → List Expression
  | equal left right => left.columns ++ right.columns
  | isNull o => o.columns
  | among o _ => o.columns
  | joined _ left right => left.columns ++ right.columns

/-- The column has one of the keywords for a name, in any letter case. -/
def IsKeyword : Expression → Prop
  | .column name => String.ofList (name.toList.map Char.toUpper) ∈ keywords
  | _ => False

instance (e : Expression) : Decidable (IsKeyword e) := by
  unfold IsKeyword
  split <;> infer_instance

/-! ### Lexemes of tokens -/

/-- The word, in capital letters, is the token. -/
inductive Reserved : String → Token → Prop
  | connective (c : Connective) : Reserved c.word (.connective c)
  | among : Reserved "IN" .among
  | is : Reserved "IS" .is
  | null : Reserved "NULL" (.literal .null)
  | true : Reserved "TRUE" (.literal (.bool true))
  | false : Reserved "FALSE" (.literal (.bool false))

/-- A word is a token of its own, or else the name of a column. -/
theorem wordToken_cases (word : List Char) :
    (∃ name, String.ofList (word.map Char.toUpper) = name ∧ Reserved name (wordToken word)) ∨
      (wordToken word = .column (.column (String.ofList word)) ∧
        String.ofList (word.map Char.toUpper) ∉ ["AND", "OR"]) := by
  unfold wordToken reserved?
  simp only
  split_ifs with hand hor hin his hnull htrue hfalse
  · exact .inl ⟨_, hand, .connective .and⟩
  · exact .inl ⟨_, hor, .connective .or⟩
  · exact .inl ⟨_, hin, .among⟩
  · exact .inl ⟨_, his, .is⟩
  · exact .inl ⟨_, hnull, .null⟩
  · exact .inl ⟨_, htrue, .true⟩
  · exact .inl ⟨_, hfalse, .false⟩
  · exact .inr ⟨rfl, by simp [hand, hor]⟩

/-- A word that is the token of no column is a token of its own. -/
theorem reserved_of_eq_wordToken {word : List Char} {token : Token} (htoken : token = wordToken word)
    (hcolumn : ∀ e, token ≠ .column e) :
    ∃ name, String.ofList (word.map Char.toUpper) = name ∧ Reserved name token := by
  rcases wordToken_cases word with hreserved | ⟨hword, -⟩
  · rwa [htoken]
  · exact absurd (htoken.trans hword) (hcolumn _)

variable {d : Dialect}

/-- The token says nothing about how a condition is made up. -/
def Token.Ordinary : Token → Prop
  | .column e => ¬IsKeyword e
  | .literal _ | .among | .is | .equals => True
  | .connective _ | .comma | .opening | .closing => False

namespace Token.SpelledBy

variable {token : Token} {lexemes : List Lexeme}

theorem exists_eq_cons (h : token.SpelledBy d lexemes) : ∃ l rest, lexemes = l :: rest := by
  cases h <;> exact ⟨_, _, rfl⟩

/-- A mark is spelled by itself, since no word means it. -/
theorem of_mark {c : Char} (h : token.SpelledBy d lexemes) (hc : mark? c = some token) :
    lexemes = [⟨.sign, [c]⟩] := by
  unfold mark? at hc
  split at hc <;> cases hc
  all_goals
    cases h with
    | word htoken _ =>
      obtain ⟨name, -, hreserved⟩ := reserved_of_eq_wordToken htoken nofun
      cases hreserved
    | mark hmark =>
      unfold mark? at hmark
      split at hmark <;> cases hmark
      rfl

/-- A connective is spelled by its word. -/
theorem of_connective {c : Connective} (h : (Token.connective c).SpelledBy d lexemes) :
    ∃ word, lexemes = [⟨.word, word⟩] ∧ String.ofList (word.map Char.toUpper) = c.word := by
  cases h with
  | @word _ word htoken _ =>
    obtain ⟨name, hname, hreserved⟩ := reserved_of_eq_wordToken htoken nofun
    cases hreserved
    exact ⟨word, rfl, hname⟩
  | mark hmark =>
    unfold mark? at hmark
    split at hmark <;> cases hmark

/-- A word that is an ordinary token is an ordinary word. -/
theorem ordinary_of_word {word : List Char} (htoken : (wordToken word).Ordinary) :
    Lexeme.Ordinary ⟨.word, word⟩ := by
  refine Lexeme.ordinary_word ?_
  rcases wordToken_cases word with ⟨name, hname, hreserved⟩ | ⟨hcolumn, hfree⟩
  · rw [hname]
    generalize wordToken word = token at htoken hreserved
    cases hreserved with
    | connective c => exact htoken.elim
    | _ => decide
  · rw [hcolumn] at htoken
    have hkeyword : String.ofList (word.map Char.toUpper) ∉ keywords := by
      simpa [Token.Ordinary, IsKeyword] using htoken
    exact fun hmem ↦ (List.mem_append.mp hmem).elim hfree hkeyword

theorem ordinary (h : token.SpelledBy d lexemes) (htoken : token.Ordinary) :
    ∀ l ∈ lexemes, l.Ordinary := by
  cases h with
  | word hword _ =>
    subst hword
    exact List.forall_mem_singleton.mpr (ordinary_of_word htoken)
  | member hpoint _ =>
    exact List.forall_mem_singleton.mpr (Lexeme.ordinary_of_mem hpoint (by decide) (by decide))
  | number hdigit _ => exact List.forall_mem_singleton.mpr (Lexeme.ordinary_number hdigit)
  | negative hdigit _ =>
    exact List.forall_mem_cons.mpr ⟨Lexeme.ordinary_sign (by decide),
      List.forall_mem_singleton.mpr (Lexeme.ordinary_number hdigit)⟩
  | text _ => exact List.forall_mem_singleton.mpr (Lexeme.ordinary_quoted _)
  | mark hmark =>
    unfold mark? at hmark
    split at hmark <;> cases hmark
    · exact htoken.elim
    · exact htoken.elim
    · exact htoken.elim
    · exact List.forall_mem_singleton.mpr (Lexeme.ordinary_sign (by decide))

end Token.SpelledBy

namespace Spells

variable {tokens others : List Token} {token : Token} {lexemes : List Lexeme}

theorem exists_of_append (h : Spells d (tokens ++ others) lexemes) :
    ∃ first more, lexemes = first ++ more ∧ Spells d tokens first ∧ Spells d others more := by
  induction tokens generalizing lexemes with
  | nil => exact ⟨[], lexemes, rfl, .nil, h⟩
  | cons token tokens ih =>
    cases h with
    | cons hfirst hrest =>
      obtain ⟨first, more, rfl, htokens, hothers⟩ := ih hrest
      exact ⟨_, more, (List.append_assoc ..).symm, .cons hfirst htokens, hothers⟩

theorem exists_of_singleton (h : Spells d [token] lexemes) : token.SpelledBy d lexemes := by
  cases h with
  | cons hfirst hrest =>
    cases hrest
    rwa [List.append_nil]

theorem exists_eq_cons (h : Spells d (token :: tokens) lexemes) : ∃ l rest, lexemes = l :: rest := by
  cases h with
  | cons hfirst _ =>
    obtain ⟨l, rest, rfl⟩ := hfirst.exists_eq_cons
    exact ⟨l, _, rfl⟩

/-- A condition in parentheses is spelled by lexemes in parentheses. -/
theorem exists_of_group (h : Spells d (group tokens) lexemes) :
    ∃ inside, lexemes = Lexeme.inParentheses inside ∧ Spells d tokens inside := by
  cases h with
  | cons hopening hrest =>
    obtain ⟨inside, last, rfl, hinside, hlast⟩ := hrest.exists_of_append
    have hclosing := hlast.exists_of_singleton.of_mark (rfl : mark? ')' = some .closing)
    rw [hopening.of_mark (rfl : mark? '(' = some .opening), hclosing]
    exact ⟨inside, rfl, hinside⟩

theorem ordinary (h : Spells d tokens lexemes) (htokens : ∀ token ∈ tokens, token.Ordinary) :
    ∀ l ∈ lexemes, l.Ordinary := by
  induction h with
  | nil => nofun
  | cons hfirst _ ih =>
    obtain ⟨htoken, hothers⟩ := List.forall_mem_cons.mp htokens
    exact List.forall_mem_append.mpr ⟨hfirst.ordinary htoken, ih hothers⟩

/-- Ordinary tokens are spelled by lexemes that are one basic condition. -/
theorem exists_inert (h : Spells d (token :: tokens) lexemes)
    (htokens : ∀ other ∈ token :: tokens, other.Ordinary) :
    ∃ l parts, Inert lexemes (.lexeme l :: parts) := by
  have hordinary := h.ordinary htokens
  obtain ⟨l, rest, rfl⟩ := h.exists_eq_cons
  exact ⟨l, rest.map .lexeme, inert_of_ordinary hordinary⟩

/-- In a list of values there are commas, too, but no brackets. -/
theorem flat_of_items (values : List Datum) {last : Datum}
    (h : Spells d (itemsBefore values ++ [.literal last]) lexemes) : ∀ l ∈ lexemes, l.Flat := by
  induction values generalizing lexemes with
  | nil => exact fun l hl ↦ (h.ordinary (List.forall_mem_singleton.mpr trivial) l hl).flat
  | cons v values ih =>
    cases h with
    | cons hliteral hrest =>
      cases hrest with
      | cons hcomma hrest =>
        rw [hcomma.of_mark (rfl : mark? ',' = some .comma)]
        refine List.forall_mem_append.mpr ⟨fun l hl ↦ (hliteral.ordinary trivial l hl).flat, ?_⟩
        exact List.forall_mem_cons.mpr ⟨Lexeme.flat_comma, ih hrest⟩

end Spells

/-! ### Comparisons -/

theorem Operand.ordinary_token {o : Operand} (h : ∀ e ∈ o.columns, ¬IsKeyword e) :
    o.token.Ordinary := by
  cases o with
  | column e => exact h e List.mem_cons_self
  | value v => trivial

/-- A comparison is a basic condition that starts with the lexeme of its first operand. -/
theorem Comparison.exists_inert {tokens : List Token} {c : Condition} (h : Comparison tokens c)
    (hcolumns : ∀ e ∈ c.columns, ¬IsKeyword e) {lexemes : List Lexeme}
    (hspells : Spells d tokens lexemes) : ∃ l parts, Inert lexemes (.lexeme l :: parts) := by
  cases h with
  | equal left right =>
    obtain ⟨hleft, hright⟩ := List.forall_mem_append.mp hcolumns
    exact hspells.exists_inert (List.forall_mem_cons.mpr
      ⟨Operand.ordinary_token hleft, List.forall_mem_cons.mpr
        ⟨trivial, List.forall_mem_singleton.mpr (Operand.ordinary_token hright)⟩⟩)
  | isNull o =>
    exact hspells.exists_inert (List.forall_mem_cons.mpr
      ⟨Operand.ordinary_token hcolumns, List.forall_mem_cons.mpr
        ⟨trivial, List.forall_mem_singleton.mpr trivial⟩⟩)
  | among o values last =>
    have hsplit : o.token :: .among :: .opening ::
        (itemsBefore values ++ [.literal last, .closing]) =
          [o.token, .among] ++ group (itemsBefore values ++ [.literal last]) := by
      simp [group]
    rw [hsplit] at hspells
    obtain ⟨front, list, rfl, hfront, hlist⟩ := hspells.exists_of_append
    obtain ⟨items, rfl, hitems⟩ := hlist.exists_of_group
    obtain ⟨l, parts, hinert⟩ := hfront.exists_inert (List.forall_mem_cons.mpr
      ⟨Operand.ordinary_token hcolumns, List.forall_mem_singleton.mpr trivial⟩)
    exact ⟨l, _, hinert.append (inert_inParentheses (hitems.flat_of_items values))⟩

/-! ### What the first reader makes of what the second one leaves -/

/-- The characters of the lexeme with a gap after them, unless it is the sign of a number. -/
def Lexeme.spaced (l : Lexeme) : List Char :=
  if l = ⟨.sign, ['-']⟩ then l.chars else l.chars ++ [' ']

/-- The condition that a formula says, where `parse` reads each basic condition. -/
def Formula.condition? (d : Dialect) : Formula → Option Condition
  | basic parts => do parseTokens (← lex d ((lexemesOf parts).flatMap Lexeme.spaced))
  | joined c left right => do
    return .joined c (← left.condition? d) (← right.condition? d)

theorem Token.SpelledBy.lex_append {token : Token} {lexemes : List Lexeme}
    (h : token.SpelledBy d lexemes) (rest : List Char) :
    lex d (lexemes.flatMap Lexeme.spaced ++ rest) = (lex d rest).map (token :: ·) := by
  have hgap : ' ' ∈ delimiters := by decide
  have hspaced {chars : List Char} (hread : lex d chars = some [token]) :
      lex d (chars ++ ' ' :: rest) = (lex d rest).map (token :: ·) := by
    rw [Sql.lex_append d hgap hread, lex_gap]
    rfl
  cases h with
  | word _ hread => simpa [Lexeme.spaced] using hspaced hread
  | member _ hread => simpa [Lexeme.spaced] using hspaced hread
  | number _ hread => simpa [Lexeme.spaced] using hspaced hread
  | negative _ hread => simpa [Lexeme.spaced] using hspaced hread
  | text hread => simpa [Lexeme.spaced] using hspaced hread
  | @mark c _ hmark =>
    have hminus : c ≠ '-' := by
      rintro rfl
      cases hmark
    simp [Lexeme.spaced, hminus, lex_mark d _ hmark, lex_gap]

/-- Lexemes that spell tokens are read as them again. -/
theorem Spells.lex_spaced {tokens : List Token} {lexemes : List Lexeme}
    (h : Spells d tokens lexemes) : lex d (lexemes.flatMap Lexeme.spaced) = some tokens := by
  induction h with
  | nil => rfl
  | cons hfirst _ ih => rw [List.flatMap_append, hfirst.lex_append, ih, Option.map_some]

/-! ### Connectives -/

/-- What the connective stands between. -/
def Rank.between : Connective → Rank
  | .and => .factor
  | .or => .alternative

/-- What the connective makes of it. -/
def Rank.joinedBy : Connective → Rank
  | .and => .alternative
  | .or => .whole

namespace ReadPart

/-- The words that may stand between the parts of a condition. -/
def wordsOf : Rank → List String
  | .factor => []
  | .alternative => ["AND"]
  | .whole => ["AND", "OR"]

/-- The part may be one of those of a condition. -/
def Fits (rank : Rank) (x : ReadPart) : Prop :=
  ∀ word ∈ Lexeme.structural, word ∉ wordsOf rank → isWord word x = false

/-- What parts are read as. -/
def readAs (d : Dialect) : Rank → List ReadPart → Option Formula
  | .factor => factor
  | .alternative => alternative d
  | .whole => formula d

/-- What parts are read as where they are cut at a connective. -/
def cut (c : Connective) (piece : List ReadPart → Option Formula) (read : List ReadPart) :
    Option Formula :=
  (read.splitOnP (isWord c.word)).mapM piece >>= Formula.join c

variable {c : Connective} {piece : List ReadPart → Option Formula} {read left right : List ReadPart}
variable {x mark : ReadPart} {f other : Formula}

theorem cut_of_none (hnone : ∀ x ∈ read, isWord c.word x = false) (h : piece read = some f) :
    cut c piece read = some f := by
  simp [cut, List.splitOnP_eq_singleton hnone, h, Formula.join]

/-- One more piece after the connective is joined to what stands before it. -/
theorem cut_append (hleft : cut c piece left = some f) (hmark : isWord c.word mark = true)
    (hnone : ∀ x ∈ right, isWord c.word x = false) (hright : piece right = some other) :
    cut c piece (left ++ mark :: right) = some (.joined c f other) := by
  obtain ⟨fs, hfs, hjoin⟩ := Option.bind_eq_some_iff.mp hleft
  cases fs with
  | nil => cases hjoin
  | cons first rest =>
    cases hjoin
    rw [cut, List.splitOnP_append_cons _ _ hmark, List.splitOnP_eq_singleton hnone]
    simp [hfs, hright, Formula.join]

/-- Parts with nothing among them that does not fit are cut at the connective. -/
theorem readAs_eq_cut (c : Connective) (h : ∀ x ∈ read, Fits (.joinedBy c) x) :
    readAs d (.joinedBy c) read = cut c (readAs d (.between c)) read := by
  cases c with
  | and =>
    have hxor : read.any (isWord "XOR") = false :=
      List.any_eq_false.mpr fun x hx ↦
        Bool.eq_false_iff.mp (h x hx "XOR" (by decide) (by decide))
    show alternative d read = _
    rw [alternative, hxor]
    simp [cut, Connective.word, readAs, Rank.between]
  | or =>
    have hquery : isQuery read = false := by
      cases read with
      | nil => rfl
      | cons x rest =>
        have hx := h x List.mem_cons_self
        simp [isQuery, hx "SELECT" (by decide) (by decide), hx "WITH" (by decide) (by decide)]
    show formula d read = _
    rw [formula, hquery]
    simp [cut, Connective.word, readAs, Rank.between]

theorem Fits.joinedBy (h : Fits (.between c) x) : Fits (.joinedBy c) x := by
  have hsubset : wordsOf (.between c) ⊆ wordsOf (.joinedBy c) := by cases c <;> decide
  exact fun word hword hother ↦ h word hword fun hmem ↦ hother (hsubset hmem)

/-- Between connectives there are none of them. -/
theorem Fits.isWord (h : Fits (.between c) x) : ReadPart.isWord c.word x = false :=
  h c.word (by cases c <;> decide) (by cases c <;> decide)

/-- The lexeme of a connective fits where the connective may stand. -/
theorem fits_connective {word : List Char}
    (hword : String.ofList (word.map Char.toUpper) = c.word) (inner : Option Formula) :
    Fits (.joinedBy c) (.lexeme ⟨.word, word⟩, inner) := by
  have hmem : c.word ∈ wordsOf (.joinedBy c) := by cases c <;> decide
  intro other _ hother
  have hne : c.word ≠ other := fun hsame ↦ hother (hsame ▸ hmem)
  simp [ReadPart.isWord, Lexeme.isWord, hword, hne]

end ReadPart

theorem Lexeme.flat_connective {c : Connective} {word : List Char}
    (hword : String.ofList (word.map Char.toUpper) = c.word) : Lexeme.Flat ⟨.word, word⟩ := by
  refine ⟨?_, rfl, rfl⟩
  cases c <;> simp [Lexeme.opens?, Lexeme.isSign, Lexeme.isWord, hword, Connective.word]

/-- The lexemes are read as the formula, which says the condition. -/
structure Reading (d : Dialect) (rank : Rank) (lexemes : List Lexeme) (c : Condition)
    (parts : List Part) (f : Formula) : Prop where
  nests : Nests lexemes parts
  fits : ∀ x ∈ readParts d parts, x.Fits rank
  formula : ReadPart.readAs d rank (readParts d parts) = some f
  condition : f.condition? d = some c

namespace Reading

open ReadPart

variable {lexemes more : List Lexeme} {c other : Condition} {parts others : List Part}
variable {f g : Formula}

theorem comparison {tokens : List Token} (hc : Comparison tokens c)
    (hspells : Spells d tokens lexemes) {l : Lexeme}
    (hinert : Inert lexemes (.lexeme l :: parts)) :
    Reading d .factor lexemes c (.lexeme l :: parts) (.basic (.lexeme l :: parts)) where
  nests := hinert.nests
  fits := by
    rw [readParts_eq_map]
    refine List.forall_mem_map.mpr fun p hp word hword _ ↦ ?_
    exact (hinert.ordinary p hp).isWord hword _
  formula := hinert.factor d
  condition := by
    have hread : parseTokens tokens = some c :=
      parseTokens_eq_some_iff.mpr (.alternative (.factor (.comparison hc)))
    rw [Formula.condition?, hinert.lexemes, hspells.lex_spaced]
    exact hread

theorem group (h : Reading d .whole lexemes c parts f) :
    Reading d .factor (Lexeme.inParentheses lexemes) c [.group .round parts] f := by
  have hinner := inner_group ⟨lexemes, parts, f, h.nests.nest, h.formula⟩
  have hread : readParts d [.group .round parts] = [(.group .round parts, some f)] := by
    rw [readParts, hinner, readParts]
  refine ⟨h.nests.inParentheses, ?_, ?_, h.condition⟩
  · rw [hread]
    exact List.forall_mem_singleton.mpr fun _ _ _ ↦ rfl
  · rw [hread]
    rfl

/-- Where a connective may stand none has to. -/
theorem joinedBy (connective : Connective)
    (h : Reading d (.between connective) lexemes c parts f) :
    Reading d (.joinedBy connective) lexemes c parts f := by
  have hfits : ∀ x ∈ readParts d parts, x.Fits (.joinedBy connective) :=
    fun x hx ↦ (h.fits x hx).joinedBy
  refine ⟨h.nests, hfits, ?_, h.condition⟩
  rw [readAs_eq_cut connective hfits]
  exact cut_of_none (fun x hx ↦ (h.fits x hx).isWord) h.formula

theorem joined (connective : Connective) {word : List Char}
    (h : Reading d (.joinedBy connective) lexemes c parts f)
    (hword : String.ofList (word.map Char.toUpper) = connective.word)
    (hother : Reading d (.between connective) more other others g) :
    Reading d (.joinedBy connective) (lexemes ++ ⟨.word, word⟩ :: more)
      (.joined connective c other) (parts ++ .lexeme ⟨.word, word⟩ :: others)
      (.joined connective f g) := by
  have hread : readParts d (parts ++ .lexeme ⟨.word, word⟩ :: others) =
      readParts d parts ++ (.lexeme ⟨.word, word⟩, none) :: readParts d others := by
    simp [readParts_eq_map, Part.inner]
  have hfits : ∀ x ∈ readParts d parts ++ (.lexeme ⟨.word, word⟩, none) :: readParts d others,
      x.Fits (.joinedBy connective) :=
    List.forall_mem_append.mpr ⟨h.fits, List.forall_mem_cons.mpr
      ⟨fits_connective hword none, fun x hx ↦ (hother.fits x hx).joinedBy⟩⟩
  have hmark : ReadPart.isWord connective.word (.lexeme ⟨.word, word⟩, none) = true := by
    simp [ReadPart.isWord, Lexeme.isWord, hword]
  have hnest : Nests [⟨.word, word⟩] [.lexeme ⟨.word, word⟩] :=
    nests_of_flat (List.forall_mem_singleton.mpr (Lexeme.flat_connective hword))
  refine ⟨h.nests.append (hnest.append hother.nests), hread ▸ hfits, ?_, ?_⟩
  · have hleft := h.formula
    rw [readAs_eq_cut connective h.fits] at hleft
    rw [hread, readAs_eq_cut connective hfits]
    exact cut_append hleft hmark (fun x hx ↦ (hother.fits x hx).isWord) hother.formula
  · rw [Formula.condition?, h.condition, hother.condition]
    rfl

/-- Two conditions with a connective between them are spelled and read one after the other. -/
theorem exists_joined (connective : Connective) {tokens tokens' : List Token}
    (h : ∀ lexemes, Spells d tokens lexemes →
      ∃ parts f, Reading d (.joinedBy connective) lexemes c parts f)
    (hother : ∀ lexemes, Spells d tokens' lexemes →
      ∃ parts f, Reading d (.between connective) lexemes other parts f)
    (hspells : Spells d (tokens ++ .connective connective :: tokens') lexemes) :
    ∃ parts f, Reading d (.joinedBy connective) lexemes (.joined connective c other) parts f := by
  obtain ⟨left, more, rfl, hleft, hmore⟩ := hspells.exists_of_append
  cases hmore with
  | cons hword hright =>
    obtain ⟨word, rfl, hupper⟩ := hword.of_connective
    obtain ⟨parts, f, hreading⟩ := h left hleft
    obtain ⟨others, g, hreading'⟩ := hother _ hright
    exact ⟨_, _, hreading.joined connective hupper hreading'⟩

end Reading

/-- Tokens that make up a condition are spelled by lexemes that are read as a formula that says it.
-/
theorem MakeUp.exists_reading {rank : Rank} {tokens : List Token} {c : Condition}
    (h : MakeUp rank tokens c) (hcolumns : ∀ e ∈ c.columns, ¬IsKeyword e)
    {lexemes : List Lexeme} (hspells : Spells d tokens lexemes) :
    ∃ parts f, Reading d rank lexemes c parts f := by
  induction h generalizing lexemes with
  | comparison hcomparison =>
    obtain ⟨l, parts, hinert⟩ := hcomparison.exists_inert hcolumns hspells
    exact ⟨_, _, .comparison hcomparison hspells hinert⟩
  | group _ ih =>
    obtain ⟨inside, rfl, hinside⟩ := hspells.exists_of_group
    obtain ⟨parts, f, hreading⟩ := ih hcolumns hinside
    exact ⟨_, f, hreading.group⟩
  | factor _ ih =>
    obtain ⟨parts, f, hreading⟩ := ih hcolumns hspells
    exact ⟨parts, f, hreading.joinedBy .and⟩
  | alternative _ ih =>
    obtain ⟨parts, f, hreading⟩ := ih hcolumns hspells
    exact ⟨parts, f, hreading.joinedBy .or⟩
  | and _ _ ih ihother =>
    obtain ⟨hleft, hright⟩ := List.forall_mem_append.mp hcolumns
    exact Reading.exists_joined .and (fun _ ↦ ih hleft) (fun _ ↦ ihother hright) hspells
  | or _ _ ih ihother =>
    obtain ⟨hleft, hright⟩ := List.forall_mem_append.mp hcolumns
    exact Reading.exists_joined .or (fun _ ↦ ih hleft) (fun _ ↦ ihother hright) hspells

/-! ### Both readers -/

/-- A text that is read as a condition of columns and values is read, as far as its connectives go,
as a formula that says the same condition. -/
theorem exists_formula_of_parse {text : String} {c : Condition} (h : parse d text = some c)
    (hcolumns : ∀ e ∈ c.columns, ¬IsKeyword e) :
    ∃ f, readFormula d text = some f ∧ f.condition? d = some c := by
  obtain ⟨tokens, hlex, hparse⟩ := Option.bind_eq_some_iff.mp h
  obtain ⟨lexemes, hscan, hspells⟩ := exists_spelling_of_lex hlex
  obtain ⟨parts, f, hreading⟩ := (makeUp_of_parseTokens hparse).exists_reading hcolumns hspells
  refine ⟨f, ?_, hreading.condition⟩
  rw [readFormula, partsOf, cutLexemes, hscan]
  simp only [Option.bind_eq_bind, Option.map_some, Option.bind_some, hreading.nests.nest]
  exact hreading.formula

/-- A column with the name of a keyword is none for the second reader. -/
example : (parse .sqlite "between = 1").isSome ∧ readFormula .sqlite "between = 1" = none :=
  ⟨rfl, rfl⟩

/-- The truth value of a basic condition that `parse` reads, where the columns have the given
values. -/
def partsTruth (d : Dialect) (values : Expression → Datum) (parts : List Part) : Truth :=
  (Formula.condition? d (.basic parts)).bind (Condition.truth values)

/-- Where each basic condition has the truth value of what stands there, a formula has the truth
value of the condition that it says. -/
theorem Formula.truth_of_condition? {f : Formula} {c : Condition} (h : f.condition? d = some c)
    (values : Expression → Datum) : f.truth (partsTruth d values) = c.truth values := by
  induction f generalizing c with
  | basic parts => rw [Formula.truth, partsTruth, h, Option.bind_some]
  | joined connective left right ihleft ihright =>
    obtain ⟨first, hleft, h⟩ := Option.bind_eq_some_iff.mp h
    obtain ⟨second, hright, h⟩ := Option.bind_eq_some_iff.mp h
    cases h
    rw [Formula.truth, Condition.truth, ihleft hleft, ihright hright]

end StagedColumns.Sql
