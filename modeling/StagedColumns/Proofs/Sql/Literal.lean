import StagedColumns.Proofs.Sql.Lexer

/-!
# Reading text literals back

The rules by which a database reads a text literal, without the rest of a condition: a literal
starts with a quote, inside it a doubled quote stands for a quote, and in MySQL a backslash and a
character stand for the character. The first quote that is not doubled ends it.

One character, as the library writes it, is read as that character whatever follows
(`readText_literalChar`). So the end of a written literal is found where it was put, unless another
quote follows, and a text cannot break out of its literal (`text_literals_read_back`).
-/

set_option autoImplicit false

namespace StagedColumns.Dialect

/-! ### The rules -/

/-- Inside a text literal the character starts an escape. -/
def startsEscape (d : Dialect) (c : Char) : Bool :=
  c = '\\' ∧ d = .mysql

/-- Reads a text literal after its opening quote: the text, and what follows the literal. -/
def readText (d : Dialect) : List Char → Option (List Char × List Char)
  | [] => none
  | c :: rest =>
    if c = '\'' then
      match rest with
      | [] => some ([], [])
      | next :: later =>
        if next = '\'' then (d.readText later).map (Prod.map ('\'' :: ·) id)
        else some ([], next :: later)
    else if d.startsEscape c then
      match rest with
      | [] => none
      | next :: later => (d.readText later).map (Prod.map (next :: ·) id)
    else (d.readText rest).map (Prod.map (c :: ·) id)

/-- Reads the text literal at the start: the text, and what follows the literal. -/
def readLiteral (d : Dialect) : List Char → Option (String × List Char)
  | [] => none
  | c :: rest =>
    if c = '\'' then (d.readText rest).map (Prod.map String.ofList id) else none

theorem exists_of_map_read {α β : Type} {f : α → β} {read : Option (α × List Char)} {value : β}
    {left : List Char} (h : read.map (Prod.map f id) = some (value, left)) :
    ∃ first, read = some (first, left) := by
  obtain ⟨⟨first, rest⟩, hread, heq⟩ := Option.map_eq_some_iff.mp h
  cases heq
  exact ⟨first, hread⟩

theorem length_lt_of_readText (d : Dialect) {cs text left : List Char}
    (h : d.readText cs = some (text, left)) : left.length < cs.length := by
  fun_induction readText d cs generalizing text with
  | case1 => cases h
  | case2 =>
    cases h
    exact Nat.zero_lt_one
  | case3 later ih =>
    obtain ⟨first, hread⟩ := exists_of_map_read h
    exact Nat.lt_trans (ih hread) (Nat.lt_add_of_pos_right Nat.two_pos)
  | case4 =>
    cases h
    exact Nat.lt_succ_self _
  | case5 => cases h
  | case6 c _ _ next later ih =>
    obtain ⟨first, hread⟩ := exists_of_map_read h
    exact Nat.lt_trans (ih hread) (Nat.lt_add_of_pos_right Nat.two_pos)
  | case7 c later _ _ ih =>
    obtain ⟨first, hread⟩ := exists_of_map_read h
    exact Nat.lt_trans (ih hread) (Nat.lt_succ_self _)

/-- Reading a text literal uses up at least one character. -/
theorem length_lt_of_readLiteral (d : Dialect) {cs left : List Char} {text : String}
    (h : d.readLiteral cs = some (text, left)) : left.length < cs.length := by
  unfold readLiteral at h
  split at h
  · cases h
  · next c rest =>
    split at h
    · obtain ⟨first, hread⟩ := exists_of_map_read h
      exact Nat.lt_trans (length_lt_of_readText d hread) (Nat.lt_succ_self _)
    · cases h

/-- Reads text literals up to the end, with a comma and any number of blanks between two of them.
-/
def readLiterals (d : Dialect) (cs : List Char) : Option (List String) :=
  match _hread : d.readLiteral cs with
  | some (text, []) => some [text]
  | some (text, c :: rest) =>
    if c = ',' then (d.readLiterals (rest.dropWhile (· = ' '))).map (text :: ·) else none
  | none => none
termination_by cs.length
decreasing_by
  have hread := length_lt_of_readLiteral d _hread
  have hblanks := (List.dropWhile_sublist (l := rest) (· = ' ')).length_le
  simp only [List.length_cons] at hread
  omega

theorem readLiterals_of_end (d : Dialect) {cs : List Char} {text : String}
    (h : d.readLiteral cs = some (text, [])) : d.readLiterals cs = some [text] := by
  rw [readLiterals]
  split <;> simp_all

theorem readLiterals_of_comma (d : Dialect) {cs rest : List Char} {text : String}
    (h : d.readLiteral cs = some (text, ',' :: rest)) :
    d.readLiterals cs = (d.readLiterals (rest.dropWhile (· = ' '))).map (text :: ·) := by
  rw [readLiterals]
  split <;> simp_all

/-- Reads a list of text literals, which may have none. -/
def readList (d : Dialect) (cs : List Char) : Option (List String) :=
  if cs = [] then some [] else d.readLiterals cs

/-! ### Reading what is written -/

/-- A written character is read as the character, whatever follows it. -/
theorem readText_literalChar (d : Dialect) (c : Char) (rest : List Char) :
    d.readText (d.literalChar c ++ rest) = (d.readText rest).map (Prod.map (c :: ·) id) := by
  unfold literalChar
  split
  · next hquote =>
    subst c
    simp [readText]
  · next hquote =>
    split
    · next hescape =>
      obtain ⟨rfl, rfl⟩ := hescape
      simp [readText, startsEscape]
    · next hplain =>
      have hescape : d.startsEscape c = false := decide_eq_false hplain
      rw [List.singleton_append, readText.eq_def]
      simp only [hquote, hescape, if_false, Bool.false_eq_true]

/-- A closing quote ends the text, unless another quote follows. -/
theorem readText_quote (d : Dialect) {rest : List Char} (hrest : rest.head? ≠ some '\'') :
    d.readText ('\'' :: rest) = some ([], rest) := by
  cases rest with
  | nil => simp [readText]
  | cons next later =>
    have hnext : next ≠ '\'' := by simpa using hrest
    simp [readText, hnext]

theorem readText_literalChars (d : Dialect) (cs : List Char) {rest : List Char}
    (hrest : rest.head? ≠ some '\'') :
    d.readText (cs.flatMap d.literalChar ++ '\'' :: rest) = some (cs, rest) := by
  induction cs with
  | nil => exact d.readText_quote hrest
  | cons c cs ih =>
    rw [List.flatMap_cons, List.append_assoc, readText_literalChar, ih]
    rfl

/-- The literal of a text. -/
def textLiteral (d : Dialect) (s : String) : String :=
  String.ofList (d.literalChars s.toList)

theorem toList_textLiteral (d : Dialect) (s : String) :
    (d.textLiteral s).toList = '\'' :: (s.toList.flatMap d.literalChar ++ ['\'']) := by
  rw [textLiteral, String.toList_ofList]
  rfl

theorem readLiteral_textLiteral (d : Dialect) (s : String) (rest : List Char)
    (hrest : rest.head? ≠ some '\'') :
    d.readLiteral ((d.textLiteral s).toList ++ rest) = some (s, rest) := by
  rw [toList_textLiteral, List.cons_append, List.append_assoc, List.singleton_append, readLiteral,
    if_pos rfl, readText_literalChars d s.toList hrest]
  simp [String.ofList_toList]

/-- After the quote that ends a text literal the tokens are those of what follows. -/
theorem lexFrom_quote (d : Dialect) (read : List Char) {rest : List Char}
    (hrest : rest.head? ≠ some '\'') : Sql.lexFrom d (.quote read) rest =
      (Sql.lex d rest).map (.literal (.text (String.ofList read)) :: ·) := by
  cases rest with
  | nil => rfl
  | cons next later =>
    have hnext : next ≠ '\'' := by simpa using hrest
    rw [Sql.lex, Sql.lexFrom, Sql.lexFrom]
    simp only [Sql.Lexing.step, hnext, if_false, Sql.Lexing.close, Sql.Lexing.finish]
    cases Sql.Lexing.start next with
    | none => rfl
    | some after => cases h : Sql.lexFrom d after.2 later <;> simp [h]

/-- In a condition too the literal of a text is one token. -/
theorem lex_textLiteral (d : Dialect) (s : String) {rest : List Char}
    (hrest : rest.head? ≠ some '\'') :
    Sql.lex d ((d.textLiteral s).toList ++ rest) =
      (Sql.lex d rest).map (.literal (.text s) :: ·) := by
  rw [toList_textLiteral, List.cons_append, List.append_assoc, List.singleton_append,
    Sql.lex_quote, Sql.lexFrom_literalChars, List.nil_append, d.lexFrom_quote s.toList hrest,
    String.ofList_toList]

theorem literals_text (d : Dialect) (texts : List String) :
    d.literals (texts.map .text) = .ok (texts.map d.textLiteral) := by
  induction texts with
  | nil => rfl
  | cons s texts ih =>
    rw [List.map_cons, literals, ih]
    rfl

/-- What stands between two literals of a list: a comma and any number of blanks. -/
def separator (blanks : Nat) : String :=
  String.ofList (',' :: List.replicate blanks ' ')

theorem dropWhile_replicate_append (blanks : Nat) {cs : List Char} (h : cs.head? ≠ some ' ') :
    (List.replicate blanks ' ' ++ cs).dropWhile (· = ' ') = cs := by
  rw [List.dropWhile_append_of_pos (by simp)]
  cases cs with
  | nil => rfl
  | cons c cs => exact List.dropWhile_cons_of_neg (by simpa using h)

theorem readLiterals_intercalate (d : Dialect) (blanks : Nat) (s : String) (texts : List String) :
    d.readLiterals ((separator blanks).intercalate ((s :: texts).map d.textLiteral)).toList =
      some (s :: texts) := by
  induction texts generalizing s with
  | nil =>
    have hread := d.readLiteral_textLiteral s [] (by simp)
    rw [List.append_nil] at hread
    rw [List.map_singleton, String.intercalate_singleton]
    exact d.readLiterals_of_end hread
  | cons next texts ih =>
    let later := (separator blanks).intercalate ((next :: texts).map d.textLiteral)
    have hchars : ((separator blanks).intercalate ((s :: next :: texts).map d.textLiteral)).toList =
        (d.textLiteral s).toList ++ ',' :: (List.replicate blanks ' ' ++ later.toList) := by
      simp [later, separator, String.intercalate_cons_cons, String.toList_append]
    have hread := d.readLiteral_textLiteral s (',' :: (List.replicate blanks ' ' ++ later.toList))
      (by simp)
    have hquote : later.toList.head? = some '\'' := by
      cases texts <;> simp [later, String.intercalate_cons_cons, toList_textLiteral]
    have hblank : later.toList.head? ≠ some ' ' := by simp [hquote]
    rw [hchars, d.readLiterals_of_comma hread, dropWhile_replicate_append blanks hblank, ih]
    rfl

/-- A list of texts, written as literals with commas between them, is read as the list. -/
theorem readList_intercalate (d : Dialect) (blanks : Nat) (texts : List String) :
    d.readList ((separator blanks).intercalate (texts.map d.textLiteral)).toList = some texts := by
  cases texts with
  | nil => rfl
  | cons s texts =>
    have hread := d.readLiterals_intercalate blanks s texts
    have hsome : ((separator blanks).intercalate ((s :: texts).map d.textLiteral)).toList ≠ [] := by
      intro hnil
      rw [hnil, readLiterals] at hread
      cases hread
    rw [readList, if_neg hsome, hread]

theorem textLiteral_injective (d : Dialect) : Function.Injective d.textLiteral := by
  intro first second heq
  have hfirst := d.readLiteral_textLiteral first [] (by simp)
  rw [heq, d.readLiteral_textLiteral second [] (by simp)] at hfirst
  cases hfirst
  rfl

/-- Texts do not break out of their literals. Every text has a literal, and in whatever stands
after it, unless that starts with a quote, the dialect reads the literal as the text and goes on
where it ends, by the rules of literals alone as in a whole condition. So different texts have
different literals, and a list of literals between commas is read as the texts it was written for.
-/
theorem text_literals_read_back (d : Dialect) :
    (∀ s : String, ∃ literal, d.literal (.text s) = .ok literal ∧
      ∀ rest : List Char, rest.head? ≠ some '\'' →
        d.readLiteral (literal.toList ++ rest) = some (s, rest) ∧
        Sql.lex d (literal.toList ++ rest) = (Sql.lex d rest).map (.literal (.text s) :: ·)) ∧
    (∀ first second : String, d.literal (.text first) = d.literal (.text second) →
      first = second) ∧
    ∀ texts : List String, ∃ literals, d.literals (texts.map .text) = .ok literals ∧
      ∀ blanks, d.readList ((separator blanks).intercalate literals).toList = some texts := by
  refine ⟨fun s ↦ ⟨d.textLiteral s, rfl, fun rest hrest ↦ ?_⟩, ?_, fun texts ↦ ?_⟩
  · exact ⟨d.readLiteral_textLiteral s rest hrest, d.lex_textLiteral s hrest⟩
  · intro first second heq
    exact d.textLiteral_injective (Except.ok.inj heq)
  · exact ⟨_, d.literals_text texts, fun blanks ↦ d.readList_intercalate blanks texts⟩

/-- In MySQL a backslash before a quote is doubled like the quote, and hides nothing. -/
theorem backslash_and_quote_read_back :
    [',', ' ', '1'].head? ≠ some '\'' ∧ ∃ literal, mysql.literal (.text "\\'") = .ok literal ∧
      mysql.readLiteral (literal.toList ++ [',', ' ', '1']) = some ("\\'", [',', ' ', '1']) := by
  have hrest : [',', ' ', '1'].head? ≠ some '\'' := by decide
  obtain ⟨hread, -, -⟩ := text_literals_read_back mysql
  obtain ⟨literal, hliteral, hfollowed⟩ := hread "\\'"
  exact ⟨hrest, literal, hliteral, (hfollowed _ hrest).1⟩

end StagedColumns.Dialect
