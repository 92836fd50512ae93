import Mathlib.Tactic.SplitIfs
import StagedColumns.Proofs.Sql.Lexer

/-!
# The lexemes of SQL

Conditions and statements come with more than the tokens of `Sql.lex`: function calls, operators,
quoted names, parameters. Here a text is cut into its lexemes, whatever they mean: gaps, words
(which are names, keywords and numbers), signs, and quoted parts. A text is cut one character after
the other, and what is quoted is not looked into. The dialects differ in how they quote: MySQL and
the escape strings of PostgreSQL know backslashes, MySQL and SQLite quote names with backticks,
SQLite with brackets, and PostgreSQL quotes texts with tags between dollar signs.

A comment is a gap. A text is not cut if it leaves a comment or a quoted part open, which would
swallow what follows, nor if it has several statements or comments that MySQL executes. Nor is it
cut if it has `&&` or `||` in MySQL, which there join conditions, the latter only if MySQL is not
told to take it for what it is elsewhere: a text that joins its conditions by signs is not read
here at all. The library writes the words.

A text that is put together from parts between delimiters has the lexemes of its parts
(`scan_append`). A text that has tokens for `Sql.lex` has lexemes, too, which spell the tokens
(`exists_spelling_of_lex`).
-/

set_option autoImplicit false

namespace StagedColumns.Sql

/-- What kind of lexeme it is. -/
inductive LexemeKind
  | gap
  | word
  | sign
  | quoted
deriving DecidableEq

/-- A lexeme with the characters that spell it. -/
structure Lexeme where
  kind : LexemeKind
  chars : List Char
deriving DecidableEq

namespace Lexeme

/-- The lexeme is the word, in any letter case. -/
def isWord (l : Lexeme) (word : String) : Bool :=
  l.kind = .word && String.ofList (l.chars.map Char.toUpper) == word

/-- The lexeme is the sign. -/
def isSign (l : Lexeme) (c : Char) : Bool :=
  l.kind = .sign && l.chars == [c]

/-- The word as a lexeme. -/
def ofWord (word : String) : Lexeme :=
  ⟨.word, word.toList⟩

def gap : Lexeme :=
  ⟨.gap, [' ']⟩

def comma : Lexeme :=
  ⟨.sign, [',']⟩

def opening : Lexeme :=
  ⟨.sign, ['(']⟩

def closing : Lexeme :=
  ⟨.sign, [')']⟩

/-- Lexemes in parentheses. -/
def inParentheses (lexemes : List Lexeme) : List Lexeme :=
  opening :: (lexemes ++ [closing])

end Lexeme

/-- How a part is quoted, and whether backslashes are escapes in it. -/
inductive Quoting
  | single (escapes : Bool)
  | double (escapes : Bool)
  | backtick
  | bracket

namespace Quoting

/-- The character that ends the part. -/
def closing : Quoting → Char
  | single _ => '\''
  | double _ => '"'
  | backtick => '`'
  | bracket => ']'

/-- A doubled closing character stands for one in the part. -/
def doubles : Quoting → Bool
  | bracket => false
  | _ => true

def escapes : Quoting → Bool
  | single escapes | double escapes => escapes
  | _ => false

end Quoting

/-- The character starts a quoted part. -/
def quoting? (d : Dialect) (c : Char) : Option Quoting :=
  match c, d with
  | '\'', _ => some (.single (d = .mysql))
  | '"', _ => some (.double (d = .mysql))
  | '`', .sqlite | '`', .mysql => some .backtick
  | '[', .sqlite => some .bracket
  | _, _ => none

/-- A word can go on with the character. Names may be qualified, and numbers may have fractions. -/
def continuesWord (c : Char) : Bool :=
  continuesName c || c == '.'

/-- A word can start with the character. -/
def startsWord (d : Dialect) (c : Char) : Bool :=
  continuesWord c && !(c == '$' && d = .postgresql)

/-- The character is a sign that may stand in a condition. -/
def isSign (d : Dialect) (c : Char) : Bool :=
  ['+', '-', '*', '/', '%', '<', '>', '=', '!', '~', '^', '&', '|', '@', '?'].contains c ||
    (c == ':' && d ≠ .mysql) || (['#', '[', ']'].contains c && d = .postgresql)

/-- The two signs join conditions. -/
def joins (d : Dialect) (first second : Char) : Bool :=
  d = .mysql && first == second && (first == '|' || first == '&')

/-- The comment goes to the end of the line. -/
def endsLine (d : Dialect) (c : Char) : Bool :=
  c == '\n' || (c == '\r' && d = .postgresql)

/-- The lexeme that a delimiter is. -/
def delimiter? (c : Char) : Option Lexeme :=
  if isGap c then some ⟨.gap, [c]⟩
  else if c == '(' || c == ')' || c == ',' then some ⟨.sign, [c]⟩
  else none

/-- What a scan is in the middle of, with what it has read of it. -/
inductive Scan
  | between
  | word (read : List Char)
  | sign (c : Char)
  | inside (q : Quoting) (read : List Char)
  /-- After a backslash that starts an escape. -/
  | escape (q : Quoting) (read : List Char)
  /-- After a closing character, which ends the part unless it is doubled. -/
  | closed (q : Quoting) (read : List Char)
  /-- Inside the tag that starts a part quoted with dollar signs. -/
  | tag (read : List Char)
  | tagged (opening read : List Char)
  /-- After two minus signs that start a comment if a gap follows. -/
  | dashes
  /-- Inside a comment that goes to the end of the line. -/
  | line (read : List Char)
  /-- Inside a comment that has comments around it. -/
  | comment (depth : Nat) (read : List Char)
  /-- Inside a comment, after a sign that may be the first one of two. -/
  | commentSign (c : Char) (depth : Nat) (read : List Char)

namespace Scan

/-- What the first character after a lexeme starts. -/
def start (d : Dialect) (c : Char) : Option (List Lexeme × Scan) :=
  match delimiter? c, quoting? d c with
  | some lexeme, _ => some ([lexeme], between)
  | none, some q => some ([], inside q [c])
  | none, none =>
    if startsWord d c then some ([], word [c])
    else if isSign d c then some ([], sign c)
    else if c == '$' then some ([], tag [c])
    else if c == '#' && d = .mysql then some ([], line [c])
    else none

/-- The lexemes that are complete if nothing follows. -/
def finish : Scan → Option (List Lexeme)
  | between => some []
  | word read => some [⟨.word, read⟩]
  | sign c => some [⟨.sign, [c]⟩]
  | closed _ read => some [⟨.quoted, read⟩]
  | inside .. | escape .. | tag _ | tagged .. | dashes | line _ | comment .. | commentSign .. =>
    none

/-- Ends a lexeme before a character that does not belong to it. -/
def close (d : Dialect) (s : Scan) (c : Char) : Option (List Lexeme × Scan) := do
  let lexemes ← s.finish
  let (more, next) ← start d c
  return (lexemes ++ more, next)

/-- The quote makes the word the start of an escape string. -/
def startsEscapes (d : Dialect) (read : List Char) (c : Char) : Bool :=
  d = .postgresql && c == '\'' && (read == ['E'] || read == ['e'])

/-- Reads a character after a sign. The two may start a comment. -/
def stepSign (d : Dialect) (first c : Char) : Option (List Lexeme × Scan) :=
  if joins d first c then none
  else if first == '-' && c == '-' then
    some ([], if d = .mysql then dashes else line [first, c])
  else if first == '/' && c == '*' then some ([], comment 0 [first, c])
  else close d (sign first) c

/-- Reads a character after two minus signs, of which the second one may still be the first one of
those that start a comment. -/
def stepDashes (d : Dialect) (c : Char) : Option (List Lexeme × Scan) :=
  if endsLine d c then some ([⟨.gap, ['-', '-', c]⟩], between)
  else if isGap c then some ([], line ['-', '-', c])
  else if c == '-' then some ([⟨.sign, ['-']⟩], dashes)
  else (start d c).map fun (more, next) ↦ (⟨.sign, ['-']⟩ :: ⟨.sign, ['-']⟩ :: more, next)

/-- Reads a character in a comment. Two signs end it, or in PostgreSQL start another one in it. -/
def stepComment (d : Dialect) (before : Option Char) (depth : Nat) (read : List Char) (c : Char) :
    Option (List Lexeme × Scan) :=
  if before = some '*' && c == '/' then
    match depth with
    | 0 => some ([⟨.gap, read ++ [c]⟩], between)
    | depth + 1 => some ([], comment depth (read ++ [c]))
  else if before = some '/' && c == '*' && d = .postgresql then
    some ([], comment (depth + 1) (read ++ [c]))
  else if d = .mysql && read == ['/', '*'] && c == '!' then none
  else some ([], if c == '*' || c == '/' then commentSign c depth (read ++ [c])
    else comment depth (read ++ [c]))

/-- Reads one character: the lexemes that it completes, and what the scan is in the middle of after
it. -/
def step (d : Dialect) (s : Scan) (c : Char) : Option (List Lexeme × Scan) :=
  match s with
  | between => start d c
  | word read =>
    if continuesWord c then some ([], word (read ++ [c]))
    else if startsEscapes d read c then some ([], inside (.single true) (read ++ [c]))
    else close d s c
  | sign first => stepSign d first c
  | inside q read =>
    if c = q.closing then some ([], closed q (read ++ [c]))
    else if q.escapes && c == '\\' then some ([], escape q (read ++ [c]))
    else some ([], inside q (read ++ [c]))
  | escape q read => some ([], inside q (read ++ [c]))
  | closed q read =>
    if q.doubles && c == q.closing then some ([], inside q (read ++ [c]))
    else close d s c
  | tag read =>
    if c == '$' then some ([], tagged (read ++ [c]) (read ++ [c]))
    else if startsName c || (continuesName c && read != ['$']) then some ([], tag (read ++ [c]))
    else none
  | tagged opening read =>
    if opening.isSuffixOf (read ++ [c]) && 2 * opening.length ≤ read.length + 1 then
      some ([⟨.quoted, read ++ [c]⟩], between)
    else some ([], tagged opening (read ++ [c]))
  | dashes => stepDashes d c
  | line read =>
    if endsLine d c then some ([⟨.gap, read ++ [c]⟩], between) else some ([], line (read ++ [c]))
  | comment depth read => stepComment d none depth read c
  | commentSign before depth read => stepComment d before depth read c

end Scan

/-- The lexemes of characters, where the scan is in the middle of something. -/
def scanFrom (d : Dialect) (s : Scan) : List Char → Option (List Lexeme)
  | [] => s.finish
  | c :: cs => do
    let (lexemes, next) ← s.step d c
    let more ← scanFrom d next cs
    return lexemes ++ more

/-- The lexemes of a text. -/
def scan (d : Dialect) (cs : List Char) : Option (List Lexeme) :=
  scanFrom d .between cs

/-- What lexemes spell. -/
def spelled (lexemes : List Lexeme) : List Char :=
  lexemes.flatMap Lexeme.chars

theorem spelled_append (lexemes more : List Lexeme) :
    spelled (lexemes ++ more) = spelled lexemes ++ spelled more :=
  List.flatMap_append

/-- Lexemes without the gaps, which only separate them. -/
def withoutGaps (lexemes : List Lexeme) : List Lexeme :=
  lexemes.filter (·.kind ≠ .gap)

theorem withoutGaps_append (lexemes more : List Lexeme) :
    withoutGaps (lexemes ++ more) = withoutGaps lexemes ++ withoutGaps more :=
  List.filter_append ..

/-- A list whose items are all read is read as what they are read as. -/
theorem mapM_map_of_some {α β γ : Type} {f : β → Option γ} {h : α → β} {g : α → γ}
    (hf : ∀ x, f (h x) = some (g x)) (l : List α) : (l.map h).mapM f = some (l.map g) := by
  have hpure : f ∘ h = fun x ↦ pure (g x) := funext hf
  rw [List.mapM_map, hpure, List.mapM_pure]
  rfl

/-- Parentheses in comments and in quoted parts are none. -/
example : scan .postgresql "a--(\n=$t$)$t$".toList = some [⟨.word, ['a']⟩,
    ⟨.gap, "--(\n".toList⟩, ⟨.sign, ['=']⟩, ⟨.quoted, "$t$)$t$".toList⟩] :=
  rfl

/-! ### Delimiters -/

section Delimiters

variable {d : Dialect} {c : Char} {lexeme : Lexeme}

theorem chars_of_delimiter? (h : delimiter? c = some lexeme) : lexeme.chars = [c] := by
  unfold delimiter? at h
  split_ifs at h <;> cases h <;> rfl

theorem continuesWord_of_delimiter? (h : delimiter? c = some lexeme) : continuesWord c = false := by
  unfold delimiter? at h
  split_ifs at h with hgap hmark
  · simp only [isGap, Bool.or_eq_true, beq_iff_eq] at hgap
    rcases hgap with ((rfl | rfl) | rfl) | rfl <;> rfl
  · simp only [Bool.or_eq_true, beq_iff_eq] at hmark
    rcases hmark with (rfl | rfl) | rfl <;> rfl

theorem beq_of_delimiter? (h : delimiter? c = some lexeme) {x : Char} (hx : delimiter? x = none) :
    (c == x) = false := by
  refine beq_eq_false_iff_ne.mpr ?_
  rintro rfl
  rw [h] at hx
  cases hx

/-- A delimiter belongs to no lexeme but its own. -/
theorem Scan.step_delimiter (h : delimiter? c = some lexeme) {s : Scan} {lexemes : List Lexeme}
    (hs : s.finish = some lexemes) : s.step d c = some (lexemes ++ [lexeme], .between) := by
  have hclose : s.close d c = some (lexemes ++ [lexeme], .between) := by
    simp [Scan.close, hs, Scan.start, h]
  cases s with
  | between =>
    cases hs
    simp [Scan.step, Scan.start, h]
  | word read =>
    have hquote : (c == '\'') = false := beq_of_delimiter? h rfl
    simpa [Scan.step, continuesWord_of_delimiter? h, Scan.startsEscapes, hquote] using hclose
  | sign first =>
    have hminus : (c == '-') = false := beq_of_delimiter? h rfl
    have hstar : (c == '*') = false := beq_of_delimiter? h rfl
    have hjoins : joins d first c = false := by
      by_cases hfirst : first = c
      · have hbar : (c == '|') = false := beq_of_delimiter? h rfl
        have hampersand : (c == '&') = false := beq_of_delimiter? h rfl
        simp [joins, hfirst, hbar, hampersand]
      · simp [joins, hfirst]
    simpa [Scan.step, Scan.stepSign, hjoins, hminus, hstar] using hclose
  | closed q read =>
    have hclosing : (c == q.closing) = false := by
      cases q <;> exact beq_of_delimiter? h rfl
    simpa [Scan.step, hclosing] using hclose
  | _ => cases hs

theorem scan_delimiter (h : delimiter? c = some lexeme) (rest : List Char) :
    scan d (c :: rest) = (scan d rest).map (lexeme :: ·) := by
  rw [scan, scanFrom, Scan.step_delimiter h (rfl : Scan.between.finish = some [])]
  cases hrest : scan d rest <;> simp_all [scan]

/-- The lexemes of a text that is followed by a delimiter are those of the text alone, then those
of what follows. -/
theorem scanFrom_append (h : delimiter? c = some lexeme) {s : Scan} {cs : List Char}
    {lexemes : List Lexeme} (hcs : scanFrom d s cs = some lexemes) (rest : List Char) :
    scanFrom d s (cs ++ c :: rest) = (scan d (c :: rest)).map (lexemes ++ ·) := by
  induction cs generalizing s lexemes with
  | nil =>
    rw [List.nil_append, scan_delimiter h, scanFrom, Scan.step_delimiter h hcs]
    cases hrest : scan d rest <;> simp_all [scan]
  | cons first cs ih =>
    obtain ⟨⟨done, next⟩, hstep, hcs⟩ := Option.bind_eq_some_iff.mp hcs
    obtain ⟨more, hmore, hcs⟩ := Option.bind_eq_some_iff.mp hcs
    cases hcs
    rw [List.cons_append, scanFrom, hstep]
    simp only [Option.bind_eq_bind, Option.bind_some, ih hmore]
    cases scan d (c :: rest) <;> simp

theorem scan_append (h : delimiter? c = some lexeme) {cs : List Char} {lexemes : List Lexeme}
    (hcs : scan d cs = some lexemes) (rest : List Char) :
    scan d (cs ++ c :: rest) = (scan d (c :: rest)).map (lexemes ++ ·) :=
  scanFrom_append h hcs rest

end Delimiters

/-! ### Words -/

theorem startsWord_of_startsName {d : Dialect} {c : Char} (hc : startsName c = true) :
    startsWord d c = true := by
  have hdollar : (c == '$') = false := by
    refine beq_eq_false_iff_ne.mpr ?_
    rintro rfl
    cases hc
  simp [startsWord, continuesWord, continuesName, hc, hdollar]

theorem scanFrom_word (d : Dialect) {cs : List Char} (hcs : ∀ c ∈ cs, continuesWord c = true)
    (read : List Char) : scanFrom d (.word read) cs = some [⟨.word, read ++ cs⟩] := by
  induction cs generalizing read with
  | nil => simp [scanFrom, Scan.finish]
  | cons c cs ih =>
    rw [scanFrom]
    simp only [Scan.step, hcs c List.mem_cons_self, if_true]
    simp [ih fun x hx ↦ hcs x (List.mem_cons_of_mem c hx)]

/-- What a word starts with is neither a delimiter nor a quote. -/
theorem start_word {d : Dialect} {c : Char} (hc : startsWord d c = true) :
    Scan.start d c = some ([], .word [c]) := by
  have hword : continuesWord c = true := (Bool.and_eq_true_iff.mp hc).1
  have hne (x : Char) (hx : continuesWord x = false) : c ≠ x := by
    rintro rfl
    rw [hword] at hx
    cases hx
  have hdelimiter : delimiter? c = none := by
    cases h : delimiter? c with
    | none => rfl
    | some lexeme =>
      rw [continuesWord_of_delimiter? h] at hword
      cases hword
  have hquoting : quoting? d c = none := by
    unfold quoting?
    split
    · exact absurd rfl (hne _ rfl)
    · exact absurd rfl (hne _ rfl)
    · exact absurd rfl (hne _ rfl)
    · exact absurd rfl (hne _ rfl)
    · exact absurd rfl (hne _ rfl)
    · rfl
  simp [Scan.start, hdelimiter, hquoting, hc]

/-- A word is one lexeme. -/
theorem scan_word {d : Dialect} {c : Char} {cs : List Char} (hc : startsWord d c = true)
    (hcs : ∀ x ∈ cs, continuesWord x = true) : scan d (c :: cs) = some [⟨.word, c :: cs⟩] := by
  rw [scan, scanFrom]
  simp only [Scan.step, start_word hc, Option.bind_eq_bind, Option.bind_some,
    scanFrom_word d hcs]
  rfl

end StagedColumns.Sql
