import StagedColumns.Query.Expression
import StagedColumns.Sql.Condition

/-!
# The tokens of a condition

How a database reads the text of a condition, as far as tokens: one character after the other, with
what is in the middle of being read as the state. The dialects differ in text literals only. In all
of them a doubled quote stands for a quote; in MySQL a backslash starts an escape, elsewhere it
stands for itself. A text that leaves a literal open has no tokens.

A token ends at the latest where a delimiter follows (`lexFrom_append`), so a text that is put
together from parts between delimiters has the tokens of its parts. `lex_literalChars` says that a
text literal, as the library writes it, is one token with the text it was written for, whatever
characters that text has.
-/

set_option autoImplicit false

namespace StagedColumns.Sql

/-- A token of a condition. -/
inductive Token
  | column (e : Expression)
  | literal (value : Datum)
  | connective (c : Connective)
  | among
  | is
  | equals
  | comma
  | opening
  | closing

/-- What a lexer is in the middle of, with what it has read of it. -/
inductive Lexing
  | between
  | word (read : List Char)
  /-- A column after an alias and a point. -/
  | member (shortName read : List Char)
  | sign
  | number (negative : Bool) (read : Nat)
  | text (read : List Char)
  /-- After a backslash that starts an escape. -/
  | escape (read : List Char)
  /-- After a quote in a text, which ends the text unless another quote follows. -/
  | quote (read : List Char)

/-- A name can start with the character: an ASCII letter, an underscore, or any other character
beyond ASCII. -/
def startsName (c : Char) : Bool :=
  ('A'.toNat ≤ c.toNat && c.toNat ≤ 'Z'.toNat) || ('a'.toNat ≤ c.toNat && c.toNat ≤ 'z'.toNat) ||
    c == '_' || 128 ≤ c.toNat

/-- A name can go on with the character. -/
def continuesName (c : Char) : Bool :=
  startsName c || c.isDigit || c == '$'

/-- The character only separates tokens. -/
def isGap (c : Char) : Bool :=
  c == ' ' || c == '\t' || c == '\n' || c == '\r'

/-- What a backslash and the character stand for in MySQL: some letters are control characters, the
marks of patterns keep their backslash, and any other character stands for itself. -/
def escaped : Char → List Char
  | '0' => [Char.ofNat 0]
  | 'b' => [Char.ofNat 8]
  | 't' => ['\t']
  | 'n' => ['\n']
  | 'r' => ['\r']
  | 'Z' => [Char.ofNat 26]
  | '%' => ['\\', '%']
  | '_' => ['\\', '_']
  | c => [c]

/-- The value of a decimal digit. -/
def digit (c : Char) : Nat :=
  c.toNat - '0'.toNat

/-- The token that a single character is. -/
def mark? : Char → Option Token
  | '(' => some .opening
  | ')' => some .closing
  | ',' => some .comma
  | '=' => some .equals
  | _ => none

/-- What a word means in a condition if it is not the name of a column. Its letter case does not
matter. -/
def reserved? (word : List Char) : Option Token :=
  let upper := String.ofList (word.map Char.toUpper)
  if upper = "AND" then some (.connective .and)
  else if upper = "OR" then some (.connective .or)
  else if upper = "IN" then some .among
  else if upper = "IS" then some .is
  else if upper = "NULL" then some (.literal .null)
  else if upper = "TRUE" then some (.literal (.bool true))
  else if upper = "FALSE" then some (.literal (.bool false))
  else none

/-- The token that a word is. -/
def wordToken (word : List Char) : Token :=
  (reserved? word).getD (.column (.column (String.ofList word)))

namespace Lexing

/-- What the first character after a token starts. -/
def start (c : Char) : Option (List Token × Lexing) :=
  if isGap c then some ([], between)
  else if startsName c then some ([], word [c])
  else if c.isDigit then some ([], number false (digit c))
  else if c = '\'' then some ([], text [])
  else if c = '-' then some ([], sign)
  else (mark? c).map fun token ↦ ([token], between)

/-- The tokens that are complete if nothing follows. -/
def finish : Lexing → Option (List Token)
  | between => some []
  | word read => some [wordToken read]
  | member shortName read =>
    if read = [] then none
    else some [.column (.qualified (String.ofList shortName) (String.ofList read))]
  | number negative read => some [.literal (.int (if negative then -(read : Int) else read))]
  | quote read => some [.literal (.text (String.ofList read))]
  | sign | text _ | escape _ => none

/-- Ends a token before a character that does not belong to it. -/
def close (s : Lexing) (c : Char) : Option (List Token × Lexing) := do
  let tokens ← s.finish
  let (more, next) ← start c
  return (tokens ++ more, next)

/-- Reads one character: the tokens that it completes, and what the lexer is in the middle of then.
-/
def step (d : Dialect) : Lexing → Char → Option (List Token × Lexing)
  | between, c => start c
  | word read, c =>
    if continuesName c then some ([], word (read ++ [c]))
    else if c = '.' then some ([], member read [])
    else if c = '\'' then none
    else (word read).close c
  | member shortName read, c =>
    if continuesName c && (!read.isEmpty || startsName c) then
      some ([], member shortName (read ++ [c]))
    else if c = '\'' then none
    else (member shortName read).close c
  | sign, c => if c.isDigit then some ([], number true (digit c)) else none
  | number negative read, c =>
    if c.isDigit then some ([], number negative (10 * read + digit c))
    else if continuesName c || c == '.' || c == '\'' then none
    else (number negative read).close c
  | text read, c =>
    if c = '\'' then some ([], quote read)
    else if c = '\\' ∧ d = .mysql then some ([], escape read)
    else some ([], text (read ++ [c]))
  | escape read, c => some ([], text (read ++ escaped c))
  | quote read, c => if c = '\'' then some ([], text (read ++ [c])) else (quote read).close c

end Lexing

/-- The tokens of a text that the lexer is in the middle of. -/
def lexFrom (d : Dialect) : Lexing → List Char → Option (List Token)
  | s, [] => s.finish
  | s, c :: rest => do
    let (tokens, next) ← s.step d c
    return tokens ++ (← lexFrom d next rest)

/-- The tokens of a text. -/
def lex (d : Dialect) (cs : List Char) : Option (List Token) :=
  lexFrom d .between cs

/-! ### Parts between delimiters -/

/-- The characters that belong to no token longer than themselves. -/
def delimiters : List Char :=
  [' ', '\t', '\n', '\r', '(', ')', ',', '=']

theorem not_in_token_of_delimiter {c : Char} (h : c ∈ delimiters) :
    continuesName c = false ∧ c.isDigit = false ∧ c ≠ '.' ∧ c ≠ '\'' := by
  simp only [delimiters, List.mem_cons, List.not_mem_nil, or_false] at h
  rcases h with rfl | rfl | rfl | rfl | rfl | rfl | rfl | rfl <;> decide

theorem start_mark {c : Char} {token : Token} (hc : mark? c = some token) :
    Lexing.start c = some ([token], .between) := by
  unfold mark? at hc
  split at hc <;> cases hc <;> rfl

theorem step_delimiter (d : Dialect) {s : Lexing} {c : Char} {tokens : List Token}
    (hc : c ∈ delimiters) (hs : s.finish = some tokens) :
    s.step d c = (Lexing.start c).map fun next ↦ (tokens ++ next.1, next.2) := by
  obtain ⟨hname, hdigit, hpoint, hquote⟩ := not_in_token_of_delimiter hc
  have hclose : s.close c = (Lexing.start c).map fun next ↦ (tokens ++ next.1, next.2) := by
    unfold Lexing.close
    rw [hs]
    cases Lexing.start c <;> rfl
  cases s with
  | between =>
    cases hs
    cases h : Lexing.start c <;> simp [Lexing.step, h]
  | word read => simpa [Lexing.step, hname, hpoint, hquote] using hclose
  | member shortName read => simpa [Lexing.step, hname, hquote] using hclose
  | sign => cases hs
  | number negative read => simpa [Lexing.step, hname, hdigit, hpoint, hquote] using hclose
  | text read => cases hs
  | escape read => cases hs
  | quote read => simpa [Lexing.step, hquote] using hclose

/-- The tokens of a text that is followed by a delimiter are those of the text alone, then those of
what follows. -/
theorem lexFrom_append (d : Dialect) {s : Lexing} {cs rest : List Char} {c : Char}
    {tokens : List Token} (hc : c ∈ delimiters) (hcs : lexFrom d s cs = some tokens) :
    lexFrom d s (cs ++ c :: rest) = (lex d (c :: rest)).map (tokens ++ ·) := by
  induction cs generalizing s tokens with
  | nil =>
    have hs : s.finish = some tokens := hcs
    rw [List.nil_append, lex, lexFrom, lexFrom, step_delimiter d hc hs]
    change _ = Option.map (tokens ++ ·) (Lexing.start c >>= _)
    cases Lexing.start c with
    | none => rfl
    | some next => cases h : lexFrom d next.2 rest <;> simp [h]
  | cons first cs ih =>
    rw [lexFrom] at hcs
    rw [List.cons_append, lexFrom]
    cases hstep : s.step d first with
    | none => simp [hstep] at hcs
    | some next =>
      obtain ⟨done, next⟩ := next
      rw [hstep] at hcs
      cases hnext : lexFrom d next cs with
      | none => simp [hnext] at hcs
      | some more =>
        have htokens : tokens = done ++ more := by simpa [hnext] using hcs.symm
        subst htokens
        simp only [Option.bind_eq_bind, Option.bind_some, ih hnext]
        cases lex d (c :: rest) <;> simp

theorem lex_append (d : Dialect) {cs rest : List Char} {c : Char} {tokens : List Token}
    (hc : c ∈ delimiters) (hcs : lex d cs = some tokens) :
    lex d (cs ++ c :: rest) = (lex d (c :: rest)).map (tokens ++ ·) :=
  lexFrom_append d hc hcs

theorem lex_gap (d : Dialect) (rest : List Char) : lex d (' ' :: rest) = lex d rest := by
  rw [lex, lexFrom]
  change ((some ([], Lexing.between) : Option _) >>= _) = _
  cases h : lex d rest <;> simp_all [lex]

theorem lex_mark (d : Dialect) {c : Char} {token : Token} (rest : List Char)
    (hc : mark? c = some token) : lex d (c :: rest) = (lex d rest).map (token :: ·) := by
  rw [lex, lexFrom]
  change (Lexing.start c >>= _) = _
  rw [start_mark hc]
  cases h : lex d rest <;> simp_all [lex]

/-! ### Names -/

/-- The text is a word. -/
def isWord (name : String) : Bool :=
  match name.toList with
  | [] => false
  | c :: cs => startsName c && cs.all continuesName

/-- The text is the plain name of a column: a word that means nothing else in a condition. -/
def isPlainName (name : String) : Bool :=
  isWord name && (reserved? name.toList).isNone

theorem isWord_of_isPlainName {name : String} (h : isPlainName name = true) :
    isWord name = true :=
  (Bool.and_eq_true_iff.mp h).1

theorem exists_chars_of_isWord {name : String} (h : isWord name = true) :
    ∃ c cs, name.toList = c :: cs ∧ startsName c = true ∧ ∀ x ∈ cs, continuesName x = true := by
  unfold isWord at h
  split at h
  · cases h
  · next c cs hname =>
    rw [Bool.and_eq_true, List.all_eq_true] at h
    exact ⟨c, cs, hname, h.1, h.2⟩

/-- A word stays one with other words before it. -/
theorem isWord_append {front name : String} (hfront : isWord front = true)
    (hname : isWord name = true) : isWord (front ++ name) = true := by
  obtain ⟨c, cs, hc, hstart, hcs⟩ := exists_chars_of_isWord hfront
  obtain ⟨x, xs, hx, hxstart, hxs⟩ := exists_chars_of_isWord hname
  unfold isWord
  rw [String.toList_append, hc, hx, List.cons_append]
  simp only [hstart, Bool.true_and, List.all_append, List.all_cons, Bool.and_eq_true,
    List.all_eq_true]
  exact ⟨hcs, by simp [continuesName, hxstart], hxs⟩

/-- What is before an ending of a word is a word as well, unless nothing is. -/
theorem isWord_of_isWord_append {front ending : String} (h : isWord (front ++ ending) = true)
    (hsome : front ≠ "") : isWord front = true := by
  obtain ⟨c, cs, hchars, hstart, hcs⟩ := exists_chars_of_isWord h
  rw [String.toList_append] at hchars
  unfold isWord
  cases hfront : front.toList with
  | nil => exact absurd (String.toList_inj.mp hfront) hsome
  | cons x xs =>
    rw [hfront, List.cons_append, List.cons_eq_cons] at hchars
    obtain ⟨rfl, rfl⟩ := hchars
    simp only [hstart, Bool.true_and, List.all_eq_true]
    intro y hy
    exact hcs y (List.mem_append_left _ hy)

/-- No reserved word has an underscore. -/
theorem reserved?_of_underscore {word : List Char} (h : '_' ∈ word) : reserved? word = none := by
  have hne (text : String) (htext : '_' ∉ text.toList) :
      String.ofList (word.map Char.toUpper) ≠ text := by
    intro heq
    have hmem : '_' ∈ word.map Char.toUpper := List.mem_map.mpr ⟨'_', h, by decide⟩
    rw [← String.toList_ofList (l := word.map Char.toUpper), heq] at hmem
    exact htext hmem
  unfold reserved?
  simp only [hne "AND" (by decide), hne "OR" (by decide), hne "IN" (by decide),
    hne "IS" (by decide), hne "NULL" (by decide), hne "TRUE" (by decide), hne "FALSE" (by decide),
    if_false]

theorem isPlainName_append {front ending : String} (hfront : isWord front = true)
    (hending : isWord ending = true) (hunderscore : '_' ∈ ending.toList) :
    isPlainName (front ++ ending) = true := by
  have hmem : '_' ∈ (front ++ ending).toList := by
    simp [String.toList_append, hunderscore]
  rw [isPlainName, isWord_append hfront hending, reserved?_of_underscore hmem]
  rfl

theorem lexFrom_word (d : Dialect) {cs : List Char} (hcs : ∀ c ∈ cs, continuesName c = true)
    (read : List Char) : lexFrom d (.word read) cs = some [wordToken (read ++ cs)] := by
  induction cs generalizing read with
  | nil => simp [lexFrom, Lexing.finish]
  | cons c cs ih =>
    have hc := hcs c List.mem_cons_self
    rw [lexFrom]
    simp only [Lexing.step, hc, if_true]
    simp [ih fun x hx ↦ hcs x (List.mem_cons_of_mem c hx)]

theorem isGap_of_continuesName {c : Char} (hc : continuesName c = true) : isGap c = false := by
  cases h : isGap c with
  | false => rfl
  | true =>
    simp only [isGap, Bool.or_eq_true, beq_iff_eq] at h
    rcases h with ((rfl | rfl) | rfl) | rfl <;> cases hc

theorem start_name {c : Char} (hc : startsName c = true) :
    Lexing.start c = some ([], .word [c]) := by
  have hgap := isGap_of_continuesName (c := c) (by simp [continuesName, hc])
  simp [Lexing.start, hgap, hc]

theorem lex_word (d : Dialect) {c : Char} (hc : startsName c = true) (rest : List Char) :
    lex d (c :: rest) = lexFrom d (.word [c]) rest := by
  rw [lex, lexFrom]
  change (Lexing.start c >>= _) = _
  rw [start_name hc]
  cases h : lexFrom d (.word [c]) rest <;> simp [h]

theorem lex_name (d : Dialect) {name : String} (h : isPlainName name = true) :
    lex d name.toList = some [.column (.column name)] := by
  obtain ⟨hname, hfree⟩ := Bool.and_eq_true_iff.mp h
  rw [Option.isNone_iff_eq_none] at hfree
  obtain ⟨c, cs, hchars, hc, hcs⟩ := exists_chars_of_isWord hname
  have hword : wordToken name.toList = .column (.column name) := by
    rw [wordToken, hfree, Option.getD_none, String.ofList_toList]
  rw [hchars, lex_word d hc, lexFrom_word d hcs, List.singleton_append, ← hchars, hword]

theorem lexFrom_member (d : Dialect) {cs : List Char} (hcs : ∀ c ∈ cs, continuesName c = true)
    (shortName : List Char) {read : List Char} (hread : read ≠ []) :
    lexFrom d (.member shortName read) cs =
      some [.column (.qualified (String.ofList shortName) (String.ofList (read ++ cs)))] := by
  induction cs generalizing read with
  | nil => simp [lexFrom, Lexing.finish, hread]
  | cons c cs ih =>
    have hc := hcs c List.mem_cons_self
    have hnonempty : read.isEmpty = false := by simpa using hread
    rw [lexFrom]
    simp only [Lexing.step, hc, hnonempty, Bool.not_false, Bool.true_or, Bool.and_self, if_true]
    simp [ih fun x hx ↦ hcs x (List.mem_cons_of_mem c hx)]

theorem lexFrom_word_point (d : Dialect) {cs : List Char}
    (hcs : ∀ c ∈ cs, continuesName c = true) (read rest : List Char) :
    lexFrom d (.word read) (cs ++ '.' :: rest) = lexFrom d (.member (read ++ cs) []) rest := by
  induction cs generalizing read with
  | nil =>
    have hpoint : continuesName '.' = false := by decide
    rw [List.nil_append, lexFrom]
    simp [Lexing.step, hpoint]
  | cons c cs ih =>
    have hc := hcs c List.mem_cons_self
    rw [List.cons_append, lexFrom]
    simp only [Lexing.step, hc, if_true]
    simp only [Option.bind_eq_bind, Option.bind_some,
      ih (fun x hx ↦ hcs x (List.mem_cons_of_mem c hx)), List.append_assoc, List.singleton_append]
    simp

theorem lex_qualified (d : Dialect) {shortName name : String} (hshort : isWord shortName = true)
    (hname : isWord name = true) :
    lex d (shortName ++ "." ++ name).toList = some [.column (.qualified shortName name)] := by
  obtain ⟨c, cs, hc, hstart, hcs⟩ := exists_chars_of_isWord hshort
  obtain ⟨x, xs, hx, hxstart, hxs⟩ := exists_chars_of_isWord hname
  have hxname : continuesName x = true := by simp [continuesName, hxstart]
  have hpoint : (shortName ++ "." ++ name).toList = c :: (cs ++ '.' :: x :: xs) := by
    simp [String.toList_append, hc, hx]
  rw [hpoint, lex_word d hstart, lexFrom_word_point d hcs, lexFrom]
  simp only [Lexing.step, hxname, hxstart, Bool.or_true, Bool.and_self, if_true]
  simp [lexFrom_member d hxs, ← hc, ← hx, String.ofList_toList]

/-! ### Literals -/

theorem lexFrom_number (d : Dialect) {cs : List Char} (hcs : ∀ c ∈ cs, c.isDigit = true)
    (negative : Bool) (read : Nat) :
    lexFrom d (.number negative read) cs =
      (Lexing.number negative (Nat.ofDigitChars 10 cs read)).finish := by
  induction cs generalizing read with
  | nil => rw [Nat.ofDigitChars_nil, lexFrom]
  | cons c cs ih =>
    have hc := hcs c List.mem_cons_self
    have hrest := ih (fun x hx ↦ hcs x (List.mem_cons_of_mem c hx)) (10 * read + digit c)
    rw [lexFrom, Nat.ofDigitChars_cons]
    simp only [Lexing.step, hc, if_true, Option.bind_eq_bind, Option.bind_some, hrest]
    rfl

theorem start_digit {c : Char} (hc : c.isDigit = true) :
    Lexing.start c = some ([], .number false (digit c)) := by
  have hcode := Char.isDigit_iff_toNat.mp hc
  have hgap := isGap_of_continuesName (c := c) (by simp [continuesName, hc])
  have hstart : startsName c = false := by
    cases h : startsName c with
    | false => rfl
    | true =>
      simp only [startsName, Bool.or_eq_true, Bool.and_eq_true, decide_eq_true_eq, beq_iff_eq] at h
      rcases h with ((h | h) | rfl) | h
      · simp at h hcode
        omega
      · simp at h hcode
        omega
      · cases hc
      · simp at hcode
        omega
  simp [Lexing.start, hgap, hstart, hc]

theorem lex_digits (d : Dialect) {cs : List Char} (hcs : ∀ c ∈ cs, c.isDigit = true)
    (hsome : cs ≠ []) :
    lex d cs = some [.literal (.int (Nat.ofDigitChars 10 cs 0))] := by
  cases cs with
  | nil => exact absurd rfl hsome
  | cons c cs =>
    have hrest := lexFrom_number d (fun x hx ↦ hcs x (List.mem_cons_of_mem c hx)) false (digit c)
    rw [lex, lexFrom]
    change (Lexing.start c >>= _) = _
    rw [start_digit (hcs c List.mem_cons_self), Nat.ofDigitChars_cons]
    simp only [Option.bind_eq_bind, Option.bind_some, hrest, Nat.mul_zero, Nat.zero_add]
    rfl

theorem lex_negative (d : Dialect) {cs : List Char} (hcs : ∀ c ∈ cs, c.isDigit = true)
    (hsome : cs ≠ []) :
    lex d ('-' :: cs) = some [.literal (.int (-(Nat.ofDigitChars 10 cs 0 : Int)))] := by
  cases cs with
  | nil => exact absurd rfl hsome
  | cons c cs =>
    have hrest := lexFrom_number d (fun x hx ↦ hcs x (List.mem_cons_of_mem c hx)) true (digit c)
    have hc := hcs c List.mem_cons_self
    have hsign : Lexing.start '-' = some ([], .sign) := rfl
    rw [lex, lexFrom]
    change (Lexing.start '-' >>= _) = _
    rw [hsign, Nat.ofDigitChars_cons]
    simp only [Option.bind_eq_bind, Option.bind_some, lexFrom, Lexing.step, hc, if_true, hrest,
      Nat.mul_zero, Nat.zero_add]
    rfl

theorem toList_toString_ofNat (m : Nat) :
    (toString (Int.ofNat m)).toList = Nat.toDigits 10 m := by
  change (Nat.repr m).toList = _
  rw [Nat.toList_repr]

theorem toList_toString_negSucc (m : Nat) :
    (toString (Int.negSucc m)).toList = '-' :: Nat.toDigits 10 (m + 1) := by
  change ("-" ++ Nat.repr (m + 1)).toList = _
  rw [String.toList_append, Nat.toList_repr]
  rfl

theorem isDigit_of_mem_toDigits_ten {m : Nat} {c : Char} (hc : c ∈ Nat.toDigits 10 m) :
    c.isDigit = true :=
  Nat.isDigit_of_mem_toDigits (by decide) (by decide) hc

/-- A number in a condition is read as the number. -/
theorem lex_int (d : Dialect) (n : Int) :
    lex d (toString n).toList = some [.literal (.int n)] := by
  cases n with
  | ofNat m =>
    rw [toList_toString_ofNat, lex_digits d (fun _ ↦ isDigit_of_mem_toDigits_ten)
      Nat.toDigits_ne_nil, Nat.ofDigitChars_ten_toDigits]
    rfl
  | negSucc m =>
    rw [toList_toString_negSucc, lex_negative d (fun _ ↦ isDigit_of_mem_toDigits_ten)
      Nat.toDigits_ne_nil, Nat.ofDigitChars_ten_toDigits]
    rfl

/-- Inside a text literal the written characters are read as the characters they stand for. -/
theorem lexFrom_literalChar (d : Dialect) (read : List Char) (c : Char) (rest : List Char) :
    lexFrom d (.text read) (d.literalChar c ++ rest) = lexFrom d (.text (read ++ [c])) rest := by
  unfold Dialect.literalChar
  split
  · next hquote =>
    subst c
    simp [lexFrom, Lexing.step]
  · next hquote =>
    split
    · next hescape =>
      obtain ⟨rfl, rfl⟩ := hescape
      simp [lexFrom, Lexing.step, escaped]
    · next hplain =>
      rw [List.singleton_append, lexFrom]
      simp only [Lexing.step, hquote, hplain, if_false]
      simp

theorem lexFrom_literalChars (d : Dialect) (read cs rest : List Char) :
    lexFrom d (.text read) (cs.flatMap d.literalChar ++ '\'' :: rest) =
      lexFrom d (.quote (read ++ cs)) rest := by
  induction cs generalizing read with
  | nil =>
    rw [List.flatMap_nil, List.nil_append, List.append_nil, lexFrom]
    simp [Lexing.step]
  | cons c cs ih =>
    rw [List.flatMap_cons, List.append_assoc, lexFrom_literalChar, ih, List.append_assoc,
      List.singleton_append]

/-- A quote opens a text literal. -/
theorem lex_quote (d : Dialect) (rest : List Char) :
    lex d ('\'' :: rest) = lexFrom d (.text []) rest := by
  rw [lex, lexFrom]
  change ((some ([], Lexing.text []) : Option _) >>= _) = _
  simp

/-- A text literal is one token with the text it was written for. -/
theorem lex_literalChars (d : Dialect) (cs : List Char) :
    lex d (d.literalChars cs) = some [.literal (.text (String.ofList cs))] := by
  have hquote := lexFrom_literalChars d [] cs []
  rw [Dialect.literalChars, List.cons_append, lex_quote, hquote]
  rfl

end StagedColumns.Sql
