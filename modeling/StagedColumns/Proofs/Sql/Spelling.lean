import StagedColumns.Proofs.Sql.Lexeme

/-!
# Tokens and lexemes

The two ways in which texts are cut agree. `Sql.lex` knows the tokens of simple conditions and reads
nothing else; `Sql.scan` cuts any condition or statement into lexemes and does not say what they
mean. Where there are tokens there are lexemes, too, and each token is spelled by one of them, or by
two if it is a negative number (`exists_spelling_of_lex`).

Both go through a text one character after the other, and `Beside` says where the one is when the
other is somewhere. They are not always equally far: an equals sign is a token at once, but a lexeme
only when something else follows, and a minus sign is a lexeme before the number after it is a
token.
-/

set_option autoImplicit false

namespace StagedColumns.Sql

variable {d : Dialect}

/-- The lexemes spell the token: they are of its kind, and their characters are read as it. -/
inductive Token.SpelledBy (d : Dialect) : Token → List Lexeme → Prop
  | word {token : Token} {word : List Char} (htoken : token = wordToken word)
    (hread : lex d word = some [token]) : SpelledBy d token [⟨.word, word⟩]
  | member {e : Expression} {chars : List Char} (hpoint : '.' ∈ chars)
    (hread : lex d chars = some [.column e]) : SpelledBy d (.column e) [⟨.word, chars⟩]
  | number {v : Datum} {c : Char} {digits : List Char} (hdigit : c.isDigit = true)
    (hread : lex d (c :: digits) = some [.literal v]) :
    SpelledBy d (.literal v) [⟨.word, c :: digits⟩]
  | negative {v : Datum} {c : Char} {digits : List Char} (hdigit : c.isDigit = true)
    (hread : lex d ('-' :: c :: digits) = some [.literal v]) :
    SpelledBy d (.literal v) [⟨.sign, ['-']⟩, ⟨.word, c :: digits⟩]
  | text {v : Datum} {chars : List Char} (hread : lex d chars = some [.literal v]) :
    SpelledBy d (.literal v) [⟨.quoted, chars⟩]
  | mark {c : Char} {token : Token} (hmark : mark? c = some token) :
    SpelledBy d token [⟨.sign, [c]⟩]

/-- The lexemes spell the tokens, one after the other. -/
inductive Spells (d : Dialect) : List Token → List Lexeme → Prop
  | nil : Spells d [] []
  | cons {token : Token} {tokens : List Token} {lexemes more : List Lexeme}
    (hfirst : token.SpelledBy d lexemes) (hrest : Spells d tokens more) :
    Spells d (token :: tokens) (lexemes ++ more)

theorem Token.SpelledBy.spells {token : Token} {lexemes : List Lexeme}
    (h : token.SpelledBy d lexemes) : Spells d [token] lexemes :=
  List.append_nil lexemes ▸ .cons h .nil

theorem Spells.append {tokens others : List Token} {lexemes more : List Lexeme}
    (h : Spells d tokens lexemes) (hmore : Spells d others more) :
    Spells d (tokens ++ others) (lexemes ++ more) := by
  induction h with
  | nil => exact hmore
  | cons hfirst _ ih =>
    rw [List.append_assoc]
    exact .cons hfirst ih

/-! ### What a token begins with -/

/-- The lexer is in the middle of a token of which the characters are what has been read. -/
def Lexing.After (d : Dialect) (s : Lexing) (chars : List Char) : Prop :=
  ∀ rest, lex d (chars ++ rest) = lexFrom d s rest

namespace Lexing.After

variable {s next : Lexing} {chars : List Char} {c : Char}

theorem start (h : Lexing.start c = some ([], s)) : s.After d [c] := by
  intro rest
  rw [List.singleton_append, lex, lexFrom, Lexing.step, h]
  cases hrest : lexFrom d s rest <;> simp [hrest]

theorem step (h : s.After d chars) (hs : s.step d c = some ([], next)) :
    next.After d (chars ++ [c]) := by
  intro rest
  rw [List.append_assoc, List.singleton_append, h, lexFrom, hs]
  cases hrest : lexFrom d next rest <;> simp [hrest]

theorem finish {tokens : List Token} (h : s.After d chars) (hs : s.finish = some tokens) :
    lex d chars = some tokens := by
  rw [← List.append_nil chars, h]
  exact hs

end Lexing.After

/-! ### Lexer and scan side by side -/

/-- Where a scan is when a lexer is somewhere, with the tokens that only the lexer has given and the
lexemes that only the scan has given. -/
inductive Beside (d : Dialect) : Lexing → Scan → List Token → List Lexeme → Prop
  | between : Beside d .between .between [] []
  | equals : Beside d .between (.sign '=') [.equals] []
  | word {read : List Char} (hafter : (Lexing.word read).After d read) :
    Beside d (.word read) (.word read) [] []
  | member {shortName read : List Char}
    (hafter : (Lexing.member shortName read).After d (shortName ++ '.' :: read)) :
    Beside d (.member shortName read) (.word (shortName ++ '.' :: read)) [] []
  | sign : Beside d .sign (.sign '-') [] []
  | number {n : Nat} {c : Char} {digits : List Char} (hdigit : c.isDigit = true)
    (hafter : (Lexing.number false n).After d (c :: digits)) :
    Beside d (.number false n) (.word (c :: digits)) [] []
  | negative {n : Nat} {c : Char} {digits : List Char} (hdigit : c.isDigit = true)
    (hafter : (Lexing.number true n).After d ('-' :: c :: digits)) :
    Beside d (.number true n) (.word (c :: digits)) [] [⟨.sign, ['-']⟩]
  | text {read chars : List Char} (hafter : (Lexing.text read).After d chars) :
    Beside d (.text read) (.inside (.single (d = .mysql)) chars) [] []
  | escape {read chars : List Char} (hafter : (Lexing.escape read).After d chars) :
    Beside d (.escape read) (.escape (.single (d = .mysql)) chars) [] []
  | quote {read chars : List Char} (hafter : (Lexing.quote read).After d chars) :
    Beside d (.quote read) (.closed (.single (d = .mysql)) chars) [] []

/-- What lexer and scan give in a step, with what they were and are ahead of each other, spells the
same. -/
def Keeps (d : Dialect) (owed : List Token) (ahead : List Lexeme) (given : List Token)
    (cut : List Lexeme) (owed' : List Token) (ahead' : List Lexeme) : Prop :=
  ∀ tokens lexemes, Spells d (owed' ++ tokens) (ahead' ++ lexemes) →
    Spells d (owed ++ (given ++ tokens)) (ahead ++ (withoutGaps cut ++ lexemes))

theorem Beside.finish {s : Lexing} {t : Scan} {owed given : List Token} {ahead : List Lexeme}
    (h : Beside d s t owed ahead) (hs : s.finish = some given) :
    ∃ cut, t.finish = some cut ∧ Spells d (owed ++ given) (ahead ++ withoutGaps cut) := by
  cases h with
  | between =>
    cases hs
    exact ⟨[], rfl, .nil⟩
  | equals =>
    cases hs
    exact ⟨[⟨.sign, ['=']⟩], rfl, (Token.SpelledBy.mark rfl).spells⟩
  | word hafter =>
    have hread := hafter.finish hs
    cases hs
    exact ⟨_, rfl, (Token.SpelledBy.word rfl hread).spells⟩
  | member hafter =>
    have hread := hafter.finish hs
    rw [Lexing.finish] at hs
    split_ifs at hs
    cases hs
    exact ⟨_, rfl, (Token.SpelledBy.member (by simp) hread).spells⟩
  | sign => cases hs
  | number hdigit hafter =>
    have hread := hafter.finish hs
    cases hs
    exact ⟨_, rfl, (Token.SpelledBy.number hdigit hread).spells⟩
  | negative hdigit hafter =>
    have hread := hafter.finish hs
    cases hs
    exact ⟨_, rfl, (Token.SpelledBy.negative hdigit hread).spells⟩
  | text => cases hs
  | escape => cases hs
  | quote hafter =>
    have hread := hafter.finish hs
    cases hs
    exact ⟨_, rfl, (Token.SpelledBy.text hread).spells⟩

theorem startsWord_of_isDigit {c : Char} (hc : c.isDigit = true) : startsWord d c = true := by
  have hdollar : (c == '$') = false := by
    refine beq_eq_false_iff_ne.mpr ?_
    rintro rfl
    cases hc
  simp [startsWord, continuesWord, continuesName, hc, hdollar]

/-- What starts a token starts a lexeme. -/
theorem Beside.start {c : Char} {given : List Token} {s : Lexing}
    (h : Lexing.start c = some (given, s)) :
    ∃ cut t owed ahead, Scan.start d c = some (cut, t) ∧ Beside d s t owed ahead ∧
      Keeps d [] [] given cut owed ahead := by
  have hafter : given = [] → s.After d [c] := fun hgiven ↦ .start (hgiven ▸ h)
  unfold Lexing.start at h
  split_ifs at h with hgap hname hdigit hquote hminus
  · cases h
    exact ⟨[⟨.gap, [c]⟩], _, _, _, by simp [Scan.start, delimiter?, hgap], .between,
      fun _ _ hrest ↦ hrest⟩
  · cases h
    exact ⟨_, _, _, _, start_word (startsWord_of_startsName hname), .word (hafter rfl),
      fun _ _ hrest ↦ hrest⟩
  · cases h
    exact ⟨_, _, _, _, start_word (startsWord_of_isDigit hdigit), .number hdigit (hafter rfl),
      fun _ _ hrest ↦ hrest⟩
  · cases h
    subst hquote
    exact ⟨[], .inside (.single (d = .mysql)) ['\''], _, _, by cases d <;> rfl,
      .text (hafter rfl), fun _ _ hrest ↦ hrest⟩
  · cases h
    subst hminus
    exact ⟨[], .sign '-', _, _, by cases d <;> rfl, .sign, fun _ _ hrest ↦ hrest⟩
  · obtain ⟨token, hmark, htoken⟩ := Option.map_eq_some_iff.mp h
    cases htoken
    have hspelled : token.SpelledBy d [⟨.sign, [c]⟩] := .mark hmark
    unfold mark? at hmark
    split at hmark
    · exact ⟨[.opening], .between, _, _, by cases d <;> rfl, .between,
        fun _ _ hrest ↦ hspelled.spells.append hrest⟩
    · exact ⟨[.closing], .between, _, _, by cases d <;> rfl, .between,
        fun _ _ hrest ↦ hspelled.spells.append hrest⟩
    · exact ⟨[.comma], .between, _, _, by cases d <;> rfl, .between,
        fun _ _ hrest ↦ hspelled.spells.append hrest⟩
    · cases hmark
      exact ⟨[], .sign '=', _, _, by cases d <;> rfl, .equals, fun _ _ hrest ↦ hrest⟩
    · cases hmark

/-- Where a token ends before a character, so does a lexeme. -/
theorem Beside.close {s next : Lexing} {t : Scan} {owed given : List Token} {ahead : List Lexeme}
    {c : Char} (h : Beside d s t owed ahead) (hs : s.close c = some (given, next)) :
    ∃ cut later owed' ahead', t.close d c = some (cut, later) ∧ Beside d next later owed' ahead' ∧
      Keeps d owed ahead given cut owed' ahead' := by
  obtain ⟨done, hdone, hs⟩ := Option.bind_eq_some_iff.mp hs
  obtain ⟨⟨started, more⟩, hstart, hs⟩ := Option.bind_eq_some_iff.mp hs
  cases hs
  obtain ⟨cut, hcut, hspells⟩ := h.finish hdone
  obtain ⟨begun, later, owed', ahead', hbegun, hbeside, hkeeps⟩ := Beside.start (d := d) hstart
  refine ⟨cut ++ begun, later, owed', ahead', ?_, hbeside, fun tokens lexemes hrest ↦ ?_⟩
  · rw [Scan.close, hcut, hbegun]
    rfl
  · have hall := hspells.append (hkeeps tokens lexemes hrest)
    simpa only [withoutGaps_append, List.append_assoc, List.nil_append] using hall

theorem Scan.step_word_of_continues {read : List Char} {c : Char} (hc : continuesWord c = true) :
    Scan.step d (.word read) c = some ([], .word (read ++ [c])) := by
  simp [Scan.step, hc]

/-- A word ends before a character that does not belong to it, unless that is a quote. -/
theorem Scan.step_word_of_ends {read : List Char} {c : Char} (hc : continuesWord c = false)
    (hquote : c ≠ '\'') : Scan.step d (.word read) c = Scan.close d (.word read) c := by
  simp [Scan.step, hc, Scan.startsEscapes, hquote]

theorem continuesWord_of_continuesName {c : Char} (hc : continuesName c = true) :
    continuesWord c = true := by
  simp [continuesWord, hc]

theorem continuesWord_eq_false {c : Char} (hname : ¬continuesName c = true) (hpoint : c ≠ '.') :
    continuesWord c = false := by
  simp [continuesWord, hname, hpoint]

theorem Lexing.close_between (c : Char) : Lexing.close .between c = Lexing.start c := by
  unfold Lexing.close Lexing.finish
  cases Lexing.start c <;> rfl

/-- Nothing starts with a point. -/
theorem Lexing.close_point (s : Lexing) : s.close '.' = none := by
  have hstart : Lexing.start '.' = none := rfl
  unfold Lexing.close
  rw [hstart]
  cases s.finish <;> rfl

namespace Beside

variable {s next : Lexing} {t later : Scan} {owed given : List Token} {ahead : List Lexeme}
variable {c : Char}

/-- The scan answers a step of the lexer. -/
def Answered (d : Dialect) (t : Scan) (c : Char) (owed : List Token) (ahead : List Lexeme)
    (given : List Token) (next : Lexing) : Prop :=
  ∃ cut later owed' ahead', t.step d c = some (cut, later) ∧ Beside d next later owed' ahead' ∧
    Keeps d owed ahead given cut owed' ahead'

/-- Where nothing is complete, nothing more than that needs to be said. -/
theorem answered_of_within (hstep : t.step d c = some ([], later))
    (h : Beside d next later owed ahead) : Answered d t c owed ahead [] next :=
  ⟨[], later, owed, ahead, hstep, h, fun _ _ hrest ↦ hrest⟩

theorem answered_of_close (h : Beside d s t owed ahead) (hstep : t.step d c = t.close d c)
    (hs : s.close c = some (given, next)) : Answered d t c owed ahead given next := by
  unfold Answered
  rw [hstep]
  exact h.close hs

theorem answered_word {read : List Char} (hafter : (Lexing.word read).After d read)
    (hs : Lexing.step d (.word read) c = some (given, next)) :
    Answered d (.word read) c [] [] given next := by
  have hmore : given = [] → next.After d (read ++ [c]) := fun hgiven ↦ hafter.step (hgiven ▸ hs)
  simp only [Lexing.step] at hs
  split_ifs at hs with hname hpoint hquote
  · cases hs
    exact answered_of_within (Scan.step_word_of_continues (continuesWord_of_continuesName hname))
      (.word (hmore rfl))
  · cases hs
    subst hpoint
    exact answered_of_within (Scan.step_word_of_continues rfl) (.member (hmore rfl))
  · exact answered_of_close (.word hafter)
      (Scan.step_word_of_ends (continuesWord_eq_false hname hpoint) hquote) hs

theorem answered_member {shortName read : List Char}
    (hafter : (Lexing.member shortName read).After d (shortName ++ '.' :: read))
    (hs : Lexing.step d (.member shortName read) c = some (given, next)) :
    Answered d (.word (shortName ++ '.' :: read)) c [] [] given next := by
  have hmore : given = [] → next.After d (shortName ++ '.' :: (read ++ [c])) := fun hgiven ↦ by
    simpa using hafter.step (hgiven ▸ hs)
  simp only [Lexing.step] at hs
  split_ifs at hs with hname hquote
  · cases hs
    have hmember := Beside.member (hmore rfl)
    rw [← List.cons_append, ← List.append_assoc] at hmember
    exact answered_of_within (Scan.step_word_of_continues
      (continuesWord_of_continuesName (Bool.and_eq_true_iff.mp hname).1)) hmember
  · have hread : read ≠ [] := by
      rintro rfl
      cases hs
    have hends : ¬continuesName c = true := by
      intro hc
      simp [hc, hread] at hname
    have hpoint : c ≠ '.' := by
      rintro rfl
      rw [Lexing.close_point] at hs
      cases hs
    exact answered_of_close (.member hafter)
      (Scan.step_word_of_ends (continuesWord_eq_false hends hpoint) hquote) hs

/-- A number goes on with digits, whatever sign it has. -/
theorem answered_number (front : List Char) {negative : Bool} {n : Nat} {first : Char}
    {digits : List Char}
    (hbeside : ∀ {n : Nat} {digits : List Char},
      (Lexing.number negative n).After d (front ++ first :: digits) →
        Beside d (.number negative n) (.word (first :: digits)) [] ahead)
    (hafter : (Lexing.number negative n).After d (front ++ first :: digits))
    (hs : Lexing.step d (.number negative n) c = some (given, next)) :
    Answered d (.word (first :: digits)) c [] ahead given next := by
  have hmore : given = [] → next.After d (front ++ first :: (digits ++ [c])) := fun hgiven ↦ by
    simpa using hafter.step (hgiven ▸ hs)
  simp only [Lexing.step] at hs
  split_ifs at hs with hdigit hother
  · cases hs
    exact answered_of_within (Scan.step_word_of_continues
      (continuesWord_of_continuesName (by simp [continuesName, hdigit]))) (hbeside (hmore rfl))
  · simp only [Bool.or_eq_true, beq_iff_eq, not_or] at hother
    obtain ⟨⟨hname, hpoint⟩, hquote⟩ := hother
    exact answered_of_close (hbeside hafter)
      (Scan.step_word_of_ends (continuesWord_eq_false hname hpoint) hquote) hs

/-- The scan gives a minus sign as soon as a digit follows. -/
theorem answered_sign (hs : Lexing.step d .sign c = some (given, next)) :
    Answered d (.sign '-') c [] [] given next := by
  have hafter : (Lexing.sign).After d ['-'] := .start rfl
  have hmore : given = [] → next.After d ['-', c] := fun hgiven ↦ hafter.step (hgiven ▸ hs)
  simp only [Lexing.step] at hs
  split_ifs at hs with hdigit
  cases hs
  have hminus : (c == '-') = false := by
    refine beq_eq_false_iff_ne.mpr ?_
    rintro rfl
    cases hdigit
  have hstep : Scan.step d (.sign '-') c = some ([⟨.sign, ['-']⟩], .word [c]) := by
    simp [Scan.step, Scan.stepSign, joins, hminus, Scan.close, Scan.finish,
      start_word (startsWord_of_isDigit hdigit)]
  exact ⟨_, _, [], _, hstep, .negative hdigit (hmore rfl), fun _ _ hrest ↦ hrest⟩

theorem answered_text {read chars : List Char} (hafter : (Lexing.text read).After d chars)
    (hs : Lexing.step d (.text read) c = some (given, next)) :
    Answered d (.inside (.single (d = .mysql)) chars) c [] [] given next := by
  have hmore : given = [] → next.After d (chars ++ [c]) := fun hgiven ↦ hafter.step (hgiven ▸ hs)
  simp only [Lexing.step] at hs
  split_ifs at hs with hquote hescape
  · cases hs
    exact answered_of_within (by simp [Scan.step, Quoting.closing, hquote]) (.quote (hmore rfl))
  · cases hs
    exact answered_of_within
      (by simp [Scan.step, Quoting.closing, Quoting.escapes, hescape]) (.escape (hmore rfl))
  · cases hs
    have hplain : (decide (d = .mysql) && c == '\\') = false := by
      simpa [and_comm] using hescape
    exact answered_of_within
      (by simp [Scan.step, Quoting.closing, Quoting.escapes, hquote, hplain]) (.text (hmore rfl))

theorem answered_quote {read chars : List Char} (hafter : (Lexing.quote read).After d chars)
    (hs : Lexing.step d (.quote read) c = some (given, next)) :
    Answered d (.closed (.single (d = .mysql)) chars) c [] [] given next := by
  have hmore : given = [] → next.After d (chars ++ [c]) := fun hgiven ↦ hafter.step (hgiven ▸ hs)
  simp only [Lexing.step] at hs
  split_ifs at hs with hquote
  · cases hs
    exact answered_of_within (by simp [Scan.step, Quoting.closing, Quoting.doubles, hquote])
      (.text (hmore rfl))
  · exact answered_of_close (.quote hafter)
      (by simp [Scan.step, Quoting.closing, Quoting.doubles, hquote]) hs

/-- A step of the lexer is answered by a step of the scan. -/
theorem step (h : Beside d s t owed ahead) (hs : s.step d c = some (given, next)) :
    Answered d t c owed ahead given next := by
  cases h with
  | between => exact Beside.start hs
  | equals =>
    have hstep : Scan.step d (.sign '=') c = Scan.close d (.sign '=') c := by
      simp [Scan.step, Scan.stepSign, joins]
    exact answered_of_close .equals hstep (by rwa [Lexing.close_between])
  | word hafter => exact answered_word hafter hs
  | member hafter => exact answered_member hafter hs
  | sign => exact answered_sign hs
  | number hdigit hafter => exact answered_number [] (.number hdigit) hafter hs
  | negative hdigit hafter => exact answered_number ['-'] (.negative hdigit) hafter hs
  | text hafter => exact answered_text hafter hs
  | escape hafter =>
    cases hs
    exact answered_of_within rfl (.text (hafter.step rfl))
  | quote hafter => exact answered_quote hafter hs

end Beside

/-- Where a lexer goes through, a scan beside it does so, too. -/
theorem Beside.run {s : Lexing} {t : Scan} {owed tokens : List Token} {ahead : List Lexeme}
    (h : Beside d s t owed ahead) {cs : List Char} (hcs : lexFrom d s cs = some tokens) :
    ∃ lexemes, scanFrom d t cs = some lexemes ∧
      Spells d (owed ++ tokens) (ahead ++ withoutGaps lexemes) := by
  induction cs generalizing s t owed tokens ahead with
  | nil => exact h.finish hcs
  | cons c cs ih =>
    obtain ⟨⟨given, next⟩, hstep, hcs⟩ := Option.bind_eq_some_iff.mp hcs
    obtain ⟨rest, hrest, hcs⟩ := Option.bind_eq_some_iff.mp hcs
    cases hcs
    obtain ⟨cut, later, owed', ahead', hanswer, hbeside, hkeeps⟩ := h.step hstep
    obtain ⟨more, hmore, hspells⟩ := ih hbeside hrest
    refine ⟨cut ++ more, ?_, ?_⟩
    · rw [scanFrom, hanswer]
      simp [hmore]
    · rw [withoutGaps_append]
      exact hkeeps _ _ hspells

/-- The tokens of a text are spelled by its lexemes. -/
theorem exists_spelling_of_lex {cs : List Char} {tokens : List Token}
    (h : lex d cs = some tokens) :
    ∃ lexemes, scan d cs = some lexemes ∧ Spells d tokens (withoutGaps lexemes) :=
  Beside.between.run h

end StagedColumns.Sql
