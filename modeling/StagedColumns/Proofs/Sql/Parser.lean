import StagedColumns.Proofs.Sql.Combined
import StagedColumns.Proofs.Sql.Lexer
import StagedColumns.Proofs.Sql.Meaning

/-!
# Reading conditions

How a database reads the text of a condition: token by token, with the parentheses that are open as
a stack. Between two parentheses `AND` binds more than `OR`, so a level keeps apart what stands
before the last `OR` and what stands after it.

What is read between two parentheses does not look at the levels below (`step_above`). So a
condition in parentheses is read as the one condition that it is read as alone, and conditions that
are combined into one text are read as the combination of their readings (`parse_combine`).
-/

set_option autoImplicit false

namespace StagedColumns.Sql

/-- The conditions read so far between two parentheses. -/
structure Level where
  /-- What the conditions before the last `OR` combine to. -/
  before : Option Condition
  /-- What the conditions since then combine to. -/
  current : Option Condition

namespace Level

def empty : Level :=
  ⟨none, none⟩

/-- One more condition after an `AND`, or at the start of an alternative. -/
def add (l : Level) (c : Condition) : Level :=
  match l.current with
  | some earlier => ⟨l.before, some (.joined .and earlier c)⟩
  | none => ⟨l.before, some c⟩

/-- What the conditions combine to. -/
def whole (l : Level) : Option Condition :=
  match l.before, l.current with
  | some earlier, some c => some (.joined .or earlier c)
  | _, current => current

/-- A connective after the conditions. -/
def next (l : Level) : Connective → Level
  | .and => l
  | .or => ⟨l.whole, none⟩

end Level

/-- What a reader expects next. -/
inductive Expected
  | condition
  | comparison (o : Operand)
  | right (o : Operand)
  | null (o : Operand)
  | list (o : Operand)
  | item (o : Operand) (read : List Datum)
  | separator (o : Operand) (read : List Datum)
  /-- A connective, a closing parenthesis or the end. -/
  | connective

/-- How far a condition is read: the level that is being read, the levels around it from the inner
to the outer ones, and what is expected. -/
structure Parsing where
  level : Level
  outer : List Level
  expected : Expected

namespace Parsing

def start : Parsing :=
  ⟨.empty, [], .condition⟩

def expecting (p : Parsing) (expected : Expected) : Parsing :=
  { p with expected := expected }

/-- A condition is complete. -/
def complete (p : Parsing) (c : Condition) : Parsing :=
  ⟨p.level.add c, p.outer, .connective⟩

/-- Reads one token. -/
def step (p : Parsing) (token : Token) : Option Parsing :=
  match p.expected, token with
  | .condition, .opening => some ⟨.empty, p.level :: p.outer, .condition⟩
  | .condition, .column e => some (p.expecting (.comparison (.column e)))
  | .condition, .literal v => some (p.expecting (.comparison (.value v)))
  | .comparison o, .equals => some (p.expecting (.right o))
  | .comparison o, .is => some (p.expecting (.null o))
  | .comparison o, .among => some (p.expecting (.list o))
  | .right o, .column e => some (p.complete (.equal o (.column e)))
  | .right o, .literal v => some (p.complete (.equal o (.value v)))
  | .null o, .literal .null => some (p.complete (.isNull o))
  | .list o, .opening => some (p.expecting (.item o []))
  | .item o read, .literal v => some (p.expecting (.separator o (read ++ [v])))
  | .separator o read, .comma => some (p.expecting (.item o read))
  | .separator o read, .closing => some (p.complete (.among o read))
  | .connective, .connective c => some ⟨p.level.next c, p.outer, .condition⟩
  | .connective, .closing =>
    match p.outer, p.level.whole with
    | level :: outer, some c => some ⟨level.add c, outer, .connective⟩
    | _, _ => none
  | _, _ => none

/-- What has been read, if it may end here. -/
def finish (p : Parsing) : Option Condition :=
  match p.outer, p.expected with
  | [], .connective => p.level.whole
  | _, _ => none

end Parsing

/-- The condition that tokens make up. -/
def parseTokens (tokens : List Token) : Option Condition := do
  (← tokens.foldlM Parsing.step .start).finish

/-- The condition that a text says. -/
def parse (d : Dialect) (text : String) : Option Condition := do
  parseTokens (← lex d text.toList)

/-! ### Levels and parentheses -/

namespace Parsing

/-- The same reading with more levels around it. -/
def above (p : Parsing) (below : List Level) : Parsing :=
  { p with outer := p.outer ++ below }

theorem step_above {p q : Parsing} {token : Token} (below : List Level)
    (h : p.step token = some q) : (p.above below).step token = some (q.above below) := by
  obtain ⟨level, outer, expected⟩ := p
  unfold step at h
  split at h
  case h_15 =>
    -- only a closing parenthesis looks at the levels around, and at no more than the first one
    split at h
    · next hwhole =>
      simp only at hwhole
      cases h
      simp_all [step, above]
    · cases h
  all_goals
    first
    | cases h; simp_all [step, above, expecting, complete]
    | cases h

theorem foldlM_step_above {p q : Parsing} {tokens : List Token} (below : List Level)
    (h : tokens.foldlM step p = some q) :
    tokens.foldlM step (p.above below) = some (q.above below) := by
  induction tokens generalizing p with
  | nil =>
    cases h
    rfl
  | cons token tokens ih =>
    rw [List.foldlM_cons] at h ⊢
    obtain ⟨middle, hstep, hrest⟩ := Option.bind_eq_some_iff.mp h
    rw [step_above below hstep]
    exact ih hrest

end Parsing

theorem exists_parsing_of_parseTokens {tokens : List Token} {c : Condition}
    (h : parseTokens tokens = some c) :
    ∃ level : Level, tokens.foldlM Parsing.step .start = some ⟨level, [], .connective⟩ ∧
      level.whole = some c := by
  obtain ⟨⟨level, outer, expected⟩, hread, hfinish⟩ := Option.bind_eq_some_iff.mp h
  unfold Parsing.finish at hfinish
  split at hfinish
  · next houter hexpected =>
    simp only at houter hexpected hfinish
    subst houter hexpected
    exact ⟨level, hread, hfinish⟩
  · cases hfinish

/-- The tokens of a condition in parentheses. -/
def group (tokens : List Token) : List Token :=
  .opening :: (tokens ++ [.closing])

/-- A condition in parentheses is read as one condition. -/
theorem foldlM_group {tokens : List Token} {c : Condition} (h : parseTokens tokens = some c)
    (level : Level) (outer : List Level) :
    (group tokens).foldlM Parsing.step ⟨level, outer, .condition⟩ =
      some ⟨level.add c, outer, .connective⟩ := by
  obtain ⟨inner, hread, hwhole⟩ := exists_parsing_of_parseTokens h
  have habove := Parsing.foldlM_step_above (level :: outer) hread
  have hopen : Parsing.step ⟨level, outer, .condition⟩ .opening =
      some (Parsing.start.above (level :: outer)) := rfl
  rw [group, List.foldlM_cons, hopen]
  simp only [Option.bind_eq_bind, Option.bind_some, List.foldlM_append, habove,
    List.foldlM_cons, List.foldlM_nil]
  simp [Parsing.step, Parsing.above, hwhole]

/-! ### Combined conditions -/

/-- The conditions of a level make up the condition, which another one can follow after the
connective. -/
structure Level.Takes (l : Level) (connective : Connective) (c : Condition) : Prop where
  whole : l.whole = some c
  /-- After an `OR`, an `AND` would belong to the last alternative only. -/
  single : connective = .and → l.before = none

theorem Level.Takes.next_add {l : Level} {connective : Connective} {c : Condition}
    (h : l.Takes connective c) (other : Condition) :
    ((l.next connective).add other).Takes connective (.joined connective c other) := by
  obtain ⟨before, current⟩ := l
  obtain ⟨hwhole, hsingle⟩ := h
  cases connective with
  | and =>
    have hbefore : before = none := hsingle rfl
    subst hbefore
    have hcurrent : current = some c := hwhole
    subst hcurrent
    exact ⟨rfl, fun _ ↦ rfl⟩
  | or =>
    refine ⟨?_, nofun⟩
    simp only [Level.next, hwhole]
    rfl

/-- The tokens of a text, which has some. -/
def tokensOf (d : Dialect) (text : String) : List Token :=
  (lex d text.toList).getD []

theorem lex_of_parse {d : Dialect} {text : String} {c : Condition} (h : parse d text = some c) :
    lex d text.toList = some (tokensOf d text) := by
  obtain ⟨tokens, hlex, -⟩ := Option.bind_eq_some_iff.mp h
  rw [tokensOf, hlex, Option.getD_some]

theorem parseTokens_of_parse {d : Dialect} {text : String} {c : Condition}
    (h : parse d text = some c) : parseTokens (tokensOf d text) = some c := by
  obtain ⟨tokens, hlex, hparse⟩ := Option.bind_eq_some_iff.mp h
  rw [tokensOf, hlex, Option.getD_some]
  exact hparse

/-- The tokens of further conditions in parentheses, each after the connective. -/
def chainTokens (d : Dialect) (connective : Connective) (texts : List String) : List Token :=
  texts.flatMap fun text ↦ .connective connective :: group (tokensOf d text)

theorem foldlM_chainTokens {d : Dialect} {connective : Connective} {texts : List String}
    {conditions : List Condition} (htexts : texts.map (parse d) = conditions.map some)
    {level : Level} {c : Condition} (hlevel : level.Takes connective c) :
    ∃ last : Level, (chainTokens d connective texts).foldlM Parsing.step
        ⟨level, [], .connective⟩ = some ⟨last, [], .connective⟩ ∧
      last.whole = some (Condition.chain connective c conditions) := by
  induction texts generalizing conditions level c with
  | nil =>
    have hnone : conditions = [] := by simpa using htexts.symm
    subst hnone
    exact ⟨level, rfl, hlevel.whole⟩
  | cons text texts ih =>
    cases conditions with
    | nil => cases htexts
    | cons other conditions =>
      rw [List.map_cons, List.map_cons, List.cons_eq_cons] at htexts
      have hother := parseTokens_of_parse htexts.1
      obtain ⟨last, hread, hwhole⟩ := ih htexts.2 (hlevel.next_add other)
      refine ⟨last, ?_, hwhole⟩
      have hstep : Parsing.step ⟨level, [], .connective⟩ (.connective connective) =
          some ⟨level.next connective, [], .condition⟩ := rfl
      simp only [chainTokens, List.flatMap_cons, List.cons_append, List.foldlM_cons,
        List.foldlM_append, hstep, Option.bind_eq_bind, Option.bind_some, foldlM_group hother]
      exact hread

theorem parseTokens_chain {d : Dialect} {connective : Connective} {text : String}
    {texts : List String} {c : Condition} {conditions : List Condition}
    (htext : parse d text = some c) (htexts : texts.map (parse d) = conditions.map some) :
    parseTokens (group (tokensOf d text) ++ chainTokens d connective texts) =
      some (Condition.chain connective c conditions) := by
  have hfirst := foldlM_group (parseTokens_of_parse htext) .empty []
  have hlevel : (Level.empty.add c).Takes connective c := ⟨rfl, fun _ ↦ rfl⟩
  obtain ⟨last, hread, hwhole⟩ := foldlM_chainTokens htexts hlevel
  have hstart : Parsing.start = ⟨.empty, [], .condition⟩ := rfl
  rw [parseTokens, List.foldlM_append, hstart, hfirst]
  simp only [Option.bind_eq_bind, Option.bind_some, hread]
  exact hwhole

theorem lex_group (d : Dialect) {cs : List Char} {tokens : List Token}
    (h : lex d cs = some tokens) (rest : List Char) :
    lex d ('(' :: (cs ++ ')' :: rest)) = (lex d rest).map (group tokens ++ ·) := by
  have hclosing : ')' ∈ delimiters := by decide
  rw [lex_mark d _ (rfl : mark? '(' = some .opening), lex_append d hclosing h,
    lex_mark d _ (rfl : mark? ')' = some .closing)]
  cases lex d rest <;> simp [group]

theorem lex_connective (d : Dialect) (connective : Connective) (rest : List Char) :
    lex d ((" " ++ connective.word ++ " ").toList ++ rest) =
      (lex d rest).map (.connective connective :: ·) := by
  have hgap : ' ' ∈ delimiters := by decide
  have hword : lex d connective.word.toList = some [.connective connective] := by
    cases connective <;> cases d <;> rfl
  have htext : (" " ++ connective.word ++ " ").toList ++ rest =
      ' ' :: (connective.word.toList ++ ' ' :: rest) := by
    simp [String.toList_append]
  rw [htext, lex_gap, lex_append d hgap hword, lex_gap]
  rfl

theorem lex_grouped (d : Dialect) {text : String} {tokens : List Token}
    (h : lex d text.toList = some tokens) (rest : List Char) :
    lex d ((grouped text).toList ++ rest) = (lex d rest).map (group tokens ++ ·) := by
  have htext : (grouped text).toList ++ rest = '(' :: (text.toList ++ ')' :: rest) := by
    simp [grouped, String.toList_append]
  rw [htext, lex_group d h]

theorem cutsCombined_lex (d : Dialect) (connective : Connective) :
    CutsCombined (lex d) group connective (.connective connective) where
  nothing := rfl
  grouped := lex_grouped d
  connective := lex_connective d connective

theorem lex_of_mem {d : Dialect} {texts : List String} {conditions : List Condition}
    (htexts : texts.map (parse d) = conditions.map some) {text : String} (htext : text ∈ texts) :
    lex d text.toList = some (tokensOf d text) := by
  have hparse : parse d text ∈ conditions.map some := htexts ▸ List.mem_map_of_mem htext
  obtain ⟨c, -, hc⟩ := List.mem_map.mp hparse
  exact lex_of_parse hc.symm

/-- Conditions that are combined into one text are read as the combination of their readings. -/
theorem parse_combine {d : Dialect} (connective : Connective) {texts : List String}
    {c : Condition} {conditions : List Condition}
    (htexts : texts.map (parse d) = (c :: conditions).map some) :
    ∃ text, combine connective texts = .ok text ∧
      parse d text = some (Condition.chain connective c conditions) := by
  rcases texts with _ | ⟨first, _ | ⟨second, rest⟩⟩
  · cases htexts
  · rw [List.map_cons, List.map_cons, List.cons_eq_cons] at htexts
    have hnone : conditions = [] := by simpa using htexts.2.symm
    subst hnone
    exact ⟨first, rfl, htexts.1⟩
  · refine ⟨_, combine_of_several connective first second rest, ?_⟩
    have hothers : (second :: rest).map (fun other ↦ lex d other.toList) =
        ((second :: rest).map (tokensOf d)).map some := by
      rw [List.map_map]
      exact List.map_congr_left fun other hother ↦
        lex_of_mem htexts (List.mem_cons_of_mem first hother)
    have hlex := (cutsCombined_lex d connective).tokens
      (lex_of_mem htexts List.mem_cons_self) hothers
    rw [List.flatMap_map] at hlex
    have hsplit : parse d first = some c ∧
        (second :: rest).map (parse d) = conditions.map some := List.cons_eq_cons.mp htexts
    rw [parse]
    exact hlex ▸ parseTokens_chain hsplit.1 hsplit.2

end StagedColumns.Sql
