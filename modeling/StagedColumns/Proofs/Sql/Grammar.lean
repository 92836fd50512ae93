import StagedColumns.Proofs.Sql.Parser

/-!
# The grammar of conditions

Which tokens make up a condition, whatever reads them: comparisons, conditions in parentheses,
these with `AND` between them, and those with `OR` between them (`MakeUp`). The reader of
`Sql.parseTokens`, which goes through the tokens once and keeps a stack of levels, reads exactly
what the grammar says (`parseTokens_eq_some_iff`).

On its way it has read, of each level that is open, tokens that may stand before a condition
(`Level.Front`), and of the innermost one perhaps the start of a comparison (`Pending`) or all up to
a connective (`Level.Done`). A step keeps this (`Parsing.Reads.step`).
-/

set_option autoImplicit false

namespace StagedColumns.Sql

/-- The token that an operand is. -/
def Operand.token : Operand → Token
  | column e => .column e
  | value v => .literal v

/-- The values of a list with a comma after each. -/
def itemsBefore (values : List Datum) : List Token :=
  values.flatMap fun v ↦ [.literal v, .comma]

theorem itemsBefore_append (values : List Datum) (v : Datum) :
    itemsBefore (values ++ [v]) = itemsBefore values ++ [.literal v, .comma] := by
  simp [itemsBefore]

/-- The tokens are a comparison. -/
inductive Comparison : List Token → Condition → Prop
  | equal (left right : Operand) :
    Comparison [left.token, .equals, right.token] (.equal left right)
  | isNull (o : Operand) : Comparison [o.token, .is, .literal .null] (.isNull o)
  | among (o : Operand) (values : List Datum) (last : Datum) :
    Comparison (o.token :: .among :: .opening :: (itemsBefore values ++ [.literal last, .closing]))
      (.among o (values ++ [last]))

/-- How much binds a condition: it stands between connectives, between two `OR`, or between
parentheses. -/
inductive Rank
  | factor
  | alternative
  | whole

/-- The tokens make up the condition. -/
inductive MakeUp : Rank → List Token → Condition → Prop
  | comparison {tokens : List Token} {c : Condition} (h : Comparison tokens c) :
    MakeUp .factor tokens c
  | group {tokens : List Token} {c : Condition} (h : MakeUp .whole tokens c) :
    MakeUp .factor (group tokens) c
  | factor {tokens : List Token} {c : Condition} (h : MakeUp .factor tokens c) :
    MakeUp .alternative tokens c
  | and {tokens others : List Token} {c other : Condition} (h : MakeUp .alternative tokens c)
    (hother : MakeUp .factor others other) :
    MakeUp .alternative (tokens ++ .connective .and :: others) (.joined .and c other)
  | alternative {tokens : List Token} {c : Condition} (h : MakeUp .alternative tokens c) :
    MakeUp .whole tokens c
  | or {tokens others : List Token} {c other : Condition} (h : MakeUp .whole tokens c)
    (hother : MakeUp .alternative others other) :
    MakeUp .whole (tokens ++ .connective .or :: others) (.joined .or c other)

/-! ### What has been read -/

/-- The tokens before the next connective: none, or a condition with the connective after it. -/
inductive Before (rank : Rank) (connective : Connective) : Option Condition → List Token → Prop
  | nothing : Before rank connective none []
  | condition {tokens : List Token} {c : Condition} (h : MakeUp rank tokens c) :
    Before rank connective (some c) (tokens ++ [.connective connective])

namespace Level

/-- The tokens have been read of the level, and a condition has to follow. -/
inductive Front : Level → List Token → Prop
  | intro {l : Level} {earlier tokens : List Token} (hbefore : Before .whole .or l.before earlier)
    (hcurrent : Before .alternative .and l.current tokens) : Front l (earlier ++ tokens)

/-- The tokens have been read of the level, which may end after them. -/
inductive Done : Level → List Token → Prop
  | intro {before : Option Condition} {c : Condition} {earlier tokens : List Token}
    (hbefore : Before .whole .or before earlier) (hcurrent : MakeUp .alternative tokens c) :
    Done ⟨before, some c⟩ (earlier ++ tokens)

variable {l : Level} {tokens others : List Token} {c : Condition}

theorem front_empty : Front .empty [] :=
  (Front.intro .nothing .nothing : Front .empty ([] ++ []))

theorem Front.add (h : l.Front tokens) (hc : MakeUp .factor others c) :
    (l.add c).Done (tokens ++ others) := by
  obtain ⟨hbefore, hcurrent⟩ := h
  obtain ⟨before, current⟩ := l
  rw [List.append_assoc]
  cases hcurrent with
  | nothing => exact .intro hbefore (.factor hc)
  | condition hearlier =>
    rw [List.append_assoc, List.singleton_append]
    exact .intro hbefore (.and hearlier hc)

theorem Done.whole (h : l.Done tokens) : ∃ c, l.whole = some c ∧ MakeUp .whole tokens c := by
  obtain ⟨hbefore, hcurrent⟩ := h
  cases hbefore with
  | nothing => exact ⟨_, rfl, .alternative hcurrent⟩
  | condition hearlier =>
    rw [List.append_assoc, List.singleton_append]
    exact ⟨_, rfl, .or hearlier hcurrent⟩

theorem Done.next (h : l.Done tokens) (connective : Connective) :
    (l.next connective).Front (tokens ++ [.connective connective]) := by
  cases connective with
  | and =>
    obtain ⟨hbefore, hcurrent⟩ := h
    rw [List.append_assoc]
    exact .intro hbefore (.condition hcurrent)
  | or =>
    obtain ⟨whole, hwhole, hmake⟩ := h.whole
    have hfront : Level.Front ⟨some whole, none⟩ ((tokens ++ [.connective .or]) ++ []) :=
      .intro (.condition hmake) .nothing
    rw [Level.next, hwhole]
    rwa [List.append_nil] at hfront

end Level

/-- The tokens have been read of a comparison. -/
inductive Pending : Expected → List Token → Prop
  | condition : Pending .condition []
  | comparison (o : Operand) : Pending (.comparison o) [o.token]
  | right (o : Operand) : Pending (.right o) [o.token, .equals]
  | null (o : Operand) : Pending (.null o) [o.token, .is]
  | list (o : Operand) : Pending (.list o) [o.token, .among]
  | item (o : Operand) (values : List Datum) :
    Pending (.item o values) (o.token :: .among :: .opening :: itemsBefore values)
  | separator (o : Operand) (values : List Datum) (last : Datum) :
    Pending (.separator o (values ++ [last]))
      (o.token :: .among :: .opening :: (itemsBefore values ++ [.literal last]))

/-- What may come of reading a token where a condition or the rest of one is expected. -/
inductive Goes (level : Level) (outer : List Level) : Expected → List Token → Parsing → Prop
  | opened : Goes level outer .condition [.opening] ⟨.empty, level :: outer, .condition⟩
  | pending {expected next : Expected} {read : List Token} (h : Pending next read) :
    Goes level outer expected read ⟨level, outer, next⟩
  | complete {expected : Expected} {read : List Token} {c : Condition} (h : Comparison read c) :
    Goes level outer expected read ⟨level.add c, outer, .connective⟩

theorem Pending.step {level : Level} {outer : List Level} {expected : Expected}
    {read : List Token} {token : Token} {q : Parsing} (h : Pending expected read)
    (hstep : Parsing.step ⟨level, outer, expected⟩ token = some q) :
    Goes level outer expected (read ++ [token]) q := by
  cases h with
  | condition =>
    cases token <;> cases hstep
    · exact .pending (.comparison (.column _))
    · exact .pending (.comparison (.value _))
    · exact .opened
  | comparison o =>
    cases token <;> cases hstep
    · exact .pending (.list o)
    · exact .pending (.null o)
    · exact .pending (.right o)
  | right o =>
    cases token <;> cases hstep
    · exact .complete (.equal o (.column _))
    · exact .complete (.equal o (.value _))
  | null o =>
    cases token with
    | literal v =>
      cases v <;> cases hstep
      exact .complete (.isNull o)
    | _ => cases hstep
  | list o =>
    cases token <;> cases hstep
    exact .pending (.item o [])
  | item o values =>
    cases token <;> cases hstep
    exact .pending (.separator o values _)
  | separator o values last =>
    have hread : (o.token :: .among :: .opening :: (itemsBefore values ++ [.literal last])) ++
        [token] = o.token :: .among :: .opening :: (itemsBefore values ++ [.literal last, token]) := by
      simp
    rw [hread]
    cases token <;> cases hstep
    · rw [← itemsBefore_append]
      exact .pending (.item o (values ++ [last]))
    · exact .complete (.among o values last)

/-- The tokens have been read of the levels that are open around the innermost one. -/
inductive Around : List Level → List Token → Prop
  | nothing : Around [] []
  | level {l : Level} {outer : List Level} {earlier tokens : List Token}
    (houter : Around outer earlier) (hlevel : l.Front tokens) :
    Around (l :: outer) (earlier ++ tokens ++ [.opening])

/-- The tokens have been read. -/
inductive Parsing.Reads : Parsing → List Token → Prop
  | within {level : Level} {outer : List Level} {expected : Expected}
    {earlier tokens read : List Token} (houter : Around outer earlier)
    (hlevel : level.Front tokens) (hpending : Pending expected read) :
    Reads ⟨level, outer, expected⟩ (earlier ++ tokens ++ read)
  | done {level : Level} {outer : List Level} {earlier tokens : List Token}
    (houter : Around outer earlier) (hlevel : level.Done tokens) :
    Reads ⟨level, outer, .connective⟩ (earlier ++ tokens)

namespace Parsing.Reads

variable {p q : Parsing} {tokens : List Token} {token : Token}

theorem start : Parsing.start.Reads [] :=
  .within .nothing Level.front_empty .condition

theorem step (h : p.Reads tokens) (hstep : p.step token = some q) :
    q.Reads (tokens ++ [token]) := by
  cases h with
  | within houter hlevel hpending =>
    rw [List.append_assoc]
    generalize hread : _ ++ [token] = read
    have hgoes := hread ▸ hpending.step hstep
    cases hgoes with
    | opened =>
      have hinside := Parsing.Reads.within (houter.level hlevel) Level.front_empty .condition
      simpa using hinside
    | pending hnext => exact .within houter hlevel hnext
    | complete hcomparison =>
      rw [List.append_assoc]
      exact .done houter (hlevel.add (.comparison hcomparison))
  | done houter hlevel =>
    cases token with
    | connective connective =>
      cases hstep
      have hnext := Parsing.Reads.within houter (hlevel.next connective) .condition
      rwa [List.append_nil, ← List.append_assoc] at hnext
    | closing =>
      obtain ⟨c, hwhole, hmake⟩ := hlevel.whole
      cases houter with
      | nothing => cases hstep
      | level houter hfront =>
        simp only [Parsing.step, hwhole] at hstep
        cases hstep
        have hdone := Parsing.Reads.done houter (hfront.add (.group hmake))
        simpa [Sql.group] using hdone
    | _ => cases hstep

/-- What has been read of tokens is the tokens. -/
theorem run {others : List Token} (h : p.Reads others)
    (hrun : tokens.foldlM Parsing.step p = some q) : q.Reads (others ++ tokens) := by
  induction tokens generalizing p others with
  | nil =>
    cases hrun
    rwa [List.append_nil]
  | cons token tokens ih =>
    rw [List.foldlM_cons] at hrun
    obtain ⟨middle, hstep, hrest⟩ := Option.bind_eq_some_iff.mp hrun
    have hmore := ih (h.step hstep) hrest
    rwa [List.append_assoc, List.singleton_append] at hmore

end Parsing.Reads

theorem makeUp_of_parseTokens {tokens : List Token} {c : Condition}
    (h : parseTokens tokens = some c) : MakeUp .whole tokens c := by
  obtain ⟨level, hrun, hwhole⟩ := exists_parsing_of_parseTokens h
  have hreads := Parsing.Reads.start.run hrun
  rw [List.nil_append] at hreads
  cases hreads with
  | within _ _ hpending => cases hpending
  | done houter hdone =>
    cases houter
    obtain ⟨whole, hlevel, hmake⟩ := hdone.whole
    rw [hwhole] at hlevel
    cases hlevel
    exact hmake

/-! ### What the grammar says is read -/

theorem foldlM_itemsBefore (level : Level) (outer : List Level) (o : Operand)
    (read values : List Datum) (rest : List Token) :
    (itemsBefore values ++ rest).foldlM Parsing.step ⟨level, outer, .item o read⟩ =
      rest.foldlM Parsing.step ⟨level, outer, .item o (read ++ values)⟩ := by
  induction values generalizing read with
  | nil =>
    rw [List.append_nil]
    rfl
  | cons v values ih =>
    have hread := ih (read ++ [v])
    rw [List.append_assoc, List.singleton_append] at hread
    exact hread

theorem foldlM_comparison {tokens : List Token} {c : Condition} (h : Comparison tokens c)
    (level : Level) (outer : List Level) :
    tokens.foldlM Parsing.step ⟨level, outer, .condition⟩ =
      some ⟨level.add c, outer, .connective⟩ := by
  cases h with
  | equal left right => cases left <;> cases right <;> rfl
  | isNull o => cases o <;> rfl
  | among o values last =>
    have hitems := foldlM_itemsBefore level outer o [] values [.literal last, .closing]
    cases o <;> exact hitems

/-- What the reader makes of tokens that make up a condition, where a condition is expected. -/
def ReadAs (tokens : List Token) (c : Condition) : Rank → Prop
  | .factor => ∀ level outer, tokens.foldlM Parsing.step ⟨level, outer, .condition⟩ =
      some ⟨level.add c, outer, .connective⟩
  | .alternative => ∀ before outer,
    tokens.foldlM Parsing.step ⟨⟨before, none⟩, outer, .condition⟩ =
      some ⟨⟨before, some c⟩, outer, .connective⟩
  | .whole => parseTokens tokens = some c

theorem readAs_of_makeUp {rank : Rank} {tokens : List Token} {c : Condition}
    (h : MakeUp rank tokens c) : ReadAs tokens c rank := by
  induction h with
  | comparison h => exact foldlM_comparison h
  | group _ ih => exact foldlM_group ih
  | factor _ ih => exact fun before outer ↦ ih ⟨before, none⟩ outer
  | @and tokens others c other _ _ ih ihother =>
    intro before outer
    have hconnective : Parsing.step ⟨⟨before, some c⟩, outer, .connective⟩ (.connective .and) =
        some ⟨⟨before, some c⟩, outer, .condition⟩ := rfl
    simp only [List.foldlM_append, List.foldlM_cons, ih before outer, hconnective,
      ihother ⟨before, some c⟩ outer, Option.bind_eq_bind, Option.bind_some]
    rfl
  | @alternative tokens c _ ih =>
    show parseTokens tokens = some c
    rw [parseTokens, Parsing.start, Level.empty, ih none []]
    rfl
  | @or tokens others c other _ _ ih ihother =>
    obtain ⟨level, hread, hwhole⟩ := exists_parsing_of_parseTokens ih
    have hconnective : Parsing.step ⟨level, [], .connective⟩ (.connective .or) =
        some ⟨⟨some c, none⟩, [], .condition⟩ := by
      rw [← hwhole]
      rfl
    show parseTokens (tokens ++ .connective .or :: others) = some (.joined .or c other)
    simp only [parseTokens, List.foldlM_append, List.foldlM_cons, hread, hconnective,
      ihother (some c) [], Option.bind_eq_bind, Option.bind_some]
    rfl

/-- The reader reads what the grammar says, and nothing else. -/
theorem parseTokens_eq_some_iff {tokens : List Token} {c : Condition} :
    parseTokens tokens = some c ↔ MakeUp .whole tokens c :=
  ⟨makeUp_of_parseTokens, readAs_of_makeUp⟩

end StagedColumns.Sql
