import StagedColumns.Memo
import StagedColumns.Proofs.Operation
import StagedColumns.Proofs.OrderedMap

/-!
# What a memo keeps while factories use it

A factory that makes a missing value can itself use the memo, even for the same name, so the memo
may have come to a value by the time the factory's own is there. A program is any finite course of
such uses: what it does next, and whether it fails, may depend on what came of the uses before.

`Program.run` follows a program and lists its uses, also those by factories, in the order in which
they end. `Course` says what such a list tells of the memo, and every run has a course
(`course_run`): the memo loses nothing, and under each name it keeps the value of the first factory
to finish.
-/

set_option autoImplicit false

namespace StagedColumns.Memo

variable {σ α : Type}

/-! ### One use -/

theorem getOrMake_of_kept {m : Memo α} {name : String} {value : α}
    (hkept : m.get? name = some value) (factory : Operation σ (Memo α) α) :
    getOrMake name factory m = ⟨.ok value, m, []⟩ := by
  have hlook : (Operation.look : Operation σ (Memo α) _) m = ⟨.ok m, m, []⟩ := rfl
  rw [getOrMake, Operation.bind_of_ok hlook, hkept]
  rfl

theorem getOrMake_of_missing {m : Memo α} {name : String} (hmissing : m.get? name = none)
    (factory : Operation σ (Memo α) α) :
    getOrMake name factory m = (factory >>= settle name) m := by
  have hlook : (Operation.look : Operation σ (Memo α) _) m = ⟨.ok m, m, []⟩ := rfl
  rw [getOrMake, Operation.bind_of_ok hlook, hmissing]
  rfl

theorem get?_put (m : Memo α) (name other : String) (value : α) :
    (Memo.mk (m.kept.put name value)).get? other =
      if other = name then some value else m.get? other :=
  OrderedMap.get?_put m.kept name other value

/-- What is true of all kept values, and of a value that is put to them, is true of all. -/
theorem forall_get?_put {m : Memo α} {such : String → α → Prop} {name : String} {value : α}
    (hkept : ∀ other v, m.get? other = some v → such other v) (hput : such name value)
    (other : String) (v : α) (h : (Memo.mk (m.kept.put name value)).get? other = some v) :
    such other v := by
  rw [get?_put] at h
  by_cases hother : other = name
  · rw [if_pos hother] at h
    exact hother ▸ Option.some.inj h ▸ hput
  · rw [if_neg hother] at h
    exact hkept other v h

/-- Settling gives what the memo keeps under the name then, which is the value at hand only where
there was none. -/
theorem exists_settle (m : Memo α) (name : String) (value : α) :
    ∃ settled later, (settle name value : Operation σ (Memo α) α) m = ⟨.ok settled, later, []⟩ ∧
      (∀ other v,
        later.get? other = some v ↔ m.get? other = some v ∨ name = other ∧ settled = v) ∧
      ∀ other, later.get? other =
        (m.get? other).or (if name = other then some value else none) := by
  unfold settle
  cases hkept : m.get? name with
  | some earlier =>
    refine ⟨earlier, m, rfl, fun other v ↦ ⟨.inl, ?_⟩, fun other ↦ ?_⟩
    · rintro (h | ⟨rfl, rfl⟩)
      · exact h
      · exact hkept
    · by_cases hother : name = other
      · rw [← hother, hkept, Option.some_or]
      · rw [if_neg hother, Option.or_none]
  | none =>
    refine ⟨value, ⟨m.kept.put name value⟩, rfl, fun other v ↦ ?_, fun other ↦ ?_⟩
    · rw [get?_put]
      by_cases hother : other = name
      · simp [hother, hkept]
      · simp [hother, Ne.symm hother]
    · rw [get?_put]
      by_cases hother : other = name
      · simp [hother, hkept]
      · simp [hother, Ne.symm hother]

/-! ### Programs -/

/-- What is done with a memo: stopping with a value or a failure, or using the memo for a name with
a factory, which is such a program itself, and going on by what came of the use. -/
inductive Program (α : Type)
  | stop (result : Except Failure α)
  | use (name : String) (factory : Program α) (next : Except Failure α → Program α)

/-- A use of the memo that has ended. -/
structure Use (α : Type) where
  name : String
  before : Memo α
  /-- The runs of the factory: what came of the uses that ended meanwhile, by name, and what the
  factory came to. -/
  runs : List (List (String × Except Failure α) × Except Failure α)
  result : Except Failure α
  after : Memo α

/-- A factory whose only sign is its run: the uses that ended meanwhile, and what it came to. -/
def watched (factory : Operation (Use α) (Memo α) α) :
    Operation (List (Use α) × Except Failure α) (Memo α) α :=
  fun m ↦
    let outcome := factory m
    ⟨outcome.result, outcome.state, [(outcome.trace, outcome.result)]⟩

/-- The use of a memo for a name, from what came of it with a watched factory. -/
def Use.ofOutcome (name : String) (m : Memo α)
    (used : Outcome (List (Use α) × Except Failure α) (Memo α) α) : Use α :=
  ⟨name, m, used.trace.map fun run ↦ (run.1.map fun u ↦ (u.name, u.result), run.2), used.result,
    used.state⟩

/-- Runs the program. Its signs are the uses, those by factories included, in the order in which
they end: the end of a use follows at once on the end of its factory. -/
def Program.run : Program α → Operation (Use α) (Memo α) α
  | .stop result => Operation.ofExcept result
  | .use name factory next => fun m ↦
    let used := getOrMake name (watched factory.run) m
    let rest := (next used.result).run used.state
    ⟨rest.result, rest.state,
      used.trace.flatMap Prod.fst ++ Use.ofOutcome name m used :: rest.trace⟩

/-- What a factory made for the name in a use. -/
def Use.made? (name : String) (u : Use α) : Option α :=
  if u.name = name then u.runs.findSome? fun run ↦ run.2.toOption else none

/-- Everything that the one memo keeps, the other one keeps as well. -/
def KeptIn (m later : Memo α) : Prop :=
  ∀ name value, m.get? name = some value → later.get? name = some value

theorem KeptIn.refl (m : Memo α) : m.KeptIn m :=
  fun _ _ h ↦ h

theorem KeptIn.trans {m middle later : Memo α} (hfirst : m.KeptIn middle)
    (hlast : middle.KeptIn later) : m.KeptIn later :=
  fun name value h ↦ hlast name value (hfirst name value h)

/-! ### Courses -/

/-- What is true of each use. A factory runs once if the name has no value, else not at all; it is
the only thing that can fail, and if it does, the memo has gained what the uses in it gave. -/
structure Use.Sound (u : Use α) : Prop where
  kept : u.before.KeptIn u.after
  returned {value : α} : u.result = .ok value → u.after.get? u.name = some value
  ran : u.runs.length = if (u.before.get? u.name).isSome then 0 else 1
  failed_iff {failure : Failure} :
    u.result = .error failure ↔ ∃ run ∈ u.runs, run.2 = .error failure
  gained {run : List (String × Except Failure α) × Except Failure α} {failure : Failure} :
    run ∈ u.runs → run.2 = .error failure → ∀ name value,
      u.after.get? name = some value ↔ u.before.get? name = some value ∨ (name, .ok value) ∈ run.1

/-- The uses lead from the one memo to the other. -/
structure Course (m : Memo α) (uses : List (Use α)) (later : Memo α) : Prop where
  content (name : String) (value : α) : later.get? name = some value ↔
    m.get? name = some value ∨ ∃ u ∈ uses, u.name = name ∧ u.result = .ok value
  first (name : String) : later.get? name = (m.get? name).or (uses.findSome? (Use.made? name))
  within {u : Use α} : u ∈ uses → m.KeptIn u.before ∧ u.after.KeptIn later
  sound {u : Use α} : u ∈ uses → u.Sound

theorem Course.refl (m : Memo α) : Course m [] m :=
  ⟨by simp, by simp, nofun, nofun⟩

theorem Course.kept {m later : Memo α} {uses : List (Use α)} (h : Course m uses later) :
    m.KeptIn later :=
  fun name value hvalue ↦ (h.content name value).mpr (.inl hvalue)

theorem Course.trans {m middle later : Memo α} {uses more : List (Use α)}
    (hfirst : Course m uses middle) (hlast : Course middle more later) :
    Course m (uses ++ more) later where
  content name value := by
    rw [hlast.content, hfirst.content, or_assoc]
    simp only [List.mem_append, or_and_right, exists_or]
  first name := by
    rw [hlast.first, hfirst.first, List.findSome?_append, Option.or_assoc]
  within hu := by
    rcases List.mem_append.mp hu with hu | hu
    · exact ⟨(hfirst.within hu).1, (hfirst.within hu).2.trans hlast.kept⟩
    · exact ⟨hfirst.kept.trans (hlast.within hu).1, (hlast.within hu).2⟩
  sound hu := (List.mem_append.mp hu).elim hfirst.sound hlast.sound

/-- A use ends after the uses in it, from whose memo it adds at most the value that it gives. -/
theorem Course.concat {m middle : Memo α} {uses : List (Use α)} (h : Course m uses middle)
    {u : Use α} (hu : u.Sound) (hbefore : u.before = m)
    (hcontent : ∀ name value, u.after.get? name = some value ↔
      middle.get? name = some value ∨ u.name = name ∧ u.result = .ok value)
    (hfirst : ∀ name, u.after.get? name = (middle.get? name).or (u.made? name)) :
    Course m (uses ++ [u]) u.after where
  content name value := by
    rw [hcontent, h.content, or_assoc]
    simp only [List.mem_append, List.mem_singleton, or_and_right, exists_or, exists_eq_left]
  first name := by
    rw [hfirst, h.first, List.findSome?_append, List.findSome?_singleton, Option.or_assoc]
  within hv := by
    rcases List.mem_append.mp hv with hv | hv
    · exact ⟨(h.within hv).1, (h.within hv).2.trans fun name value hvalue ↦
        (hcontent name value).mpr (.inl hvalue)⟩
    · rw [List.mem_singleton.mp hv, hbefore]
      exact ⟨KeptIn.refl m, KeptIn.refl _⟩
  sound hv := by
    rcases List.mem_append.mp hv with hv | hv
    · exact h.sound hv
    · exact List.mem_singleton.mp hv ▸ hu

theorem course_of_kept {m : Memo α} {name : String} {value : α}
    (hkept : m.get? name = some value) : Course m [Use.ofOutcome name m ⟨.ok value, m, []⟩] m := by
  have hsound : (Use.ofOutcome name m ⟨.ok value, m, []⟩).Sound :=
    { kept := KeptIn.refl m
      returned := fun hvalue ↦ hkept.trans (congrArg some (Except.ok.inj hvalue))
      ran := by simp [Use.ofOutcome, hkept]
      failed_iff := by simp [Use.ofOutcome]
      gained := nofun }
  refine (Course.refl m).concat hsound rfl (fun other v ↦ ⟨.inl, ?_⟩) fun other ↦ ?_
  · rintro (h | ⟨rfl, h⟩)
    · exact h
    · exact hsound.returned h
  · simp [Use.ofOutcome, Use.made?]

/-- A use that runs its factory ends the course of the uses in the run. -/
theorem course_of_run {m middle after : Memo α} {name : String} {uses : List (Use α)}
    (made result : Except Failure α) (hmissing : m.get? name = none) (h : Course m uses middle)
    (hcontent : ∀ other value, after.get? other = some value ↔
      middle.get? other = some value ∨ name = other ∧ result = .ok value)
    (hfirst : ∀ other, after.get? other =
      (middle.get? other).or (if name = other then made.toOption else none))
    (hfailed : ∀ failure, result = .error failure ↔ made = .error failure) :
    Course m (uses ++ [Use.ofOutcome name m ⟨result, after, [(uses, made)]⟩]) after := by
  refine h.concat (u := Use.ofOutcome name m ⟨result, after, [(uses, made)]⟩) ?_ rfl hcontent ?_
  · refine ⟨h.kept.trans fun other value hvalue ↦ (hcontent other value).mpr (.inl hvalue),
      fun {value} hvalue ↦ (hcontent name value).mpr (.inr ⟨rfl, hvalue⟩), ?_, ?_, ?_⟩
    · simp [Use.ofOutcome, hmissing]
    · intro failure
      simpa [Use.ofOutcome] using hfailed failure
    · intro run failure hrun hfailure other value
      obtain rfl := List.mem_singleton.mp hrun
      have hresult : result = .error failure := (hfailed failure).mpr hfailure
      change after.get? other = some value ↔ _
      rw [hcontent, h.content, hresult]
      simp [Use.ofOutcome]
  · intro other
    simpa [Use.ofOutcome, Use.made?] using hfirst other

/-- A use of a memo by a watched factory ends the course of the uses in it. -/
theorem course_use (name : String) {factory : Operation (Use α) (Memo α) α} {m : Memo α}
    (hfactory : Course m (factory m).trace (factory m).state) :
    Course m ((getOrMake name (watched factory) m).trace.flatMap Prod.fst ++
        [Use.ofOutcome name m (getOrMake name (watched factory) m)])
      (getOrMake name (watched factory) m).state := by
  cases hkept : m.get? name with
  | some value =>
    rw [getOrMake_of_kept hkept]
    exact course_of_kept hkept
  | none =>
    rcases hout : factory m with ⟨made, middle, uses⟩
    have hwatched : watched factory m = ⟨made, middle, [(uses, made)]⟩ := by rw [watched, hout]
    rw [hout] at hfactory
    rw [getOrMake_of_missing hkept]
    cases made with
    | error failure =>
      rw [Operation.bind_of_error hwatched]
      simpa using course_of_run (.error failure) (.error failure) hkept hfactory (by simp)
        (by simp [Except.toOption]) fun _ ↦ Iff.rfl
    | ok value =>
      obtain ⟨settled, later, hsettle, hcontent, hfirst⟩ := exists_settle middle name value
      rw [Operation.bind_of_ok hwatched, hsettle]
      simpa using course_of_run (.ok value) (.ok settled) hkept hfactory (by simpa using hcontent)
        hfirst fun _ ↦ ⟨nofun, nofun⟩

/-- Whatever the program, its uses lead from the memo at its start to the memo at its end. -/
theorem course_run (p : Program α) (m : Memo α) : Course m (p.run m).trace (p.run m).state := by
  induction p generalizing m with
  | stop result => cases result <;> exact Course.refl m
  | use name factory next hfactory hnext =>
    have huse := course_use name (hfactory m)
    unfold Program.run
    simpa using huse.trans (hnext _ _)

/-- A program changes nothing that a memo keeps, whatever its factories do to the same memo and
whether they fail or not. All uses of one name that give a value give one value, the one that the
memo had or else that of the first factory to finish. A factory runs only in a use that began
without a value; if it fails the use fails with it, and has added only what ended uses gave. In the
end there are values under the names of the beginning and of the uses that gave one, no other. -/
theorem first_value_stays (p : Program α) (m : Memo α) :
    m.KeptIn (p.run m).state ∧
      (∀ u ∈ (p.run m).trace, m.KeptIn u.before ∧ u.before.KeptIn u.after ∧
        u.after.KeptIn (p.run m).state) ∧
      (∀ u ∈ (p.run m).trace, ∀ value, u.result = .ok value →
        u.after.get? u.name = some value ∧ (p.run m).state.get? u.name = some value) ∧
      (∀ name, (p.run m).state.get? name =
        (m.get? name).or ((p.run m).trace.findSome? (Use.made? name))) ∧
      (∀ u ∈ (p.run m).trace,
        u.runs.length = if (u.before.get? u.name).isSome then 0 else 1) ∧
      (∀ u ∈ (p.run m).trace, ∀ failure,
        u.result = .error failure ↔ ∃ run ∈ u.runs, run.2 = .error failure) ∧
      (∀ u ∈ (p.run m).trace, ∀ run ∈ u.runs, ∀ failure, run.2 = .error failure →
        ∀ name value, u.after.get? name = some value ↔
          u.before.get? name = some value ∨ (name, .ok value) ∈ run.1) ∧
      ∀ name, (((p.run m).state.get? name).isSome ↔ (m.get? name).isSome ∨
        ∃ u ∈ (p.run m).trace, u.name = name ∧ ∃ value, u.result = .ok value) := by
  have h := course_run p m
  refine ⟨h.kept, fun u hu ↦ ⟨(h.within hu).1, (h.sound hu).kept, (h.within hu).2⟩, ?_, h.first,
    fun u hu ↦ (h.sound hu).ran, fun u hu _ ↦ (h.sound hu).failed_iff,
    fun u hu _ hrun _ ↦ (h.sound hu).gained hrun, fun name ↦ ?_⟩
  · intro u hu value hvalue
    have hafter := (h.sound hu).returned hvalue
    exact ⟨hafter, (h.within hu).2 _ _ hafter⟩
  · simp only [Option.isSome_iff_exists, h.content]
    constructor
    · rintro ⟨value, hvalue | ⟨u, hu, hname, hresult⟩⟩
      · exact .inl ⟨value, hvalue⟩
      · exact .inr ⟨u, hu, hname, value, hresult⟩
    · rintro (⟨value, hvalue⟩ | ⟨u, hu, hname, value, hresult⟩)
      · exact ⟨value, .inl hvalue⟩
      · exact ⟨value, .inr ⟨u, hu, hname, hresult⟩⟩

/-- A factory that uses the memo for its own name makes its value in vain. -/
example : ((Program.use "key" (.use "key" (.stop (.ok 1)) fun _ ↦ .stop (.ok 2)) .stop).run
    .empty).result = .ok 1 := rfl

/-! ### Recipes -/

/-- What a use of the memo comes to depends on what its factory comes to, not on its signs. -/
theorem getOrMake_congr {τ : Type} (first : Operation σ (Memo α) α)
    (second : Operation τ (Memo α) α) {m : Memo α} (hresult : (first m).result = (second m).result)
    (hstate : (first m).state = (second m).state) (name : String) :
    (getOrMake name first m).result = (getOrMake name second m).result ∧
      (getOrMake name first m).state = (getOrMake name second m).state := by
  cases hkept : m.get? name with
  | some value =>
    rw [getOrMake_of_kept hkept, getOrMake_of_kept hkept]
    exact ⟨rfl, rfl⟩
  | none =>
    rw [getOrMake_of_missing hkept, getOrMake_of_missing hkept]
    rcases hfirst : first m with ⟨result, later, trace⟩
    rcases hsecond : second m with ⟨made, after, signs⟩
    rw [hfirst, hsecond] at hresult hstate
    subst hresult hstate
    cases result with
    | error failure =>
      rw [Operation.bind_of_error hfirst, Operation.bind_of_error hsecond]
      exact ⟨rfl, rfl⟩
    | ok value =>
      rw [Operation.bind_of_ok hfirst, Operation.bind_of_ok hsecond]
      unfold settle
      cases later.get? name <;> exact ⟨rfl, rfl⟩

end StagedColumns.Memo

namespace StagedColumns.Recipe

open Memo

variable {α : Type}

mutual

/-- The program that uses the memo for the recipe and then goes on. -/
def program : Recipe α → (Except Failure α → Program α) → Program α
  | .mk name before result, next => .use name (programOfAll before result) next
termination_by structural r => r

/-- The program that uses the memo for one recipe after the other and then stops. -/
def programOfAll : List (Recipe α) → Except Failure α → Program α
  | [], result => .stop result
  | r :: rest, result =>
    r.program fun
      | .ok _ => programOfAll rest result
      | .error failure => .stop (.error failure)
termination_by structural rs => rs

end

mutual

/-- Using a memo for a recipe is running the recipe's program. -/
theorem run_program (r : Recipe α) (next : Except Failure α → Program α) (m : Memo α) :
    ((r.program next).run m).result = ((next (r.use m).result).run (r.use m).state).result ∧
      ((r.program next).run m).state = ((next (r.use m).result).run (r.use m).state).state := by
  cases r with
  | mk name before result =>
    have hsign : (Operation.sign name : Operation String (Memo α) Unit) m = ⟨.ok (), m, [name]⟩ :=
      rfl
    obtain ⟨hresult, hstate⟩ := run_programOfAll before result m
    have hused := getOrMake_congr (watched (programOfAll before result).run)
      (do
        Operation.sign name
        useAll before
        Operation.ofExcept result) (m := m)
      (by rw [Operation.bind_of_ok hsign]; exact hresult)
      (by rw [Operation.bind_of_ok hsign]; exact hstate) name
    rw [program, Program.run, use, ← hused.1, ← hused.2]
    exact ⟨rfl, rfl⟩
termination_by structural r

theorem run_programOfAll (rs : List (Recipe α)) (result : Except Failure α) (m : Memo α) :
    ((programOfAll rs result).run m).result =
        ((useAll rs >>= fun _ ↦ Operation.ofExcept result) m).result ∧
      ((programOfAll rs result).run m).state =
        ((useAll rs >>= fun _ ↦ Operation.ofExcept result) m).state := by
  cases rs with
  | nil =>
    rw [programOfAll, useAll, pure_bind]
    cases result <;> exact ⟨rfl, rfl⟩
  | cons r rest =>
    rw [programOfAll, useAll, bind_assoc]
    obtain ⟨hresult, hstate⟩ := run_program r _ m
    rw [hresult, hstate]
    rcases hused : r.use m with ⟨used, later, trace⟩
    cases used with
    | error failure =>
      rw [Operation.bind_of_error hused]
      exact ⟨rfl, rfl⟩
    | ok value =>
      rw [Operation.bind_of_ok hused]
      exact run_programOfAll rest result later
termination_by structural rs

end

end StagedColumns.Recipe
