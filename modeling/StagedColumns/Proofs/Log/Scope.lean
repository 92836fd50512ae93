import StagedColumns.Log.Logging
import StagedColumns.Proofs.OrderedMap
import StagedColumns.Proofs.Operation

/-!
# Scopes of logging

A scope binds details while it lasts. Programs are built here from scopes, sequences, handled
failures and whatever leaves logging alone, so that scopes are nested in any way and share any
names. A scope is left normally or by a failure, and the failure goes on after it.

Leaving a scope unbinds the names that it bound. What they had before does not come back: after a
program, all names are as they were except those that some entered scope bound, which have no value
(`state_run`). So a scope restores the state exactly if none of these names had a value when it was
entered (`scope_restores_iff`), and in particular where nothing was bound.
-/

set_option autoImplicit false

namespace StagedColumns

variable {σ ω α : Type}

/-! ### Maps without some of their names -/

namespace OrderedMap

/-- The map without the names. -/
def without (m : OrderedMap α) (names : List String) : OrderedMap α :=
  names.foldl erase m

theorem without_append (m : OrderedMap α) (names more : List String) :
    m.without (names ++ more) = (m.without names).without more :=
  List.foldl_append

theorem entries_without (m : OrderedMap α) (names : List String) :
    (m.without names).entries = m.entries.filter fun entry ↦ entry.1 ∉ names := by
  induction names generalizing m with
  | nil => simp [without]
  | cons name rest ih =>
    have hstep : (m.without (name :: rest)).entries =
        (m.entries.filter fun entry ↦ entry.1 ≠ name).filter fun entry ↦ entry.1 ∉ rest :=
      ih (m.erase name)
    rw [hstep, List.filter_filter]
    refine List.filter_congr fun entry _ ↦ ?_
    by_cases hname : entry.1 = name <;> simp [hname]

theorem get?_without (m : OrderedMap α) (names : List String) (name : String) :
    (m.without names).get? name = if name ∈ names then none else m.get? name := by
  refine Option.ext fun value ↦ ?_
  rw [get?_eq_some_iff_mem, entries_without, List.mem_filter]
  by_cases hname : name ∈ names
  · simp [hname]
  · simp [hname, get?_eq_some_iff_mem]

/-- Nothing is taken from a map exactly if it has none of the names. -/
theorem without_eq_self_iff (m : OrderedMap α) (names : List String) :
    m.without names = m ↔ ∀ name ∈ names, m.get? name = none := by
  constructor
  · intro h name hname
    rw [← h, get?_without, if_pos hname]
  · intro h
    refine eq_of_entries ?_
    rw [entries_without, List.filter_eq_self]
    intro entry hentry
    have hvalue : m.get? entry.1 = some entry.2 := (get?_eq_some_iff_mem m _ _).mpr hentry
    have hother : entry.1 ∉ names := fun hname ↦ by simp [h _ hname] at hvalue
    simpa using hother

theorem filter_putEntry {names : List String} {name : String} (hname : name ∈ names) (value : α)
    (entries : List (String × α)) :
    (putEntry name value entries).filter (fun entry ↦ entry.1 ∉ names) =
      entries.filter fun entry ↦ entry.1 ∉ names := by
  induction entries with
  | nil => simp [putEntry, hname]
  | cons entry rest ih =>
    by_cases hentry : entry.1 = name
    · simp [putEntry, hentry, hname]
    · simp only [putEntry, hentry, if_false, List.filter_cons, ih]

/-- What was written under the names does not show without them. -/
theorem without_putAll (m : OrderedMap α) {entries : List (String × α)} {names : List String}
    (hnames : ∀ entry ∈ entries, entry.1 ∈ names) :
    (m.putAll entries).without names = m.without names := by
  induction entries generalizing m with
  | nil => rfl
  | cons entry rest ih =>
    obtain ⟨hname, hrest⟩ := List.forall_mem_cons.mp hnames
    show ((m.put entry.1 entry.2).putAll rest).without names = m.without names
    rw [ih (m.put entry.1 entry.2) hrest]
    refine eq_of_entries ?_
    rw [entries_without, entries_without]
    exact filter_putEntry hname entry.2 m.entries

end OrderedMap

/-! ### What is done at the end in any case -/

namespace Operation

/-- The operation and then, whether or not it fails, another one. The failure goes on unless the
other one fails as well. -/
def andFinally (op : Operation σ ω α) (last : Operation σ ω Unit) : Operation σ ω α :=
  fun state ↦
    let body := op state
    let closing := last body.state
    match closing.result with
    | .ok () => ⟨body.result, closing.state, body.trace ++ closing.trace⟩
    | .error failure => ⟨.error failure, closing.state, body.trace ++ closing.trace⟩

theorem andFinally_of_ok {op : Operation σ ω α} {last : Operation σ ω Unit} {state later : ω}
    (hlast : last (op state).state = ⟨.ok (), later, []⟩) :
    op.andFinally last state = ⟨(op state).result, later, (op state).trace⟩ := by
  simp [andFinally, hlast]

theorem state_bind (op : Operation σ ω Unit) (next : Operation σ ω α) (state : ω) :
    ((op >>= fun _ ↦ next) state).state =
      match (op state).result with
      | .ok _ => (next (op state).state).state
      | .error _ => (op state).state := by
  rcases hop : op state with ⟨result, later, trace⟩
  cases result with
  | error failure => rw [bind_of_error hop]
  | ok value => rw [bind_of_ok hop]

theorem state_orElseWith (f : Failure → Operation σ ω α) (op : Operation σ ω α) (state : ω) :
    (orElseWith f op state).state =
      match (op state).result with
      | .ok _ => (op state).state
      | .error failure => (f failure (op state).state).state := by
  rcases hop : op state with ⟨result, later, trace⟩
  cases result <;> simp [orElseWith, hop]

end Operation

namespace Log

/-! ### Entering and leaving -/

namespace Logging

variable (log : Logging)

/-- The state without values under the names. -/
def forget (names : List String) : Logging :=
  { log with bound := log.bound.without names }

/-- The state inside a scope that binds the details. -/
def inScope (details : List (String × Datum)) : Logging :=
  { log with
    bound := log.bound.putAll details
    scopes := details.map Prod.fst :: log.scopes }

theorem forget_append (names more : List String) :
    log.forget (names ++ more) = (log.forget names).forget more := by
  simp only [forget, OrderedMap.without_append]

/-- Nothing is forgotten exactly if the names have no value. -/
theorem forget_eq_self_iff (names : List String) :
    log.forget names = log ↔ ∀ name ∈ names, log.bound.get? name = none := by
  rw [← OrderedMap.without_eq_self_iff]
  exact ⟨fun h ↦ congrArg Logging.bound h, fun h ↦ by rw [forget, h]⟩

theorem enter_of_apart {details : List (String × Datum)}
    (hapart : Signature.receiver ∉ details.map Prod.fst) :
    enter details log = ⟨.ok (), log.inScope details, []⟩ := by
  have hany : details.any (·.1 = Signature.receiver) = false := by
    rw [List.any_eq_false]
    intro entry hentry hname
    exact hapart (List.mem_map.mpr ⟨entry, hentry, of_decide_eq_true hname⟩)
  simp only [enter, hany]
  rfl

theorem enter_of_clash {details : List (String × Datum)}
    (hclash : Signature.receiver ∈ details.map Prod.fst) :
    ∃ failure, enter details log = ⟨.error failure, log, []⟩ := by
  obtain ⟨entry, hentry, hname⟩ := List.mem_map.mp hclash
  have hany : details.any (·.1 = Signature.receiver) = true :=
    List.any_eq_true.mpr ⟨entry, hentry, decide_eq_true hname⟩
  simp only [enter, hany]
  exact ⟨_, rfl⟩

/-- Leaving takes the names of the innermost scope with it, whatever has been forgotten inside. -/
theorem leave_inScope (details : List (String × Datum)) (names : List String) :
    leave ((log.inScope details).forget names) =
      ⟨.ok (), log.forget (names ++ details.map Prod.fst), []⟩ := by
  have hbound : (log.bound.putAll details).without (names ++ details.map Prod.fst) =
      log.bound.without (names ++ details.map Prod.fst) :=
    log.bound.without_putAll fun entry hentry ↦
      List.mem_append_right _ (List.mem_map_of_mem hentry)
  have hafter : log.forget (names ++ details.map Prod.fst) =
      { log with
        bound := ((log.bound.putAll details).without names).without (details.map Prod.fst) } := by
    rw [forget, ← hbound, OrderedMap.without_append]
  rw [hafter]
  rfl

end Logging

/-! ### Programs -/

/-- A program that opens scopes. What it does otherwise may fail but leaves logging alone. -/
inductive Script
  | plain (op : Operation String Logging Unit) (hstate : ∀ log, (op log).state = log)
  | andThen (first second : Script)
  | attempt (tried : Script) (otherwise : Failure → Script)
  | within (details : List (String × Datum)) (body : Script)

namespace Script

/-- What the program does. A scope is left whether or not its body fails, but only if it was
entered. -/
def run : Script → Operation String Logging Unit
  | plain op _ => op
  | andThen first second => do
    first.run
    second.run
  | attempt tried otherwise =>
    Operation.orElseWith (fun failure ↦ (otherwise failure).run) tried.run
  | within details body => do
    Logging.enter details
    body.run.andFinally Logging.leave

/-- The names that the scopes bind which the program enters. -/
def entered : Script → Logging → List String
  | plain _ _, _ => []
  | andThen first second, log =>
    first.entered log ++
      match (first.run log).result with
      | .ok _ => second.entered (first.run log).state
      | .error _ => []
  | attempt tried otherwise, log =>
    tried.entered log ++
      match (tried.run log).result with
      | .ok _ => []
      | .error failure => (otherwise failure).entered (tried.run log).state
  | within details body, log =>
    if Signature.receiver ∈ details.map Prod.fst then []
    else body.entered (log.inScope details) ++ details.map Prod.fst

/-- A program takes the values of all names that it bound in a scope and changes nothing else. -/
theorem state_run (script : Script) (log : Logging) :
    (script.run log).state = log.forget (script.entered log) := by
  induction script generalizing log with
  | plain op hstate => exact hstate log
  | andThen first second hfirst hsecond =>
    rw [run, Operation.state_bind, entered, Logging.forget_append, ← hfirst]
    cases (first.run log).result with
    | ok _ => exact hsecond _
    | error _ => rfl
  | attempt tried otherwise htried hotherwise =>
    rw [run, Operation.state_orElseWith, entered, Logging.forget_append, ← htried]
    cases (tried.run log).result with
    | ok _ => rfl
    | error failure => exact hotherwise failure _
  | within details body hbody =>
    rw [run, entered]
    by_cases hclash : Signature.receiver ∈ details.map Prod.fst
    · obtain ⟨failure, henter⟩ := log.enter_of_clash hclash
      rw [Operation.bind_of_error henter, if_pos hclash]
      rfl
    · have hleave := log.leave_inScope details (body.entered (log.inScope details))
      rw [← hbody] at hleave
      rw [Operation.bind_of_ok (log.enter_of_apart hclash), Operation.andFinally_of_ok hleave,
        if_neg hclash]

/-- A scope gives what its body gives. -/
theorem run_within {details : List (String × Datum)}
    (hapart : Signature.receiver ∉ details.map Prod.fst) (body : Script) (log : Logging) :
    (within details body).run log =
      ⟨(body.run (log.inScope details)).result,
        log.forget (body.entered (log.inScope details) ++ details.map Prod.fst),
        (body.run (log.inScope details)).trace⟩ := by
  have hleave := log.leave_inScope details (body.entered (log.inScope details))
  rw [← state_run] at hleave
  rw [run, Operation.bind_of_ok (log.enter_of_apart hapart), Operation.andFinally_of_ok hleave]
  rfl

/-- A scope lets the failure of its body go on and gives the lines that the body gives. However it
is left, the names that it bound, and those that scopes inside it bound, have no value afterwards;
all other names have the values they had, and nothing else of the state has changed. So the state
is restored exactly if none of these names had a value before. -/
theorem scope_restores_iff {details : List (String × Datum)}
    (hapart : Signature.receiver ∉ details.map Prod.fst) (body : Script) (log : Logging) :
    ((within details body).run log).result = (body.run (log.inScope details)).result ∧
      ((within details body).run log).trace = (body.run (log.inScope details)).trace ∧
      (∀ name, ((within details body).run log).state.bound.get? name =
        if name ∈ details.map Prod.fst ∨ name ∈ body.entered (log.inScope details) then none
        else log.bound.get? name) ∧
      (∃ bound, ((within details body).run log).state = { log with bound := bound }) ∧
      (((within details body).run log).state = log ↔
        ∀ name, name ∈ details.map Prod.fst ∨ name ∈ body.entered (log.inScope details) →
          log.bound.get? name = none) := by
  rw [run_within hapart]
  refine ⟨rfl, rfl, fun name ↦ ?_, ⟨_, rfl⟩, ?_⟩
  · simp only [Logging.forget, OrderedMap.get?_without, List.mem_append, or_comm]
  · simp only [Logging.forget_eq_self_iff, List.mem_append, or_comm]

/-- A scope inside another one that binds the same name, over a value from before. -/
theorem nested_scopes_forget_outer :
    Signature.receiver ∉ [("field", Datum.text "inner")].map Prod.fst ∧
      ((within [("field", .text "inner")]
          (.plain (Operation.fail .noOpenScope) fun _ ↦ rfl)).run
        ((Logging.fresh true).inScope [("field", .text "outer")])).state.bound.get? "field" =
          none := by
  have hapart : Signature.receiver ∉ [("field", Datum.text "inner")].map Prod.fst := by decide
  obtain ⟨-, -, hvalue, -⟩ := scope_restores_iff hapart
    (.plain (Operation.fail .noOpenScope) fun _ ↦ rfl)
    ((Logging.fresh true).inScope [("field", .text "outer")])
  refine ⟨hapart, ?_⟩
  rw [hvalue, if_pos (.inl (by decide))]

/-- A detail that was bound before a scope with the same name is lost when the scope is left. -/
theorem outer_detail_lost :
    ∃ log outcome, Logging.bind [("field", .text "outer")] (.fresh true) = ⟨.ok (), log, []⟩ ∧
      (within [("field", .text "inner")] (.plain (pure ()) fun _ ↦ rfl)).run log = outcome ∧
      log.bound.get? "field" = some (.text "outer") ∧
      outcome.result = .ok () ∧ outcome.state.bound.get? "field" = none := by
  refine ⟨_, _, rfl, rfl, ?_, ?_, ?_⟩ <;> rfl

end Script

end Log

end StagedColumns
