import StagedColumns.Proofs.OrderedMap
import StagedColumns.Signature

/-!
# The values that parameters get

Whatever a signature gives as the value of a parameter came from an argument, by place or by name,
or is the default; and it gives no value but those of its parameters.
-/

set_option autoImplicit false

namespace StagedColumns.Signature

variable {s : Signature} {given : List Datum} {named : List (String × Datum)}
variable {m matched : OrderedMap Datum} {name : String} {value : Datum}

/-- The arguments that came by place, under the names of their parameters. -/
def byPlace (s : Signature) (given : List Datum) : List (String × Datum) :=
  (s.placed.map Parameter.name).zip given

/-- The defaults, under the names of their parameters. -/
def defaults (s : Signature) : List (String × Datum) :=
  (s.placed ++ s.named).filterMap fun p ↦ p.default?.map (p.name, ·)

theorem matchNamed_cons_eq_ok {entry : String × Datum} {rest : List (String × Datum)}
    (h : s.matchNamed m (entry :: rest) = .ok matched) :
    entry.1 ∈ s.names ∧ s.matchNamed (m.put entry.1 entry.2) rest = .ok matched := by
  rw [matchNamed] at h
  split_ifs at h with hunknown
  exact ⟨by simpa using hunknown, h⟩

theorem mem_or_of_matchNamed (h : s.matchNamed m named = .ok matched)
    (hvalue : matched.get? name = some value) :
    (name, value) ∈ named ∨ m.get? name = some value := by
  induction named generalizing m with
  | nil =>
    cases h
    exact .inr hvalue
  | cons entry rest ih =>
    obtain ⟨-, hrest⟩ := matchNamed_cons_eq_ok h
    rcases ih hrest with hmem | hput
    · exact .inl (List.mem_cons_of_mem _ hmem)
    · rw [OrderedMap.get?_put] at hput
      split_ifs at hput with hname
      · cases hput
        subst hname
        exact .inl List.mem_cons_self
      · exact .inr hput

theorem mem_names_of_matchNamed (h : s.matchNamed m named = .ok matched) {entry : String × Datum}
    (hentry : entry ∈ named) : entry.1 ∈ s.names := by
  induction named generalizing m with
  | nil => cases hentry
  | cons first rest ih =>
    obtain ⟨hfirst, hrest⟩ := matchNamed_cons_eq_ok h
    rcases List.mem_cons.mp hentry with rfl | hentry
    · exact hfirst
    · exact ih hrest hentry

theorem values_eq_ok (h : s.values given named = .ok m) :
    ∃ matched, s.matchNamed (.ofList (s.byPlace given)) named = .ok matched ∧
      m = (OrderedMap.ofList s.defaults).merge matched := by
  unfold values at h
  change Except.mapError Failure.arguments (do
    let matched ← s.matchNamed (.ofList (s.byPlace given)) named
    _) = _ at h
  cases hmatched : s.matchNamed (.ofList (s.byPlace given)) named with
  | error fault =>
    rw [hmatched] at h
    cases h
  | ok matched =>
    refine ⟨matched, rfl, ?_⟩
    rw [hmatched] at h
    change Except.mapError Failure.arguments (if _ then _ else _) = _ at h
    split at h
    · cases h
    · split at h <;> cases h
      rfl

/-- The value of a parameter is an argument or the default. -/
theorem mem_of_values (h : s.values given named = .ok m) (hvalue : m.get? name = some value) :
    (name, value) ∈ named ∨ (name, value) ∈ s.byPlace given ∨ (name, value) ∈ s.defaults := by
  obtain ⟨matched, hmatched, rfl⟩ := values_eq_ok h
  rw [OrderedMap.get?_merge, Option.or_eq_some_iff] at hvalue
  rcases hvalue with hvalue | ⟨-, hvalue⟩
  · exact (mem_or_of_matchNamed hmatched hvalue).imp_right fun hplaced ↦
      .inl (OrderedMap.mem_of_get?_ofList hplaced)
  · exact .inr (.inr (OrderedMap.mem_of_get?_ofList hvalue))

/-- Only parameters get values. -/
theorem mem_names_of_values (h : s.values given named = .ok m) (hvalue : m.get? name = some value) :
    name ∈ s.names := by
  rcases mem_of_values h hvalue with hnamed | hplaced | hdefault
  · obtain ⟨matched, hmatched, -⟩ := values_eq_ok h
    exact mem_names_of_matchNamed hmatched hnamed
  · have hparameter : name ∈ s.placed.map Parameter.name := (List.of_mem_zip hplaced).1
    rw [names, List.map_append]
    exact List.mem_append_left _ hparameter
  · obtain ⟨p, hp, hname⟩ := List.mem_filterMap.mp hdefault
    obtain ⟨default, -, heq⟩ := Option.map_eq_some_iff.mp hname
    cases heq
    exact List.mem_map_of_mem hp

/-- A parameter with a default gets a value. -/
theorem isSome_of_values (h : s.values given named = .ok m)
    (hdefault : name ∈ s.defaults.map Prod.fst) : (m.get? name).isSome := by
  obtain ⟨matched, -, rfl⟩ := values_eq_ok h
  rw [OrderedMap.get?_merge, Option.isSome_or, Bool.or_eq_true, ← OrderedMap.mem_names_iff,
    ← OrderedMap.mem_names_iff, OrderedMap.ofList, OrderedMap.names_putAll, List.mem_eraseDups]
  exact .inr hdefault

theorem valuesForThing_eq_ok (h : s.valuesForThing given named = .ok m) :
    ∃ all, s.values (.null :: given) named = .ok all ∧
      ∀ name, m.get? name = if name = receiver then none else all.get? name := by
  unfold valuesForThing at h
  cases hall : s.values (.null :: given) named with
  | error failure =>
    rw [hall] at h
    cases h
  | ok all =>
    rw [hall] at h
    cases h
    exact ⟨all, rfl, fun name ↦ all.get?_erase receiver name⟩

end StagedColumns.Signature
