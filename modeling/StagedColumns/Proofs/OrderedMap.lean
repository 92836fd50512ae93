import Mathlib.Data.List.Basic
import Mathlib.Data.List.Induction
import StagedColumns.OrderedMap

/-!
# What ordered maps hold

A map is seen through `get?`: writing a name changes the value under that name and no other, and
maps made of entries with different names list exactly those entries. The names stand in the order
of their first occurrences, which is that of `List.eraseDups`.
-/

set_option autoImplicit false

namespace StagedColumns

variable {α β : Type}

/-! ### First occurrences -/

section FirstOccurrences

variable [BEq α] [LawfulBEq α]

theorem eraseDups_concat (l : List α) (a : α) :
    (l ++ [a]).eraseDups = l.eraseDups ++ if a ∈ l then [] else [a] := by
  rw [List.eraseDups_append]
  by_cases ha : a ∈ l <;> simp [List.removeAll, ha, List.eraseDups_cons]

theorem nodup_eraseDups (l : List α) : l.eraseDups.Nodup := by
  induction l using List.reverseRecOn with
  | nil => simp
  | append_singleton l a ih =>
    rw [eraseDups_concat]
    by_cases ha : a ∈ l
    · simpa [ha] using ih
    · simpa [ha, List.nodup_append] using ⟨ih, fun b hb h ↦ ha (h ▸ hb)⟩

theorem eraseDups_of_nodup {l : List α} (h : l.Nodup) : l.eraseDups = l := by
  induction l with
  | nil => rfl
  | cons a rest ih =>
    obtain ⟨ha, hrest⟩ := List.nodup_cons.mp h
    have hkept : rest.filter (fun b ↦ !b == a) = rest := by
      refine List.filter_eq_self.mpr fun b hb ↦ ?_
      simp only [Bool.not_eq_true', beq_eq_false_iff_ne]
      exact fun h ↦ ha (h ▸ hb)
    rw [List.eraseDups_cons, hkept, ih hrest]

theorem eraseDups_append_left (l later : List α) :
    (l.eraseDups ++ later).eraseDups = (l ++ later).eraseDups := by
  rw [List.eraseDups_append, List.eraseDups_append, eraseDups_of_nodup (nodup_eraseDups l)]
  simp [List.removeAll]

theorem eraseDups_append_right (l later : List α) :
    (l ++ later.eraseDups).eraseDups = (l ++ later).eraseDups := by
  induction later using List.reverseRecOn with
  | nil => rfl
  | append_singleton later a ih =>
    have happend : (l ++ (later ++ [a])).eraseDups =
        (l ++ later).eraseDups ++ if a ∈ l ++ later then [] else [a] := by
      rw [← List.append_assoc, eraseDups_concat]
    rw [eraseDups_concat, happend, ← ih]
    by_cases ha : a ∈ later
    · simp [ha]
    · rw [if_neg ha, ← List.append_assoc, eraseDups_concat]
      simp [ha]

/-- Where different values give lists without common members, repetitions come from repeated values
alone. -/
theorem eraseDups_flatMap [BEq β] [LawfulBEq β] {f : α → List β} {l : List α}
    (hnodup : ∀ a ∈ l, (f a).Nodup)
    (hapart : ∀ a ∈ l, ∀ b ∈ l, ∀ c ∈ f a, c ∈ f b → a = b) :
    (l.flatMap f).eraseDups = l.eraseDups.flatMap f := by
  induction l using List.reverseRecOn with
  | nil => rfl
  | append_singleton l a ih =>
    have ha : a ∈ l ++ [a] := List.mem_append_right l (List.mem_singleton_self a)
    have hl {b : α} (hb : b ∈ l) : b ∈ l ++ [a] := List.mem_append_left [a] hb
    have hrest := ih (fun b hb ↦ hnodup b (hl hb)) fun b hb c hc ↦ hapart b (hl hb) c (hl hc)
    rw [List.flatMap_append, List.flatMap_singleton, List.eraseDups_append, hrest,
      eraseDups_concat, List.flatMap_append]
    congr 1
    by_cases hmem : a ∈ l
    · have hnone : (f a).removeAll (l.flatMap f) = [] :=
        List.filter_eq_nil_iff.mpr fun c hc ↦ by
          simpa using ⟨a, hmem, hc⟩
      rw [hnone, if_pos hmem]
      rfl
    · have hall : (f a).removeAll (l.flatMap f) = f a := by
        refine List.filter_eq_self.mpr fun c hc ↦ ?_
        simp only [List.elem_eq_mem, Bool.not_eq_true', decide_eq_false_iff_not, List.mem_flatMap,
          not_exists, not_and]
        exact fun b hb hcb ↦ hmem (hapart b (hl hb) a ha c hcb hc ▸ hb)
      rw [hall, if_neg hmem, List.flatMap_singleton, eraseDups_of_nodup (hnodup a ha)]

end FirstOccurrences

/-! ### Entries -/

theorem lookup_entry_cons (name other : String) (value : α) (entries : List (String × α)) :
    ((name, value) :: entries).lookup other =
      if other = name then some value else entries.lookup other := by
  rw [List.lookup_cons]
  by_cases hother : other = name
  · rw [beq_iff_eq.mpr hother, if_pos hother]
  · rw [beq_eq_false_iff_ne.mpr hother, if_neg hother]

theorem lookup_eq_none_of_fresh {name : String} {entries : List (String × α)}
    (hfresh : name ∉ entries.map Prod.fst) : entries.lookup name = none := by
  rw [List.lookup_eq_none_iff]
  intro entry hentry
  rw [bne_iff_ne]
  intro h
  exact hfresh (h ▸ List.mem_map_of_mem hentry)

theorem mem_of_lookup_eq_some {name : String} {value : α} {entries : List (String × α)}
    (h : entries.lookup name = some value) : (name, value) ∈ entries := by
  obtain ⟨before, after, heq, -⟩ := List.lookup_eq_some_iff.mp h
  rw [heq]
  exact List.mem_append_right before List.mem_cons_self

theorem lookup_isSome_iff_mem {name : String} {entries : List (String × α)} :
    (entries.lookup name).isSome ↔ name ∈ entries.map Prod.fst := by
  rw [List.lookup_isSome_iff]
  simp

theorem lookup_map_constant (names : List String) (value : α) (name : String) :
    (names.map fun own ↦ (own, value)).lookup name = if name ∈ names then some value else none := by
  induction names with
  | nil => rfl
  | cons own rest ih =>
    rw [List.map_cons, lookup_entry_cons, ih]
    by_cases hname : name = own <;> simp [hname]

theorem lookup_putEntry (name other : String) (value : α) (entries : List (String × α)) :
    (putEntry name value entries).lookup other =
      if other = name then some value else entries.lookup other := by
  induction entries with
  | nil => exact lookup_entry_cons name other value []
  | cons entry rest ih =>
    obtain ⟨first, kept⟩ := entry
    by_cases hfirst : first = name
    · subst hfirst
      simp only [putEntry, if_true, lookup_entry_cons]
      by_cases hother : other = first
      · rw [if_pos hother, if_pos hother]
      · rw [if_neg hother, if_neg hother, if_neg hother]
    · simp only [putEntry, hfirst, if_false, lookup_entry_cons, ih]
      by_cases hother : other = first
      · have hne : other ≠ name := hother ▸ hfirst
        rw [if_pos hother, if_neg hne]
        exact (if_pos hother).symm
      · rw [if_neg hother, if_neg hother]

theorem putEntry_of_fresh {name : String} {value : α} {entries : List (String × α)}
    (hfresh : name ∉ entries.map Prod.fst) :
    putEntry name value entries = entries ++ [(name, value)] := by
  induction entries with
  | nil => rfl
  | cons entry rest ih =>
    simp only [List.map_cons, List.mem_cons, not_or] at hfresh
    have hne : entry.1 ≠ name := fun h ↦ hfresh.1 h.symm
    simp only [putEntry, hne, if_false, ih hfresh.2, List.cons_append]

theorem names_putEntry (name : String) (value : α) (entries : List (String × α)) :
    (putEntry name value entries).map Prod.fst =
      entries.map Prod.fst ++ if name ∈ entries.map Prod.fst then [] else [name] := by
  induction entries with
  | nil => rfl
  | cons entry rest ih =>
    by_cases hname : entry.1 = name
    · simp [putEntry, hname]
    · have hne : name ≠ entry.1 := fun h ↦ hname h.symm
      simp only [putEntry, hname, if_false, List.map_cons, ih, List.mem_cons, hne, false_or,
        List.cons_append]

/-! ### Maps -/

namespace OrderedMap

@[simp] theorem get?_empty (name : String) : (empty : OrderedMap α).get? name = none := rfl

theorem get?_put (m : OrderedMap α) (name other : String) (value : α) :
    (m.put name value).get? other = if other = name then some value else m.get? other :=
  lookup_putEntry name other value m.entries

@[simp] theorem get?_put_self (m : OrderedMap α) (name : String) (value : α) :
    (m.put name value).get? name = some value := by
  rw [get?_put, if_pos rfl]

/-- Of entries with different names each one is found under its name, and the other names keep
what they have. -/
theorem get?_putAll (m : OrderedMap α) {entries : List (String × α)}
    (hdistinct : (entries.map Prod.fst).Nodup) (name : String) :
    (m.putAll entries).get? name = (entries.lookup name).or (m.get? name) := by
  induction entries generalizing m with
  | nil => rfl
  | cons entry rest ih =>
    obtain ⟨first, value⟩ := entry
    obtain ⟨hfresh, hrest⟩ := List.nodup_cons.mp hdistinct
    change ((m.put first value).putAll rest).get? name = _
    rw [ih (m.put first value) hrest, get?_put, lookup_entry_cons]
    by_cases hname : name = first
    · subst hname
      rw [lookup_eq_none_of_fresh hfresh, if_pos rfl, if_pos rfl]
      rfl
    · rw [if_neg hname, if_neg hname]

theorem get?_merge (m later : OrderedMap α) (name : String) :
    (m.merge later).get? name = (later.get? name).or (m.get? name) :=
  get?_putAll m later.distinct name

theorem entries_putAll_of_fresh (m : OrderedMap α) {entries : List (String × α)}
    (hdistinct : (m.names ++ entries.map Prod.fst).Nodup) :
    (m.putAll entries).entries = m.entries ++ entries := by
  induction entries generalizing m with
  | nil => exact (List.append_nil _).symm
  | cons entry rest ih =>
    obtain ⟨name, value⟩ := entry
    have hfresh : name ∉ m.entries.map Prod.fst := by
      rw [List.map_cons, List.nodup_append] at hdistinct
      intro h
      exact hdistinct.2.2 name h name List.mem_cons_self rfl
    have hput : (m.put name value).entries = m.entries ++ [(name, value)] :=
      putEntry_of_fresh hfresh
    change ((m.put name value).putAll rest).entries = _
    rw [ih, hput, List.append_assoc]
    · rfl
    · simpa [names, hput] using hdistinct

theorem names_put (m : OrderedMap α) (name : String) (value : α) :
    (m.put name value).names = (m.names ++ [name]).eraseDups := by
  rw [eraseDups_concat, eraseDups_of_nodup (l := m.names) m.distinct]
  exact names_putEntry name value m.entries

theorem entries_put_of_fresh (m : OrderedMap α) {name : String} (hfresh : name ∉ m.names)
    (value : α) : (m.put name value).entries = m.entries ++ [(name, value)] :=
  putEntry_of_fresh hfresh

theorem names_put_of_fresh (m : OrderedMap α) {name : String} (hfresh : name ∉ m.names)
    (value : α) : (m.put name value).names = m.names ++ [name] := by
  rw [names, entries_put_of_fresh m hfresh, List.map_append]
  rfl

theorem names_putAll (m : OrderedMap α) (entries : List (String × α)) :
    (m.putAll entries).names = (m.names ++ entries.map Prod.fst).eraseDups := by
  induction entries generalizing m with
  | nil => rw [List.map_nil, List.append_nil, eraseDups_of_nodup (l := m.names) m.distinct]; rfl
  | cons entry rest ih =>
    change ((m.put entry.1 entry.2).putAll rest).names = _
    rw [ih, names_put, eraseDups_append_left, List.append_assoc]
    rfl

theorem names_merge (m later : OrderedMap α) :
    (m.merge later).names = (m.names ++ later.names).eraseDups :=
  names_putAll m later.entries

theorem mem_names_iff (m : OrderedMap α) (name : String) :
    name ∈ m.names ↔ (m.get? name).isSome := by
  rw [get?, names, lookup_isSome_iff_mem]

theorem get?_eq_none_iff (m : OrderedMap α) (name : String) :
    m.get? name = none ↔ name ∉ m.names := by
  rw [mem_names_iff, Option.not_isSome_iff_eq_none]

/-- A map made of entries with different names lists those entries. -/
theorem entries_ofList {entries : List (String × α)} (hdistinct : (entries.map Prod.fst).Nodup) :
    (ofList entries).entries = entries :=
  entries_putAll_of_fresh empty hdistinct

/-- The names with their values are the entries. -/
theorem zip_names_values (m : OrderedMap α) : m.names.zip m.values = m.entries :=
  (List.zip_of_prod rfl rfl).symm

theorem length_values (m : OrderedMap α) : m.values.length = m.names.length := by
  rw [values, names, List.length_map, List.length_map]

theorem eq_of_entries {m other : OrderedMap α} (h : m.entries = other.entries) : m = other := by
  cases m
  cases other
  cases h
  rfl

theorem empty_merge (m : OrderedMap α) : empty.merge m = m :=
  eq_of_entries (entries_ofList m.distinct)

theorem get?_ofList {entries : List (String × α)} (hdistinct : (entries.map Prod.fst).Nodup)
    (name : String) : (ofList entries).get? name = entries.lookup name := by
  rw [get?, entries_ofList hdistinct]

theorem get?_ofList_eq_none_iff {entries : List (String × α)} {name : String} :
    (ofList entries).get? name = none ↔ name ∉ entries.map Prod.fst := by
  rw [get?_eq_none_iff, ofList, names_putAll, List.mem_eraseDups]
  rfl

/-- Entries with different names are found first if they are listed last. -/
theorem get?_ofList_append (front : List (String × α)) {back : List (String × α)}
    (hdistinct : (back.map Prod.fst).Nodup) (name : String) :
    (ofList (front ++ back)).get? name = (back.lookup name).or ((ofList front).get? name) := by
  rw [ofList, putAll, List.foldl_append]
  exact get?_putAll _ hdistinct name

/-- What is found after entries were written is one of them, or was there before. -/
theorem mem_or_of_get?_putAll (m : OrderedMap α) {entries : List (String × α)} {name : String}
    {value : α} (h : (m.putAll entries).get? name = some value) :
    (name, value) ∈ entries ∨ m.get? name = some value := by
  induction entries generalizing m with
  | nil => exact .inr h
  | cons entry rest ih =>
    obtain ⟨first, written⟩ := entry
    rcases ih (m.put first written) h with hmem | hput
    · exact .inl (List.mem_cons_of_mem _ hmem)
    · rw [get?_put] at hput
      by_cases hname : name = first
      · rw [if_pos hname] at hput
        cases hput
        exact .inl (hname ▸ List.mem_cons_self)
      · rw [if_neg hname] at hput
        exact .inr hput

theorem mem_of_get?_ofList {entries : List (String × α)} {name : String} {value : α}
    (h : (ofList entries).get? name = some value) : (name, value) ∈ entries := by
  rcases mem_or_of_get?_putAll empty h with hmem | hnone
  · exact hmem
  · cases hnone

theorem get?_eq_some_iff_mem (m : OrderedMap α) (name : String) (value : α) :
    m.get? name = some value ↔ (name, value) ∈ m.entries := by
  obtain ⟨entries, hdistinct⟩ := m
  change entries.lookup name = some value ↔ (name, value) ∈ entries
  induction entries with
  | nil => simp
  | cons entry rest ih =>
    obtain ⟨first, kept⟩ := entry
    obtain ⟨hfresh, hrest⟩ := List.nodup_cons.mp hdistinct
    rw [lookup_entry_cons, List.mem_cons, Prod.mk.injEq]
    by_cases hname : name = first
    · subst hname
      have hnone : (name, value) ∉ rest := by
        intro h
        have hmem : name ∈ rest.map Prod.fst := List.mem_map_of_mem h
        exact hfresh hmem
      simp [hnone, eq_comm]
    · simp [hname, ih hrest]

theorem get?_erase (m : OrderedMap α) (name other : String) :
    (m.erase name).get? other = if other = name then none else m.get? other := by
  refine Option.ext fun value ↦ ?_
  rw [get?_eq_some_iff_mem, erase, List.mem_filter]
  by_cases hname : other = name
  · simp [hname]
  · simp [hname, get?_eq_some_iff_mem]

/-- A map lists the entries that have its names in order and its values under them. -/
theorem entries_eq_of_names (m : OrderedMap α) {entries : List (String × α)}
    (hnames : m.names = entries.map Prod.fst)
    (hvalues : ∀ entry ∈ entries, m.get? entry.1 = some entry.2) : m.entries = entries := by
  have hlength : m.entries.length = entries.length := by
    simpa [names] using congrArg List.length hnames
  refine List.ext_getElem hlength fun i hi hi' ↦ ?_
  have hname : m.entries[i].1 = entries[i].1 := by
    simpa [names] using List.getElem_of_eq hnames (i := i) (by simpa [names] using hi)
  have hvalue : m.get? entries[i].1 = some m.entries[i].2 :=
    hname ▸ (m.get?_eq_some_iff_mem _ _).mpr (List.getElem_mem hi)
  exact Prod.ext hname (Option.some.inj (hvalue.symm.trans (hvalues _ (List.getElem_mem hi'))))

/-- Maps are equal that have the same names in the same order and the same values under them. -/
theorem eq_of_get? {m other : OrderedMap α} (hnames : m.names = other.names)
    (hvalues : ∀ name, m.get? name = other.get? name) : m = other := by
  refine eq_of_entries (m.entries_eq_of_names hnames fun entry hentry ↦ ?_)
  rw [hvalues]
  exact (other.get?_eq_some_iff_mem _ _).mpr hentry

theorem putEntry_of_mem {name : String} {value : α} {entries : List (String × α)}
    (hvalue : entries.lookup name = some value) : putEntry name value entries = entries := by
  induction entries with
  | nil => cases hvalue
  | cons entry rest ih =>
    obtain ⟨first, kept⟩ := entry
    rw [lookup_entry_cons] at hvalue
    by_cases hname : first = name
    · rw [if_pos hname.symm] at hvalue
      cases hvalue
      simp only [putEntry, hname, if_true]
    · rw [if_neg (Ne.symm hname)] at hvalue
      simp only [putEntry, hname, if_false, ih hvalue]

/-- Writing what is there already changes nothing. -/
theorem putAll_of_mem (m : OrderedMap α) {entries : List (String × α)}
    (hentries : ∀ entry ∈ entries, m.get? entry.1 = some entry.2) : m.putAll entries = m := by
  induction entries with
  | nil => rfl
  | cons entry rest ih =>
    obtain ⟨hfirst, hrest⟩ := List.forall_mem_cons.mp hentries
    have hput : m.put entry.1 entry.2 = m := by
      unfold put
      simp only [putEntry_of_mem hfirst]
    show (m.put entry.1 entry.2).putAll rest = m
    rw [hput, ih hrest]

theorem merge_of_contained {m later : OrderedMap α}
    (h : ∀ name value, later.get? name = some value → m.get? name = some value) :
    m.merge later = m :=
  m.putAll_of_mem fun _ hentry ↦ h _ _ ((later.get?_eq_some_iff_mem _ _).mpr hentry)

/-! ### Merged maps -/

theorem merge_assoc (m later last : OrderedMap α) :
    (m.merge later).merge last = m.merge (later.merge last) := by
  refine eq_of_get? ?_ fun name ↦ ?_
  · rw [names_merge, names_merge, names_merge, names_merge, eraseDups_append_left,
      eraseDups_append_right, List.append_assoc]
  · rw [get?_merge, get?_merge, get?_merge, get?_merge, Option.or_assoc]

theorem merge_self (m : OrderedMap α) : m.merge m = m :=
  merge_of_contained fun _ _ h ↦ h

/-- Maps that have no name in common are listed one after the other. -/
theorem entries_merge_of_disjoint {m later : OrderedMap α}
    (h : List.Disjoint m.names later.names) :
    (m.merge later).entries = m.entries ++ later.entries :=
  m.entries_putAll_of_fresh <| List.nodup_append.mpr
    ⟨m.distinct, later.distinct, fun _ hname _ hlater heq ↦ h hname (heq ▸ hlater)⟩

/-- All maps, merged from left to right. -/
def mergeAll (ms : List (OrderedMap α)) : OrderedMap α :=
  ms.foldl merge empty

theorem mergeAll_concat (ms : List (OrderedMap α)) (m : OrderedMap α) :
    mergeAll (ms ++ [m]) = (mergeAll ms).merge m := by
  rw [mergeAll, List.foldl_append]
  rfl

theorem names_mergeAll (ms : List (OrderedMap α)) :
    (mergeAll ms).names = (ms.flatMap names).eraseDups := by
  induction ms using List.reverseRecOn with
  | nil => rfl
  | append_singleton ms m ih =>
    rw [mergeAll_concat, names_merge, ih, eraseDups_append_left, List.flatMap_append,
      List.flatMap_singleton]

variable {ι : Type} {l : List ι} {part : ι → OrderedMap α}

/-- Of all maps that have the name the last one gives the value. -/
theorem get?_mergeAll_eq_some_iff (name : String) (value : α) :
    (mergeAll (l.map part)).get? name = some value ↔
      ∃ front a back, l = front ++ a :: back ∧ (part a).get? name = some value ∧
        ∀ b ∈ back, (part b).get? name = none := by
  have hlast : (mergeAll (l.map part)).get? name =
      l.reverse.findSome? fun a ↦ (part a).get? name := by
    induction l using List.reverseRecOn with
    | nil => rfl
    | append_singleton l a ih =>
      rw [List.map_append, List.map_singleton, mergeAll_concat, get?_merge, ih, List.reverse_append,
        List.reverse_singleton, List.singleton_append, List.findSome?_cons]
      cases (part a).get? name <;> rfl
  rw [hlast, List.findSome?_eq_some_iff]
  constructor
  · rintro ⟨back, a, front, hl, ha, hback⟩
    exact ⟨front.reverse, a, back.reverse, by simpa using congrArg List.reverse hl, ha,
      fun b hb ↦ hback b (List.mem_reverse.mp hb)⟩
  · rintro ⟨front, a, back, rfl, ha, hback⟩
    exact ⟨back.reverse, a, front.reverse, by simp, ha,
      fun b hb ↦ hback b (List.mem_reverse.mp hb)⟩

theorem get?_mergeAll_of_apart
    (hapart : ∀ a ∈ l, ∀ b ∈ l, ∀ name ∈ (part a).names, name ∈ (part b).names → a = b)
    {a : ι} (ha : a ∈ l) {name : String} {value : α} (hvalue : (part a).get? name = some value) :
    (mergeAll (l.map part)).get? name = some value := by
  have hname : name ∈ (part a).names := by simp [mem_names_iff, hvalue]
  have hmerged : name ∈ (mergeAll (l.map part)).names := by
    rw [names_mergeAll, List.mem_eraseDups, List.flatMap_map]
    exact List.mem_flatMap.mpr ⟨a, ha, hname⟩
  obtain ⟨other, hother⟩ := Option.isSome_iff_exists.mp ((mem_names_iff _ _).mp hmerged)
  obtain ⟨front, b, back, hl, hb, -⟩ := (get?_mergeAll_eq_some_iff name other).mp hother
  have hmem : b ∈ l := hl ▸ List.mem_append_right front List.mem_cons_self
  obtain rfl := hapart a ha b hmem name hname (by simp [mem_names_iff, hb])
  rw [hother, ← hb, hvalue]

theorem names_mergeAll_of_apart [BEq ι] [LawfulBEq ι]
    (hapart : ∀ a ∈ l, ∀ b ∈ l, ∀ name ∈ (part a).names, name ∈ (part b).names → a = b) :
    (mergeAll (l.map part)).names = l.eraseDups.flatMap fun a ↦ (part a).names := by
  have hdistinct : ∀ a ∈ l, (part a).names.Nodup := fun a _ ↦ (part a).distinct
  rw [names_mergeAll, List.flatMap_map, eraseDups_flatMap hdistinct hapart]

/-- Maps without common names, merged, are listed one after the other, each where it first occurs.
-/
theorem entries_mergeAll_of_apart [BEq ι] [LawfulBEq ι]
    (hapart : ∀ a ∈ l, ∀ b ∈ l, ∀ name ∈ (part a).names, name ∈ (part b).names → a = b) :
    (mergeAll (l.map part)).entries = l.eraseDups.flatMap fun a ↦ (part a).entries := by
  refine entries_eq_of_names _ ?_ fun entry hentry ↦ ?_
  · rw [names_mergeAll_of_apart hapart, List.map_flatMap]
    rfl
  · obtain ⟨a, ha, hentry⟩ := List.mem_flatMap.mp hentry
    exact get?_mergeAll_of_apart hapart (List.mem_eraseDups.mp ha)
      ((get?_eq_some_iff_mem _ _ _).mpr hentry)

end OrderedMap

end StagedColumns
