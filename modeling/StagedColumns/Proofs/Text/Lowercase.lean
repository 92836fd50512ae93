import StagedColumns.Proofs.Text.Blank
import StagedColumns.Proofs.Text.Split
import StagedColumns.Text.Lowercase

/-!
# Lower case between borders

The lower-case form of a character depends on the word it stands in, and a word does not reach past
a border: a blank, or one of the signs `+`, `,`, `-` and `/`. A border stays as it is in lower case,
and nothing else becomes one. So the lower-case form of a text can be taken part by part between
borders (`lowerFrom_append_border`), and it makes no difference whether a text is trimmed or cut at
borders before or after that (`trimBlanks_lowerFrom`, `splitWhere_lowerFrom`).
-/

set_option autoImplicit false

namespace StagedColumns.Text

/-! ### Borders -/

/-- The blanks, and the signs `+`, `,`, `-` and `/`. -/
def borderRanges : List (Nat × Nat) :=
  blankRanges ++ [(43, 45), (47, 47)]

/-- The character is a blank or one of the signs. -/
def isBorder (c : Char) : Bool :=
  inRanges borderRanges c.toNat

theorem isBorder_of_isBlank {c : Char} (h : isBlank c = true) : isBorder c = true := by
  rw [isBorder, borderRanges, inRanges, List.any_append, Bool.or_eq_true]
  exact .inl h

/-- A code point in ranges that are apart from others does not lie in the others. -/
theorem not_inRanges_of_apart {ranges others : List (Nat × Nat)} {code : Nat}
    (happart : ∀ range ∈ ranges, ∀ other ∈ others, range.2 < other.1 ∨ other.2 < range.1)
    (h : inRanges ranges code = true) : inRanges others code = false := by
  obtain ⟨range, hrange, hwithin⟩ := mem_of_inRanges h
  refine Bool.eq_false_iff.mpr fun hother ↦ ?_
  obtain ⟨other, hother, hbetween⟩ := mem_of_inRanges hother
  have := happart range hrange other hother
  omega

theorem borders_not_caseIgnorable {c : Char} (h : isBorder c = true) :
    inRanges caseIgnorableRanges c.toNat = false :=
  not_inRanges_of_apart (by decide +kernel) h

theorem borders_not_cased {c : Char} (h : isBorder c = true) :
    inRanges casedRanges c.toNat = false :=
  not_inRanges_of_apart (by decide +kernel) h

/-- The lower-case map neither moves a border nor moves anything to one. -/
theorem runs_apart : ∀ run ∈ lowercaseRuns, ∀ range ∈ borderRanges,
    (run.last < range.1 ∨ range.2 < run.first) ∧
      (run.last + run.shift < range.1 ∨ range.2 < run.first + run.shift) := by
  decide +kernel

theorem border_pos : ∀ range ∈ borderRanges, 0 < range.1 := by
  decide

theorem ascii_toLower : ∀ code < 128,
    inRanges borderRanges code = true ∨
      inRanges borderRanges (Char.ofNat code).toLower.toNat = true →
        (Char.ofNat code).toLower = Char.ofNat code := by
  decide +kernel

/-- The lower-case form of a character, with those before and after it. -/
def lowerAt (before : List Char) (c : Char) (rest : List Char) : List Char :=
  if c.toNat = 931 then [if startsCased before && !startsCased rest then 'ς' else 'σ']
  else lowerChar c

theorem lowerFrom_cons (before : List Char) (c : Char) (rest : List Char) :
    lowerFrom before (c :: rest) = lowerAt before c rest ++ lowerFrom (c :: before) rest :=
  rfl

theorem lowerChar_of_isBorder {c : Char} (h : isBorder c = true) : lowerChar c = [c] := by
  unfold lowerChar
  split_ifs with hascii hdotted
  · have := ascii_toLower c.toNat hascii (.inl h)
    rw [Char.ofNat_toNat] at this
    rw [this]
  · rw [isBorder, hdotted] at h
    exact absurd h (by decide)
  · have hnone : lowercaseRuns.find? (fun run ↦ run.covers c.toNat) = none := by
      refine List.find?_eq_none.mpr fun run hrun hcovers ↦ ?_
      obtain ⟨range, hrange, hwithin⟩ := mem_of_inRanges h
      have := (runs_apart run hrun range hrange).1
      simp only [CaseRun.covers, Bool.and_eq_true, decide_eq_true_iff] at hcovers
      omega
    rw [shifted, hnone, Char.ofNat_toNat]

/-- A character that is not a border has none in its lower-case form. -/
theorem eq_of_mem_lowerChar {c x : Char} (hx : x ∈ lowerChar c) (h : isBorder x = true) :
    x = c := by
  unfold lowerChar at hx
  split_ifs at hx with hascii hdotted
  · obtain rfl := List.mem_singleton.mp hx
    have := ascii_toLower c.toNat hascii
    rw [Char.ofNat_toNat] at this
    exact this (.inr h)
  · rcases List.mem_pair.mp hx with rfl | rfl
    · exact absurd h (by decide)
    · exact absurd h (by decide)
  · obtain rfl := List.mem_singleton.mp hx
    unfold shifted at h ⊢
    cases hrun : lowercaseRuns.find? (fun run ↦ run.covers c.toNat) with
    | none => exact Char.ofNat_toNat c
    | some run =>
      rw [hrun] at h
      change inRanges borderRanges (Char.ofNat (c.toNat + run.shift).toNat).toNat = true at h
      obtain ⟨range, hrange, hwithin⟩ := mem_of_inRanges h
      have happart := (runs_apart run (List.mem_of_find?_eq_some hrun) range hrange).2
      have hcovers := List.find?_some hrun
      simp only [CaseRun.covers, Bool.and_eq_true, decide_eq_true_iff] at hcovers
      -- a code point that is no character stands for the zero character, which is no border
      have himage : (Char.ofNat (c.toNat + run.shift).toNat).toNat = (c.toNat + run.shift).toNat ∨
          (Char.ofNat (c.toNat + run.shift).toNat).toNat = 0 := by
        by_cases hvalid : (c.toNat + run.shift).toNat.isValidChar
        · exact .inl (by rw [Char.ofNat, dif_pos hvalid]; rfl)
        · exact .inr (by rw [Char.ofNat, dif_neg hvalid]; rfl)
      have hpositive : 0 < range.1 := border_pos range hrange
      omega

/-- In the lower-case form of a character there is a border only if it is that character. -/
theorem eq_of_mem_lowerAt {before rest : List Char} {c x : Char} (hx : x ∈ lowerAt before c rest)
    (h : isBorder x = true ∨ isBorder c = true) : x = c := by
  unfold lowerAt at hx
  split at hx
  · next hsigma =>
    have hc : ¬ isBorder c = true := by
      rw [isBorder, hsigma]
      decide
    obtain rfl := List.mem_singleton.mp hx
    refine absurd (h.resolve_right hc) ?_
    split <;> decide
  · rcases h with h | h
    · exact eq_of_mem_lowerChar hx h
    · rw [lowerChar_of_isBorder h] at hx
      exact List.mem_singleton.mp hx

theorem lowerAt_ne_nil (before : List Char) (c : Char) (rest : List Char) :
    lowerAt before c rest ≠ [] := by
  unfold lowerAt lowerChar
  split_ifs <;> exact List.cons_ne_nil _ _

theorem lowerAt_of_isBorder {c : Char} (h : isBorder c = true) (before rest : List Char) :
    lowerAt before c rest = [c] := by
  have hsigma : c.toNat ≠ 931 := by
    intro hsigma
    rw [isBorder, hsigma] at h
    exact absurd h (by decide)
  rw [lowerAt, if_neg hsigma, lowerChar_of_isBorder h]

/-! ### Parts between borders -/

/-- No word reaches past a border. -/
theorem startsCased_append_border {c : Char} (h : isBorder c = true) (front back : List Char) :
    startsCased (front ++ c :: back) = startsCased front := by
  unfold startsCased
  induction front with
  | nil =>
    rw [List.nil_append, List.dropWhile_cons_of_neg (by simp [borders_not_caseIgnorable h])]
    exact borders_not_cased h
  | cons x front ih =>
    rw [List.cons_append, List.dropWhile_cons, List.dropWhile_cons]
    by_cases hx : inRanges caseIgnorableRanges x.toNat = true
    · rw [if_pos hx, if_pos hx]
      exact ih
    · rw [if_neg hx, if_neg hx]

theorem lowerFrom_after_border {c : Char} (h : isBorder c = true) (near far cs : List Char) :
    lowerFrom (near ++ c :: far) cs = lowerFrom near cs := by
  induction cs generalizing near with
  | nil => rfl
  | cons x rest ih =>
    rw [lowerFrom_cons, lowerFrom_cons, ← List.cons_append, ih, lowerAt, lowerAt,
      startsCased_append_border h]

/-- The lower-case form of a text can be taken part by part on either side of a border. -/
theorem lowerFrom_append_border {c : Char} (h : isBorder c = true) (before front back : List Char) :
    lowerFrom before (front ++ c :: back) = lowerFrom before front ++ c :: lowerFrom [] back := by
  induction front generalizing before with
  | nil =>
    rw [List.nil_append, lowerFrom_cons, lowerAt_of_isBorder h]
    exact congrArg _ (lowerFrom_after_border h [] before back)
  | cons x front ih =>
    rw [List.cons_append, lowerFrom_cons, lowerFrom_cons, ih, lowerAt, lowerAt,
      startsCased_append_border h, List.append_assoc]

/-- The lower-case form of a text has the same borders as the text. -/
theorem mem_lowerFrom_iff {before cs : List Char} {x : Char} (h : isBorder x = true) :
    x ∈ lowerFrom before cs ↔ x ∈ cs := by
  induction cs generalizing before with
  | nil => exact Iff.rfl
  | cons c rest ih =>
    rw [lowerFrom_cons, List.mem_append, ih, List.mem_cons]
    refine or_congr_left ⟨fun hx ↦ eq_of_mem_lowerAt hx (.inl h), ?_⟩
    rintro rfl
    rw [lowerAt_of_isBorder h]
    exact List.mem_singleton_self x

/-- Where a text is cut at borders, it makes no difference whether it is put in lower case before or
after that. -/
theorem splitWhere_lowerFrom {separates : Char → Bool}
    (hseparates : ∀ c, separates c = true → isBorder c = true) (cs : List Char) :
    splitWhere separates (lowerFrom [] cs) = (splitWhere separates cs).map (lowerFrom []) := by
  have hwhole (cs : List Char) (h : ∀ c ∈ cs, separates c = false) :
      splitWhere separates (lowerFrom [] cs) = [lowerFrom [] cs] := by
    refine splitWhere_whole fun x hx ↦ Bool.eq_false_iff.mpr fun hsep ↦ ?_
    simpa [hsep] using h x ((mem_lowerFrom_iff (hseparates x hsep)).mp hx)
  induction cs using cut_induction separates with
  | whole cs hcs => rw [hwhole cs hcs, splitWhere_whole hcs, List.map_singleton]
  | cut part c rest hpart hc ih =>
    rw [lowerFrom_append_border (hseparates c hc), splitWhere_cut hc, splitWhere_cut hc,
      hwhole part hpart, splitWhere_whole hpart, ih, List.map_append, List.map_singleton]

/-! ### Blanks in lower case -/

theorem isBlank_of_mem_lowerAt {before rest : List Char} {c x : Char}
    (hx : x ∈ lowerAt before c rest) : isBlank x = isBlank c := by
  cases hc : isBlank c with
  | true => rw [eq_of_mem_lowerAt hx (.inr (isBorder_of_isBlank hc)), hc]
  | false =>
    refine Bool.eq_false_iff.mpr fun hblank ↦ ?_
    rw [eq_of_mem_lowerAt hx (.inl (isBorder_of_isBlank hblank)), hc] at hblank
    cases hblank

theorem lowerFrom_ne_nil {before cs : List Char} (h : cs ≠ []) : lowerFrom before cs ≠ [] := by
  obtain ⟨c, rest, rfl⟩ := List.exists_cons_of_ne_nil h
  exact List.append_ne_nil_of_left_ne_nil (lowerAt_ne_nil before c rest) _

theorem isBlank_head_lowerFrom {before cs : List Char} (h : cs ≠ []) :
    isBlank ((lowerFrom before cs).head (lowerFrom_ne_nil h)) = isBlank (cs.head h) := by
  obtain ⟨c, rest, rfl⟩ := List.exists_cons_of_ne_nil h
  simp only [lowerFrom_cons, List.head_append_of_ne_nil (lowerAt_ne_nil before c rest)]
  exact isBlank_of_mem_lowerAt (List.head_mem _)

theorem isBlank_getLast_lowerFrom {before cs : List Char} (h : cs ≠ []) :
    isBlank ((lowerFrom before cs).getLast (lowerFrom_ne_nil h)) = isBlank (cs.getLast h) := by
  induction cs generalizing before with
  | nil => exact absurd rfl h
  | cons c rest ih =>
    by_cases hrest : rest = []
    · subst hrest
      simp only [lowerFrom, List.append_nil]
      exact isBlank_of_mem_lowerAt (List.getLast_mem _)
    · simp only [lowerFrom_cons]
      rw [List.getLast_append_of_ne_nil _ (lowerFrom_ne_nil hrest), ih hrest,
        List.getLast_cons hrest]

theorem Bare.lowerFrom {cs : List Char} (h : Bare cs) (before : List Char) :
    Bare (lowerFrom before cs) := by
  have hne (hlower : Text.lowerFrom before cs ≠ []) : cs ≠ [] := by
    rintro rfl
    exact hlower rfl
  exact ⟨fun hlower ↦ (isBlank_head_lowerFrom (hne hlower)).trans (h.front _),
    fun hlower ↦ (isBlank_getLast_lowerFrom (hne hlower)).trans (h.back _)⟩

theorem lowerFrom_blanks_append {front : List Char} (h : ∀ c ∈ front, isBlank c = true)
    (cs : List Char) : lowerFrom [] (front ++ cs) = front ++ lowerFrom [] cs := by
  induction front with
  | nil => rfl
  | cons c front ih =>
    obtain ⟨hc, hfront⟩ := List.forall_mem_cons.mp h
    rw [List.cons_append, List.cons_append, ← ih hfront]
    exact lowerFrom_append_border (isBorder_of_isBlank hc) [] [] (front ++ cs)

theorem lowerFrom_append_blanks {back : List Char} (h : ∀ c ∈ back, isBlank c = true)
    (cs : List Char) : lowerFrom [] (cs ++ back) = lowerFrom [] cs ++ back := by
  cases back with
  | nil => rw [List.append_nil, List.append_nil]
  | cons c back =>
    obtain ⟨hc, hback⟩ := List.forall_mem_cons.mp h
    have hblanks : lowerFrom [] back = back := by
      simpa [lowerFrom] using lowerFrom_blanks_append hback []
    rw [lowerFrom_append_border (isBorder_of_isBlank hc), hblanks]

/-- It makes no difference whether a text is put in lower case before or after it is trimmed. -/
theorem trimBlanks_lowerFrom (cs : List Char) :
    trimBlanks (lowerFrom [] cs) = lowerFrom [] (trimBlanks cs) := by
  obtain ⟨front, back, hfront, hback, hcs⟩ := exists_blanks_around cs
  conv_lhs => rw [hcs]
  rw [lowerFrom_append_blanks hback, lowerFrom_blanks_append hfront, trimBlanks_append_blanks hback,
    trimBlanks_blanks_append hfront, trimBlanks_of_bare ((bare_trimBlanks cs).lowerFrom [])]

end StagedColumns.Text
