import Mathlib
import TronCourier.Text.Blank

/-! Cutting texts. Blanks go from the ends of a text and from nowhere else, and a text is cut at
the first of its separators. -/

namespace TronCourier.Text

variable {before cs after : List Char}

theorem dropWhile_isBlank {blanks : List Char} (hblanks : ∀ c ∈ blanks, isBlank c = true)
    (hhead : ∀ c ∈ cs.head?, isBlank c = false) : (blanks ++ cs).dropWhile isBlank = cs := by
  rw [List.dropWhile_append_of_pos hblanks]
  cases cs with
  | nil => rfl
  | cons c cs => exact List.dropWhile_cons_of_neg (by simp [hhead c rfl])

theorem dropWhile_isBlank_split (cs : List Char) :
    ∃ blanks, (∀ c ∈ blanks, isBlank c = true) ∧ cs = blanks ++ cs.dropWhile isBlank :=
  ⟨cs.takeWhile isBlank, fun _ hc => List.mem_takeWhile_imp hc, List.takeWhile_append_dropWhile.symm⟩

/-- What trimming takes away is blank. -/
theorem trimChars_split (cs : List Char) :
    ∃ before after, (∀ c ∈ before, isBlank c = true) ∧ (∀ c ∈ after, isBlank c = true) ∧
      cs = before ++ trimChars cs ++ after := by
  obtain ⟨before, hbefore, hfront⟩ := dropWhile_isBlank_split cs
  obtain ⟨after, hafter, hback⟩ := dropWhile_isBlank_split (cs.dropWhile isBlank).reverse
  refine ⟨before, after.reverse, hbefore, fun c hc => hafter c (List.mem_reverse.mp hc), ?_⟩
  have hrest : cs.dropWhile isBlank = trimChars cs ++ after.reverse := by
    rw [trimChars, ← List.reverse_append, ← hback, List.reverse_reverse]
  rw [List.append_assoc, ← hrest, ← hfront]

section Ends

variable (hbefore : ∀ c ∈ before, isBlank c = true) (hafter : ∀ c ∈ after, isBlank c = true)
include hbefore hafter

/-- Blanks inside a text stay. -/
theorem trimChars_of_ends (hne : cs ≠ []) (hhead : ∀ c ∈ cs.head?, isBlank c = false)
    (hlast : ∀ c ∈ cs.getLast?, isBlank c = false) : trimChars (before ++ cs ++ after) = cs := by
  have hfront : (before ++ (cs ++ after)).dropWhile isBlank = cs ++ after := by
    refine dropWhile_isBlank hbefore fun c hc => ?_
    rw [List.head?_append_of_ne_nil cs hne] at hc
    exact hhead c hc
  have hback : (after.reverse ++ cs.reverse).dropWhile isBlank = cs.reverse := by
    refine dropWhile_isBlank (fun c hc => hafter c (List.mem_reverse.mp hc)) fun c hc => ?_
    rw [List.head?_reverse] at hc
    exact hlast c hc
  rw [trimChars, List.append_assoc, hfront, List.reverse_append, hback, List.reverse_reverse]

theorem trimChars_append (h : ∀ c ∈ cs, isBlank c = false) :
    trimChars (before ++ cs ++ after) = cs := by
  by_cases hne : cs = []
  · have hall : ∀ c ∈ before ++ after, isBlank c = true :=
      List.forall_mem_append.mpr ⟨hbefore, hafter⟩
    rw [hne, trimChars, List.append_nil, List.dropWhile_eq_nil_iff.mpr hall]
    rfl
  · exact trimChars_of_ends hbefore hafter hne (fun c hc => h c (List.mem_of_head? hc))
      fun c hc => h c (List.mem_of_getLast? hc)

end Ends

/-- Blanks around a text that has none go away. -/
theorem trim_append {before text after : String} (h : ∀ c ∈ text.toList, isBlank c = false)
    (hbefore : ∀ c ∈ before.toList, isBlank c = true)
    (hafter : ∀ c ∈ after.toList, isBlank c = true) : trim (before ++ text ++ after) = text := by
  rw [trim, String.toList_append, String.toList_append, trimChars_append hbefore hafter h,
    String.ofList_toList]

section Separator

variable {sep : Char}

theorem ne_of_not_mem (h : sep ∉ cs) : ∀ c ∈ cs, decide (c ≠ sep) = true := by
  intro c hc
  rw [decide_eq_true_eq]
  rintro rfl
  exact h hc

theorem takeWhile_of_not_mem (h : sep ∉ before) (after : List Char) :
    (before ++ sep :: after).takeWhile (· ≠ sep) = before ∧
      (before ++ sep :: after).dropWhile (· ≠ sep) = sep :: after := by
  have passes := ne_of_not_mem h
  rw [List.takeWhile_append_of_pos passes, List.dropWhile_append_of_pos passes]
  simp

theorem not_mem_takeWhile (sep : Char) (cs : List Char) : sep ∉ cs.takeWhile (· ≠ sep) := by
  intro hmem
  simpa using List.mem_takeWhile_imp hmem

/-- What is left of a text begins with the separator. -/
theorem eq_of_dropWhile {c : Char} {rest : List Char} (h : cs.dropWhile (· ≠ sep) = c :: rest) :
    c = sep ∧ cs = cs.takeWhile (· ≠ sep) ++ sep :: rest := by
  have hc : c = sep := by
    have stops := List.head?_dropWhile_not (fun x => decide (x ≠ sep)) cs
    rw [h] at stops
    simpa using stops
  refine ⟨hc, ?_⟩
  rw [← hc, ← h, hc, List.takeWhile_append_dropWhile]

end Separator

end TronCourier.Text
