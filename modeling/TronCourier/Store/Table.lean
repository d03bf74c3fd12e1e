/-! Finite tables. Rows keep the order in which their keys came in, and a key's
row is replaced in its place. -/

namespace TronCourier

structure Table (κ α : Type) where
  rows : List (κ × α)
deriving Repr

namespace Table

variable {κ α : Type} [DecidableEq κ]

def empty : Table κ α := ⟨[]⟩

def get? (t : Table κ α) (k : κ) : Option α :=
  (t.rows.find? fun row => row.1 = k).map Prod.snd

def contains (t : Table κ α) (k : κ) : Bool :=
  (t.get? k).isSome

def keys (t : Table κ α) : List κ :=
  t.rows.map Prod.fst

def size (t : Table κ α) : Nat :=
  t.rows.length

def put (k : κ) (a : α) : List (κ × α) → List (κ × α)
  | [] => [(k, a)]
  | row :: rest => if row.1 = k then (k, a) :: rest else row :: put k a rest

def insert (t : Table κ α) (k : κ) (a : α) : Table κ α :=
  ⟨put k a t.rows⟩

def erase (t : Table κ α) (k : κ) : Table κ α :=
  ⟨t.rows.filter fun row => row.1 ≠ k⟩

def eraseAll (t : Table κ α) (ks : List κ) : Table κ α :=
  ks.foldl erase t

@[simp] theorem get?_empty (k : κ) : (empty : Table κ α).get? k = none := rfl

theorem get?_insert (t : Table κ α) (k k' : κ) (a : α) :
    (t.insert k a).get? k' = if k = k' then some a else t.get? k' := by
  obtain ⟨rows⟩ := t
  simp only [insert, get?]
  induction rows with
  | nil => by_cases h : k = k' <;> simp [put, h]
  | cons row rest ih =>
    obtain ⟨key, value⟩ := row
    by_cases hk : key = k
    · subst hk
      by_cases h : key = k' <;> simp [put, h]
    · by_cases h : key = k'
      · subst h
        simp [put, hk, Ne.symm hk]
      · simp only [put, hk, if_false, List.find?_cons, h, decide_false]
        exact ih

theorem get?_erase (t : Table κ α) (k k' : κ) :
    (t.erase k).get? k' = if k = k' then none else t.get? k' := by
  obtain ⟨rows⟩ := t
  simp only [erase, get?]
  induction rows with
  | nil => simp
  | cons row rest ih =>
    obtain ⟨key, value⟩ := row
    by_cases hk : key = k
    · subst hk
      simp only [List.filter_cons, ne_eq, not_true_eq_false, decide_false, List.find?_cons]
      by_cases h : key = k' <;> simp_all
    · by_cases h : key = k'
      · subst h
        simp [hk, Ne.symm hk]
      · simp only [List.filter_cons, hk, ne_eq, not_false_eq_true, decide_true, if_true,
          List.find?_cons, h, decide_false]
        exact ih

theorem get?_eraseAll (t : Table κ α) (ks : List κ) (k' : κ) :
    (t.eraseAll ks).get? k' = if k' ∈ ks then none else t.get? k' := by
  simp only [eraseAll]
  induction ks generalizing t with
  | nil => simp
  | cons k ks ih =>
    rw [List.foldl_cons, ih, get?_erase]
    by_cases hk : k = k'
    · simp [hk]
    · simp [hk, Ne.symm hk]

theorem mem_keys_iff (t : Table κ α) (k : κ) : k ∈ t.keys ↔ t.contains k = true := by
  simp [keys, contains, get?]

theorem keys_insert (t : Table κ α) (k : κ) (a : α) :
    (t.insert k a).keys = if k ∈ t.keys then t.keys else t.keys ++ [k] := by
  obtain ⟨rows⟩ := t
  simp only [insert, keys]
  induction rows with
  | nil => simp [put]
  | cons row rest ih =>
    by_cases hk : row.1 = k
    · simp [put, hk]
    · by_cases hm : k ∈ rest.map Prod.fst
      · simp [put, hk, Ne.symm hk, ih, hm]
      · simp [put, hk, Ne.symm hk, ih, hm]

theorem keys_erase (t : Table κ α) (k : κ) :
    (t.erase k).keys = t.keys.filter (· ≠ k) := by
  simp [erase, keys, List.filter_map, Function.comp_def]

theorem nodup_keys_insert {t : Table κ α} (h : t.keys.Nodup) (k : κ) (a : α) :
    (t.insert k a).keys.Nodup := by
  rw [keys_insert]
  split
  · exact h
  · rename_i hk
    exact List.nodup_append.mpr ⟨h, by simp, fun b hb c hc e => hk (by simp_all)⟩

theorem nodup_keys_erase {t : Table κ α} (h : t.keys.Nodup) (k : κ) :
    (t.erase k).keys.Nodup := by
  rw [keys_erase]
  exact h.sublist List.filter_sublist

/-- While no key has two rows, the rows are what look-ups find. -/
theorem mem_rows_iff {t : Table κ α} (h : t.keys.Nodup) (k : κ) (a : α) :
    (k, a) ∈ t.rows ↔ t.get? k = some a := by
  obtain ⟨rows⟩ := t
  simp only [keys, get?] at *
  induction rows with
  | nil => simp
  | cons row rest ih =>
    obtain ⟨key, value⟩ := row
    have hrest := List.nodup_cons.mp h
    by_cases hk : key = k
    · subst hk
      have : (key, a) ∉ rest := fun hm => hrest.1 (List.mem_map.mpr ⟨(key, a), hm, rfl⟩)
      simp [this, eq_comm]
    · simp [hk, Ne.symm hk, ih hrest.2]

end Table

end TronCourier
