import TronCourier.Json.Record
import Mathlib.Data.List.Forall2
import Mathlib.Data.List.Nodup

/-! Values of JSON up to the order of the members of objects, and readers to which that order
is of no account. -/

namespace TronCourier.Json

/-- The same value with the members of objects in another order, at any depth. -/
inductive Reordered : Json → Json → Prop
  | refl (j : Json) : Reordered j j
  | arr {items items' : List Json} (h : List.Forall₂ Reordered items items') :
      Reordered (.arr items) (.arr items')
  | obj {members listed members' : List (String × Json)}
      (hnames : members.map Prod.fst = listed.map Prod.fst)
      (hvalues : List.Forall₂ Reordered (members.map Prod.snd) (listed.map Prod.snd))
      (hperm : listed.Perm members') : Reordered (.obj members) (.obj members')

/-- A reader takes a value for x in whichever order its members are. -/
def ReadsAs {α : Type} (read : Json → Option α) (j : Json) (x : α) : Prop :=
  ∀ j', j.Reordered j' → read j' = some x

/-- Of the fields that are asked for, those are given that are among some members. -/
structure Fields.Shows (fs : Fields) (names : List String) (members : List (String × Json)) :
    Prop where
  given : ∀ name ∈ names, ∀ j, (name, j) ∈ members → ∃ j', fs.find name = some j' ∧ j.Reordered j'
  missing : ∀ name, name ∉ members.map Prod.fst → fs.find name = none

variable {α : Type} {read : Json → Option α} {x : α} {j j' : Json} {fs : Fields}
  {name : String} {names : List String} {members listed : List (String × Json)}

namespace Reordered

theorem eq_str {s : String} (h : Reordered (.str s) j') : j' = .str s := by
  cases h
  rfl

theorem eq_int {n : Int} (h : Reordered (.int n) j') : j' = .int n := by
  cases h
  rfl

theorem eq_bool {b : Bool} (h : Reordered (.bool b) j') : j' = .bool b := by
  cases h
  rfl

theorem exists_arr {items : List Json} (h : Reordered (.arr items) j') :
    ∃ items', j' = .arr items' ∧ List.Forall₂ Reordered items items' := by
  cases h with
  | refl => exact ⟨items, rfl, List.forall₂_same.mpr fun j _ => .refl j⟩
  | arr h => exact ⟨_, rfl, h⟩

theorem exists_member (hnames : members.map Prod.fst = listed.map Prod.fst)
    (hvalues : List.Forall₂ Reordered (members.map Prod.snd) (listed.map Prod.snd))
    (h : (name, j) ∈ members) : ∃ j', (name, j') ∈ listed ∧ j.Reordered j' := by
  induction members generalizing listed with
  | nil => cases h
  | cons m members ih =>
    cases listed with
    | nil => cases hnames
    | cons m' listed =>
      obtain ⟨hname, hnames⟩ := List.cons.inj hnames
      obtain ⟨hvalue, hvalues⟩ := List.forall₂_cons.mp hvalues
      rcases List.mem_cons.mp h with rfl | h
      · exact ⟨m'.2, List.mem_cons.mpr (.inl (Prod.ext hname rfl)), hvalue⟩
      · obtain ⟨j', hj', hj⟩ := ih hnames hvalues h
        exact ⟨j', List.mem_cons_of_mem _ hj', hj⟩

theorem exists_obj (h : Reordered (.obj members) j') : ∃ members', j' = .obj members' ∧
    (members'.map Prod.fst).Perm (members.map Prod.fst) ∧
    ∀ name j, (name, j) ∈ members → ∃ j', (name, j') ∈ members' ∧ j.Reordered j' := by
  cases h with
  | refl => exact ⟨members, rfl, .rfl, fun name j hj => ⟨j, hj, .refl j⟩⟩
  | obj hnames hvalues hperm =>
    refine ⟨_, rfl, ?_, fun name j hj => ?_⟩
    · rw [hnames]
      exact (hperm.map _).symm
    · obtain ⟨j', hj', h⟩ := exists_member hnames hvalues hj
      exact ⟨j', hperm.mem_iff.mp hj', h⟩

end Reordered

/-! ### Fields -/

theorem find?_of_mem (hnames : (members.map Prod.fst).Nodup) (h : (name, j) ∈ members) :
    members.find? (fun m => m.1 == name) = some (name, j) := by
  induction members with
  | nil => cases h
  | cons m members ih =>
    rw [List.map_cons, List.nodup_cons] at hnames
    rcases List.mem_cons.mp h with rfl | h
    · exact List.find?_cons_of_pos (by simp)
    · have hne : m.1 ≠ name := by
        rintro rfl
        exact hnames.1 (List.mem_map.mpr ⟨_, h, rfl⟩)
      rw [List.find?_cons_of_neg (by simpa using hne), ih hnames.2 h]

theorem Fields.find_eq_none {listed : Bool} {p : String × Json → Bool}
    (h : name ∉ members.map Prod.fst) : (Fields.mk listed (members.filter p)).find name = none := by
  have hnone : (members.filter p).find? (fun m => m.1 == name) = none := by
    rw [List.find?_eq_none]
    exact fun m hm heq =>
      h (List.mem_map.mpr ⟨m, (List.mem_filter.mp hm).1, by simpa using heq⟩)
  rw [find, hnone]
  rfl

theorem Reordered.fields? (h : Reordered (.obj members) j')
    (hnames : (members.map Prod.fst).Nodup) (names : List String) :
    ∃ fs, j'.fields? names = some fs ∧ fs.Shows names members := by
  obtain ⟨members', rfl, hperm, hvalues⟩ := h.exists_obj
  have hnodup : ((members'.filter fun m => names.contains m.1).map Prod.fst).Nodup :=
    (hperm.nodup_iff.mpr hnames).sublist (List.filter_sublist.map _)
  refine ⟨⟨false, members'.filter fun m => names.contains m.1⟩, if_pos hnodup, ?_, ?_⟩
  · intro name hname j hj
    obtain ⟨j', hj', hsame⟩ := hvalues name j hj
    have hasked : (name, j') ∈ members'.filter fun m => names.contains m.1 :=
      List.mem_filter.mpr ⟨hj', by simpa using hname⟩
    refine ⟨j', ?_, hsame⟩
    rw [Fields.find, find?_of_mem hnodup hasked]
    rfl
  · exact fun name hname => Fields.find_eq_none fun h => hname (hperm.mem_iff.mp h)

theorem Fields.Shows.required (h : fs.Shows names members) (hname : name ∈ names)
    (hj : (name, j) ∈ members) (hread : ReadsAs read j x) : fs.required name read = some x := by
  obtain ⟨j', hfind, hsame⟩ := h.given name hname j hj
  rw [Fields.required, hfind, Option.bind_some, hread j' hsame]

theorem Fields.Shows.withDefault (h : fs.Shows names members) (hname : name ∈ names)
    (hj : (name, j) ∈ members) (hread : ReadsAs read j x) (value : α) :
    fs.withDefault name value read = some x := by
  obtain ⟨j', hfind, hsame⟩ := h.given name hname j hj
  rw [Fields.withDefault, hfind]
  exact hread j' hsame

theorem Fields.Shows.withDefault_missing (h : fs.Shows names members)
    (hname : name ∉ members.map Prod.fst) (value : α) (read : Json → Option α) :
    fs.withDefault name value read = some value := by
  rw [Fields.withDefault, h.missing name hname]

/-! ### Readers -/

theorem readsAs_str? (s : String) : ReadsAs str? (.str s) s := by
  intro j' h
  rw [h.eq_str]
  rfl

theorem readsAs_bool? (b : Bool) : ReadsAs bool? (.bool b) b := by
  intro j' h
  rw [h.eq_bool]
  rfl

theorem readsAs_int64? {n : Int} (hn : int64Min ≤ n ∧ n ≤ int64Max) :
    ReadsAs int64? (.int n) n := by
  intro j' h
  rw [h.eq_int]
  exact if_pos hn

theorem readsAs_listOf? {write : α → Json} {xs : List α}
    (h : ∀ x ∈ xs, ReadsAs read (write x) x) :
    ReadsAs (listOf? read) (.arr (xs.map write)) xs := by
  intro j' hj
  obtain ⟨items, rfl, hitems⟩ := hj.exists_arr
  clear hj
  show items.mapM read = some xs
  induction xs generalizing items with
  | nil =>
    cases hitems
    rfl
  | cons x xs ih =>
    obtain _ | ⟨hx, hxs⟩ := hitems
    rw [List.mapM_cons, h x List.mem_cons_self _ hx,
      ih (fun x hx => h x (List.mem_cons_of_mem _ hx)) _ hxs]
    rfl

end TronCourier.Json
