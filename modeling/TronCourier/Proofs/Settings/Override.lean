import TronCourier.Settings.Basic
import Mathlib.Data.List.Perm.Basic

/-! Variables that replace settings. Each of them writes one setting, and no two of different
names write the same, so that the order in which they come is of no account. -/

namespace TronCourier.Settings

/-- The settings that a variable can replace. -/
inductive Replaceable
  | queueCapacity
  | confirmPollSecs
  | energyMultiplier
  | retentionSecs
  | reapIntervalSecs
  | maxAttempts
  | defaultPrice
  | lifetime
deriving DecidableEq

namespace Replaceable

def suffix : Replaceable → String
  | queueCapacity => "BROADCAST_CHAN_SIZE"
  | confirmPollSecs => "CONFIRM_POLL_SECS"
  | energyMultiplier => "ENERGY_MULTIPLIER"
  | retentionSecs => "RETENTION_PERIOD_SECS"
  | reapIntervalSecs => "REAP_INTERVAL_SECS"
  | maxAttempts => "MAX_ATTEMPTS"
  | defaultPrice => "DEFAULT_ENERGY_UNIT_PRICE"
  | lifetime => "TX_EXPIRATION_MS"

/-- The name of the variable that replaces a setting. -/
def variableName (x : Replaceable) : String :=
  variableMarker ++ x.suffix

def Value : Replaceable → Type
  | energyMultiplier => Binary64
  | defaultPrice | lifetime => Int
  | queueCapacity | confirmPollSecs | retentionSecs | reapIntervalSecs | maxAttempts => Nat

def read? : (x : Replaceable) → String → Option x.Value
  | queueCapacity | confirmPollSecs | retentionSecs | reapIntervalSecs => natural? nat64Max
  | maxAttempts => natural? nat32Max
  | defaultPrice | lifetime => integer?
  | energyMultiplier => Text.readBinary64

def get (s : Settings) : (x : Replaceable) → x.Value
  | queueCapacity => s.queueCapacity
  | confirmPollSecs => s.confirmPollSecs
  | energyMultiplier => s.energyMultiplier
  | retentionSecs => s.retentionSecs
  | reapIntervalSecs => s.reapIntervalSecs
  | maxAttempts => s.maxAttempts
  | defaultPrice => s.defaultPrice
  | lifetime => s.lifetime

def put (s : Settings) : (x : Replaceable) → x.Value → Settings
  | queueCapacity, n => { s with queueCapacity := n }
  | confirmPollSecs, n => { s with confirmPollSecs := n }
  | energyMultiplier, m => { s with energyMultiplier := m }
  | retentionSecs, n => { s with retentionSecs := n }
  | reapIntervalSecs, n => { s with reapIntervalSecs := n }
  | maxAttempts, n => { s with maxAttempts := n }
  | defaultPrice, n => { s with defaultPrice := n }
  | lifetime, n => { s with lifetime := n }

def variableNames : List String :=
  [queueCapacity, confirmPollSecs, energyMultiplier, retentionSecs, reapIntervalSecs, maxAttempts,
    defaultPrice, lifetime].map variableName

theorem mem_variableNames {name : String} :
    name ∈ variableNames ↔ ∃ x : Replaceable, x.variableName = name := by
  constructor
  · intro h
    obtain ⟨x, -, hx⟩ := List.mem_map.mp h
    exact ⟨x, hx⟩
  · rintro ⟨x, rfl⟩
    cases x <;> decide

theorem variableName_inj {x y : Replaceable} (h : x.variableName = y.variableName) : x = y := by
  have h : x.suffix = y.suffix := by
    simpa [variableName] using h
  revert h
  cases x <;> cases y <;> decide

end Replaceable

/-- The settings that no variable can replace. -/
def irreplaceable (s : Settings) : Nat × Nat × Nat × Nat × ResultCodes :=
  (s.maxOutOfTime, s.retryDelayMs, s.maxRetrySecs, s.priceRefreshSecs, s.resultCodes)

variable {s s' : Settings} {x y : Replaceable} {name value : String}
  {vars vars' rest : List (String × String)}

namespace Replaceable

@[simp]
theorem get_put_self (s : Settings) (x : Replaceable) (v : x.Value) : x.get (x.put s v) = v := by
  cases x <;> rfl

theorem get_put_of_ne (h : y ≠ x) (v : x.Value) : get (put s x v) y = get s y := by
  cases x <;> cases y <;> first | rfl | exact absurd rfl h

theorem irreplaceable_put (s : Settings) (x : Replaceable) (v : x.Value) :
    (put s x v).irreplaceable = s.irreplaceable := by
  cases x <;> rfl

end Replaceable

theorem eq_of_get (h : s.irreplaceable = s'.irreplaceable)
    (hget : ∀ x : Replaceable, x.get s = x.get s') : s = s' := by
  cases s
  cases s'
  cases h
  cases hget .queueCapacity
  cases hget .confirmPollSecs
  cases hget .energyMultiplier
  cases hget .retentionSecs
  cases hget .reapIntervalSecs
  cases hget .maxAttempts
  cases hget .defaultPrice
  cases hget .lifetime
  rfl

/-! ### One variable -/

theorem replace?_suffix (s : Settings) (x : Replaceable) (value : String) :
    s.replace? x.suffix value = (x.read? value).map (x.put s) := by
  cases x <;> rfl

theorem replace?_of_ne (h : ∀ x : Replaceable, x.suffix ≠ name) (value : String) :
    s.replace? name value = some s := by
  unfold replace?
  split
  · exact absurd rfl (h .queueCapacity)
  · exact absurd rfl (h .confirmPollSecs)
  · exact absurd rfl (h .energyMultiplier)
  · exact absurd rfl (h .retentionSecs)
  · exact absurd rfl (h .reapIntervalSecs)
  · exact absurd rfl (h .maxAttempts)
  · exact absurd rfl (h .defaultPrice)
  · exact absurd rfl (h .lifetime)
  · rfl

theorem override_variableName (s : Settings) (x : Replaceable) (value : String)
    (rest : List (String × String)) :
    s.override ((x.variableName, value) :: rest) =
      match x.read? value with
      | some v => (x.put s v).override rest
      | none => (s, some (.badOverride x.variableName value)) := by
  have hmarked : variableMarker.toList.isPrefixOf x.variableName.toList = true := by
    rw [Replaceable.variableName, String.toList_append]
    simp
  have hsuffix : String.ofList (x.variableName.toList.drop variableMarker.length) = x.suffix := by
    rw [Replaceable.variableName, String.toList_append, ← String.length_toList]
    simp
  rw [override, if_pos hmarked, hsuffix, replace?_suffix]
  cases x.read? value <;> rfl

theorem override_of_ne (h : ∀ x : Replaceable, x.variableName ≠ name) (value : String) :
    s.override ((name, value) :: rest) = s.override rest := by
  rw [override]
  split
  · rename_i hmarked
    obtain ⟨suffix, hname⟩ := List.isPrefixOf_iff_prefix.mp hmarked
    have hsuffix : ∀ x : Replaceable,
        x.suffix ≠ String.ofList (name.toList.drop variableMarker.length) := by
      intro x hx
      refine h x (String.toList_inj.mp ?_)
      rw [Replaceable.variableName, String.toList_append, hx, ← hname, ← String.length_toList]
      simp
    rw [replace?_of_ne hsuffix]
  · rfl

/-! ### All variables -/

/-- The induction on the variables, with the first of them one that replaces a setting and can
be read, one that replaces a setting and cannot, or one that replaces none. -/
@[elab_as_elim]
theorem override_induction {P : Settings → List (String × String) → Prop}
    (nil : ∀ s, P s [])
    (read : ∀ s (x : Replaceable) value v rest, x.read? value = some v → P (x.put s v) rest →
      P s ((x.variableName, value) :: rest))
    (unread : ∀ s (x : Replaceable) value rest, x.read? value = none →
      P s ((x.variableName, value) :: rest))
    (other : ∀ s name value rest, (∀ x : Replaceable, x.variableName ≠ name) → P s rest →
      P s ((name, value) :: rest)) (s : Settings) (vars : List (String × String)) : P s vars := by
  induction vars generalizing s with
  | nil => exact nil s
  | cons var rest ih =>
    obtain ⟨name, value⟩ := var
    by_cases hname : ∃ x : Replaceable, x.variableName = name
    · obtain ⟨x, rfl⟩ := hname
      cases hread : x.read? value with
      | none => exact unread s x value rest hread
      | some v => exact read s x value v rest hread (ih _)
    · exact other s name value rest (fun x hx => hname ⟨x, hx⟩) (ih s)

theorem override_of_read (s : Settings) {v : x.Value} (h : x.read? value = some v)
    (rest : List (String × String)) :
    s.override ((x.variableName, value) :: rest) = (x.put s v).override rest := by
  rw [override_variableName, h]

theorem override_of_unread (s : Settings) (h : x.read? value = none)
    (rest : List (String × String)) :
    s.override ((x.variableName, value) :: rest) =
      (s, some (.badOverride x.variableName value)) := by
  rw [override_variableName, h]

theorem override_eq_none_iff : (s.override vars).2 = none ↔
    ∀ (x : Replaceable) (value : String), (x.variableName, value) ∈ vars →
      (x.read? value).isSome := by
  induction s, vars using override_induction with
  | nil s => exact ⟨fun _ => nofun, fun _ => rfl⟩
  | read s x value v rest hread ih =>
    rw [override_of_read s hread, ih]
    refine ⟨fun h y other hy => ?_, fun h y other hy => h y other (List.mem_cons_of_mem _ hy)⟩
    rcases List.mem_cons.mp hy with heq | hy
    · obtain ⟨hname, rfl⟩ := Prod.mk.inj heq
      cases Replaceable.variableName_inj hname
      exact Option.isSome_of_eq_some hread
    · exact h y other hy
  | unread s x value rest hread =>
    rw [override_of_unread s hread]
    refine ⟨nofun, fun h => ?_⟩
    have hsome := h x value List.mem_cons_self
    rw [hread] at hsome
    cases hsome
  | other s name value rest hname ih =>
    rw [override_of_ne hname, ih]
    refine ⟨fun h y other hy => ?_, fun h y other hy => h y other (List.mem_cons_of_mem _ hy)⟩
    rcases List.mem_cons.mp hy with heq | hy
    · exact absurd (Prod.mk.inj heq).1 (hname y)
    · exact h y other hy

theorem get_override_of_not_mem (h : ∀ value, (x.variableName, value) ∉ vars) :
    x.get (s.override vars).1 = x.get s := by
  induction s, vars using override_induction with
  | nil s => rfl
  | read s y value v rest hread ih =>
    have hne : x ≠ y := by
      rintro rfl
      exact h value List.mem_cons_self
    rw [override_of_read s hread, ih fun value hvalue => h value (List.mem_cons_of_mem _ hvalue),
      Replaceable.get_put_of_ne hne]
  | unread s y value rest hread => rw [override_of_unread s hread]
  | other s name value rest hname ih =>
    rw [override_of_ne hname, ih fun value hvalue => h value (List.mem_cons_of_mem _ hvalue)]

theorem get_override_of_mem (hnames : (vars.map Prod.fst).Nodup)
    (hdone : (s.override vars).2 = none) (h : (x.variableName, value) ∈ vars) :
    some (x.get (s.override vars).1) = x.read? value := by
  induction s, vars using override_induction with
  | nil s => cases h
  | read s y other v rest hread ih =>
    rw [List.map_cons, List.nodup_cons] at hnames
    rw [override_of_read s hread] at hdone ⊢
    rcases List.mem_cons.mp h with heq | h
    · obtain ⟨hname, rfl⟩ := Prod.mk.inj heq
      cases Replaceable.variableName_inj hname
      have hgone : ∀ value, (x.variableName, value) ∉ rest := fun value hvalue =>
        hnames.1 (List.mem_map.mpr ⟨_, hvalue, rfl⟩)
      rw [get_override_of_not_mem hgone, Replaceable.get_put_self, hread]
    · exact ih hnames.2 hdone h
  | unread s y other rest hread =>
    rw [override_of_unread s hread] at hdone
    cases hdone
  | other s name other rest hname ih =>
    rw [List.map_cons, List.nodup_cons] at hnames
    rw [override_of_ne hname] at hdone ⊢
    rcases List.mem_cons.mp h with heq | h
    · exact absurd (Prod.mk.inj heq).1 (hname x)
    · exact ih hnames.2 hdone h

theorem irreplaceable_override (s : Settings) (vars : List (String × String)) :
    (s.override vars).1.irreplaceable = s.irreplaceable := by
  induction s, vars using override_induction with
  | nil s => rfl
  | read s x value v rest hread ih =>
    rw [override_of_read s hread, ih, Replaceable.irreplaceable_put]
  | unread s x value rest hread => rw [override_of_unread s hread]
  | other s name value rest hname ih => rw [override_of_ne hname, ih]

theorem override_filter (s : Settings) (vars : List (String × String)) :
    s.override (vars.filter (·.1 ∈ Replaceable.variableNames)) = s.override vars := by
  induction s, vars using override_induction with
  | nil s => rfl
  | read s x value v rest hread ih =>
    have hx : x.variableName ∈ Replaceable.variableNames :=
      Replaceable.mem_variableNames.mpr ⟨x, rfl⟩
    rw [List.filter_cons_of_pos (by simpa using hx), override_of_read s hread, ih,
      override_of_read s hread]
  | unread s x value rest hread =>
    have hx : x.variableName ∈ Replaceable.variableNames :=
      Replaceable.mem_variableNames.mpr ⟨x, rfl⟩
    rw [List.filter_cons_of_pos (by simpa using hx), override_of_unread s hread,
      override_of_unread s hread]
  | other s name value rest hname ih =>
    have hx : name ∉ Replaceable.variableNames := fun hx =>
      (Replaceable.mem_variableNames.mp hx).elim hname
    rw [List.filter_cons_of_neg (by simpa using hx), ih, override_of_ne hname]

/-- What variables make of settings depends on which they are, and on what the settings are
besides those that they replace. -/
theorem override_congr (hperm : vars.Perm vars') (hnames : (vars.map Prod.fst).Nodup)
    (hdone : (s.override vars).2 = none) (hs : s'.irreplaceable = s.irreplaceable)
    (hget : ∀ x : Replaceable, (∀ value, (x.variableName, value) ∉ vars) → x.get s' = x.get s) :
    s'.override vars' = s.override vars := by
  have hdone' : (s'.override vars').2 = none := by
    rw [override_eq_none_iff] at hdone ⊢
    exact fun x value hvalue => hdone x value (hperm.mem_iff.mpr hvalue)
  have hnames' : (vars'.map Prod.fst).Nodup := (hperm.map _).nodup_iff.mp hnames
  refine Prod.ext (eq_of_get ?_ fun x => ?_) (hdone'.trans hdone.symm)
  · rw [irreplaceable_override, irreplaceable_override, hs]
  · by_cases hx : ∃ value, (x.variableName, value) ∈ vars
    · obtain ⟨value, hvalue⟩ := hx
      rw [← Option.some_inj, get_override_of_mem hnames' hdone' (hperm.mem_iff.mp hvalue),
        get_override_of_mem hnames hdone hvalue]
    · have hgone : ∀ value, (x.variableName, value) ∉ vars := fun value hvalue =>
        hx ⟨value, hvalue⟩
      rw [get_override_of_not_mem hgone, ← hget x hgone]
      exact get_override_of_not_mem fun value hvalue => hgone value (hperm.mem_iff.mpr hvalue)

/-- Variables of different names give the same in every order. All of them can be read or there
is an error. The ones that name no setting are of no account. After a success a setting is what
its variable says and is kept where it has none, and the same variables change nothing more. -/
theorem override_order_irrelevant (hperm : vars.Perm vars') (hnames : (vars.map Prod.fst).Nodup) :
    ((s.override vars).2 = none ↔ (s.override vars').2 = none) ∧
    ((s.override vars).2 = none ↔
      ∀ (x : Replaceable) value, (x.variableName, value) ∈ vars → (x.read? value).isSome) ∧
    s.override (vars.filter (·.1 ∈ Replaceable.variableNames)) = s.override vars ∧
    ((s.override vars).2 = none →
      s.override vars' = s.override vars ∧
      (∀ (x : Replaceable) value, (x.variableName, value) ∈ vars →
        x.read? value = some (x.get (s.override vars).1)) ∧
      (∀ x : Replaceable, (∀ value, (x.variableName, value) ∉ vars) →
        x.get (s.override vars).1 = x.get s) ∧
      (s.override vars).1.irreplaceable = s.irreplaceable ∧
      (s.override vars).1.override vars = ((s.override vars).1, none)) := by
  have hsame : (s.override vars).2 = none ↔ (s.override vars').2 = none := by
    rw [override_eq_none_iff, override_eq_none_iff]
    exact forall₂_congr fun x value => by rw [hperm.mem_iff]
  refine ⟨hsame, override_eq_none_iff, override_filter s vars, fun hdone => ⟨?_, ?_, ?_, ?_, ?_⟩⟩
  · exact override_congr hperm hnames hdone rfl fun _ _ => rfl
  · exact fun x value hvalue => (get_override_of_mem hnames hdone hvalue).symm
  · exact fun x hx => get_override_of_not_mem hx
  · exact irreplaceable_override s vars
  · rw [override_congr (.refl vars) hnames hdone (irreplaceable_override s vars)
      fun x => get_override_of_not_mem]
    exact Prod.ext rfl hdone

/-- Three settings are replaced, in whichever order their variables come. -/
theorem override_order_irrelevant_default :
    let vars := [("TRON_TXM_MAX_ATTEMPTS", "3"), ("UNRELATED", "x"),
      ("TRON_TXM_ENERGY_MULTIPLIER", "2.5"), ("TRON_TXM_TX_EXPIRATION_MS", "-1")]
    let s : Settings :=
      { maxAttempts := 3, energyMultiplier := ⟨false, 0x4004000000000000⟩, lifetime := -1 }
    override {} vars = (s, none) ∧ override {} vars.reverse = (s, none) ∧
      override s vars = (s, none) := by
  intro vars s
  have hs : override {} vars = (s, none) := by decide +kernel
  obtain ⟨-, -, -, hdone⟩ := override_order_irrelevant (s := {}) vars.reverse_perm.symm (by decide)
  rw [hs] at hdone
  obtain ⟨hreverse, -, -, -, hagain⟩ := hdone rfl
  exact ⟨hs, hreverse, hagain⟩

end TronCourier.Settings
