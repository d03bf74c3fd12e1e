import Mathlib
import TronCourier.Proofs.Abi.Signed

/-! The names of types. A name is one of a base type and any number of suffixes, which apply from
left to right. Blanks may stand around it and before each suffix, and nowhere else. -/

namespace TronCourier

namespace AbiType

/-- Decimal digits, with a plus sign before them or not, write a number of 64 bits. -/
def Writes (n : Nat) (cs : List Char) : Prop :=
  ∃ digits, (cs = digits ∨ cs = '+' :: digits) ∧ Abi.decimal? digits = some n ∧ n ≤ nat64Max

inductive BaseName : List Char → AbiType → Prop
  | address : BaseName "address".toList address
  | bool : BaseName "bool".toList bool
  | bytes : BaseName "bytes".toList bytes
  | string : BaseName "string".toList string
  | uint : BaseName "uint".toList (uint 256)
  | int : BaseName "int".toList (int 256)
  | sizedUint {bits : Nat} {cs : List Char} (written : Writes bits cs) (octets : 8 ∣ bits)
      (low : 8 ≤ bits) (high : bits ≤ 256) : BaseName ("uint".toList ++ cs) (.uint bits)
  | sizedInt {bits : Nat} {cs : List Char} (written : Writes bits cs) (octets : 8 ∣ bits)
      (low : 8 ≤ bits) (high : bits ≤ 256) : BaseName ("int".toList ++ cs) (.int bits)
  | fixedBytes {count : Nat} {cs : List Char} (written : Writes count cs) (low : 1 ≤ count)
      (high : count ≤ 32) : BaseName ("bytes".toList ++ cs) (.fixedBytes count)

/-- What may stand between brackets: nothing, or how many items there are. -/
inductive Size : List Char → Option Nat → Prop
  | open : Size [] none
  | fixed {n : Nat} {cs : List Char} (written : Writes n cs) : Size cs (some n)

/-- Brackets behind a name, and the blanks before them. -/
structure Suffix where
  gap : List Char
  size : List Char
  count : Option Nat
  blank : ∀ c ∈ gap, Text.isBlank c = true
  sized : Size size count

def Suffix.text (x : Suffix) : List Char :=
  x.gap ++ ('[' :: x.size ++ [']'])

/-- The type of the arrays of items of a type. -/
def arrayOf (item : AbiType) : Option Nat → AbiType
  | none => array item
  | some n => fixedArray item n

/-- A text names the type that comes of a base type by the suffixes from left to right. -/
def Names (cs : List Char) (t : AbiType) : Prop :=
  ∃ before base after, ∃ suffixes : List Suffix, ∃ t₀,
    (∀ c ∈ before, Text.isBlank c = true) ∧ (∀ c ∈ after, Text.isBlank c = true) ∧
    BaseName base t₀ ∧ cs = before ++ (base ++ suffixes.flatMap Suffix.text) ++ after ∧
    t = (suffixes.map Suffix.count).foldl arrayOf t₀

variable {cs inner size : List Char} {n : Nat} {t item : AbiType} {count : Option Nat}

theorem count?_eq_some_iff : count? cs = some n ↔ Writes n cs := by
  have hread : count? cs = some n ↔ Text.readNat nat64Max cs = .ok n := by
    rw [count?]
    cases Text.readNat nat64Max cs with
    | ok m => simp [Except.toOption]
    | error e => simp [Except.toOption]
  rw [hread, Abi.readNat_eq_ok_iff]
  constructor
  · rintro ⟨hminus, hsigned, hle⟩
    unfold Abi.signedDecimal? at hsigned
    split at hsigned
    · exact absurd rfl (hminus _)
    · obtain ⟨m, hm, hn⟩ := Option.map_eq_some_iff.mp hsigned
      obtain rfl : m = n := Int.ofNat.inj hn
      exact ⟨_, .inr rfl, hm, hle⟩
    · obtain ⟨m, hm, hn⟩ := Option.map_eq_some_iff.mp hsigned
      obtain rfl : m = n := Int.ofNat.inj hn
      exact ⟨_, .inl rfl, hm, hle⟩
  · rintro ⟨digits, hcs, hdigits, hle⟩
    have hmark {c : Char} {r : List Char} (hc : Text.digit? c = none) : digits ≠ c :: r := by
      rintro rfl
      obtain ⟨-, ds, hds, -⟩ := Abi.decimal?_eq_some_iff.mp hdigits
      have hsome := Abi.isSome_digit? hds c List.mem_cons_self
      rw [hc] at hsome
      cases hsome
    have hminus : ∀ r, digits ≠ '-' :: r := fun r => hmark rfl
    have hplus : ∀ r, digits ≠ '+' :: r := fun r => hmark rfl
    rcases hcs with rfl | rfl
    · refine ⟨hminus, ?_, hle⟩
      unfold Abi.signedDecimal?
      split
      · exact absurd rfl (hminus _)
      · exact absurd rfl (hplus _)
      · rw [hdigits]
        rfl
    · refine ⟨fun r hr => by simp at hr, ?_, hle⟩
      rw [Abi.signedDecimal?, hdigits]
      rfl

theorem Writes.isBlank_eq_false (h : Writes n cs) {c : Char} (hc : c ∈ cs) :
    Text.isBlank c = false ∧ c ≠ '[' ∧ c ≠ ']' := by
  obtain ⟨digits, hcs, hdigits, -⟩ := h
  have hdigit : c = '+' ∨ (Text.digit? c).isSome = true := by
    obtain ⟨-, ds, hds, -⟩ := Abi.decimal?_eq_some_iff.mp hdigits
    have hall := Abi.isSome_digit? hds
    rcases hcs with rfl | rfl
    · exact .inr (hall c hc)
    · rcases List.mem_cons.mp hc with rfl | hc
      · exact .inl rfl
      · exact .inr (hall c hc)
  rcases hdigit with rfl | hdigit
  · decide
  · rw [Text.digit?] at hdigit
    split at hdigit
    · rename_i hrange
      refine ⟨isBlank_of_isDigit ?_, ?_, ?_⟩
      · simp only [Char.isDigit, ge_iff_le, Bool.and_eq_true, decide_eq_true_eq]
        exact hrange
      · rintro rfl
        exact absurd hrange.2 (by decide)
      · rintro rfl
        exact absurd hrange.2 (by decide)
    · cases hdigit

theorem Writes.ne_nil (h : Writes n cs) : cs ≠ [] := by
  obtain ⟨digits, rfl | rfl, hdigits, -⟩ := h
  · exact (Abi.decimal?_eq_some_iff.mp hdigits).1
  · exact List.cons_ne_nil _ _

theorem writes_toDigits (h : n ≤ nat64Max) : Writes n (Nat.toDigits 10 n) :=
  ⟨_, .inl rfl, Abi.decimal?_toDigits n, h⟩

theorem bitWidth?_eq_some_iff :
    bitWidth? cs = some n ↔ Writes n cs ∧ 8 ∣ n ∧ 8 ≤ n ∧ n ≤ 256 := by
  simp only [bitWidth?, Option.filter_eq_some_iff, count?_eq_some_iff, Bool.and_eq_true, beq_iff_eq,
    decide_eq_true_eq, Nat.dvd_iff_mod_eq_zero, and_assoc]

theorem byteWidth?_eq_some_iff : byteWidth? cs = some n ↔ Writes n cs ∧ 1 ≤ n ∧ n ≤ 32 := by
  simp only [byteWidth?, Option.filter_eq_some_iff, count?_eq_some_iff, Bool.and_eq_true,
    decide_eq_true_eq]

theorem BaseName.ne_nil (h : BaseName cs t) : cs ≠ [] := by
  cases h <;> simp

/-- A base name has neither blanks nor brackets. -/
theorem BaseName.not_mem (h : BaseName cs t) {c : Char} (hc : c ∈ cs) :
    Text.isBlank c = false ∧ c ≠ ']' := by
  have hsized {letters size : List Char} {n : Nat}
      (hletters : ∀ c ∈ letters, Text.isBlank c = false ∧ c ≠ ']') (written : Writes n size)
      (hc : c ∈ letters ++ size) : Text.isBlank c = false ∧ c ≠ ']' := by
    rcases List.mem_append.mp hc with hc | hc
    · exact hletters c hc
    · obtain ⟨hblank, -, hclose⟩ := written.isBlank_eq_false hc
      exact ⟨hblank, hclose⟩
  have hplain (letters : List Char)
      (hall : letters.all (fun c => !Text.isBlank c && c != ']') = true) :
      ∀ c ∈ letters, Text.isBlank c = false ∧ c ≠ ']' := by
    intro c hc
    simpa using List.all_eq_true.mp hall c hc
  cases h with
  | sizedUint written | sizedInt written | fixedBytes written =>
    exact hsized (hplain _ (by decide +kernel)) written hc
  | _ => exact hplain _ (by decide +kernel) c hc

theorem ofBaseName?_eq_some_iff : ofBaseName? cs = some t ↔ BaseName cs t := by
  constructor
  · intro h
    unfold ofBaseName? at h
    split at h
    · rename_i r
      split at h
      · rename_i hr
        cases h
        rw [List.isEmpty_iff.mp hr]
        exact .uint
      · obtain ⟨bits, hbits, rfl⟩ := Option.map_eq_some_iff.mp h
        obtain ⟨written, octets, low, high⟩ := bitWidth?_eq_some_iff.mp hbits
        exact .sizedUint written octets low high
    · rename_i r
      split at h
      · rename_i hr
        cases h
        rw [List.isEmpty_iff.mp hr]
        exact .int
      · obtain ⟨bits, hbits, rfl⟩ := Option.map_eq_some_iff.mp h
        obtain ⟨written, octets, low, high⟩ := bitWidth?_eq_some_iff.mp hbits
        exact .sizedInt written octets low high
    · rename_i r
      split at h
      · rename_i hr
        cases h
        rw [List.isEmpty_iff.mp hr]
        exact .bytes
      · obtain ⟨count, hcount, rfl⟩ := Option.map_eq_some_iff.mp h
        obtain ⟨written, low, high⟩ := byteWidth?_eq_some_iff.mp hcount
        exact .fixedBytes written low high
    · split at h
      · rename_i hcs
        cases h
        exact hcs ▸ .address
      · split at h
        · rename_i hcs
          cases h
          exact hcs ▸ .bool
        · split at h
          · rename_i hcs
            cases h
            exact hcs ▸ .string
          · cases h
  · intro h
    cases h with
    | sizedUint written octets low high =>
      have hne := written.ne_nil
      simp [ofBaseName?, hne, bitWidth?_eq_some_iff.mpr ⟨written, octets, low, high⟩]
    | sizedInt written octets low high =>
      have hne := written.ne_nil
      simp [ofBaseName?, hne, bitWidth?_eq_some_iff.mpr ⟨written, octets, low, high⟩]
    | fixedBytes written low high =>
      have hne := written.ne_nil
      simp [ofBaseName?, hne, byteWidth?_eq_some_iff.mpr ⟨written, low, high⟩]
    | _ => simp [ofBaseName?]

/-- The last brackets are split off, and no bracket opens inside them. -/
theorem splitSuffix?_eq_some_iff : splitSuffix? cs = some (inner, some size) ↔
    cs = inner ++ ('[' :: size ++ [']']) ∧ '[' ∉ size := by
  constructor
  · intro h
    unfold splitSuffix? at h
    split at h
    · rename_i r hr
      split at h
      · rename_i d rest hrest
        simp only [Option.some.injEq, Prod.mk.injEq] at h
        obtain ⟨rfl, rfl⟩ := h
        obtain ⟨-, hsplit⟩ := Text.eq_of_dropWhile hrest
        have hnot := Text.not_mem_takeWhile '[' r
        refine ⟨?_, fun hmem => hnot (List.mem_reverse.mp hmem)⟩
        calc
          cs = (']' :: r).reverse := by rw [← hr, List.reverse_reverse]
          _ = (']' :: (r.takeWhile (· ≠ '[') ++ '[' :: rest)).reverse := by rw [← hsplit]
          _ = _ := by simp
      · cases h
    · cases h
  · rintro ⟨rfl, hsize⟩
    have hreverse : (inner ++ ('[' :: size ++ [']'])).reverse =
        ']' :: (size.reverse ++ '[' :: inner.reverse) := by simp
    have hnot : '[' ∉ size.reverse := fun hmem => hsize (List.mem_reverse.mp hmem)
    obtain ⟨htake, hdrop⟩ := Text.takeWhile_of_not_mem hnot inner.reverse
    simp only [splitSuffix?, hreverse, htake, hdrop, List.reverse_reverse]

/-- One level of a name: a base type, or an item and brackets behind it. -/
theorem parseChars_eq_ok_iff : parseChars cs = .ok t ↔
    (splitSuffix? (Text.trimChars cs) = none ∧ BaseName (Text.trimChars cs) t) ∨
    ∃ inner size item count, splitSuffix? (Text.trimChars cs) = some (inner, some size) ∧
      parseChars inner = .ok item ∧ Size size count ∧ t = arrayOf item count := by
  rw [parseChars]
  split
  · rename_i inner size hsplit
    simp only [hsplit, reduceCtorEq, false_and, false_or, Option.some.injEq, Prod.mk.injEq]
    rw [bind_eq_ok_iff]
    constructor
    · rintro ⟨item, hitem, h⟩
      split at h
      · rename_i hsize
        cases h
        exact ⟨inner, size, item, none, ⟨rfl, rfl⟩, hitem, List.isEmpty_iff.mp hsize ▸ .open, rfl⟩
      · split at h
        · rename_i n hn
          cases h
          exact ⟨inner, size, item, some n, ⟨rfl, rfl⟩, hitem, .fixed (count?_eq_some_iff.mp hn), rfl⟩
        · cases h
    · rintro ⟨inner', size', item, count, ⟨rfl, rfl⟩, hitem, hsize, rfl⟩
      refine ⟨item, hitem, ?_⟩
      cases hsize with
      | «open» => rfl
      | fixed written =>
        have hne : size.isEmpty = false := List.isEmpty_eq_false_iff.mpr written.ne_nil
        simp [hne, count?_eq_some_iff.mpr written, arrayOf, pure, Except.pure]
  · rename_i hsplit
    simp [hsplit]
  · rename_i hsplit
    simp only [hsplit, true_and, reduceCtorEq, false_and, exists_false, or_false,
      ← ofBaseName?_eq_some_iff]
    split
    · rename_i hbase
      simp [hbase]
    · rename_i hbase
      simp [hbase]

theorem Size.not_mem (h : Size size count) : '[' ∉ size := by
  cases h with
  | «open» => exact List.not_mem_nil
  | fixed written => exact fun hmem => (written.isBlank_eq_false hmem).2.1 rfl

theorem BaseName.trimChars_append (h : BaseName cs t) {before after : List Char}
    (hbefore : ∀ c ∈ before, Text.isBlank c = true) (hafter : ∀ c ∈ after, Text.isBlank c = true) :
    Text.trimChars (before ++ cs ++ after) = cs :=
  Text.trimChars_append hbefore hafter fun _ hc => (h.not_mem hc).1

theorem BaseName.parseChars (h : BaseName cs t) {before after : List Char}
    (hbefore : ∀ c ∈ before, Text.isBlank c = true) (hafter : ∀ c ∈ after, Text.isBlank c = true) :
    parseChars (before ++ cs ++ after) = .ok t := by
  have hclose : ']' ∉ cs := fun hmem => (h.not_mem hmem).2 rfl
  refine parseChars_eq_ok_iff.mpr (.inl ?_)
  rw [h.trimChars_append hbefore hafter]
  exact ⟨splitSuffix?_eq_none hclose, h⟩

/-- A name is read from its last suffix to its first. What stands before a suffix is a name with
the gap behind it. -/
theorem BaseName.parseChars_append {base : List Char} {t₀ : AbiType} (h : BaseName base t₀)
    (suffixes : List Suffix) {before after : List Char}
    (hbefore : ∀ c ∈ before, Text.isBlank c = true) (hafter : ∀ c ∈ after, Text.isBlank c = true) :
    AbiType.parseChars (before ++ (base ++ suffixes.flatMap Suffix.text) ++ after) =
      .ok ((suffixes.map Suffix.count).foldl arrayOf t₀) := by
  induction suffixes using List.reverseRecOn generalizing before after with
  | nil =>
    rw [List.flatMap_nil, List.append_nil]
    exact h.parseChars hbefore hafter
  | append_singleton suffixes x ih =>
    have hinner := @ih [] x.gap (by simp) x.blank
    rw [List.nil_append] at hinner
    have htext : base ++ (suffixes ++ [x]).flatMap Suffix.text =
        (base ++ suffixes.flatMap Suffix.text ++ x.gap) ++ ('[' :: x.size ++ [']']) := by
      simp [Suffix.text, List.append_assoc]
    have htrim : Text.trimChars (before ++ (base ++ (suffixes ++ [x]).flatMap Suffix.text) ++ after) =
        (base ++ suffixes.flatMap Suffix.text ++ x.gap) ++ ('[' :: x.size ++ [']']) := by
      rw [htext]
      refine Text.trimChars_of_ends hbefore hafter (by simp) ?_ ?_
      · intro c hc
        rw [List.append_assoc, List.append_assoc, List.head?_append_of_ne_nil base h.ne_nil] at hc
        exact (h.not_mem (List.mem_of_head? hc)).1
      · intro c hc
        rw [← List.append_assoc, List.getLast?_concat, Option.mem_some_iff] at hc
        rw [← hc]
        decide
    refine parseChars_eq_ok_iff.mpr (.inr ⟨_, _, _, _, ?_, hinner, x.sized, ?_⟩)
    · rw [htrim]
      exact splitSuffix?_eq_some_iff.mpr ⟨rfl, x.sized.not_mem⟩
    · simp [List.foldl_append]

theorem names_of_parseChars (h : AbiType.parseChars cs = .ok t) : Names cs t := by
  induction hn : cs.length using Nat.strong_induction_on generalizing cs t with
  | _ n ih =>
    obtain ⟨before, after, hbefore, hafter, hcs⟩ := Text.trimChars_split cs
    rcases parseChars_eq_ok_iff.mp h with ⟨-, hbase⟩ | ⟨inner, size, item, count, hsplit, hitem,
      hsize, rfl⟩
    · exact ⟨before, Text.trimChars cs, after, [], t, hbefore, hafter, hbase, by simpa using hcs, rfl⟩
    · have hshorter := (length_lt_of_splitSuffix? hsplit).trans_le (length_trimChars_le cs)
      obtain ⟨lead, base, gap, suffixes, t₀, hlead, hgap, hbase, hinner, rfl⟩ :=
        ih inner.length (hn ▸ hshorter) hitem rfl
      obtain ⟨htrim, -⟩ := splitSuffix?_eq_some_iff.mp hsplit
      refine ⟨before ++ lead, base, after, suffixes ++ [⟨gap, size, count, hgap, hsize⟩], t₀,
        List.forall_mem_append.mpr ⟨hbefore, hlead⟩, hafter, hbase, ?_, ?_⟩
      · rw [hcs, htrim, hinner]
        simp [Suffix.text, List.append_assoc]
      · simp [List.foldl_append]

theorem parseChars_iff_names : AbiType.parseChars cs = .ok t ↔ Names cs t := by
  refine ⟨names_of_parseChars, ?_⟩
  rintro ⟨before, base, after, suffixes, t₀, hbefore, hafter, hbase, rfl, rfl⟩
  exact hbase.parseChars_append suffixes hbefore hafter

theorem BaseName.names_itself (h : BaseName cs t) : BaseName t.name.toList t := by
  have hsmall {n : Nat} (high : n ≤ 256) : Writes n (Nat.toDigits 10 n) :=
    writes_toDigits (high.trans (by decide))
  have hspelled (letters : String) (n : Nat) :
      (letters ++ toString n).toList = letters.toList ++ Nat.toDigits 10 n := by
    simp
  cases h with
  | address => exact .address
  | bool => exact .bool
  | bytes => exact .bytes
  | string => exact .string
  | uint =>
    rw [name, hspelled]
    exact .sizedUint (hsmall (by decide)) (by decide) (by decide) (by decide)
  | int =>
    rw [name, hspelled]
    exact .sizedInt (hsmall (by decide)) (by decide) (by decide) (by decide)
  | sizedUint _ octets low high =>
    rw [name, hspelled]
    exact .sizedUint (hsmall high) octets low high
  | sizedInt _ octets low high =>
    rw [name, hspelled]
    exact .sizedInt (hsmall high) octets low high
  | fixedBytes _ low high =>
    rw [name, hspelled]
    exact .fixedBytes (hsmall (high.trans (by decide))) low high

theorem Size.exists_name (h : Size size count) (item : AbiType) : ∃ x : Suffix,
    x.count = count ∧ (arrayOf item count).name.toList = item.name.toList ++ x.text := by
  cases h with
  | «open» => exact ⟨⟨[], [], none, by simp, .open⟩, rfl, by simp [arrayOf, name, Suffix.text]⟩
  | @fixed n _ written =>
    obtain ⟨-, -, -, hle⟩ := written
    refine ⟨⟨[], Nat.toDigits 10 n, some n, by simp, .fixed (writes_toDigits hle)⟩, rfl, ?_⟩
    simp [arrayOf, name, Suffix.text, List.append_assoc]

/-- The name that a type is given has no gaps, no plus signs and no zeros that lead. -/
theorem exists_suffixes_name (t₀ : AbiType) (suffixes : List Suffix) : ∃ plain : List Suffix,
    plain.map Suffix.count = suffixes.map Suffix.count ∧
    ((suffixes.map Suffix.count).foldl arrayOf t₀).name.toList =
      t₀.name.toList ++ plain.flatMap Suffix.text := by
  induction suffixes using List.reverseRecOn with
  | nil => exact ⟨[], rfl, by simp⟩
  | append_singleton suffixes x ih =>
    obtain ⟨plain, hcounts, hname⟩ := ih
    obtain ⟨y, hy, hlast⟩ :=
      x.sized.exists_name ((suffixes.map Suffix.count).foldl arrayOf t₀)
    refine ⟨plain ++ [y], by simp [hcounts, hy], ?_⟩
    rw [List.map_append, List.foldl_append, List.map_singleton, List.foldl_cons, List.foldl_nil,
      hlast, hname]
    simp [List.append_assoc]

theorem Names.names_itself (h : Names cs t) : Names t.name.toList t := by
  obtain ⟨before, base, after, suffixes, t₀, -, -, hbase, -, rfl⟩ := h
  obtain ⟨plain, hcounts, hname⟩ := exists_suffixes_name t₀ suffixes
  refine ⟨[], t₀.name.toList, [], plain, t₀, by simp, by simp, hbase.names_itself, ?_, ?_⟩
  · rw [hname, List.nil_append, List.append_nil]
  · rw [hcounts]

theorem Names.append (h : Names cs t) {size : List Char} (hsize : Size size count) :
    Names (cs ++ ('[' :: size ++ [']'])) (arrayOf t count) := by
  obtain ⟨before, base, after, suffixes, t₀, hbefore, hafter, hbase, rfl, rfl⟩ := h
  refine ⟨before, base, [], suffixes ++ [⟨after, size, count, hafter, hsize⟩], t₀, hbefore, by simp,
    hbase, ?_, ?_⟩
  · simp [Suffix.text, List.append_assoc]
  · simp [List.foldl_append]

/-- A text is read as a type just if it names it: one base name and brackets behind it, which
make arrays from left to right, with blanks around the whole and before brackets only. The name
that a type is given is read as that type. Behind a name, the last brackets are the outermost. -/
theorem parse_iff_names :
    (∀ s t, parse s = .ok t ↔ Names s.toList t) ∧
    (∀ s t, parse s = .ok t → parse t.name = .ok t) ∧
    ∀ s t a b (as bs : String), parse s = .ok t → Writes a as.toList → Writes b bs.toList →
      parse (s ++ "[" ++ as ++ "][" ++ bs ++ "]") = .ok (fixedArray (fixedArray t a) b) := by
  refine ⟨fun s t => parseChars_iff_names, fun s t h => ?_, fun s t a b as bs h ha hb => ?_⟩
  · exact parseChars_iff_names.mpr (names_of_parseChars h).names_itself
  · have hinner := (names_of_parseChars h).append (.fixed ha)
    have houter := hinner.append (.fixed hb)
    have htext : (s ++ "[" ++ as ++ "][" ++ bs ++ "]").toList =
        s.toList ++ ('[' :: as.toList ++ [']']) ++ ('[' :: bs.toList ++ [']']) := by
      simp [List.append_assoc]
    rw [parse, htext]
    exact parseChars_iff_names.mpr houter

def gapSample : List Suffix :=
  [⟨[' '], ['+', '2'], some 2, by simp [Text.isBlank], .fixed ⟨['2'], .inr rfl, rfl, by decide⟩⟩,
    ⟨[' '], [], none, by simp [Text.isBlank], .open⟩]

theorem parse_iff_names_gapSample :
    parse " bytes04 [+2] [] " = .ok (array (fixedArray (fixedBytes 4) 2)) ∧
      parse "bytes4[2][]" = .ok (array (fixedArray (fixedBytes 4) 2)) := by
  obtain ⟨reads, named, -⟩ := parse_iff_names
  have hread : parse " bytes04 [+2] [] " = .ok (array (fixedArray (fixedBytes 4) 2)) := by
    have hbase : BaseName ("bytes".toList ++ ['0', '4']) (fixedBytes 4) :=
      .fixedBytes ⟨['0', '4'], .inl rfl, rfl, by decide⟩ (by decide) (by decide)
    refine (reads _ _).mpr ⟨[' '], _, [' '], gapSample, _, ?_, ?_, hbase, ?_, rfl⟩
    · simp [Text.isBlank]
    · simp [Text.isBlank]
    · decide +kernel
  have hname : (array (fixedArray (fixedBytes 4) 2)).name = "bytes4[2][]" := by decide +kernel
  exact ⟨hread, hname ▸ named _ _ hread⟩

end AbiType

end TronCourier
