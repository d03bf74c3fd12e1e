import TronCourier.Proofs.Abi.RoundTrip
import TronCourier.Proofs.Text.Hex

/-! The room that an encoding asks for. The head of a tuple is sized by the types
alone, before the values are looked at, and what is written is bounded by what is given. -/

namespace TronCourier

mutual

/-- At least so many values and octets of text are given. -/
def Json.weight : Json → Nat
  | .str s => 1 + (Text.utf8 s).length
  | .arr items => 1 + Json.weights items
  | _ => 1

def Json.weights : List Json → Nat
  | [] => 0
  | j :: r => j.weight + Json.weights r

end

namespace AbiType

/-- The sizes that are multiplied on the way to the size of a slot. -/
def sizes : AbiType → List Nat
  | fixedArray item count =>
    (fixedArray item count).headSize :: if item.isDynamic then [] else item.sizes
  | type => [type.headSize]

/-- No array within is fixed to be empty. -/
def NoneEmpty : AbiType → Prop
  | fixedArray item count => count ≠ 0 ∧ item.NoneEmpty
  | array item => item.NoneEmpty
  | _ => True

theorem le_headSize {type : AbiType} (h : type.NoneEmpty) {size : Nat} (hs : size ∈ type.sizes) :
    size ≤ type.headSize := by
  induction type with
  | fixedArray item count ih =>
    obtain ⟨some_items, inner⟩ := h
    rw [sizes, List.mem_cons] at hs
    obtain rfl | hs := hs
    · exact Nat.le_refl _
    · split at hs
      · cases hs
      · rename_i static
        rw [headSize, if_neg static]
        exact (ih inner hs).trans (Nat.le_mul_of_pos_right _ (Nat.pos_of_ne_zero some_items))
  | _ => exact (List.mem_singleton.mp hs).le

end AbiType

namespace Abi

theorem weights_eq_sum (js : List Json) : Json.weights js = (js.map Json.weight).sum := by
  induction js with
  | nil => rfl
  | cons j r ih => rw [Json.weights, ih, List.map_cons, List.sum_cons]

theorem weight_pos (j : Json) : 0 < j.weight := by
  cases j <;> simp only [Json.weight] <;> omega

theorem length_le_weights (js : List Json) : js.length ≤ Json.weights js := by
  induction js with
  | nil => exact Nat.le_refl _
  | cons j r ih =>
    have first := weight_pos j
    rw [List.length_cons, Json.weights]
    omega

/-- Typed values, whose slots stand one after another in a head. -/
abbrev Tuple := List (AbiType × Json)

def Tuple.headLength (params : Tuple) : Nat :=
  (params.map fun p => p.1.headSize).sum

def Tuple.weight (params : Tuple) : Nat :=
  (params.map fun p => p.2.weight).sum

/-- The items that an array lays out as a tuple. -/
def inside? : AbiType → Json → Option Tuple
  | .array item, .arr js => some (js.map (item, ·))
  | .fixedArray item count, .arr js => if js.length = count then some (js.map (item, ·)) else none
  | _, _ => none

/-- The arrays of static items have as many as their types want. -/
def Counted : AbiType → Json → Prop
  | .array item, .arr js => ∀ j ∈ js, Counted item j
  | .fixedArray item count, .arr js =>
    (item.isDynamic = false → js.length = count) ∧ ∀ j ∈ js, Counted item j
  | .fixedArray item _, _ => item.isDynamic = true
  | _, _ => True

theorem weight_items (item : AbiType) (js : List Json) :
    Tuple.weight (js.map (item, ·)) = Json.weights js := by
  rw [Tuple.weight, weights_eq_sum, List.map_map]
  rfl

theorem headLength_items (item : AbiType) (js : List Json) :
    Tuple.headLength (js.map (item, ·)) = js.length * item.headSize := by
  simp [Tuple.headLength, List.map_map, Function.comp_def]

theorem inside?_cases {type : AbiType} {j : Json} {items : Tuple}
    (h : inside? type j = some items) :
    ∃ item js, j = .arr js ∧ items = js.map (item, ·) ∧
      (type = .array item ∨ type = .fixedArray item js.length) := by
  unfold inside? at h
  split at h
  · cases h
    exact ⟨_, _, rfl, rfl, .inl rfl⟩
  · split at h
    · rename_i full
      cases h
      exact ⟨_, _, rfl, rfl, .inr (by rw [full])⟩
    · cases h
  · cases h

theorem weight_of_inside? {type : AbiType} {j : Json} {items : Tuple}
    (h : inside? type j = some items) : j.weight = 1 + items.weight := by
  obtain ⟨item, js, rfl, rfl, _⟩ := inside?_cases h
  rw [weight_items, Json.weight]

theorem headLength_le_weight_of_forall {params : Tuple}
    (h : ∀ p ∈ params, p.1.headSize ≤ 32 * p.2.weight) :
    params.headLength ≤ 32 * params.weight := by
  rw [Tuple.weight, Tuple.headLength, ← List.sum_map_mul_left]
  exact List.sum_le_sum h

theorem headSize_le_weight {type : AbiType} {j : Json} (h : Counted type j) :
    type.headSize ≤ 32 * j.weight := by
  induction type generalizing j with
  | fixedArray item count ih =>
    by_cases dynamic : item.isDynamic = true
    · rw [AbiType.headSize, if_pos dynamic]
      exact Nat.le_mul_of_pos_right _ (weight_pos j)
    · have static : item.isDynamic = false := Bool.eq_false_iff.mpr dynamic
      cases j with
      | arr js =>
        obtain ⟨full, counted⟩ := h
        have slots :
            Tuple.headLength (js.map (item, ·)) ≤ 32 * Tuple.weight (js.map (item, ·)) := by
          refine headLength_le_weight_of_forall fun p hp => ?_
          obtain ⟨j, hj, rfl⟩ := List.mem_map.mp hp
          exact ih (counted j hj)
        rw [headLength_items, weight_items, full static, Nat.mul_comm] at slots
        rw [AbiType.headSize, if_neg dynamic, Json.weight]
        omega
      | _ => exact absurd h dynamic
  | _ => exact Nat.le_mul_of_pos_right _ (weight_pos j)

theorem headLength_le_weight {params : Tuple} (h : ∀ p ∈ params, Counted p.1 p.2) :
    params.headLength ≤ 32 * params.weight :=
  headLength_le_weight_of_forall fun p hp => headSize_le_weight (h p hp)

/-- The tuples whose heads are sized: the parameters, and the items of each array that is
come to. What stands in front of it was encoded by then. -/
inductive Reaches : Tuple → Tuple → Prop
  | whole (params : Tuple) : Reaches params params
  | inside {before after items tuple : Tuple} {p : AbiType × Json}
      (fits : fitsMemory (Tuple.headLength (before ++ p :: after)) = true)
      (done : ∀ q ∈ before, ∃ data, encodeValue q.1 q.2 = .ok data)
      (array : inside? p.1 p.2 = some items) (rest : Reaches items tuple) :
      Reaches (before ++ p :: after) tuple

theorem counted_of_inside? {type : AbiType} {j : Json} {items : Tuple} (h : Counted type j)
    (array : inside? type j = some items) : ∀ p ∈ items, Counted p.1 p.2 := by
  obtain ⟨item, js, rfl, rfl, rfl | rfl⟩ := inside?_cases array
  · exact List.forall_mem_map.mpr h
  · exact List.forall_mem_map.mpr h.2

theorem weight_le_of_mem {params : Tuple} {p : AbiType × Json} (h : p ∈ params) :
    p.2.weight ≤ params.weight :=
  List.single_le_sum (by simp) _ (List.mem_map_of_mem h)

theorem weight_le_whole (before after : Tuple) (p : AbiType × Json) :
    p.2.weight ≤ Tuple.weight (before ++ p :: after) :=
  weight_le_of_mem (List.mem_append_right before List.mem_cons_self)

theorem Reaches.weight_le {params tuple : Tuple} (h : Reaches params tuple) :
    tuple.weight ≤ params.weight := by
  induction h with
  | whole => exact Nat.le_refl _
  | @inside before after items _ p _ _ array _ ih =>
    have part := weight_le_whole before after p
    have whole := weight_of_inside? array
    omega

theorem Reaches.counted {params tuple : Tuple} (h : Reaches params tuple)
    (counted : ∀ p ∈ params, Counted p.1 p.2) : ∀ p ∈ tuple, Counted p.1 p.2 := by
  induction h with
  | whole => exact counted
  | inside _ _ array _ ih =>
    exact ih (counted_of_inside? (counted _ (List.mem_append_right _ List.mem_cons_self)) array)

theorem length_headAndTail_le (offset : Nat) (parts : List (Bool × Bytes)) :
    (headAndTail offset parts).1.length + (headAndTail offset parts).2.length ≤
      (parts.map fun p => 32 + p.2.length).sum := by
  induction parts generalizing offset with
  | nil => exact Nat.le_refl _
  | cons p parts ih =>
    obtain ⟨dynamic, part⟩ := p
    cases dynamic with
    | true =>
      have rest := ih (offset + part.length)
      simp only [headAndTail, List.length_append, word, Bytes.length_ofNat, List.map_cons,
        List.sum_cons]
      omega
    | false =>
      have rest := ih offset
      simp only [headAndTail, List.length_append, List.map_cons, List.sum_cons]
      omega

theorem length_filler_le (n : Nat) : (filler n).length ≤ 31 := by
  simp only [filler, Bytes.zeros, List.length_replicate]
  omega

theorem length_lengthPrefixed_le (bs : Bytes) :
    (lengthPrefixed bs).length ≤ 32 + 32 * bs.length := by
  have padded : (filler bs.length).length = (32 - bs.length % 32) % 32 := List.length_replicate
  simp only [lengthPrefixed, List.length_append, word, Bytes.length_ofNat, padded]
  omega

theorem length_withoutMarker_le (s : String) :
    (Text.utf8 (Address.withoutMarker s)).length ≤ (Text.utf8 s).length := by
  unfold Address.withoutMarker
  split
  · rename_i r hr
    rw [Text.utf8_eq_flatMap, Text.utf8_eq_flatMap, hr, String.toList_ofList]
    simp only [List.flatMap_cons, List.length_append]
    omega
  · exact Nat.le_refl _

theorem length_octets_lt {j : Json} {bs : Bytes}
    (h : (octets? j).map Value.octets = some (.octets bs)) : 2 * bs.length < j.weight := by
  obtain ⟨_, hb, ⟨⟩⟩ := Option.map_eq_some_iff.mp h
  unfold octets? at hb
  split at hb
  · rename_i s
    cases hu : Text.unhex (Address.withoutMarker s) with
    | error e => simp [hu, Except.toOption] at hb
    | ok _ =>
      obtain rfl : _ = bs := by simpa [hu, Except.toOption] using hb
      have digits := Text.length_of_unhex hu
      have marked := length_withoutMarker_le s
      rw [Json.weight]
      omega
  · cases hb

theorem length_encodeAtom_le {type : AbiType} {j : Json} {data : Bytes}
    (h : encodeAtom type j = .ok data) : data.length + 32 ≤ 64 * j.weight := by
  obtain ⟨v, denoted, written⟩ := encodeAtom_written h
  have given := weight_pos j
  cases written with
  | address a =>
    simp only [List.length_append, Bytes.zeros, List.length_replicate, a.length_hash]
    omega
  | bool b =>
    rw [word, Bytes.length_ofNat]
    omega
  | uint _ =>
    rw [word, Bytes.length_ofNat]
    omega
  | int _ _ =>
    rw [Bytes.length_ofInt]
    omega
  | fixedBytes bs =>
    have digits := length_octets_lt denoted
    have padding := length_filler_le bs.length
    rw [List.length_append]
    omega
  | bytes bs =>
    have digits := length_octets_lt denoted
    have padded := length_lengthPrefixed_le bs
    omega
  | string s =>
    cases j with
    | str _ =>
      cases denoted
      have padded := length_lengthPrefixed_le (Text.utf8 s)
      rw [Json.weight]
      omega
    | _ => cases denoted

/-- A value encoded for its slot. -/
def encodePart (p : AbiType × Json) : Except Error (Bool × Bytes) :=
  (encodeValue p.1 p.2).map (p.1.isDynamic, ·)

theorem encodeTuple_eq (params : Tuple) :
    encodeTuple params = if fitsMemory params.headLength then
      params.mapM encodePart >>= layout params.headLength else .error .headTooLarge := by
  have size : params.foldl (fun n p => n + p.1.headSize) 0 = params.headLength := by
    rw [Tuple.headLength, List.sum_eq_foldl, List.foldl_map]
  have parts : (fun p : AbiType × Json => (return (p.1.isDynamic, ← encodeValue p.1 p.2) :
      Except Error (Bool × Bytes))) = encodePart := by
    funext p
    rw [encodePart]
    cases encodeValue p.1 p.2 <;> rfl
  rw [encodeTuple, size, parts]
  cases fitsMemory params.headLength <;> rfl

theorem mapM_items (item : AbiType) (js : List Json) :
    (js.map (item, ·)).mapM encodePart =
      (js.mapM (encodeValue item)).map (List.map (item.isDynamic, ·)) := by
  induction js with
  | nil => rfl
  | cons j r ih =>
    simp only [List.map_cons, List.mapM_cons, ih, encodePart]
    cases encodeValue item j with
    | error e => rfl
    | ok part => cases r.mapM (encodeValue item) <;> rfl

/-- The items of an array are laid out as parameters of one type are. -/
theorem layoutItems_eq_encodeTuple (item : AbiType) {js : List Json}
    (few : js.length < memoryLimit) :
    layoutItems item (encodeValue item) js = encodeTuple (js.map (item, ·)) := by
  rw [encodeTuple_eq, headLength_items, mapM_items]
  simp only [layoutItems, few, decide_true, Bool.true_and]
  cases fitsMemory (js.length * item.headSize) with
  | false => rfl
  | true => cases js.mapM (encodeValue item) <;> rfl

theorem sum_parts_le {params : Tuple} {parts : List (Bool × Bytes)}
    (h : params.mapM encodePart = .ok parts)
    (each : ∀ p ∈ params, ∀ data, encodeValue p.1 p.2 = .ok data →
      data.length + 32 ≤ 64 * p.2.weight) :
    (parts.map fun p => 32 + p.2.length).sum ≤ 64 * params.weight := by
  have encoded := mapM_eq_ok_iff.mp h
  clear h
  induction encoded with
  | nil => exact Nat.le_refl _
  | cons first _ ih =>
    obtain ⟨now, later⟩ := List.forall_mem_cons.mp each
    have rest := ih later
    obtain ⟨data, hd, rfl⟩ := map_eq_ok_iff.mp first
    have part := now data hd
    simp only [Tuple.weight, List.map_cons, List.sum_cons] at rest ⊢
    omega

theorem length_encodeTuple_le {params : Tuple} {data : Bytes} (h : encodeTuple params = .ok data)
    (each : ∀ p ∈ params, ∀ data, encodeValue p.1 p.2 = .ok data →
      data.length + 32 ≤ 64 * p.2.weight) : data.length ≤ 64 * params.weight := by
  rw [encodeTuple_eq] at h
  split at h
  · obtain ⟨parts, hp, laid⟩ := bind_eq_ok_iff.mp h
    obtain ⟨rfl, _⟩ := layout_eq_ok_iff.mp laid
    rw [List.length_append]
    exact (length_headAndTail_le _ parts).trans (sum_parts_le hp each)
  · cases h

theorem length_encodeValue_le {type : AbiType} {j : Json} {data : Bytes}
    (h : encodeValue type j = .ok data) : data.length + 32 ≤ 64 * j.weight := by
  have items {item : AbiType} {js : List Json} {body : Bytes}
      (hl : layoutItems item (encodeValue item) js = .ok body)
      (each : ∀ {j : Json} {data : Bytes}, encodeValue item j = .ok data →
        data.length + 32 ≤ 64 * j.weight) : body.length ≤ 64 * Json.weights js := by
    rw [layoutItems_eq_encodeTuple item (layoutItems_eq_ok hl).1] at hl
    rw [← weight_items item]
    exact length_encodeTuple_le hl (List.forall_mem_map.mpr fun j _ data => each)
  induction type generalizing j data with
  | array item ih =>
    obtain ⟨js, body, rfl, hl, rfl⟩ := encodeValue_array_eq_ok h
    have inner := items hl ih
    rw [List.length_append, word, Bytes.length_ofNat, Json.weight]
    omega
  | fixedArray item count ih =>
    obtain ⟨js, rfl, _, hl⟩ := encodeValue_fixedArray_eq_ok h
    have inner := items hl ih
    rw [Json.weight]
    omega
  | _ => exact length_encodeAtom_le (mapError_eq_ok_iff.mp h)

/-- What is laid out in the end is no longer than what was given allows. -/
theorem layout_of_parts {params : Tuple} (held : 64 * params.weight < memoryLimit)
    {parts : List (Bool × Bytes)} (h : params.mapM encodePart = .ok parts) (headLength : Nat) :
    ∃ data, layout headLength parts = .ok data := by
  refine ⟨_, layout_eq_ok_iff.mpr ⟨rfl, ?_⟩⟩
  rw [List.length_append]
  have given := sum_parts_le h fun p _ _ => length_encodeValue_le
  exact ((length_headAndTail_le headLength parts).trans given).trans_lt held

theorem encodeTuple_eq_headTooLarge_iff {params : Tuple}
    (held : 64 * params.weight < memoryLimit) :
    encodeTuple params = .error .headTooLarge ↔
      fitsMemory params.headLength = false ∨ fitsMemory params.headLength = true ∧
        ∃ before p after, params = before ++ p :: after ∧
          (∀ q ∈ before, ∃ data, encodeValue q.1 q.2 = .ok data) ∧
          encodeValue p.1 p.2 = .error .headTooLarge := by
  rw [encodeTuple_eq]
  cases fitsMemory params.headLength with
  | false => simp
  | true =>
    have laid : ¬∃ parts, params.mapM encodePart = .ok parts ∧
        layout params.headLength parts = .error .headTooLarge := by
      rintro ⟨parts, hp, hl⟩
      obtain ⟨data, hd⟩ := layout_of_parts held hp params.headLength
      cases hl.symm.trans hd
    have encoded (p : AbiType × Json) :
        (∃ part, encodePart p = .ok part) ↔ ∃ data, encodeValue p.1 p.2 = .ok data := by
      simp [encodePart, map_eq_ok_iff]
    simp only [if_true, bind_eq_error_iff, laid, or_false, mapM_eq_error_iff, encoded,
      Bool.true_eq_false, false_or, true_and]
    simp only [encodePart, map_eq_error_iff]

theorem encodeValue_of_inside? {type : AbiType} {j : Json} {items : Tuple}
    (held : 64 * j.weight < memoryLimit) (array : inside? type j = some items) :
    encodeValue type j = .error .headTooLarge ↔ encodeTuple items = .error .headTooLarge := by
  obtain ⟨item, js, rfl, rfl, shape⟩ := inside?_cases array
  have few : js.length < memoryLimit := by
    have each := length_le_weights js
    rw [Json.weight] at held
    omega
  rw [← layoutItems_eq_encodeTuple item few]
  obtain rfl | rfl := shape
  · have taken : arrayItems (.array item) (.arr js) = .ok js := rfl
    simp [encodeValue, taken, bind_eq_error_iff, pure, Except.pure]
  · have taken : arrayItems (.fixedArray item js.length) (.arr js) = .ok js := if_pos rfl
    simp [encodeValue, taken, bind_eq_error_iff]

theorem encodeValue_of_inside?_eq_none {type : AbiType} {j : Json} (h : inside? type j = none) :
    encodeValue type j ≠ .error .headTooLarge := by
  have atom (value : Except ValueError Bytes) :
      value.mapError (Error.invalidValue type) ≠ .error .headTooLarge := by
    cases value <;> simp [Except.mapError]
  cases type with
  | array item =>
    cases j with
    | arr js => cases h
    | _ => simp [encodeValue, arrayItems, Json.arr?, bind, Except.bind]
  | fixedArray item count =>
    cases j with
    | arr js =>
      have wrong : js.length ≠ count := fun full => by simp [inside?, full] at h
      simp [encodeValue, arrayItems, Json.arr?, wrong, bind, Except.bind]
    | _ => simp [encodeValue, arrayItems, Json.arr?, bind, Except.bind]
  | _ => exact atom _

theorem encodeValue_eq_headTooLarge_iff {type : AbiType} {j : Json}
    (held : 64 * j.weight < memoryLimit) :
    encodeValue type j = .error .headTooLarge ↔
      ∃ items, inside? type j = some items ∧ encodeTuple items = .error .headTooLarge := by
  cases array : inside? type j with
  | none => simp [encodeValue_of_inside?_eq_none array]
  | some items => simp [encodeValue_of_inside? held array]

theorem overruns_iff {params : Tuple} (held : 64 * params.weight < memoryLimit) :
    encodeTuple params = .error .headTooLarge ↔
      ∃ tuple, Reaches params tuple ∧ fitsMemory tuple.headLength = false := by
  constructor
  · intro h
    induction hw : params.weight using Nat.strong_induction_on generalizing params with
    | _ n ih =>
      subst hw
      obtain unfit | ⟨fits, before, p, after, rfl, done, failed⟩ :=
        (encodeTuple_eq_headTooLarge_iff held).mp h
      · exact ⟨params, .whole params, unfit⟩
      · have part := weight_le_whole before after p
        obtain ⟨items, array, overrun⟩ := (encodeValue_eq_headTooLarge_iff (by omega)).mp failed
        have smaller := weight_of_inside? array
        obtain ⟨tuple, reached, unfit⟩ := ih items.weight (by omega) (by omega) overrun rfl
        exact ⟨tuple, .inside fits done array reached, unfit⟩
  · rintro ⟨tuple, reached, unfit⟩
    induction reached with
    | whole => exact (encodeTuple_eq_headTooLarge_iff held).mpr (.inl unfit)
    | @inside before after items _ p fits done array _ ih =>
      have part := weight_le_whole before after p
      have smaller := weight_of_inside? array
      have failed := (encodeValue_eq_headTooLarge_iff (by omega)).mpr
        ⟨items, array, ih (by omega) unfit⟩
      exact (encodeTuple_eq_headTooLarge_iff held).mpr
        (.inr ⟨fits, before, p, after, rfl, done, failed⟩)

theorem named_of_typed {params : List Json} {typed : Tuple} (h : Typed params typed)
    (position : Nat) : params.length % 2 = 0 ∧ ∃ named, pairs position params = .ok named ∧
      named.mapM (fun p => return (← readType p.1, p.2)) = .ok typed := by
  induction h generalizing position with
  | nil => exact ⟨rfl, [], rfl, rfl⟩
  | @cons name j type params typed named _ ih =>
    obtain ⟨even, others, ho, ht⟩ := ih (position + 2)
    have read : readType name = .ok type := by rw [readType, named, Except.mapError]
    refine ⟨by simp only [List.length_cons]; omega, (name, j) :: others, ?_, ?_⟩
    · simp only [pairs, Json.str?, ho]
      rfl
    · rw [List.mapM_cons, ht]
      simp [read, bind, Except.bind, pure, Except.pure]

theorem encodeParams_of_typed {params : List Json} {typed : Tuple} (h : Typed params typed) :
    encodeParams params = encodeTuple typed := by
  obtain ⟨even, named, hn, ht⟩ := named_of_typed h 0
  have shape : checkShape params = .ok named := by
    rw [checkShape, if_neg (by omega), hn]
  simp only [encodeParams, shape, bind, Except.bind] at ht ⊢
  rw [ht]

theorem pairs_ne_headTooLarge (position : Nat) (params : List Json) :
    pairs position params ≠ .error .headTooLarge := by
  induction position, params using pairs.induct with
  | case1 position name value rest no_text => simp [pairs, no_text]
  | case2 position name value rest s text ih =>
    simp [pairs, text, bind_eq_error_iff, ih, pure, Except.pure]
  | case3 params position short =>
    rcases params with _ | ⟨name, _ | ⟨value, rest⟩⟩
    · simp [pairs]
    · simp [pairs]
    · exact absurd rfl (short name value rest)

theorem readType_ne_headTooLarge (name : String) : readType name ≠ .error .headTooLarge := by
  rw [readType]
  cases AbiType.parse name <;> simp [Except.mapError]

/-- Shapes and names fail in other ways, before any size is worked out. -/
theorem typed_of_headTooLarge {params : List Json}
    (h : encodeParams params = .error .headTooLarge) : ∃ typed, Typed params typed := by
  rw [encodeParams] at h
  obtain shape | ⟨named, hn, h⟩ := bind_eq_error_iff.mp h
  · rw [checkShape] at shape
    split at shape
    · cases shape
    · exact absurd shape (pairs_ne_headTooLarge 0 params)
  · obtain unread | ⟨typed, ht, _⟩ := bind_eq_error_iff.mp h
    · obtain ⟨_, p, _, _, _, failed⟩ := mapM_eq_error_iff.mp unread
      obtain failed | ⟨_, _, failed⟩ := bind_eq_error_iff.mp failed
      · exact absurd failed (readType_ne_headTooLarge p.1)
      · cases failed
    · exact ⟨typed, typed_of_names hn ht⟩

theorem weight_of_typed {params : List Json} {typed : Tuple} (h : Typed params typed) :
    typed.weight ≤ Json.weights params := by
  induction h with
  | nil => exact Nat.le_refl _
  | cons _ _ ih =>
    simp only [Tuple.weight, List.map_cons, List.sum_cons, Json.weights] at ih ⊢
    omega

/-- The encoder overruns just if the slots of a tuple that it comes to take half of all that
64 bits can count or more, the count taken modulo all. Where every array of static items
has as many as its type wants, no more is asked for than is given. -/
theorem headTooLarge_iff {params : List Json} (held : 64 * Json.weights params < memoryLimit) :
    (encodeParams params = .error .headTooLarge ↔ ∃ typed tuple, Typed params typed ∧
      Reaches typed tuple ∧ 2 ^ 63 ≤ tuple.headLength % 2 ^ 64) ∧
    ∀ typed tuple, Typed params typed → Reaches typed tuple →
      (∀ p ∈ typed, Counted p.1 p.2) → tuple.headLength ≤ 32 * Json.weights params ∧
        ∀ p ∈ tuple, p.1.NoneEmpty → ∀ size ∈ p.1.sizes, size ≤ 32 * Json.weights params := by
  have unfit (n : Nat) : fitsMemory n = false ↔ 2 ^ 63 ≤ n % 2 ^ 64 := by
    have all : nat64Max + 1 = 2 ^ 64 := rfl
    have half : memoryLimit = 2 ^ 63 := rfl
    rw [fitsMemory, all, half, decide_eq_false_iff_not, Nat.not_lt]
  have small {typed : Tuple} (ht : Typed params typed) : 64 * typed.weight < memoryLimit := by
    have := weight_of_typed ht
    omega
  constructor
  · simp only [← unfit]
    constructor
    · intro h
      obtain ⟨typed, ht⟩ := typed_of_headTooLarge h
      rw [encodeParams_of_typed ht] at h
      obtain ⟨tuple, reached, hu⟩ := (overruns_iff (small ht)).mp h
      exact ⟨typed, tuple, ht, reached, hu⟩
    · rintro ⟨typed, tuple, ht, reached, hu⟩
      rw [encodeParams_of_typed ht]
      exact (overruns_iff (small ht)).mpr ⟨tuple, reached, hu⟩
  · intro typed tuple ht reached counted
    have given := reached.weight_le.trans (weight_of_typed ht)
    have slots := headLength_le_weight (reached.counted counted)
    refine ⟨by omega, fun p hp none_empty size hs => ?_⟩
    have slot := headSize_le_weight (reached.counted counted p hp)
    have part := weight_le_of_mem hp
    have := AbiType.le_headSize none_empty hs
    omega

theorem parse_octets : AbiType.parseChars "uint8".toList = .ok (.uint 8) := by
  rw [AbiType.parseChars]
  rfl

def pairSample : List Json :=
  [.str "uint8[2]", .arr [.int 1, .int 2]]

def pairTyped : Tuple :=
  [(.fixedArray (.uint 8) 2, .arr [.int 1, .int 2])]

theorem typed_pairSample : Typed pairSample pairTyped := by
  have split : AbiType.splitSuffix? (Text.trimChars "uint8[2]".toList) =
      some ("uint8".toList, some ['2']) := by
    decide
  exact .cons (AbiType.parseChars_fixedArray split (by decide) parse_octets) .nil

theorem headTooLarge_iff_pairSample :
    64 * Json.weights pairSample < memoryLimit ∧ Typed pairSample pairTyped ∧
      (∀ p ∈ pairTyped, Counted p.1 p.2) ∧
      (encodeParams pairSample = .error .headTooLarge ↔ ∃ typed tuple, Typed pairSample typed ∧
        Reaches typed tuple ∧ 2 ^ 63 ≤ tuple.headLength % 2 ^ 64) ∧
      pairTyped.headLength ≤ 32 * Json.weights pairSample := by
  have held : 64 * Json.weights pairSample < memoryLimit := by decide +kernel
  have counted : ∀ p ∈ pairTyped, Counted p.1 p.2 := by
    simp [pairTyped, Counted]
  obtain ⟨overruns, bounded⟩ := headTooLarge_iff held
  exact ⟨held, typed_pairSample, counted, overruns,
    (bounded _ _ typed_pairSample (.whole _) counted).1⟩

/-- Sizes come from the text of a type, so that an empty list can ask for half of all that can
be counted, or for all of it. -/
theorem not_headLength_bounded :
    encodeParams [.str "uint8[288230376151711744]", .arr []] = .error .headTooLarge ∧
      ∃ typed : Tuple, Typed [.str "uint8[576460752303423488]", .arr []] typed ∧
        2 ^ 64 ≤ typed.headLength := by
  have half_split : AbiType.splitSuffix? (Text.trimChars "uint8[288230376151711744]".toList) =
      some ("uint8".toList, some "288230376151711744".toList) := by
    decide
  have half : AbiType.parse "uint8[288230376151711744]" =
      .ok (.fixedArray (.uint 8) 288230376151711744) :=
    AbiType.parseChars_fixedArray half_split (by decide) parse_octets
  have whole_split : AbiType.splitSuffix? (Text.trimChars "uint8[576460752303423488]".toList) =
      some ("uint8".toList, some "576460752303423488".toList) := by
    decide
  have whole : AbiType.parse "uint8[576460752303423488]" =
      .ok (.fixedArray (.uint 8) 576460752303423488) :=
    AbiType.parseChars_fixedArray whole_split (by decide) parse_octets
  constructor
  · rw [encodeParams_of_typed (.cons half .nil), encodeTuple_eq]
    rfl
  · exact ⟨_, .cons whole .nil, by decide⟩

end Abi

end TronCourier
