import TronCourier.Proofs.Abi.Decode

/-! Decoding gives back what the encoded parameters denote. -/

namespace TronCourier

namespace AbiType

theorem isDynamic_eq (type : AbiType) : type.isDynamic = type.fixedSize?.isNone := by
  induction type with
  | fixedArray item count ih => simp [isDynamic, fixedSize?, ih]
  | _ => rfl

theorem headSize_eq (type : AbiType) : type.headSize = type.fixedSize?.getD 32 := by
  induction type with
  | fixedArray item count ih =>
    rw [headSize, isDynamic_eq, ih, fixedSize?]
    cases item.fixedSize? with
    | none => rfl
    | some size => rfl
  | _ => rfl

end AbiType

namespace Abi

/-- Each reader gives the value and the length of its part, whatever follows it. -/
inductive ReadsBack : List (Bool × Reader) → List (Bool × Bytes) → List Value → Prop
  | nil : ReadsBack [] [] []
  | cons {dynamic : Bool} {read : Reader} {part : Bytes} {v : Value}
      {reads : List (Bool × Reader)} {parts : List (Bool × Bytes)} {vs : List Value}
      (first : ∀ rest, read (part ++ rest) = some (v, part.length))
      (others : ReadsBack reads parts vs) :
      ReadsBack ((dynamic, read) :: reads) ((dynamic, part) :: parts) (v :: vs)

/-- What is left of a head and of the tails starts with the parts that are still to be
read, and the tails start at the frontier. -/
theorem decodeParts_headAndTail {reads : List (Bool × Reader)} {parts : List (Bool × Bytes)}
    {vs : List Value} (h : ReadsBack reads parts vs) {whole afterHead afterTail : Bytes}
    {frontier : Nat}
    (tail : whole.drop frontier = (headAndTail frontier parts).2 ++ afterTail)
    (bound : frontier + (headAndTail frontier parts).2.length < 2 ^ 256) :
    decodeParts whole ((headAndTail frontier parts).1 ++ afterHead) frontier reads =
      some (vs, frontier + (headAndTail frontier parts).2.length) := by
  induction h generalizing frontier afterTail with
  | nil => rfl
  | @cons dynamic read part v reads parts vs first _ ih =>
    cases dynamic with
    | true =>
      simp only [headAndTail, List.append_assoc, List.length_append] at *
      have rest : whole.drop (frontier + part.length) =
          (headAndTail (frontier + part.length) parts).2 ++ afterTail := by
        rw [← List.drop_drop, tail, List.drop_left' rfl]
      have hd := ih rest (by omega)
      rw [decodeParts, word?_word_append (by omega), List.drop_left' (by simp [word])]
      simp [tail, first, hd, Nat.add_assoc]
    | false =>
      simp only [headAndTail, List.append_assoc] at *
      simp [decodeParts, first, ih tail bound]

theorem length_head (offset : Nat) (parts : List (Bool × Bytes)) :
    (headAndTail offset parts).1.length =
      (parts.map fun p => if p.1 then 32 else p.2.length).sum := by
  induction parts generalizing offset with
  | nil => rfl
  | cons p parts ih =>
    obtain ⟨dynamic, part⟩ := p
    cases dynamic with
    | true => simp [headAndTail, ih, word]
    | false => simp [headAndTail, ih]

theorem tail_of_static {offset : Nat} {parts : List (Bool × Bytes)}
    (h : ∀ p ∈ parts, p.1 = false) : (headAndTail offset parts).2 = [] := by
  induction parts with
  | nil => rfl
  | cons p parts ih =>
    obtain ⟨dynamic, part⟩ := p
    obtain rfl : dynamic = false := h _ List.mem_cons_self
    exact ih fun p hp => h p (List.mem_cons_of_mem _ hp)

theorem length_part_le (offset : Nat) {parts : List (Bool × Bytes)} {p : Bool × Bytes}
    (h : p ∈ parts) : p.2.length ≤
      (headAndTail offset parts).1.length + (headAndTail offset parts).2.length := by
  induction parts generalizing offset with
  | nil => cases h
  | cons q parts ih =>
    obtain ⟨dynamic, part⟩ := q
    cases dynamic with
    | true =>
      simp only [headAndTail, List.length_append]
      obtain rfl | hp := List.mem_cons.mp h
      · simp only
        omega
      · have := ih (offset + part.length) hp
        omega
    | false =>
      simp only [headAndTail, List.length_append]
      obtain rfl | hp := List.mem_cons.mp h
      · simp only
        omega
      · have := ih offset hp
        omega

theorem layout_eq_ok_iff {headLength : Nat} {parts : List (Bool × Bytes)} {data : Bytes} :
    layout headLength parts = .ok data ↔
      data = (headAndTail headLength parts).1 ++ (headAndTail headLength parts).2 ∧
        data.length < memoryLimit := by
  simp only [layout]
  constructor
  · intro h
    split at h
    · rename_i small
      cases h
      exact ⟨rfl, by rwa [List.length_append]⟩
    · cases h
  · rintro ⟨rfl, small⟩
    rw [List.length_append] at small
    rw [if_pos small]

theorem length_part_lt {headLength : Nat} {parts : List (Bool × Bytes)} {data : Bytes}
    (laid : layout headLength parts = .ok data) {p : Bool × Bytes} (h : p ∈ parts) :
    p.2.length < 2 ^ 256 := by
  obtain ⟨rfl, small⟩ := layout_eq_ok_iff.mp laid
  have part := length_part_le headLength h
  rw [← List.length_append] at part
  exact part.trans_lt (small.trans (by decide))

theorem decodeTuple_layout {reads : List (Bool × Reader)} {parts : List (Bool × Bytes)}
    {vs : List Value} {headLength : Nat} {data : Bytes} (h : ReadsBack reads parts vs)
    (head : headLength = (parts.map fun p => if p.1 then 32 else p.2.length).sum)
    (laid : layout headLength parts = .ok data) (rest : Bytes) :
    decodeTuple headLength reads (data ++ rest) = some (vs, data.length) := by
  obtain ⟨rfl, small⟩ := layout_eq_ok_iff.mp laid
  rw [← length_head headLength] at head
  have tail : ((headAndTail headLength parts).1 ++ (headAndTail headLength parts).2 ++ rest).drop
      headLength = (headAndTail headLength parts).2 ++ rest := by
    rw [List.append_assoc]
    exact List.drop_left' head.symm
  have size : headLength + (headAndTail headLength parts).2.length =
      ((headAndTail headLength parts).1 ++ (headAndTail headLength parts).2).length := by
    rw [List.length_append, ← head]
  have bound : headLength + (headAndTail headLength parts).2.length < 2 ^ 256 := by
    rw [size]
    exact small.trans (by decide)
  rw [decodeTuple, ← size, ← decodeParts_headAndTail h tail bound, List.append_assoc]

theorem layoutItems_eq_ok {type : AbiType} {encode : Json → Except Error Bytes}
    {items : List Json} {data : Bytes} (h : layoutItems type encode items = .ok data) :
    items.length < memoryLimit ∧ ∃ parts,
      List.Forall₂ (fun j part => encode j = .ok part) items parts ∧
      layout (items.length * type.headSize) (parts.map fun part => (type.isDynamic, part)) =
        .ok data := by
  unfold layoutItems at h
  simp only at h
  split at h
  · cases h
  · rename_i fits
    simp only [Bool.not_eq_true', Bool.not_eq_false, Bool.and_eq_true, decide_eq_true_eq] at fits
    obtain ⟨parts, hp, hl⟩ := bind_eq_ok_iff.mp h
    exact ⟨fits.1, parts, mapM_eq_ok_iff.mp hp, hl⟩

theorem encodeValue_array_eq_ok {item : AbiType} {j : Json} {data : Bytes}
    (h : encodeValue (.array item) j = .ok data) : ∃ items body, j = .arr items ∧
      layoutItems item (encodeValue item) items = .ok body ∧ word items.length ++ body = data := by
  rw [encodeValue] at h
  obtain ⟨items, hi, h⟩ := bind_eq_ok_iff.mp h
  obtain ⟨body, hb, hd⟩ := bind_eq_ok_iff.mp h
  cases j with
  | arr _ =>
    cases hi
    exact ⟨_, body, rfl, hb, Except.ok.inj hd⟩
  | _ => cases hi

theorem encodeValue_fixedArray_eq_ok {item : AbiType} {count : Nat} {j : Json} {data : Bytes}
    (h : encodeValue (.fixedArray item count) j = .ok data) : ∃ items, j = .arr items ∧
      items.length = count ∧ layoutItems item (encodeValue item) items = .ok data := by
  rw [encodeValue] at h
  obtain ⟨items, hi, hb⟩ := bind_eq_ok_iff.mp h
  cases j with
  | arr _ =>
    simp only [arrayItems, Json.arr?] at hi
    split at hi
    · rename_i hl
      cases hi
      exact ⟨_, rfl, hl, hb⟩
    · cases hi
  | _ => cases hi

/-- The head that the encoder counts on is the one that the parts have. -/
theorem slot_eq {type : AbiType} {part : Bytes}
    (h : ∀ size, type.fixedSize? = some size → part.length = size) :
    (if type.isDynamic then 32 else part.length) = type.headSize := by
  rw [AbiType.isDynamic_eq, AbiType.headSize_eq]
  cases hs : type.fixedSize? with
  | none => rfl
  | some size => exact h size hs

theorem sum_slots {type : AbiType} {parts : List Bytes}
    (h : ∀ part ∈ parts, ∀ size, type.fixedSize? = some size → part.length = size) :
    ((parts.map fun part => (type.isDynamic, part)).map
      fun p => if p.1 then 32 else p.2.length).sum = parts.length * type.headSize := by
  induction parts with
  | nil => simp
  | cons part parts ih =>
    have first := slot_eq (h part List.mem_cons_self)
    have others := ih fun p hp => h p (List.mem_cons_of_mem _ hp)
    simp only [List.map_cons, List.sum_cons, first, others, List.length_cons, Nat.add_mul]
    omega

/-- Values of a type that is fixed in size have that size. -/
theorem length_encodeValue {type : AbiType} (wf : type.WellFormed) {j : Json} {data : Bytes}
    (h : encodeValue type j = .ok data) {size : Nat} (hs : type.fixedSize? = some size) :
    data.length = size := by
  induction type generalizing j data size with
  | array item _ => cases hs
  | fixedArray item count ih =>
    obtain ⟨items, rfl, rfl, hl⟩ := encodeValue_fixedArray_eq_ok h
    obtain ⟨_, parts, hp, laid⟩ := layoutItems_eq_ok hl
    obtain ⟨each, he, rfl⟩ := Option.map_eq_some_iff.mp hs
    have sizes : ∀ part ∈ parts, ∀ size, item.fixedSize? = some size → part.length = size := by
      intro part hm size hsize
      obtain ⟨j, hj⟩ := exists_of_mem_right hp hm
      exact ih wf hj hsize
    have static : ∀ p ∈ parts.map fun part => (item.isDynamic, part), p.1 = false := by
      intro p hm
      obtain ⟨part, _, rfl⟩ := List.mem_map.mp hm
      simp [AbiType.isDynamic_eq, he]
    obtain ⟨rfl, _⟩ := layout_eq_ok_iff.mp laid
    rw [tail_of_static static, List.append_nil, length_head, sum_slots sizes, ← hp.length_eq,
      AbiType.headSize_eq, he, Option.getD_some, Nat.mul_comm]
  | _ =>
    obtain ⟨v, _, hw⟩ := encodeAtom_written (mapError_eq_ok_iff.mp h)
    exact hw.length_eq wf hs

/-- An encoder and the decoder agree on a value. -/
def AgreeOn (type : AbiType) (j : Json) (data : Bytes) (v : Value) : Prop :=
  denoted? type j = some v ∧ ∀ rest, decode type (data ++ rest) = some (v, data.length)

theorem readsBack_replicate {type : AbiType} {items : List Json} {parts : List Bytes}
    (h : List.Forall₂ (fun j part => ∃ v, AgreeOn type j part v) items parts) :
    ∃ vs, items.mapM (denoted? type) = some vs ∧
      ReadsBack (List.replicate items.length (type.fixedSize?.isNone, decode type))
        (parts.map fun part => (type.isDynamic, part)) vs := by
  induction h with
  | nil => exact ⟨[], rfl, .nil⟩
  | cons first _ ih =>
    obtain ⟨v, denoted, reads⟩ := first
    obtain ⟨vs, hd, hr⟩ := ih
    refine ⟨v :: vs, by simp [denoted, hd], ?_⟩
    rw [AbiType.isDynamic_eq] at *
    exact .cons reads hr

theorem decodeTuple_layoutItems {type : AbiType} (wf : type.WellFormed) {items : List Json}
    {data : Bytes} (h : layoutItems type (encodeValue type) items = .ok data)
    (each : ∀ {j part}, encodeValue type j = .ok part → part.length < 2 ^ 256 →
      ∃ v, AgreeOn type j part v) :
    ∃ vs, items.mapM (denoted? type) = some vs ∧ ∀ rest,
      decodeTuple (items.length * type.fixedSize?.getD 32)
        (List.replicate items.length (type.fixedSize?.isNone, decode type)) (data ++ rest) =
        some (vs, data.length) := by
  obtain ⟨_, parts, hp, laid⟩ := layoutItems_eq_ok h
  have sizes : ∀ part ∈ parts, ∀ size, type.fixedSize? = some size → part.length = size := by
    intro part hm size hsize
    obtain ⟨j, hj⟩ := exists_of_mem_right hp hm
    exact length_encodeValue wf hj hsize
  have small : ∀ part ∈ parts, part.length < 2 ^ 256 :=
    fun part hm => length_part_lt laid (List.mem_map_of_mem hm)
  have agree : List.Forall₂ (fun j part => ∃ v, AgreeOn type j part v) items parts :=
    ((List.forall₂_and_left parts items).mpr ⟨small, hp.flip⟩).flip.imp
      fun j part hj => each hj.2 hj.1
  obtain ⟨vs, hd, hr⟩ := readsBack_replicate agree
  refine ⟨vs, hd, fun rest => decodeTuple_layout hr ?_ ?_ rest⟩
  · rw [sum_slots sizes, hp.length_eq, AbiType.headSize_eq]
  · rwa [← AbiType.headSize_eq]

theorem decode_encodeValue {type : AbiType} (wf : type.WellFormed) {j : Json} {data : Bytes}
    (h : encodeValue type j = .ok data) (bound : data.length < 2 ^ 256) :
    ∃ v, AgreeOn type j data v := by
  induction type generalizing j data with
  | array item ih =>
    obtain ⟨items, body, rfl, hl, rfl⟩ := encodeValue_array_eq_ok h
    have wf_item : item.WellFormed := wf
    obtain ⟨vs, hd, hr⟩ := decodeTuple_layoutItems wf_item hl (ih wf_item)
    have count : items.length < 2 ^ 256 := (layoutItems_eq_ok hl).1.trans (by decide)
    refine ⟨.items vs, by simp [denoted?, hd], fun rest => ?_⟩
    rw [decode, List.append_assoc, word?_word_append count, List.drop_left' (by simp [word])]
    simp [hr, word]
  | fixedArray item count ih =>
    obtain ⟨items, rfl, rfl, hl⟩ := encodeValue_fixedArray_eq_ok h
    have wf_item : item.WellFormed := wf
    obtain ⟨vs, hd, hr⟩ := decodeTuple_layoutItems wf_item hl (ih wf_item)
    refine ⟨.items vs, by simp [denoted?, hd], fun rest => ?_⟩
    rw [decode, hr]
    rfl
  | _ =>
    obtain ⟨v, hd, hw⟩ := encodeAtom_written (mapError_eq_ok_iff.mp h)
    exact ⟨v, hd, fun rest => decodeAtom_append hw wf bound rest⟩

theorem encodeTuple_eq_ok {params : List (AbiType × Json)} {data : Bytes}
    (h : encodeTuple params = .ok data) : ∃ parts,
      List.Forall₂ (fun p part => encodeValue p.1 p.2 = .ok part.2 ∧ part.1 = p.1.isDynamic)
        params parts ∧
      layout (params.map fun p => p.1.headSize).sum parts = .ok data := by
  have size : params.foldl (fun n p => n + p.1.headSize) 0 =
      (params.map fun p => p.1.headSize).sum := by
    rw [List.sum_eq_foldl, List.foldl_map]
  unfold encodeTuple at h
  simp only at h
  split at h
  · cases h
  · obtain ⟨parts, hp, hl⟩ := bind_eq_ok_iff.mp h
    refine ⟨parts, (mapM_eq_ok_iff.mp hp).imp fun p part hpart => ?_, size ▸ hl⟩
    obtain ⟨data, hd, he⟩ := bind_eq_ok_iff.mp hpart
    obtain rfl : (p.1.isDynamic, data) = part := Except.ok.inj he
    exact ⟨hd, rfl⟩

/-- The types of the parameters, as their names say, and their values. -/
inductive Typed : List Json → List (AbiType × Json) → Prop
  | nil : Typed [] []
  | cons {name : String} {j : Json} {type : AbiType} {params : List Json}
      {typed : List (AbiType × Json)} (named : AbiType.parse name = .ok type)
      (rest : Typed params typed) : Typed (.str name :: j :: params) ((type, j) :: typed)

theorem typed_of_pairs {position : Nat} {params : List Json} {named : List (String × Json)}
    {typed : List (AbiType × Json)} (even : params.length % 2 = 0)
    (hp : pairs position params = .ok named)
    (ht : List.Forall₂ (fun p t => AbiType.parse p.1 = .ok t.1 ∧ p.2 = t.2) named typed) :
    Typed params typed := by
  induction position, params using pairs.induct generalizing named typed with
  | case1 position name value rest no_text => simp [pairs, no_text] at hp
  | case2 position name value rest s text ih =>
    simp only [pairs, text, bind_eq_ok_iff, pure, Except.pure, Except.ok.injEq] at hp
    obtain ⟨others, ho, rfl⟩ := hp
    obtain rfl : name = .str s := by
      cases name with
      | str _ => simpa [Json.str?] using text
      | _ => cases text
    cases ht with
    | @cons _ t _ _ first ht =>
      obtain ⟨type, j⟩ := t
      obtain ⟨hty, rfl⟩ := first
      simp only [List.length_cons] at even
      exact .cons hty (ih (by omega) ho ht)
  | case3 params position short =>
    rcases params with _ | ⟨name, _ | ⟨value, rest⟩⟩
    · cases hp
      cases ht
      exact .nil
    · simp at even
    · exact absurd rfl (short name value rest)

theorem typed_of_names {params : List Json} {named : List (String × Json)}
    {typed : List (AbiType × Json)} (shape : checkShape params = .ok named)
    (ht : named.mapM (fun p => return (← readType p.1, p.2)) = .ok typed) :
    Typed params typed := by
  rw [checkShape] at shape
  split at shape
  · cases shape
  · refine typed_of_pairs (by omega) shape ((mapM_eq_ok_iff.mp ht).imp fun p t hpt => ?_)
    obtain ⟨type, hty, he⟩ := bind_eq_ok_iff.mp hpt
    obtain rfl : (type, p.2) = t := Except.ok.inj he
    exact ⟨mapError_eq_ok_iff.mp hty, rfl⟩

theorem typed_of_encodeParams {params : List Json} {data : Bytes}
    (h : encodeParams params = .ok data) :
    ∃ typed, Typed params typed ∧ encodeTuple typed = .ok data := by
  unfold encodeParams at h
  obtain ⟨named, shape, h⟩ := bind_eq_ok_iff.mp h
  obtain ⟨typed, ht, htuple⟩ := bind_eq_ok_iff.mp h
  exact ⟨typed, typed_of_names shape ht, htuple⟩

/-- The values that typed parameters denote, each read back from its part. -/
theorem denotes_of_typed {params : List Json} {typed : List (AbiType × Json)}
    (ht : Typed params typed) {parts : List (Bool × Bytes)}
    (h : List.Forall₂ (fun p part => encodeValue p.1 p.2 = .ok part.2 ∧ part.1 = p.1.isDynamic)
      typed parts) (small : ∀ p ∈ parts, p.2.length < 2 ^ 256) :
    ∃ vs, Denotes params (typed.map Prod.fst) vs ∧
      ReadsBack ((typed.map Prod.fst).map fun t => (t.fixedSize?.isNone, decode t)) parts vs ∧
      (parts.map fun p => if p.1 then 32 else p.2.length).sum =
        ((typed.map Prod.fst).map AbiType.headSize).sum := by
  induction ht generalizing parts with
  | nil =>
    cases h
    exact ⟨[], .nil, .nil, rfl⟩
  | @cons name j type params typed named _ ih =>
    cases h with
    | @cons _ part _ parts first others =>
      obtain ⟨dynamic, data⟩ := part
      obtain ⟨he, rfl⟩ := first
      have wf := AbiType.parse_wellFormed named
      obtain ⟨v, hv, hr⟩ := decode_encodeValue wf he (small _ List.mem_cons_self)
      obtain ⟨vs, hvs, hrs, hsum⟩ := ih others fun p hm => small p (List.mem_cons_of_mem _ hm)
      refine ⟨v :: vs, .cons named hv hvs, ?_, ?_⟩
      · simp only [List.map_cons, AbiType.isDynamic_eq]
        exact .cons hr hrs
      · simp only [List.map_cons, List.sum_cons, hsum]
        rw [slot_eq fun size => length_encodeValue wf he]

theorem decodeParams_of_encodeParams {params : List Json} {data : Bytes}
    (h : encodeParams params = .ok data) :
    ∃ types vs, Denotes params types vs ∧ decodeParams types data = some vs := by
  obtain ⟨typed, ht, htuple⟩ := typed_of_encodeParams h
  obtain ⟨parts, hp, laid⟩ := encodeTuple_eq_ok htuple
  obtain ⟨vs, hd, hr, hsum⟩ := denotes_of_typed ht hp fun p hm => length_part_lt laid hm
  have head : ((typed.map Prod.fst).map fun t => t.fixedSize?.getD 32).sum =
      (typed.map fun p => p.1.headSize).sum := by
    simp only [List.map_map, Function.comp_def, AbiType.headSize_eq]
  have whole := decodeTuple_layout hr ?_ laid []
  · refine ⟨_, vs, hd, ?_⟩
    rw [List.append_nil] at whole
    rw [decodeParams, head, whole]
    simp
  · rw [hsum, List.map_map]
    rfl

theorem Denotes.unique {params : List Json} {types types' : List AbiType} {vs vs' : List Value}
    (h : Denotes params types vs) (h' : Denotes params types' vs') : types = types' ∧ vs = vs' := by
  induction h generalizing types' vs' with
  | nil =>
    cases h'
    exact ⟨rfl, rfl⟩
  | cons named denoted _ ih =>
    cases h' with
    | cons named' denoted' rest' =>
      obtain ⟨rfl, rfl⟩ := ih rest'
      obtain rfl := Except.ok.inj (named.symm.trans named')
      obtain rfl := Option.some.inj (denoted.symm.trans denoted')
      exact ⟨rfl, rfl⟩

theorem length_selector (method : String) : (selector method).length = 4 := by
  rw [selector, List.length_take, length_keccak256]
  rfl

/-- What the encoder takes reads back as the values that were given, so that parameters
of the same types with the same encoding have the same values, and a call has four
octets in front of them. -/
theorem decodeParams_encodeParams {params : List Json} {data : Bytes}
    (h : encodeParams params = .ok data) :
    (∃ types vs, Denotes params types vs ∧ decodeParams types data = some vs ∧
      ∀ params' vs', Denotes params' types vs' → encodeParams params' = .ok data → vs' = vs) ∧
    ∀ method, encodeCall method params = .ok (selector method ++ data) ∧
      (selector method).length = 4 := by
  constructor
  · obtain ⟨types, vs, hd, hr⟩ := decodeParams_of_encodeParams h
    refine ⟨types, vs, hd, hr, fun params' vs' hd' h' => ?_⟩
    obtain ⟨types', vs'', hd'', hr''⟩ := decodeParams_of_encodeParams h'
    obtain ⟨rfl, rfl⟩ := hd'.unique hd''
    exact Option.some.inj (hr''.symm.trans hr)
  · intro method
    refine ⟨?_, length_selector method⟩
    rw [encodeCall, h]
    rfl

/-- Two lists of numbers in a fixed array, and a text behind it. -/
def nestedSample : List Json :=
  [.str "uint8[][2]", .arr [.arr [.int 1, .str "0x2"], .arr []], .str "string", .str "a"]

def nestedData : Bytes :=
  [64, 256, 64, 160, 2, 1, 2, 0, 1].flatMap word ++ 97 :: Bytes.zeros 31

theorem encodeParams_nestedSample : encodeParams nestedSample = .ok nestedData := by
  have base : AbiType.parseChars "uint8".toList = .ok (.uint 8) := by
    rw [AbiType.parseChars]
    rfl
  have inner : AbiType.parseChars "uint8[]".toList = .ok (.array (.uint 8)) :=
    AbiType.parseChars_array (by decide) base
  have split : AbiType.splitSuffix? (Text.trimChars "uint8[][2]".toList) =
      some ("uint8[]".toList, some ['2']) := by
    decide
  have outer : AbiType.parse "uint8[][2]" = .ok (.fixedArray (.array (.uint 8)) 2) :=
    AbiType.parseChars_fixedArray split (by decide) inner
  have text : AbiType.parse "string" = .ok .string := by
    rw [AbiType.parse, AbiType.parseChars]
    rfl
  have tuple : encodeTuple [(.fixedArray (.array (.uint 8)) 2,
      .arr [.arr [.int 1, .str "0x2"], .arr []]), (.string, .str "a")] = .ok nestedData := by
    decide +kernel
  simpa [encodeParams, nestedSample, checkShape, pairs, readType, Json.str?, outer, text, bind,
    Except.bind, pure, Except.pure, Except.mapError] using tuple

theorem decodeParams_nestedSample :
    (∃ types vs, Denotes nestedSample types vs ∧ decodeParams types nestedData = some vs ∧
      ∀ params' vs', Denotes params' types vs' → encodeParams params' = .ok nestedData →
        vs' = vs) ∧
    ∀ method, encodeCall method nestedSample = .ok (selector method ++ nestedData) ∧
      (selector method).length = 4 :=
  decodeParams_encodeParams encodeParams_nestedSample

end Abi

end TronCourier
