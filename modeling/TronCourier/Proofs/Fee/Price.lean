import TronCourier.Proofs.Abi.Numeral
import TronCourier.Proofs.Fee.Exchange
import TronCourier.Proofs.Text.Trim

/-! The price of energy over time. Whatever feeds and failures come, the price that is told is
positive, and only a feed that was read replaces the one that is kept. -/

namespace TronCourier.Fee

/-- The last entry of a feed is a time and a positive price with a colon between them. The time
may be any text. -/
def Quotes (feed : String) (p : Int) : Prop :=
  ∃ front time price : List Char,
    Text.trimChars feed.toList = front ++ (time ++ ':' :: price) ∧
    (front = [] ∨ front.getLast? = some ',') ∧ ',' ∉ time ∧ ',' ∉ price ∧ ':' ∉ time ∧
    Abi.signedDecimal? (Text.trimChars price) = some p ∧ 0 < p ∧ p ≤ int64Max

theorem Quotes.pos {feed : String} {p : Int} (h : Quotes feed p) : 0 < p := by
  obtain ⟨_, _, _, _, _, _, _, _, _, positive, _⟩ := h
  exact positive

section Feed

variable {cs front entry time price : List Char} {feed : String} {p : Int}

/-- The last entry has no comma, and one stands in front of it unless it is the first too. -/
theorem afterLastComma_eq_iff : afterLastComma cs = entry ↔
    ',' ∉ entry ∧ ∃ front, cs = front ++ entry ∧ (front = [] ∨ front.getLast? = some ',') := by
  constructor
  · rintro rfl
    refine ⟨?_, (cs.reverse.dropWhile (· ≠ ',')).reverse, ?_, ?_⟩
    · exact fun h => Text.not_mem_takeWhile ',' cs.reverse (List.mem_reverse.mp h)
    · rw [afterLastComma, ← List.reverse_append, List.takeWhile_append_dropWhile,
        List.reverse_reverse]
    · rw [List.getLast?_reverse, List.reverse_eq_nil_iff]
      cases rest : cs.reverse.dropWhile (· ≠ ',') with
      | nil => exact .inl rfl
      | cons c r =>
        have stops := List.head?_dropWhile_not (· ≠ ',') cs.reverse
        rw [rest] at stops
        exact .inr (by simpa using stops)
  · rintro ⟨sole, front, rfl, ends⟩
    rw [afterLastComma, List.reverse_append]
    have passes : ',' ∉ entry.reverse := fun h => sole (List.mem_reverse.mp h)
    obtain rfl | ends := ends
    · rw [List.reverse_nil, List.append_nil,
        List.takeWhile_eq_self_iff.mpr (Text.ne_of_not_mem passes), List.reverse_reverse]
    · obtain ⟨rest, rfl⟩ := List.getLast?_eq_some_iff.mp ends
      rw [List.reverse_append, List.reverse_singleton, List.singleton_append,
        (Text.takeWhile_of_not_mem passes _).1, List.reverse_reverse]

theorem readPrice_eq_some_iff (positive : 0 < p) : readPrice feed = some p ↔ Quotes feed p := by
  have bounds {v : Int} {cs : List Char} : Text.readInt64 cs = .ok v ↔
      Abi.signedDecimal? cs = some v ∧ int64Min ≤ v ∧ v ≤ int64Max := Abi.readInt_eq_ok_iff
  obtain ⟨entry, he⟩ : ∃ entry, afterLastComma (Text.trimChars feed.toList) = entry := ⟨_, rfl⟩
  obtain ⟨sole, front, split, ends⟩ := afterLastComma_eq_iff.mp he
  rw [readPrice, he]
  constructor
  · intro h
    split at h
    · rename_i price hd
      split at h
      · rename_i v hv
        split at h
        · obtain rfl : v = p := Option.some.inj h
          obtain ⟨value, _, high⟩ := bounds.mp hv
          have whole := List.takeWhile_append_dropWhile (p := (· ≠ ':')) (l := entry)
          rw [hd] at whole
          rw [← whole] at split sole
          rw [List.mem_append, List.mem_cons, not_or, not_or] at sole
          refine ⟨front, _, price, split, ends, sole.1, sole.2.2,
            Text.not_mem_takeWhile ':' entry, value, positive, high⟩
        · cases h
      · cases h
    · cases h
  · rintro ⟨front', time, price, split', ends', no_comma, no_comma', no_colon, value, _, high⟩
    have last : afterLastComma (Text.trimChars feed.toList) = time ++ ':' :: price := by
      refine afterLastComma_eq_iff.mpr ⟨?_, front', split', ends'⟩
      rw [List.mem_append, List.mem_cons, not_or, not_or]
      exact ⟨no_comma, by decide, no_comma'⟩
    obtain rfl := he.symm.trans last
    have read := bounds.mpr ⟨value, by simp only [int64Min]; omega, high⟩
    rw [(Text.takeWhile_of_not_mem no_colon _).2]
    simp only [read]
    rw [if_pos positive.le]

end Feed

namespace Estimator

variable {σ : Type} {node : Node.Service σ} {clock : σ → Nat} {e e' : Estimator}
  {past past' : List Node.Exchange}

theorem priceOfFeed_of_quotes {feed : String} {p : Int} (h : Quotes feed p) :
    e.priceOfFeed feed = p := by
  have positive := h.pos
  rw [priceOfFeed, (readPrice_eq_some_iff positive).mpr h]
  split
  · rename_i zero
    cases zero
    omega
  · rename_i none
    cases none
  · rename_i other
    exact (Option.some.inj other).symm

theorem priceOfFeed_of_not_quotes {feed : String} (h : ∀ p, ¬Quotes feed p) :
    e.priceOfFeed feed = e.defaultPrice := by
  have low : ∀ p, readPrice feed = some p → p = 0 := by
    intro p hp
    by_contra nonzero
    have nonneg : 0 ≤ p := by
      unfold readPrice at hp
      grind
    exact h p ((readPrice_eq_some_iff (by omega)).mp hp)
  rw [priceOfFeed]
  split
  · rfl
  · rfl
  · rename_i price nonzero hp
    exact absurd (low price hp) (by rintro rfl; exact nonzero rfl)

theorem priceOfFeed_pos (positive : 0 < e.defaultPrice) (feed : String) :
    0 < e.priceOfFeed feed := by
  by_cases h : ∃ p, Quotes feed p
  · obtain ⟨p, h⟩ := h
    rw [priceOfFeed_of_quotes h]
    exact h.pos
  · rw [priceOfFeed_of_not_quotes fun p hp => h ⟨p, hp⟩]
    exact positive

/-- What stays of an estimator that began without a price, and what its price is like. -/
structure Priced (e₀ e : Estimator) : Prop where
  refreshMs : e.refreshMs = e₀.refreshMs
  defaultPrice : e.defaultPrice = e₀.defaultPrice
  positive : 0 < e.defaultPrice
  kept : ∀ c, e.cached = some c → 0 < c.price

variable {e₀ : Estimator}

theorem Priced.weighs {tx : Tx} {news : List Node.Exchange} {r : Except EstimateError Int}
    (hp : Priced e₀ e) (h : Weighs e tx news e' r) : Priced e₀ e' := by
  cases h with
  | unencoded | estimated | failed | simulated => exact hp
  | turned => exact ⟨hp.refreshMs, hp.defaultPrice, hp.positive, hp.kept⟩

theorem Priced.prices {asked told : Nat} {news : List Node.Exchange} {p : Int}
    (hp : Priced e₀ e) (h : Prices e asked told news e' p) : Priced e₀ e' ∧ 0 < p := by
  cases h with
  | kept fresh =>
    refine ⟨hp, ?_⟩
    unfold freshPrice? at fresh
    split at fresh
    · rename_i c hc
      split at fresh
      · cases fresh
        exact hp.kept c hc
      · cases fresh
    · cases fresh
  | @fetched _ answer _ _ h =>
    cases answer with
    | ok feed =>
      cases h
      have positive := priceOfFeed_pos hp.positive feed
      refine ⟨⟨hp.refreshMs, hp.defaultPrice, hp.positive, ?_⟩, positive⟩
      rintro c ⟨⟩
      exact positive
    | error cause =>
      cases h
      refine ⟨hp, ?_⟩
      cases hc : e.cached with
      | none => exact hp.positive
      | some c => exact hp.kept c hc

theorem Run.priced (h₀ : Priced e₀ e₀) (h : Run node clock e₀ past e) : Priced e₀ e := by
  induction h with
  | start => exact h₀
  | energy _ tx hr ih =>
    obtain ⟨_, _, course, _⟩ := energy_weighs hr
    exact ih.weighs course
  | price _ hr ih =>
    obtain ⟨_, _, course, _⟩ := price_prices hr
    exact (ih.prices course).1

theorem freshPrice?_eq_some_iff {now : Nat} {p : Int} :
    e.freshPrice? now = some p ↔
      ∃ c, e.cached = some c ∧ now - c.fetchedAt < e.refreshMs ∧ p = c.price := by
  unfold freshPrice?
  split
  · rename_i c hc
    simp only [hc, Option.some.injEq, exists_eq_left']
    split
    · rename_i young
      simp [young, eq_comm]
    · rename_i old
      simp [old]
  · rename_i none
    simp [none]

/-- The price that is told is positive at any time. A young price is told without a question; a
feed that was read replaces it, by the default if the feed quotes none; a failure leaves all as
it was. -/
theorem price_always_usable {refreshMs : Nat} {defaultPrice : Int} (positive : 0 < defaultPrice)
    (h : Run node clock { refreshMs, defaultPrice } past e) {w w' : σ} {p : Int}
    (hr : (e.price node.recorded (clock ∘ Prod.fst)).run (w, past) = ((e', p), (w', past'))) :
    1 ≤ p ∧
    (∀ c, e.cached = some c → clock w - c.fetchedAt < refreshMs →
      p = c.price ∧ e' = e ∧ w' = w ∧ past' = past) ∧
    ((∀ c, e.cached = some c → refreshMs ≤ clock w - c.fetchedAt) →
      ∃ answer, past' = past ++ [Node.Exchange.prices answer] ∧
        (∀ feed, answer = .ok feed →
          e' = { e with cached := some ⟨p, clock w'⟩ } ∧
          (∀ q, Quotes feed q → p = q) ∧ ((∀ q, ¬Quotes feed q) → p = defaultPrice)) ∧
        ∀ cause, answer = .error cause →
          e' = e ∧ (∀ c, e.cached = some c → p = c.price) ∧
            (e.cached = none → p = defaultPrice)) := by
  have priced := h.priced ⟨rfl, rfl, positive, by rintro c ⟨⟩⟩
  obtain ⟨news, rfl, course, silent⟩ := price_prices hr
  refine ⟨(priced.prices course).2, fun c hc young => ?_, fun old => ?_⟩
  · have fresh : e.freshPrice? (clock w) = some c.price :=
      freshPrice?_eq_some_iff.mpr ⟨c, hc, by rw [priced.refreshMs]; exact young, rfl⟩
    cases course with
    | kept told => exact ⟨Option.some.inj (told.symm.trans fresh), rfl, silent rfl,
        List.append_nil past⟩
    | fetched stale => rw [fresh] at stale; cases stale
  · cases course with
    | kept told =>
      obtain ⟨c, hc, young, _⟩ := freshPrice?_eq_some_iff.mp told
      rw [priced.refreshMs] at young
      exact absurd young (old c hc).not_gt
    | @fetched _ answer _ _ told =>
      refine ⟨answer, rfl, ?_, ?_⟩
      · rintro feed rfl
        cases told
        refine ⟨rfl, fun q hq => priceOfFeed_of_quotes hq, fun none => ?_⟩
        rw [priceOfFeed_of_not_quotes none, priced.defaultPrice]
      · rintro cause rfl
        cases told
        refine ⟨rfl, fun c hc => by rw [hc]; rfl, fun none => ?_⟩
        rw [none]
        exact priced.defaultPrice

theorem not_quotes_of_readPrice {feed : String} (h : readPrice feed = none) (p : Int) :
    ¬Quotes feed p := by
  intro quotes
  rw [(readPrice_eq_some_iff quotes.pos).mpr quotes] at h
  cases h

section Sample

/-- A node whose feed fails at first and later again, and ends up without a price. -/
def moodySample : Node.Service Nat :=
  { slowSample with
    prices := fun now =>
      (if now < 10 ∨ 100000 ≤ now ∧ now < 200000 then .error (.http "prices" 503)
        else if now < 200000 then .ok "0:100,1:210" else .ok "0:100,1:", now + 5) }

def askMoody (e : Estimator) (now : Nat) (past : List Node.Exchange) :
    (Estimator × Int) × (Nat × List Node.Exchange) :=
  (e.price moodySample.recorded (id ∘ Prod.fst)).run (now, past)

/-- A price has come at moment 15. -/
def pricedSample : Estimator :=
  { freshSample with cached := some ⟨210, 15⟩ }

def pricedPast : List Node.Exchange :=
  [.prices (.error (.http "prices" 503)), .prices (.ok "0:100,1:210")]

theorem ask_freshSample : askMoody freshSample 0 [] =
    ((freshSample, 420), (5, [.prices (.error (.http "prices" 503))])) := by
  rw [askMoody, run_price]
  rfl

theorem run_pricedSample : Run moodySample id freshSample pricedPast pricedSample := by
  have asked : askMoody freshSample 10 [.prices (.error (.http "prices" 503))] =
      ((pricedSample, 210), (15, pricedPast)) := by
    rw [askMoody, run_price]
    rfl
  exact .price (.price .start ask_freshSample) asked

/-- The default is told until there is a price. The price is told without a question while it is
young, and later in place of a feed that fails. A feed without a price brings the default back. -/
theorem price_always_usable_pricedSample :
    (0 : Int) < 420 ∧ Run moodySample id freshSample pricedPast pricedSample ∧
    (∃ p w past, askMoody freshSample 0 [] = ((freshSample, p), (w, past)) ∧ p = 420) ∧
    (∃ p w, askMoody pricedSample 60014 pricedPast = ((pricedSample, p), (w, pricedPast)) ∧
      p = 210 ∧ w = 60014) ∧
    (∃ p w past, askMoody pricedSample 100000 pricedPast = ((pricedSample, p), (w, past)) ∧
      p = 210) ∧
    ∃ e p w past, askMoody pricedSample 200000 pricedPast = ((e, p), (w, past)) ∧ p = 420 ∧
      e.cached = some ⟨420, 200005⟩ := by
  have positive : (0 : Int) < 420 := by decide
  have run := run_pricedSample
  have kept : askMoody pricedSample 60014 pricedPast =
      ((pricedSample, 210), (60014, pricedPast)) := by
    rw [askMoody, run_price]
    rfl
  have failed : askMoody pricedSample 100000 pricedPast =
      ((pricedSample, 210), (100005, pricedPast ++ [.prices (.error (.http "prices" 503))])) := by
    rw [askMoody, run_price]
    rfl
  have blank : askMoody pricedSample 200000 pricedPast =
      (({ pricedSample with cached := some ⟨420, 200005⟩ }, 420),
        (200005, pricedPast ++ [.prices (.ok "0:100,1:")])) := by
    rw [askMoody, run_price]
    rfl
  have old {now : Nat} (h : 60015 ≤ now) :
      ∀ c, pricedSample.cached = some c → 60000 ≤ now - c.fetchedAt := by
    rintro c ⟨⟩
    show 60000 ≤ now - 15
    omega
  refine ⟨positive, run, ?_, ?_, ?_, ?_⟩
  · obtain ⟨-, -, fetched⟩ := price_always_usable positive .start ask_freshSample
    obtain ⟨answer, past_eq, -, lost⟩ := fetched nofun
    cases past_eq
    exact ⟨_, _, _, ask_freshSample, (lost _ rfl).2.2 rfl⟩
  · obtain ⟨-, young, -⟩ := price_always_usable positive run kept
    obtain ⟨told, -, world, -⟩ := young ⟨210, 15⟩ rfl (by decide)
    exact ⟨_, _, kept, told, world⟩
  · obtain ⟨-, -, fetched⟩ := price_always_usable positive run failed
    obtain ⟨answer, past_eq, -, lost⟩ := fetched (old (by decide))
    cases List.append_cancel_left past_eq
    exact ⟨_, _, _, failed, (lost _ rfl).2.1 ⟨210, 15⟩ rfl⟩
  · obtain ⟨-, -, fetched⟩ := price_always_usable positive run blank
    obtain ⟨answer, past_eq, came, -⟩ := fetched (old (by decide))
    cases List.append_cancel_left past_eq
    obtain ⟨-, -, unquoted⟩ := came _ rfl
    have none : readPrice "0:100,1:" = none := by decide +kernel
    exact ⟨_, _, _, _, blank, unquoted (not_quotes_of_readPrice none), rfl⟩

end Sample

end Estimator

end TronCourier.Fee
