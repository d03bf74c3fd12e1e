import Mathlib
import TronCourier.Proofs.Manager.Acceptance

/-! The mailing of a parcel. It goes to the node again as long as the node is busy and the time for
retries is not over. The delay between two times bounds how often, and a node that is always busy
and answers at once gets it exactly so often. -/

namespace TronCourier

/-- What an answer says to a parcel. -/
inductive Tenor
  | accepts
  | defers (last : Node.Verdict)
  | refuses (reason : String)

/-- A parcel goes out to the node. -/
structure Sending where
  start : Nat
  signed : SignedTransaction

/-- The node has answered, or could not be asked. -/
structure Reply where
  time : Nat
  answer : Except Node.Error Node.Verdict

def Reply.tenor (r : Reply) : Tenor :=
  match r.answer with
  | .error e => .refuses e.message
  | .ok v =>
    if v.accepted then .accepts
    else if v.isBusy then .defers v
    else .refuses (v.code.getD "UNKNOWN" ++ ": " ++ v.reason.getD "")

def Reply.Defers (r : Reply) : Prop :=
  ∃ last, r.tenor = .defers last

theorem Reply.Defers.not_accepts {r : Reply} (h : r.Defers) : r.tenor ≠ .accepts := by
  obtain ⟨last, hlast⟩ := h
  rw [hlast]
  nofun

theorem Reply.Defers.not_refuses {r : Reply} (h : r.Defers) (reason : String) :
    r.tenor ≠ .refuses reason := by
  obtain ⟨last, hlast⟩ := h
  rw [hlast]
  nofun

/-- Why a parcel did not go through. -/
inductive Refusal
  | gaveUp (retries : Nat) (last : Node.Verdict)
  | rejected (reason : String)

def Refusal.message : Refusal → String
  | gaveUp retries last =>
    "node busy after " ++ toString retries ++ " retries (" ++ last.code.getD "unknown" ++ ")"
  | rejected reason => reason

theorem Refusal.message_gaveUp (retries : Nat) (last : Node.Verdict) :
    (gaveUp retries last).message =
      "node busy after " ++ toString retries ++ " retries (" ++ last.code.getD "unknown" ++ ")" :=
  rfl

theorem Refusal.message_rejected (reason : String) : (rejected reason).message = reason :=
  rfl

namespace Manager

variable {m : Manager} {now : Nat} {p : Parcel}

/-- How a mailing ends with a reply. If it does not, the parcel is to be sent again. -/
def upshot? (m : Manager) (p : Parcel) (r : Reply) : Option (Except Refusal Unit) :=
  match r.tenor with
  | .accepts => some (.ok ())
  | .refuses reason => some (.error (.rejected reason))
  | .defers last =>
    if m.outOfPatience r.time p then some (.error (.gaveUp p.retries last)) else none

def followUp (m : Manager) (now : Nat) (p : Parcel) : Option (Except Refusal Unit) → Manager
  | some (.ok ()) => m.sent p
  | some (.error refusal) => m.abandon p.tx ("broadcast failed: " ++ refusal.message)
  | none =>
    { m.count fun c => { c with broadcastRetries := c.broadcastRetries + 1 } with
      sender := .asleep { p with retries := p.retries + 1 } (now + m.settings.retryDelayMs) }

theorem answered_sending (m : Manager) (now : Nat) (p : Parcel)
    (answer : Except Node.Error Node.Verdict) :
    m.answered now (.sending p) answer = m.followUp now p (m.upshot? p ⟨now, answer⟩) := by
  cases answer with
  | error e => rfl
  | ok v =>
    change m.judge now p v = _
    unfold judge upshot? Reply.tenor
    dsimp only
    cases v.accepted with
    | true => rfl
    | false =>
      cases v.isBusy with
      | false =>
        simp only [Bool.false_eq_true, Bool.not_false, if_false, if_true, followUp,
          Refusal.message_rejected, String.append_assoc]
      | true =>
        simp only [Bool.false_eq_true, Bool.not_true, if_false, if_true]
        cases m.outOfPatience now p with
        | true =>
          simp only [if_true, followUp, Refusal.message_gaveUp, ← String.append_assoc,
            String.reduceAppend]
        | false => rfl

end Manager

/-- How often a parcel has gone out and what was said to it. It goes out again when a delay has
passed since the node deferred it, if that is within a time from the beginning. -/
structure Schedule (p : Parcel) (delay window : Nat) (sends : List Sending)
    (replies : List Reply) : Prop where
  head : sends[0]? = some ⟨p.since, p.signed⟩
  signed : ∀ x ∈ sends, x.signed = p.signed
  resent : ∀ {i : Nat} {x : Sending}, sends[i + 1]? = some x → ∃ r, replies[i]? = some r ∧
    r.Defers ∧ x.start = r.time + delay ∧ x.start ≤ p.since + window
  ordered : ∀ {i : Nat} {x : Sending} {r : Reply}, sends[i]? = some x → replies[i]? = some r →
    x.start ≤ r.time

theorem getElem?_concat_eq_some_iff {α : Type} {l : List α} {i : Nat} {x y : α} :
    (l ++ [x])[i]? = some y ↔ l[i]? = some y ∨ i = l.length ∧ x = y := by
  rcases Nat.lt_trichotomy i l.length with hlt | rfl | hlt
  · simp [List.getElem?_append_left hlt, hlt.ne]
  · simp
  · have hnone : (l ++ [x])[i]? = none := List.getElem?_eq_none (by simp; omega)
    simp [hnone, List.getElem?_eq_none hlt.le, hlt.ne']

namespace Schedule

variable {p : Parcel} {delay window i : Nat} {sends : List Sending} {replies : List Reply}
  {x : Sending} {r : Reply}

theorem first (p : Parcel) (delay window : Nat) :
    Schedule p delay window [⟨p.since, p.signed⟩] [] where
  head := rfl
  signed x hx := by rw [List.mem_singleton.mp hx]
  resent h := by simp at h
  ordered _ h := by simp at h

theorem reply (h : Schedule p delay window sends replies)
    (hr : ∀ x, sends[replies.length]? = some x → x.start ≤ r.time) :
    Schedule p delay window sends (replies ++ [r]) where
  head := h.head
  signed := h.signed
  resent hx := by
    obtain ⟨r, hr, hrest⟩ := h.resent hx
    exact ⟨r, getElem?_concat_eq_some_iff.mpr (.inl hr), hrest⟩
  ordered hx hmem := by
    rcases getElem?_concat_eq_some_iff.mp hmem with hmem | ⟨rfl, rfl⟩
    · exact h.ordered hx hmem
    · exact hr _ hx

theorem send (h : Schedule p delay window sends (replies ++ [r]))
    (hlength : sends.length = replies.length + 1) (hdefers : r.Defers)
    (hwithin : r.time + delay ≤ p.since + window) :
    Schedule p delay window (sends ++ [⟨r.time + delay, p.signed⟩]) (replies ++ [r]) where
  head := getElem?_concat_eq_some_iff.mpr (.inl h.head)
  signed x hx := by
    rcases List.mem_append.mp hx with hx | hx
    · exact h.signed x hx
    · rw [List.mem_singleton.mp hx]
  resent hx := by
    rcases getElem?_concat_eq_some_iff.mp hx with hx | ⟨hi, rfl⟩
    · exact h.resent hx
    · have hi : _ = replies.length := Nat.succ.inj (hi.trans hlength)
      exact ⟨r, getElem?_concat_eq_some_iff.mpr (.inr ⟨hi, rfl⟩), hdefers, rfl, hwithin⟩
  ordered hx hmem := by
    rcases getElem?_concat_eq_some_iff.mp hx with hx | ⟨rfl, -⟩
    · exact h.ordered hx hmem
    · rw [List.getElem?_eq_none (by simp [hlength])] at hmem
      cases hmem

theorem start_le (h : Schedule p delay window sends replies) (hx : x ∈ sends) :
    x.start ≤ p.since + window := by
  obtain ⟨i, hx⟩ := List.mem_iff_getElem?.mp hx
  cases i with
  | zero =>
    rw [h.head, Option.some.injEq] at hx
    simp [← hx]
  | succ i =>
    obtain ⟨-, -, -, -, hwithin⟩ := h.resent hx
    exact hwithin

/-- Before each time that the parcel goes out again there is another, with a reply. -/
theorem before (h : Schedule p delay window sends replies) (hx : sends[i + 1]? = some x) :
    ∃ y r, sends[i]? = some y ∧ replies[i]? = some r ∧ x.start = r.time + delay := by
  obtain ⟨r, hr, -, hstart, -⟩ := h.resent hx
  have hlt : i < sends.length := Nat.lt_of_succ_lt (List.getElem?_eq_some_iff.mp hx).1
  exact ⟨sends[i], r, List.getElem?_eq_getElem hlt, hr, hstart⟩

/-- Each time is a delay later than the one before at least. -/
theorem le_start (h : Schedule p delay window sends replies) (hx : sends[i]? = some x) :
    p.since + i * delay ≤ x.start := by
  induction i generalizing x with
  | zero =>
    rw [h.head, Option.some.injEq] at hx
    simp [← hx]
  | succ i ih =>
    obtain ⟨y, r, hy, hr, hstart⟩ := h.before hx
    have hbefore := ih hy
    have hordered := h.ordered hy hr
    rw [hstart, Nat.succ_mul]
    omega

theorem length_pos (h : Schedule p delay window sends replies) : 0 < sends.length :=
  (List.getElem?_eq_some_iff.mp h.head).1

theorem length_le (h : Schedule p delay window sends replies) (hdelay : 0 < delay) :
    sends.length ≤ 1 + window / delay := by
  have hpos := h.length_pos
  have hlt : sends.length - 1 < sends.length := by omega
  have hx := List.getElem?_eq_getElem hlt
  have hstart := h.le_start hx
  have hwithin := h.start_le (List.mem_of_getElem? hx)
  have hle : sends.length - 1 ≤ window / delay :=
    (Nat.le_div_iff_mul_le hdelay).mpr (by omega)
  omega

/-- Without a moment between a sending and its reply, each time is exactly a delay later. -/
theorem start_eq (h : Schedule p delay window sends replies)
    (hprompt : ∀ (i : Nat) (x : Sending) (r : Reply), sends[i]? = some x →
      replies[i]? = some r → r.time = x.start)
    (hx : sends[i]? = some x) : x.start = p.since + i * delay := by
  induction i generalizing x with
  | zero =>
    rw [h.head, Option.some.injEq] at hx
    simp [← hx]
  | succ i ih =>
    obtain ⟨y, r, hy, hr, hstart⟩ := h.before hx
    rw [hstart, hprompt i y r hy hr, ih hy, Nat.succ_mul, Nat.add_assoc]

end Schedule

/-- The parcel that a sender is at. -/
def Sender.parcel? : Sender → Option Parcel
  | .busy (.sending p) | .asleep p _ => some p
  | _ => none

/-- How a mailing ends with a reply, after the parcel went out again so many times. -/
inductive Closes (p : Parcel) (delay window retries : Nat) (r : Reply) :
    Except Refusal Unit → Prop
  | accepted (h : r.tenor = .accepts) : Closes p delay window retries r (.ok ())
  | rejected {reason : String} (h : r.tenor = .refuses reason) :
      Closes p delay window retries r (.error (.rejected reason))
  | late {last : Node.Verdict} (h : r.tenor = .defers last)
      (hlate : p.since + window < r.time + delay) :
      Closes p delay window retries r (.error (.gaveUp retries last))

/-- What a sender is at in the course of a mailing. The parcel is out, or the sender sleeps after a
reply, or a reply has ended the mailing. All replies before have deferred the parcel. -/
inductive Standing (p : Parcel) (delay window now : Nat) (sends : List Sending) :
    List Reply → Option (Except Refusal Unit) → Sender → Prop
  | out {replies : List Reply} (hlength : sends.length = replies.length + 1)
      (hdefers : ∀ r ∈ replies, r.Defers)
      (hsince : p.since ≤ now) (hnow : ∀ x, sends[replies.length]? = some x → x.start ≤ now) :
      Standing p delay window now sends replies none
        (.busy (.sending { p with retries := replies.length }))
  | asleep {before : List Reply} {r : Reply} (hlength : sends.length = before.length + 1)
      (hdefers : ∀ x ∈ before ++ [r], x.Defers) (hwithin : r.time + delay ≤ p.since + window) :
      Standing p delay window now sends (before ++ [r]) none
        (.asleep { p with retries := before.length + 1 } (r.time + delay))
  | ended {before : List Reply} {r : Reply} {x : Except Refusal Unit} {sender : Sender}
      (hlength : sends.length = before.length + 1) (hdefers : ∀ r ∈ before, r.Defers)
      (hx : Closes p delay window before.length r x) (hsender : sender.parcel? = none) :
      Standing p delay window now sends (before ++ [r]) (some x) sender

namespace Manager

theorem parcel?_sent (m : Manager) (p : Parcel) : (m.sent p).sender.parcel? = none := by
  unfold sent
  split <;> rfl

theorem outOfPatience_iff {m : Manager} {now : Nat} {p : Parcel} (hsince : p.since ≤ now) :
    m.outOfPatience now p = true ↔
      p.since + m.settings.maxRetrySecs * 1000 < now + m.settings.retryDelayMs := by
  rw [outOfPatience, decide_eq_true_iff]
  omega

end Manager

namespace Standing

variable {p : Parcel} {delay window now now' : Nat} {sends : List Sending} {replies : List Reply}
  {result : Option (Except Refusal Unit)} {sender : Sender}

theorem later (h : Standing p delay window now sends replies result sender) (hle : now ≤ now') :
    Standing p delay window now' sends replies result sender := by
  cases h with
  | out hlength hdefers hsince hnow =>
    exact .out hlength hdefers (hsince.trans hle) fun x hx => (hnow x hx).trans hle
  | asleep hlength hdefers hwithin => exact .asleep hlength hdefers hwithin
  | ended hlength hdefers hx hsender => exact .ended hlength hdefers hx hsender

theorem first (hretries : p.retries = 0) :
    Standing p delay window p.since [⟨p.since, p.signed⟩] [] none (.busy (.sending p)) := by
  have hp : p = { p with retries := 0 } := by rw [← hretries]
  have h : Standing p delay window p.since [⟨p.since, p.signed⟩] [] none
      (.busy (.sending { p with retries := 0 })) := .out rfl nofun (Nat.le_refl _) (by simp)
  rwa [← hp] at h

/-- A parcel that is out went out before. -/
theorem start_le_now {q : Parcel} {x : Sending}
    (h : Standing p delay window now sends replies result (.busy (.sending q)))
    (hx : sends[replies.length]? = some x) : x.start ≤ now := by
  cases h with
  | ended _ _ _ hsender => cases hsender
  | out _ _ _ hnow => exact hnow x hx

theorem heard {m : Manager} {q : Parcel}
    (h : Standing p m.settings.retryDelayMs (m.settings.maxRetrySecs * 1000) now sends replies
      result (.busy (.sending q)))
    (answer : Except Node.Error Node.Verdict) :
    Standing p m.settings.retryDelayMs (m.settings.maxRetrySecs * 1000) now sends
      (replies ++ [⟨now, answer⟩]) (m.upshot? q ⟨now, answer⟩)
      (m.followUp now q (m.upshot? q ⟨now, answer⟩)).sender := by
  cases h with
  | ended _ _ _ hsender => cases hsender
  | out hlength hdefers hsince hnow =>
    unfold Manager.upshot?
    cases htenor : Reply.tenor ⟨now, answer⟩ with
    | accepts => exact .ended hlength hdefers (.accepted htenor) (m.parcel?_sent _)
    | refuses reason => exact .ended hlength hdefers (.rejected htenor) rfl
    | defers last =>
      have hiff := Manager.outOfPatience_iff (m := m)
        (p := { p with retries := replies.length }) hsince
      cases hover : m.outOfPatience now { p with retries := replies.length } with
      | true =>
        simp only [if_true]
        exact .ended hlength hdefers (.late htenor (hiff.mp hover)) rfl
      | false =>
        have hwithin : now + m.settings.retryDelayMs ≤
            p.since + m.settings.maxRetrySecs * 1000 := by
          by_contra hlate
          have htrue := hiff.mpr (Nat.lt_of_not_le hlate)
          rw [hover] at htrue
          cases htrue
        simp only [Bool.false_eq_true, if_false]
        have hall := List.forall_mem_append.mpr
          ⟨hdefers, List.forall_mem_singleton.mpr ⟨last, htenor⟩⟩
        exact .asleep hlength hall hwithin

theorem resent {q : Parcel} (hs : Schedule p delay window sends replies)
    (h : Standing p delay window now sends replies result (.asleep q now)) :
    Schedule p delay window (sends ++ [⟨now, q.signed⟩]) replies ∧
      Standing p delay window now (sends ++ [⟨now, q.signed⟩]) replies result
        (.busy (.sending q)) := by
  generalize hsender : Sender.asleep q now = sender at h
  cases h with
  | out => cases hsender
  | ended _ _ _ hnone =>
    rw [← hsender] at hnone
    cases hnone
  | @asleep before r hlength hdefers hwithin =>
    cases hsender
    have hnext := hs.send hlength (hdefers r (by simp)) hwithin
    have hstart := hnext.le_start (getElem?_concat_eq_some_iff.mpr (.inr ⟨rfl, rfl⟩))
    have hstanding : Standing p delay window (r.time + delay)
        (sends ++ [⟨r.time + delay, p.signed⟩]) (before ++ [r]) none
        (.busy (.sending { p with retries := (before ++ [r]).length })) := by
      refine .out (by simp [hlength]) hdefers (Nat.le_of_add_right_le hstart) fun x hx => ?_
      rw [List.length_append, List.length_singleton, ← hlength] at hx
      rw [List.getElem?_concat_length, Option.some.injEq] at hx
      rw [← hx]
    rw [List.length_append, List.length_singleton] at hstanding
    exact ⟨hnext, hstanding⟩

end Standing

namespace System

/-- The course of a mailing from the moment when the parcel goes out for the first time. Other parts
may take steps meanwhile, requests may come in, and time may pass. A sender that sleeps wakes up
when it is to. -/
inductive Mailing (s₀ : System) :
    List Sending → List Reply → Option (Except Refusal Unit) → System → Prop
  | first {p : Parcel} (h : s₀.manager.sender = .busy (.sending p)) :
      Mailing s₀ [⟨s₀.now, p.signed⟩] [] none s₀
  | meanwhile {sends : List Sending} {replies : List Reply}
      {result : Option (Except Refusal Unit)} {s s' : System} {act : Act}
      (h : Mailing s₀ sends replies result s) (hs : Step s act s')
      (hsame : s'.manager.sender = s.manager.sender) : Mailing s₀ sends replies result s'
  | heard {sends : List Sending} {replies : List Reply}
      {result : Option (Except Refusal Unit)} {s s' : System} {p : Parcel}
      {answer : Except Node.Error Node.Verdict} (h : Mailing s₀ sends replies result s)
      (hs : Step s (.answered (.sending p) answer) s') :
      Mailing s₀ sends (replies ++ [⟨s.now, answer⟩]) (s.manager.upshot? p ⟨s.now, answer⟩) s'
  | resent {sends : List Sending} {replies : List Reply}
      {result : Option (Except Refusal Unit)} {s s' : System} {p : Parcel}
      (h : Mailing s₀ sends replies result s) (hasleep : s.manager.sender = .asleep p s.now)
      (hs : Step s .silent s') (hsending : s'.manager.sender = .busy (.sending p)) :
      Mailing s₀ (sends ++ [⟨s.now, p.signed⟩]) replies result s'

/-- The identical octets go out each time, again only after the node has deferred them and within a
time from the beginning. The mailing succeeds when the node accepts them, and ends at once when it
refuses them. With a delay they go out so often at most, and exactly so often if the node always
defers them and answers at once. -/
structure Orderly (first : Sending) (delay window : Nat) (sends : List Sending)
    (replies : List Reply) (result : Option (Except Refusal Unit)) : Prop where
  signed : ∀ x ∈ sends, x.signed = first.signed
  replies_le : replies.length ≤ sends.length
  deferred : ∀ (i : Nat) (x : Sending), sends[i + 1]? = some x →
    ∃ r, replies[i]? = some r ∧ r.Defers
  accepted_iff : result = some (.ok ()) ↔ ∃ r, replies.getLast? = some r ∧ r.tenor = .accepts
  refused : ∀ (i : Nat) (r : Reply) (reason : String), replies[i]? = some r →
    r.tenor = .refuses reason →
    sends.length = i + 1 ∧ replies.length = i + 1 ∧ result = some (.error (.rejected reason))
  start_le : ∀ x ∈ sends, x.start ≤ first.start + window
  length_le : 0 < delay → sends.length ≤ 1 + window / delay
  ended : 0 < delay → 1 + window / delay ≤ replies.length → result ≠ none
  length_eq : 0 < delay → result ≠ none → (∀ r ∈ replies, r.Defers) →
    (∀ (i : Nat) (x : Sending) (r : Reply), sends[i]? = some x → replies[i]? = some r →
      r.time = x.start) → sends.length = 1 + window / delay

namespace Orderly

variable {p : Parcel} {delay window now : Nat} {sends : List Sending} {replies before : List Reply}
  {result : Option (Except Refusal Unit)} {sender : Sender} {r : Reply}

/-- Of all replies to a mailing that is not over, each has deferred the parcel. -/
theorem of_open (hs : Schedule p delay window sends replies)
    (hle : replies.length ≤ sends.length) (hdefers : ∀ r ∈ replies, r.Defers)
    (hlength : 0 < delay → replies.length < 1 + window / delay) :
    Orderly ⟨p.since, p.signed⟩ delay window sends replies none where
  signed := hs.signed
  replies_le := hle
  deferred i x hx := by
    obtain ⟨r, hr, hdefers, -⟩ := hs.resent hx
    exact ⟨r, hr, hdefers⟩
  accepted_iff := by
    refine ⟨nofun, ?_⟩
    rintro ⟨r, hr, haccepts⟩
    exact absurd haccepts (hdefers r (List.mem_of_mem_getLast? hr)).not_accepts
  refused i r reason hr hreason :=
    absurd hreason ((hdefers r (List.mem_of_getElem? hr)).not_refuses reason)
  start_le x hx := hs.start_le hx
  length_le := hs.length_le
  ended hdelay hle := absurd (hlength hdelay) (Nat.not_lt.mpr hle)
  length_eq _ hne := absurd rfl hne

theorem of_ended {x : Except Refusal Unit}
    (hs : Schedule p delay window sends (before ++ [r]))
    (hlength : sends.length = before.length + 1) (hdefers : ∀ r ∈ before, r.Defers)
    (hx : Closes p delay window before.length r x) :
    Orderly ⟨p.since, p.signed⟩ delay window sends (before ++ [r]) (some x) where
  signed := hs.signed
  replies_le := by simp [hlength]
  deferred i x hx := by
    obtain ⟨r, hr, hdefers, -⟩ := hs.resent hx
    exact ⟨r, hr, hdefers⟩
  accepted_iff := by
    rw [List.getLast?_concat]
    constructor
    · intro hok
      cases hx with
      | accepted h => exact ⟨r, rfl, h⟩
      | rejected _ | late _ _ => cases hok
    · rintro ⟨_, hr, haccepts⟩
      cases hr
      cases hx with
      | accepted _ => rfl
      | rejected h | late h _ => rw [haccepts] at h; cases h
  refused i r' reason hr hreason := by
    rcases getElem?_concat_eq_some_iff.mp hr with hr | ⟨rfl, rfl⟩
    · exact absurd hreason ((hdefers r' (List.mem_of_getElem? hr)).not_refuses reason)
    · refine ⟨hlength, by simp, ?_⟩
      cases hx with
      | accepted h | late h _ => rw [hreason] at h; cases h
      | rejected h =>
        rw [hreason] at h
        cases h
        rfl
  start_le x hx := hs.start_le hx
  length_le := hs.length_le
  ended _ _ := nofun
  length_eq hdelay _ hall hprompt := by
    have hr := hall r (List.mem_append_right _ (List.mem_singleton_self r))
    cases hx with
    | accepted h => exact absurd h hr.not_accepts
    | rejected h => exact absurd h (hr.not_refuses _)
    | late _ hlate =>
      -- The last time is within the window, and a delay later would not have been.
      have hlt : before.length < sends.length := by omega
      have hsend := List.getElem?_eq_getElem hlt
      have hstart := hs.start_eq hprompt hsend
      have htime := hprompt _ _ r hsend (by simp)
      have hbelow : window < sends.length * delay := by
        rw [hlength, Nat.succ_mul]
        omega
      have hle := (Nat.div_lt_iff_lt_mul hdelay).mpr hbelow
      have hge := hs.length_le hdelay
      omega

theorem of_standing (hs : Schedule p delay window sends replies)
    (h : Standing p delay window now sends replies result sender) :
    Orderly ⟨p.since, p.signed⟩ delay window sends replies result := by
  cases h with
  | out hlength hdefers hsince hnow =>
    refine of_open hs (by omega) hdefers fun hdelay => ?_
    have hle := hs.length_le hdelay
    omega
  | @asleep before r hlength hdefers hwithin =>
    -- Were the parcel to go out again, that would be in order too.
    have hnext := hs.send hlength (hdefers r (by simp)) hwithin
    refine of_open hs (by simp [hlength]) hdefers fun hdelay => ?_
    have hle := hnext.length_le hdelay
    simp only [List.length_append, List.length_singleton] at hle ⊢
    omega
  | ended hlength hdefers hx hsender => exact of_ended hs hlength hdefers hx

end Orderly

namespace Mailing

open Manager

variable {s₀ s : System} {p : Parcel} {sends : List Sending} {replies : List Reply}
  {result : Option (Except Refusal Unit)}

theorem course (h : Mailing s₀ sends replies result s)
    (hp : s₀.manager.sender = .busy (.sending p)) (hsince : p.since = s₀.now)
    (hretries : p.retries = 0) :
    s.manager.settings = s₀.manager.settings ∧
    Schedule p s₀.manager.settings.retryDelayMs (s₀.manager.settings.maxRetrySecs * 1000) sends
      replies ∧
    Standing p s₀.manager.settings.retryDelayMs (s₀.manager.settings.maxRetrySecs * 1000) s.now
      sends replies result s.manager.sender := by
  induction h with
  | first h =>
    cases h.symm.trans hp
    rw [h, ← hsince]
    exact ⟨rfl, .first .., .first hretries⟩
  | meanwhile _ hs hsame ih =>
    obtain ⟨hsettings, hschedule, hstanding⟩ := ih
    refine ⟨hs.fixed.1.trans hsettings, hschedule, ?_⟩
    rw [hsame]
    exact hstanding.later hs.now_le
  | @heard sends replies result s s' q answer _ hs ih =>
    obtain ⟨hsettings, hschedule, hstanding⟩ := ih
    rw [hs.attempting] at hstanding
    refine ⟨hs.fixed.1.trans hsettings, ?_, ?_⟩
    · exact hschedule.reply fun x hx => hstanding.start_le_now hx
    · rw [hs.answered_eq, answered_sending]
      rw [← hsettings] at hstanding ⊢
      exact hstanding.heard answer
  | @resent sends replies result s s' q _ hasleep hs hsending ih =>
    obtain ⟨hsettings, hschedule, hstanding⟩ := ih
    rw [hasleep] at hstanding
    obtain ⟨hnext, hstanding⟩ := hstanding.resent hschedule
    rw [hsending]
    exact ⟨hs.fixed.1.trans hsettings, hnext, hstanding.later hs.now_le⟩

theorem orderly (h : Mailing s₀ sends replies result s)
    (hp : s₀.manager.sender = .busy (.sending p)) (hsince : p.since = s₀.now)
    (hretries : p.retries = 0) :
    Orderly ⟨p.since, p.signed⟩ s₀.manager.settings.retryDelayMs
      (s₀.manager.settings.maxRetrySecs * 1000) sends replies result := by
  obtain ⟨-, hschedule, hstanding⟩ := h.course hp hsince hretries
  exact .of_standing hschedule hstanding

/-- Whatever step is taken while the sender is at the parcel, and has not slept too long, the mailing
goes on, unless the sender is stopped or set going again. -/
theorem next {s' : System} {act : Act} (h : Mailing s₀ sends replies result s)
    (hp : s.manager.sender.parcel? = some p)
    (hawake : ∀ {q : Parcel} {due : Nat}, s.manager.sender = .asleep q due → s.now ≤ due)
    (hs : Step s act s') :
    (∃ sends' replies' result', Mailing s₀ sends' replies' result' s') ∨
      ∃ w, s'.manager = s.manager.halt w ∨ s'.manager = s.manager.spawn w := by
  rcases hs.manager_cases with
    hm | ⟨q, answer, fresh, -, hm⟩ | ⟨w, hm⟩ | ⟨w, hm⟩ | ⟨_, _, _, _, hm⟩
  · rcases hm.owner_cases with
      htake | ⟨a, answer, rfl, ha, -⟩ | ⟨q, due, rfl, hdue, ha, hwake⟩ | ⟨-, _, _, _, _, _, hm⟩ |
      ⟨-, _, _, _, hm⟩
    · obtain ⟨tx, rest, metrics, hidle, -, -⟩ := take?_eq_some htake
      rw [hidle] at hp
      cases hp
    · rw [ha] at hp
      cases a with
      | sending q => exact .inl ⟨_, _, _, h.heard hs⟩
      | _ => cases hp
    · cases Nat.le_antisymm (hawake ha) hdue
      exact .inl ⟨_, _, _, h.resent ha hs (by rw [hwake]; rfl)⟩
    · exact .inl ⟨_, _, _, h.meanwhile hs (by rw [hm])⟩
    · exact .inl ⟨_, _, _, h.meanwhile hs (by rw [hm])⟩
  · exact .inl ⟨_, _, _, h.meanwhile hs (by rw [hm, sender_proceed])⟩
  · exact .inr ⟨w, .inr hm⟩
  · exact .inr ⟨w, .inl hm⟩
  · exact .inl ⟨_, _, _, h.meanwhile hs (by rw [hm])⟩

theorem pass (h : Mailing s₀ sends replies result s) (wait : Nat) :
    Mailing s₀ sends replies result { s with now := s.now + wait } :=
  h.meanwhile (.pass (Nat.le_add_right ..)) rfl

/-- A parcel that is out is answered. Either that ends the mailing, or after a sleep the parcel is
out again. -/
theorem round (h : Mailing s₀ sends replies none s) {q : Parcel}
    (hq : s.manager.sender = .busy (.sending q)) (wait : Nat)
    (answer : Except Node.Error Node.Verdict) :
    (∃ x s', Mailing s₀ sends (replies ++ [⟨s.now + wait, answer⟩]) (some x) s') ∨
    ∃ q' s', Mailing s₀ (sends ++ [⟨s'.now, q'.signed⟩]) (replies ++ [⟨s.now + wait, answer⟩])
      none s' ∧ s'.manager.sender = .busy (.sending q') := by
  have hheard := (h.pass wait).heard (.part (.answered hq answer))
  cases hup : s.manager.upshot? q ⟨s.now + wait, answer⟩ with
  | some x =>
    rw [hup] at hheard
    exact .inl ⟨x, _, hheard⟩
  | none =>
    rw [hup] at hheard
    have hm : s.manager.answered (s.now + wait) (.sending q) answer =
        s.manager.followUp (s.now + wait) q none := by rw [answered_sending, hup]
    rw [hm] at hheard
    have hslept := hheard.pass s.manager.settings.retryDelayMs
    have hresent := hslept.resent rfl (.part (.wake rfl (Nat.le_refl _))) rfl
    exact .inr ⟨{ q with retries := q.retries + 1 }, { s with
      manager := (s.manager.followUp (s.now + wait) q none).wake { q with retries := q.retries + 1 }
      now := s.now + wait + s.manager.settings.retryDelayMs }, hresent, rfl⟩

/-- The node takes so long for each answer, and answers so. -/
def Follows (calls : Nat → Nat × Except Node.Error Node.Verdict) (sends : List Sending)
    (replies : List Reply) : Prop :=
  ∀ (i : Nat) (x : Sending) (r : Reply), sends[i]? = some x → replies[i]? = some r →
    r = ⟨x.start + (calls i).1, (calls i).2⟩

variable {calls : Nat → Nat × Except Node.Error Node.Verdict} {sent : List Sending} {x : Sending}

theorem Follows.reply (h : Follows calls (sent ++ [x]) replies)
    (hlength : sent.length = replies.length) :
    Follows calls (sent ++ [x])
      (replies ++ [⟨x.start + (calls replies.length).1, (calls replies.length).2⟩]) := by
  intro i y r hy hr
  rcases getElem?_concat_eq_some_iff.mp hr with hr | ⟨rfl, rfl⟩
  · exact h i y r hy hr
  · rw [← hlength, List.getElem?_concat_length, Option.some.injEq] at hy
    rw [hy]

theorem Follows.send (h : Follows calls sends replies) (hlength : sends.length = replies.length)
    (x : Sending) : Follows calls (sends ++ [x]) replies := by
  intro i y r hy hr
  rcases getElem?_concat_eq_some_iff.mp hy with hy | ⟨rfl, -⟩
  · exact h i y r hy hr
  · rw [List.getElem?_eq_none hlength.ge] at hr
    cases hr

/-- However long the node takes for its answers and whatever it answers, a mailing comes to its
end. By induction on how often the parcel may still go out. -/
theorem comes_to_end (hp : s₀.manager.sender = .busy (.sending p)) (hsince : p.since = s₀.now)
    (hretries : p.retries = 0) (hdelay : 0 < s₀.manager.settings.retryDelayMs)
    (calls : Nat → Nat × Except Node.Error Node.Verdict) (more : Nat) {q : Parcel}
    (h : Mailing s₀ (sent ++ [⟨s.now, q.signed⟩]) replies none s)
    (hq : s.manager.sender = .busy (.sending q)) (hlength : sent.length = replies.length)
    (hcalls : Follows calls (sent ++ [⟨s.now, q.signed⟩]) replies)
    (hmore : s₀.manager.settings.maxRetrySecs * 1000 / s₀.manager.settings.retryDelayMs <
      sent.length + more) :
    ∃ sends replies x s', Mailing s₀ sends replies (some x) s' ∧ Follows calls sends replies := by
  induction more generalizing sent replies s q with
  | zero =>
    have hle := (h.orderly hp hsince hretries).length_le hdelay
    rw [List.length_append, List.length_singleton] at hle
    omega
  | succ more ih =>
    have hreply := hcalls.reply hlength
    rcases h.round hq (calls replies.length).1 (calls replies.length).2 with
      ⟨x, s', hend⟩ | ⟨q', s', hnext, hq'⟩
    · exact ⟨_, _, x, s', hend, hreply⟩
    · refine ih hnext hq' (by simp [hlength]) (hreply.send (by simp [hlength]) _) ?_
      rw [List.length_append, List.length_singleton]
      omega

end Mailing

/-- A parcel goes out when it is signed. However the system goes on from there, the mailing is
orderly, and what it comes to is what the manager goes on with. With a delay between two times it
comes to its end however long the node takes and whatever it answers. -/
theorem mailing_orderly {s s₀ : System} {tx : Tx} {feeLimit : Int} {u : UnsignedTransaction}
    {signature : Bytes} (hs : Step s (.answered (.signing tx feeLimit u) (.ok signature)) s₀) :
    (∀ {sends : List Sending} {replies : List Reply} {result : Option (Except Refusal Unit)}
      {s' : System}, Mailing s₀ sends replies result s' →
      Orderly ⟨s₀.now, u.withSignature signature⟩ s₀.manager.settings.retryDelayMs
        (s₀.manager.settings.maxRetrySecs * 1000) sends replies result) ∧
    (∀ {s₁ s₂ : System} {p : Parcel} {answer : Except Node.Error Node.Verdict},
      Step s₁ (.answered (.sending p) answer) s₂ →
      s₂.manager = s₁.manager.followUp s₁.now p (s₁.manager.upshot? p ⟨s₁.now, answer⟩)) ∧
    (0 < s₀.manager.settings.retryDelayMs →
      ∀ calls : Nat → Nat × Except Node.Error Node.Verdict, ∃ sends replies x s',
        Mailing s₀ sends replies (some x) s' ∧ Mailing.Follows calls sends replies) := by
  have hp : s₀.manager.sender = .busy (.sending {
      tx, feeLimit, signed := u.withSignature signature, since := s₀.now }) := by
    rw [hs.answered_eq]
    rfl
  refine ⟨fun h => h.orderly hp rfl rfl, fun hstep => ?_, fun hdelay calls => ?_⟩
  · rw [hstep.answered_eq, Manager.answered_sending]
  · have hfirst : Mailing s₀ ([] ++ [⟨s₀.now, u.withSignature signature⟩]) [] none s₀ := .first hp
    refine Mailing.comes_to_end hp rfl rfl hdelay calls
      (s₀.manager.settings.maxRetrySecs * 1000 / s₀.manager.settings.retryDelayMs + 1) hfirst hp
      rfl (fun _ _ _ _ hr => by simp at hr) (by simp)

section Sample

open Manager

def busyVerdict : Node.Verdict :=
  .failure "SERVER_BUSY" "busy"

/-- The keystore is about to be asked for a signature. -/
theorem run_signingSample : ∃ m acts s u, ofSettings {} false = .ok m ∧
    Run { manager := m, now := 0 } acts s ∧
    s.manager.sender = .busy (.signing (.ofRequest "t" sampleRequest) 0 u) ∧
    s.manager.settings = {} := by
  obtain ⟨u, hu⟩ := unsigned_sample
  obtain ⟨call, hcall⟩ : ∃ call, Fee.simulated (.ofRequest "t" sampleRequest) = .ok call :=
    ⟨_, rfl⟩
  obtain ⟨m, acts, s, hm, hrun, hs⟩ := run_estimating (r := sampleRequest) rfl hcall
  obtain ⟨later, hsigning⟩ := hrun.signingFree hs.sender hs.estimator hs.settings rfl
    (hu s.manager "t" hs.settings)
  exact ⟨m, _, _, u, hm, hsigning, rfl, hs.settings⟩

/-- By default there are 30 seconds with a delay of 2 seconds. -/
theorem mailing_orderly_busySample : ∃ m acts s s₀ u sends replies x s',
    ofSettings {} false = .ok m ∧ Run { manager := m, now := 0 } acts s ∧
    Step s (.answered (.signing (.ofRequest "t" sampleRequest) 0 u) (.ok [])) s₀ ∧
    Mailing s₀ sends replies (some x) s' ∧
    Mailing.Follows (fun _ => (0, .ok busyVerdict)) sends replies ∧ sends.length = 16 := by
  obtain ⟨m, acts, s, u, hm, hrun, hsender, hsettings⟩ := run_signingSample
  have hs := Step.part (.answered hsender (.ok []))
  have hsame := hs.fixed.1.trans hsettings
  obtain ⟨horderly, -, hends⟩ := mailing_orderly hs
  rw [hsame] at horderly hends
  obtain ⟨sends, replies, x, s', hmailing, hcalls⟩ :=
    hends (by decide) fun _ => (0, .ok busyVerdict)
  have ho := horderly hmailing
  have hreply (i : Nat) (r : Reply) (hr : replies[i]? = some r) :
      ∃ y, sends[i]? = some y ∧ r = ⟨y.start, .ok busyVerdict⟩ := by
    have hlt := (List.getElem?_eq_some_iff.mp hr).1
    have hy := List.getElem?_eq_getElem (Nat.lt_of_lt_of_le hlt ho.replies_le)
    exact ⟨_, hy, hcalls i _ r hy hr⟩
  have hlength : sends.length = 16 := by
    refine ho.length_eq (by decide) nofun (fun r hr => ?_) fun i y r hy hr => ?_
    · obtain ⟨i, hr⟩ := List.mem_iff_getElem?.mp hr
      obtain ⟨y, -, rfl⟩ := hreply i r hr
      exact ⟨busyVerdict, rfl⟩
    · rw [hcalls i y r hy hr]
      rfl
  exact ⟨m, acts, s, _, u, sends, replies, x, s', hm, hrun, hs, hmailing, hcalls, hlength⟩

end Sample

end System

end TronCourier
