import Mathlib.Tactic.Common

/-!
# A sender and a receiver in lockstep

Two ends of a channel start in the same state. Each message takes both to the same next state, and
what the receiver refuses leaves it where it is. Then the sender's messages arrive in order however
many refused ones are inserted between them.
-/

namespace Lockstep

variable {σ α β γ ε : Type*}

def sendAll (send : σ → α → β × σ) : σ → List α → List β × σ
  | s, [] => ([], s)
  | s, a :: rest =>
    let (b, s') := send s a
    let (sent, last) := sendAll send s' rest
    (b :: sent, last)

def recvAll (recv : σ → β → Except ε γ × σ) : σ → List β → List (Except ε γ) × σ
  | s, [] => ([], s)
  | s, b :: rest =>
    let (r, s') := recv s b
    let (results, last) := recvAll recv s' rest
    (r :: results, last)

/-- The messages of a stream that are the sender's own. -/
def genuine (stream : List (Bool × β)) : List β := (stream.filter (·.1)).map (·.2)

/-- `I` is kept by the sender, and `value` is what a message is for the receiver. -/
structure Keeps (send : σ → α → β × σ) (recv : σ → β → Except ε γ × σ) (value : α → γ)
    (I : σ → Prop) : Prop where
  invariant : ∀ s a, I s → I (send s a).2
  accepts : ∀ s a, I s → recv s (send s a).1 = (.ok (value a), (send s a).2)
  refuses : ∀ s b e, (recv s b).1 = .error e → (recv s b).2 = s

section
variable {send : σ → α → β × σ} {recv : σ → β → Except ε γ × σ} {value : α → γ} {I : σ → Prop}

/-- Every inserted message of the stream is refused in the state in which it arrives. -/
def Refused (recv : σ → β → Except ε γ × σ) (s : σ) (stream : List (Bool × β)) : Prop :=
  ∀ before b after, stream = before ++ (false, b) :: after →
    ∃ e, (recv (recvAll recv s (before.map (·.2))).2 b).1 = .error e

lemma Refused.tail {s : σ} {x : Bool × β} {rest : List (Bool × β)}
    (h : Refused recv s (x :: rest)) : Refused recv (recv s x.2).2 rest := by
  rintro before b after rfl
  exact h (x :: before) b after rfl

theorem Keeps.recvAll_eq (hk : Keeps send recv value I) :
    ∀ (stream : List (Bool × β)) {s : σ} {messages : List α}, I s →
      genuine stream = (sendAll send s messages).1 → Refused recv s stream →
      (recvAll recv s (stream.map (·.2))).1.map Except.isOk = stream.map (·.1) ∧
        (recvAll recv s (stream.map (·.2))).1.filterMap Except.toOption = messages.map value ∧
        (recvAll recv s (stream.map (·.2))).2 = (sendAll send s messages).2 := by
  intro stream
  induction stream with
  | nil =>
    intro s messages _ hgen _
    cases messages with
    | nil => exact ⟨rfl, rfl, rfl⟩
    | cons a rest => cases hgen
  | cons x rest ih =>
    intro s messages hs hgen hrefused
    obtain ⟨own, b⟩ := x
    cases own with
    | true =>
      -- one of the sender's: both ends move on
      cases messages with
      | nil => cases hgen
      | cons a messages =>
        obtain ⟨rfl, hrest⟩ : b = (send s a).1 ∧
            genuine rest = (sendAll send (send s a).2 messages).1 := List.cons.inj hgen
        have htail := hrefused.tail
        simp only [hk.accepts s a hs] at htail
        obtain ⟨hok, hvalues, hlast⟩ := ih (hk.invariant s a hs) hrest htail
        simp only [List.map_cons, recvAll, hk.accepts s a hs, sendAll]
        exact ⟨congrArg _ hok, congrArg _ hvalues, hlast⟩
    | false =>
      -- an inserted one: the receiver stays where it is
      obtain ⟨e, he⟩ := hrefused [] b rest rfl
      have hstay : recv s b = (.error e, s) := Prod.ext he (hk.refuses s b e he)
      have htail := hrefused.tail
      simp only [hstay] at htail
      obtain ⟨hok, hvalues, hlast⟩ := ih hs hgen htail
      simp only [List.map_cons, recvAll, hstay]
      exact ⟨congrArg _ hok, hvalues, hlast⟩

/-- Whatever arrives is accepted after `k` messages only if it is the sender's next one. -/
def Authentic (send : σ → α → β × σ) (recv : σ → β → Except ε γ × σ) (s : σ) (messages : List α)
    (stream : List β) : Prop :=
  ∀ k ≤ messages.length, ∀ b ∈ stream, ∀ v,
    (recv (sendAll send s (messages.take k)).2 b).1 = .ok v →
      ∃ a, messages[k]? = some a ∧ b = (send (sendAll send s (messages.take k)).2 a).1

/-- Then the values accepted are the first so many messages, in order and once each. -/
theorem Keeps.recvAll_take (hk : Keeps send recv value I) :
    ∀ (stream : List β) {s : σ} {messages : List α}, I s → Authentic send recv s messages stream →
      ∃ k ≤ messages.length,
        (recvAll recv s stream).1.filterMap Except.toOption = (messages.take k).map value ∧
          (recvAll recv s stream).2 = (sendAll send s (messages.take k)).2 := by
  intro stream
  induction stream with
  | nil => exact fun {s messages} _ _ => ⟨0, Nat.zero_le _, rfl, rfl⟩
  | cons b rest ih =>
    intro s messages hs hauth
    cases hb : (recv s b).1 with
    | error e =>
      -- refused: the receiver stays where it is
      have hstay : recv s b = (.error e, s) := Prod.ext hb (hk.refuses s b e hb)
      obtain ⟨k, hle, hvalues, hlast⟩ := ih hs fun k hle b' hb' v hv =>
        hauth k hle b' (List.mem_cons_of_mem b hb') v hv
      simp only [recvAll, hstay]
      exact ⟨k, hle, hvalues, hlast⟩
    | ok v =>
      -- accepted: it is the sender's next message, and both ends move on
      obtain ⟨a, ha, rfl⟩ := hauth 0 (Nat.zero_le _) b List.mem_cons_self v hb
      cases messages with
      | nil => cases ha
      | cons a' messages =>
        cases ha
        obtain ⟨k, hle, hvalues, hlast⟩ := ih (hk.invariant s a hs) fun k hle b' hb' v hv =>
          hauth (k + 1) (Nat.succ_le_succ hle) b' (List.mem_cons_of_mem _ hb') v hv
        refine ⟨k + 1, Nat.succ_le_succ hle, ?_⟩
        simp only [List.take_zero, sendAll, recvAll, hk.accepts s a hs]
        exact ⟨congrArg _ hvalues, hlast⟩

end

end Lockstep
