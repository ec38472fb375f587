import Relayly.Lib.Run
import Relayly.Proofs.RelayRouting

/-!
# Pairing codes

A code is drawn from a million, whatever codes are waiting, and `Put` replaces what is stored under
it. It stands for the device that it was given to as long as no other device draws it meanwhile.
-/

namespace Relayly.Relay

/-- The time at which a step reads the clock. -/
def Label.clock : Label → Option ℕ
  | .connect _ _ now _ => some now
  | .handler _ env => some env.now
  | _ => none

namespace Server

variable {s s' : Server} {c : ℕ} {conn : Conn} {env : Env} {l : Label} {k : String}

/-- The code that a step puts into the registry, with its device and the time. -/
def issue (s : Server) : Label → Option (String × String × ℕ)
  | .handler c env => s.conns[c]?.bind fun conn =>
      if conn.pc = .pairRequest then env.code.map fun code => (code, conn.deviceID, env.now) else none
  | _ => none

/-- The code that a step takes from the registry, with the time. -/
def redeem (s : Server) : Label → Option (String × ℕ)
  | .handler c env => s.conns[c]?.bind fun conn =>
      match conn.pc with
      | .pairAccept (.take code) => some (code, env.now)
      | _ => none
  | _ => none

/-- No other device has the code `k` if that is drawn once more before it has expired. -/
def Distinct (k : String) (s : Server) (l : Label) : Prop :=
  ∀ x ∈ s.issue l, x.1 = k → ∀ entry ∈ s.pairCodes k,
    entry.expiresAt < x.2.2 ∨ entry.requesterID = x.2.1

instance (k : String) (s : Server) (l : Label) : Decidable (Distinct k s l) :=
  inferInstanceAs (Decidable (∀ x ∈ s.issue l, x.1 = k → ∀ entry ∈ s.pairCodes k,
    entry.expiresAt < x.2.2 ∨ entry.requesterID = x.2.1))

theorem advance_pairCodes (s : Server) (c : ℕ) (a : Access) (pc : Pc) :
    (s.advance c a pc).pairCodes = a.codesAfter s.pairCodes := by
  cases a <;> rfl

theorem exec_pairCodes {x : Access × Pc} (hc : s.conns[c]? = some conn)
    (hx : exec s c conn env = some x) :
    (∃ code, s.issue (.handler c env) = some (code, conn.deviceID, env.now)
        ∧ x.1.codesAfter s.pairCodes = s.pairCodes.put code conn.deviceID pairingCodeTTL env.now)
      ∨ (∃ code, s.redeem (.handler c env) = some (code, env.now)
        ∧ x.1.codesAfter s.pairCodes = (s.pairCodes.take code env.now).2)
      ∨ x.1.codesAfter s.pairCodes = s.pairCodes := by
  unfold exec at hx
  split at hx
  · split_ifs at hx
    obtain rfl := Option.some.inj hx
    exact Or.inr (Or.inr rfl)
  · next next h =>
    obtain rfl := Option.some.inj hx
    cases next <;> exact Or.inr (Or.inr rfl)
  · cases hx
  · obtain rfl := Option.some.inj hx
    refine Or.inr (Or.inr ?_)
    unfold handleAnnounceKey
    split <;> rfl
  · next h =>
    obtain rfl := Option.some.inj hx
    unfold handlePairRequest
    split
    · exact Or.inr (Or.inr rfl)
    · next code hcode => exact Or.inl ⟨code, by simp [issue, hc, h, hcode], rfl⟩
  · next next h =>
    obtain rfl := Option.some.inj hx
    cases next with
    | take code => exact Or.inr (Or.inl ⟨code, by simp [redeem, hc, h], rfl⟩)
    | pairDevices code r =>
      refine Or.inr (Or.inr ?_)
      simp only [handlePairAccept]
      split <;> rfl
    | _ => exact Or.inr (Or.inr rfl)
  · next next h =>
    obtain rfl := Option.some.inj hx
    cases next with
    | unpairDevice p =>
      refine Or.inr (Or.inr ?_)
      simp only [handleUnpair]
      split <;> rfl
    | _ => exact Or.inr (Or.inr rfl)
  · next next h =>
    refine Or.inr (Or.inr ?_)
    cases next with
    | unregister peer =>
      simp only [route] at hx
      split_ifs at hx
      obtain rfl := Option.some.inj hx
      rfl
    | _ =>
      obtain rfl := Option.some.inj hx
      rfl
  · obtain rfl := Option.some.inj hx
    exact Or.inr (Or.inr rfl)
  · obtain rfl := Option.some.inj hx
    exact Or.inr (Or.inr rfl)
  · obtain rfl := Option.some.inj hx
    exact Or.inr (Or.inr rfl)
  · split_ifs at hx
    obtain rfl := Option.some.inj hx
    exact Or.inr (Or.inr rfl)
  · obtain rfl := Option.some.inj hx
    exact Or.inr (Or.inr rfl)
  · cases hx

/-- A step puts a code into the registry, takes one from it, or leaves it alone. -/
theorem step_pairCodes (h : s.step l = some s') :
    (∃ code d now, s.issue l = some (code, d, now)
        ∧ s'.pairCodes = s.pairCodes.put code d pairingCodeTTL now)
      ∨ (∃ code now, s.redeem l = some (code, now) ∧ s'.pairCodes = (s.pairCodes.take code now).2)
      ∨ s'.pairCodes = s.pairCodes := by
  cases l with
  | connect deviceID token now upgraded =>
    cases h
    rcases s.handler_cases deviceID token now upgraded with heq | ⟨-, device, -, heq⟩ <;>
      exact Or.inr (Or.inr (by rw [heq]))
  | receive c frame =>
    obtain ⟨conn, -, -, rfl⟩ := read_eq_some h
    exact Or.inr (Or.inr rfl)
  | disconnect c =>
    obtain ⟨conn, -, -, rfl⟩ := read_eq_some h
    exact Or.inr (Or.inr rfl)
  | handler c env =>
    obtain ⟨conn, x, hc, hx, rfl⟩ := runHandler_exec h
    rw [advance_pairCodes]
    rcases exec_pairCodes hc hx with ⟨code, hi, ha⟩ | ⟨code, hr, ha⟩ | ha
    · exact Or.inl ⟨code, _, _, hi, ha⟩
    · exact Or.inr (Or.inl ⟨code, _, hr, ha⟩)
    · exact Or.inr (Or.inr ha)
  | write c =>
    cases h
    exact Or.inr (Or.inr rfl)
  | takeRegister =>
    obtain ⟨c, rest, -, -, rfl⟩ := takeRegister_eq_some h
    exact Or.inr (Or.inr rfl)
  | takeUnregister =>
    obtain ⟨c, rest, -, -, rfl⟩ := takeUnregister_eq_some h
    exact Or.inr (Or.inr rfl)
  | hub =>
    refine Or.inr (Or.inr ?_)
    cases runHub_move h with
    | register c client => rw [evict_same]
    | _ => rfl

theorem put_apply (r : PairCodes) (code k d : String) (ttl now : ℕ) :
    r.put code d ttl now k = if k = code then some ⟨d, now + ttl⟩ else r k := by
  simp [PairCodes.put, Function.update_apply]

theorem take_apply (r : PairCodes) (code k : String) (now : ℕ) :
    (r.take code now).2 k = if k = code then none else r k := by
  unfold PairCodes.take
  rcases hr : r code with _ | entry
  · by_cases hk : k = code <;> simp [hk, hr]
  · simp [Function.update_apply]

/-- `k` stands for `a` until `deadline` at least. -/
def StandsFor (s : Server) (k a : String) (deadline : ℕ) : Prop :=
  ∃ entry, s.pairCodes k = some entry ∧ entry.requesterID = a ∧ deadline ≤ entry.expiresAt

/-- A code that is not taken goes on standing for its device, where no other device draws it. -/
theorem StandsFor.step {a : String} {since deadline : ℕ} (h : s.StandsFor k a deadline)
    (hl : s.Distinct k l) (hr : ∀ x ∈ s.redeem l, x.1 ≠ k)
    (hclock : ∀ now ∈ l.clock, since ≤ now ∧ now ≤ deadline) (hd : deadline = since + pairingCodeTTL)
    (hstep : s.step l = some s') : s'.StandsFor k a deadline := by
  obtain ⟨entry, he, ha, hle⟩ := h
  rcases step_pairCodes hstep with ⟨code, d, now, hi, hp⟩ | ⟨code, now, hx, hp⟩ | hp
  · unfold StandsFor
    rw [hp, put_apply]
    split_ifs with hk
    · subst hk
      have hnow : l.clock = some now := by
        cases l with
        | handler c env =>
          obtain ⟨conn, -, hconn⟩ := Option.bind_eq_some_iff.1 hi
          split_ifs at hconn
          obtain ⟨code', -, hx⟩ := Option.map_eq_some_iff.1 hconn
          obtain ⟨-, -, rfl⟩ := by simpa using hx
          rfl
        | _ => cases hi
      obtain ⟨h1, h2⟩ := hclock now hnow
      refine ⟨_, rfl, ?_, by dsimp only; omega⟩
      rcases hl _ hi rfl entry he with hexp | hreq
      · dsimp only at hexp
        omega
      · exact hreq.symm.trans ha
    · exact ⟨entry, he, ha, hle⟩
  · unfold StandsFor
    rw [hp, take_apply, if_neg (hr _ hx).symm]
    exact ⟨entry, he, ha, hle⟩
  · exact ⟨entry, by rw [hp, he], ha, hle⟩

theorem spent_step (h : s.pairCodes k = none) (hi : ∀ x ∈ s.issue l, x.1 ≠ k)
    (hstep : s.step l = some s') : s'.pairCodes k = none := by
  rcases step_pairCodes hstep with ⟨code, d, now, hx, hp⟩ | ⟨code, now, -, hp⟩ | hp
  · rw [hp, put_apply, if_neg (hi _ hx).symm, h]
  · rw [hp, take_apply, h]
    split_ifs <;> rfl
  · rw [hp, h]

/-- `handlePairAccept` with what `Take` gives it. -/
theorem take_step (hc : s.conns[c]? = some conn) (hpc : conn.pc = .pairAccept (.take k))
    (hstep : s.step (.handler c env) = some s') :
    s'.pairCodes = (s.pairCodes.take k env.now).2 ∧ ∃ conn', s'.conns[c]? = some conn'
      ∧ conn'.pc = match (s.pairCodes.take k env.now).1 with
        | .expired => sendError c "code_expired" "pairing code has expired"
        | .unknown => sendError c "invalid_code" "unknown pairing code"
        | .ok requesterID =>
          if requesterID = conn.deviceID then sendError c "invalid_code" "cannot pair with yourself"
          else .pairAccept (.pairDevices k requesterID) := by
  obtain ⟨conn₀, x, hc₀, hx, rfl⟩ := runHandler_exec hstep
  obtain rfl : conn = conn₀ := Option.some.inj (hc.symm.trans hc₀)
  have hx' : exec s c conn env = some (handlePairAccept s c conn env (.take k)) := by
    rw [exec, hpc]
  obtain rfl := Option.some.inj (hx'.symm.trans hx)
  exact ⟨rfl, _, advance_self hc, rfl⟩

/-- `handlePairRequest` with the code that it has drawn. -/
theorem issue_step {a : String} {now : ℕ} (hi : s.issue (.handler c env) = some (k, a, now))
    (hstep : s.step (.handler c env) = some s') :
    now = env.now ∧ s'.pairCodes = s.pairCodes.put k a pairingCodeTTL now := by
  obtain ⟨conn, x, hc, hx, rfl⟩ := runHandler_exec hstep
  have hi' : conn.pc = .pairRequest ∧ env.code = some k ∧ conn.deviceID = a ∧ env.now = now := by
    simpa [issue, hc, and_assoc, and_left_comm] using hi
  obtain ⟨hpc, hcode, rfl, rfl⟩ := hi'
  have hx' : exec s c conn env = some (handlePairRequest s c conn env) := by rw [exec, hpc]
  obtain rfl := Option.some.inj (hx'.symm.trans hx)
  refine ⟨rfl, ?_⟩
  rw [advance_pairCodes, handlePairRequest, hcode]
  rfl

/-- A code that was put into the registry for `a` gives `a` to the first `pair_accept` within its time,
and nothing to those that follow until it is issued again, where no other device draws it while it
waits. -/
theorem take_issued {s₀ s₁ s₂ s₃ : Server} {c₀ c₁ : ℕ} {env₀ env₁ : Env} {a : String}
    {acceptor : Conn} (mid : List Label)
    (hissue : s₀.issue (.handler c₀ env₀) = some (k, a, env₀.now))
    (hsent : s₀.step (.handler c₀ env₀) = some s₁)
    (hmid : Lts.run step s₁ mid = some s₂)
    (hdistinct : Lts.Meets step (Distinct k) s₁ mid)
    (hnone : Lts.Meets step (fun s l => ∀ x ∈ s.redeem l, x.1 ≠ k) s₁ mid)
    (hclock : ∀ l ∈ mid, ∀ now ∈ l.clock, env₀.now ≤ now ∧ now ≤ env₁.now)
    (hc₁ : s₂.conns[c₁]? = some acceptor) (hpc₁ : acceptor.pc = .pairAccept (.take k))
    (htime : env₁.now ≤ env₀.now + pairingCodeTTL)
    (haccept : s₂.step (.handler c₁ env₁) = some s₃) :
    ((s₂.pairCodes.take k env₁.now).1 = .ok a ∧ ∃ conn', s₃.conns[c₁]? = some conn'
        ∧ conn'.pc = if a = acceptor.deviceID then
            sendError c₁ "invalid_code" "cannot pair with yourself"
          else .pairAccept (.pairDevices k a))
      ∧ ∀ (post : List Label) (s₄ s₅ : Server) (c₂ : ℕ) (env₂ : Env) (later : Conn),
        Lts.Meets step (fun s l => ∀ x ∈ s.issue l, x.1 ≠ k) s₃ post →
        Lts.run step s₃ post = some s₄ → s₄.conns[c₂]? = some later →
        later.pc = .pairAccept (.take k) → s₄.step (.handler c₂ env₂) = some s₅ →
        (s₄.pairCodes.take k env₂.now).1 = .unknown ∧ ∃ conn', s₅.conns[c₂]? = some conn'
          ∧ conn'.pc = sendError c₂ "invalid_code" "unknown pairing code" := by
  have hput : s₁.StandsFor k a (env₀.now + pairingCodeTTL) := by
    obtain ⟨-, hp⟩ := issue_step hissue hsent
    exact ⟨_, by rw [hp, put_apply, if_pos rfl], rfl, Nat.le_refl _⟩
  obtain ⟨entry, he, ha, hexp⟩ : s₂.StandsFor k a (env₀.now + pairingCodeTTL) := by
    refine Lts.run_inv (I := fun s => s.StandsFor k a (env₀.now + pairingCodeTTL))
      (fun s l s' hs hl hstep => ?_) mid hput ((hdistinct.and hnone).and_forall hclock) hmid
    obtain ⟨⟨hd, hr⟩, hcl⟩ := hl
    refine hs.step hd hr (fun now hnow => ?_) rfl hstep
    obtain ⟨h1, h2⟩ := hcl now hnow
    exact ⟨h1, Nat.le_trans h2 htime⟩
  have htaken : (s₂.pairCodes.take k env₁.now).1 = .ok a := by
    have : ¬ entry.expiresAt < env₁.now := by omega
    simp [PairCodes.take, he, this, ha]
  obtain ⟨hp, conn', hconn', hpc'⟩ := take_step hc₁ hpc₁ haccept
  refine ⟨⟨htaken, conn', hconn', by rw [hpc', htaken]⟩, ?_⟩
  intro post s₄ s₅ c₂ env₂ later hagain hpost hc₂ hpc₂ hlater
  have hspent : s₃.pairCodes k = none := by rw [hp, take_apply, if_pos rfl]
  have hunknown : (s₄.pairCodes.take k env₂.now).1 = .unknown := by
    have := Lts.run_inv (I := fun s => s.pairCodes k = none)
      (fun _ _ _ hs hl hstep => spent_step hs hl hstep) post hspent hagain hpost
    simp [PairCodes.take, this]
  obtain ⟨-, conn'', hconn'', hpc''⟩ := take_step hc₂ hpc₂ hlater
  exact ⟨hunknown, conn'', hconn'', by rw [hpc'', hunknown]⟩

/-- Three devices that are not paired. -/
def devicesABC : Devices := fun id =>
  if id = "a" ∨ id = "b" ∨ id = "c" then some { deviceToken := "t" } else none

/-- All three are connected, and `a` has asked for a code. -/
def asking : List Label :=
  connecting "a" 0 ++ connecting "b" 1 ++ connecting "c" 2 ++ [Label.receive 0 .pairRequest]

/-- A step at time 0 of a goroutine that draws the given random bytes. -/
def drawStep (c : ℕ) (random : UInt32) : Label := .handler c ⟨0, false, generatePairingCode (some random)⟩

/-- `a` is sent its code, `c` asks for one too and draws `random`, and `b` accepts the code of `a`. -/
def redeeming (random : UInt32) : List Label :=
  [plainStep 0, .receive 2 .pairRequest, drawStep 2 random, plainStep 2,
    .receive 1 (.pairAccept "048392")]

/-- `c` draws random bytes that give the code of `a`, and the `pair_accept` of that code by `b` is
given `c`. -/
theorem take_other :
    ∃ s₀ s₁ s₂ acceptor, Lts.run step (start devicesABC fun _ => none) asking = some s₀
      ∧ s₀.issue (drawStep 0 48392) = some ("048392", "a", 0)
      ∧ s₀.step (drawStep 0 48392) = some s₁
      ∧ Lts.Meets step (fun s l => ∀ x ∈ s.redeem l, x.1 ≠ "048392") s₁ (redeeming 1048392)
      ∧ Lts.run step s₁ (redeeming 1048392) = some s₂
      ∧ s₂.conns[1]? = some acceptor ∧ acceptor.pc = .pairAccept (.take "048392")
      ∧ (s₂.pairCodes.take "048392" 0).1 = .ok "c" := by
  have h : (Lts.run step (start devicesABC fun _ => none) asking).any fun s₀ =>
      decide (s₀.issue (drawStep 0 48392) = some ("048392", "a", 0))
        && (s₀.step (drawStep 0 48392)).any fun s₁ =>
          decide (Lts.Meets step (fun s l => ∀ x ∈ s.redeem l, x.1 ≠ "048392") s₁
            (redeeming 1048392))
          && (Lts.run step s₁ (redeeming 1048392)).any fun s₂ =>
            (s₂.conns[1]?.any fun acceptor => decide (acceptor.pc = .pairAccept (.take "048392")))
              && decide ((s₂.pairCodes.take "048392" 0).1 = .ok "c") := by
    decide +kernel
  simp only [Bool.and_eq_true, decide_eq_true_eq, Option.any_eq_true] at h
  obtain ⟨s₀, h₀, hi, s₁, h₁, hm, s₂, h₂, ⟨acceptor, hc, hpc⟩, ht⟩ := h
  exact ⟨s₀, s₁, s₂, acceptor, h₀, hi, h₁, hm, h₂, hc, hpc, ht⟩

/-- `b` finishes its `pair_accept`, and `c` tries the same code. -/
def retrying : List Label :=
  List.replicate 8 (plainStep 1) ++ [Label.receive 2 (.pairAccept "048392")]

theorem take_issued_apart :
    ∃ (s₂ s₃ s₄ s₅ : Server) (conn conn' : Conn), s₂.step (plainStep 1) = some s₃
      ∧ (s₂.pairCodes.take "048392" 0).1 = .ok "a" ∧ s₃.conns[1]? = some conn
      ∧ conn.pc = .pairAccept (.pairDevices "048392" "a")
      ∧ Lts.run step s₃ retrying = some s₄ ∧ s₄.step (plainStep 2) = some s₅
      ∧ (s₄.pairCodes.take "048392" 0).1 = .unknown ∧ s₅.conns[2]? = some conn'
      ∧ conn'.pc = sendError 2 "invalid_code" "unknown pairing code" := by
  have h : (Lts.run step (start devicesABC fun _ => none) asking).any fun s₀ =>
      decide (s₀.issue (drawStep 0 48392) = some ("048392", "a", 0))
        && (s₀.step (drawStep 0 48392)).any fun s₁ =>
          decide (Lts.Meets step (Distinct "048392") s₁ (redeeming 777777))
          && decide (Lts.Meets step (fun s l => ∀ x ∈ s.redeem l, x.1 ≠ "048392") s₁
            (redeeming 777777))
          && (Lts.run step s₁ (redeeming 777777)).any fun s₂ =>
            (s₂.conns[1]?.any fun acceptor =>
              decide (acceptor.pc = .pairAccept (.take "048392") ∧ acceptor.deviceID = "b"))
            && (s₂.step (plainStep 1)).any fun s₃ =>
              decide (Lts.Meets step (fun s l => ∀ x ∈ s.issue l, x.1 ≠ "048392") s₃ retrying)
              && (Lts.run step s₃ retrying).any fun s₄ =>
                (s₄.conns[2]?.any fun later => decide (later.pc = .pairAccept (.take "048392")))
                && (s₄.step (plainStep 2)).isSome := by
    decide +kernel
  simp only [Bool.and_eq_true, decide_eq_true_eq, Option.any_eq_true, Option.isSome_iff_exists] at h
  obtain ⟨s₀, h₀, hi, s₁, h₁, ⟨hd, hr⟩, s₂, h₂, ⟨acceptor, hc, hpc, hdev⟩, s₃, h₃, ha, s₄, h₄,
    ⟨later, hc', hpc'⟩, s₅, h₅⟩ := h
  obtain ⟨⟨ht, conn, hconn, hnext⟩, hfurther⟩ := take_issued (redeeming 777777) hi h₁ h₂ hd hr
    (by decide) hc hpc (by decide) h₃
  obtain ⟨ht', conn', hconn', hnext'⟩ := hfurther retrying s₄ s₅ 2 _ later ha h₄ hc' hpc' h₅
  exact ⟨s₂, s₃, s₄, s₅, conn, conn', h₃, ht, hconn, by rw [hnext, hdev]; rfl, h₄, h₅, ht', hconn',
    hnext'⟩

end Server

end Relayly.Relay
