import Relayly.Proofs.RateLimit

/-!
# What an address gets in a window, whatever the clean-up does

The clean-up may delete a bucket that has been used since it was found stale, so that its tokens are
handed out a second time. `left` bounds what an address can still get in the interval of one window
from `start` on: the tokens of its bucket, those of a refill, which needs a window that began before
the interval, and those of the bucket that follows one about to be deleted. A bucket that was last
used more than a window before the interval is worth two, since its next use refills it and it may be
found stale before that. No step raises it by more than is granted.
-/

namespace Relayly.Relay

namespace Limiter

/-- The calls that are allowed. -/
def granted (rl : IPRateLimiter) (s : Limiter) : LimiterEvent → Option (String × ℤ)
  | .allow ip now => if (rl.allow s.buckets ip now).1 then some (ip, now) else none
  | _ => none

/-- Those of one address in the window's length from `start` on. -/
def inWindow (rl : IPRateLimiter) (ip : String) (start : ℤ) (call : String × ℤ) : Bool :=
  call.1 = ip ∧ start ≤ call.2 ∧ call.2 < start + rl.window

section potential

variable (rl : IPRateLimiter) (start : ℤ)

/-- What a bucket can give in the rest of the interval, if `doomed` says that it may be deleted. -/
def worth (doomed : Prop) [Decidable doomed] : Option TokenBucket → ℤ
  | none => rl.maxTokens
  | some b =>
    if b.lastSeen < start - rl.window then 2 * rl.maxTokens
    else b.tokens + (if b.windowStart < start then rl.maxTokens else 0)
      + (if doomed then rl.maxTokens else 0)

/-- What address `ip` can get in the rest of the interval. -/
def left (ip : String) (s : Limiter) : ℤ :=
  if s.clock < start then 3 * rl.maxTokens - 1
  else if start + rl.window ≤ s.clock then 0
  else worth rl start (s.pending = some ip) (s.buckets ip)

end potential

variable {rl : IPRateLimiter} {ip : String} {start : ℤ} {s s' : Limiter}

/-- The bucket of the address has given away a token of its window, and the clean-up goes by a time
two windows ago. -/
structure Sane (rl : IPRateLimiter) (ip : String) (s : Limiter) : Prop where
  good : ∀ b, s.buckets ip = some b → b.Good rl ∧ b.lastSeen ≤ s.clock
  tokens : ∀ b, s.buckets ip = some b → 0 ≤ b.tokens ∧ b.tokens < rl.maxTokens
  cutoff_le : ∀ cutoff, s.cutoff = some cutoff → cutoff + rl.window * 2 ≤ s.clock
  held : s.pending = some ip → s.buckets ip ≠ none

/-- What a step does to the bucket of an address. -/
inductive Moves (rl : IPRateLimiter) (ip : String) (s s' : Limiter) : LimiterEvent → Prop
  | call (now : ℤ) (hnow : s.clock ≤ now)
    (hbucket : s'.buckets ip = some (OnDemand.reply rl.machine s.buckets ip now).2)
    (hcleanup : s'.cleanup = s.cleanup) (hclock : s'.clock = now) : Moves rl ip s s' (.allow ip now)
  | other (event : LimiterEvent) (hcall : ∀ now, event ≠ .allow ip now) (hclock : s.clock ≤ s'.clock)
    (hbucket : s'.buckets ip = s.buckets ip) (hpending : s'.pending = some ip ↔ s.pending = some ip)
    (hcutoff : ∀ c, s'.cutoff = some c → s.cutoff = some c ∨ c + rl.window * 2 ≤ s'.clock) :
    Moves rl ip s s' event
  | marks (b : TokenBucket) (cutoff : ℤ) (hclock : s'.clock = s.clock) (hb : s.buckets ip = some b)
    (hbucket : s'.buckets ip = some b) (hstale : b.lastSeen < cutoff) (hcutoff : s.cutoff = some cutoff)
    (hcutoff' : s'.cutoff = some cutoff) (hpending : s.pending = none) : Moves rl ip s s' (.check ip)
  | deletes (hclock : s'.clock = s.clock) (hpending : s.pending = some ip) (hbucket : s'.buckets ip = none)
    (hcutoff : s'.cutoff = s.cutoff) (hpending' : s'.pending = none) : Moves rl ip s s' .delete

theorem step_moves (ip : String) {event : LimiterEvent} (h : s.step rl event = some s') :
    Moves rl ip s s' event := by
  cases event with
  | allow ip' now =>
    simp only [step, Option.ite_none_right_eq_some, Option.some.injEq] at h
    obtain ⟨hnow, rfl⟩ := h
    by_cases hip : ip' = ip
    · subst hip
      exact .call now hnow OnDemand.call_snd_self rfl rfl
    · refine .other _ (fun now' h => hip (by cases h; rfl)) hnow ?_ Iff.rfl fun c hc => .inl hc
      exact OnDemand.call_snd_of_ne (Ne.symm hip)
  | tick now =>
    simp only [step] at h
    split at h
    · next hwait =>
      simp only [Option.ite_none_right_eq_some, Option.some.injEq] at h
      obtain ⟨hnow, rfl⟩ := h
      refine .other _ (by simp) hnow rfl (by simp [pending, hwait]) fun c hc => .inr ?_
      obtain rfl : now + -rl.window * 2 = c := Option.some.inj hc
      show now + -rl.window * 2 + rl.window * 2 ≤ now
      omega
    · cases h
  | check key =>
    simp only [step] at h
    split at h
    · next cutoff visited b hcleanup hb =>
      have hpending : s.pending = none := by rw [pending, hcleanup]
      have hcutoff : s.cutoff = some cutoff := by rw [Limiter.cutoff, hcleanup]
      split_ifs at h with hvisited hstale
      · cases h
        by_cases hkey : key = ip
        · subst hkey
          exact .marks b cutoff rfl hb hb hstale hcutoff rfl hpending
        · refine .other _ (by simp) le_rfl rfl ?_ fun c hc => .inl (hcutoff.trans hc)
          rw [hpending]
          simp [pending, hkey]
      · cases h
        refine .other _ (by simp) le_rfl rfl ?_ fun c hc => .inl (hcutoff.trans hc)
        rw [hpending]
        simp [pending]
    · cases h
  | delete =>
    simp only [step] at h
    split at h
    · next cutoff visited key hcleanup =>
      have hpending : s.pending = some key := by rw [pending, hcleanup]
      have hcutoff : s.cutoff = some cutoff := by rw [Limiter.cutoff, hcleanup]
      cases h
      by_cases hkey : key = ip
      · subst hkey
        exact .deletes rfl hpending (Function.update_self ..) hcutoff.symm rfl
      · refine .other _ (by simp) le_rfl (Function.update_of_ne (Ne.symm hkey) ..) ?_
          fun c hc => .inl (hcutoff.trans hc)
        rw [hpending]
        simp [pending, hkey]
    · cases h
  | endRange =>
    simp only [step] at h
    split at h
    · next cutoff visited hcleanup =>
      cases h
      refine .other _ (by simp) le_rfl rfl (by simp [pending, hcleanup]) fun c hc => ?_
      cases hc
    · cases h

/-- A call finds a full bucket, new or refilled, or takes a token of the window if there is one. -/
theorem reply_cases (hmax : 0 < rl.maxTokens) (h : Sane rl ip s) {now : ℤ} :
    (∀ b, s.buckets ip = some b → b.windowStart + rl.window ≤ now)
        ∧ OnDemand.reply rl.machine s.buckets ip now
          = (true, { rl.newBucket now with tokens := rl.maxTokens - 1 })
      ∨ ∃ b allowed, s.buckets ip = some b ∧ now < b.windowStart + rl.window
        ∧ OnDemand.reply rl.machine s.buckets ip now
          = (allowed, { b with
              lastSeen := now
              tokens := b.tokens - if allowed then 1 else 0 })
        ∧ 0 ≤ b.tokens - if allowed then 1 else 0 := by
  have hfull : (rl.newBucket now).allow now
      = (true, { rl.newBucket now with tokens := rl.maxTokens - 1 }) := by
    rw [allow_newBucket, if_neg (by omega)]
  rcases hb : s.buckets ip with _ | b
  · refine .inl ⟨by simp, ?_⟩
    rw [OnDemand.reply, hb]
    exact hfull
  · have hgood := (h.good b hb).1
    have htokens := h.tokens b hb
    have hreply : OnDemand.reply rl.machine s.buckets ip now = b.allow now := by
      rw [OnDemand.reply, hb]
      rfl
    by_cases hpassed : b.windowStart + rl.window ≤ now
    · refine .inl ⟨fun b' hb' => ?_, hreply.trans ((hgood.allow_eq hpassed).trans hfull)⟩
      cases hb'
      exact hpassed
    · have hwithin : ¬ now - b.windowStart ≥ b.window := by
        rw [hgood.window]
        omega
      refine .inr ⟨b, decide (0 < b.tokens), rfl, by omega, hreply.trans ?_, ?_⟩
      · by_cases hleft : 0 < b.tokens
        · simp [TokenBucket.allow, hwithin, hleft]
        · have hnone : b.tokens ≤ 0 := by omega
          simp [TokenBucket.allow, hwithin, hleft, hnone]
      · by_cases hleft : 0 < b.tokens <;> simp [hleft] <;> omega

theorem Sane.step (hmax : 0 < rl.maxTokens) (h : Sane rl ip s) {event : LimiterEvent}
    (hstep : s.step rl event = some s') : Sane rl ip s' := by
  cases step_moves ip hstep with
  | call now hnow hbucket hcleanup hclock =>
    have hcutoff : s'.cutoff = s.cutoff := by rw [cutoff, cutoff, hcleanup]
    refine ⟨fun b hb => ?_, fun b hb => ?_, fun c hc => ?_, fun _ => by simp [hbucket]⟩
    · rw [hbucket] at hb
      cases hb
      rw [hclock]
      rcases reply_cases hmax h with ⟨-, hreply⟩ | ⟨b, allowed, hb, -, hreply, -⟩
      · rw [hreply]
        exact ⟨⟨rfl, rfl, le_rfl⟩, le_rfl⟩
      · rw [hreply]
        obtain ⟨hgood, hseen⟩ := h.good b hb
        exact ⟨⟨hgood.maxTokens, hgood.window, hgood.started.trans (hseen.trans hnow)⟩, le_rfl⟩
    · rw [hbucket] at hb
      cases hb
      rcases reply_cases hmax h with ⟨-, hreply⟩ | ⟨b, allowed, hb, -, hreply, hleft⟩
      · rw [hreply]
        dsimp only
        omega
      · rw [hreply]
        have htokens := h.tokens b hb
        refine ⟨hleft, ?_⟩
        dsimp only
        split_ifs <;> omega
    · have hle := h.cutoff_le c (hcutoff ▸ hc)
      rw [hclock]
      omega
  | other _ _ hclock hbucket hpending hcutoff =>
    refine ⟨fun b hb => ?_, fun b hb => ?_, fun c hc => ?_, fun hp => ?_⟩
    · obtain ⟨hgood, hseen⟩ := h.good b (hbucket ▸ hb)
      exact ⟨hgood, hseen.trans hclock⟩
    · exact h.tokens b (hbucket ▸ hb)
    · rcases hcutoff c hc with hold | hnew
      · exact (h.cutoff_le c hold).trans hclock
      · exact hnew
    · rw [hbucket]
      exact h.held (hpending.1 hp)
  | marks b cutoff hclock hb hbucket hstale hcutoff hcutoff' hpending =>
    refine ⟨fun b' hb' => ?_, fun b' hb' => ?_, fun c hc => ?_, fun _ => by simp [hbucket]⟩
    · rw [hclock]
      exact h.good b' (hb.trans (hbucket.symm.trans hb'))
    · exact h.tokens b' (hb.trans (hbucket.symm.trans hb'))
    · rw [hclock]
      exact h.cutoff_le c (hcutoff.trans (hcutoff'.symm.trans hc))
  | deletes hclock hpending hbucket hcutoff hpending' =>
    refine ⟨by simp [hbucket], by simp [hbucket], fun c hc => ?_, by simp [hpending']⟩
    rw [hclock]
    exact h.cutoff_le c (hcutoff ▸ hc)

/-! ## No step raises what is left -/

section worth

variable (start) (doomed : Prop) [Decidable doomed]

theorem worth_nonneg (hmax : 0 < rl.maxTokens) (h : Sane rl ip s) :
    0 ≤ worth rl start doomed (s.buckets ip) := by
  rcases hb : s.buckets ip with _ | b
  · exact hmax.le
  · have htokens := h.tokens b hb
    simp only [worth]
    split_ifs <;> omega

theorem worth_le (hmax : 0 < rl.maxTokens) (h : Sane rl ip s) :
    worth rl start doomed (s.buckets ip) ≤ 3 * rl.maxTokens - 1 := by
  rcases hb : s.buckets ip with _ | b
  · simp only [worth]
    omega
  · have htokens := h.tokens b hb
    simp only [worth]
    split_ifs <;> omega

variable {start}

/-- What a call in the interval is granted comes off what the bucket is worth. -/
theorem worth_call (hmax : 0 < rl.maxTokens) (h : Sane rl ip s) (hheld : doomed → s.buckets ip ≠ none)
    {now : ℤ} (hstart : start ≤ now) (hend : now < start + rl.window) :
    (if (OnDemand.reply rl.machine s.buckets ip now).1 then 1 else 0)
        + worth rl start doomed (some (OnDemand.reply rl.machine s.buckets ip now).2)
      ≤ worth rl start doomed (s.buckets ip) := by
  have hpos := rl.window_pos
  have hseen : ¬ now < start - rl.window := by omega
  rcases reply_cases hmax h with ⟨hpassed, hreply⟩ | ⟨b, allowed, hb, hwithin, hreply, -⟩
  · have hbegun : ¬ now < start := by omega
    rw [hreply]
    simp only [worth, IPRateLimiter.newBucket, hseen, hbegun, if_true, if_false]
    rcases hb : s.buckets ip with _ | b
    · have hsafe : ¬ doomed := fun hd => hheld hd hb
      simp only [hsafe, if_false]
      omega
    · have htokens := h.tokens b hb
      have hwindow := hpassed b hb
      have hbefore : b.windowStart < start := by omega
      simp only [hbefore, if_true]
      split_ifs <;> omega
  · rw [hreply, hb]
    obtain ⟨hgood, -⟩ := h.good b hb
    have hstarted := hgood.started
    have hrecent : ¬ b.lastSeen < start - rl.window := by omega
    simp only [worth, hseen, hrecent, if_false]
    split_ifs <;> omega

end worth

theorem left_nonneg (start : ℤ) (hmax : 0 < rl.maxTokens) (h : Sane rl ip s) :
    0 ≤ left rl start ip s := by
  have hworth := worth_nonneg start (s.pending = some ip) hmax h
  unfold left
  split_ifs <;> omega

theorem left_le (start : ℤ) (hmax : 0 < rl.maxTokens) (h : Sane rl ip s) (h' : Sane rl ip s')
    (hclock : s.clock ≤ s'.clock)
    (hworth : s'.clock < start + rl.window → worth rl start (s'.pending = some ip) (s'.buckets ip)
      ≤ worth rl start (s.pending = some ip) (s.buckets ip)) :
    left rl start ip s' ≤ left rl start ip s := by
  have hnonneg := left_nonneg start hmax h
  have hle := worth_le start (s'.pending = some ip) hmax h'
  unfold left at hnonneg ⊢
  by_cases hend : s'.clock < start + rl.window
  · have := hworth hend
    split_ifs at hnonneg ⊢ <;> omega
  · split_ifs at hnonneg ⊢ <;> omega

theorem countP_granted_of_not {event : LimiterEvent}
    (h : ∀ now, event = .allow ip now → ¬ (start ≤ now ∧ now < start + rl.window)) :
    (granted rl s event).toList.countP (inWindow rl ip start) = 0 := by
  rw [List.countP_eq_zero]
  intro call hcall hin
  cases event with
  | allow ip' now =>
    simp only [granted, Option.mem_toList, Option.ite_none_right_eq_some, Option.some.injEq] at hcall
    obtain ⟨-, rfl⟩ := hcall
    obtain ⟨rfl, hwindow⟩ := of_decide_eq_true hin
    exact h now rfl hwindow
  | _ => simp [granted] at hcall

theorem left_step (start : ℤ) (hmax : 0 < rl.maxTokens) (h : Sane rl ip s) {event : LimiterEvent}
    (hstep : s.step rl event = some s') :
    ((granted rl s event).toList.countP (inWindow rl ip start) : ℤ) + left rl start ip s'
      ≤ left rl start ip s := by
  have h' := h.step hmax hstep
  cases step_moves ip hstep with
  | call now hnow hbucket hcleanup hclock =>
    have hpending : s'.pending = s.pending := by rw [pending, pending, hcleanup]
    by_cases hin : start ≤ now ∧ now < start + rl.window
    · have hcall := worth_call (s.pending = some ip) hmax h h.held hin.1 hin.2
      have hcount : ((granted rl s (.allow ip now)).toList.countP (inWindow rl ip start) : ℤ)
          = if (OnDemand.reply rl.machine s.buckets ip now).1 then 1 else 0 := by
        show (((if (OnDemand.reply rl.machine s.buckets ip now).1 then some (ip, now)
          else none).toList.countP _ : ℕ) : ℤ) = _
        split_ifs
        · simp [inWindow, hin]
        · rfl
      have hle := worth_le start (s.pending = some ip) hmax h
      rw [hcount]
      unfold left
      rw [hbucket, hpending, hclock, if_neg (show ¬ now < start by omega),
        if_neg (show ¬ start + rl.window ≤ now by omega)]
      split_ifs at hcall ⊢ <;> omega
    · rw [countP_granted_of_not (fun now' heq => by cases heq; exact hin)]
      have hnonneg := left_nonneg start hmax h
      unfold left at hnonneg ⊢
      rw [hclock]
      split_ifs at hnonneg ⊢ <;> omega
  | other _ hcall hclock hbucket hpending hcutoff =>
    rw [countP_granted_of_not fun now heq => absurd heq (hcall now)]
    have hle := left_le start hmax h h' hclock fun _ => by simp only [hbucket, hpending, le_refl]
    simpa using hle
  | marks b cutoff hclock hb hbucket hstale hcutoff hcutoff' hpending =>
    rw [countP_granted_of_not fun now heq => by cases heq]
    have hle := left_le start hmax h h' hclock.ge fun hend => by
      have hlast := h.cutoff_le cutoff hcutoff
      have hold : b.lastSeen < start - rl.window := by omega
      simp only [hb, hbucket, worth, hold, if_true, le_refl]
    simpa using hle
  | deletes hclock hpending hbucket hcutoff hpending' =>
    rw [countP_granted_of_not fun now heq => by cases heq]
    have hle := left_le start hmax h h' hclock.ge fun hend => by
      rcases hb : s.buckets ip with _ | b
      · exact absurd hb (h.held hpending)
      · have htokens := h.tokens b hb
        simp only [hbucket, worth, hpending, if_true]
        split_ifs <;> omega
    simpa using hle

/-- For calls of `Allow` that come one after the other, with the steps of the clean-up anywhere between
them: an address is granted at most `3 * maxTokens - 1` calls in the length of a window, wherever that
begins. -/
theorem granted_le (rl : IPRateLimiter) (hmax : 0 < rl.maxTokens) (clock : ℤ)
    {events : List LimiterEvent} {t : Limiter} (hrun : Lts.run (step rl) (.start clock) events = some t)
    (ip : String) (start : ℤ) :
    ((Lts.observed (step rl) (granted rl) (.start clock) events).countP (inWindow rl ip start) : ℤ)
      ≤ 3 * rl.maxTokens - 1 := by
  have hsane : Sane rl ip (.start clock) := by
    refine ⟨?_, ?_, ?_, ?_⟩ <;> simp [Limiter.start, cutoff, pending]
  have hbegin : left rl start ip (.start clock) ≤ 3 * rl.maxTokens - 1 := by
    have hle := worth_le start ((Limiter.start clock).pending = some ip) hmax hsane
    unfold left
    split_ifs <;> omega
  have hinv := Lts.run_inv_observed (granted rl)
    (I := fun s h => Sane rl ip s
      ∧ (h.countP (inWindow rl ip start) : ℤ) + left rl start ip s ≤ 3 * rl.maxTokens - 1)
    (fun s event s' h hs _ hstep => by
      refine ⟨hs.1.step hmax hstep, ?_⟩
      have hcost := left_step start hmax hs.1 hstep
      have hsum := hs.2
      rw [List.countP_append]
      push_cast
      omega)
    events (h := []) ⟨hsane, by simpa using hbegin⟩ (Lts.meets_true events _) hrun
  have hleft := left_nonneg start hmax hinv.1
  have hbound := hinv.2
  rw [List.nil_append] at hbound
  omega

lemma double_window_pos : (0 : ℤ) < 10 := by decide

/-- Two calls in ten nanoseconds. -/
def double : IPRateLimiter := ⟨2, 10, double_window_pos⟩

/-- A bucket is found stale and is deleted only when it has been refilled twice since. -/
def deletedLate : List LimiterEvent :=
  [.allow "a" 0, .tick 21, .check "a", .allow "a" 21, .allow "a" 22, .allow "a" 31, .allow "a" 31,
    .delete, .allow "a" 31, .allow "a" 31, .allow "a" 31]

theorem granted_le_late :
    (Lts.observed (step double) (granted double) (.start 0) deletedLate).countP (inWindow double "a" 22) = 5
      ∧ ((Lts.observed (step double) (granted double) (.start 0) deletedLate).countP
        (inWindow double "a" 22) : ℤ) ≤ 3 * double.maxTokens - 1 := by
  have h : (Lts.run (step double) (.start 0) deletedLate).isSome := by decide
  obtain ⟨t, hrun⟩ := Option.isSome_iff_exists.1 h
  exact ⟨by decide, granted_le double (by decide) 0 hrun "a" 22⟩

end Limiter

end Relayly.Relay
