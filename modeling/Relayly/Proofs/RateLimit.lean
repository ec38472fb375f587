import Relayly.Relay.RateLimit

/-!
# Deleting stale buckets

A bucket that has not been used for two windows would be refilled by its next use, so it is as good
as a fresh one. If it is used after the clean-up has found it stale, the entry that is deleted is
not: the tokens of its new window are handed out twice.
-/

namespace Relayly.Relay

section bucket
variable {rl : IPRateLimiter} {b : TokenBucket} {now : ℤ}

/-- A bucket of the limiter. -/
structure TokenBucket.Good (rl : IPRateLimiter) (b : TokenBucket) : Prop where
  maxTokens : b.maxTokens = rl.maxTokens
  window : b.window = rl.window
  started : b.windowStart ≤ b.lastSeen

lemma good_newBucket (rl : IPRateLimiter) (now : ℤ) : (rl.newBucket now).Good rl :=
  ⟨rfl, rfl, le_rfl⟩

/-- A fresh bucket is full, and its window has just begun. -/
lemma allow_newBucket : (rl.newBucket now).allow now =
    if rl.maxTokens ≤ 0 then (false, rl.newBucket now)
    else (true, { rl.newBucket now with tokens := rl.maxTokens - 1 }) := by
  have hbegun : ¬ rl.window ≤ 0 := not_le.mpr rl.window_pos
  simp [TokenBucket.allow, IPRateLimiter.newBucket, hbegun]

/-- A bucket whose window has passed is refilled. -/
lemma TokenBucket.Good.allow_eq (h : b.Good rl) (hpassed : b.windowStart + rl.window ≤ now) :
    b.allow now = (rl.newBucket now).allow now := by
  have hrefill : now - b.windowStart ≥ rl.window := by omega
  rw [allow_newBucket]
  simp only [TokenBucket.allow, IPRateLimiter.newBucket, h.maxTokens, h.window, if_pos hrefill]

/-- A stale bucket is refilled by every later use. -/
lemma TokenBucket.Good.spent {cutoff clock : ℤ} (h : b.Good rl) (hstale : b.lastSeen < cutoff)
    (hcutoff : cutoff + rl.window * 2 ≤ clock) : OnDemand.Spent rl.machine clock b := by
  intro now hnow
  have hstarted := h.started
  have hpos := rl.window_pos
  exact h.allow_eq (by omega)

lemma TokenBucket.Good.allow (h : b.Good rl) (hnow : b.lastSeen ≤ now) :
    (b.allow now).2.Good rl ∧ (b.allow now).2.lastSeen = now := by
  obtain ⟨hmax, hwindow, hstarted⟩ := h
  unfold TokenBucket.allow
  dsimp only
  split_ifs
  · exact ⟨⟨hmax, hwindow, le_rfl⟩, rfl⟩
  · exact ⟨⟨hmax, hwindow, le_rfl⟩, rfl⟩
  · exact ⟨⟨hmax, hwindow, hstarted.trans hnow⟩, rfl⟩
  · exact ⟨⟨hmax, hwindow, hstarted.trans hnow⟩, rfl⟩

end bucket

lemma LimiterEvent.eq_allow {event : LimiterEvent} {ip : String} {now : ℤ}
    (h : event.call? = some (ip, now)) : event = .allow ip now := by
  cases event with
  | allow ip' now' =>
    cases h
    rfl
  | _ => cases h

lemma LimiterEvent.answer_eq_none {rl : IPRateLimiter} {s : Limiter} {event : LimiterEvent}
    (h : event.call? = none) : s.answer rl event = none := by
  cases event with
  | allow ip now => cases h
  | _ => rfl

namespace Limiter

/-- The time before which a bucket is stale, while the clean-up is in `Range`. -/
def cutoff (s : Limiter) : Option ℤ :=
  match s.cleanup with
  | .waiting => none
  | .ranging cutoff _ => some cutoff
  | .deleting cutoff _ _ => some cutoff

/-- The key whose entry is about to be deleted. -/
def pending (s : Limiter) : Option String :=
  match s.cleanup with
  | .deleting _ _ key => some key
  | _ => none

/-- The address of an `Allow` is not the one whose entry is about to be deleted. -/
def Undisturbed (s : Limiter) (event : LimiterEvent) : Prop :=
  ∀ call ∈ event.call?, s.pending ≠ some call.1

instance (s : Limiter) (event : LimiterEvent) : Decidable (s.Undisturbed event) :=
  inferInstanceAs (Decidable (∀ call ∈ event.call?, s.pending ≠ some call.1))

/-- The limiter and the one that keeps its buckets, after the same calls. -/
structure Sim (rl : IPRateLimiter) (s : Limiter) (kept : Buckets) : Prop where
  agree : OnDemand.Agree rl.machine s.clock s.buckets kept
  good : ∀ key b, s.buckets key = some b → b.Good rl ∧ b.lastSeen ≤ s.clock
  cutoff_le : ∀ cutoff, s.cutoff = some cutoff → cutoff + rl.window * 2 ≤ s.clock
  stale : ∀ key cutoff b, s.pending = some key → s.cutoff = some cutoff →
    s.buckets key = some b → b.lastSeen < cutoff

variable {rl : IPRateLimiter} {s s' : Limiter} {kept : Buckets}

lemma Sim.start (rl : IPRateLimiter) (clock : ℤ) :
    Sim rl (.start clock) fun _ => none where
  agree := .refl _ _
  good := by
    intro key b h
    cases h
  cutoff_le := by
    intro cutoff h
    cases h
  stale := by
    intro key cutoff b h
    cases h

/-- What a call leaves at a key. -/
lemma allow_good {ip : String} {now : ℤ} (hs : Sim rl s kept) (hnow : s.clock ≤ now)
    {key : String} {b : TokenBucket} (hb : (rl.allow s.buckets ip now).2 key = some b) :
    b.Good rl ∧ b.lastSeen ≤ now ∧ (key ≠ ip → s.buckets key = some b) := by
  by_cases hkey : key = ip
  · subst hkey
    have hused : ((s.buckets key).getD (rl.newBucket now)).Good rl ∧
        ((s.buckets key).getD (rl.newBucket now)).lastSeen ≤ now := by
      cases hold : s.buckets key with
      | none => exact ⟨good_newBucket rl now, le_rfl⟩
      | some old => exact ⟨(hs.good key old hold).1, (hs.good key old hold).2.trans hnow⟩
    obtain rfl : (((s.buckets key).getD (rl.newBucket now)).allow now).2 = b := by
      rw [IPRateLimiter.allow, OnDemand.call_snd_self] at hb
      exact Option.some.inj hb
    obtain ⟨hgood, hseen⟩ := hused.1.allow hused.2
    exact ⟨hgood, hseen.le, fun hne => absurd rfl hne⟩
  · have hb' : s.buckets key = some b := by
      rwa [IPRateLimiter.allow, OnDemand.call_snd_of_ne hkey] at hb
    obtain ⟨hgood, hseen⟩ := hs.good key b hb'
    exact ⟨hgood, hseen.trans hnow, fun _ => hb'⟩

/-- A call of `Allow` is answered alike. -/
lemma Sim.allow {ip : String} {now : ℤ} (hs : Sim rl s kept)
    (hquiet : s.Undisturbed (.allow ip now)) (hstep : s.step rl (.allow ip now) = some s') :
    (rl.allow s.buckets ip now).1 = (rl.allow kept ip now).1 ∧
      Sim rl s' (rl.allow kept ip now).2 := by
  simp only [step] at hstep
  split_ifs at hstep with hnow
  cases hstep
  refine ⟨hs.agree.call_fst hnow ip, hs.agree.call hnow ip, ?_, ?_, ?_⟩
  · intro key b hb
    obtain ⟨hgood, hseen, -⟩ := allow_good hs hnow hb
    exact ⟨hgood, hseen⟩
  · intro cutoff hcutoff
    exact (hs.cutoff_le cutoff hcutoff).trans hnow
  · -- the pending key has another bucket
    intro key cutoff b hpending hcutoff hb
    have hne : key ≠ ip := by
      rintro rfl
      exact hquiet (key, now) rfl hpending
    exact hs.stale key cutoff b hpending hcutoff ((allow_good hs hnow hb).2.2 hne)

/-- A step of the clean-up changes nothing that the next `Allow` could tell. -/
lemma Sim.cleanup {event : LimiterEvent} (hs : Sim rl s kept) (hevent : event.call? = none)
    (hstep : s.step rl event = some s') : Sim rl s' kept := by
  cases event with
  | allow ip now => cases hevent
  | tick now =>
    simp only [step] at hstep
    split at hstep
    · split_ifs at hstep with hnow
      cases hstep
      refine ⟨hs.agree.later hnow, ?_, ?_, ?_⟩
      · intro key b hb
        obtain ⟨hgood, hseen⟩ := hs.good key b hb
        exact ⟨hgood, hseen.trans hnow⟩
      · intro cutoff hcutoff
        obtain rfl : now + -rl.window * 2 = cutoff := Option.some.inj hcutoff
        show now + -rl.window * 2 + rl.window * 2 ≤ now
        omega
      · intro key cutoff b hpending
        cases hpending
    · cases hstep
  | check key =>
    simp only [step] at hstep
    split at hstep
    · rename_i cutoff visited b hcleanup hb
      have hcutoff : s.cutoff = some cutoff := by rw [Limiter.cutoff, hcleanup]
      split_ifs at hstep with hvisited hstale
      · cases hstep
        refine ⟨hs.agree, hs.good, fun c hc => ?_, ?_⟩
        · exact hs.cutoff_le c (hcutoff.trans hc)
        · intro key' c b' hkey hc hb'
          obtain rfl : key = key' := Option.some.inj hkey
          obtain rfl : cutoff = c := Option.some.inj hc
          obtain rfl : b = b' := Option.some.inj (hb.symm.trans hb')
          exact hstale
      · cases hstep
        refine ⟨hs.agree, hs.good, fun c hc => hs.cutoff_le c (hcutoff.trans hc), ?_⟩
        intro key' c b' hkey
        cases hkey
    · cases hstep
  | delete =>
    simp only [step] at hstep
    split at hstep
    · rename_i cutoff visited key hcleanup
      have hcutoff : s.cutoff = some cutoff := by rw [Limiter.cutoff, hcleanup]
      have hpending : s.pending = some key := by rw [Limiter.pending, hcleanup]
      cases hstep
      -- the entry is still stale, so no later call misses it
      have hspent : ∀ b, s.buckets key = some b → OnDemand.Spent rl.machine s.clock b :=
        fun b hb => (hs.good key b hb).1.spent (hs.stale key cutoff b hpending hcutoff hb)
          (hs.cutoff_le cutoff hcutoff)
      refine ⟨hs.agree.remove hspent, ?_, fun c hc => hs.cutoff_le c (hcutoff.trans hc), ?_⟩
      · intro key' b hb
        replace hb : Function.update s.buckets key none key' = some b := hb
        by_cases hkey : key' = key
        · subst hkey
          rw [Function.update_self] at hb
          cases hb
        · rw [Function.update_of_ne hkey] at hb
          exact hs.good key' b hb
      · intro key' c b hkey
        cases hkey
    · cases hstep
  | endRange =>
    simp only [step] at hstep
    split at hstep
    · cases hstep
      refine ⟨hs.agree, hs.good, ?_, ?_⟩
      · intro cutoff hcutoff
        cases hcutoff
      · intro key c b hkey
        cases hkey
    · cases hstep

/-- What the calls along a schedule return, from limiters that agree. -/
lemma Sim.observed (rl : IPRateLimiter) : ∀ (events : List LimiterEvent) {s t : Limiter}
    {kept : Buckets}, Sim rl s kept → Lts.run (step rl) s events = some t →
      Lts.Meets (step rl) Undisturbed s events →
      Lts.observed (step rl) (answer rl) s events = rl.keeping kept (events.filterMap (·.call?))
  | [], _, _, _, _, _, _ => rfl
  | event :: events, s, t, kept, hs, hrun, hquiet => by
    obtain ⟨s', hstep, hrest⟩ := Lts.run_cons_eq_some.1 hrun
    have hquiet' := hquiet.2 s' hstep
    simp only [Lts.observed, hstep, Option.elim_some]
    cases hcall : event.call? with
    | some call =>
      obtain ⟨ip, now⟩ := call
      obtain rfl : event = .allow ip now := LimiterEvent.eq_allow hcall
      obtain ⟨hanswer, hs'⟩ := hs.allow hquiet.1 hstep
      rw [Sim.observed rl events hs' hrest hquiet', List.filterMap_cons_some hcall,
        IPRateLimiter.keeping, ← hanswer]
      rfl
    | none =>
      have hsilent : answer rl s event = none := LimiterEvent.answer_eq_none hcall
      rw [Sim.observed rl events (hs.cleanup hcall hstep) hrest hquiet', hsilent,
        List.filterMap_cons_none hcall]
      rfl

/-- As long as no `Allow` uses a bucket between its staleness check and the deletion of its entry,
every `Allow` returns what the limiter returns that never deletes. -/
theorem answers_eq_keeping (rl : IPRateLimiter) (clock : ℤ) (events : List LimiterEvent)
    (t : Limiter) (hrun : Lts.run (step rl) (.start clock) events = some t)
    (hquiet : Lts.Meets (step rl) Undisturbed (.start clock) events) :
    Lts.observed (step rl) (answer rl) (.start clock) events =
      rl.keeping (fun _ => none) (events.filterMap (·.call?)) :=
  Sim.observed rl events (Sim.start rl clock) hrun hquiet

/-- One call in ten nanoseconds. -/
def single : IPRateLimiter := ⟨1, 10, by decide⟩

/-- A bucket is made, found stale and deleted, and made again. -/
def evicted : List LimiterEvent :=
  [.allow "a" 0, .allow "a" 5, .tick 26, .check "a", .allow "b" 26, .delete, .endRange,
    .allow "a" 26, .allow "a" 27]

theorem answers_eq_keeping_evicted :
    Lts.observed (step single) (answer single) (.start 0) evicted =
      single.keeping (fun _ => none) (evicted.filterMap (·.call?)) :=
  answers_eq_keeping single 0 evicted _ rfl (by decide)

/-- The same with a call between the check and the deletion. -/
def disturbed : List LimiterEvent :=
  [.allow "a" 0, .tick 21, .check "a", .allow "a" 21, .delete, .allow "a" 21]

theorem answers_ne_keeping :
    (Lts.run (step single) (.start 0) disturbed).isSome ∧
      Lts.observed (step single) (answer single) (.start 0) disturbed = [true, true, true] ∧
      single.keeping (fun _ => none) (disturbed.filterMap (·.call?)) = [true, true, false] := by
  decide

end Limiter

end Relayly.Relay
