import Relayly.Relay.RateLimit

/-!
# How many calls a bucket allows

Between two refills a call that is allowed takes one of `maxTokens` tokens. Two refills are at least
a window apart, so there is at most one of them in a half-open interval of that length, and the
calls before it and from it on take the tokens of two windows.
-/

namespace Relayly.Relay

/-! ## Counting calls -/

section allowedAt
variable {p q : ℤ → Bool} {c : AllowCall} {calls : List AllowCall}

@[simp] lemma allowedAt_nil : allowedAt p [] = 0 := rfl

lemma allowedAt_nonneg (p : ℤ → Bool) (calls : List AllowCall) : 0 ≤ allowedAt p calls :=
  Int.natCast_nonneg _

lemma allowedAt_cons (p : ℤ → Bool) (c : AllowCall) (calls : List AllowCall) :
    allowedAt p (c :: calls) = (if c.allowed && p c.time then 1 else 0) + allowedAt p calls := by
  rw [allowedAt, allowedAt, List.countP_cons]
  split_ifs <;> omega

lemma allowedAt_append (p : ℤ → Bool) (before after : List AllowCall) :
    allowedAt p (before ++ after) = allowedAt p before + allowedAt p after := by
  rw [allowedAt, List.countP_append]
  exact Int.natCast_add _ _

lemma allowedAt_mono (h : ∀ t, p t = true → q t = true) (calls : List AllowCall) :
    allowedAt p calls ≤ allowedAt q calls := by
  refine Int.ofNat_le.mpr (List.countP_mono_left fun c _ hc => ?_)
  rw [Bool.and_eq_true] at hc ⊢
  exact ⟨hc.1, h _ hc.2⟩

end allowedAt

namespace TokenBucket

variable {b : TokenBucket} {now : ℤ}

/-! ## One call -/

/-- The tokens that a call finds. -/
def filled (b : TokenBucket) (now : ℤ) : ℤ := if b.refills now then b.maxTokens else b.tokens

lemma filled_of_refills (h : b.refills now = true) : b.filled now = b.maxTokens := if_pos h

lemma filled_of_not_refills (h : b.refills now = false) : b.filled now = b.tokens := by
  rw [filled, h]
  rfl

/-- A call takes a token of those it finds, if there is one. -/
lemma allow_eq (b : TokenBucket) (now : ℤ) :
    b.allow now = (decide (0 < b.filled now),
      { b with
        tokens := b.filled now - if 0 < b.filled now then 1 else 0
        windowStart := if b.refills now then now else b.windowStart
        lastSeen := now }) := by
  by_cases hrefill : now - b.windowStart ≥ b.window
  · by_cases hempty : b.maxTokens ≤ 0
    · simp [allow, filled, refills, hrefill, hempty, not_lt.mpr hempty]
    · simp [allow, filled, refills, hrefill, hempty, not_le.mp hempty]
  · by_cases hempty : b.tokens ≤ 0
    · simp [allow, filled, refills, hrefill, hempty, not_lt.mpr hempty]
    · simp [allow, filled, refills, hrefill, hempty, not_le.mp hempty]

lemma allow_fst (b : TokenBucket) (now : ℤ) : (b.allow now).1 = decide (0 < b.filled now) := by
  rw [allow_eq]

lemma allow_tokens (b : TokenBucket) (now : ℤ) :
    (b.allow now).2.tokens = b.filled now - if (b.allow now).1 then 1 else 0 := by
  simp [allow_eq]

/-- A call that is allowed and counted has taken a token. -/
lemma allowedAt_call_le (p : ℤ → Bool) (b : TokenBucket) (now : ℤ) (rest : List AllowCall) :
    allowedAt p (⟨now, b.refills now, (b.allow now).1⟩ :: rest) ≤
      b.filled now - (b.allow now).2.tokens + allowedAt p rest := by
  rw [allowedAt_cons, allow_tokens]
  cases (b.allow now).1 <;> cases p now <;> simp

lemma allow_windowStart (b : TokenBucket) (now : ℤ) :
    (b.allow now).2.windowStart = if b.refills now then now else b.windowStart := by
  rw [allow_eq]

@[simp] lemma allow_maxTokens (b : TokenBucket) (now : ℤ) :
    (b.allow now).2.maxTokens = b.maxTokens := by
  rw [allow_eq]

@[simp] lemma allow_window (b : TokenBucket) (now : ℤ) : (b.allow now).2.window = b.window := by
  rw [allow_eq]

/-- What a bucket holds at any time. -/
structure Sound (b : TokenBucket) : Prop where
  tokens_nonneg : 0 ≤ b.tokens
  tokens_le : b.tokens ≤ b.maxTokens

lemma Sound.filled_nonneg (h : b.Sound) (now : ℤ) : 0 ≤ b.filled now := by
  have := h.tokens_nonneg
  have := h.tokens_le
  unfold filled
  split_ifs <;> omega

lemma Sound.filled_le (h : b.Sound) (now : ℤ) : b.filled now ≤ b.maxTokens := by
  unfold filled
  split_ifs
  · exact le_rfl
  · exact h.tokens_le

lemma Sound.allow (h : b.Sound) (now : ℤ) : (b.allow now).2.Sound := by
  have hnonneg := h.filled_nonneg now
  have hle := h.filled_le now
  constructor
  · rw [allow_eq]
    show 0 ≤ b.filled now - _
    split_ifs <;> omega
  · rw [allow_eq]
    show b.filled now - _ ≤ b.maxTokens
    split_ifs <;> omega

/-! ## Between two refills -/

/-- As long as there is no refill, every call that is allowed takes one of the tokens. -/
lemma Sound.allowedAt_le_tokens (p : ℤ → Bool) : ∀ (segment : List AllowCall) {b : TokenBucket}
    {times : List ℤ} {after : List AllowCall}, b.Sound → b.calls times = segment ++ after →
      (∀ c ∈ segment, c.refilled = false) → allowedAt p segment ≤ b.tokens
  | [], b, _, _, h, _, _ => by simpa using h.tokens_nonneg
  | c :: segment, b, [], _, _, hcalls, _ => by cases hcalls
  | c :: segment, b, now :: times, after, h, hcalls, hrefilled => by
    obtain ⟨rfl, hrest⟩ := List.cons.inj hcalls
    have ih := (h.allow now).allowedAt_le_tokens p segment hrest fun c hc =>
      hrefilled c (List.mem_cons_of_mem _ hc)
    have hno : b.refills now = false := hrefilled _ List.mem_cons_self
    have hcall := allowedAt_call_le p b now segment
    rw [filled_of_not_refills hno] at hcall
    omega

/-- The first call of a segment may start a new window. -/
lemma Sound.allowedAt_le_maxTokens (p : ℤ → Bool) (h : b.Sound) {times : List ℤ}
    {segment after : List AllowCall} (hcalls : b.calls times = segment ++ after)
    (hrefilled : ∀ c ∈ segment.tail, c.refilled = false) :
    allowedAt p segment ≤ b.maxTokens := by
  rcases segment with _ | ⟨c, segment⟩
  · exact (by simpa using h.tokens_nonneg.trans h.tokens_le)
  rcases times with _ | ⟨now, times⟩
  · cases hcalls
  obtain ⟨rfl, hrest⟩ := List.cons.inj hcalls
  have hle := (h.allow now).allowedAt_le_tokens p segment hrest hrefilled
  have hcall := allowedAt_call_le p b now segment
  have hfilled := h.filled_le now
  omega

/-- A segment anywhere among the calls. -/
lemma Sound.allowedAt_segment_le (p : ℤ → Bool) : ∀ (before : List AllowCall) {b : TokenBucket}
    {times : List ℤ} {segment after : List AllowCall}, b.Sound →
      b.calls times = before ++ segment ++ after → (∀ c ∈ segment.tail, c.refilled = false) →
      allowedAt p segment ≤ b.maxTokens
  | [], _, _, _, _, h, hcalls, hrefilled => h.allowedAt_le_maxTokens p hcalls hrefilled
  | _ :: _, _, [], _, _, _, hcalls, _ => by cases hcalls
  | _ :: before, b, now :: times, _, _, h, hcalls, hrefilled => by
    have ih := (h.allow now).allowedAt_segment_le p before (List.cons.inj hcalls).2 hrefilled
    rwa [allow_maxTokens] at ih

/-! ## In an interval of one window -/

/-- The times of the interval. -/
def inWindow (start window t : ℤ) : Bool := decide (start ≤ t ∧ t < start + window)

/-- The times of the calls, from the start of the window on. -/
def Chronological (b : TokenBucket) (times : List ℤ) : Prop :=
  (b.windowStart :: times).Pairwise (· ≤ ·)

lemma Chronological.tail {times : List ℤ} (h : b.Chronological (now :: times)) :
    (b.allow now).2.Chronological times := by
  obtain ⟨hstart, hnow, hrest⟩ : _ ∧ _ ∧ _ := by
    simpa [Chronological, List.pairwise_cons] using h
  refine List.pairwise_cons.mpr ⟨fun t ht => ?_, hrest⟩
  rw [allow_windowStart]
  split_ifs
  · exact hnow t ht
  · exact hstart.1.trans (hnow t ht)

lemma Chronological.windowStart_le {times : List ℤ} (h : b.Chronological (now :: times)) :
    b.windowStart ≤ now :=
  (List.pairwise_cons.mp h).1 now List.mem_cons_self

lemma Chronological.le {times : List ℤ} (h : b.Chronological (now :: times)) :
    ∀ t ∈ times, now ≤ t :=
  (List.pairwise_cons.mp (List.pairwise_cons.mp h).2).1

/-- Nothing is counted after the interval. -/
lemma allowedAt_of_late {p : ℤ → Bool} : ∀ (times : List ℤ) {b : TokenBucket},
    (∀ t ∈ times, p t = false) → allowedAt p (b.calls times) = 0
  | [], _, _ => rfl
  | now :: times, b, hlate => by
    have ih := allowedAt_of_late times (b := (b.allow now).2) fun t ht =>
      hlate t (List.mem_cons_of_mem _ ht)
    rw [calls, allowedAt_cons, ih]
    simp [hlate now List.mem_cons_self]

lemma inWindow_eq_false_of_le {start window t : ℤ} (h : start + window ≤ t) :
    inWindow start window t = false := by
  simp [inWindow, h]

/-- A window that began in the interval ends after it, so there is no refill in the rest of it. -/
lemma Sound.allowedAt_inWindow_le_tokens (start : ℤ) : ∀ (times : List ℤ) {b : TokenBucket},
    b.Sound → b.Chronological times → start ≤ b.windowStart →
      allowedAt (inWindow start b.window) (b.calls times) ≤ b.tokens
  | [], b, h, _, _ => by simpa [calls] using h.tokens_nonneg
  | now :: times, b, h, hchron, hstart => by
    cases hrefill : b.refills now with
    | false =>
      have ih := (h.allow now).allowedAt_inWindow_le_tokens start times hchron.tail
        (by rw [allow_windowStart, hrefill]; exact hstart)
      have hcall := allowedAt_call_le (inWindow start b.window) b now ((b.allow now).2.calls times)
      rw [filled_of_not_refills hrefill] at hcall
      rw [allow_window] at ih
      rw [calls]
      omega
    | true =>
      have hpassed : b.window ≤ now - b.windowStart := of_decide_eq_true hrefill
      have hlate : ∀ t ∈ now :: times, inWindow start b.window t = false := by
        intro t ht
        refine inWindow_eq_false_of_le ?_
        rcases List.mem_cons.mp ht with rfl | ht
        · omega
        · have := hchron.le t ht
          omega
      rw [allowedAt_of_late _ hlate]
      exact h.tokens_nonneg

/-- From a call in the interval on there is at most one refill in it. -/
lemma Sound.allowedAt_inWindow_le_add (start : ℤ) : ∀ (times : List ℤ) {b : TokenBucket},
    b.Sound → b.Chronological times → (∀ t ∈ times, start ≤ t) →
      allowedAt (inWindow start b.window) (b.calls times) ≤ b.tokens + b.maxTokens
  | [], b, h, _, _ => by
    have := h.tokens_nonneg
    have := h.tokens_le
    simp only [calls, allowedAt_nil]
    omega
  | now :: times, b, h, hchron, hfrom => by
    have hcall := allowedAt_call_le (inWindow start b.window) b now ((b.allow now).2.calls times)
    rw [calls]
    cases hrefill : b.refills now with
    | false =>
      have ih := (h.allow now).allowedAt_inWindow_le_add start times hchron.tail fun t ht =>
        hfrom t (List.mem_cons_of_mem _ ht)
      rw [filled_of_not_refills hrefill] at hcall
      rw [allow_window, allow_maxTokens] at ih
      rw [hrefill] at hcall
      omega
    | true =>
      -- the refill is in the interval, or all calls are behind it
      have hle := (h.allow now).allowedAt_inWindow_le_tokens start times hchron.tail
        (by rw [allow_windowStart, hrefill]; exact hfrom now List.mem_cons_self)
      rw [filled_of_refills hrefill] at hcall
      rw [allow_window] at hle
      rw [hrefill] at hcall
      have := h.tokens_nonneg
      omega

/-- Before the interval nothing is counted. -/
lemma Sound.allowedAt_inWindow_le (start : ℤ) : ∀ (times : List ℤ) {b : TokenBucket},
    b.Sound → b.Chronological times →
      allowedAt (inWindow start b.window) (b.calls times) ≤ 2 * b.maxTokens
  | [], b, h, _ => by
    have := h.tokens_nonneg
    have := h.tokens_le
    simp only [calls, allowedAt_nil]
    omega
  | now :: times, b, h, hchron => by
    by_cases hbefore : now < start
    · have ih := (h.allow now).allowedAt_inWindow_le start times hchron.tail
      have hout : inWindow start b.window now = false := by simp [inWindow, hbefore]
      rw [allow_window, allow_maxTokens] at ih
      rw [calls, allowedAt_cons]
      simpa [hout] using ih
    · have hle := h.allowedAt_inWindow_le_add start (now :: times) hchron fun t ht => by
        rcases List.mem_cons.mp ht with rfl | ht
        · exact not_lt.mp hbefore
        · exact (not_lt.mp hbefore).trans (hchron.le t ht)
      have := h.tokens_le
      omega

/-! ## Refused calls -/

/-- The tokens that are gone have been taken by calls since the window began. -/
def Spent (b : TokenBucket) (earlier : List AllowCall) : Prop :=
  b.maxTokens - b.tokens ≤ allowedAt (fun t => decide (b.windowStart ≤ t)) earlier

lemma Spent.allow {earlier : List AllowCall} (h : b.Spent earlier) (hnow : b.windowStart ≤ now) :
    (b.allow now).2.Spent (earlier ++ [⟨now, b.refills now, (b.allow now).1⟩]) := by
  unfold Spent at h ⊢
  rw [allow_maxTokens, allow_tokens, allow_windowStart, allowedAt_append, allowedAt_cons,
    allowedAt_nil]
  cases hrefill : b.refills now with
  | true =>
    have hnonneg := allowedAt_nonneg (fun t => decide (now ≤ t)) earlier
    rw [filled_of_refills hrefill]
    cases (b.allow now).1 <;> simp <;> omega
  | false =>
    rw [filled_of_not_refills hrefill]
    cases (b.allow now).1 <;> simp [hnow] <;> omega

/-- A call finds no token only if the window it is in, which began less than a window ago, has seen
them all taken. -/
lemma Spent.of_refused {earlier : List AllowCall} (h : b.Spent earlier)
    (hrefused : (b.allow now).1 = false) :
    b.maxTokens ≤ allowedAt (fun t => decide (now - b.window < t)) earlier := by
  have hempty : b.filled now ≤ 0 := by
    rw [allow_fst] at hrefused
    exact not_lt.mp (of_decide_eq_false hrefused)
  cases hrefill : b.refills now with
  | true =>
    rw [filled_of_refills hrefill] at hempty
    exact hempty.trans (allowedAt_nonneg _ _)
  | false =>
    rw [filled_of_not_refills hrefill] at hempty
    have hrunning : ¬ b.window ≤ now - b.windowStart := of_decide_eq_false hrefill
    have hmono := allowedAt_mono (p := fun t => decide (b.windowStart ≤ t))
      (q := fun t => decide (now - b.window < t)) (by
        intro t ht
        have := of_decide_eq_true ht
        exact decide_eq_true (by omega)) earlier
    unfold Spent at h
    omega

lemma Spent.refused : ∀ (before : List AllowCall) {b : TokenBucket} {times : List ℤ}
    {earlier : List AllowCall} {c : AllowCall} {after : List AllowCall}, b.Spent earlier →
      b.Chronological times → b.calls times = before ++ c :: after → c.allowed = false →
      b.maxTokens ≤ allowedAt (fun t => decide (c.time - b.window < t)) (earlier ++ before)
  | _, _, [], _, _, _, _, _, hcalls, _ => by simp [calls] at hcalls
  | [], b, now :: times, earlier, c, after, h, _, hcalls, hrefused => by
    obtain ⟨rfl, -⟩ := List.cons.inj hcalls
    rw [List.append_nil]
    exact h.of_refused hrefused
  | _ :: before, b, now :: times, earlier, c, after, h, hchron, hcalls, hrefused => by
    obtain ⟨rfl, hrest⟩ := List.cons.inj hcalls
    have ih := (h.allow hchron.windowStart_le).refused before hchron.tail hrest hrefused
    rwa [allow_maxTokens, allow_window, List.append_assoc] at ih

/-! ## The bound -/

/-- What a rate limit of `maxTokens` in a `window` is to mean for the calls of a bucket. -/
structure Limited (maxTokens window : ℤ) (calls : List AllowCall) : Prop where
  between_refills : ∀ before segment after, calls = before ++ segment ++ after →
    (∀ c ∈ segment.tail, c.refilled = false) → allowedAt (fun _ => true) segment ≤ maxTokens
  in_window : ∀ start, allowedAt (inWindow start window) calls ≤ 2 * maxTokens
  refused : ∀ before c after, calls = before ++ c :: after → c.allowed = false →
    maxTokens ≤ allowedAt (fun t => decide (c.time - window < t)) before

/-- A full bucket keeps its limit, whenever it is called. -/
theorem calls_limited (b : TokenBucket) (times : List ℤ) (hmax : 0 ≤ b.maxTokens)
    (hfull : b.tokens = b.maxTokens) (htimes : (b.windowStart :: times).Pairwise (· ≤ ·)) :
    Limited b.maxTokens b.window (b.calls times) := by
  have hsound : b.Sound := ⟨hfull ▸ hmax, hfull.le⟩
  refine ⟨fun before segment after hcalls hrefilled => ?_, fun start => ?_,
    fun before c after hcalls hrefused => ?_⟩
  · exact hsound.allowedAt_segment_le _ before hcalls hrefilled
  · exact hsound.allowedAt_inWindow_le start times htimes
  · have hspent : b.Spent [] := by simp [Spent, hfull]
    exact hspent.refused before htimes hcalls hrefused

theorem calls_limited_refilled :
    Limited 1 10 (calls ⟨1, 1, 10, 0, 0⟩ [3, 4, 12, 12, 25]) ∧
      (calls ⟨1, 1, 10, 0, 0⟩ [3, 4, 12, 12, 25]).map (·.allowed) =
        [true, false, true, false, true] :=
  ⟨calls_limited ⟨1, 1, 10, 0, 0⟩ _ (by decide) rfl (by decide), by decide⟩

end TokenBucket

end Relayly.Relay
