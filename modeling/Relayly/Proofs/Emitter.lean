import Relayly.Lib.Run
import Relayly.Sdk.Emitter

/-!
# Which listeners an emit calls

Each emit that has begun is a loop over an array that the listeners change. A removal at or before
the loop's place moves the next listener behind it. A `once` listener removes itself when it
returns, so it is called a second time only by an emit from its own call, or after it threw.
-/

namespace Relayly.Sdk.Ts

variable {ε L : Type*}

namespace TinyEmitter

variable {s s' : TinyEmitter ε L}

/-! ## What the loop on top does -/

lemma visit_eq_some (h : s.visit = some s') : ∃ event loop rest,
    s.stack = ⟨event, loop, none⟩ :: rest ∧ loop.next < loop.len ∧
    s' = { s with
      stack := ⟨event, loop.visit (s.listeners event), (s.listeners event)[loop.next]?⟩ :: rest
      calls := s.calls ++ (s.listeners event)[loop.next]?.toList } := by
  unfold visit at h
  split at h
  · split_ifs at h with hlt
    exact ⟨_, _, _, ‹_›, hlt, (Option.some.inj h).symm⟩
  · cases h

lemma finish_eq_some (h : s.finish = some s') : ∃ event loop rest,
    s.stack = ⟨event, loop, none⟩ :: rest ∧ loop.len ≤ loop.next ∧
    s' = { s with stack := rest, ended := s.ended ++ [{ event, loop }] } := by
  unfold finish at h
  split at h
  · split_ifs at h with hle
    exact ⟨_, _, _, ‹_›, hle, (Option.some.inj h).symm⟩
  · cases h

/-! ## Every loop is over the array of its event -/

structure Sound (s : TinyEmitter ε L) : Prop where
  nodup : ∀ e, (s.listeners e).Nodup
  one : ∀ e e' x, x ∈ s.listeners e → x ∈ s.listeners e' → e = e'
  made : ∀ e, ∀ x ∈ s.listeners e, x.id < s.made
  loop : ∀ f ∈ s.stack, f.loop.Inv (s.listeners f.event)
  known : ∀ f ∈ s.stack, ∀ x, x ∈ f.loop.start ∨ x ∈ f.loop.called → x.id < s.made
  running : ∀ f ∈ s.stack, ∀ x, f.running = some x → x ∈ f.loop.called
  ended : ∀ f ∈ s.ended, f.loop.Done

/-- A loop begins, or the one on top takes a step. -/
lemma Sound.withTop {f : Emission ε L} {rest : List (Emission ε L)} {calls : List (Entry L)}
    (h : s.Sound) (hrest : ∀ g ∈ rest, g ∈ s.stack) (hloop : f.loop.Inv (s.listeners f.event))
    (hknown : ∀ x, x ∈ f.loop.start ∨ x ∈ f.loop.called → x.id < s.made)
    (hrunning : ∀ x, f.running = some x → x ∈ f.loop.called) :
    Sound { s with stack := f :: rest, calls } where
  nodup := h.nodup
  one := h.one
  made := h.made
  loop := List.forall_mem_cons.mpr ⟨hloop, fun g hg => h.loop g (hrest g hg)⟩
  known := List.forall_mem_cons.mpr ⟨hknown, fun g hg => h.known g (hrest g hg)⟩
  running := List.forall_mem_cons.mpr ⟨hrunning, fun g hg => h.running g (hrest g hg)⟩
  ended := h.ended

lemma Sound.emit (h : s.Sound) (event : ε) : (s.emit event).Sound := by
  refine h.withTop (fun _ hg => hg) (.ofItems _) ?_ (fun x hx => by cases hx)
  rintro x (hx | hx)
  · exact h.made event x hx
  · cases hx

lemma Sound.goOn (h : s.Sound) : s.goOn.Sound := by
  unfold TinyEmitter.goOn
  split
  · rename_i f rest hstack
    have hf : f ∈ s.stack := hstack ▸ List.mem_cons_self ..
    exact h.withTop (fun g hg => hstack ▸ List.mem_cons_of_mem _ hg) (h.loop f hf) (h.known f hf)
      (fun x hx => by cases hx)
  · exact h

/-- The emit on top has ended. -/
lemma Sound.pop {f : Emission ε L} {rest : List (Emission ε L)} (h : s.Sound)
    (hstack : s.stack = f :: rest) {g : Emission ε L} (hg : g.loop.Done) :
    Sound { s with stack := rest, ended := s.ended ++ [g] } := by
  have hsub : ∀ f' ∈ rest, f' ∈ s.stack := fun f' hf' =>
    hstack ▸ List.mem_cons_of_mem _ hf'
  refine ⟨h.nodup, h.one, h.made, fun f' hf' => h.loop f' (hsub f' hf'),
    fun f' hf' => h.known f' (hsub f' hf'), fun f' hf' => h.running f' (hsub f' hf'), ?_⟩
  intro f' hf'
  rcases List.mem_append.mp hf' with hf' | hf'
  · exact h.ended f' hf'
  · exact List.mem_singleton.mp hf' ▸ hg

lemma Sound.visit (h : s.Sound) (hstep : s.visit = some s') : s'.Sound := by
  obtain ⟨event, loop, rest, hstack, -, rfl⟩ := visit_eq_some hstep
  have hf : ⟨event, loop, none⟩ ∈ s.stack := hstack ▸ List.mem_cons_self ..
  refine h.withTop (fun g hg => hstack ▸ List.mem_cons_of_mem _ hg)
    ((h.loop _ hf).visit (h.nodup event)) ?_ ?_
  · rintro x (hx | hx)
    · exact h.known _ hf x (.inl hx)
    · rcases List.mem_append.mp hx with hx | hx
      · exact h.known _ hf x (.inr hx)
      · exact h.made event x (List.mem_of_getElem? (by simpa using hx))
  · intro x hx
    exact List.mem_append_right _ (by simpa using hx)

lemma sound_init : ({} : TinyEmitter ε L).Sound where
  nodup _ := List.nodup_nil
  one _ _ _ hx := by cases hx
  made _ _ hx := by cases hx
  loop _ hf := by cases hf
  known _ hf := by cases hf
  running _ hf := by cases hf
  ended _ hf := by cases hf

/-- No emit has missed a listener. -/
structure Kept (s : TinyEmitter ε L) : Prop where
  stack : ∀ f ∈ s.stack, f.loop.missed = []
  ended : ∀ f ∈ s.ended, f.loop.missed = []

lemma Kept.goOn (h : s.Kept) : s.goOn.Kept := by
  unfold TinyEmitter.goOn
  split
  · have hstack := h.stack
    rw [‹s.stack = _›, List.forall_mem_cons] at hstack
    exact ⟨List.forall_mem_cons.mpr hstack, h.ended⟩
  · exact h

lemma eq_of_free {t : TinyEmitter ε L} (h : (if s.free then some t else none) = some s') :
    s' = t := by
  split_ifs at h
  exact (Option.some.inj h).symm

end TinyEmitter

variable [DecidableEq L]

namespace Emission

variable [DecidableEq ε]

variable (f : Emission ε L) (event : ε) (items : List (Entry L)) (idx : ℕ)

@[simp] lemma splice_event : (f.splice event items idx).event = f.event := by
  unfold splice
  split_ifs <;> rfl

@[simp] lemma splice_running : (f.splice event items idx).running = f.running := by
  unfold splice
  split_ifs <;> rfl

@[simp] lemma splice_start : (f.splice event items idx).loop.start = f.loop.start := by
  unfold splice
  split_ifs <;> rfl

@[simp] lemma splice_called : (f.splice event items idx).loop.called = f.loop.called := by
  unfold splice
  split_ifs <;> rfl

end Emission

namespace TinyEmitter

variable {s s' : TinyEmitter ε L}

lemma throws_eq_some (h : s.throws = some s') : ∃ event loop x rest,
    s.stack = ⟨event, loop, some x⟩ :: rest ∧
    s' = { s with
      stack := rest
      ended := s.ended ++ [{ event, loop := loop.abort (s.listeners event) }] } := by
  unfold throws at h
  split at h
  · exact ⟨_, _, _, _, ‹_›, (Option.some.inj h).symm⟩
  · cases h

/-! ## A `once` listener is called once -/

/-- A `once` listener does not emit its own event, and does not throw. -/
def Calm (s : TinyEmitter ε L) : EmitLabel ε L → Prop
  | .emit event => ∀ f ∈ s.stack, f.event = event → ∀ x, f.running = some x → x.once = false
  | .throws => ∀ f ∈ s.stack.head?, ∀ x, f.running = some x → x.once = false
  | _ => True

/-- A `once` listener that was called and is still registered has not returned, and no emit of its
event has begun since. -/
structure Spent (s : TinyEmitter ε L) : Prop where
  apart : s.stack.Pairwise fun f g =>
    g.event = f.event → ∀ x, g.running = some x → x.once = false
  held : ∀ e, ∀ x ∈ s.listeners e, x.once = true → x ∈ s.calls →
    ∃ f ∈ s.stack, f.event = e ∧ f.running = some x
  known : ∀ x ∈ s.calls, x.id < s.made
  count : ∀ x, x.once = true → s.calls.count x ≤ 1

lemma Spent.emit {event : ε} (h : s.Spent) (hcalm : s.Calm (.emit event)) :
    (s.emit event).Spent := by
  refine ⟨List.pairwise_cons.mpr ⟨hcalm, h.apart⟩, fun e x hx honce hcalls => ?_, h.known, h.count⟩
  obtain ⟨f, hf, hrest⟩ := h.held e x hx honce hcalls
  exact ⟨f, List.mem_cons_of_mem _ hf, hrest⟩

/-- The emit on top was not in the call of a `once` listener that is still registered. -/
lemma Spent.held_rest {f : Emission ε L} {rest : List (Emission ε L)} (h : s.Spent)
    (hstack : s.stack = f :: rest)
    (htop : ∀ x, f.running = some x → x.once = true → x ∉ s.listeners f.event) :
    ∀ e, ∀ x ∈ s.listeners e, x.once = true → x ∈ s.calls →
      ∃ g ∈ rest, g.event = e ∧ g.running = some x := by
  intro e x hx honce hcalls
  obtain ⟨g, hg, hevent, hrunning⟩ := h.held e x hx honce hcalls
  rw [hstack] at hg
  rcases List.mem_cons.mp hg with rfl | hg
  · exact absurd (hevent ▸ hx) (htop x hrunning honce)
  · exact ⟨g, hg, hevent, hrunning⟩

lemma Spent.goOn (h : s.Spent)
    (htop : ∀ f ∈ s.stack.head?, ∀ x, f.running = some x → x.once = true →
      x ∉ s.listeners f.event) : s.goOn.Spent := by
  unfold TinyEmitter.goOn
  split
  · rename_i f rest hstack
    have hrest := h.held_rest hstack (htop f (by simp [hstack]))
    obtain ⟨hfirst, hpairs⟩ := List.pairwise_cons.mp (hstack ▸ h.apart)
    refine ⟨List.pairwise_cons.mpr ⟨hfirst, hpairs⟩, fun e x hx honce hcalls => ?_, h.known, h.count⟩
    obtain ⟨g, hg, hrunning⟩ := hrest e x hx honce hcalls
    exact ⟨g, List.mem_cons_of_mem _ hg, hrunning⟩
  · exact h

lemma Spent.pop {f : Emission ε L} {rest ended : List (Emission ε L)} (h : s.Spent)
    (hstack : s.stack = f :: rest) (htop : ∀ x, f.running = some x → x.once = false) :
    Spent { s with stack := rest, ended } := by
  refine ⟨(List.pairwise_cons.mp (hstack ▸ h.apart)).2, ?_, h.known, h.count⟩
  refine h.held_rest hstack fun x hrunning honce => ?_
  rw [htop x hrunning] at honce
  cases honce

lemma Spent.visit (h : s.Spent) (hsound : s.Sound) (hstep : s.visit = some s') : s'.Spent := by
  obtain ⟨event, loop, rest, hstack, -, rfl⟩ := visit_eq_some hstep
  obtain ⟨hfirst, hpairs⟩ := List.pairwise_cons.mp (hstack ▸ h.apart)
  have hrest := h.held_rest hstack fun x hrunning => by cases hrunning
  -- a call of a `once` listener that was called before would be from its own call
  have hfresh : ∀ x ∈ (s.listeners event)[loop.next]?, x.once = true → x ∉ s.calls := by
    intro x hx honce hcalls
    obtain ⟨g, hg, hevent, hrunning⟩ := hrest event x (List.mem_of_getElem? hx) honce hcalls
    rw [hfirst g hg hevent x hrunning] at honce
    cases honce
  refine ⟨List.pairwise_cons.mpr ⟨hfirst, hpairs⟩, fun e x hx honce hcalls => ?_, fun x hx => ?_,
    fun x honce => ?_⟩
  · rcases List.mem_append.mp hcalls with hcalls | hnow
    · obtain ⟨g, hg, hrunning⟩ := hrest e x hx honce hcalls
      exact ⟨g, List.mem_cons_of_mem _ hg, hrunning⟩
    · have hget : (s.listeners event)[loop.next]? = some x := by simpa using hnow
      refine ⟨_, List.mem_cons_self .., ?_, hget⟩
      exact hsound.one _ _ x (List.mem_of_getElem? hget) hx
  · rcases List.mem_append.mp hx with hx | hx
    · exact h.known x hx
    · exact hsound.made event x (List.mem_of_getElem? (by simpa using hx))
  · rw [List.count_append]
    cases hget : (s.listeners event)[loop.next]? with
    | none => simpa using h.count x honce
    | some y =>
      by_cases heq : y = x
      · have hzero := List.count_eq_zero.mpr (hfresh x (heq ▸ hget) honce)
        simp [hzero, heq]
      · simpa [List.count_cons, heq] using h.count x honce

/-! ## Registering and removing -/

variable [DecidableEq ε]

lemma returns_eq_some (h : s.returns = some s') : ∃ event loop x rest,
    s.stack = ⟨event, loop, some x⟩ :: rest ∧
    s' = (if x.once then s.offWrapped event x else s).goOn := by
  unfold returns at h
  split at h
  · exact ⟨_, _, _, _, ‹_›, (Option.some.inj h).symm⟩
  · cases h

omit [DecidableEq L] in
lemma mem_push {event e : ε} {listener : L} {once : Bool} {x : Entry L}
    (hx : x ∈ (s.push event listener once).listeners e) :
    x ∈ s.listeners e ∨ (e = event ∧ x = ⟨s.made, listener, once⟩) := by
  by_cases he : e = event
  · subst he
    simpa [push, or_comm] using hx
  · simp only [push, Function.update_of_ne he] at hx
    exact .inl hx

omit [DecidableEq L] in
lemma Sound.push (h : s.Sound) (event : ε) (listener : L) (once : Bool) :
    (s.push event listener once).Sound := by
  have hfresh : ∀ e, (⟨s.made, listener, once⟩ : Entry L) ∉ s.listeners e := fun e hx =>
    Nat.lt_irrefl _ (h.made e _ hx)
  refine ⟨fun e => ?_, fun e e' x hx hx' => ?_, fun e x hx => ?_, fun f hf => ?_,
    fun f hf x hx => Nat.lt_succ_of_lt (h.known f hf x hx), h.running, h.ended⟩
  · by_cases he : e = event
    · subst he
      simp only [TinyEmitter.push, Function.update_self]
      exact List.nodup_append'.mpr ⟨h.nodup e, List.nodup_singleton _, by simpa using hfresh e⟩
    · simp only [TinyEmitter.push, Function.update_of_ne he]
      exact h.nodup e
  · rcases mem_push hx with hold | ⟨rfl, rfl⟩ <;> rcases mem_push hx' with hold' | ⟨rfl, heq⟩
    · exact h.one e e' x hold hold'
    · exact absurd (heq ▸ hold) (hfresh e)
    · exact absurd hold' (hfresh e')
    · rfl
  · rcases mem_push hx with hx | ⟨-, rfl⟩
    · exact Nat.lt_succ_of_lt (h.made e x hx)
    · exact Nat.lt_succ_self _
  · by_cases he : f.event = event
    · subst he
      simp only [TinyEmitter.push, Function.update_self]
      refine (h.loop f hf).push (fun hx => ?_) (fun hx => ?_)
      · exact Nat.lt_irrefl _ (h.known f hf _ (.inr hx))
      · exact Nat.lt_irrefl _ (h.known f hf _ (.inl hx))
    · simp only [TinyEmitter.push, Function.update_of_ne he]
      exact h.loop f hf

lemma mem_of_mem_splice {event e : ε} {idx : ℕ} {x : Entry L}
    (hx : x ∈ (s.splice event idx).listeners e) : x ∈ s.listeners e := by
  by_cases he : e = event
  · subst he
    simp only [splice, Function.update_self] at hx
    exact List.mem_of_mem_eraseIdx hx
  · simpa only [splice, Function.update_of_ne he] using hx

lemma Sound.splice (h : s.Sound) (event : ε) (idx : ℕ) : (s.splice event idx).Sound := by
  refine ⟨fun e => ?_, fun e e' x hx hx' => ?_, fun e x hx => ?_, ?_, ?_, ?_, h.ended⟩
  · by_cases he : e = event
    · subst he
      simp only [TinyEmitter.splice, Function.update_self]
      exact (h.nodup e).eraseIdx _
    · simp only [TinyEmitter.splice, Function.update_of_ne he]
      exact h.nodup e
  · exact h.one e e' x (mem_of_mem_splice hx) (mem_of_mem_splice hx')
  · exact h.made e x (mem_of_mem_splice hx)
  all_goals
    intro f' hf'
    obtain ⟨f, hf, rfl⟩ := List.mem_map.mp hf'
  · unfold Emission.splice
    split_ifs with he
    · subst he
      simp only [TinyEmitter.splice, Function.update_self]
      refine (h.loop f hf).erase (h.nodup _) fun hown x hx => ?_
      have hrunning : f.running = (s.listeners f.event)[idx]? := by simpa using hown
      exact h.running f hf x (hrunning.trans hx)
    · simp only [TinyEmitter.splice, Function.update_of_ne he]
      exact h.loop f hf
  · simp only [Emission.splice_start, Emission.splice_called]
    exact h.known f hf
  · simpa using h.running f hf

lemma Sound.spliceAt (h : s.Sound) (event : ε) (found : Option ℕ) :
    (s.spliceAt event found).Sound := by
  cases found with
  | none => exact h
  | some idx => exact h.splice event idx

lemma Sound.step {a : EmitLabel ε L} (h : s.Sound) (hstep : s.step a = some s') : s'.Sound := by
  cases a with
  | on event listener =>
    obtain rfl := eq_of_free hstep
    exact h.push event listener false
  | once event listener =>
    obtain rfl := eq_of_free hstep
    exact h.push event listener true
  | off event listener =>
    obtain rfl := eq_of_free hstep
    exact h.spliceAt event _
  | emit event =>
    obtain rfl := eq_of_free hstep
    exact h.emit event
  | visit => exact h.visit hstep
  | returns =>
    obtain ⟨event, loop, x, rest, -, rfl⟩ := returns_eq_some hstep
    split_ifs
    · exact (h.spliceAt event _).goOn
    · exact h.goOn
  | throws =>
    obtain ⟨event, loop, x, rest, hstack, rfl⟩ := throws_eq_some hstep
    refine h.pop hstack (h.loop _ (hstack ▸ List.mem_cons_self ..)).abort
  | finish =>
    obtain ⟨event, loop, rest, hstack, hend, rfl⟩ := finish_eq_some hstep
    exact h.pop hstack ((h.loop _ (hstack ▸ List.mem_cons_self ..)).done hend)

theorem sound_run {as : List (EmitLabel ε L)} (hrun : Lts.run step {} as = some s) : s.Sound :=
  Lts.run_inv_of_step (fun _ _ _ h hstep => h.step hstep) as sound_init hrun

lemma Spent.push (h : s.Spent) (event : ε) (listener : L) (once : Bool) :
    (s.push event listener once).Spent := by
  refine ⟨h.apart, fun e x hx honce hcalls => ?_, fun x hx => Nat.lt_succ_of_lt (h.known x hx),
    h.count⟩
  rcases mem_push hx with hx | ⟨-, rfl⟩
  · exact h.held e x hx honce hcalls
  · exact absurd (h.known _ hcalls) (Nat.lt_irrefl _)

lemma Spent.splice (h : s.Spent) (event : ε) (idx : ℕ) : (s.splice event idx).Spent := by
  refine ⟨?_, fun e x hx honce hcalls => ?_, h.known, h.count⟩
  · refine List.pairwise_map.mpr (h.apart.imp ?_)
    intro f g hfg
    simpa using hfg
  · obtain ⟨f, hf, hevent, hrunning⟩ := h.held e x (mem_of_mem_splice hx) honce hcalls
    exact ⟨_, List.mem_map_of_mem hf, by simpa using hevent, by simpa using hrunning⟩

lemma Spent.spliceAt (h : s.Spent) (event : ε) (found : Option ℕ) :
    (s.spliceAt event found).Spent := by
  cases found with
  | none => exact h
  | some idx => exact h.splice event idx

lemma not_mem_offWrapped {event : ε} (hnodup : (s.listeners event).Nodup) (x : Entry L) :
    x ∉ (s.offWrapped event x).listeners event := by
  unfold offWrapped
  cases hfound : s.indexOfWrapped event x with
  | none =>
    intro hx
    have hne := List.findIdx?_eq_none_iff.mp hfound x hx
    simp at hne
  | some idx =>
    obtain ⟨hlt, heq, -⟩ := List.findIdx?_eq_some_iff_getElem.mp hfound
    simp only [spliceAt, splice, Function.update_self]
    intro hx
    obtain ⟨j, hne, hget⟩ := List.mem_eraseIdx_iff_getElem?.mp hx
    have hidx : (s.listeners event)[idx]? = some x := by
      rw [List.getElem?_eq_getElem hlt, of_decide_eq_true heq]
    exact hne ((List.getElem?_inj hlt hnodup).mp (hidx.trans hget.symm)).symm

/-- The emit on top is the same one after a removal. -/
lemma head_spliceAt {event : ε} {found : Option ℕ} {f : Emission ε L}
    (hf : f ∈ (s.spliceAt event found).stack.head?) :
    ∃ g ∈ s.stack.head?, f.event = g.event ∧ f.running = g.running := by
  cases found with
  | none => exact ⟨f, hf, rfl, rfl⟩
  | some idx =>
    simp only [spliceAt, splice, List.head?_map] at hf
    obtain ⟨g, hg, rfl⟩ := Option.map_eq_some_iff.mp hf
    exact ⟨g, hg, by simp, by simp⟩

lemma Spent.step {a : EmitLabel ε L} (h : s.Spent) (hsound : s.Sound) (hcalm : s.Calm a)
    (hstep : s.step a = some s') : s'.Spent := by
  cases a with
  | on event listener =>
    obtain rfl := eq_of_free hstep
    exact h.push event listener false
  | once event listener =>
    obtain rfl := eq_of_free hstep
    exact h.push event listener true
  | off event listener =>
    obtain rfl := eq_of_free hstep
    exact h.spliceAt event _
  | emit event =>
    obtain rfl := eq_of_free hstep
    exact h.emit hcalm
  | visit => exact h.visit hsound hstep
  | returns =>
    obtain ⟨event, loop, x, rest, hstack, rfl⟩ := returns_eq_some hstep
    have hhead : ∀ g ∈ s.stack.head?, g.event = event ∧ g.running = some x := by
      simp [hstack]
    split_ifs with honce
    · refine (h.spliceAt event _).goOn fun f hf y hrunning _ => ?_
      obtain ⟨g, hg, hevent, hsame⟩ := head_spliceAt hf
      rw [hevent, (hhead g hg).1]
      obtain rfl : x = y := by simpa [hsame, (hhead g hg).2] using hrunning
      exact not_mem_offWrapped (hsound.nodup event) x
    · refine h.goOn fun f hf y hrunning hy => ?_
      obtain rfl : x = y := by simpa [(hhead f hf).2] using hrunning
      exact absurd hy honce
  | throws =>
    obtain ⟨event, loop, x, rest, hstack, rfl⟩ := throws_eq_some hstep
    exact h.pop hstack (hcalm _ (by simp [hstack]))
  | finish =>
    obtain ⟨event, loop, rest, hstack, hend, rfl⟩ := finish_eq_some hstep
    refine h.pop hstack fun x hx => ?_
    cases hx

theorem once_run {as : List (EmitLabel ε L)} (hrun : Lts.run step {} as = some s)
    (hcalm : Lts.Meets step Calm {} as) : s.Spent := by
  have hinit : ({} : TinyEmitter ε L).Sound ∧ ({} : TinyEmitter ε L).Spent := by
    refine ⟨sound_init, List.Pairwise.nil, ?_, ?_, ?_⟩
    all_goals simp
  refine (Lts.run_inv (I := fun s => s.Sound ∧ s.Spent) ?_ as hinit hcalm hrun).2
  intro s a s' hs hcalm hstep
  exact ⟨hs.1.step hstep, hs.2.step hs.1 hcalm hstep⟩

/-! ## When nothing is missed -/

/-- The array and the place that a step removes an element from. -/
def takesOut (s : TinyEmitter ε L) : EmitLabel ε L → Option (ε × ℕ)
  | .off event listener => (s.indexOf event listener).map (event, ·)
  | .returns =>
    match s.stack with
    | ⟨event, _, some x⟩ :: _ =>
      if x.once then (s.indexOfWrapped event x).map (event, ·) else none
    | _ => none
  | _ => none

/-- Nothing is removed at or before the place of a loop that has elements to come, and nothing
throws. -/
def Steady (s : TinyEmitter ε L) (a : EmitLabel ε L) : Prop :=
  a ≠ .throws ∧ ∀ p ∈ s.takesOut a, ∀ f ∈ s.stack, f.event = p.1 →
    f.loop.next ≤ p.2 ∨ (s.listeners p.1).length ≤ f.loop.next

instance (s : TinyEmitter ε L) (a : EmitLabel ε L) : Decidable (s.Steady a) :=
  inferInstanceAs (Decidable (a ≠ .throws ∧ ∀ p ∈ s.takesOut a, ∀ f ∈ s.stack, f.event = p.1 →
    f.loop.next ≤ p.2 ∨ (s.listeners p.1).length ≤ f.loop.next))

lemma Kept.spliceAt (h : s.Kept) {event : ε} {found : Option ℕ}
    (hsteady : ∀ idx ∈ found, ∀ f ∈ s.stack, f.event = event →
      f.loop.next ≤ idx ∨ (s.listeners event).length ≤ f.loop.next) :
    (s.spliceAt event found).Kept := by
  cases found with
  | none => exact h
  | some idx =>
    refine ⟨fun f' hf' => ?_, h.ended⟩
    obtain ⟨f, hf, rfl⟩ := List.mem_map.mp hf'
    unfold Emission.splice
    split_ifs with he
    · have hnone : (if idx < f.loop.next then
          (s.listeners event)[f.loop.next]?.toList.filter (· ∈ f.loop.start) else []) = [] := by
        rcases hsteady idx rfl f hf he with hle | hle
        · rw [if_neg (Nat.not_lt.mpr hle)]
        · simp [List.getElem?_eq_none hle]
      simp only [ForEach.Loop.erase, h.stack f hf, hnone, List.append_nil]
    · exact h.stack f hf

lemma Kept.step {a : EmitLabel ε L} (h : s.Kept) (hsteady : s.Steady a)
    (hstep : s.step a = some s') : s'.Kept := by
  cases a with
  | on event listener =>
    obtain rfl := eq_of_free hstep
    exact ⟨h.stack, h.ended⟩
  | once event listener =>
    obtain rfl := eq_of_free hstep
    exact ⟨h.stack, h.ended⟩
  | off event listener =>
    obtain rfl := eq_of_free hstep
    refine h.spliceAt fun idx hidx => hsteady.2 (event, idx) ?_
    exact Option.map_eq_some_iff.mpr ⟨idx, hidx, rfl⟩
  | emit event =>
    obtain rfl := eq_of_free hstep
    exact ⟨List.forall_mem_cons.mpr ⟨rfl, h.stack⟩, h.ended⟩
  | visit =>
    obtain ⟨event, loop, rest, hstack, -, rfl⟩ := visit_eq_some hstep
    have hmissed := h.stack
    rw [hstack, List.forall_mem_cons] at hmissed
    exact ⟨List.forall_mem_cons.mpr hmissed, h.ended⟩
  | returns =>
    obtain ⟨event, loop, x, rest, hstack, rfl⟩ := returns_eq_some hstep
    split_ifs with honce
    · refine (h.spliceAt fun idx hidx => hsteady.2 (event, idx) ?_).goOn
      simp only [takesOut, hstack, if_pos honce]
      exact Option.map_eq_some_iff.mpr ⟨idx, hidx, rfl⟩
    · exact h.goOn
  | throws => exact absurd rfl hsteady.1
  | finish =>
    obtain ⟨event, loop, rest, hstack, -, rfl⟩ := finish_eq_some hstep
    have hmissed := h.stack
    rw [hstack, List.forall_mem_cons] at hmissed
    refine ⟨hmissed.2, fun f hf => ?_⟩
    rcases List.mem_append.mp hf with hf | hf
    · exact h.ended f hf
    · exact List.mem_singleton.mp hf ▸ hmissed.1

theorem kept_run {as : List (EmitLabel ε L)} (hrun : Lts.run step {} as = some s)
    (hsteady : Lts.Meets step Steady {} as) : s.Kept := by
  refine Lts.run_inv (fun _ _ _ h hs hstep => h.step hs hstep) as ⟨?_, ?_⟩ hsteady hrun
  all_goals simp

/-! ## What the emits call -/

/-- An emit calls each listener that was registered when it started, and that no other listener
removed, exactly once, unless one of them was moved behind its place, which a removal at or before
its place does. A `once` listener is called once if it neither emits its own event nor throws. -/
theorem emits_reach_iff {as : List (EmitLabel ε L)} (hrun : Lts.run step {} as = some s) :
    (∀ f ∈ s.ended, f.loop.Reaches ↔ ∀ x ∈ f.loop.missed, x ∈ f.loop.removed) ∧
    (Lts.Meets step Steady {} as → ∀ f ∈ s.ended, f.loop.Reaches) ∧
    (Lts.Meets step Calm {} as → ∀ x, x.once = true → s.calls.count x ≤ 1) := by
  have hsound := sound_run hrun
  refine ⟨fun f hf => (hsound.ended f hf).reaches_iff, fun hsteady f hf => ?_,
    fun hcalm => (once_run hrun hcalm).count⟩
  rw [(hsound.ended f hf).reaches_iff, (kept_run hrun hsteady).ended f hf]
  intro x hx
  cases hx

/-- `waitForPairing` after the hook of `usePairing` has registered. -/
def pairedLast : List (EmitLabel String String) :=
  [.on "paired" "onPaired", .once "paired" "resolve", .emit "paired", .visit, .returns, .visit,
    .returns, .finish]

theorem emits_reach_pairedLast :
    ∃ s, Lts.run step {} pairedLast = some s ∧ ∀ f ∈ s.ended, f.loop.Reaches := by
  obtain ⟨s, hrun⟩ : ∃ s, Lts.run step {} pairedLast = some s := ⟨_, rfl⟩
  exact ⟨s, hrun, (emits_reach_iff hrun).2.1 (by decide)⟩

/-- `waitForPairing` before the hook of `usePairing` has registered: its listener is at the place of
the loop when `resolve` removes itself, and the hook is not told that the device is paired. -/
def pairedFirst : List (EmitLabel String String) :=
  [.once "paired" "resolve", .on "paired" "onPaired", .emit "paired", .visit, .returns, .visit,
    .finish]

/-- A `once` listener that emits its own event. -/
def pairedAgain : List (EmitLabel String String) :=
  [.once "paired" "resolve", .emit "paired", .visit, .emit "paired", .visit]

theorem emits_miss_pairedFirst :
    (∃ s f, Lts.run step {} pairedFirst = some s ∧ s.ended = [f] ∧
      f.loop.start = [⟨0, "resolve", true⟩, ⟨1, "onPaired", false⟩] ∧
      f.loop.called = [⟨0, "resolve", true⟩] ∧ f.loop.removed = [] ∧ ¬ f.loop.Reaches) ∧
    ∃ s, Lts.run step {} pairedAgain = some s ∧ s.calls.count ⟨0, "resolve", true⟩ = 2 := by
  refine ⟨⟨_, _, rfl, rfl, rfl, rfl, rfl, fun h => ?_⟩, _, rfl, by decide⟩
  have hone := h ⟨1, "onPaired", false⟩ (by decide) (by decide)
  revert hone
  decide

end TinyEmitter

end Relayly.Sdk.Ts
