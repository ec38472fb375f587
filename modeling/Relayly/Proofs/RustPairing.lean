import Mathlib.Algebra.Order.Group.Multiset
import Relayly.Lib.OneShot
import Relayly.Lib.Run
import Relayly.Sdk.RustPairing

/-!
# What an error frame tells the pairing calls

The channels are one-shot cells, since Rust moves a sender: it is in `pair_waiters` or kept for a
peer, and sending consumes it. So `handle_error` resolves every waiter once. What it sends is the
error rendered and mapped again, which is never the error that the frame was mapped to.
-/

namespace Relayly.Sdk.Rust

/-! ## The error that is sent -/

lemma errClone_eq (err : Error) : errClone err = .internal err.display := by
  rw [errClone, errorForCode] <;> decide

lemma length_lt_display_internal (message : String) :
    message.length < (Error.internal message).display.length := by
  have hdisplay : (Error.internal message).display = "internal server error" ++ suffix message := rfl
  rw [hdisplay, suffix]
  split_ifs with h
  · rw [h]
    decide
  · have hlen : "internal server error".length = 21 := by decide
    rw [String.length_append, String.length_append]
    omega

/-- No error survives: one that is `Internal` already gets its text a second time. -/
theorem errClone_ne (err : Error) : errClone err ≠ err := by
  intro h
  rw [errClone_eq] at h
  have hlen := length_lt_display_internal err.display
  rw [h] at hlen
  exact Nat.lt_irrefl _ hlen

/-- The channel a call waits for. -/
def Call.awaits : Call → Option ℕ
  | .requestPairCode ch true | .acceptPair _ ch true | .wait ch => some ch
  | _ => none

namespace Pairing

variable {s s' : Pairing} {key : String} {w : PairWaiter} {ch : ℕ} {r : PairResult}

/-! ## The channels as one-shot cells -/

lemma mem_of_lookup {β : Type*} {l : List (String × β)} {b : β} (h : l.lookup key = some b) :
    (key, b) ∈ l := by
  obtain ⟨l₁, l₂, rfl, -⟩ := List.lookup_eq_some_iff.mp h
  exact List.mem_append_right _ (List.mem_cons_self ..)

def cells (s : Pairing) : OneShot.Cells ℕ where
  made := {ch | ch < s.chans.length}
  held := ↑s.senders
  filled := ↑s.sends
  empty := {ch | s.chans[ch]? = some none}

lemma valid_of_passes (hv : s.cells.Valid) (hchans : s'.chans = s.chans)
    (hsends : s'.sends = s.sends) (hheld : (↑s'.senders : Multiset ℕ) ≤ ↑s.senders) :
    s'.cells.Valid := by
  have hpasses : s.cells.Passes s'.cells := by
    refine ⟨?_, hheld, ?_, ?_⟩
    · simp [cells, hchans]
    · simp [cells, hsends]
    · simp [cells, hchans]
  exact hpasses.valid hv

/-- `s` is `t` before the sender of `ch` was taken out. -/
lemma valid_send (t : Pairing) (hv : s.cells.Valid) (hchans : t.chans = s.chans)
    (hsends : t.sends = s.sends) (hheld : ch ::ₘ (↑t.senders : Multiset ℕ) ≤ ↑s.senders)
    (r : PairResult) :
    (t.send ch r).cells.Valid := by
  have hfills : s.cells.Fills ch (t.send ch r).cells := by
    refine ⟨?_, hheld, ?_, ?_⟩
    · simp [cells, send, hchans]
    · simp only [cells, send, hsends]
      exact Multiset.coe_eq_coe.2 (List.perm_append_singleton ch s.sends)
    · rintro x ⟨hx, hne⟩
      simp only [cells, send, hchans, Set.mem_ofPred_eq]
      rw [List.getElem?_set_ne (Ne.symm hne)]
      exact hx
  exact hfills.valid hv

lemma removeWaiter_senders (s : Pairing) (key : String) :
    (↑(s.removeWaiter key).senders : Multiset ℕ) ≤ ↑s.senders := by
  unfold senders removeWaiter
  rw [← Multiset.coe_add, ← Multiset.coe_add]
  exact add_le_add_left (OneShot.map_filter_ne_le PairWaiter.sender s.pairWaiters key) _

lemma cons_removeWaiter_senders (h : s.pairWaiters.lookup key = some w) :
    w.sender ::ₘ (↑(s.removeWaiter key).senders : Multiset ℕ) ≤ ↑s.senders := by
  unfold senders removeWaiter
  rw [← Multiset.coe_add, ← Multiset.coe_add, ← Multiset.cons_add]
  exact add_le_add_left (OneShot.cons_map_filter_ne_le PairWaiter.sender (mem_of_lookup h)) _

lemma cons_clearFirstPairWaiter_senders {peerId : String}
    (h : s.firstPairWaiters.lookup peerId = some ch) :
    ch ::ₘ (↑(s.clearFirstPairWaiter peerId).senders : Multiset ℕ) ≤ ↑s.senders := by
  unfold senders clearFirstPairWaiter
  rw [← Multiset.coe_add, ← Multiset.coe_add, ← Multiset.add_cons]
  exact add_le_add_right (OneShot.cons_map_filter_ne_le id (mem_of_lookup h)) _

lemma setFirstPairWaiter_senders (s : Pairing) (peerId : String) (ch : ℕ) :
    (↑(s.setFirstPairWaiter peerId ch).senders : Multiset ℕ) ≤ ch ::ₘ ↑s.senders := by
  unfold senders setFirstPairWaiter
  rw [← Multiset.coe_add, ← Multiset.coe_add, List.map_cons, ← Multiset.cons_coe, Multiset.add_cons]
  exact Multiset.cons_le_cons _
    (add_le_add_right (OneShot.map_filter_ne_le id s.firstPairWaiters peerId) _)

lemma insertWaiter_senders (s : Pairing) (key : String) (w : PairWaiter) :
    (↑(s.insertWaiter key w).senders : Multiset ℕ) ≤ w.sender ::ₘ ↑s.senders :=
  Multiset.cons_le_cons w.sender (s.removeWaiter_senders key)

/-- A new channel, whose sender replaces what is registered under `key`. -/
lemma valid_insert (hv : s.cells.Valid) (key : String) (acceptor : Bool) :
    (s.channel.insertWaiter key ⟨s.chans.length, acceptor⟩).cells.Valid := by
  have hmakes : s.cells.Makes s.chans.length
      (s.channel.insertWaiter key ⟨s.chans.length, acceptor⟩).cells := by
    refine ⟨?_, ?_, s.channel.insertWaiter_senders key _, rfl, ?_⟩
    · simp [cells]
    · ext x
      show x < (s.chans ++ [none]).length ↔ x = s.chans.length ∨ x < s.chans.length
      rw [List.length_append, List.length_singleton]
      omega
    · rintro x (rfl | hx)
      · simp [cells, channel, insertWaiter]
      · have hlt : x < s.chans.length := (List.getElem?_eq_some_iff.mp hx).1
        simpa [cells, channel, insertWaiter, List.getElem?_append_left hlt] using hx
  exact hmakes.valid hv

/-! ## The steps -/

lemma valid_settle (hv : s.cells.Valid) (peerId : String) (r : PairResult) :
    (s.settle peerId r).cells.Valid := by
  unfold settle
  split
  · exact hv
  · exact valid_send (s.clearFirstPairWaiter peerId) hv rfl rfl
      (cons_clearFirstPairWaiter_senders ‹_›) r

lemma valid_handlePairCode (hv : s.cells.Valid) (code : Option String) (expiresIn : Option ℕ) :
    (s.handlePairCode code expiresIn).cells.Valid := by
  unfold handlePairCode
  split
  · exact hv
  · exact valid_send (s.removeWaiter requestKey) hv rfl rfl
      (cons_removeWaiter_senders ‹_›) _

lemma valid_handlePairComplete (hv : s.cells.Valid) (peerId code : Option String)
    (startError : Option Error) : (s.handlePairComplete peerId code startError).cells.Valid := by
  cases peerId with
  | none => exact hv
  | some peerId =>
    simp only [handlePairComplete]
    split
    · exact hv
    · rename_i w hw
      have hlookup : s.pairWaiters.lookup (code.getD "") = some w := by
        split_ifs at hw
        exact hw
      have hmoved : ((s.removeWaiter (code.getD "")).setFirstPairWaiter peerId
          w.sender).cells.Valid :=
        valid_of_passes hv rfl rfl
          ((setFirstPairWaiter_senders _ _ _).trans (cons_removeWaiter_senders hlookup))
      split
      · split_ifs
        · exact valid_settle hmoved _ _
        · exact hmoved
      · exact hmoved

lemma valid_resolveHandshake (hv : s.cells.Valid) (peerId : String) (wasPending : Bool)
    (found : Except Error (Option Bytes)) :
    (s.resolveHandshake peerId wasPending found).cells.Valid := by
  cases found with
  | error e =>
    simp only [resolveHandshake]
    split_ifs
    · exact hv
    · exact valid_settle hv _ _
  | ok publicKey => exact valid_settle hv _ _

/-- The waiters that are still to come are held until they are sent on. -/
lemma valid_drain (r : PairResult) : ∀ (ws : List (String × PairWaiter)) {s : Pairing},
    ({ s with pairWaiters := ws } : Pairing).cells.Valid →
      (drain ws r { s with pairWaiters := [] }).cells.Valid
  | [], _, hv => hv
  | w :: ws, s, hv => by
    have hsend : (({ s with pairWaiters := ws } : Pairing).send w.2.sender r).cells.Valid :=
      valid_send { s with pairWaiters := ws } hv rfl rfl le_rfl r
    exact valid_drain r ws (s := s.send w.2.sender r) hsend

lemma valid_codeOf (hv : s.cells.Valid) (i : ℕ) (found : Except Error PairResult) :
    (s.codeOf i found).cells.Valid := by
  unfold codeOf
  split
  · exact hv
  · split
    · exact hv
    · exact valid_insert hv _ _

lemma valid_step (hv : s.cells.Valid) {a : PairLabel} (h : s.step a = some s') :
    s'.cells.Valid := by
  cases a with
  | requestPairCode =>
    cases h
    exact valid_insert hv _ _
  | acceptPair code =>
    cases h
    exact valid_insert hv _ _
  | queue i =>
    simp only [step, queue] at h
    split at h <;> cases h
    · exact hv
    · exact hv
  | unsent i =>
    simp only [step, unsent] at h
    split at h <;> cases h
    · exact valid_of_passes hv rfl rfl (s.removeWaiter_senders _)
    · exact valid_of_passes hv rfl rfl (s.removeWaiter_senders _)
  | elapse i =>
    simp only [step, elapse] at h
    split at h
    · split_ifs at h
      cases h
      exact hv
    · split_ifs at h
      cases h
      exact hv
    · cases h
  | resume i =>
    simp only [step, resume] at h
    split at h
    · obtain ⟨found, -, rfl⟩ := Option.map_eq_some_iff.mp h
      exact valid_codeOf hv i found
    · obtain ⟨found, -, rfl⟩ := Option.map_eq_some_iff.mp h
      exact hv
    · obtain ⟨found, -, rfl⟩ := Option.map_eq_some_iff.mp h
      exact hv
    · cases h
  | pairCode code expiresIn =>
    cases h
    exact valid_handlePairCode hv _ _
  | pairComplete peerId code startError =>
    cases h
    exact valid_handlePairComplete hv _ _ _
  | handshake peerId wasPending found =>
    cases h
    exact valid_resolveHandshake hv _ _ _
  | error code message =>
    cases h
    exact valid_drain _ s.pairWaiters hv

/-- In every state that is reached, each waiter has the sender of an empty channel to itself. -/
theorem valid_run {as : List PairLabel} (h : Lts.run step {} as = some s) : s.cells.Valid := by
  have hinit : ({} : Pairing).cells.Valid := by
    refine ⟨by simp [cells, senders], by simp [cells, senders], by simp [cells]⟩
  exact Lts.run_inv_of_step (fun _ _ _ hv hstep => valid_step hv hstep) as hinit h

/-! ## What the waiters get -/

lemma drain_eq (r : PairResult) : ∀ (ws : List (String × PairWaiter)) (s : Pairing),
    (drain ws r s).pairWaiters = s.pairWaiters ∧ (drain ws r s).calls = s.calls ∧
      (drain ws r s).sends = s.sends ++ ws.map (·.2.sender)
  | [], s => by simp [drain]
  | w :: ws, s => by
    obtain ⟨hwaiters, hcalls, hsends⟩ := drain_eq r ws (s.send w.2.sender r)
    refine ⟨hwaiters, hcalls, hsends.trans ?_⟩
    simp [send]

/-- What is on a channel stays, or is one of the results sent. -/
lemma drain_chans_of_sent (r : PairResult) {ch : ℕ} : ∀ (ws : List (String × PairWaiter))
    {s : Pairing}, s.chans[ch]? = some (some r) → (drain ws r s).chans[ch]? = some (some r)
  | [], _, h => h
  | w :: ws, s, h => by
    refine drain_chans_of_sent r ws (s := s.send w.2.sender r) ?_
    by_cases heq : w.2.sender = ch
    · have hlt : ch < s.chans.length := (List.getElem?_eq_some_iff.mp h).1
      simp [send, heq, hlt]
    · simpa [send, List.getElem?_set_ne heq] using h

lemma drain_chans (r : PairResult) : ∀ {ws : List (String × PairWaiter)} {s : Pairing},
    (∀ w ∈ ws, w.2.sender < s.chans.length) →
      ∀ w ∈ ws, (drain ws r s).chans[w.2.sender]? = some (some r)
  | [], _, _, _, hw => by cases hw
  | w' :: ws, s, hlt, w, hw => by
    rcases List.mem_cons.mp hw with rfl | hw
    · refine drain_chans_of_sent r ws (s := s.send w.2.sender r) ?_
      simp [send, hlt w (List.mem_cons_self ..)]
    · refine drain_chans r (s := s.send w'.2.sender r) (fun v hv => ?_) w hw
      simpa [send] using hlt v (List.mem_cons_of_mem _ hv)

/-- Every waiter registered in `s` is resolved once in `s'`, with `err`, and each call that waits
for it returns `err`. -/
structure Resolves (s s' : Pairing) (err : Error) : Prop where
  emptied : s'.pairWaiters = []
  once : ∀ w ∈ s.pairWaiters, s.sends.count w.2.sender = 0 ∧ s'.sends.count w.2.sender = 1
  result : ∀ w ∈ s.pairWaiters, s'.chans[w.2.sender]? = some (some { error := some err })
  returned : ∀ w ∈ s.pairWaiters, ∀ i c, s.calls[i]? = some c → c.awaits = some w.2.sender →
    ∃ t, s'.step (.resume i) = some t ∧ t.calls[i]? = some (.returned (.error err))

/-- A call whose channel has an error returns it. -/
lemma resume_error {i : ℕ} {c : Call} {err : Error} (hcall : s.calls[i]? = some c)
    (hawaits : c.awaits = some ch) (hchan : s.chans[ch]? = some (some { error := some err })) :
    ∃ t, s.step (.resume i) = some t ∧ t.calls[i]? = some (.returned (.error err)) := by
  have hlt : i < s.calls.length := (List.getElem?_eq_some_iff.mp hcall).1
  have hawaited : s.awaited ch = some (.ok { error := some err }) := by simp [awaited, hchan]
  refine ⟨s.setCall i (.returned (.error err)), ?_, by simp [setCall, hlt]⟩
  cases c with
  | requestPairCode ch' queued =>
    cases queued with
    | false => cases hawaits
    | true =>
      cases hawaits
      simp [step, resume, hcall, hawaited, codeOf]
  | acceptPair code ch' queued =>
    cases queued with
    | false => cases hawaits
    | true =>
      cases hawaits
      simp [step, resume, hcall, hawaited, peerOf]
  | wait ch' =>
    cases hawaits
    simp [step, resume, hcall, hawaited, peerOf]
  | returned result => cases hawaits

lemma drain_resolves (hv : s.cells.Valid) (err : Error) :
    Resolves s (drain s.pairWaiters { error := some err } { s with pairWaiters := [] }) err := by
  have hv' := valid_drain { error := some err } s.pairWaiters hv
  obtain ⟨hwaiters, hcalls, hsends⟩ :=
    drain_eq { error := some err } s.pairWaiters { s with pairWaiters := [] }
  have hheld : ∀ w ∈ s.pairWaiters, w.2.sender ∈ s.cells.held := by
    intro w hw
    exact List.mem_append_left _ (List.mem_map_of_mem hw)
  have hresult : ∀ w ∈ s.pairWaiters, (drain s.pairWaiters { error := some err }
      { s with pairWaiters := [] }).chans[w.2.sender]? = some (some { error := some err }) := by
    refine drain_chans _ fun w hw => ?_
    exact hv.made _ (Multiset.mem_add.2 (.inl (hheld w hw)))
  refine ⟨hwaiters, fun w hw => ⟨?_, ?_⟩, hresult, fun w hw i c hcall hawaits => ?_⟩
  · exact List.count_eq_zero.mpr (hv.not_filled (hheld w hw))
  · refine List.count_eq_one_of_mem hv'.nodup_filled ?_
    rw [hsends]
    exact List.mem_append_right _ (List.mem_map_of_mem hw)
  · exact resume_error ((congrArg (·[i]?) hcalls).trans hcall) hawaits (hresult w hw)

lemma handleError_resolves (hv : s.cells.Valid) (code message : Option String) :
    Resolves s (s.handleError code message)
      (errClone (errorForCode (code.getD "") (message.getD ""))) :=
  drain_resolves hv _

lemma resolves_unique {err err' : Error} (h : Resolves s s' err) (h' : Resolves s s' err')
    (hne : err ≠ err') : s.pairWaiters = [] := by
  refine List.eq_nil_iff_forall_not_mem.mpr fun w hw => hne ?_
  simpa using (h.result w hw).symm.trans (h'.result w hw)

/-- Whatever was called and received before, an error frame resolves every waiter once, with the
rendered text of its error as an `Internal` one. So the waiters get the error itself exactly if
there are none. -/
theorem handleError_resolves_iff {as : List PairLabel} (hrun : Lts.run step {} as = some s)
    (code message : Option String) :
    Resolves s (s.handleError code message)
      (.internal (errorForCode (code.getD "") (message.getD "")).display) ∧
    (Resolves s (s.handleError code message) (errorForCode (code.getD "") (message.getD "")) ↔
      s.pairWaiters = []) := by
  have hclone := handleError_resolves (valid_run hrun) code message
  refine ⟨errClone_eq _ ▸ hclone, fun h => resolves_unique hclone h (errClone_ne _), fun hnil => ?_⟩
  refine ⟨hclone.emptied, ?_, ?_, ?_⟩
  all_goals
    rw [hnil]
    intro w hw
    cases hw

def acceptingSample : Pairing :=
  { pairWaiters := [("123456", ⟨0, true⟩)], chans := [none]
    calls := [.acceptPair "123456" 0 true] }

lemma acceptingSample_run :
    Lts.run step {} [.acceptPair "123456", .queue 0] = some acceptingSample := by
  rfl

theorem handleError_resolves_accepting :
    Resolves acceptingSample (acceptingSample.handleError (some "rate_limited") none)
      (.internal "rate limited") :=
  (handleError_resolves_iff acceptingSample_run (some "rate_limited") none).1

/-- A wrong code makes `accept_pair` return an internal error. -/
theorem handleError_loses_code :
    Lts.run step {} [.acceptPair "123456", .queue 0] = some acceptingSample ∧
    ¬ Resolves acceptingSample (acceptingSample.handleError (some "invalid_code") none)
      (errorForCode "invalid_code" "") ∧
    (Lts.run step acceptingSample [.error (some "invalid_code") none, .resume 0]).map calls =
      some [.returned (.error (.internal "invalid pairing code"))] := by
  refine ⟨acceptingSample_run, fun h => ?_, rfl⟩
  have hresult := h.result ("123456", ⟨0, true⟩) (List.mem_cons_self ..)
  revert hresult
  decide

end Pairing

end Relayly.Sdk.Rust
