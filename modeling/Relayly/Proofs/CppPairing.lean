import Mathlib.Algebra.Order.Group.Multiset
import Mathlib.Tactic.Abel
import Relayly.Lib.OneShot
import Relayly.Lib.Run
import Relayly.Sdk.CppPairing

/-!
# Where the promises of the pairing calls are

C++ shares a promise, so nothing but the order of the steps keeps a callback from setting one twice,
which would throw on the thread of the WebSocket. A promise is taken out of its map before it is
set, and is in one place all along (`promises_accounted`): those never set are the ones that are
waited for, and those that another registration under the same key took the place of. What a promise
is set to came from the relay (`settled_by_frame`): from an error frame, or from a handshake with the
peer that was named by the completion of its own code.
-/

namespace Relayly.Sdk.Cpp

/-- The promises that the callback under way has taken. -/
def Io.codeHeld : Io → List ℕ
  | .setCode w _ | .failCode w _ => [w]
  | _ => []

def Io.held : Io → List ℕ
  | .link w _ | .attach w _ => [w.promise]
  | .settle w _ => [w]
  | _ => []

namespace Pairing

variable {s s' start : Pairing} {label : PairLabel} {labels labels' : List PairLabel} {w : ℕ}

def codeHeld (s : Pairing) : Multiset ℕ := ↑s.codeWaiter.toList + ↑s.io.codeHeld

def held (s : Pairing) : Multiset ℕ :=
  ↑(s.pairWaiters.map (·.2.promise)) + ↑(s.firstPairWaiters.map (·.2)) + ↑s.io.held

structure Accounts (s : Pairing) : Prop where
  codes : OneShot.Accounted s.codePromises s.codeHeld ↑s.codeReplaced
  promises : OneShot.Accounted s.promises s.held ↑s.replaced
  pairKeys : (s.pairWaiters.map (·.1)).Nodup
  firstKeys : (s.firstPairWaiters.map (·.1)).Nodup
  live : s.io ≠ .threw

/-! ## What a step does -/

lemma mem_of_lookup {β : Type*} {l : List (String × β)} {key : String} {b : β}
    (h : l.lookup key = some b) : (key, b) ∈ l := by
  obtain ⟨l₁, l₂, rfl, -⟩ := List.lookup_eq_some_iff.mp h
  exact List.mem_append_right _ (List.mem_cons_self ..)

/-- The loop of an error frame finds no promise set, and sets those of `ws` only. -/
lemma failAll_eq (err : Error) {rest lost : Multiset ℕ} : ∀ (ws : List (String × PairWaiter)) {s : Pairing},
    OneShot.Accounted s.promises (↑(ws.map (·.2.promise)) + rest) lost →
    ∃ promises, s.failAll err ws = { s with promises, pairWaiters := [], io := .idle } ∧
      OneShot.Accounted promises rest lost ∧
      ∀ (w : ℕ) (r : Except Exception Peer), promises[w]? = some (some r) →
        s.promises[w]? = some (some r) ∨ r = .error (.error err)
  | [], s, h => ⟨s.promises, rfl, by simpa using h, fun w r hr => .inl hr⟩
  | w :: ws, s, h => by
    rw [List.map_cons, ← Multiset.cons_coe, Multiset.cons_add] at h
    obtain ⟨promises, hrest, hacc, hset⟩ :=
      failAll_eq err ws (s := { s with
        promises := s.promises.set w.2.promise (some (.error (.error err))) }) (h.fill _)
    refine ⟨promises, ?_, hacc, fun w' r hr => ?_⟩
    · rw [failAll, h.empty_of_held]
      exact hrest
    · rcases hset w' r hr with hr | hr
      · rw [List.getElem?_set] at hr
        split_ifs at hr
        · simp only [Option.some.injEq] at hr
          exact .inr hr.symm
        · exact .inl hr
      · exact .inr hr

/-- Each step, where the promises are accounted for: no promise is found set. -/
inductive Moves (s : Pairing) : PairLabel → Pairing → Prop
  | requestPairCode : Moves s .requestPairCode s.requestPairCode
  | returns (i : ℕ) (c : Call) : Moves s (.resume i) (s.setCall i c)
  | registers (i : ℕ) (code : String) (c : Call) :
    Moves s (.resume i) ((s.register code false).setCall i c)
  | acceptPair (code : String) : Moves s (.acceptPair code) (s.acceptPair code)
  | ignores (f : Frame) (hio : s.io = .idle) : Moves s (.frame f) s
  | pairCode (code : Option String) (expiresIn : Option UInt64) (w : ℕ) (event : PairCodeEvent)
      (hio : s.io = .idle) (hw : s.codeWaiter = some w) :
    Moves s (.frame (.pairCode code expiresIn)) { s with codeWaiter := none, io := .setCode w event }
  | pairComplete (peerID code : Option String) (w : PairWaiter) (hio : s.io = .idle)
      (hw : s.pairWaiters.lookup (code.getD "") = some w) :
    Moves s (.frame (.pairComplete peerID code)) { s with
      pairWaiters := s.pairWaiters.filter (·.1 ≠ code.getD "")
      io := .link w (peerID.getD "") }
  | failCode (code message : Option String) (w : ℕ) (hio : s.io = .idle)
      (hw : s.codeWaiter = some w) :
    Moves s (.frame (.error code message)) { s with
      codeWaiter := none
      io := .failCode w (errorForCode (code.getD "") (message.getD "")) }
  | failPairs (code message : Option String) (hio : s.io = .idle) (hw : s.codeWaiter = none) :
    Moves s (.frame (.error code message)) { s with
      codeWaiter := none
      io := .failPairs (errorForCode (code.getD "") (message.getD "")) }
  | handshake (peerID : String) (found : Except Exception Bytes) (hio : s.io = .idle) :
    Moves s (.frame (.handshake peerID found)) { s with io := .take peerID found }
  | setCode (w : ℕ) (event : PairCodeEvent) (hio : s.io = .setCode w event) :
    Moves s .io { s with codePromises := s.codePromises.set w (some (.ok event)), io := .idle }
  | codeFailed (w : ℕ) (err : Error) (hio : s.io = .failCode w err) :
    Moves s .io { s with
      codePromises := s.codePromises.set w (some (.error err))
      io := .failPairs err }
  | pairsFailed (err : Error) (promises : List (Option (Except Exception Peer)))
      (hio : s.io = .failPairs err)
      (hacc : OneShot.Accounted promises ↑(s.firstPairWaiters.map (·.2)) ↑s.replaced)
      (hset : ∀ (w : ℕ) (r : Except Exception Peer), promises[w]? = some (some r) →
        s.promises[w]? = some (some r) ∨ r = .error (.error err)) :
    Moves s .io { s with promises, pairWaiters := [], io := .idle }
  | link (w : PairWaiter) (peerID : String) (peers : List String) (hio : s.io = .link w peerID) :
    Moves s .io { s with peers, io := .attach w peerID }
  | attach (w : PairWaiter) (peerID : String) (hio : s.io = .attach w peerID) :
    Moves s .io { s.setFirstPairWaiter peerID w.promise with io := .idle }
  | takeNone (peerID : String) (found : Except Exception Bytes) (hio : s.io = .take peerID found) :
    Moves s .io { s with io := .idle }
  | take (peerID : String) (found : Except Exception Bytes) (w : ℕ) (hio : s.io = .take peerID found)
      (hw : s.firstPairWaiters.lookup peerID = some w) :
    Moves s .io { s with
      firstPairWaiters := s.firstPairWaiters.filter (·.1 ≠ peerID)
      io := .settle w (found.map (Peer.mk peerID)) }
  | settle (w : ℕ) (outcome : Except Exception Peer) (hio : s.io = .settle w outcome) :
    Moves s .io { s with promises := s.promises.set w (some outcome), io := .idle }

lemma Accounts.codePromise (hs : s.Accounts) (hio : s.io.codeHeld = [w]) :
    s.codePromises[w]? = some none := by
  refine (hs.codes.empty w).1 (Multiset.mem_add.2 (.inl ?_))
  simp [codeHeld, hio]

lemma Accounts.promise (hs : s.Accounts) (hio : s.io.held = [w]) : s.promises[w]? = some none := by
  refine (hs.promises.empty w).1 (Multiset.mem_add.2 (.inl ?_))
  simp [held, hio]

lemma moves_of_resume {i : ℕ} (h : s.resume i = some s') : Moves s (.resume i) s' := by
  unfold resume at h
  split at h
  · split at h
    · exact Option.some.inj h ▸ .returns i _
    · exact Option.some.inj h ▸ .returns i _
    · cases h
  · exact Option.some.inj h ▸ .registers i _ _
  · cases h

lemma moves_of_handle {f : Frame} (hio : s.io = .idle) (h : s.handle f = some s') :
    Moves s (.frame f) s' := by
  cases f with
  | pairCode code expiresIn =>
    obtain rfl := Option.some.inj h
    unfold handlePairCode
    split
    · exact .ignores _ hio
    · next w hw => exact .pairCode code expiresIn w _ hio hw
  | pairComplete peerID code =>
    obtain rfl := Option.some.inj h
    unfold handlePairComplete
    split
    · exact .ignores _ hio
    · next w hw => exact .pairComplete peerID code w hio hw
  | error code message =>
    obtain rfl := Option.some.inj h
    rcases hw : s.codeWaiter with _ | w
    · have hmoves := Moves.failPairs code message hio hw
      simpa [handleError, hw] using hmoves
    · have hmoves := Moves.failCode code message w hio hw
      simpa [handleError, hw] using hmoves
  | handshake peerID found =>
    simp only [handle] at h
    split_ifs at h
    exact Option.some.inj h ▸ .handshake peerID found hio

lemma moves_of_ioStep (hs : s.Accounts) (h : s.ioStep = some s') : Moves s .io s' := by
  unfold ioStep at h
  split at h
  · cases h
  · cases h
  · next w event hio =>
    rw [setCodePromise, hs.codePromise (w := w) (by rw [hio]; rfl)] at h
    exact Option.some.inj h ▸ .setCode w event hio
  · next w peerID hio => exact Option.some.inj h ▸ .link w peerID _ hio
  · next w peerID hio => exact Option.some.inj h ▸ .attach w peerID hio
  · next w err hio =>
    rw [setCodePromise, hs.codePromise (w := w) (by rw [hio]; rfl)] at h
    exact Option.some.inj h ▸ .codeFailed w err hio
  · next err hio =>
    have hacc := hs.promises
    rw [held, hio, Multiset.add_assoc] at hacc
    obtain ⟨promises, heq, hrest, hset⟩ := failAll_eq err s.pairWaiters hacc
    rw [heq] at h
    exact Option.some.inj h ▸ .pairsFailed err promises hio (by simpa [Io.held] using hrest) hset
  · next peerID found hio =>
    split at h
    · exact Option.some.inj h ▸ .takeNone peerID found hio
    · next w hw => exact Option.some.inj h ▸ .take peerID found w hio hw
  · next w outcome hio =>
    rw [setPromise, hs.promise (w := w) (by rw [hio]; rfl)] at h
    exact Option.some.inj h ▸ .settle w outcome hio

lemma moves_of_step (hs : s.Accounts) (h : s.step label = some s') : Moves s label s' := by
  cases label with
  | requestPairCode => exact Option.some.inj h ▸ .requestPairCode
  | resume i => exact moves_of_resume h
  | acceptPair code => exact Option.some.inj h ▸ .acceptPair code
  | frame f =>
    simp only [step] at h
    split at h
    · next hio => exact moves_of_handle hio h
    · cases h
  | io => exact moves_of_ioStep hs h

/-! ## Every promise is in one place -/

lemma Accounts.register (hs : s.Accounts) (code : String) (acceptor : Bool) :
    (s.register code acceptor).Accounts := by
  refine { hs with promises := ?_, pairKeys := OneShot.nodup_keys_insert _ hs.pairKeys }
  have hmake := hs.promises.make
  have hheld : s.promises.length ::ₘ s.held = (s.register code acceptor).held +
      ↑((s.pairWaiters.filter (·.1 = code)).map (·.2.promise)) := by
    unfold held Pairing.register
    rw [← OneShot.map_filter_ne_add PairWaiter.promise s.pairWaiters code, List.map_cons,
      ← Multiset.cons_coe]
    simp only [Multiset.cons_add]
    congr 1
    abel
  rw [hheld] at hmake
  exact hmake.drop

lemma Accounts.requestPairCode (hs : s.Accounts) : s.requestPairCode.Accounts := by
  refine { hs with codes := ?_ }
  have hmake := hs.codes.make
  have hheld : s.codePromises.length ::ₘ s.codeHeld =
      s.requestPairCode.codeHeld + ↑s.codeWaiter.toList := by
    unfold codeHeld Pairing.requestPairCode
    rw [Option.toList_some, Multiset.coe_singleton, ← Multiset.singleton_add]
    abel
  rw [hheld] at hmake
  exact hmake.drop

lemma Accounts.attach (hs : s.Accounts) {w : PairWaiter} {peerID : String}
    (hio : s.io = .attach w peerID) :
    { s.setFirstPairWaiter peerID w.promise with io := .idle }.Accounts := by
  refine { hs with
    codes := ?_, promises := ?_, firstKeys := OneShot.nodup_keys_insert _ hs.firstKeys, live := ?_ }
  · simpa [codeHeld, hio, Io.codeHeld, setFirstPairWaiter] using hs.codes
  · have hacc := hs.promises
    have hsplit : (↑(s.firstPairWaiters.map (·.2)) : Multiset ℕ) = _ :=
      (OneShot.map_filter_ne_add id s.firstPairWaiters peerID).symm
    have hheld : s.held = { s.setFirstPairWaiter peerID w.promise with io := .idle }.held +
        ↑((s.firstPairWaiters.filter (·.1 = peerID)).map (·.2)) := by
      simp only [held, setFirstPairWaiter, hio, hsplit, List.map_cons, ← Multiset.cons_coe, Io.held, id,
        Multiset.coe_nil, ← Multiset.singleton_add]
      abel
    rw [hheld] at hacc
    exact hacc.drop
  · simp

lemma Accounts.pairComplete (hs : s.Accounts) {w : PairWaiter} {code peerID : String}
    (hio : s.io = .idle) (hw : s.pairWaiters.lookup code = some w) :
    { s with pairWaiters := s.pairWaiters.filter (·.1 ≠ code), io := .link w peerID }.Accounts := by
  refine { hs with
    codes := ?_, promises := ?_, pairKeys := hs.pairKeys.sublist (List.filter_sublist.map _),
    live := by simp }
  · simpa [codeHeld, hio, Io.codeHeld] using hs.codes
  · have hacc := hs.promises
    rw [held, hio, ← OneShot.cons_map_filter_ne_eq PairWaiter.promise hs.pairKeys (mem_of_lookup hw),
      ← Multiset.singleton_add] at hacc
    unfold held
    simp only [Io.held, Multiset.coe_nil, Multiset.coe_singleton] at hacc ⊢
    convert hacc using 1
    abel

lemma Accounts.take (hs : s.Accounts) {peerID : String} {found : Except Exception Bytes}
    {outcome : Except Exception Peer} (hio : s.io = .take peerID found)
    (hw : s.firstPairWaiters.lookup peerID = some w) :
    { s with
      firstPairWaiters := s.firstPairWaiters.filter (·.1 ≠ peerID)
      io := .settle w outcome }.Accounts := by
  refine { hs with
    codes := ?_, promises := ?_, firstKeys := hs.firstKeys.sublist (List.filter_sublist.map _),
    live := by simp }
  · simpa [codeHeld, hio, Io.codeHeld] using hs.codes
  · have hacc := hs.promises
    have hsplit : (↑(s.firstPairWaiters.map (·.2)) : Multiset ℕ) = _ :=
      (OneShot.cons_map_filter_ne_eq id hs.firstKeys (mem_of_lookup hw)).symm
    rw [held, hio, hsplit, ← Multiset.singleton_add] at hacc
    unfold held
    simp only [Io.held, id, Multiset.coe_nil, Multiset.coe_singleton] at hacc ⊢
    convert hacc using 1
    abel

lemma Accounts.settle (hs : s.Accounts) {outcome : Except Exception Peer}
    (hio : s.io = .settle w outcome) :
    { s with promises := s.promises.set w (some outcome), io := .idle }.Accounts := by
  refine { hs with codes := ?_, promises := ?_, live := by simp }
  · simpa [codeHeld, hio, Io.codeHeld] using hs.codes
  · have hacc := hs.promises
    rw [held, hio, Io.held, Multiset.coe_singleton, Multiset.add_comm, Multiset.singleton_add] at hacc
    simpa [held, Io.held] using hacc.fill outcome

/-- The callback sets the promise of a code that it has taken. -/
lemma Accounts.setCode (hs : s.Accounts) {io : Io} (result : Except Error PairCodeEvent)
    (hcode : s.io.codeHeld = [w]) (hheld : s.io.held = []) (hcode' : io.codeHeld = [])
    (hheld' : io.held = []) (hlive : io ≠ .threw) :
    { s with codePromises := s.codePromises.set w (some result), io }.Accounts := by
  refine { hs with codes := ?_, promises := ?_, live := hlive }
  · have hacc := hs.codes
    rw [codeHeld, hcode, Multiset.coe_singleton, Multiset.add_comm, Multiset.singleton_add] at hacc
    simpa [codeHeld, hcode'] using hacc.fill result
  · simpa [held, hheld, hheld'] using hs.promises

/-- The callback goes on with the promises it has. -/
lemma Accounts.setIo (hs : s.Accounts) {io : Io} {peers : List String}
    (hcode : io.codeHeld = s.io.codeHeld) (hheld : io.held = s.io.held) (hlive : io ≠ .threw) :
    { s with peers, io }.Accounts := by
  refine { hs with codes := ?_, promises := ?_, live := hlive }
  · simpa [codeHeld, hcode] using hs.codes
  · simpa [held, hheld] using hs.promises

/-- The callback takes the promise of a code. -/
lemma Accounts.takeCode (hs : s.Accounts) {io : Io} (hio : s.io = .idle)
    (hcode : io.codeHeld = s.codeWaiter.toList) (hheld : io.held = []) (hlive : io ≠ .threw) :
    { s with codeWaiter := none, io }.Accounts := by
  refine { hs with codes := ?_, promises := ?_, live := hlive }
  · have hnone : s.io.codeHeld = [] := by rw [hio]; rfl
    simpa [codeHeld, hcode, hnone] using hs.codes
  · have hnone : s.io.held = [] := by rw [hio]; rfl
    simpa [held, hheld, hnone] using hs.promises

lemma Moves.accounts (h : Moves s label s') (hs : s.Accounts) : s'.Accounts := by
  cases h with
  | requestPairCode => exact hs.requestPairCode
  | returns i c => exact { hs with }
  | registers i code c => exact { hs.register code false with }
  | acceptPair code => exact { hs.register code true with }
  | ignores f hio => exact hs
  | pairCode code expiresIn w event hio hw =>
    exact hs.takeCode hio (by rw [hw]; rfl) rfl (by simp)
  | pairComplete peerID code w hio hw => exact hs.pairComplete hio hw
  | failCode code message w hio hw => exact hs.takeCode hio (by rw [hw]; rfl) rfl (by simp)
  | failPairs code message hio hw => exact hs.takeCode hio (by rw [hw]; rfl) rfl (by simp)
  | handshake peerID found hio => exact hs.setIo (by rw [hio]; rfl) (by rw [hio]; rfl) (by simp)
  | setCode w event hio =>
    exact hs.setCode _ (by rw [hio]; rfl) (by rw [hio]; rfl) rfl rfl (by simp)
  | codeFailed w err hio =>
    exact hs.setCode _ (by rw [hio]; rfl) (by rw [hio]; rfl) rfl rfl (by simp)
  | pairsFailed err promises hio hacc hset =>
    refine { hs with
      codes := ?_, promises := by simpa [held, Io.held] using hacc,
      pairKeys := List.nodup_nil, live := by simp }
    simpa [codeHeld, hio, Io.codeHeld] using hs.codes
  | link w peerID peers hio => exact hs.setIo (by rw [hio]; rfl) (by rw [hio]; rfl) (by simp)
  | attach w peerID hio => exact hs.attach hio
  | takeNone peerID found hio => exact hs.setIo (by rw [hio]; rfl) (by rw [hio]; rfl) (by simp)
  | take peerID found w hio hw => exact hs.take hio hw
  | settle w outcome hio => exact hs.settle hio

lemma accounts_start (peers : List String) : ({ peers } : Pairing).Accounts where
  codes := OneShot.Accounted.nil
  promises := OneShot.Accounted.nil
  pairKeys := List.nodup_nil
  firstKeys := List.nodup_nil
  live := by simp

lemma accounts_run {peers : List String} (hrun : Lts.run step { peers } labels = some s) :
    s.Accounts :=
  Lts.run_inv_of_step (fun _ _ _ hs h => (moves_of_step hs h).accounts hs) labels
    (accounts_start peers) hrun

/-- However the calls and the callbacks interleave, no callback sets a promise twice. The promises not
set are those that wait in one place, and those that were replaced: they are never set. -/
theorem promises_accounted (peers : List String) (labels : List PairLabel)
    (hrun : Lts.run step { peers } labels = some s) :
    s.io ≠ .threw ∧ OneShot.Accounted s.codePromises s.codeHeld ↑s.codeReplaced ∧
      OneShot.Accounted s.promises s.held ↑s.replaced :=
  have hs := accounts_run hrun
  ⟨hs.live, hs.codes, hs.promises⟩

/-- Two calls for one code, which is then completed: the promise of the first is replaced, and the
handshake settles the second. -/
def acceptedTwice : List PairLabel :=
  [.acceptPair "4F7K2M", .acceptPair "4F7K2M", .frame (.pairComplete (some "b") (some "4F7K2M")), .io, .io,
    .frame (.handshake "b" (.ok [7])), .io, .io]

theorem promises_accounted_replaced : ∃ s, Lts.run step { peers := [] } acceptedTwice = some s ∧
    s.promises = [none, some (.ok ⟨"b", [7]⟩)] ∧ s.replaced = [0] ∧ s.io ≠ .threw ∧
    OneShot.Accounted s.promises s.held ↑s.replaced :=
  have h := promises_accounted [] acceptedTwice rfl
  ⟨_, rfl, rfl, rfl, h.1, h.2.2⟩

/-! ## What a promise is set to -/

/-- A completion named the peer, for the code under which `w` was waited for at the time. -/
def Completed (start : Pairing) (labels : List PairLabel) (w : ℕ) (peerID : String) : Prop :=
  ∃ before after s₁ peer code acceptor,
    labels = before ++ .frame (.pairComplete peer code) :: after ∧
    Lts.run step start before = some s₁ ∧
    s₁.pairWaiters.lookup (code.getD "") = some ⟨acceptor, w⟩ ∧ peer.getD "" = peerID

/-- Where the result of the promise `w` comes from. -/
inductive Settled (start : Pairing) (labels : List PairLabel) (w : ℕ) : Except Exception Peer → Prop
  | failed (code message : Option String) (hmem : .frame (.error code message) ∈ labels) :
    Settled start labels w (.error (.error (errorForCode (code.getD "") (message.getD ""))))
  | shaken (before after : List PairLabel) (peerID : String) (found : Except Exception Bytes)
      (hlabels : labels = before ++ .frame (.handshake peerID found) :: after)
      (hcompleted : Completed start before w peerID) :
    Settled start labels w (found.map (Peer.mk peerID))

/-- Where the callback under way comes from, with the waiters in `first_pair_waiters`. -/
def IoCame (start : Pairing) (labels : List PairLabel) (first : List (String × ℕ)) : Io → Prop
  | .link w peerID | .attach w peerID => Completed start labels w.promise peerID
  | .failCode _ err | .failPairs err => ∃ code message : Option String,
      err = errorForCode (code.getD "") (message.getD "") ∧ .frame (.error code message) ∈ labels
  | .take peerID found => ∃ before after, labels = before ++ .frame (.handshake peerID found) :: after ∧
      ∀ p ∈ first, Completed start before p.2 p.1
  | .settle w outcome => Settled start labels w outcome
  | _ => True

structure Came (start : Pairing) (labels : List PairLabel) (s : Pairing) : Prop where
  first : ∀ p ∈ s.firstPairWaiters, Completed start labels p.2 p.1
  io : IoCame start labels s.firstPairWaiters s.io
  promises : ∀ w r, s.promises[w]? = some (some r) → Settled start labels w r

lemma Completed.append {peerID : String} (h : Completed start labels w peerID) :
    Completed start (labels ++ labels') w peerID := by
  obtain ⟨before, after, s₁, peer, code, acceptor, hlabels, hrun, hw, hpeer⟩ := h
  exact ⟨before, after ++ labels', s₁, peer, code, acceptor, by rw [hlabels]; simp, hrun, hw, hpeer⟩

lemma Settled.append {r : Except Exception Peer} (h : Settled start labels w r) :
    Settled start (labels ++ labels') w r := by
  cases h with
  | failed code message hmem => exact .failed code message (List.mem_append_left _ hmem)
  | shaken before after peerID found hlabels hcompleted =>
    exact .shaken before (after ++ labels') peerID found (by rw [hlabels]; simp) hcompleted

lemma IoCame.append {first : List (String × ℕ)} {io : Io} (h : IoCame start labels first io) :
    IoCame start (labels ++ labels') first io := by
  cases io with
  | idle => trivial
  | threw => trivial
  | setCode w event => trivial
  | link w peerID => exact Completed.append h
  | attach w peerID => exact Completed.append h
  | failCode w err =>
    obtain ⟨code, message, herr, hmem⟩ := h
    exact ⟨code, message, herr, List.mem_append_left _ hmem⟩
  | failPairs err =>
    obtain ⟨code, message, herr, hmem⟩ := h
    exact ⟨code, message, herr, List.mem_append_left _ hmem⟩
  | take peerID found =>
    obtain ⟨before, after, hlabels, hfirst⟩ := h
    exact ⟨before, after ++ labels', by rw [hlabels]; simp, hfirst⟩
  | settle w outcome => exact Settled.append h

lemma Came.append (h : Came start labels s) : Came start (labels ++ labels') s :=
  ⟨fun p hp => (h.first p hp).append, h.io.append, fun w r hr => (h.promises w r hr).append⟩

lemma Came.register (h : Came start labels s) (code : String) (acceptor : Bool) :
    Came start labels (s.register code acceptor) := by
  refine { h with promises := fun w r hr => h.promises w r ?_ }
  change (s.promises ++ [none])[w]? = _ at hr
  rw [List.getElem?_append] at hr
  split_ifs at hr
  · exact hr
  · simp [List.getElem?_singleton] at hr

lemma Came.setFirstPairWaiter (h : Came start labels s) {peerID : String}
    (hw : Completed start labels w peerID) :
    Came start labels { s.setFirstPairWaiter peerID w with io := .idle } := by
  refine { h with io := trivial, first := fun p hp => ?_ }
  rcases List.mem_cons.1 hp with rfl | hp
  · exact hw
  · exact h.first p (List.mem_of_mem_filter hp)

lemma Came.setPromise (h : Came start labels s) {r : Except Exception Peer}
    (hr : Settled start labels w r) :
    Came start labels { s with promises := s.promises.set w (some r), io := .idle } := by
  refine { h with io := trivial, promises := fun w' r' hr' => ?_ }
  rw [List.getElem?_set] at hr'
  split_ifs at hr' with hw
  · simp only [Option.some.injEq] at hr'
    subst hw hr'
    exact hr
  · exact h.promises w' r' hr'

lemma Moves.came (hm : Moves s label s') (hrun : Lts.run step start labels = some s)
    (hc : Came start labels s) : Came start (labels ++ [label]) s' := by
  have hc' : Came start (labels ++ [label]) s := hc.append
  have hio' := hc'.io
  cases hm with
  | requestPairCode => exact { hc' with }
  | returns i c => exact { hc' with }
  | registers i code c => exact { hc'.register code false with }
  | acceptPair code => exact { hc'.register code true with }
  | ignores f hio => exact hc'
  | pairCode code expiresIn w event hio hw => exact { hc' with io := trivial }
  | pairComplete peerID code w hio hw =>
    exact { hc' with io := ⟨labels, [], s, peerID, code, w.weAreAcceptor, rfl, hrun, hw, rfl⟩ }
  | failCode code message w hio hw =>
    exact { hc' with io := ⟨code, message, rfl, by simp⟩ }
  | failPairs code message hio hw =>
    exact { hc' with io := ⟨code, message, rfl, by simp⟩ }
  | handshake peerID found hio => exact { hc' with io := ⟨labels, [], rfl, hc.first⟩ }
  | setCode w event hio => exact { hc' with io := trivial }
  | codeFailed w err hio =>
    rw [hio] at hio'
    exact { hc' with io := hio' }
  | pairsFailed err promises hio hacc hset =>
    rw [hio] at hio'
    obtain ⟨code, message, rfl, hmem⟩ := hio'
    refine { hc' with io := trivial, promises := fun w r hr => ?_ }
    rcases hset w r hr with hr | rfl
    · exact hc'.promises w r hr
    · exact .failed code message hmem
  | link w peerID peers hio =>
    rw [hio] at hio'
    exact { hc' with io := hio' }
  | attach w peerID hio =>
    rw [hio] at hio'
    exact hc'.setFirstPairWaiter hio'
  | takeNone peerID found hio => exact { hc' with io := trivial }
  | take peerID found w hio hw =>
    rw [hio] at hio'
    obtain ⟨before, after, hlabels, hfirst⟩ := hio'
    exact {
      promises := hc'.promises
      first := fun p hp => hc'.first p (List.mem_of_mem_filter hp)
      io := .shaken before after peerID found hlabels (hfirst _ (mem_of_lookup hw)) }
  | settle w outcome hio =>
    rw [hio] at hio'
    exact hc'.setPromise hio'

/-- What the future of a pairing call is given came in a frame: an error, or a handshake that was done
after the completion of the very code that the call waited under, with the peer it named. -/
theorem settled_by_frame (peers : List String) (labels : List PairLabel)
    (hrun : Lts.run step { peers } labels = some s) (r : Except Exception Peer)
    (hr : s.promises[w]? = some (some r)) : Settled { peers } labels w r := by
  have hcame : Came { peers } labels s := by
    refine Lts.run_inv_history ?_ (fun as t a t' has ht h => ?_) labels hrun
    · exact ⟨by simp, trivial, by simp⟩
    · exact (moves_of_step (accounts_run has) h).came has ht
  exact hcame.promises w r hr

theorem settled_by_frame_second : ∃ s, Lts.run step { peers := [] } acceptedTwice = some s ∧
    s.promises[1]? = some (some (.ok ⟨"b", [7]⟩)) ∧
    Settled { peers := [] } acceptedTwice 1 (.ok ⟨"b", [7]⟩) :=
  ⟨_, rfl, rfl, settled_by_frame [] acceptedTwice rfl _ rfl⟩

end Pairing

end Relayly.Sdk.Cpp
