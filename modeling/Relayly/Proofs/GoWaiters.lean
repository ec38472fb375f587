import Mathlib.Algebra.Order.Group.Multiset
import Relayly.Lib.OneShot
import Relayly.Lib.Run
import Relayly.Go.Waiters
import Relayly.PlainNoise
import Relayly.Proofs.Link

/-!
# The read loop finds every waiter's channel empty

A waiter's channel is in one place at a time: it is registered in `pairWaiters`, in the hand of the
read loop, or kept by a peer for its first handshake. Calls that share a key overwrite each other's
registration and a new peer replaces one of the same ID, which drops a channel and never copies it.
So the channels are one-shot cells, and each step of the client is a step on these.
-/

namespace Relayly.Go

variable {N : Noise}

/-! ## What a handler does to the waiter of its peer -/

def Output.waiter : Output → Option ℕ
  | .pairResult ch _ => some ch
  | _ => none

/-- The channels that outputs are about to send on. -/
def waitersOf (out : List Output) : Multiset ℕ := ↑(out.filterMap Output.waiter)

def PeerConn.waiter (p : PeerConn) : Multiset ℕ := ↑p.firstPairWaiter.toList

theorem PeerConn.waiter_congr {p q : PeerConn} (h : p.firstPairWaiter = q.firstPairWaiter) :
    p.waiter = q.waiter := by
  rw [waiter, h, waiter]

namespace Client

/-- A handler keeps the ID of its peer, and tells its waiter only by taking it. -/
structure Tells (p : PeerConn) (c : Client N) (out : List Output) : Prop where
  id : c.peer.id = p.id
  waiter : waitersOf out + c.peer.waiter ≤ p.waiter

variable {c c' : Client N} {out : List Output}

theorem selectSession_waiter (c : Client N) (now : ℕ) :
    (c.selectSession now).1.peer.firstPairWaiter = c.peer.firstPairWaiter := by
  unfold selectSession
  repeat' split
  all_goals rfl

theorem feedSession_peer (c : Client N) (i : ℕ) (w : Bool) (data : Bytes) :
    (c.feedSession i w data).1.peer = c.peer := by
  unfold feedSession
  split <;> rfl

theorem peerHandleHandshakeEnvelope_waiter (c : Client N) (now : ℕ) (data : Bytes) :
    (c.peerHandleHandshakeEnvelope now data).1.peer.firstPairWaiter = c.peer.firstPairWaiter := by
  have h := c.selectSession_waiter now
  unfold peerHandleHandshakeEnvelope
  rcases hs : c.selectSession now with ⟨c₁, _ | _ | _⟩ <;> rw [hs] at h
  · rw [feedSession_peer]
    exact h
  · exact h
  · exact h

theorem waitersOf_replyOutput (reply : Option Bytes) : waitersOf (replyOutput reply) = 0 := by
  cases reply <;> rfl

theorem promote_waiter (c : Client N) (i : ℕ) :
    (c.promote i).peer.firstPairWaiter = c.peer.firstPairWaiter := by
  unfold promote
  split <;> rfl

theorem abandon_waiter (c : Client N) (i : ℕ) :
    (c.abandon i).peer.firstPairWaiter = c.peer.firstPairWaiter := by
  unfold abandon
  split <;> rfl

theorem waitersOf_append (out out' : List Output) :
    waitersOf (out ++ out') = waitersOf out + waitersOf out' := by
  simp [waitersOf]

theorem settle_waiter (c : Client N) (i : ℕ) (w : Bool) (result : PairResult) :
    waitersOf (c.settle i w result).2 + (c.settle i w result).1.peer.waiter ≤ c.peer.waiter := by
  have hpromote : (if w then c.promote i else c).peer.firstPairWaiter = c.peer.firstPairWaiter := by
    split_ifs
    · exact c.promote_waiter i
    · rfl
  unfold settle
  by_cases habandon : w ∧ result.error.isSome
  · simp [habandon, waitersOf, PeerConn.waiter, abandon_waiter]
  · rw [if_neg habandon]
    generalize (if w then c.promote i else c) = c₁ at hpromote
    have htaken : waitersOf (c₁.peer.firstPairWaiter.map
        fun ch => Output.pairResult ch result).toList = c₁.peer.waiter := by
      unfold waitersOf PeerConn.waiter
      cases c₁.peer.firstPairWaiter <;> rfl
    have hready : waitersOf (if result.error.isNone then [.onReady c₁.peer.id] else []) = 0 := by
      split_ifs <;> rfl
    have hkept : c₁.peer.waiter = c.peer.waiter := PeerConn.waiter_congr hpromote
    simp only [takeFirstPairWaiter, waitersOf_append, htaken, hready, hkept, add_zero]
    exact (add_zero _).le

theorem resolveHandshake_waiter {i : ℕ} {w : Bool} {hsErr : Option GoError} {env : Env}
    (h : c.resolveHandshake i w hsErr env = some (c', out)) :
    waitersOf out + c'.peer.waiter ≤ c.peer.waiter := by
  unfold resolveHandshake at h
  rcases hsErr with _ | e
  · rcases hs : c.sessions[i]? with _ | s
    · simp only [hs, Option.some.injEq, Prod.mk.injEq] at h
      obtain ⟨rfl, rfl⟩ := h
      simp [waitersOf]
    · simp only [hs] at h
      rcases hv : c.verifyAndPin s.peerStatic env with _ | ⟨c₁, verr | pub⟩ <;>
        simp only [hv, Option.some.injEq] at h
      · cases h
      · obtain ⟨ps, rfl⟩ := verifyAndPin_store hv
        have hset := (Client.markFailed { c with peerStore := ps } i verr).settle_waiter i w
          { peerID := c.peer.id, error := some verr }
        rw [h] at hset
        refine hset.trans_eq ?_
        unfold markFailed
        split <;> rfl
      · obtain ⟨ps, rfl⟩ := verifyAndPin_store hv
        have hset := Client.settle_waiter { c with peerStore := ps } i w
          { peerID := c.peer.id, peerPublicKey := some pub }
        rw [h] at hset
        exact hset
  · have hset := c.settle_waiter i w
      { peerID := c.peer.id, error := some (GoError.wrap "relayly: handshake failed: " e "") }
    rw [Option.some.inj h] at hset
    exact hset

theorem handleHandshakeEnvelope_waiter {env : Env} {payload : Bytes}
    (h : c.handleHandshakeEnvelope env payload = some (c', out)) :
    waitersOf out + c'.peer.waiter ≤ c.peer.waiter := by
  have hp := c.peerHandleHandshakeEnvelope_waiter env.now payload
  unfold handleHandshakeEnvelope at h
  rcases hc : c.peerHandleHandshakeEnvelope env.now payload with ⟨c₁, reply, _ | k, w, err⟩ <;>
    rw [hc] at h hp
  · simp only [Option.some.injEq, Prod.mk.injEq] at h
    obtain ⟨rfl, rfl⟩ := h
    rw [waitersOf_replyOutput, PeerConn.waiter_congr hp, zero_add]
  · simp only [Option.map_eq_some_iff, Prod.exists, Prod.mk.injEq] at h
    obtain ⟨c₂, out', hres, rfl, rfl⟩ := h
    rw [waitersOf_append, waitersOf_replyOutput, zero_add]
    exact (resolveHandshake_waiter hres).trans_eq (PeerConn.waiter_congr hp)

theorem handleTransportEnvelope_waitersOf (c : Client N) (ciphertext : Bytes) :
    waitersOf (c.handleTransportEnvelope ciphertext).2 = 0 := by
  unfold handleTransportEnvelope
  repeat' split
  all_goals rfl

theorem handleBinary_tells {env : Env} {data : Bytes}
    (h : c.handleBinary env data = some (c', out)) : Tells c.peer c' out := by
  refine ⟨handleBinary_id h, ?_⟩
  have hnone : waitersOf [] + c.peer.waiter ≤ c.peer.waiter := (zero_add _).le
  unfold handleBinary at h
  split at h
  · cases h
    exact hnone
  · split_ifs at h
    · exact handleHandshakeEnvelope_waiter h
    · rename_i kind payload _ _ _
      have hout := c.handleTransportEnvelope_waitersOf payload
      have hpeer := c.handleTransportEnvelope_peer payload
      rw [Option.some.inj h] at hout hpeer
      rw [hout, hpeer, zero_add]
    · cases h
      exact hnone

theorem startAsInitiator_waiter (c : Client N) :
    c.startAsInitiator.1.peer.firstPairWaiter = c.peer.firstPairWaiter := by
  unfold startAsInitiator
  split <;> rfl

theorem startRekeyAsInitiator_waiter (c : Client N) :
    c.startRekeyAsInitiator.1.peer.firstPairWaiter = c.peer.firstPairWaiter := by
  unfold startRekeyAsInitiator
  split <;> rfl

theorem handlePeerStatus_tells (c : Client N) (peerID : String) (online : Bool) :
    Tells c.peer (c.handlePeerStatus peerID online).1 (c.handlePeerStatus peerID online).2 := by
  refine ⟨c.handlePeerStatus_id peerID online, ?_⟩
  have hrekey := c.startRekeyAsInitiator_waiter
  unfold handlePeerStatus
  dsimp only
  split_ifs
  · exact (zero_add _).le
  · exact (zero_add _).le
  · exact (zero_add _).le
  · rcases hs : c.startRekeyAsInitiator with ⟨c₁, e | msg1⟩ <;> rw [hs] at hrekey
    · exact (zero_add _).trans_le (PeerConn.waiter_congr hrekey).le
    · exact (zero_add _).trans_le (PeerConn.waiter_congr hrekey).le

end Client

/-! ## Where the client holds waiters -/

namespace FullClient

variable {c c' : FullClient N} {p q : PeerConn} {key : String} {w : PairWaiter}

/-- The channels registered in `pairWaiters`. -/
def registered (c : FullClient N) : Multiset ℕ := ↑(c.pairWaiters.map fun w => w.2.ch)

/-- The channels kept for a first handshake. -/
def kept (c : FullClient N) : Multiset ℕ := ↑(c.peers.filterMap PeerConn.firstPairWaiter)

theorem removePairWaiter_registered (c : FullClient N) (key : String) :
    (c.removePairWaiter key).registered ≤ c.registered :=
  OneShot.map_filter_ne_le PairWaiter.ch c.pairWaiters key

theorem cons_removePairWaiter (hmem : (key, w) ∈ c.pairWaiters) :
    w.ch ::ₘ (c.removePairWaiter key).registered ≤ c.registered :=
  OneShot.cons_map_filter_ne_le PairWaiter.ch hmem

theorem takePairWaiter_registered (h : c.pairWaiter key = some w) :
    w.ch ::ₘ (c.removePairWaiter key).registered ≤ c.registered := by
  obtain ⟨⟨key', w'⟩, hfind, rfl⟩ := Option.map_eq_some_iff.1 h
  have hkey : key' = key := by simpa using List.find?_some hfind
  exact cons_removePairWaiter (hkey ▸ List.mem_of_find?_eq_some hfind)

theorem setPairWaiter_registered (c : FullClient N) (key : String) (w : PairWaiter) :
    (c.setPairWaiter key w).registered ≤ w.ch ::ₘ c.registered := by
  have h : (c.setPairWaiter key w).registered = w.ch ::ₘ (c.removePairWaiter key).registered := by
    simp [setPairWaiter, removePairWaiter, registered]
  rw [h]
  exact Multiset.cons_le_cons _ (c.removePairWaiter_registered key)

/-- A peer replaced by one of the same ID. -/
theorem setPeerConn_peers (hids : c.ids.Nodup) (hp : p ∈ c.peers) (hid : q.id = p.id) :
    ∃ l₁ l₂, c.peers = l₁ ++ p :: l₂ ∧ (c.setPeerConn q).peers = l₁ ++ q :: l₂ := by
  obtain ⟨l₁, l₂, hl⟩ := List.append_of_mem hp
  refine ⟨l₁, l₂, hl, ?_⟩
  have hany : c.peers.any (·.id = q.id) := List.any_eq_true.2 ⟨p, hp, by simp [hid]⟩
  have hother : ∀ r ∈ l₁ ++ l₂, r.id ≠ q.id := by
    intro r hr heq
    rw [ids, hl, List.map_append, List.map_cons] at hids
    refine (List.nodup_cons.1 (List.nodup_middle.1 hids)).1 ?_
    rw [← List.map_append, ← hid, ← heq]
    exact List.mem_map_of_mem hr
  have hsame : ∀ l : List PeerConn, (∀ r ∈ l, r.id ≠ q.id) →
      (l.map fun r => if r.id = q.id then q else r) = l := by
    intro l h
    conv_rhs => rw [← List.map_id l]
    exact List.map_congr_left fun r hr => if_neg (h r hr)
  unfold setPeerConn
  rw [if_pos hany]
  simp only [hl, List.map_append, List.map_cons]
  rw [hsame l₁ fun r hr => hother r (List.mem_append_left _ hr),
    hsame l₂ fun r hr => hother r (List.mem_append_right _ hr), if_pos hid.symm]

theorem setPeerConn_self (hids : c.ids.Nodup) (hp : p ∈ c.peers) :
    (c.setPeerConn p).peers = c.peers := by
  obtain ⟨l₁, l₂, hl, hset⟩ := setPeerConn_peers hids hp rfl
  rw [hset, hl]

theorem kept_eq {l₁ l₂ : List PeerConn} (h : c.peers = l₁ ++ p :: l₂) :
    c.kept = p.waiter + ↑((l₁ ++ l₂).filterMap PeerConn.firstPairWaiter) := by
  have hperm : (c.peers.filterMap PeerConn.firstPairWaiter).Perm
      ((p :: (l₁ ++ l₂)).filterMap PeerConn.firstPairWaiter) :=
    h ▸ List.perm_middle.filterMap _
  rw [kept, Multiset.coe_eq_coe.2 hperm, PeerConn.waiter, Multiset.coe_add, Multiset.coe_eq_coe,
    List.filterMap_cons]
  cases p.firstPairWaiter <;> rfl

theorem setPeerConn_kept (hids : c.ids.Nodup) (hp : p ∈ c.peers) (hid : q.id = p.id) :
    (c.setPeerConn q).kept + p.waiter = c.kept + q.waiter := by
  obtain ⟨l₁, l₂, hl, hset⟩ := setPeerConn_peers hids hp hid
  rw [kept_eq hl, kept_eq hset, add_right_comm, add_comm q.waiter, add_right_comm]

/-- A peer added or replaced keeps its own waiter only. -/
theorem setPeerConn_kept_le (hids : c.ids.Nodup) (q : PeerConn) :
    (c.setPeerConn q).kept ≤ q.waiter + c.kept := by
  by_cases hany : c.peers.any (·.id = q.id)
  · obtain ⟨p, hp, hid⟩ := List.any_eq_true.1 hany
    have h := setPeerConn_kept hids hp (of_decide_eq_true hid).symm
    rw [add_comm, ← h]
    exact Multiset.le_add_right _ _
  · have hset : (c.setPeerConn q).peers = c.peers ++ q :: [] := by
      rw [setPeerConn, if_neg hany]
    rw [kept_eq hset, List.append_nil]
    exact le_rfl

@[simp] theorem setPeerConn_chans (c : FullClient N) (p : PeerConn) :
    (c.setPeerConn p).chans = c.chans := by
  unfold setPeerConn
  split <;> rfl

@[simp] theorem setPeerConn_registered (c : FullClient N) (p : PeerConn) :
    (c.setPeerConn p).registered = c.registered := by
  unfold setPeerConn
  split <;> rfl

theorem setPeerConn_nodup (hids : c.ids.Nodup) (p : PeerConn) : (c.setPeerConn p).ids.Nodup := by
  rw [setPeerConn_ids, Link.add]
  split_ifs with hmem
  · exact hids
  · simpa [List.nodup_append] using ⟨hids, fun id h heq => hmem (heq ▸ h)⟩

theorem mem_setPeerConn (c : FullClient N) (p : PeerConn) : p ∈ (c.setPeerConn p).peers := by
  unfold setPeerConn
  split_ifs with hany
  · obtain ⟨q, hq, hid⟩ := List.any_eq_true.1 hany
    exact List.mem_map.2 ⟨q, hq, if_pos (of_decide_eq_true hid)⟩
  · simp

/-- What a handler leaves of a peer's waiter, or puts out for it, is the peer's waiter. -/
theorem adopt_kept {d : Client N} {out : List Output} (hids : c.ids.Nodup) (hp : p ∈ c.peers)
    (ht : Client.Tells p d out) : waitersOf out + (c.adopt d).kept ≤ c.kept := by
  have hset : (c.adopt d).kept + p.waiter = c.kept + d.peer.waiter :=
    setPeerConn_kept (c := { c with peerStore := d.peerStore, sessions := d.sessions }) hids hp ht.id
  refine (add_le_add_iff_right p.waiter).1 ?_
  calc waitersOf out + (c.adopt d).kept + p.waiter
      = c.kept + (waitersOf out + d.peer.waiter) := by
        rw [add_assoc, hset, add_left_comm]
    _ ≤ c.kept + p.waiter := add_le_add_right ht.waiter _

theorem applyWelcomePeers_kept : ∀ (peers : List (String × String)) {c : FullClient N},
    c.ids.Nodup → (c.applyWelcomePeers peers).ids.Nodup
      ∧ (c.applyWelcomePeers peers).kept ≤ c.kept
      ∧ (c.applyWelcomePeers peers).registered = c.registered
      ∧ (c.applyWelcomePeers peers).chans = c.chans
  | [], c, hids => ⟨hids, le_rfl, rfl, rfl⟩
  | p :: peers, c, hids => by
    unfold applyWelcomePeers
    rw [List.foldl_cons]
    split_ifs
    · obtain ⟨h1, h2, h3, h4⟩ := applyWelcomePeers_kept peers
        (setPeerConn_nodup hids (newPeerConn p.1 p.2))
      refine ⟨h1, h2.trans ?_, h3.trans ?_, h4.trans ?_⟩
      · exact (setPeerConn_kept_le hids _).trans (zero_add _).le
      · exact c.setPeerConn_registered _
      · exact c.setPeerConn_chans _
    · exact applyWelcomePeers_kept peers hids

end FullClient

/-! ## The channels as one-shot cells -/

/-- The channels in the hand of the read loop. -/
def Handling.hand : Handling → Multiset ℕ
  | .pairCode w .. | .pairComplete w .. => {w.ch}
  | .putting out => waitersOf out
  | .reading | .linked _ | .failing _ => 0

namespace Waiting

variable {s s' s₁ : Waiting N}

def held (s : Waiting N) : Multiset ℕ := s.reader.hand + (s.client.registered + s.client.kept)

def cells (s : Waiting N) : OneShot.Cells ℕ where
  made := {ch | ch < s.client.chans.length}
  held := s.held
  filled := ↑s.puts
  empty := {ch | s.client.chans[ch]? = some none}

/-- There is one peer for each ID, and the peer whose handshake is about to start is one of
them. -/
structure Tidy (s : Waiting N) : Prop where
  ids : s.client.ids.Nodup
  linked : ∀ p, s.reader = .linked p → p ∈ s.client.peers

theorem Tidy.of_peers (h : s.Tidy) (hpeers : s'.client.peers = s.client.peers)
    (hreader : s'.reader = s.reader) : s'.Tidy where
  ids := by
    rw [FullClient.ids, hpeers]
    exact h.ids
  linked p hp := by
    rw [hpeers]
    exact h.linked p (hreader ▸ hp)

/-- A step of the client is a step on its channels. -/
structure Steps (s s' : Waiting N) : Prop where
  cells : s.cells.Step s'.cells
  tidy : s'.Tidy

theorem passes (hchans : s'.client.chans = s.client.chans) (hputs : s'.puts = s.puts)
    (hheld : s'.held ≤ s.held) : s.cells.Step s'.cells := by
  refine .passes ⟨?_, hheld, ?_, ?_⟩
  · simp [cells, hchans]
  · simp [cells, hputs]
  · simp [cells, hchans]

theorem put_eq {ch : ℕ} {r : WaiterResult} (h : s.put ch r = some s₁) :
    s₁ = { s with
      client := { s.client with chans := s.client.chans.set ch (some r) }
      puts := s.puts ++ [ch] } := by
  obtain ⟨client, hput, rfl⟩ := Option.map_eq_some_iff.1 h
  unfold FullClient.put at hput
  split at hput
  · cases hput
    rfl
  · cases hput

theorem fills {ch : ℕ} {r : WaiterResult} (h : s.put ch r = some s₁)
    (hchans : s'.client.chans = s₁.client.chans) (hputs : s'.puts = s₁.puts)
    (hheld : ch ::ₘ s'.held ≤ s.held) : s.cells.Step s'.cells := by
  obtain rfl := put_eq h
  refine .fills ch ⟨?_, hheld, ?_, ?_⟩
  · simp [cells, hchans]
  · simp only [cells, hputs]
    exact Multiset.coe_eq_coe.2 (List.perm_append_singleton ch s.puts)
  · rintro x ⟨hx, hne⟩
    simp only [cells, hchans, Set.mem_ofPred_eq]
    rw [List.getElem?_set_ne (Ne.symm hne)]
    exact hx

theorem makes (hchans : s'.client.chans = s.client.chans ++ [none]) (hputs : s'.puts = s.puts)
    (hheld : s'.held ≤ s.client.chans.length ::ₘ s.held) : s.cells.Step s'.cells := by
  refine .makes s.client.chans.length ⟨?_, ?_, hheld, ?_, ?_⟩
  · simp [cells]
  · ext ch
    simp only [cells, hchans, Set.mem_insert_iff, Set.mem_ofPred_eq, List.length_append,
      List.length_singleton]
    omega
  · simp [cells, hputs]
  · rintro ch (rfl | hch)
    · simp [cells, hchans]
    · simp only [cells, hchans, Set.mem_ofPred_eq]
      rw [List.getElem?_append_left]
      · exact hch
      · exact (List.getElem?_eq_some_iff.1 hch).1

/-! ## The application's steps -/

/-- A call registers a waiter with a new channel. -/
theorem registers (h : s.Tidy) (key : String) {w : PairWaiter} (hw : w.ch = s.client.chans.length)
    (hchans : s'.client.chans = s.client.chans ++ [none]) (hputs : s'.puts = s.puts)
    (hregistered : s'.client.registered = (s.client.setPairWaiter key w).registered)
    (hpeers : s'.client.peers = s.client.peers) (hreader : s'.reader = s.reader) : Steps s s' := by
  refine ⟨makes hchans hputs ?_, h.of_peers hpeers hreader⟩
  unfold held
  rw [← Multiset.add_cons, ← Multiset.cons_add, hreader, hregistered, FullClient.kept, hpeers, ← hw]
  exact add_le_add_right (add_le_add_left (s.client.setPairWaiter_registered key w) _) _

theorem requestPairCode_steps (h : s.Tidy) :
    Steps s { s with client := s.client.requestPairCode } :=
  registers h requestKey rfl rfl rfl rfl rfl rfl

theorem acceptPair_steps (h : s.Tidy) (code : String) :
    Steps s { s with client := s.client.acceptPair code } :=
  registers h code rfl rfl rfl rfl rfl rfl

theorem register_steps (h : s.Tidy) {k : ℕ} (hstep : s.register k = some s') : Steps s s' := by
  unfold register at hstep
  rcases hk : s.registering[k]? with _ | short <;> simp only [hk] at hstep
  · cases hstep
  · cases hstep
    exact registers h short rfl rfl rfl rfl rfl rfl

theorem queueCall_steps (h : s.Tidy) {i : ℕ} {client : FullClient N}
    (hstep : s.client.queueCall i = some client) : Steps s { s with client } := by
  unfold FullClient.queueCall at hstep
  repeat' split at hstep
  all_goals cases hstep
  all_goals exact ⟨passes rfl rfl le_rfl, h.of_peers rfl rfl⟩

theorem removePairWaiter_held (s : Waiting N) (key : String) :
    ({ s with client := s.client.removePairWaiter key } : Waiting N).held ≤ s.held :=
  add_le_add_right (add_le_add_left (s.client.removePairWaiter_registered key) _) _

theorem expireCall_steps (h : s.Tidy) {i : ℕ} {client : FullClient N}
    (hstep : s.client.expireCall i = some client) : Steps s { s with client } := by
  unfold FullClient.expireCall at hstep
  repeat' split at hstep
  all_goals cases hstep
  · exact ⟨passes rfl rfl (s.removePairWaiter_held _), h.of_peers rfl rfl⟩
  · exact ⟨passes rfl rfl (s.removePairWaiter_held _), h.of_peers rfl rfl⟩
  · exact ⟨passes rfl rfl le_rfl, h.of_peers rfl rfl⟩

/-- A result taken from its channel leaves the channel empty. -/
theorem drains {ch : ℕ} (hchans : s'.client.chans = s.client.chans.set ch none)
    (hputs : s'.puts = s.puts) (hheld : s'.held = s.held) : s.cells.Step s'.cells := by
  refine .passes ⟨?_, hheld.le, ?_, fun x hx => ?_⟩
  · simp [cells, hchans]
  · simp [cells, hputs]
  · simp only [cells, hchans, Set.mem_ofPred_eq] at hx ⊢
    rw [List.getElem?_set]
    split_ifs with heq hlt
    · rfl
    · exact absurd (List.getElem?_eq_some_iff.1 hx).1 (heq ▸ hlt)
    · exact hx

theorem receive_steps (h : s.Tidy) {i : ℕ} (hstep : s.receive i = some s') : Steps s s' := by
  unfold receive FullClient.resumeCall at hstep
  rcases hcall : s.client.calls[i]? with _ | (⟨ch, _ | _⟩ | ⟨code, ch, _ | _⟩ | ch | _) <;>
    simp only [hcall, Option.map_none, reduceCtorEq] at hstep
  all_goals
    rcases hch : s.client.chans[ch]? with _ | _ | result <;>
      simp only [hch, Option.map_none, Option.map_some, reduceCtorEq] at hstep
    cases hstep
    exact ⟨drains rfl rfl rfl, h.of_peers rfl rfl⟩

theorem send_steps (h : s.Tidy) {peerID : String} {payload : Bytes} {client : FullClient N}
    (hstep : s.client.send peerID payload = some client) : Steps s { s with client } := by
  unfold FullClient.send at hstep
  rcases hp : s.client.getPeerConn peerID with _ | p <;> simp only [hp] at hstep
  · cases hstep
    exact ⟨passes rfl rfl le_rfl, h.of_peers rfl rfl⟩
  · rcases hs : (s.client.at_ p).send peerID payload with e | ⟨d, data⟩ <;> simp only [hs] at hstep
    · cases hstep
      exact ⟨passes rfl rfl le_rfl, h.of_peers rfl rfl⟩
    · -- `Send` leaves the peer as it found it, so the map of peers is the same
      cases hstep
      have hpeer : d.peer ∈ s.client.peers :=
        (Client.send_peer hs : d.peer = p) ▸ List.mem_of_find?_eq_some hp
      have hpeers : (s.client.adopt d).peers = s.client.peers :=
        FullClient.setPeerConn_self
          (c := { s.client with peerStore := d.peerStore, sessions := d.sessions }) h.ids hpeer
      refine ⟨passes (FullClient.setPeerConn_chans _ _) rfl ?_, h.of_peers hpeers rfl⟩
      refine add_le_add_right (add_le_add ?_ ?_) _
      · exact (FullClient.setPeerConn_registered _ _).le
      · exact (congrArg (fun l : List PeerConn =>
          (↑(l.filterMap PeerConn.firstPairWaiter) : Multiset ℕ)) hpeers).le

/-! ## The read loop's steps -/

/-- The read loop goes on, with nothing more in its hand. -/
theorem turns (h : s.Tidy) {reader : Handling} (hhand : reader.hand ≤ s.reader.hand)
    (hlinked : ∀ p, reader ≠ .linked p) : Steps s { s with reader } :=
  ⟨passes rfl rfl (add_le_add_left hhand _), ⟨h.ids, fun p hp => absurd hp (hlinked p)⟩⟩

/-- A handler that has changed one of the peers. -/
theorem adopt_steps (h : s.Tidy) (hread : s.reader.hand = 0) {p : PeerConn}
    (hp : p ∈ s.client.peers) {d : Client N} {out : List Output} (ht : Client.Tells p d out) :
    Steps s { s with client := s.client.adopt d, reader := .putting out } := by
  refine ⟨passes (FullClient.setPeerConn_chans _ _) rfl ?_, ⟨?_, fun _ h => by cases h⟩⟩
  · have hkept := FullClient.adopt_kept h.ids hp ht
    have hreg : (s.client.adopt d).registered = s.client.registered :=
      FullClient.setPeerConn_registered _ _
    unfold held
    rw [hread, zero_add, hreg, add_left_comm]
    exact add_le_add_right hkept _
  · exact FullClient.setPeerConn_nodup
      (c := { s.client with peerStore := d.peerStore, sessions := d.sessions }) h.ids _

theorem takePairWaiter_steps (h : s.Tidy) (hread : s.reader.hand = 0) {key : String}
    {w : PairWaiter} (hw : s.client.pairWaiter key = some w) {reader : Handling}
    (hhand : reader.hand = {w.ch}) (hlinked : ∀ p, reader ≠ .linked p) :
    Steps s { s with client := s.client.removePairWaiter key, reader } := by
  refine ⟨passes rfl rfl ?_, ⟨h.ids, fun p hp => absurd hp (hlinked p)⟩⟩
  unfold held
  rw [hread, zero_add, hhand, Multiset.singleton_add, ← Multiset.cons_add]
  exact add_le_add_left (FullClient.takePairWaiter_registered hw) _

theorem handle_steps (h : s.Tidy) (hread : s.reader = .reading) {found : Link.Found}
    {frame : Link.Frame} (hstep : s.handle found frame = some s') : Steps s s' := by
  have hhand : s.reader.hand = 0 := by rw [hread]; rfl
  cases frame with
  | welcome peers =>
    cases hstep
    obtain ⟨hids, hkept, hreg, hchans⟩ := FullClient.applyWelcomePeers_kept peers h.ids
    refine ⟨passes hchans rfl ?_, ⟨hids, fun p hp => by rw [hread] at hp; cases hp⟩⟩
    exact add_le_add_right (add_le_add hreg.le hkept) _
  | pairCode code expiresIn =>
    unfold handle FullClient.takePairWaiter at hstep
    rcases hw : s.client.pairWaiter requestKey with _ | w <;> simp only [hw] at hstep <;> cases hstep
    · exact ⟨passes rfl rfl (s.removePairWaiter_held _), h.of_peers rfl rfl⟩
    · exact takePairWaiter_steps h hhand hw rfl fun _ => Handling.noConfusion
  | pairComplete peerID code peerStaticKey =>
    unfold handle FullClient.takePairWaiter at hstep
    rcases hw : s.client.pairWaiter code with _ | w <;> simp only [hw] at hstep <;> cases hstep
    · exact ⟨passes rfl rfl (s.removePairWaiter_held _), h.of_peers rfl rfl⟩
    · exact takePairWaiter_steps h hhand hw rfl fun _ => Handling.noConfusion
  | peerStatus peerID online =>
    unfold handle at hstep
    rcases hp : s.client.getPeerConn peerID with _ | p <;> simp only [hp] at hstep <;> cases hstep
    · exact turns h (Multiset.zero_le _) fun _ => Handling.noConfusion
    · exact adopt_steps h hhand (List.mem_of_find?_eq_some hp)
        ((s.client.at_ p).handlePeerStatus_tells peerID online)
  | error code message =>
    cases hstep
    exact turns h (Multiset.zero_le _) fun _ => Handling.noConfusion
  | binary data =>
    unfold handle at hstep
    rcases hp : s.client.getSolePeer found.pick with _ | p <;> simp only [hp] at hstep
    · cases hstep
      exact ⟨passes rfl rfl le_rfl, h⟩
    · obtain ⟨⟨d, out⟩, hb, rfl⟩ := Option.map_eq_some_iff.1 hstep
      exact adopt_steps h hhand (List.mem_of_getElem? hp) (Client.handleBinary_tells hb)
  | unpaired peerID =>
    cases hstep
    exact ⟨passes rfl rfl le_rfl, h⟩
  | pong =>
    cases hstep
    exact ⟨passes rfl rfl le_rfl, h⟩

/-- The read loop sends on a channel it has in its hand. -/
theorem put_steps (h : s.Tidy) {ch : ℕ} {r : WaiterResult} (hput : s.put ch r = some s₁)
    {reader : Handling} (hhand : ch ::ₘ reader.hand ≤ s.reader.hand)
    (hlinked : ∀ p, reader ≠ .linked p) : Steps s { s₁ with reader } := by
  refine ⟨fills hput rfl rfl ?_, ?_⟩ <;> obtain rfl := put_eq hput
  · refine (Multiset.cons_add ch reader.hand _).symm.trans_le ?_
    exact add_le_add_left hhand _
  · exact ⟨h.ids, fun p hp => absurd hp (hlinked p)⟩

theorem perform_steps (h : s.Tidy) {o : Output} {out : List Output}
    (hread : s.reader = .putting (o :: out)) (hstep : s.perform o = some s₁) :
    Steps s { s₁ with reader := .putting out } := by
  have hout : waitersOf out ≤ s.reader.hand := by
    rw [hread]
    exact Multiset.coe_le.2 ((List.sublist_cons_self o out).filterMap _).subperm
  cases o with
  | pairResult ch result =>
    refine put_steps h hstep ?_ fun _ => Handling.noConfusion
    rw [hread]
    exact le_rfl
  | envelope kind payload =>
    unfold perform at hstep
    split_ifs at hstep
    cases hstep
    exact ⟨passes rfl rfl (add_le_add_left hout _), ⟨h.ids, fun _ hp => by cases hp⟩⟩
  | onReady peerID | onPeerStatus peerID online | message sender payload =>
    cases hstep
    exact ⟨passes rfl rfl (add_le_add_left hout _), ⟨h.ids, fun _ hp => by cases hp⟩⟩

theorem initiate_steps (h : s.Tidy) {p : PeerConn} (hread : s.reader = .linked p) :
    Steps s (s.initiate p) := by
  have hid := (s.client.at_ p).startAsInitiator_id
  have hwaiter := (s.client.at_ p).startAsInitiator_waiter
  have hhand : s.reader.hand = 0 := by rw [hread]; rfl
  unfold initiate
  rcases hstart : (s.client.at_ p).startAsInitiator with ⟨d, e | msg1⟩ <;>
    rw [hstart] at hid hwaiter
  · refine adopt_steps h hhand (h.linked p hread) ⟨hid, ?_⟩
    have hp : d.peer.firstPairWaiter = p.firstPairWaiter := hwaiter
    simp only [hp, PeerConn.waiter]
    rcases p.firstPairWaiter with _ | ch <;> exact le_rfl
  · refine adopt_steps h hhand (h.linked p hread) ⟨hid, ?_⟩
    exact (zero_add _).trans_le (PeerConn.waiter_congr hwaiter).le

theorem linked_steps (h : s.Tidy) {w : PairWaiter} {peerID peerStaticKey : String}
    (hread : s.reader = .pairComplete w peerID peerStaticKey) {p : PeerConn}
    (hp : p = FullClient.pairedPeer peerID peerStaticKey w) :
    Steps s { s with
      client := s.client.setPeerConn p
      reader := if w.weAreAcceptor then .linked p else .reading } := by
  have hhand : (if w.weAreAcceptor then Handling.linked p else .reading).hand = 0 := by
    split_ifs <;> rfl
  refine ⟨passes (s.client.setPeerConn_chans p) rfl ?_, ⟨s.client.setPeerConn_nodup h.ids p, ?_⟩⟩
  · unfold held
    rw [hhand, zero_add, s.client.setPeerConn_registered, hread, add_left_comm]
    refine add_le_add_right ((s.client.setPeerConn_kept_le h.ids p).trans_eq ?_) _
    rw [hp]
    rfl
  · intro q hq
    dsimp only at hq
    split_ifs at hq
    cases hq
    exact s.client.mem_setPeerConn p

theorem proceed_steps (h : s.Tidy) {pick : ℕ} (hstep : s.proceed pick = some s') : Steps s s' := by
  unfold proceed at hstep
  rcases hread : s.reader with _ | ⟨w, code, expiresIn⟩ | ⟨w, peerID, key⟩ | p | (_ | ⟨o, out⟩) | err <;>
    simp only [hread, reduceCtorEq] at hstep
  · obtain ⟨s₁, hput, rfl⟩ := Option.map_eq_some_iff.1 hstep
    refine put_steps h hput ?_ fun _ => Handling.noConfusion
    rw [hread]
    exact le_rfl
  · cases hstep
    exact linked_steps h hread rfl
  · cases hstep
    exact initiate_steps h hread
  · cases hstep
    exact turns h (Multiset.zero_le _) fun _ => Handling.noConfusion
  · obtain ⟨s₁, hperform, rfl⟩ := Option.map_eq_some_iff.1 hstep
    exact perform_steps h hread hperform
  · rcases hnext : s.nextWaiter pick with _ | ⟨key, w⟩ <;> simp only [hnext] at hstep
    · cases hstep
      exact turns h (Multiset.zero_le _) fun _ => Handling.noConfusion
    · obtain ⟨s₁, hput, rfl⟩ := Option.map_eq_some_iff.1 hstep
      refine ⟨fills hput rfl rfl ?_, ?_⟩ <;> obtain rfl := put_eq hput
      · have hreg := FullClient.cons_removePairWaiter (List.mem_of_getElem? hnext)
        unfold held
        rw [← Multiset.add_cons, ← Multiset.cons_add]
        exact add_le_add_right (add_le_add_left hreg _) _
      · exact h.of_peers rfl rfl

theorem of_whenUnlocked {next : Option (Waiting N)} (h : s.whenUnlocked next = some s') :
    next = some s' := by
  unfold whenUnlocked at h
  split_ifs at h
  exact h

/-- Each step of the client is a step on its channels. -/
theorem step_steps (h : s.Tidy) {l : WaitLabel} (hstep : s.step l = some s') : Steps s s' := by
  cases l with
  | requestPairCode =>
    cases of_whenUnlocked hstep
    exact requestPairCode_steps h
  | acceptPair code =>
    cases of_whenUnlocked hstep
    exact acceptPair_steps h code
  | queue i =>
    obtain ⟨-, hstep⟩ := Option.ite_none_right_eq_some.1 hstep
    obtain ⟨client, hqueue, rfl⟩ := Option.map_eq_some_iff.1 hstep
    exact queueCall_steps h hqueue
  | expire i =>
    obtain ⟨client, hexpire, rfl⟩ := Option.map_eq_some_iff.1 (of_whenUnlocked hstep)
    exact expireCall_steps h hexpire
  | receive i => exact receive_steps h hstep
  | register k => exact register_steps h (of_whenUnlocked hstep)
  | send peerID payload =>
    obtain ⟨-, hstep⟩ := Option.ite_none_right_eq_some.1 hstep
    obtain ⟨client, hsend, rfl⟩ := Option.map_eq_some_iff.1 hstep
    exact send_steps h hsend
  | frame found frame =>
    unfold step at hstep
    rcases hread : s.reader <;> simp only [hread, reduceCtorEq] at hstep
    exact handle_steps h hread hstep
  | proceed pick => exact proceed_steps h hstep
  | drop =>
    simp only [step] at hstep
    split at hstep
    · rename_i hread
      split_ifs at hstep
      cases hstep
      refine turns h ?_ fun _ => Handling.noConfusion
      rw [hread]
      exact le_rfl
    · cases hstep
  | write =>
    simp only [step] at hstep
    split at hstep <;> cases hstep
    exact ⟨passes rfl rfl le_rfl, h.of_peers rfl rfl⟩
  | close =>
    cases hstep
    exact ⟨passes rfl rfl le_rfl, h.of_peers rfl rfl⟩

/-- In every state that a client reaches its channels are one-shot cells. -/
theorem run_valid {deviceID : String} {privateKey : PrivateKey} {rand : ℕ → Bytes}
    {peerStore : PeerStore} {ls : List WaitLabel}
    (h : Lts.run step (connect N deviceID privateKey rand peerStore) ls = some s) :
    s.cells.Valid := by
  have htidy : (connect N deviceID privateKey rand peerStore).Tidy :=
    ⟨List.nodup_nil, fun p hp => by cases hp⟩
  have hvalid : (connect N deviceID privateKey rand peerStore).cells.Valid :=
    ⟨Multiset.nodup_zero, fun _ hx => absurd hx (Multiset.notMem_zero _),
      fun _ hx => absurd hx (Nat.not_lt_zero _)⟩
  refine (Lts.run_inv_of_step (I := fun s : Waiting N => s.Tidy ∧ s.cells.Valid) ?_ ls
    ⟨htidy, hvalid⟩ h).2
  rintro s l s' ⟨htidy, hvalid⟩ hstep
  have hsteps := step_steps htidy hstep
  exact ⟨hsteps.tidy, hsteps.cells.valid hvalid⟩

theorem mem_held_of_sendsOn {pick ch : ℕ} (h : s.sendsOn pick = some ch) : ch ∈ s.held := by
  unfold sendsOn at h
  split at h
  · rename_i hread
    simp_all [held, Handling.hand]
  · rename_i hread
    simp_all [held, Handling.hand, waitersOf, Output.waiter]
  · obtain ⟨⟨key, w⟩, hnext, rfl⟩ := Option.map_eq_some_iff.1 h
    have hmem : w.ch ∈ s.client.registered :=
      Multiset.mem_coe.2 (List.mem_map_of_mem (List.mem_of_getElem? hnext))
    exact Multiset.mem_add.2 (.inr (Multiset.mem_add.2 (.inl hmem)))
  · cases h

/-- A send on an empty channel goes through. -/
theorem proceed_isSome {pick ch : ℕ} (h : s.sendsOn pick = some ch)
    (hempty : s.client.chans[ch]? = some none) : (s.proceed pick).isSome := by
  have hput : ∀ r, (s.put ch r).isSome := by
    intro r
    simp [put, FullClient.put, hempty]
  unfold sendsOn at h
  unfold proceed
  rcases hread : s.reader with _ | ⟨w, code, expiresIn⟩ | ⟨w, peerID, key⟩ | p | (_ | ⟨o, out⟩) | err <;>
    simp only [hread, reduceCtorEq] at h
  · cases h
    simpa using hput _
  · cases o <;> simp only [reduceCtorEq] at h
    cases h
    simpa [perform] using hput _
  · obtain ⟨⟨key, w⟩, hnext, rfl⟩ := Option.map_eq_some_iff.1 h
    simpa [hnext] using hput _

/-- Whatever the calls and the relay do, a channel is sent on once at most, and every channel that
the read loop is about to send on is empty, so that the send does not block. -/
theorem waiter_put_once {deviceID : String} {privateKey : PrivateKey} {rand : ℕ → Bytes}
    {peerStore : PeerStore} {ls : List WaitLabel}
    (h : Lts.run step (connect N deviceID privateKey rand peerStore) ls = some s) :
    s.puts.Nodup ∧ ∀ pick ch, s.sendsOn pick = some ch →
      ch ∉ s.puts ∧ s.client.chans[ch]? = some none ∧ (s.step (.proceed pick)).isSome := by
  have hvalid := run_valid h
  refine ⟨Multiset.coe_nodup.1 hvalid.nodup_filled, fun pick ch hsend => ?_⟩
  have hheld := mem_held_of_sendsOn hsend
  have hempty : s.client.chans[ch]? = some none := hvalid.empty_of_held hheld
  exact ⟨hvalid.not_filled hheld, hempty, proceed_isSome hsend hempty⟩

/-- `RequestPairCode` returns its code; `AcceptPair` of the same code then takes its waiter's place,
a second code is asked for and the relay answers with an error. -/
def codesCoincide : List WaitLabel :=
  let found : Link.Found := ⟨⟨0, "", none⟩, 0⟩
  [.requestPairCode, .queue 0, .frame found (.pairCode "483921" 300), .proceed 0, .receive 0,
    .register 0, .acceptPair "483921", .requestPairCode, .frame found (.error "internal" "")]

theorem waiter_put_once_coinciding :
    ∃ s, Lts.run step (connect plainNoise "a" ⟨List.replicate 32 1, rfl⟩ (fun i => List.replicate i 0)
        { peers := some fun _ => none, disk := none }) codesCoincide = some s
      ∧ s.sendsOn 0 = some 2
      ∧ s.puts.Nodup ∧ ∀ pick ch, s.sendsOn pick = some ch →
        ch ∉ s.puts ∧ s.client.chans[ch]? = some none ∧ (s.step (.proceed pick)).isSome := by
  have hrun : (Lts.run step (connect plainNoise "a" ⟨List.replicate 32 1, rfl⟩
      (fun i => List.replicate i 0) { peers := some fun _ => none, disk := none })
      codesCoincide).any fun s => s.sendsOn 0 = some 2 := by
    decide +kernel
  obtain ⟨s, hs, hsend⟩ := (Option.any_eq_true ..).1 hrun
  exact ⟨s, hs, of_decide_eq_true hsend, waiter_put_once hs⟩

end Waiting

end Relayly.Go
