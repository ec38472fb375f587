import Relayly.Link
import Relayly.Proofs.GoPeer

/-!
# The peers of a client and the link of its device

Handling a frame, a client that held the peer of the link it had last heard of holds the peer of
the link it hears of now, except in these cases. A `welcome` that no longer lists the peer leaves
it in the map (`addAll_eq_iff`), in both clients; the Go client takes no notice of `unpaired`, and
of `pair_complete` only while a waiter for its code is registered.
-/

namespace Relayly

variable {N : Noise}

/-! ## Identifiers under an update -/

namespace Link

/-- The keys of a map after an insertion. -/
def add (ids : List String) (id : String) : List String := if id ∈ ids then ids else ids ++ [id]

theorem add_of_mem {ids : List String} {id : String} (h : id ∈ ids) : add ids id = ids := by
  simp [add, h]

/-- Insertions alone bring the keys of one link to those of another where they may stay. -/
theorem addAll_eq_iff (heard link : Option String) :
    link.toList.foldl add heard.toList = link.toList ↔ heard = none ∨ heard = link := by
  rcases heard with _ | a <;> rcases link with _ | b
  · simp
  · simp [add]
  · simp
  · by_cases hab : b = a
    · simp [add, hab]
    · simp [add, hab, Ne.symm hab]

end Link

namespace Go

namespace Client

theorem settle_id (c : Client N) (k : ℕ) (w : Bool) (result : PairResult) :
    (c.settle k w result).1.peer.id = c.peer.id := by
  unfold settle takeFirstPairWaiter promote abandon
  split_ifs <;> rfl

theorem markFailed_id (c : Client N) (k : ℕ) (err : GoError) :
    (c.markFailed k err).peer.id = c.peer.id := by
  unfold markFailed
  split <;> rfl

theorem resolveHandshake_id {c c' : Client N} {k : ℕ} {w : Bool} {hsErr : Option GoError}
    {env : Env} {out : List Output} (h : c.resolveHandshake k w hsErr env = some (c', out)) :
    c'.peer.id = c.peer.id := by
  unfold resolveHandshake at h
  rcases hsErr with _ | e
  · rcases hs : c.sessions[k]? with _ | s
    · simp only [hs, Option.some.injEq, Prod.mk.injEq] at h
      rw [← h.1]
    · simp only [hs] at h
      rcases hv : c.verifyAndPin s.peerStatic env with _ | ⟨c₁, verr | pub⟩ <;>
        simp only [hv, Option.some.injEq] at h
      · cases h
      · obtain ⟨ps, rfl⟩ := verifyAndPin_store hv
        rw [show c' = _ from (congrArg Prod.fst h).symm, settle_id, markFailed_id]
      · obtain ⟨ps, rfl⟩ := verifyAndPin_store hv
        rw [show c' = _ from (congrArg Prod.fst h).symm, settle_id]
  · simp only [Option.some.injEq] at h
    rw [show c' = _ from (congrArg Prod.fst h).symm, settle_id]

theorem handleHandshakeEnvelope_id {c c' : Client N} {env : Env} {payload : Bytes}
    {out : List Output} (h : c.handleHandshakeEnvelope env payload = some (c', out)) :
    c'.peer.id = c.peer.id := by
  have ht := c.peerHandleHandshakeEnvelope_sameTrust env.now payload
  unfold handleHandshakeEnvelope at h
  rcases hc : c.peerHandleHandshakeEnvelope env.now payload with ⟨c₁, reply, _ | k, w, err⟩ <;>
    rw [hc] at h ht
  · simp only [Option.some.injEq, Prod.mk.injEq] at h
    rw [← h.1]
    exact ht.id
  · simp only [Option.map_eq_some_iff, Prod.exists, Prod.mk.injEq] at h
    obtain ⟨c₂, out', hres, rfl, -⟩ := h
    rw [resolveHandshake_id hres]
    exact ht.id

theorem handleTransportEnvelope_peer (c : Client N) (ciphertext : Bytes) :
    (c.handleTransportEnvelope ciphertext).1.peer = c.peer := by
  unfold handleTransportEnvelope
  repeat' split
  all_goals rfl

theorem handleBinary_id {c c' : Client N} {env : Env} {data : Bytes} {out : List Output}
    (h : c.handleBinary env data = some (c', out)) : c'.peer.id = c.peer.id := by
  unfold handleBinary at h
  split at h
  · cases h
    rfl
  · split_ifs at h
    · exact handleHandshakeEnvelope_id h
    · rw [show c' = _ from (congrArg Prod.fst (Option.some.inj h)).symm,
        handleTransportEnvelope_peer]
    · cases h
      rfl

theorem startAsInitiator_id (c : Client N) : c.startAsInitiator.1.peer.id = c.peer.id := by
  unfold startAsInitiator
  split <;> rfl

theorem startRekeyAsInitiator_id (c : Client N) :
    c.startRekeyAsInitiator.1.peer.id = c.peer.id := by
  unfold startRekeyAsInitiator
  split <;> rfl

theorem handlePeerStatus_id (c : Client N) (peerID : String) (online : Bool) :
    (c.handlePeerStatus peerID online).1.peer.id = c.peer.id := by
  have h := c.startRekeyAsInitiator_id
  unfold handlePeerStatus
  dsimp only
  split_ifs
  · rfl
  · rfl
  · rfl
  · rcases hs : c.startRekeyAsInitiator with ⟨c₁, e | msg1⟩ <;> rw [hs] at h <;> exact h

theorem send_peer {c c' : Client N} {peerID : String} {payload data : Bytes}
    (h : c.send peerID payload = .ok (c', data)) : c'.peer = c.peer := by
  unfold send at h
  repeat' split at h
  all_goals cases h
  rfl

end Client

namespace FullClient

variable {c c' : FullClient N}

/-- The keys of the map of peers. -/
def ids (c : FullClient N) : List String := c.peers.map PeerConn.id

/-- The sender that a binary frame is taken to have. -/
def soleID (c : FullClient N) (pick : ℕ) : Option String := (c.getSolePeer pick).map PeerConn.id

theorem soleID_of_ids {link : Option String} (h : c.ids = link.toList) (pick : ℕ) :
    c.soleID pick = link := by
  unfold ids at h
  unfold soleID getSolePeer
  rcases link with _ | id
  · rw [List.map_eq_nil_iff.1 h]
    rfl
  · obtain ⟨p, hp, rfl⟩ := List.map_eq_singleton_iff.1 h
    simp [hp, Nat.mod_one]

theorem mem_ids_of_getPeerConn {id : String} {p : PeerConn} (h : c.getPeerConn id = some p) :
    p.id ∈ c.ids := List.mem_map_of_mem (List.mem_of_find?_eq_some h)

theorem getPeerConn_isNone (c : FullClient N) (id : String) :
    (c.getPeerConn id).isNone = true ↔ id ∉ c.ids := by
  simp [getPeerConn, ids]

theorem setPeerConn_ids (c : FullClient N) (p : PeerConn) :
    (c.setPeerConn p).ids = Link.add c.ids p.id := by
  unfold setPeerConn Link.add ids
  by_cases h : c.peers.any (·.id = p.id)
  · have hmem : p.id ∈ c.peers.map PeerConn.id := by simpa using h
    rw [if_pos h, if_pos hmem, List.map_map]
    refine List.map_congr_left fun q _ => ?_
    by_cases hq : q.id = p.id <;> simp [hq]
  · have hmem : p.id ∉ c.peers.map PeerConn.id := by simpa using h
    rw [if_neg h, if_neg hmem, List.map_append]
    rfl

theorem put_peers {ch : ℕ} {r : WaiterResult} (h : c.put ch r = some c') : c'.peers = c.peers := by
  unfold put at h
  split at h
  · rw [← Option.some.inj h]
  · cases h

theorem perform_peers {o : Output} (h : c.perform o = some c') : c'.peers = c.peers := by
  cases o with
  | pairResult ch result => exact put_peers h
  | _ => rw [← Option.some.inj h]

/-- A sequence of effects that leave the peers alone. -/
theorem foldlM_peers {α : Type} {f : FullClient N → α → Option (FullClient N)}
    (hf : ∀ {c c' : FullClient N} {a : α}, f c a = some c' → c'.peers = c.peers) :
    ∀ {as : List α} {c c' : FullClient N}, as.foldlM f c = some c' → c'.peers = c.peers
  | [], c, c', h => by rw [← Option.some.inj h]
  | a :: as, c, c', h => by
    rw [List.foldlM_cons] at h
    obtain ⟨c₁, h1, h2⟩ := Option.bind_eq_some_iff.1 h
    rw [foldlM_peers hf h2, hf h1]

/-- A handler of one of the peers keeps their IDs. -/
theorem update_ids {d : Client N} {out : List Output} (hd : d.peer.id ∈ c.ids)
    (h : c.update d out = some c') : c'.ids = c.ids := by
  have hp := foldlM_peers perform_peers h
  rw [ids, hp]
  exact (setPeerConn_ids _ _).trans (Link.add_of_mem hd)

theorem applyWelcomePeers_ids : ∀ (peers : List (String × String)) (c : FullClient N),
    (c.applyWelcomePeers peers).ids = (peers.map Prod.fst).foldl Link.add c.ids
  | [], _ => rfl
  | p :: peers, c => by
    unfold applyWelcomePeers
    rw [List.foldl_cons, List.map_cons, List.foldl_cons]
    refine (applyWelcomePeers_ids peers _).trans ?_
    congr 1
    split_ifs with h
    · exact setPeerConn_ids _ _
    · have hmem : p.1 ∈ c.ids := by
        by_contra hn
        exact h ((c.getPeerConn_isNone p.1).2 hn)
      rw [Link.add_of_mem hmem]

theorem handlePairCode_ids {code : String} {expiresIn : ℕ}
    (h : c.handlePairCode code expiresIn = some c') : c'.ids = c.ids := by
  unfold handlePairCode takePairWaiter at h
  rcases hw : c.pairWaiter requestKey with _ | w <;> simp only [hw] at h
  · rw [← Option.some.inj h]
    rfl
  · rw [ids, put_peers h]
    rfl

theorem initiate_ids {p : PeerConn} {w : PairWaiter} (hp : p.id ∈ c.ids)
    (h : c.initiate p w = some c') : c'.ids = c.ids := by
  have hid := (c.at_ p).startAsInitiator_id
  unfold initiate at h
  rcases hs : (c.at_ p).startAsInitiator with ⟨d, e | msg1⟩ <;> rw [hs] at h hid
  · have htake : d.takeFirstPairWaiter.1.peer.id = d.peer.id := rfl
    exact update_ids (by rw [htake, hid]; exact hp) h
  · exact update_ids (by rw [hid]; exact hp) h

/-- `pair_complete` adds its peer if a waiter for its code is registered. -/
theorem handlePairComplete_ids {peerID code key : String}
    (h : c.handlePairComplete peerID code key = some c') :
    c'.ids = if (c.pairWaiter code).isSome then Link.add c.ids peerID else c.ids := by
  unfold handlePairComplete takePairWaiter at h
  rcases hw : c.pairWaiter code with _ | w <;> simp only [hw] at h
  · rw [← Option.some.inj h]
    rfl
  · have hset := (c.removePairWaiter code).setPeerConn_ids (pairedPeer peerID key w)
    have hmem : peerID ∈ Link.add c.ids peerID := by
      unfold Link.add
      split_ifs with hm <;> simp [hm]
    split_ifs at h
    · rw [initiate_ids (by rw [hset]; exact hmem) h, hset]
      rfl
    · rw [← Option.some.inj h, hset]
      rfl

theorem handlePeerStatus_ids {peerID : String} {online : Bool}
    (h : c.handlePeerStatus peerID online = some c') : c'.ids = c.ids := by
  unfold handlePeerStatus at h
  rcases hp : c.getPeerConn peerID with _ | p <;> simp only [hp] at h
  · rw [ids, perform_peers h]
    rfl
  · exact update_ids (by rw [Client.handlePeerStatus_id]; exact mem_ids_of_getPeerConn hp) h

theorem handleError_ids {code message : String} (h : c.handleError code message = some c') :
    c'.ids = c.ids := by
  have hp := foldlM_peers put_peers h
  rw [ids, hp]
  rfl

theorem handleBinary_ids {pick : ℕ} {env : Env} {data : Bytes}
    (h : c.handleBinary pick env data = some c') : c'.ids = c.ids := by
  unfold handleBinary at h
  rcases hp : c.getSolePeer pick with _ | p <;> simp only [hp] at h
  · rw [← Option.some.inj h]
  · rcases hb : (c.at_ p).handleBinary env data with _ | ⟨d, out⟩ <;> simp only [hb] at h
    · cases h
    · refine update_ids ?_ h
      rw [Client.handleBinary_id hb]
      exact List.mem_map_of_mem (List.mem_of_getElem? hp)

theorem send_ids {peerID : String} {payload : Bytes} (h : c.send peerID payload = some c') :
    c'.ids = c.ids := by
  unfold send at h
  rcases hp : c.getPeerConn peerID with _ | p <;> simp only [hp] at h
  · rw [← Option.some.inj h]
  · rcases hs : (c.at_ p).send peerID payload with e | ⟨d, data⟩ <;> simp only [hs] at h
    · rw [← Option.some.inj h]
    · obtain ⟨c₁, h1, rfl⟩ := Option.map_eq_some_iff.1 h
      have hid : d.peer = p := Client.send_peer hs
      have hids : c₁.ids = c.ids := update_ids (by rw [hid]; exact mem_ids_of_getPeerConn hp) h1
      exact hids

theorem queueCall_peers {i : ℕ} (h : c.queueCall i = some c') : c'.peers = c.peers := by
  unfold queueCall at h
  repeat' split at h
  all_goals cases h
  all_goals rfl

theorem expireCall_peers {i : ℕ} (h : c.expireCall i = some c') : c'.peers = c.peers := by
  unfold expireCall at h
  repeat' split at h
  all_goals cases h
  all_goals rfl

theorem resumeCall_peers {i : ℕ} (h : c.resumeCall i = some c') : c'.peers = c.peers := by
  unfold resumeCall at h
  repeat' split at h
  all_goals cases h
  all_goals rfl

end FullClient

end Go

namespace Sdk

theorem map_id_set {conns : List PeerConn} {p : ℕ} {conn conn' : PeerConn}
    (hp : conns[p]? = some conn) (hid : conn'.id = conn.id) :
    (conns.set p conn').map PeerConn.id = conns.map PeerConn.id := by
  refine List.ext_getElem? fun i => ?_
  rw [List.getElem?_map, List.getElem?_map, List.getElem?_set]
  split_ifs with h hlt
  · subst h
    rw [hp, Option.map_some, Option.map_some, hid]
  · subst h
    exact absurd (List.getElem?_eq_some_iff.1 hp).1 hlt
  · rfl

namespace Client

variable {c c' : Client N}

/-- The keys of the map of peers. -/
def ids (c : Client N) : List String := c.peers.map Prod.fst

/-- The sender that a binary frame is taken to have. -/
def soleID (c : Client N) (pick : ℕ) : Option String :=
  (c.solePeer .ts pick).bind fun p => (c.conns[p]?).map PeerConn.id

/-- Each peer is kept under the ID of its connection. -/
def Named (c : Client N) : Prop :=
  ∀ e ∈ c.peers, (c.conns.map PeerConn.id)[e.2]? = some e.1

theorem Named.soleID (h : c.Named) {link : Option String} (hids : c.ids = link.toList) (pick : ℕ) :
    c.soleID pick = link := by
  unfold ids at hids
  unfold Client.soleID solePeer
  rcases link with _ | id
  · rw [List.map_eq_nil_iff.1 hids]
    rfl
  · obtain ⟨e, he, rfl⟩ := List.map_eq_singleton_iff.1 hids
    have hid := h e (by rw [he]; exact List.mem_singleton_self e)
    rw [List.getElem?_map] at hid
    rw [he]
    exact hid

/-- The map of peers and the IDs of the connections are as before. -/
structure SamePeers (c c' : Client N) : Prop where
  peers : c'.peers = c.peers
  conns : c'.conns.map PeerConn.id = c.conns.map PeerConn.id

theorem SamePeers.refl (c : Client N) : c.SamePeers c := ⟨rfl, rfl⟩

theorem SamePeers.trans {c₁ c₂ c₃ : Client N} (h : c₁.SamePeers c₂) (h' : c₂.SamePeers c₃) :
    c₁.SamePeers c₃ := ⟨h'.peers.trans h.peers, h'.conns.trans h.conns⟩

theorem SamePeers.ids (h : c.SamePeers c') : c'.ids = c.ids := by
  rw [Client.ids, h.peers, Client.ids]

theorem SamePeers.named (h : c.SamePeers c') (hn : c.Named) : c'.Named := by
  rw [Named, h.peers, h.conns]
  exact hn

theorem setConn_samePeers {p : ℕ} {conn conn' : PeerConn} (hp : c.conns[p]? = some conn)
    (hid : conn'.id = conn.id) : c.SamePeers (c.setConn p conn') := ⟨rfl, map_id_set hp hid⟩

theorem setAnnounced_samePeers (c : Client N) (p : ℕ) (key : String) :
    c.SamePeers (c.setAnnounced p key) := by
  unfold setAnnounced
  split
  · exact .refl c
  · rename_i conn hp
    exact setConn_samePeers hp rfl

theorem startAsInitiator_samePeers (c : Client N) (p : ℕ) :
    c.SamePeers (c.startAsInitiator p) := by
  unfold startAsInitiator
  split
  · rename_i conn _ _ hp _
    exact ⟨rfl, map_id_set hp rfl⟩
  · exact .refl c

theorem startRekeyAsInitiator_samePeers (c : Client N) (p : ℕ) :
    c.SamePeers (c.startRekeyAsInitiator p) := by
  unfold startRekeyAsInitiator
  split
  · rename_i conn _ _ hp _
    exact ⟨rfl, map_id_set hp rfl⟩
  · exact .refl c

theorem initiateIf_samePeers (c : Client N) (peerID : String) (weAreAcceptor : Bool) :
    c.SamePeers (c.initiateIf peerID weAreAcceptor) := by
  unfold initiateIf
  split
  · exact c.startAsInitiator_samePeers _
  · exact .refl c

theorem handlePeerStatus_samePeers (c : Client N) (peerID : Option String) (online : Bool) :
    c.SamePeers (c.handlePeerStatus peerID online) := by
  unfold handlePeerStatus
  repeat' split
  all_goals first | exact .refl c | exact c.startRekeyAsInitiator_samePeers _

theorem selectSession_samePeers {p : ℕ} {conn : PeerConn} (hp : c.conns[p]? = some conn)
    (now : ℕ) : c.SamePeers (c.selectSession p conn now).1 := by
  unfold selectSession
  repeat' split
  all_goals first | exact .refl c | exact ⟨rfl, map_id_set hp rfl⟩

theorem feedSession_samePeers (port : Port) (c : Client N) (p i : ℕ) (w : Bool) (data : Bytes) :
    c.SamePeers (c.feedSession port p i w data) := by
  unfold feedSession
  split <;> exact ⟨rfl, rfl⟩

theorem handleHandshakeEnvelope_samePeers (port : Port) (c : Client N) (pick now : ℕ)
    (data : Bytes) : c.SamePeers (c.handleHandshakeEnvelope port pick now data) := by
  unfold handleHandshakeEnvelope
  split
  · exact .refl c
  · rename_i p _
    rcases hp : c.conns[p]? with _ | conn
    · exact .refl c
    · have hs := selectSession_samePeers hp now
      rcases hc : c.selectSession p conn now with ⟨c₁, _ | ⟨i, w⟩⟩ <;> rw [hc] at hs
      · simpa only [hc] using hs
      · simpa only [hc] using hs.trans (c₁.feedSession_samePeers port p i w data)

theorem handleTransportEnvelope_samePeers (port : Port) (c : Client N) (pick : ℕ)
    (ciphertext : Bytes) : c.SamePeers (c.handleTransportEnvelope port pick ciphertext) := by
  unfold handleTransportEnvelope
  split <;> exact ⟨rfl, rfl⟩

theorem send_samePeers (c : Client N) (peerID : String) (payload : Bytes) :
    c.SamePeers (c.send peerID payload) := by
  unfold send
  split <;> exact ⟨rfl, rfl⟩

theorem pinStep_samePeers {port : Port} {k : ℕ} {stamp : String} {fault : Option StoreFault}
    (h : c.pinStep port k stamp fault = some c') : c.SamePeers c' := by
  unfold pinStep at h
  repeat' split at h
  all_goals cases h
  all_goals exact ⟨rfl, rfl⟩

theorem promote_samePeers (port : Port) (c : Client N) (p i : ℕ) :
    c.SamePeers (c.promote port p i) := by
  unfold promote
  rcases hp : c.conns[p]? with _ | conn
  · exact .refl c
  · dsimp only
    repeat' split
    all_goals first | exact .refl c | exact setConn_samePeers hp rfl

theorem abandon_samePeers (port : Port) (c : Client N) (p i : ℕ) :
    c.SamePeers (c.abandon port p i) := by
  unfold abandon
  rcases hp : c.conns[p]? with _ | conn
  · exact .refl c
  · dsimp only
    repeat' split
    all_goals first | exact .refl c | exact setConn_samePeers hp rfl

theorem settleStep_samePeers {port : Port} {k : ℕ} (h : c.settleStep port k = some c') :
    c.SamePeers c' := by
  unfold settleStep at h
  split at h
  · cases h
  · rename_i r _
    obtain ⟨v, -, rfl⟩ := Option.map_eq_some_iff.1 h
    have hv : c.SamePeers (c.applyVerdict port r v) := by
      unfold applyVerdict
      split_ifs
      · exact .refl c
      · exact .refl c
      · exact c.promote_samePeers port _ _
      · exact c.abandon_samePeers port _ _
    exact ⟨hv.peers, hv.conns⟩

theorem connOf_eq_none {id : String} : c.connOf id = none ↔ id ∉ c.ids := by
  simp only [connOf, Option.map_eq_none_iff, List.find?_eq_none, decide_eq_true_eq, ids,
    List.mem_map, not_exists, not_and]

theorem link_ids (port : Port) (c : Client N) (id announced : String) :
    (c.link port id announced).ids = Link.add c.ids id := by
  unfold link Link.add
  rcases hc : c.connOf id with _ | p
  · rw [if_neg (connOf_eq_none.1 hc)]
    simp [ids]
  · rw [if_pos]
    by_contra hn
    rw [connOf_eq_none.2 hn] at hc
    cases hc

theorem Named.link (h : c.Named) (port : Port) (id announced : String) :
    (c.link port id announced).Named := by
  unfold Client.link
  split
  · exact h
  · intro e he
    rw [List.map_append]
    rcases List.mem_append.1 he with he | he
    · have hid := h e he
      rw [List.getElem?_append_left (List.getElem?_eq_some_iff.1 hid).1]
      exact hid
    · obtain rfl := List.mem_singleton.1 he
      simp [newPeerConn]

theorem handleWelcome_ids : ∀ (peers : List (String × String)) (c : Client N),
    (c.handleWelcome .ts peers).ids = (peers.map Prod.fst).foldl Link.add c.ids
  | [], _ => rfl
  | p :: peers, c => by
    have h := handleWelcome_ids peers (c.link .ts p.1 p.2)
    rw [link_ids] at h
    simpa [handleWelcome] using h

theorem Named.handleWelcome : ∀ (peers : List (String × String)) {c : Client N}, c.Named →
    (c.handleWelcome .ts peers).Named
  | [], _, h => h
  | p :: peers, c, h => by
    have h1 := Named.handleWelcome peers (h.link .ts p.1 p.2)
    simpa [Client.handleWelcome] using h1

theorem updateAnnounced_ids (c : Client N) (peerID : String) (key : Option String) :
    (c.updateAnnounced .ts peerID key).ids = Link.add c.ids peerID := by
  unfold updateAnnounced
  rcases hc : c.connOf peerID with _ | p
  · exact c.link_ids .ts peerID _
  · have hmem : peerID ∈ c.ids := by
      by_contra hn
      rw [connOf_eq_none.2 hn] at hc
      cases hc
    rw [Link.add_of_mem hmem]
    exact (c.setAnnounced_samePeers p _).ids

theorem Named.updateAnnounced (h : c.Named) (peerID : String) (key : Option String) :
    (c.updateAnnounced .ts peerID key).Named := by
  unfold Client.updateAnnounced
  rcases c.connOf peerID with _ | p
  · exact h.link .ts peerID _
  · exact (c.setAnnounced_samePeers p _).named h

/-- `pair_complete` adds its peer whether a call waits for it or not. -/
theorem handlePairComplete_ids (c : Client N) {peerID : String} (hid : peerID ≠ "")
    (code key : Option String) :
    (c.handlePairComplete .ts (some peerID) code key).ids = Link.add c.ids peerID := by
  simp only [handlePairComplete, hid, false_and, if_false]
  split_ifs
  · exact c.updateAnnounced_ids peerID key
  · rw [(initiateIf_samePeers _ _ _).ids, updateAnnounced_ids]
    rfl

theorem Named.handlePairComplete (h : c.Named) (peerID code key : Option String) :
    (c.handlePairComplete .ts peerID code key).Named := by
  unfold Client.handlePairComplete
  rcases peerID with _ | peerID
  · exact h
  · dsimp only
    split_ifs
    · exact h
    · exact h.updateAnnounced peerID key
    · refine (initiateIf_samePeers _ _ _).named (Named.updateAnnounced ?_ peerID key)
      exact h

theorem handleUnpaired_ids (c : Client N) {peerID : String} (hid : peerID ≠ "") :
    (c.handleUnpaired .ts (some peerID)).ids = c.ids.filter (· ≠ peerID) := by
  simp only [handleUnpaired, hid, if_false, ids, List.filter_map]
  rfl

theorem Named.handleUnpaired (h : c.Named) (peerID : Option String) :
    (c.handleUnpaired .ts peerID).Named := by
  unfold Client.handleUnpaired
  repeat' split
  all_goals first | exact h | exact fun e he => h e (List.mem_filter.1 he).1

end Client

end Sdk

namespace Link

/-! ## One frame -/

/-- What a frame that reaches a client says of the link it has last heard of and the one the frame
is about. -/
def Told (heard : Option String) (frame : Frame) (link : Option String) : Prop :=
  match frame with
  | .welcome peers => peers.map Prod.fst = link.toList
  | .pairComplete peerID _ _ => peerID ≠ "" ∧ heard = none ∧ link = some peerID
  | .unpaired peerID => peerID ≠ "" ∧ heard = some peerID ∧ link = none
  | .binary _ => heard.isSome = true ∧ link = heard
  | .pairCode .. | .peerStatus .. | .error .. | .pong => link = heard

theorem Told.of_sent {M A B : Type} {P : Mirror.Protocol (Option String) Frame M A B}
    {heard link : Option String} {frame : Frame} (ht : P.tells = tells)
    (hsnap : P.snapshot = snapshot) (hs : P.Sent heard frame link) : Told heard frame link := by
  unfold Mirror.Protocol.Sent at hs
  rw [ht, hsnap] at hs
  cases frame <;> simpa [Told, tells, snapshot] using hs

/-- The keys of the Go client's peers after a frame. -/
def goAfter (c : Go.FullClient N) : Frame → List String
  | .welcome peers => (peers.map Prod.fst).foldl add c.ids
  | .pairComplete peerID code _ => if (c.pairWaiter code).isSome then add c.ids peerID else c.ids
  | _ => c.ids

theorem goHandle_ids {c c' : Go.FullClient N} {found : Found} {frame : Frame}
    (h : goHandle c found frame = some c') : c'.ids = goAfter c frame := by
  cases frame with
  | welcome peers =>
    rw [← Option.some.inj h]
    exact Go.FullClient.applyWelcomePeers_ids peers c
  | pairCode code expiresIn => exact Go.FullClient.handlePairCode_ids h
  | pairComplete peerID code key => exact Go.FullClient.handlePairComplete_ids h
  | peerStatus peerID online => exact Go.FullClient.handlePeerStatus_ids h
  | error code message => exact Go.FullClient.handleError_ids h
  | binary data => exact Go.FullClient.handleBinary_ids h
  | unpaired | pong =>
    rw [← Option.some.inj h]
    rfl

theorem goAct_ids {c c' : Go.FullClient N} {a : GoAction} (h : goAct c a = some c') :
    c'.ids = c.ids := by
  cases a with
  | requestPairCode | acceptPair =>
    rw [← Option.some.inj h]
    rfl
  | queue i => rw [Go.FullClient.ids, Go.FullClient.queueCall_peers h, Go.FullClient.ids]
  | expire i => rw [Go.FullClient.ids, Go.FullClient.expireCall_peers h, Go.FullClient.ids]
  | resume i => rw [Go.FullClient.ids, Go.FullClient.resumeCall_peers h, Go.FullClient.ids]
  | send peerID payload => exact Go.FullClient.send_ids h

/-- What a frame must find for the Go client to follow it. -/
def goKept (c : Go.FullClient N) (heard : Option String) (frame : Frame) (link : Option String) :
    Bool :=
  match frame with
  | .welcome _ => heard = none ∨ heard = link
  | .pairComplete _ code _ => (c.pairWaiter code).isSome
  | .unpaired _ => false
  | _ => true

/-- The Go client follows a frame exactly where it finds what it must. -/
theorem goAfter_eq_iff {c : Go.FullClient N} {heard link : Option String} {frame : Frame}
    (hc : c.ids = heard.toList) (hs : Told heard frame link) :
    goAfter c frame = link.toList ↔ goKept c heard frame link = true := by
  cases frame with
  | welcome peers =>
    have hp : peers.map Prod.fst = link.toList := hs
    simp only [goAfter, hp, hc, goKept, decide_eq_true_eq]
    exact addAll_eq_iff heard link
  | pairComplete peerID code key =>
    obtain ⟨-, rfl, rfl⟩ := hs
    by_cases hw : (c.pairWaiter code).isSome = true <;> simp [goAfter, goKept, hw, hc, add]
  | unpaired peerID =>
    obtain ⟨-, rfl, rfl⟩ := hs
    simp [goAfter, goKept, hc]
  | binary data =>
    obtain ⟨-, rfl⟩ := hs
    simp [goAfter, goKept, hc]
  | pairCode | peerStatus | error | pong =>
    obtain rfl : link = heard := hs
    simp [goAfter, goKept, hc]

/-- The keys of the TypeScript client's peers after a frame. -/
def tsAfter (ids : List String) : Frame → List String
  | .welcome peers => (peers.map Prod.fst).foldl add ids
  | .pairComplete peerID _ _ => add ids peerID
  | .unpaired peerID => ids.filter (· ≠ peerID)
  | _ => ids

/-- What a frame must find for the TypeScript client to follow it. -/
def tsKept (_ : Sdk.Client N) (heard : Option String) (frame : Frame) (link : Option String) :
    Bool :=
  match frame with
  | .welcome _ => heard = none ∨ heard = link
  | _ => true

theorem tsHandle_ids {c c' : Sdk.Client N} {heard link : Option String} {found : Found}
    {frame : Frame} (hn : c.Named) (hs : Told heard frame link)
    (h : tsHandle c found frame = some c') : c'.Named ∧ c'.ids = tsAfter c.ids frame := by
  have hsame : ∀ {c' : Sdk.Client N}, c.SamePeers c' → c'.Named ∧ c'.ids = c.ids :=
    fun h => ⟨h.named hn, h.ids⟩
  cases frame with
  | welcome peers =>
    rw [← Option.some.inj h]
    exact ⟨hn.handleWelcome peers, Sdk.Client.handleWelcome_ids peers c⟩
  | pairComplete peerID code key =>
    rw [← Option.some.inj h]
    exact ⟨hn.handlePairComplete _ _ _, c.handlePairComplete_ids hs.1 _ _⟩
  | unpaired peerID =>
    rw [← Option.some.inj h]
    exact ⟨hn.handleUnpaired _, c.handleUnpaired_ids hs.1⟩
  | peerStatus peerID online =>
    rw [← Option.some.inj h]
    exact hsame (c.handlePeerStatus_samePeers _ _)
  | error code message =>
    rw [← Option.some.inj h]
    exact hsame ⟨rfl, rfl⟩
  | pairCode | pong =>
    rw [← Option.some.inj h]
    exact hsame (.refl c)
  | binary data =>
    refine hsame ?_
    simp only [tsHandle, tsEvent] at h
    rcases hd : decodeEnvelope data with _ | ⟨kind, payload⟩ <;> simp only [hd] at h
    · rw [← Option.some.inj h]
      exact .refl c
    · split_ifs at h <;> rw [← Option.some.inj h]
      · exact c.handleHandshakeEnvelope_samePeers .ts _ _ _
      · exact c.handleTransportEnvelope_samePeers .ts _ _
      · exact .refl c

theorem tsAct_samePeers {c c' : Sdk.Client N} {a : TsAction}
    (h : c.step .ts a.event = some c') : c.SamePeers c' := by
  cases a with
  | acceptPair code =>
    rw [← Option.some.inj h]
    exact ⟨rfl, rfl⟩
  | send peerID payload =>
    rw [← Option.some.inj h]
    exact c.send_samePeers _ _
  | pin k stamp fault => exact Sdk.Client.pinStep_samePeers h
  | settle k => exact Sdk.Client.settleStep_samePeers h

/-- The TypeScript client follows a frame exactly where it finds what it must. -/
theorem tsAfter_eq_iff (c : Sdk.Client N) {heard link : Option String} {frame : Frame}
    (hs : Told heard frame link) :
    tsAfter heard.toList frame = link.toList ↔ tsKept c heard frame link = true := by
  cases frame with
  | welcome peers =>
    have hp : peers.map Prod.fst = link.toList := hs
    simp only [tsAfter, hp, tsKept, decide_eq_true_eq]
    exact addAll_eq_iff heard link
  | pairComplete peerID code key =>
    obtain ⟨-, rfl, rfl⟩ := hs
    simp [tsAfter, tsKept, add]
  | unpaired peerID =>
    obtain ⟨-, rfl, rfl⟩ := hs
    simp [tsAfter, tsKept]
  | binary data =>
    obtain ⟨-, rfl⟩ := hs
    simp [tsAfter, tsKept]
  | pairCode | peerStatus | error | pong =>
    obtain rfl : link = heard := hs
    simp [tsAfter, tsKept]

/-! ## Whole histories -/

section Follow

variable {M A B : Type}

/-- A device with link `link`, and a client of it that has been told nothing. -/
def start (link : Option String) (client : M) : Mirror.State (Option String) Frame M where
  value := link
  heard := none
  client

/-- A condition on each frame that is handled, with the link the client has last heard of and the
one the frame is about. -/
def atHandle (kept : M → Option String → Frame → Option String → Bool)
    (s : Mirror.State (Option String) Frame M) : Mirror.Label (Option String) Frame A B → Bool
  | .handle _ =>
    match s.conn with
    | some ((frame, link) :: _) => kept s.client s.heard frame link
    | _ => true
  | _ => true

/-- With no frame in flight, the client's only peer is the linked one. A binary frame that is
handled is attributed to the device that the relay forwarded it from. -/
structure Follows (ids : M → List String) (sole : M → ℕ → Option String)
    (s : Mirror.State (Option String) Frame M) : Prop where
  settled : s.conn = some [] →
    ids s.client = s.value.toList ∧ ∀ pick, sole s.client pick = s.value
  attributed : ∀ data sender frames, s.conn = some ((.binary data, sender) :: frames) →
    sender.isSome = true ∧ ∀ pick, sole s.client pick = sender

theorem Follows.of_ordered {P : Mirror.Protocol (Option String) Frame M A B}
    {ids : M → List String} {sole : M → ℕ → Option String}
    {s : Mirror.State (Option String) Frame M} (ht : P.tells = tells) (hsnap : P.snapshot = snapshot)
    (ho : P.Ordered s) (hids : ids s.client = s.heard.toList)
    (hsole : ∀ pick, sole s.client pick = s.heard) : Follows ids sole s where
  settled hc := by
    have hv : s.heard = s.value := by simpa [Mirror.Protocol.Ordered, hc] using ho
    rw [← hv]
    exact ⟨hids, hsole⟩
  attributed data sender frames hc := by
    have hsent : P.Sent s.heard (.binary data) sender := by
      unfold Mirror.Protocol.Ordered at ho
      rw [hc] at ho
      exact ho.1
    obtain ⟨hsome, rfl⟩ := Told.of_sent ht hsnap hsent
    exact ⟨hsome, hsole⟩

end Follow

/-- Along every history of the link, of connections and of calls in which each frame that is
handled finds what it must, the client's only peer is the linked one. -/
theorem sole_peer_eq_link (N : Noise) (link : Option String) :
    (∀ (c : Go.FullClient N) (as : List (Mirror.Label (Option String) Frame Found GoAction))
      (s : Mirror.State (Option String) Frame (Go.FullClient N)), c.peers = [] →
      Lts.Meets (goLink N).step (fun s l => atHandle goKept s l) (start link c) as →
      Lts.run (goLink N).step (start link c) as = some s →
      Follows Go.FullClient.ids Go.FullClient.soleID s)
    ∧ ∀ (c : Sdk.Client N) (as : List (Mirror.Label (Option String) Frame Found TsAction))
      (s : Mirror.State (Option String) Frame (Sdk.Client N)), c.peers = [] →
      Lts.Meets (tsLink N).step (fun s l => atHandle tsKept s l) (start link c) as →
      Lts.run (tsLink N).step (start link c) as = some s →
      Follows Sdk.Client.ids Sdk.Client.soleID s := by
  constructor
  · intro c as s hc hm hrun
    obtain ⟨hids, ho⟩ := Mirror.Protocol.run_mirrors
      (R := fun (c : Go.FullClient N) link => c.ids = link.toList)
      (fun c a c' link h ha => (goAct_ids ha).trans h)
      (fun s found frame link frames c' hconn h hsent hk hc' => by
        rw [goHandle_ids hc', goAfter_eq_iff h (.of_sent rfl rfl hsent)]
        simpa [atHandle, hconn] using hk)
      as (by simp [Go.FullClient.ids, start, hc]) rfl hm hrun
    exact .of_ordered rfl rfl ho hids (Go.FullClient.soleID_of_ids hids)
  · intro c as s hc hm hrun
    obtain ⟨⟨hn, hids⟩, ho⟩ := Mirror.Protocol.run_mirrors
      (R := fun (c : Sdk.Client N) link => c.Named ∧ c.ids = link.toList)
      (fun c a c' link h ha => ⟨(tsAct_samePeers ha).named h.1, (tsAct_samePeers ha).ids.trans h.2⟩)
      (fun s found frame link frames c' hconn h hsent hk hc' => by
        have htold : Told s.heard frame link := .of_sent rfl rfl hsent
        obtain ⟨hn', hids'⟩ := tsHandle_ids h.1 htold hc'
        refine ⟨hn', ?_⟩
        rw [hids', h.2, tsAfter_eq_iff s.client htold]
        simpa [atHandle, hconn] using hk)
      as ⟨by simp [Sdk.Client.Named, start, hc], by simp [Sdk.Client.ids, start, hc]⟩ rfl hm hrun
    exact .of_ordered rfl rfl ho hids (hn.soleID hids)

/-- A Go client as it starts. -/
def goFresh : Go.FullClient plainNoise where
  deviceID := "a"
  privateKey := .ofByte 1
  rand i := List.replicate i 0
  peerStore := { peers := some fun _ => none, disk := none }

/-- A TypeScript client as it starts. -/
def tsFresh : Sdk.Client plainNoise where
  deviceID := "a"
  privateKey := List.replicate 32 1
  rand i := List.replicate i 0
  store := .memory fun _ => none

def found : Found := ⟨⟨0, "", none⟩, 0⟩

section Histories

variable {M B : Type} (P : Mirror.Protocol (Option String) Frame M Found B)

/-- What a device without a link comes to: its link, the links that the frames in flight are about,
and the client's peers with the one that binary frames are attributed to. -/
def outcome (ids : M → List String) (sole : M → ℕ → Option String) (client : M)
    (as : List (Mirror.Label (Option String) Frame Found B)) :
    Option (Option String × Option (List (Option String)) × List String × Option String) :=
  (Lts.run P.step (start none client) as).map fun s =>
    (s.value, s.conn.map (List.map Prod.snd), ids s.client, sole s.client 0)

/-- The relay sends a frame and the client handles it. -/
def sent (frame : Frame) (link : Option String) :
    List (Mirror.Label (Option String) Frame Found B) := [.tell frame link, .handle found]

/-- The client connects and handles `welcome`. -/
def joined (peers : List (String × String)) : List (Mirror.Label (Option String) Frame Found B) :=
  [.connect (.welcome peers), .handle found]

end Histories

/-- The application asks for a code, and has it. -/
def goRequested (code : String) : List (Mirror.Label (Option String) Frame Found GoAction) :=
  [.act .requestPairCode, .act (.queue 0)] ++ sent (.pairCode code 300) none

/-- A device paired through the code of its own request. -/
def goPaired : List (Mirror.Label (Option String) Frame Found GoAction) :=
  joined [] ++ goRequested "483921" ++ [.act (.resume 0)]
    ++ sent (.pairComplete "b" "483921" "") (some "b")

/-- TypeScript: a link that ends while the client is away stays in its map, and after a new one
frames from `c` are attributed to `b`. Go: so does a link that ends while it is connected, and a
link is missed if `pair_complete` is handled before the call that asked for the code resumes, or
after the context of the call that accepts it has expired. -/
theorem sole_peer_ne_link :
    outcome (tsLink plainNoise) Sdk.Client.ids Sdk.Client.soleID tsFresh
        (joined [] ++ sent (.pairComplete "b" "483921" "") (some "b")
          ++ ([.drop, .change none] : List (Mirror.Label (Option String) Frame Found TsAction))
          ++ joined [])
      = some (none, some [], ["b"], some "b")
    ∧ outcome (tsLink plainNoise) Sdk.Client.ids Sdk.Client.soleID tsFresh
        (joined [] ++ sent (.pairComplete "b" "483921" "") (some "b")
          ++ ([.drop, .change none] : List (Mirror.Label (Option String) Frame Found TsAction))
          ++ joined [] ++ sent (.pairComplete "c" "120044" "") (some "c")
          ++ ([.tell (.binary [2, 0]) (some "c")] :
            List (Mirror.Label (Option String) Frame Found TsAction)))
      = some (some "c", some [some "c"], ["b", "c"], some "b")
    ∧ outcome (goLink plainNoise) Go.FullClient.ids Go.FullClient.soleID goFresh
        (goPaired ++ sent (.unpaired "b") none)
      = some (none, some [], ["b"], some "b")
    ∧ outcome (goLink plainNoise) Go.FullClient.ids Go.FullClient.soleID goFresh
        (joined [] ++ goRequested "483921" ++ sent (.pairComplete "b" "483921" "") (some "b")
          ++ ([.act (.resume 0)] : List (Mirror.Label (Option String) Frame Found GoAction)))
      = some (some "b", some [], [], none)
    ∧ outcome (goLink plainNoise) Go.FullClient.ids Go.FullClient.soleID goFresh
        (joined []
          ++ ([.act (.acceptPair "483921"), .act (.queue 0), .act (.expire 0)] :
            List (Mirror.Label (Option String) Frame Found GoAction))
          ++ sent (.pairComplete "b" "483921" "") (some "b"))
      = some (some "b", some [], [], none) := by
  refine ⟨?_, ?_, ?_, ?_, ?_⟩ <;> decide +kernel

theorem sole_peer_eq_link_paired :
    outcome (goLink plainNoise) Go.FullClient.ids Go.FullClient.soleID goFresh
        (goPaired ++ [.tell (.binary [2, 0]) (some "b")])
      = some (some "b", some [some "b"], ["b"], some "b")
    ∧ (∀ s, Lts.run (goLink plainNoise).step (start none goFresh)
        (goPaired ++ [.tell (.binary [2, 0]) (some "b")]) = some s →
      Follows Go.FullClient.ids Go.FullClient.soleID s)
    ∧ outcome (tsLink plainNoise) Sdk.Client.ids Sdk.Client.soleID tsFresh
        (joined [] ++ sent (.pairComplete "b" "483921" "") (some "b") ++ sent (.unpaired "b") none)
      = some (none, some [], [], none)
    ∧ ∀ s, Lts.run (tsLink plainNoise).step (start none tsFresh)
        (joined [] ++ sent (.pairComplete "b" "483921" "") (some "b") ++ sent (.unpaired "b") none)
          = some s →
      Follows Sdk.Client.ids Sdk.Client.soleID s :=
  ⟨by decide +kernel,
    fun s => (sole_peer_eq_link plainNoise none).1 goFresh _ s rfl (by decide +kernel),
    by decide +kernel,
    fun s => (sole_peer_eq_link plainNoise none).2 tsFresh _ s rfl (by decide +kernel)⟩

end Link

end Relayly
