import Relayly.Go.LoadPeers
import Relayly.Lib.Run

/-!
# Pins that are not persisted

A pin whose save fails stays in memory, and the next call that asks for it is told that all is well.
It is on disk as soon as some later pin is saved, since a save writes the whole map. A file that
holds `null` is accepted, and the first pin into the nil map it leaves is a panic.
-/

namespace Relayly.Go

namespace PeerStore

/-- What the history of the calls says of the map in memory and of the file. -/
structure Tracks (ps : PeerStore) (peers : Pins) (h : PinHistory) : Prop where
  peers_eq : ps.peers = some peers
  pinned : ∀ p, h.pinned p = (peers p).isSome
  disk_le : ∀ p, peers p = none → ps.onDisk p = none
  saved : ∀ p pin, peers p = some pin → (p, pin.staticKey) ∉ h.unsaved → ps.onDisk p = some pin
  unsaved : ∀ p k, (p, k) ∈ h.unsaved →
    ps.onDisk p = none ∧ (peers p).map PinnedPeer.staticKey = some k

variable {ps : PeerStore} {peers : Pins} {h : PinHistory}

/-- A call on a peer with a pin changes nothing, and is in order if the pin is not one that waits
for a save. -/
lemma Tracks.call_pinned (ht : Tracks ps peers h) (c : PinCall) {pin : PinnedPeer}
    (hpin : peers c.peerID = some pin) :
    ∃ err, ps.call c = some (ps, err) ∧ (Kept ps c err ↔ h.Settled c) := by
  have hget : ps.get c.peerID = some pin := by rw [get, ht.peers_eq]; exact hpin
  by_cases hkey : pin.staticKey = c.key
  · refine ⟨none, by simp [call, pinOrVerify, hget, hkey], ?_⟩
    constructor
    · intro hkept hmem
      have hdisk := hkept rfl
      rw [(ht.unsaved _ _ hmem).1] at hdisk
      cases hdisk
    · intro hsettled _
      rw [ht.saved c.peerID pin hpin (hkey ▸ hsettled), Option.map_some, hkey]
  · refine ⟨some errPeerKeyMismatch, by simp [call, pinOrVerify, hget, hkey], ?_⟩
    refine iff_of_true (fun herr => by cases herr) fun hmem => ?_
    -- the pins that wait for a save have the key that is in memory, and this is another one
    have hsome := (ht.unsaved _ _ hmem).2
    rw [hpin, Option.map_some, Option.some.injEq] at hsome
    exact hkey hsome

/-- The map in memory after a first pin. -/
def pin (peers : Pins) (c : PinCall) : Pins :=
  Function.update peers c.peerID (some ⟨c.key, c.stamp⟩)

lemma Tracks.call_new (ht : Tracks ps peers h) (c : PinCall) (hnew : peers c.peerID = none) :
    ps.call c = some ({ ps with peers := some (pin peers c) }.saveLocked c.fault) := by
  have hget : ps.get c.peerID = none := by rw [get, ht.peers_eq]; exact hnew
  simp [call, pinOrVerify, hget, ht.peers_eq, pin]

lemma Tracks.settled_of_new (ht : Tracks ps peers h) (c : PinCall) (hnew : peers c.peerID = none) :
    h.Settled c := by
  intro hmem
  have hsome := (ht.unsaved _ _ hmem).2
  rw [hnew] at hsome
  cases hsome

lemma Tracks.step_new (ht : Tracks ps peers h) (c : PinCall) (hnew : peers c.peerID = none) :
    h.step c = some
      { pinned := Function.update h.pinned c.peerID true
        unsaved := if c.fault.isSome then (c.peerID, c.key) :: h.unsaved else [] } := by
  simp [PinHistory.step, ht.pinned, hnew]

lemma isSome_pin (peers : Pins) (c : PinCall) (p : String) :
    (pin peers c p).isSome = Function.update (fun q => (peers q).isSome) c.peerID true p := by
  by_cases hp : p = c.peerID
  · subst hp
    simp [pin]
  · simp [pin, hp]

lemma pin_of_ne {c : PinCall} {p : String} (hp : p ≠ c.peerID) : pin peers c p = peers p :=
  Function.update_of_ne hp _ _

/-- A save that fails: the new pin joins those that wait. -/
lemma Tracks.fail (ht : Tracks ps peers h) (c : PinCall) (hnew : peers c.peerID = none) :
    Tracks { ps with peers := some (pin peers c) } (pin peers c)
      { pinned := Function.update h.pinned c.peerID true
        unsaved := (c.peerID, c.key) :: h.unsaved } where
  peers_eq := rfl
  pinned p := by rw [isSome_pin, funext ht.pinned]
  disk_le p hp := by
    have hne : p ≠ c.peerID := by
      rintro rfl
      simp [pin] at hp
    rw [pin_of_ne hne] at hp
    exact ht.disk_le p hp
  saved p entry hp hmem := by
    have hne : p ≠ c.peerID := by
      rintro rfl
      obtain rfl : ⟨c.key, c.stamp⟩ = entry := by simpa [pin] using hp
      exact hmem (List.mem_cons_self ..)
    rw [pin_of_ne hne] at hp
    exact ht.saved p entry hp fun hin => hmem (List.mem_cons_of_mem _ hin)
  unsaved p k hmem := by
    rcases List.mem_cons.mp hmem with heq | hin
    · obtain ⟨rfl, rfl⟩ := Prod.mk.inj heq
      exact ⟨ht.disk_le _ hnew, by simp [pin]⟩
    · have hold := ht.unsaved p k hin
      have hne : p ≠ c.peerID := by
        rintro rfl
        simp [hnew] at hold
      rw [pin_of_ne hne]
      exact hold

/-- A save that succeeds writes the whole map, and nothing waits any more. -/
lemma Tracks.save (ht : Tracks ps peers h) (c : PinCall) :
    Tracks { peers := some (pin peers c), disk := some (pin peers c) } (pin peers c)
      { pinned := Function.update h.pinned c.peerID true, unsaved := [] } where
  peers_eq := rfl
  pinned p := by rw [isSome_pin, funext ht.pinned]
  disk_le _ hp := hp
  saved _ _ hp _ := hp
  unsaved _ _ hmem := absurd hmem List.not_mem_nil

/-- One call: it does not panic, it is in order exactly if it repeats no pin that waits for a save,
and the history follows. -/
lemma Tracks.call (ht : Tracks ps peers h) (c : PinCall) :
    ∃ ps' err peers' h', ps.call c = some (ps', err) ∧ h.step c = some h' ∧
      (Kept ps' c err ↔ h.Settled c) ∧ Tracks ps' peers' h' := by
  cases hpin : peers c.peerID with
  | some entry =>
    obtain ⟨err, hcall, hkept⟩ := ht.call_pinned c hpin
    exact ⟨ps, err, peers, h, hcall, by simp [PinHistory.step, ht.pinned, hpin], hkept, ht⟩
  | none =>
    have hcall := ht.call_new c hpin
    have hstep := ht.step_new c hpin
    have hsettled := ht.settled_of_new c hpin
    cases hfault : c.fault with
    | some fault =>
      rw [hfault] at hcall hstep
      exact ⟨_, _, _, _, hcall, hstep, iff_of_true (fun herr => by cases herr) hsettled,
        ht.fail c hpin⟩
    | none =>
      rw [hfault] at hcall hstep
      refine ⟨_, _, _, _, hcall, hstep, iff_of_true (fun _ => ?_) hsettled, ht.save c⟩
      simp [onDisk, pin]

/-- A whole sequence of calls, on a store whose map is not nil. -/
lemma Tracks.persists_iff : ∀ (calls : List PinCall) {ps : PeerStore} {peers : Pins}
    {h : PinHistory}, Tracks ps peers h →
      (ps.Persists calls ↔ Lts.Meets PinHistory.step PinHistory.Settled h calls)
  | [], _, _, _, _ => Iff.rfl
  | c :: calls, ps, peers, h, ht => by
    obtain ⟨ps', err, peers', h', hcall, hstep, hkept, ht'⟩ := ht.call c
    have ih := ht'.persists_iff calls
    constructor
    · rintro ⟨ps₁, err₁, hcall₁, hkept₁, hrest⟩
      obtain ⟨rfl, rfl⟩ := Prod.mk.inj (Option.some.inj (hcall.symm.trans hcall₁))
      exact Lts.Meets.cons (hkept.1 hkept₁) hstep (ih.1 hrest)
    · rintro ⟨hsettled, hrest⟩
      exact ⟨ps', err, hcall, hkept.2 hsettled, ih.2 (hrest h' hstep)⟩

/-- On a nil map the first call panics. -/
lemma persists_nil_iff (hnil : ps.peers = none) (calls : List PinCall) :
    ps.Persists calls ↔ calls = [] := by
  cases calls with
  | nil => exact iff_of_true trivial rfl
  | cons c calls =>
    refine iff_of_false ?_ (List.cons_ne_nil c calls)
    rintro ⟨ps', err, hcall, -⟩
    simp [PeerStore.call, pinOrVerify, get, hnil] at hcall

lemma tracks_start (peers : Pins) (hpeers : ps.peers = some peers)
    (hdisk : ∀ p, ps.onDisk p = peers p) : Tracks ps peers (PinHistory.start peers) where
  peers_eq := hpeers
  pinned _ := rfl
  disk_le p hp := (hdisk p).trans hp
  saved p _ hp _ := (hdisk p).trans hp
  unsaved _ _ hmem := absurd hmem List.not_mem_nil

end PeerStore

/-! ## What a save writes is loaded again -/

lemma decodePin_marshalPin (pin : PinnedPeer) : decodePin (marshalPin pin) = pin := by
  have hstatic : GoJson.fieldFor pinnedPeerNames "static_key" = some "static_key" := by decide
  have hpinned : GoJson.fieldFor pinnedPeerNames "pinned_at" = some "pinned_at" := by decide
  simp [decodePin, marshalPin, GoJson.stringField, GoJson.stringOf, hstatic, hpinned]

lemma depth_marshalPin (pin : PinnedPeer) : (marshalPin pin).depth = 1 := by
  simp [marshalPin, Json.depth, Json.depthMembers]

lemma depthMembers_marshalPins : ∀ entries : List (String × PinnedPeer),
    Json.depthMembers (entries.map fun e => (e.1, marshalPin e.2)) ≤ 1
  | [] => by simp [Json.depthMembers]
  | e :: entries => by
    have ih := depthMembers_marshalPins entries
    simp [Json.depthMembers, depth_marshalPin, ih]

lemma fitsStrings_marshalPin (pin : PinnedPeer) :
    GoJson.fitsStrings pinnedPeerNames (marshalPin pin) = true := by
  simp [GoJson.fitsStrings, marshalPin, GoJson.fitsString]

lemma unmarshalPins_obj {members : List (String × GoJson.Document)}
    (hdepth : ¬ GoJson.maxNestingDepth < (Json.obj members).depth)
    (hfits : members.all (fun m => GoJson.fitsStrings pinnedPeerNames m.2) = true) :
    unmarshalPins (.obj members) = some (some (decodePins members)) := by
  rw [unmarshalPins, if_neg hdepth]
  exact if_pos hfits

/-- So the map on disk is the map that was saved. -/
theorem loadPeerStore_marshalPins (entries : List (String × PinnedPeer)) :
    loadPeerStore (.text (some (marshalPins entries))) =
      some { peers := some (pinsOf entries), disk := some (pinsOf entries) } := by
  have hdepth : ¬ GoJson.maxNestingDepth
      < (Json.obj (entries.map fun e => (e.1, marshalPin e.2))).depth := by
    have hmax : 2 ≤ GoJson.maxNestingDepth := by decide
    exact not_lt.mpr ((Nat.succ_le_succ (depthMembers_marshalPins entries)).trans hmax)
  have hdecode : decodePins (entries.map fun e => (e.1, marshalPin e.2)) = pinsOf entries := by
    simp only [decodePins, pinsOf, List.foldl_map, decodePin_marshalPin]
  have hfits : (entries.map fun e => (e.1, marshalPin e.2)).all
      (fun m => GoJson.fitsStrings pinnedPeerNames m.2) = true := by
    refine List.all_eq_true.mpr fun m hm => ?_
    obtain ⟨e, -, rfl⟩ := List.mem_map.mp hm
    exact fitsStrings_marshalPin e.2
  have hload : unmarshalPins (marshalPins entries) = some (some (pinsOf entries)) := by
    rw [marshalPins, unmarshalPins_obj hdepth hfits, hdecode]
  simp [loadPeerStore, hload]

/-! ## What a store starts from -/

lemma unmarshalPins_eq_none_map {doc : GoJson.Document} :
    unmarshalPins doc = some none ↔ doc = .null := by
  constructor
  · intro hdoc
    unfold unmarshalPins at hdoc
    split at hdoc
    · cases hdoc
    · split at hdoc
      · rfl
      · split at hdoc <;> simp at hdoc
      · cases hdoc
  · rintro rfl
    simp [unmarshalPins, Json.depth, GoJson.maxNestingDepth]

/-- A store that is loaded has the pins of its file, or a nil map if the file holds `null`. -/
lemma loadPeerStore_cases {file : StoreFile} {ps : PeerStore}
    (hload : loadPeerStore file = some ps) :
    (file = .text (some .null) ∧ ps.peers = none) ∨
      (file ≠ .text (some .null) ∧
        ∃ peers, ps.peers = some peers ∧ ∀ p, ps.onDisk p = peers p) := by
  cases file with
  | absent =>
    obtain rfl := Option.some.inj hload
    exact .inr ⟨by simp, _, rfl, fun _ => rfl⟩
  | unreadable => cases hload
  | empty =>
    obtain rfl := Option.some.inj hload
    exact .inr ⟨by simp, _, rfl, fun _ => rfl⟩
  | text doc =>
    obtain ⟨peers, hpeers, rfl⟩ := Option.map_eq_some_iff.mp hload
    obtain ⟨doc, rfl, hdoc⟩ := Option.bind_eq_some_iff.mp hpeers
    cases peers with
    | none => exact .inl ⟨by rw [unmarshalPins_eq_none_map.mp hdoc], rfl⟩
    | some peers =>
      refine .inr ⟨?_, peers, rfl, fun _ => rfl⟩
      intro hnull
      obtain rfl : doc = .null := by simpa using hnull
      rw [unmarshalPins_eq_none_map.mpr rfl] at hdoc
      cases hdoc

/-- On a file that is accepted, a call that returns nil has persisted its pin, and no call panics,
exactly if the file does not hold `null` and no call asks again for a pin that no save has
written. -/
theorem loadPeerStore_persists_iff (file : StoreFile) (ps : PeerStore) (calls : List PinCall)
    (hload : loadPeerStore file = some ps) :
    ps.Persists calls ↔
      (file = .text (some .null) → calls = []) ∧
        Lts.Meets PinHistory.step PinHistory.Settled
          (PinHistory.start (ps.peers.getD fun _ => none)) calls := by
  rcases loadPeerStore_cases hload with ⟨hfile, hnil⟩ | ⟨hfile, peers, hpeers, hdisk⟩
  · rw [PeerStore.persists_nil_iff hnil]
    constructor
    · rintro rfl
      exact ⟨fun _ => rfl, trivial⟩
    · rintro ⟨hcalls, -⟩
      exact hcalls hfile
  · rw [(PeerStore.tracks_start peers hpeers hdisk).persists_iff calls, hpeers, Option.getD_some]
    exact ⟨fun hmeets => ⟨fun hnull => absurd hnull hfile, hmeets⟩, And.right⟩

/-- A pin whose save failed may be asked for again once another pin has been saved. -/
theorem loadPeerStore_persists_resaved :
    loadPeerStore .absent = some { peers := some fun _ => none, disk := none } ∧
      PeerStore.Persists { peers := some fun _ => none, disk := none }
        [⟨"a", "k", "t1", some (.write "no space left on device")⟩, ⟨"b", "l", "t2", none⟩,
          ⟨"a", "k", "t3", none⟩] :=
  ⟨rfl, (loadPeerStore_persists_iff .absent _ _ rfl).mpr
    ⟨fun hfile => StoreFile.noConfusion hfile, by decide⟩⟩

/-- The first pin after a file that holds `null` panics; and a pin whose save failed is reported as
pinned by the second call, while there is no file. -/
theorem pinOrVerify_not_persisted :
    (∃ ps, loadPeerStore (.text (some .null)) = some ps ∧ ps.call ⟨"a", "k", "t1", none⟩ = none) ∧
      ∃ ps ps', loadPeerStore .absent = some ps ∧
        ps.call ⟨"a", "k", "t1", some (.rename "permission denied")⟩ =
          some (ps', some (SaveFault.rename "permission denied").error) ∧
        ps'.call ⟨"a", "k", "t2", none⟩ = some (ps', none) ∧ ps'.disk = none := by
  refine ⟨⟨{ peers := none, disk := some fun _ => none }, ?_, rfl⟩, ?_⟩
  · simp [loadPeerStore, unmarshalPins_eq_none_map.mpr rfl]
  · exact ⟨_, { peers := some (PeerStore.pin (fun _ => none) ⟨"a", "k", "t1", none⟩), disk := none },
      rfl, rfl, rfl, rfl⟩

end Relayly.Go
