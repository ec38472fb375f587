import Relayly.Sdk.WireMessage
import Mathlib.Data.List.Forall2

/-!
# Control frames of the C++ client

What `Encode` writes `Decode` reads (`decode_encode`). Of what others write it reads every field
exactly if the version fits into 32 bits and each entry of `peers` is a peer: it skips the entries
that are no objects, fills in what is missing, and throws if `id` or `static_key` is not a string.
-/

namespace Relayly.Sdk.Cpp.WireMessage

variable {members : List (String × Document)} {key : String}

section readers

lemma value_of_lookup {s : String} (h : members.lookup key = some (.str s)) :
    value members key = .ok s := by
  rw [value, h]

lemma stringAt_of_lookup {o : Option String} (h : members.lookup key = o.map .str) :
    stringAt members key = o := by
  rw [stringAt, h]
  cases o <;> rfl

lemma unsignedAt_of_lookup {o : Option UInt64}
    (h : members.lookup key = o.map fun v => .num (.unsigned v)) :
    unsignedAt members key = o := by
  rw [unsignedAt, h]
  cases o <;> rfl

lemma boolAt_of_lookup {o : Option Bool} (h : members.lookup key = o.map .bool) :
    boolAt members key = o := by
  rw [boolAt, h]
  cases o <;> rfl

end readers

/-! ## The round trip -/

section roundTrip

lemma lookup_peerFields (p : WirePeer) {v : Option Document} (h : (key, v) ∈ peerFields p) :
    (Json.assignAll (peerFields p)).lookup key = v := by
  refine Json.lookup_assignAll ?_ h
  show ["id", "static_key"].Nodup
  decide

lemma decodePeers_encodePeer (peers : List WirePeer) :
    decodePeers (peers.map encodePeer) = .ok peers := by
  induction peers with
  | nil => rfl
  | cons p rest ih =>
    have hid : value (Json.assignAll (peerFields p)) "id" = .ok p.id :=
      value_of_lookup (lookup_peerFields p (by simp [peerFields]))
    have hkey : value (Json.assignAll (peerFields p)) "static_key" = .ok p.staticKey :=
      value_of_lookup (lookup_peerFields p (by simp [peerFields]))
    rw [List.map_cons, encodePeer, decodePeers, ih, hid, hkey]
    rfl

variable (m : WireMessage)

lemma nodup_fields : (m.fields.map (·.1)).Nodup := by
  show ["type", "protocol_version", "device_id", "peers", "static_key", "code", "expires_in",
    "peer_id", "peer_static_key", "online", "message"].Nodup
  decide

/-- Each field is found again in what `Encode` writes. -/
lemma lookup_encode {v : Option Document} (h : (key, v) ∈ m.fields) :
    (Json.assignAll m.fields).lookup key = v :=
  Json.lookup_assignAll m.nodup_fields h

lemma peersAt_encode : peersAt (Json.assignAll m.fields) = .ok m.peers := by
  have h : (Json.assignAll m.fields).lookup "peers" =
      m.peers.map fun peers => .arr (peers.map encodePeer) := m.lookup_encode (by simp [fields])
  rw [peersAt, h]
  cases m.peers with
  | none => rfl
  | some peers =>
    show (decodePeers (peers.map encodePeer)).map some = .ok (some peers)
    rw [decodePeers_encodePeer]
    rfl

lemma stringAt_encode {o : Option String} (h : (key, o.map .str) ∈ m.fields) :
    stringAt (Json.assignAll m.fields) key = o :=
  stringAt_of_lookup (m.lookup_encode h)

/-- The version comes back through 64 bits. -/
lemma protocolVersion_encode :
    (unsignedAt (Json.assignAll m.fields) "protocol_version").map UInt64.toUInt32 =
      m.protocolVersion := by
  have h : (Json.assignAll m.fields).lookup "protocol_version" =
      m.protocolVersion.map fun v => .num (.unsigned v.toUInt64) :=
    m.lookup_encode (by simp [fields])
  rw [unsignedAt, h]
  cases m.protocolVersion with
  | none => rfl
  | some v => exact congrArg some (UInt32.toUInt32_toUInt64 v)

lemma decodeMembers_encode : decodeMembers m.type (Json.assignAll m.fields) = .ok m := by
  have hdevice : stringAt (Json.assignAll m.fields) "device_id" = m.deviceID :=
    m.stringAt_encode (by simp [fields])
  have hstatic : stringAt (Json.assignAll m.fields) "static_key" = m.staticKey :=
    m.stringAt_encode (by simp [fields])
  have hcode : stringAt (Json.assignAll m.fields) "code" = m.code :=
    m.stringAt_encode (by simp [fields])
  have hexpires : unsignedAt (Json.assignAll m.fields) "expires_in" = m.expiresIn :=
    unsignedAt_of_lookup (m.lookup_encode (by simp [fields]))
  have hpeer : stringAt (Json.assignAll m.fields) "peer_id" = m.peerID :=
    m.stringAt_encode (by simp [fields])
  have hpeerKey : stringAt (Json.assignAll m.fields) "peer_static_key" = m.peerStaticKey :=
    m.stringAt_encode (by simp [fields])
  have honline : boolAt (Json.assignAll m.fields) "online" = m.online :=
    boolAt_of_lookup (m.lookup_encode (by simp [fields]))
  have hmessage : stringAt (Json.assignAll m.fields) "message" = m.message :=
    m.stringAt_encode (by simp [fields])
  rw [decodeMembers, m.peersAt_encode, m.protocolVersion_encode, hdevice, hstatic, hcode, hexpires,
    hpeer, hpeerKey, honline, hmessage]
  rfl

variable {Text : Type}

/-- A control frame is read as it was written, if `parse` undoes `dump` on the document of the frame. -/
theorem decode_encode (dump : Document → Text) (parse : Text → Option Document) (m : WireMessage)
    (hlib : parse (dump (.obj (Json.assignAll m.fields))) = some (.obj (Json.assignAll m.fields))) :
    decode parse (m.encode dump) = .ok (some m) := by
  have htype : (Json.assignAll m.fields).lookup "type" = some (.str m.type) :=
    m.lookup_encode (by simp [fields])
  rw [decode, encode, hlib]
  simp only [htype, m.decodeMembers_encode]
  rfl

/-- A welcome with one peer. -/
def welcomeB : WireMessage :=
  { type := "welcome", protocolVersion := some 1, peers := some [⟨"b", "k"⟩] }

/-- The welcome as it is written. -/
def welcomeText : String :=
  "\x7b\"peers\":[\x7b\"id\":\"b\",\"static_key\":\"k\"\x7d],\"protocol_version\":1,\"type\":\"welcome\"\x7d"

/-- The document of that text, and of no other. -/
def parseWelcome (text : String) : Option Document :=
  if text = welcomeText then
    some (.obj [("peers", .arr [.obj [("id", .str "b"), ("static_key", .str "k")]]),
      ("protocol_version", .num (.unsigned 1)), ("type", .str "welcome")])
  else none

theorem decode_encode_welcome :
    decode parseWelcome (encode (fun _ => welcomeText) welcomeB) = .ok (some welcomeB) :=
  decode_encode (fun _ => welcomeText) parseWelcome welcomeB rfl

end roundTrip

/-! ## What others write -/

section grammar

/-- `e` is the entry of the peer `p`. -/
def IsPeer (p : WirePeer) (e : Document) : Prop :=
  ∃ members, e = .obj members ∧ members.lookup "id" = some (.str p.id) ∧
    members.lookup "static_key" = some (.str p.staticKey)

/-- The message of an object: a field is set to a value exactly if the object has it under the key
of the field. -/
structure Conforms (members : List (String × Document)) (m : WireMessage) : Prop where
  type : members.lookup "type" = some (.str m.type)
  protocolVersion : ∀ v, m.protocolVersion = some v ↔
    members.lookup "protocol_version" = some (.num (.unsigned v.toUInt64))
  deviceID : ∀ v, m.deviceID = some v ↔ members.lookup "device_id" = some (.str v)
  peers : ∀ peers, m.peers = some peers ↔
    ∃ entries, members.lookup "peers" = some (.arr entries) ∧ List.Forall₂ IsPeer peers entries
  staticKey : ∀ v, m.staticKey = some v ↔ members.lookup "static_key" = some (.str v)
  code : ∀ v, m.code = some v ↔ members.lookup "code" = some (.str v)
  expiresIn : ∀ v, m.expiresIn = some v ↔
    members.lookup "expires_in" = some (.num (.unsigned v))
  peerID : ∀ v, m.peerID = some v ↔ members.lookup "peer_id" = some (.str v)
  peerStaticKey : ∀ v, m.peerStaticKey = some v ↔
    members.lookup "peer_static_key" = some (.str v)
  online : ∀ v, m.online = some v ↔ members.lookup "online" = some (.bool v)
  message : ∀ v, m.message = some v ↔ members.lookup "message" = some (.str v)

/-- What a decoder may answer to a document: nothing is thrown, there is no message exactly if the
document is not an object with a `type`, and else it is the message of the object. -/
def Grammar (doc : Option Document) : Except JsonError (Option WireMessage) → Prop
  | .error _ => False
  | .ok none => ∀ members type, doc = some (.obj members) →
      members.lookup "type" ≠ some (.str type)
  | .ok (some m) => ∃ members, doc = some (.obj members) ∧ Conforms members m

/-- A version that fits into 32 bits, if there is one. -/
def VersionFits (members : List (String × Document)) : Prop :=
  ∀ n : UInt64, members.lookup "protocol_version" = some (.num (.unsigned n)) → n.toNat < 2 ^ 32

/-- Every entry of `peers` is a peer, if that is an array. -/
def PeersFit (members : List (String × Document)) : Prop :=
  ∀ entries, members.lookup "peers" = some (.arr entries) → ∀ e ∈ entries, ∃ p, IsPeer p e

lemma stringAt_eq_some {v : String} :
    stringAt members key = some v ↔ members.lookup key = some (.str v) := by
  unfold stringAt
  split <;> simp_all

lemma unsignedAt_eq_some {v : UInt64} :
    unsignedAt members key = some v ↔ members.lookup key = some (.num (.unsigned v)) := by
  unfold unsignedAt
  split <;> simp_all

lemma boolAt_eq_some {v : Bool} :
    boolAt members key = some v ↔ members.lookup key = some (.bool v) := by
  unfold boolAt
  split <;> cases v <;> simp_all

/-- The low 32 bits are the number itself if it fits. -/
lemma version_iff : VersionFits members ↔
    ∀ v, (unsignedAt members "protocol_version").map UInt64.toUInt32 = some v ↔
      members.lookup "protocol_version" = some (.num (.unsigned v.toUInt64)) := by
  constructor
  · intro hfits v
    rw [Option.map_eq_some_iff]
    constructor
    · rintro ⟨n, hn, rfl⟩
      have hlookup := unsignedAt_eq_some.mp hn
      have hback : n.toUInt32.toUInt64 = n := by
        apply UInt64.toNat_inj.mp
        have := hfits n hlookup
        simp
        omega
      rw [hback]
      exact hlookup
    · intro hlookup
      exact ⟨v.toUInt64, unsignedAt_eq_some.mpr hlookup, UInt32.toUInt32_toUInt64 v⟩
  · intro h n hn
    have hlookup := (h n.toUInt32).mp (by rw [unsignedAt_eq_some.mpr hn]; rfl)
    have heq : n = n.toUInt32.toUInt64 := by
      rw [hn] at hlookup
      simpa using hlookup
    rw [heq]
    exact n.toUInt32.toNat_lt

/-- Entries that are peers are decoded as what they are. -/
lemma decodePeers_of_isPeer {peers : List WirePeer} {entries : List Document}
    (h : List.Forall₂ IsPeer peers entries) : decodePeers entries = .ok peers := by
  induction h with
  | nil => rfl
  | cons hp _ ih =>
    obtain ⟨members, rfl, hid, hkey⟩ := hp
    rw [decodePeers, value_of_lookup hid, value_of_lookup hkey, ih]
    rfl

lemma exists_forall₂_iff {entries : List Document} :
    (∃ peers, List.Forall₂ IsPeer peers entries) ↔ ∀ e ∈ entries, ∃ p, IsPeer p e := by
  induction entries with
  | nil => simp
  | cons e entries ih =>
    rw [List.forall_mem_cons, ← ih]
    constructor
    · rintro ⟨_, h⟩
      cases h with
      | cons hp hrest => exact ⟨⟨_, hp⟩, _, hrest⟩
    · rintro ⟨⟨p, hp⟩, peers, hrest⟩
      exact ⟨p :: peers, .cons hp hrest⟩

/-- The field `peers` is read exactly if every entry is a peer. -/
lemma peers_iff : PeersFit members ↔ ∃ o, peersAt members = .ok o ∧
    ∀ peers, o = some peers ↔
      ∃ entries, members.lookup "peers" = some (.arr entries) ∧ List.Forall₂ IsPeer peers entries := by
  by_cases harr : ∃ entries, members.lookup "peers" = some (.arr entries)
  · obtain ⟨entries, hlookup⟩ := harr
    have hat : peersAt members = (decodePeers entries).map some := by rw [peersAt, hlookup]
    constructor
    · intro hfit
      obtain ⟨l, hl⟩ := exists_forall₂_iff.mpr (hfit entries hlookup)
      refine ⟨some l, by rw [hat, decodePeers_of_isPeer hl]; rfl, fun peers => ?_⟩
      constructor
      · rintro ⟨⟩
        exact ⟨entries, hlookup, hl⟩
      · rintro ⟨entries', hlookup', hpeers⟩
        cases hlookup.symm.trans hlookup'
        have := (decodePeers_of_isPeer hl).symm.trans (decodePeers_of_isPeer hpeers)
        rw [Except.ok.inj this]
    · rintro ⟨o, ho, hiff⟩ entries' hlookup'
      cases hlookup.symm.trans hlookup'
      rw [hat] at ho
      cases hdec : decodePeers entries with
      | error e =>
        rw [hdec] at ho
        cases ho
      | ok l =>
        rw [hdec] at ho
        cases ho
        obtain ⟨entries', hlookup', hl⟩ := (hiff l).mp rfl
        cases hlookup.symm.trans hlookup'
        exact exists_forall₂_iff.mp ⟨l, hl⟩
  · have hat : peersAt members = .ok none := by
      unfold peersAt
      split
      · rename_i entries hlookup
        exact absurd ⟨entries, hlookup⟩ harr
      · rfl
    constructor
    · intro _
      refine ⟨none, hat, fun peers => ⟨fun h => (by cases h), ?_⟩⟩
      rintro ⟨entries, hlookup, -⟩
      exact absurd ⟨entries, hlookup⟩ harr
    · intro _ entries hlookup
      exact absurd ⟨entries, hlookup⟩ harr

/-- The message of the members, apart from the two fields that are not always read. -/
lemma decodeMembers_conforms_iff {type : String}
    (htype : members.lookup "type" = some (.str type)) :
    (∃ m, decodeMembers type members = .ok m ∧ Conforms members m) ↔
      VersionFits members ∧ PeersFit members := by
  rw [version_iff, peers_iff]
  constructor
  · rintro ⟨m, hm, hconf⟩
    rw [decodeMembers] at hm
    cases ho : peersAt members with
    | error e =>
      rw [ho] at hm
      cases hm
    | ok o =>
      rw [ho] at hm
      cases hm
      exact ⟨hconf.protocolVersion, o, rfl, hconf.peers⟩
  · rintro ⟨hversion, o, ho, hpeers⟩
    exact ⟨_, by rw [decodeMembers, ho]; rfl, htype, hversion, fun _ => stringAt_eq_some, hpeers,
      fun _ => stringAt_eq_some, fun _ => stringAt_eq_some, fun _ => unsignedAt_eq_some,
      fun _ => stringAt_eq_some, fun _ => stringAt_eq_some, fun _ => boolAt_eq_some,
      fun _ => stringAt_eq_some⟩

variable {Text : Type}

/-- `Decode` answers to a text what the grammar asks for exactly if it is no control frame, or its
version fits into 32 bits and its `peers` are peers. -/
theorem decode_grammar_iff (parse : Text → Option Document) (text : Text) :
    Grammar (parse text) (decode parse text) ↔
      ∀ members type, parse text = some (.obj members) →
        members.lookup "type" = some (.str type) → VersionFits members ∧ PeersFit members := by
  by_cases hframe : ∃ members type, parse text = some (.obj members) ∧
      members.lookup "type" = some (.str type)
  · obtain ⟨members, type, hparse, htype⟩ := hframe
    have hdec : decode parse text = (decodeMembers type members).map some := by
      rw [decode, hparse]
      simp only [htype]
    have hgrammar : Grammar (parse text) (decode parse text) ↔
        ∃ m, decodeMembers type members = .ok m ∧ Conforms members m := by
      rw [hdec, hparse]
      cases decodeMembers type members with
      | error e => simp [Grammar, Except.map]
      | ok m => simp [Grammar, Except.map]
    rw [hgrammar, decodeMembers_conforms_iff htype]
    constructor
    · intro h members' type' hparse' _
      cases hparse.symm.trans hparse'
      exact h
    · intro h
      exact h members type hparse htype
  · have hdec : decode parse text = .ok none := by
      unfold decode
      split
      · rename_i members hparse
        split
        · rename_i type htype
          exact absurd ⟨members, type, hparse, htype⟩ hframe
        · rfl
      · rfl
    rw [hdec]
    refine iff_of_true ?_ ?_
    · intro members type hparse htype
      exact hframe ⟨members, type, hparse, htype⟩
    · intro members type hparse htype
      exact absurd ⟨members, type, hparse, htype⟩ hframe

/-- A peer whose `id` is a number makes `Decode` throw, one that is no object is passed over, and a
version of `2 ^ 32 + 1` is read as 1. -/
theorem decode_not_grammar :
    decode some (.obj [("peers", .arr [.obj [("id", .num (.unsigned 1))]]), ("type", .str "welcome")])
        = .error .typeError ∧
      decode some (.obj [("protocol_version", .num (.unsigned 4294967297)), ("type", .str "welcome")])
        = .ok (some { type := "welcome", protocolVersion := some 1 }) ∧
      decode some (.obj [("peers", .arr [.null]), ("type", .str "welcome")])
        = .ok (some { type := "welcome", peers := some [] }) := by
  decide

end grammar

end Relayly.Sdk.Cpp.WireMessage
