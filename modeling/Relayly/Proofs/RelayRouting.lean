import Relayly.Lib.Ownership
import Relayly.Lib.Run
import Relayly.Proofs.RelayGhost
import Relayly.Proofs.RelayLinks

/-!
# Routing and the database

A link is in two rows and in up to two connections, which goroutines change one after the other. The
devices are the resources: a connection uses its own until the hub has registered it, and a goroutine
that changes a link uses the two devices of it. At rest, the registered connection of a device says
what its row says.
-/

namespace Relayly.Relay

/-- How far the change of a link has come: the rows, the connection of the goroutine itself, and the
connection that it has found for the peer. -/
inductive Phase
  | rows
  | mine
  | found (peer : ℕ)

/-- A change of the link between a device and `peer`, to what their rows now say. -/
structure Change where
  peer : String
  mine : String
  theirs : String
  phase : Phase

def Pc.change (deviceID : String) : Pc → Option Change
  | .pairAccept (.myKey _ r) | .pairAccept (.requesterKey _ r _)
  | .pairAccept (.setPeer _ r _ _) => some ⟨r, r, deviceID, .rows⟩
  | .pairAccept (.complete _ r _ _) | .pairAccept (.lookup _ r _) => some ⟨r, r, deviceID, .mine⟩
  | .pairAccept (.setRequester _ r _ t) => some ⟨r, r, deviceID, .found t⟩
  | .unpair (.setPeer p) => some ⟨p, "", "", .rows⟩
  | .unpair (.unpaired p) | .unpair (.lookup p) => some ⟨p, "", "", .mine⟩
  | .unpair (.clearPeer p t) => some ⟨p, "", "", .found t⟩
  | _ => none

def Pc.isRegister : Pc → Bool
  | .register _ => true
  | _ => false

/-- The peer of the link that the next step of a goroutine begins to change. -/
def Conn.opens (conn : Conn) : Option String :=
  match conn.pc with
  | .pairAccept (.pairDevices _ r) => some r
  | .unpair .peer => some conn.pairedWith
  | _ => none

namespace Server

variable {s s' : Server} {c : ℕ} {conn : Conn} {d : String}

/-- The hub has not registered `c` yet. -/
def Awaits (s : Server) (c : ℕ) (pc : Pc) : Prop :=
  pc.isRegister = true ∨ c ∈ s.registerCh ∨ s.hub = .register c

instance (s : Server) (c : ℕ) (pc : Pc) : Decidable (s.Awaits c pc) :=
  inferInstanceAs (Decidable (_ ∨ _ ∨ _))

/-- `c` awaits its registration for `d`, or is changing a link of `d`. -/
def Uses (s : Server) (c : ℕ) (d : String) : Prop :=
  ∃ x ∈ s.seen c, (d = x.1 ∧ (s.Awaits c x.2 ∨ x.2.linking.isSome)) ∨ (d ≠ "" ∧ x.2.linking = some d)

instance (s : Server) (c : ℕ) (d : String) : Decidable (s.Uses c d) :=
  match h : s.seen c with
  | none => isFalse fun ⟨x, hx, _⟩ => by simp [h] at hx
  | some x => decidable_of_iff ((d = x.1 ∧ (s.Awaits c x.2 ∨ x.2.linking.isSome))
      ∨ (d ≠ "" ∧ x.2.linking = some d)) (by simp [Uses, h])

/-- A link of `d` is being changed or read for a registration. -/
def Busy (s : Server) (d : String) : Prop := ∃ c < s.conns.length, s.Uses c d

instance (s : Server) (d : String) : Decidable (s.Busy d) :=
  inferInstanceAs (Decidable (∃ c < s.conns.length, s.Uses c d))

/-- What concerns the link of a device is done by its registered connection, and begins when nothing
else that does is under way. -/
def Serial (s : Server) : Label → Prop
  | .connect deviceID _ _ _ => ¬ s.Busy deviceID
  | .handler c _ => ∀ conn ∈ s.conns[c]?, ∀ peer ∈ conn.opens,
      s.clients conn.deviceID = some c ∧ ¬ s.Busy conn.deviceID ∧ ¬ s.Busy peer
  | _ => True

instance (s : Server) : (l : Label) → Decidable (s.Serial l)
  | .connect deviceID _ _ _ => inferInstanceAs (Decidable (¬ s.Busy deviceID))
  | .handler c _ => inferInstanceAs (Decidable (∀ conn ∈ s.conns[c]?, ∀ peer ∈ conn.opens,
      s.clients conn.deviceID = some c ∧ ¬ s.Busy conn.deviceID ∧ ¬ s.Busy peer))
  | .receive .. | .disconnect _ | .write _ | .takeRegister | .takeUnregister | .hub => isTrue trivial

/-- No connection but `c` is registered for `d`. -/
def Only (s : Server) (d : String) (c : ℕ) : Prop := ∀ c', s.clients d = some c' → c' = c

/-- The registered connection of `d` says what its row says. -/
def Rest (s : Server) (d : String) : Prop :=
  ∀ c conn, s.clients d = some c → s.conns[c]? = some conn → conn.pairedWith = s.devices.link d

structure Changed (s : Server) (c : ℕ) (conn : Conn) (x : Change) : Prop where
  mine : s.devices.link conn.deviceID = x.mine
  theirs : x.peer ≠ "" → s.devices.link x.peer = x.theirs
  only : s.Only conn.deviceID c
  set : x.phase ≠ .rows → conn.pairedWith = x.mine
  found : ∀ t, x.phase = .found t → x.peer ≠ "" ∧ s.Only x.peer t

/-- `UnpairDevice` is to be called, and nothing has changed yet. -/
structure Unpairing (s : Server) (c : ℕ) (conn : Conn) (peer : String) : Prop where
  link : s.devices.link conn.deviceID = peer
  only : s.Only conn.deviceID c
  pairedWith : conn.pairedWith = peer
  rest : peer ≠ "" → s.Rest peer

/-- What a goroutine knows of the devices that it uses. -/
structure Stage (s : Server) (c : ℕ) (conn : Conn) : Prop where
  awaits : s.Awaits c conn.pc → conn.pairedWith = s.devices.link conn.deviceID
    ∧ conn.pc.linking = none
  changed : ∀ x, conn.pc.change conn.deviceID = some x → s.Changed c conn x
  unpairing : ∀ p, conn.pc = .unpair (.unpairDevice p) → s.Unpairing c conn p

def links : Ownership.Discipline Server ℕ String where
  uses := Uses
  stage s c := ∀ conn, s.conns[c]? = some conn → s.Stage c conn
  rest := Rest

/-- The link of `d`, and what its connections say of it, stay as they are; its connection may leave. -/
structure Same (s s' : Server) (d : String) : Prop where
  link : s'.devices.link d = s.devices.link d
  clients : ∀ c, s'.clients d = some c → s.clients d = some c
  conns : ∀ (c : ℕ) (conn' : Conn), s'.conns[c]? = some conn' → conn'.deviceID = d →
    ∃ conn : Conn, s.conns[c]? = some conn ∧ conn.pairedWith = conn'.pairedWith

theorem Rest.same (h : s.Rest d) (hk : s'.Keyed) (hs : s.Same s' d) : s'.Rest d := by
  intro c conn' hc hconn'
  obtain ⟨conn, hconn, hp⟩ := hs.conns c conn' hconn' (hk.device hc hconn')
  rw [hs.link, ← hp]
  exact h c conn (hs.clients c hc) hconn

theorem Only.same (h : s.Only d c) (hs : s.Same s' d) : s'.Only d c :=
  fun c' hc' => h c' (hs.clients c' hc')

theorem linking_of_change {pc : Pc} {x : Change} (h : pc.change d = some x) :
    pc.linking = some x.peer := by
  unfold Pc.change at h
  split at h <;> cases h <;> rfl

theorem Uses.of_awaits (hc : s.conns[c]? = some conn) (h : s.Awaits c conn.pc) :
    s.Uses c conn.deviceID := ⟨_, seen_of_conn hc, Or.inl ⟨rfl, Or.inl h⟩⟩

theorem Uses.of_linking (hc : s.conns[c]? = some conn) {p : String} (h : conn.pc.linking = some p) :
    s.Uses c conn.deviceID ∧ (p ≠ "" → s.Uses c p) :=
  ⟨⟨_, seen_of_conn hc, Or.inl ⟨rfl, Or.inr (by simp [h])⟩⟩,
    fun hp => ⟨_, seen_of_conn hc, Or.inr ⟨hp, h⟩⟩⟩

/-- The stage of a goroutine that does not move holds as long as what it uses stays the same. -/
theorem Stage.frame (h : ∀ conn, s.conns[c]? = some conn → s.Stage c conn) (hk : s'.Keyed)
    (hseen : s'.seen c = s.seen c) (ha : ∀ pc, s'.Awaits c pc → s.Awaits c pc)
    (hs : ∀ d, s.Uses c d → s.Same s' d) : ∀ conn, s'.conns[c]? = some conn → s'.Stage c conn := by
  intro conn' hc'
  obtain ⟨conn, hc, hx⟩ := Option.map_eq_some_iff.1 (hseen.symm.trans (seen_of_conn hc'))
  obtain ⟨hd, hpc⟩ := Prod.mk.inj hx
  have hst := h conn hc
  have hpaired : s.Uses c conn.deviceID → conn'.pairedWith = conn.pairedWith := by
    intro hu
    obtain ⟨conn₀, hc₀, hp⟩ := (hs _ hu).conns c conn' hc' hd.symm
    obtain rfl : conn = conn₀ := Option.some.inj (hc.symm.trans hc₀)
    exact hp.symm
  refine ⟨fun haw => ?_, fun x hx => ?_, fun p hp => ?_⟩
  · rw [← hpc] at haw ⊢
    have hu := Uses.of_awaits hc (ha _ haw)
    obtain ⟨h1, h2⟩ := hst.awaits (ha _ haw)
    exact ⟨by rw [hpaired hu, ← hd, (hs _ hu).link, h1], h2⟩
  · rw [← hpc, ← hd] at hx
    obtain ⟨hu, hup⟩ := Uses.of_linking hc (linking_of_change hx)
    have hch := hst.changed x hx
    refine ⟨?_, fun hne => ?_, ?_, fun hph => ?_, fun t ht => ?_⟩
    · rw [← hd, (hs _ hu).link, hch.mine]
    · rw [(hs _ (hup hne)).link, hch.theirs hne]
    · rw [← hd]
      exact hch.only.same (hs _ hu)
    · rw [hpaired hu, hch.set hph]
    · obtain ⟨hne, hot⟩ := hch.found t ht
      exact ⟨hne, hot.same (hs _ (hup hne))⟩
  · have hlink : conn.pc.linking = some p := by
      rw [hpc, hp]
      rfl
    obtain ⟨hu, hup⟩ := Uses.of_linking hc hlink
    have hun := hst.unpairing p (hpc.trans hp)
    refine ⟨?_, ?_, ?_, fun hne => (hun.rest hne).same hk (hs _ (hup hne))⟩
    · rw [← hd, (hs _ hu).link, hun.link]
    · rw [← hd]
      exact hun.only.same (hs _ hu)
    · rw [hpaired hu, hun.pairedWith]

end Server

section

variable {s : Server} {c : ℕ} {conn : Conn} {a : Access} {pc : Pc}

theorem Pc.Ordinary.isRegister (h : pc.Ordinary) : pc.isRegister = false := by
  cases pc <;> first | rfl | cases h

theorem startWelcome_isRegister (device : Device) : (startWelcome device).isRegister = false := by
  unfold startWelcome
  split <;> rfl

/-- Only a send on `Register` ends the stage before it. -/
def Registering (c : ℕ) (conn : Conn) (a : Access) (pc : Pc) : Prop :=
  pc.isRegister = false ∧ (conn.pc.isRegister = false ∧ a.registers = []
    ∨ conn.pc.isRegister = true ∧ a.registers = [c])

theorem Exec.registering (hx : Exec s c conn a pc) : Registering c conn a pc := by
  cases hx with
  | ordinary h ha hpc => exact ⟨hpc.isRegister, Or.inl ⟨h.isRegister, by cases ha <;> rfl⟩⟩
  | register device h => exact ⟨startWelcome_isRegister device, Or.inr ⟨by rw [h]; rfl, rfl⟩⟩
  | _ => exact ⟨rfl, Or.inl ⟨by simp only [*]; rfl, rfl⟩⟩

theorem dispatch_isRegister (c : ℕ) (frame : Inbound) : (dispatch c frame).isRegister = false := by
  cases frame <;> simp only [dispatch] <;> (try split_ifs) <;> rfl

theorem dispatch_linking (c : ℕ) (frame : Inbound) : (dispatch c frame).linking = none := by
  cases frame <;> simp only [dispatch] <;> (try split_ifs) <;> rfl

end

/-- An access that changes no link. -/
def Access.Quiet (t : Devices) (a : Access) : Prop :=
  (∀ d, (a.devicesAfter t).link d = t.link d) ∧ ∀ c id, a ≠ .setPeer c id

theorem Access.Plain.peer {a : Access} {t : Devices} (h : a.Plain t) (d : String) :
    (a.devicesAfter t).peer d = t.peer d := by
  cases h with
  | devices t' h => exact Devices.peer_of_pairedWith (h d)
  | _ => rfl

theorem Access.Plain.quiet {a : Access} {t : Devices} (h : a.Plain t) : a.Quiet t :=
  ⟨fun d => by rw [Devices.link_eq, Devices.link_eq, h.peer], by cases h <;> nofun⟩

theorem Access.Plain.wellFormed {a : Access} {t : Devices} (h : a.Plain t) (hw : t.WellFormed) :
    (a.devicesAfter t).WellFormed := by
  refine ⟨?_, fun {x y} hxy => ?_⟩
  · cases h with
    | devices t' h => simpa [hw.named, Access.devicesAfter] using h ""
    | _ => exact hw.named
  · rw [h.peer] at hxy ⊢
    exact hw.symmetric hxy

theorem Exec.wellFormed {s : Server} {c : ℕ} {conn : Conn} {a : Access} {pc : Pc}
    (hx : Exec s c conn a pc) (hw : s.devices.WellFormed) :
    (a.devicesAfter s.devices).WellFormed := by
  cases hx with
  | ordinary _ ha _ => exact ha.wellFormed hw
  | pair code r t h ht => exact hw.pairDevices ht
  | unpair p h => exact hw.unpairDevice _
  | _ => exact hw

theorem startWelcome_linking (device : Device) : (startWelcome device).linking = none := by
  unfold startWelcome
  split <;> rfl

namespace Server

section Advance

variable {s s' : Server} {c : ℕ} {conn : Conn} {a : Access} {pc : Pc} {d : String}

theorem awaits_self (hx : Registering c conn a pc) :
    (s.advance c a pc).Awaits c pc ↔ s.Awaits c conn.pc := by
  obtain ⟨hpc, ⟨hcpc, hreg⟩ | ⟨hcpc, hreg⟩⟩ := hx <;>
    simp [Awaits, hpc, hcpc, hreg]

theorem awaits_other (hx : Registering c conn a pc) {c' : ℕ} (hne : c' ≠ c) (q : Pc) :
    (s.advance c a pc).Awaits c' q ↔ s.Awaits c' q := by
  obtain ⟨-, ⟨-, hreg⟩ | ⟨-, hreg⟩⟩ := hx <;> simp [Awaits, hreg, hne]

theorem uses_other (hx : Registering c conn a pc) (hc : s.conns[c]? = some conn) {c' : ℕ}
    (hne : c' ≠ c) : (s.advance c a pc).Uses c' d ↔ s.Uses c' d := by
  simp only [Uses, s.seen_advance a pc hc, Function.update_of_ne hne, awaits_other hx hne]

theorem uses_self (hc : s.conns[c]? = some conn) : s.Uses c d ↔
    (d = conn.deviceID ∧ (s.Awaits c conn.pc ∨ conn.pc.linking.isSome))
      ∨ (d ≠ "" ∧ conn.pc.linking = some d) := by
  simp [Uses, seen_of_conn hc]

theorem uses_advance (hx : Registering c conn a pc) (hc : s.conns[c]? = some conn) :
    (s.advance c a pc).Uses c d ↔ (d = conn.deviceID ∧ (s.Awaits c conn.pc ∨ pc.linking.isSome))
      ∨ (d ≠ "" ∧ pc.linking = some d) := by
  simp only [Uses, s.seen_advance a pc hc, Function.update_self, Option.mem_def, Option.some.injEq,
    exists_eq_left', awaits_self hx]

/-- An access leaves the link of `d` alone unless it writes its row or sets the peer of one of its
connections. -/
theorem same_advance (hdev : (a.devicesAfter s.devices).link d = s.devices.link d)
    (hset : ∀ t id, a = .setPeer t id → ∀ conn, s.conns[t]? = some conn → conn.deviceID ≠ d) :
    s.Same (s.advance c a pc) d where
  link := by simpa using hdev
  clients c' := by simp
  conns c' conn' hc' hd := by
    rw [advance_conns] at hc'
    obtain ⟨conn, hc, rfl⟩ := Option.map_eq_some_iff.1 hc'
    have hdevice : conn.deviceID = d := by
      split_ifs at hd <;> simpa [Conn.setPc] using hd
    have hon : (a.on c' conn).pairedWith = conn.pairedWith := by
      rw [Access.on_pairedWith]
      split
      · next t id =>
        rw [if_neg]
        rintro rfl
        exact hset t id rfl conn hc hdevice
      · rfl
    refine ⟨conn, hc, ?_⟩
    split_ifs <;> simp [Conn.setPc, hon]

/-- A step of a goroutine, as a step of an agent. -/
theorem links_advance (h : links.Inv s) (hk : (s.advance c a pc).Keyed) (hx : Registering c conn a pc)
    (hc : s.conns[c]? = some conn)
    (takes : ∀ d, (s.advance c a pc).Uses c d → s.Uses c d ∨ ∀ b, ¬ s.Uses b d)
    (leaves : ∀ d, ¬ s.Uses c d → ¬ (s.advance c a pc).Uses c d → s.Same (s.advance c a pc) d)
    (stage : (s.advance c a pc).Stage c ((a.on c conn).setPc pc))
    (gives : ∀ d, s.Uses c d → ¬ (s.advance c a pc).Uses c d → (s.advance c a pc).Rest d) :
    links.Inv (s.advance c a pc) := by
  refine h.step c (fun b hb d => uses_other hx hc hb) takes leaves (fun b hb hs hst => ?_)
    (fun d hs hr => hr.same hk hs) (fun conn' hc' => ?_) gives
  · refine Stage.frame hst hk ?_ (fun q => (awaits_other hx hb q).1) hs
    rw [s.seen_advance a pc hc, Function.update_of_ne hb]
  · rw [advance_self hc, Option.some.injEq] at hc'
    exact hc' ▸ stage

theorem Changed.same {x : Change} {conn' : Conn} (h : s.Changed c conn x) (hs : ∀ d, s.Same s' d)
    (hd : conn'.deviceID = conn.deviceID) (hp : conn'.pairedWith = conn.pairedWith) :
    s'.Changed c conn' x where
  mine := by rw [hd, (hs _).link, h.mine]
  theirs hne := by rw [(hs _).link, h.theirs hne]
  only := by rw [hd]; exact h.only.same (hs _)
  set hph := by rw [hp, h.set hph]
  found t ht := ⟨(h.found t ht).1, (h.found t ht).2.same (hs _)⟩

/-- A step that changes no link, but may begin or end the use of one. -/
theorem links_quiet (h : links.Inv s) (hk : (s.advance c a pc).Keyed) (hx : Registering c conn a pc)
    (hc : s.conns[c]? = some conn) (hq : a.Quiet s.devices)
    (takes : pc.linking = conn.pc.linking ∨ pc.linking = none
      ∨ (∀ b, ¬ s.Uses b conn.deviceID) ∧ ∀ p, pc.linking = some p → p ≠ "" → ∀ b, ¬ s.Uses b p)
    (changed : ∀ x, pc.change conn.deviceID = some x → s.Changed c conn x)
    (unpairing : ∀ p, pc = .unpair (.unpairDevice p) → s.Unpairing c conn p)
    (gives : pc.linking = none → ∀ p, conn.pc.linking = some p →
      s.Rest conn.deviceID ∧ (p ≠ "" → s.Rest p)) : links.Inv (s.advance c a pc) := by
  have hs : ∀ d, s.Same (s.advance c a pc) d := fun d =>
    same_advance (hq.1 d) fun t id ha => absurd ha (hq.2 t id)
  have hpaired : ((a.on c conn).setPc pc).pairedWith = conn.pairedWith := by
    simp only [Conn.setPc, Access.on_pairedWith]
    split
    · next t id => exact absurd rfl (hq.2 t id)
    · rfl
  refine links_advance h hk hx hc (fun d hd => ?_) (fun d _ _ => hs d) ⟨fun haw => ?_, fun x hxc => ?_,
    fun p hp => ?_⟩ fun d hd hnot => ?_
  · rw [uses_advance hx hc] at hd
    rw [uses_self hc]
    rcases takes with hl | hl | ⟨hfree, hpeer⟩
    · rw [hl] at hd
      exact Or.inl hd
    · simp only [hl, Option.isSome_none, Bool.false_eq_true, or_false, reduceCtorEq,
        and_false] at hd
      exact Or.inl (Or.inl ⟨hd.1, Or.inl hd.2⟩)
    · rcases hd with ⟨rfl, -⟩ | ⟨hne, hl⟩
      · exact Or.inr hfree
      · exact Or.inr (hpeer d hl hne)
  · have haw' := (awaits_self hx).1 haw
    obtain ⟨h1, h2⟩ := (h.stage c conn hc).awaits haw'
    refine ⟨?_, ?_⟩
    · rw [hpaired, h1]
      exact ((hs _).link.trans (by simp [Conn.setPc])).symm
    · rcases takes with hl | hl | ⟨hfree, -⟩
      · exact hl.trans h2
      · exact hl
      · exact absurd (Uses.of_awaits hc haw') (hfree c)
  · exact (changed x (by simpa [Conn.setPc] using hxc)).same hs (by simp [Conn.setPc]) hpaired
  · obtain ⟨h1, h2, h3, h4⟩ := unpairing p hp
    have hd : ((a.on c conn).setPc pc).deviceID = conn.deviceID := by simp [Conn.setPc]
    exact ⟨by rw [hd, (hs _).link, h1], by rw [hd]; exact h2.same (hs _), hpaired.trans h3,
      fun hne => (h4 hne).same hk (hs _)⟩
  · rw [uses_advance hx hc, not_or, not_and, not_and] at hnot
    rcases (uses_self hc).1 hd with ⟨rfl, haw | hlin⟩ | ⟨hne, hl⟩
    · exact absurd (Or.inl haw) (hnot.1 rfl)
    · have hnone : pc.linking = none := by
        rw [← Option.not_isSome_iff_eq_none]
        exact fun hsome => hnot.1 rfl (Or.inr hsome)
      obtain ⟨p, hp⟩ := Option.isSome_iff_exists.1 hlin
      exact (gives hnone p hp).1.same hk (hs _)
    · have hnone : pc.linking = none := by
        rcases takes with hl' | hl' | ⟨hfree, -⟩
        · exact absurd (hl'.trans hl) (hnot.2 hne)
        · exact hl'
        · exact absurd (Uses.of_linking hc hl).1 (hfree c)
      exact ((gives hnone d hl).2 hne).same hk (hs _)

/-- `setPeer` on the connection of the goroutine itself. -/
theorem links_setMine (h : links.Inv s) (hk : (s.advance c a pc).Keyed) (hx : Registering c conn a pc)
    (hc : s.conns[c]? = some conn) {x : Change} (hch : conn.pc.change conn.deviceID = some x)
    (ha : a = .setPeer c x.mine)
    (hch' : pc.change conn.deviceID = some { x with phase := .mine }) :
    links.Inv (s.advance c a pc) := by
  have hlin := linking_of_change hch
  have hlin' := linking_of_change hch'
  dsimp only at hlin'
  have hold := (h.stage c conn hc).changed x hch
  have huses : ∀ d, (s.advance c a pc).Uses c d ↔ s.Uses c d := by
    intro d
    rw [uses_advance hx hc, uses_self hc, hlin, hlin']
  have hdev : a.devicesAfter s.devices = s.devices := by rw [ha]; rfl
  refine links_advance h hk hx hc (fun d hd => Or.inl ((huses d).1 hd)) (fun d hd _ => ?_)
    ⟨fun haw => ?_, fun y hy => ?_, fun p hp => ?_⟩ fun d hd hnot => absurd ((huses d).2 hd) hnot
  · refine same_advance (by rw [hdev]) fun t id heq conn' hc' hd' => hd ?_
    rw [ha] at heq
    cases heq
    obtain rfl : conn = conn' := Option.some.inj (hc.symm.trans hc')
    exact hd' ▸ (Uses.of_linking hc hlin).1
  · obtain ⟨-, hnone⟩ := (h.stage c conn hc).awaits ((awaits_self hx).1 haw)
    rw [hlin] at hnone
    cases hnone
  · have hd : ((a.on c conn).setPc pc).deviceID = conn.deviceID := by simp [Conn.setPc]
    obtain rfl : { x with phase := Phase.mine } = y :=
      Option.some.inj (hch'.symm.trans (by simpa [Conn.setPc] using hy))
    refine ⟨?_, fun hne => ?_, ?_, fun _ => ?_, by simp⟩
    · rw [hd, advance_devices, hdev, hold.mine]
    · rw [advance_devices, hdev, hold.theirs hne]
    · rw [hd]
      intro c' hc'
      exact hold.only c' (by simpa using hc')
    · simp [ha, Conn.setPc, Access.on, Conn.setPeer]
  · have hpc : pc = .unpair (.unpairDevice p) := hp
    rw [hpc] at hch'
    cases hch'

/-- `setPeer` on the connection of the peer is the last change. -/
theorem links_setTheirs (h : links.Inv s) (hk : (s.advance c a pc).Keyed) (hx : Registering c conn a pc)
    (hc : s.conns[c]? = some conn) {x : Change} {t : ℕ}
    (hch : conn.pc.change conn.deviceID = some x) (hph : x.phase = .found t)
    (ht : ∀ conn', s.conns[t]? = some conn' → conn'.deviceID = x.peer)
    (ha : a = .setPeer t x.theirs) (hlin' : pc.linking = none) :
    links.Inv (s.advance c a pc) := by
  have hlin := linking_of_change hch
  have hold := (h.stage c conn hc).changed x hch
  obtain ⟨hne, honly⟩ := hold.found t hph
  have hno : ¬ s.Awaits c conn.pc := by
    intro haw
    obtain ⟨-, hnone⟩ := (h.stage c conn hc).awaits haw
    rw [hlin] at hnone
    cases hnone
  have hdev : a.devicesAfter s.devices = s.devices := by rw [ha]; rfl
  have hconn : ∀ c' conn', (s.advance c a pc).conns[c']? = some conn' → ∃ conn₀,
      s.conns[c']? = some conn₀
        ∧ conn'.pairedWith = if t = c' then x.theirs else conn₀.pairedWith := by
    intro c' conn' hc'
    rw [advance_conns] at hc'
    obtain ⟨conn₀, hc₀, rfl⟩ := Option.map_eq_some_iff.1 hc'
    refine ⟨conn₀, hc₀, ?_⟩
    split_ifs <;> simp_all [Conn.setPc, Access.on, Conn.setPeer]
  refine links_advance h hk hx hc (fun d hd => ?_) (fun d hd _ => ?_)
    ⟨fun haw => ?_, fun y hy => ?_, fun p hp => ?_⟩ fun d hd _ => ?_
  · rw [uses_advance hx hc] at hd
    simp [hlin', hno] at hd
  · refine same_advance (by rw [hdev]) fun t' id heq conn' hc' hd' => hd ?_
    rw [ha] at heq
    cases heq
    rw [← hd', ht conn' hc']
    exact (Uses.of_linking hc hlin).2 hne
  · exact absurd ((awaits_self hx).1 haw) hno
  · have hy' : pc.change conn.deviceID = some y := by simpa [Conn.setPc] using hy
    rw [linking_of_change hy'] at hlin'
    cases hlin'
  · have hpc : pc = .unpair (.unpairDevice p) := hp
    rw [hpc] at hlin'
    cases hlin'
  · intro c' conn' hcl hc'
    rw [advance_clients] at hcl
    obtain ⟨conn₀, hc₀, hp⟩ := hconn c' conn' hc'
    rw [hp, advance_devices, hdev]
    rcases (uses_self hc).1 hd with ⟨rfl, -⟩ | ⟨-, hl⟩
    · obtain rfl := hold.only c' hcl
      obtain rfl : conn = conn₀ := Option.some.inj (hc.symm.trans hc₀)
      split_ifs with htc
      · subst htc
        rw [ht conn hc, hold.theirs hne]
      · rw [hold.set (by simp [hph]), hold.mine]
    · obtain rfl : x.peer = d := Option.some.inj (hlin.symm.trans hl)
      obtain rfl := honly c' hcl
      rw [if_pos rfl, hold.theirs hne]

/-- `PairDevices` has linked two devices that nothing else was using. -/
theorem links_pair (h : links.Inv s) (hw : s.devices.WellFormed) {code r : String} {t : Devices}
    (hk : (s.advance c (.devices t) (.pairAccept (.myKey code r))).Keyed)
    (hx : Registering c conn (.devices t) (.pairAccept (.myKey code r))) (hc : s.conns[c]? = some conn)
    (hpc : conn.pc.linking = none) (ht : s.devices.pairDevices r conn.deviceID = .ok t)
    (hcl : s.clients conn.deviceID = some c) (hfree : ∀ b, ¬ s.Uses b conn.deviceID)
    (hfree' : ∀ b, ¬ s.Uses b r) :
    links.Inv (s.advance c (.devices t) (.pairAccept (.myKey code r))) := by
  obtain ⟨hsome, hr, hd, hpeer, hnone⟩ := Devices.pairDevices_ok ht
  have hempty : r ≠ "" := by
    rintro rfl
    simp [hw.named] at hsome
  have hmine : t.link conn.deviceID = r := by simp [Devices.link_eq, hpeer]
  have htheirs : t.link r = conn.deviceID := by
    by_cases heq : r = conn.deviceID <;> simp [Devices.link_eq, hpeer, heq]
  refine links_advance h hk hx hc (fun d hd => ?_) (fun d _ hd => ?_)
    ⟨fun haw => ?_, fun y hy => ?_, nofun⟩ fun d hd _ => ?_
  · rcases (uses_advance hx hc).1 hd with ⟨rfl, -⟩ | ⟨-, hl⟩
    · exact Or.inr hfree
    · cases hl
      exact Or.inr hfree'
  · have hne : d ≠ conn.deviceID := by
      rintro rfl
      exact hd ((uses_advance hx hc).2 (Or.inl ⟨rfl, Or.inr rfl⟩))
    have hne' : d ≠ r := by
      rintro rfl
      exact hd ((uses_advance hx hc).2 (Or.inr ⟨hempty, rfl⟩))
    refine same_advance ?_ nofun
    simp [Access.devicesAfter, Devices.link_eq, hpeer, hne, hne']
  · exact absurd (Uses.of_awaits hc ((awaits_self hx).1 haw)) (hfree c)
  · cases hy
    refine ⟨by simpa [Conn.setPc, Access.devicesAfter] using hmine,
      fun _ => by simpa [Conn.setPc, Access.devicesAfter] using htheirs, fun c' hc' => ?_,
      fun hne => absurd rfl hne, nofun⟩
    have hc'' : s.clients conn.deviceID = some c' := by simpa [Conn.setPc] using hc'
    exact Option.some.inj (hc''.symm.trans hcl)
  · rcases (uses_self hc).1 hd with ⟨rfl, -⟩ | ⟨-, hl⟩
    · exact absurd hd (hfree c)
    · rw [hpc] at hl
      cases hl

/-- `UnpairDevice` has cleared the rows of a device and of its peer. -/
theorem links_unpair (h : links.Inv s) (hw : s.devices.WellFormed) {p : String}
    (hk : (s.advance c (.devices (s.devices.unpairDevice conn.deviceID)) (.unpair (.setPeer p))).Keyed)
    (hx : Registering c conn (.devices (s.devices.unpairDevice conn.deviceID)) (.unpair (.setPeer p)))
    (hc : s.conns[c]? = some conn) (hpc : conn.pc = .unpair (.unpairDevice p)) :
    links.Inv (s.advance c (.devices (s.devices.unpairDevice conn.deviceID))
      (.unpair (.setPeer p))) := by
  have hlin : conn.pc.linking = some p := by rw [hpc]; rfl
  have hold := (h.stage c conn hc).unpairing p hpc
  have huses : ∀ d, (s.advance c (.devices (s.devices.unpairDevice conn.deviceID))
      (.unpair (.setPeer p))).Uses c d ↔ s.Uses c d := by
    intro d
    rw [uses_advance hx hc, uses_self hc, hlin]
    rfl
  have hlink : ∀ d, (s.devices.unpairDevice conn.deviceID).link d
      = if d = conn.deviceID ∨ s.devices.peer conn.deviceID = some d then "" else s.devices.link d := by
    intro d
    rw [Devices.link_eq, hw.peer_unpairDevice]
    split_ifs <;> rfl
  refine links_advance h hk hx hc (fun d hd => Or.inl ((huses d).1 hd)) (fun d hd _ => ?_)
    ⟨fun haw => ?_, fun y hy => ?_, nofun⟩ fun d hd hnot => absurd ((huses d).2 hd) hnot
  · refine same_advance ?_ nofun
    rw [Access.devicesAfter, hlink, if_neg]
    rintro (rfl | hp)
    · exact hd (Uses.of_linking hc hlin).1
    · have hne := hw.ne_empty hp
      obtain rfl : p = d := hold.link.symm.trans ((Devices.link_eq_iff hne).2 hp)
      exact hd ((Uses.of_linking hc hlin).2 hne)
  · obtain ⟨-, hnone⟩ := (h.stage c conn hc).awaits ((awaits_self hx).1 haw)
    rw [hlin] at hnone
    cases hnone
  · cases hy
    refine ⟨?_, fun hne => ?_, fun c' hc' => hold.only c' ?_, fun hne => absurd rfl hne, nofun⟩
    · simp [Conn.setPc, Access.devicesAfter, hlink]
    · have hp : s.devices.peer conn.deviceID = some p := (Devices.link_eq_iff hne).1 hold.link
      simp [Access.devicesAfter, hlink, hp]
    · simpa [Conn.setPc] using hc'

end Advance

section Exec

variable {s : Server} {c : ℕ} {conn : Conn} {a : Access} {pc : Pc} {x : Change}

theorem not_uses_of_not_busy {d : String} (h : ¬ s.Busy d) (b : ℕ) : ¬ s.Uses b d := by
  intro hu
  obtain ⟨x, hx, -⟩ := id hu
  exact h ⟨b, seen_lt hx, hu⟩

/-- A connection that has been set to what the row of its device says. -/
theorem Changed.rest (h : s.Changed c conn x) (hc : s.conns[c]? = some conn)
    (hph : x.phase ≠ .rows) : s.Rest conn.deviceID := by
  intro c' conn' hcl hc'
  obtain rfl := h.only c' hcl
  obtain rfl : conn = conn' := Option.some.inj (hc.symm.trans hc')
  rw [h.set hph, h.mine]

theorem Changed.find (h : s.Changed c conn x) (hk : s.Keyed) {t : ℕ} (hph : x.phase = .mine)
    (ht : s.clients x.peer = some t) : s.Changed c conn { x with phase := .found t } := by
  refine ⟨h.mine, h.theirs, h.only, fun _ => h.set (by rw [hph]; nofun), fun t' ht' => ?_⟩
  cases ht'
  obtain ⟨pc, hpc⟩ := hk.clients x.peer t ht
  exact ⟨hk.named t _ _ hpc, fun c' hc' => Option.some.inj (hc'.symm.trans ht)⟩

theorem rest_of_no_client {d : String} (h : s.clients d = none) : s.Rest d := by
  intro c conn hc
  rw [h] at hc
  cases hc

theorem Unpairing.restOwn {p : String} (h : s.Unpairing c conn p) (hc : s.conns[c]? = some conn) :
    s.Rest conn.deviceID := by
  intro c' conn' hcl hc'
  obtain rfl := h.only c' hcl
  obtain rfl : conn = conn' := Option.some.inj (hc.symm.trans hc')
  rw [h.pairedWith, h.link]

/-- A step that ends the change of a link, or is not part of one. -/
theorem links_release (h : links.Inv s) (hk : (s.advance c a pc).Keyed) (hx : Registering c conn a pc)
    (hc : s.conns[c]? = some conn) (hq : a.Quiet s.devices) (hl : pc.linking = none)
    (gives : ∀ p, conn.pc.linking = some p → s.Rest conn.deviceID ∧ (p ≠ "" → s.Rest p)) :
    links.Inv (s.advance c a pc) := by
  refine links_quiet h hk hx hc hq (Or.inr (Or.inl hl)) (fun x hx' => ?_) (fun p hp => ?_)
    fun _ => gives
  · rw [linking_of_change hx'] at hl
    cases hl
  · rw [hp] at hl
    cases hl

theorem links_idle (h : links.Inv s) (hk : (s.advance c a pc).Keyed) (hx : Registering c conn a pc)
    (hc : s.conns[c]? = some conn) (hq : a.Quiet s.devices) (hl : conn.pc.linking = none)
    (hl' : pc.linking = none) : links.Inv (s.advance c a pc) :=
  links_release h hk hx hc hq hl' fun p hp => by
    rw [hl] at hp
    cases hp

/-- A step in the middle of the change of a link. -/
theorem links_within (h : links.Inv s) (hk : (s.advance c a pc).Keyed) (hx : Registering c conn a pc)
    (hc : s.conns[c]? = some conn) (hq : a.Quiet s.devices) {y : Change}
    (hch : conn.pc.change conn.deviceID = some x) (hch' : pc.change conn.deviceID = some y)
    (hpeer : y.peer = x.peer) (hy : s.Changed c conn x → s.Changed c conn y) :
    links.Inv (s.advance c a pc) := by
  have hl := linking_of_change hch
  have hl' := linking_of_change hch'
  refine links_quiet h hk hx hc hq (Or.inl (by rw [hl, hl', hpeer])) (fun z hz => ?_)
    (fun p hp => ?_) fun hnone => ?_
  · obtain rfl : y = z := Option.some.inj (hch'.symm.trans hz)
    exact hy ((h.stage c conn hc).changed x hch)
  · rw [hp] at hch'
    cases hch'
  · rw [hl'] at hnone
    cases hnone

theorem quiet_none (t : Devices) : Access.none.Quiet t := ⟨fun _ => rfl, nofun⟩

theorem quiet_enqueue (t : Devices) (c : ℕ) (frame : WsFrame) : (Access.enqueue c frame).Quiet t :=
  ⟨fun _ => rfl, nofun⟩

/-- Every step of a goroutine keeps the discipline, where the changes of a link begin in turn. -/
theorem links_exec (h : links.Inv s) (hw : s.devices.WellFormed) (hks : s.Keyed)
    (hk : (s.advance c a pc).Keyed) (hx : Exec s c conn a pc) (hc : s.conns[c]? = some conn)
    (hser : ∀ peer ∈ conn.opens,
      s.clients conn.deviceID = some c ∧ ¬ s.Busy conn.deviceID ∧ ¬ s.Busy peer) :
    links.Inv (s.advance c a pc) := by
  have hr := hx.registering
  have hstage := h.stage c conn hc
  have htarget : ∀ r t, conn.pc.target = some (r, t) →
      ∀ conn', s.conns[t]? = some conn' → conn'.deviceID = r := by
    intro r t ht conn' hc'
    obtain ⟨pc', hpc'⟩ := hks.target c _ _ (seen_of_conn hc) r t ht
    rw [seen_of_conn hc'] at hpc'
    exact (Prod.mk.inj (Option.some.inj hpc')).1
  cases hx with
  | ordinary ho ha hpc => exact links_idle h hk hr hc ha.quiet ho.linking hpc.linking
  | register device hp =>
    exact links_idle h hk hr hc ⟨fun _ => rfl, nofun⟩ (by rw [hp]; rfl) (startWelcome_linking device)
  | welcomeKey _ _ hp | welcomeLookup _ hp =>
    exact links_idle h hk hr hc (quiet_none _) (by rw [hp]; rfl) rfl
  | welcome _ hp | welcomeLinked _ _ hp | welcomeStatus _ _ hp =>
    exact links_idle h hk hr hc (quiet_enqueue ..) (by rw [hp]; rfl) rfl
  | unregister hp | close hp =>
    exact links_idle h hk hr hc ⟨fun _ => rfl, nofun⟩ (by rw [hp]; rfl) rfl
  | pair code r t hp ht =>
    obtain ⟨hcl, hfree, hfree'⟩ := hser r (by simp [Conn.opens, hp])
    exact links_pair h hw hk hr hc (by rw [hp]; rfl) ht hcl (not_uses_of_not_busy hfree)
      (not_uses_of_not_busy hfree')
  | myKey _ _ _ hp | requesterKey _ _ _ _ hp =>
    exact links_within h hk hr hc (quiet_none _) (by rw [hp]; rfl) rfl rfl id
  | complete _ _ _ _ hp =>
    exact links_within h hk hr hc (quiet_enqueue ..) (by rw [hp]; rfl) rfl rfl id
  | unpaired _ hp =>
    exact links_within h hk hr hc (quiet_enqueue ..) (by rw [hp]; rfl) rfl rfl id
  | requester _ r _ t hp ht =>
    have hch : conn.pc.change conn.deviceID = some ⟨r, r, conn.deviceID, .mine⟩ := by rw [hp]; rfl
    exact links_within h hk hr hc (quiet_none _) hch rfl rfl fun hold => hold.find hks rfl ht
  | findPeer p t hp ht =>
    have hch : conn.pc.change conn.deviceID = some ⟨p, "", "", .mine⟩ := by rw [hp]; rfl
    exact links_within h hk hr hc (quiet_none _) hch rfl rfl fun hold => hold.find hks rfl ht
  | setPeer _ _ _ _ hp => exact links_setMine h hk hr hc (by rw [hp]; rfl) rfl rfl
  | clear p hp => exact links_setMine h hk hr hc (by rw [hp]; rfl) rfl rfl
  | noRequester _ r _ hp ht =>
    refine links_release h hk hr hc (quiet_none _) rfl fun p hl => ?_
    obtain rfl : r = p := by simpa [hp, Pc.linking] using hl
    exact ⟨(hstage.changed _ (by rw [hp]; rfl)).rest hc (by simp), fun _ => rest_of_no_client ht⟩
  | noPeer q hp ht =>
    refine links_release h hk hr hc (quiet_none _) rfl fun p hl => ?_
    obtain rfl : q = p := by simpa [hp, Pc.linking] using hl
    exact ⟨(hstage.changed _ (by rw [hp]; rfl)).rest hc (by simp), fun _ => rest_of_no_client ht⟩
  | unpairedAlone hp =>
    refine links_release h hk hr hc (quiet_enqueue ..) rfl fun p hl => ?_
    obtain rfl : "" = p := by simpa [hp, Pc.linking] using hl
    exact ⟨(hstage.changed _ (by rw [hp]; rfl)).rest hc (by simp), fun hne => absurd rfl hne⟩
  | setRequester _ r _ t hp =>
    exact links_setTheirs h hk hr hc (by rw [hp]; rfl) rfl (htarget r t (by rw [hp]; rfl)) rfl rfl
  | clearPeer p t hp =>
    exact links_setTheirs h hk hr hc (by rw [hp]; rfl) rfl (htarget p t (by rw [hp]; rfl)) rfl rfl
  | peer hp =>
    obtain ⟨hcl, hfree, hfree'⟩ := hser conn.pairedWith (by simp [Conn.opens, hp])
    have hown := not_uses_of_not_busy hfree
    have hpeer := not_uses_of_not_busy hfree'
    refine links_quiet h hk hr hc (quiet_none _) (Or.inr (Or.inr ⟨hown, fun p hl _ => ?_⟩)) nofun
      (fun p hp' => ?_) nofun
    · cases hl
      exact hpeer
    · cases hp'
      exact ⟨(h.rest _ hown c conn hcl hc).symm,
        fun c' hc' => Option.some.inj (hc'.symm.trans hcl), rfl, fun _ => h.rest _ hpeer⟩
  | unpairFails p code msg hp =>
    have hun := hstage.unpairing p hp
    refine links_release h hk hr hc (quiet_none _) rfl fun q hl => ?_
    obtain rfl : p = q := by simpa [hp, Pc.linking] using hl
    exact ⟨hun.restOwn hc, hun.rest⟩
  | unpair p hp => exact links_unpair h hw hk hr hc hp

end Exec

section Step

variable {s s' : Server} {c : ℕ}

/-- No link, and no use of one, changes. -/
theorem links_same (h : links.Inv s) (hk : s'.Keyed) (hseen : s'.seen = s.seen)
    (ha : ∀ c pc, s'.Awaits c pc ↔ s.Awaits c pc) (hs : ∀ d, s.Same s' d) : links.Inv s' := by
  refine h.keep (fun c d => ?_) (fun c hst => ?_) fun d hr => Rest.same hr hk (hs d)
  · simp only [links, Uses, hseen, ha]
  · exact Stage.frame hst hk (by rw [hseen]) (fun pc => (ha c pc).1) fun d _ => hs d

theorem same_of_conns (hdev : s'.devices = s.devices)
    (hcl : ∀ d c, s'.clients d = some c → s.clients d = some c)
    (hconn : ∀ (c : ℕ) (conn' : Conn), s'.conns[c]? = some conn' →
      ∃ conn : Conn, s.conns[c]? = some conn ∧ conn.pairedWith = conn'.pairedWith) (d : String) :
    s.Same s' d where
  link := by rw [hdev]
  clients := hcl d
  conns c conn' hc' _ := hconn c conn' hc'

theorem modify_pairedWith {t : ℕ} {f : Conn → Conn} (hf : ∀ conn, (f conn).pairedWith = conn.pairedWith)
    (c : ℕ) (conn' : Conn) (h : (s.modify t f).conns[c]? = some conn') :
    ∃ conn : Conn, s.conns[c]? = some conn ∧ conn.pairedWith = conn'.pairedWith := by
  rw [modify_conns] at h
  obtain ⟨conn, hc, rfl⟩ := Option.map_eq_some_iff.1 h
  refine ⟨conn, hc, ?_⟩
  split_ifs
  · exact (hf conn).symm
  · rfl

/-- A new connection, which has read the row of its device. -/
theorem links_connect (h : links.Inv s) (conn : Conn) (hreg : conn.pc.isRegister = true)
    (hl : conn.pc.linking = none) (hlink : conn.pairedWith = s.devices.link conn.deviceID)
    (hfree : ¬ s.Busy conn.deviceID) (hs' : s' = { s with conns := s.conns ++ [conn] })
    (hk : s'.Keyed) : links.Inv s' := by
  have hseen : ∀ b, s'.seen b
      = if b = s.conns.length then some (conn.deviceID, conn.pc) else s.seen b :=
    fun b => hs' ▸ s.seen_connect conn b
  have haw : ∀ b pc, s'.Awaits b pc ↔ s.Awaits b pc := by
    intro b pc
    rw [hs']
    rfl
  have hnew : ∀ d, s'.Uses s.conns.length d ↔ d = conn.deviceID := by
    intro d
    simp [Uses, hseen, Awaits, hreg, hl]
  have hold : ∀ d, ¬ s.Uses s.conns.length d := by
    rintro d ⟨x, hx, -⟩
    exact absurd (seen_lt hx) (Nat.lt_irrefl _)
  refine h.step s.conns.length (fun b hb d => ?_) (fun d hu => Or.inr ?_) (fun d _ hu => ?_)
    (fun b hb hs hst => ?_) (fun d hs hr => Rest.same hr hk hs) (fun conn' hc => ?_)
    fun d hu => absurd hu (hold d)
  · simp only [links, Uses, hseen, if_neg hb, haw]
  · rw [(hnew d).1 hu]
    exact not_uses_of_not_busy hfree
  · show s.Same s' d
    subst hs'
    refine ⟨rfl, fun _ => id, fun c conn' hc' hd' => ?_⟩
    rw [List.getElem?_append] at hc'
    split_ifs at hc' with hlt
    · exact ⟨conn', hc', rfl⟩
    · obtain rfl := List.mem_singleton.1 (List.mem_of_getElem? hc')
      exact absurd ((hnew d).2 hd'.symm) hu
  · exact Stage.frame hst hk (by rw [hseen, if_neg hb]) (fun pc => (haw b pc).1) hs
  · subst hs'
    obtain rfl : conn = conn' := by simpa using hc
    refine ⟨fun _ => ⟨hlink, hl⟩, fun x hx => ?_, fun p hp => ?_⟩
    · rw [linking_of_change hx] at hl
      cases hl
    · rw [hp] at hl
      cases hl

/-- The hub has registered `c`, which still says what the row of its device says. -/
theorem links_register (h : links.Inv s) {client : Conn} (hh : s.hub = .register c)
    (hc : s.conns[c]? = some client)
    (hk : { s.evict client.deviceID with
      clients := Function.update s.clients client.deviceID (some c)
      hub := .registered c }.Keyed) :
    links.Inv { s.evict client.deviceID with
      clients := Function.update s.clients client.deviceID (some c)
      hub := .registered c } := by
  obtain ⟨hlink, hnone⟩ := (h.stage c client hc).awaits (Or.inr (Or.inr hh))
  generalize hs' : { s.evict client.deviceID with
      clients := Function.update s.clients client.deviceID (some c)
      hub := .registered c } = s' at hk ⊢
  have hseen : s'.seen = s.seen := hs' ▸ s.seen_evict client.deviceID
  have hreg : s'.registerCh = s.registerCh := by rw [← hs', evict_same]
  have hdev : s'.devices = s.devices := by rw [← hs', evict_same]
  have hhub : s'.hub = .registered c := by rw [← hs']
  have hclients : s'.clients = Function.update s.clients client.deviceID (some c) := by rw [← hs']
  have hconns : ∀ (b : ℕ) (conn' : Conn), s'.conns[b]? = some conn' →
      ∃ conn : Conn, s.conns[b]? = some conn ∧ conn.pairedWith = conn'.pairedWith := by
    intro b conn' hb
    rw [← hs', evict_conns] at hb
    obtain ⟨conn, hconn, rfl⟩ := Option.map_eq_some_iff.1 hb
    exact ⟨conn, hconn, by split_ifs <;> rfl⟩
  have haw : ∀ b pc, s'.Awaits b pc → s.Awaits b pc := by
    intro b pc
    rw [Awaits, Awaits, hreg, hhub]
    rintro (hb | hb | hb)
    · exact Or.inl hb
    · exact Or.inr (Or.inl hb)
    · cases hb
  have hown : ∀ d, s.Uses c d ↔ d = client.deviceID := by
    intro d
    simp [uses_self hc, hnone, Awaits, hh]
  have hsame : ∀ d, d ≠ client.deviceID → s.Same s' d := fun d hd =>
    ⟨by rw [hdev], fun b hb => by rwa [hclients, Function.update_of_ne hd] at hb,
      fun b conn' hb _ => hconns b conn' hb⟩
  refine h.step c (fun b hb d => ?_) (fun d hu => Or.inl ?_)
    (fun d hu _ => hsame d fun hd => hu ((hown d).2 hd)) (fun b hb hs hst => ?_)
    (fun d hs hr => Rest.same hr hk hs) (fun conn' hc' => ?_) fun d hu _ => ?_
  · have : ∀ pc, s'.Awaits b pc ↔ s.Awaits b pc := fun pc => ⟨haw b pc, by
      rw [Awaits, Awaits, hreg, hh]
      rintro (hb' | hb' | hb')
      · exact Or.inl hb'
      · exact Or.inr (Or.inl hb')
      · exact absurd (HubPc.register.inj hb').symm hb⟩
    simp only [links, Uses, hseen, this]
  · obtain ⟨x, hx, hu⟩ := hu
    rw [hseen] at hx
    exact ⟨x, hx, hu.imp (And.imp_right (Or.imp_left (haw c x.2))) id⟩
  · exact Stage.frame hst hk (by rw [hseen]) (haw b) hs
  · obtain ⟨conn, hcc, hp⟩ := hconns c conn' hc'
    obtain rfl : client = conn := Option.some.inj (hc.symm.trans hcc)
    obtain ⟨hd, hpc⟩ : conn'.deviceID = client.deviceID ∧ conn'.pc = client.pc := by
      have := congrFun hseen c
      rw [seen_of_conn hc', seen_of_conn hc] at this
      exact Prod.mk.inj (Option.some.inj this)
    refine ⟨fun _ => ⟨by rw [← hp, hd, hdev, hlink], by rw [hpc, hnone]⟩, fun x hx => ?_,
      fun p hp' => ?_⟩
    · rw [hpc] at hx
      rw [linking_of_change hx] at hnone
      cases hnone
    · rw [← hpc, hp'] at hnone
      cases hnone
  · obtain rfl := (hown d).1 hu
    intro b conn' hb hb'
    rw [hclients, Function.update_self] at hb
    obtain rfl : c = b := Option.some.inj hb
    obtain ⟨conn, hcc, hp⟩ := hconns c conn' hb'
    obtain rfl : client = conn := Option.some.inj (hc.symm.trans hcc)
    rw [← hp, hdev, hlink]

theorem awaits_hub (hreg : s'.registerCh = s.registerCh) (hh : ∀ c, s.hub ≠ .register c)
    (hh' : ∀ c, s'.hub ≠ .register c) (c : ℕ) (pc : Pc) : s'.Awaits c pc ↔ s.Awaits c pc := by
  simp [Awaits, hreg, hh, hh']

theorem links_hubMove (h : links.Inv s) (hk : s'.Keyed) (hm : s.HubMove s') : links.Inv s' := by
  cases hm with
  | register c client hh hc => exact links_register h hh hc hk
  | unregister c client hh hc hcur =>
    refine links_same h hk rfl (awaits_hub rfl (by simp [hh]) (by simp))
      (same_of_conns rfl (fun d b hb => ?_) fun b conn' hb => ⟨conn', hb, rfl⟩)
    dsimp only at hb
    rw [Function.update_apply] at hb
    split_ifs at hb
    exact hb
  | notify c about online hh =>
    exact links_same h hk
      (seen_modify s c fun conn => ⟨conn.enqueue_deviceID _, conn.enqueue_pc _⟩)
      (awaits_hub rfl (by simp [hh]) (by simp))
      (same_of_conns rfl (fun _ _ => id) (modify_pairedWith fun conn => conn.enqueue_pairedWith _))
  | peer c client online hh | unpaired c client online hh =>
    exact links_same h hk rfl (awaits_hub rfl (by rw [hh]; cases online <;> simp) (by simp))
      (same_of_conns rfl (fun _ _ => id) fun b conn' hb => ⟨conn', hb, rfl⟩)
  | stale _ _ hh | found _ _ _ _ hh | offline _ _ _ hh =>
    exact links_same h hk rfl (awaits_hub rfl (by simp [hh]) (by simp))
      (same_of_conns rfl (fun _ _ => id) fun b conn' hb => ⟨conn', hb, rfl⟩)

theorem links_read (h : links.Inv s) (hk : s'.Keyed) {pc : Pc} (hreg : pc.isRegister = false)
    (hl : pc.linking = none) (hr : s.read c pc = some s') : links.Inv s' := by
  obtain ⟨conn, hc, hpc, rfl⟩ := read_eq_some hr
  exact links_idle h hk ⟨hreg, Or.inl ⟨by rw [hpc]; rfl, rfl⟩⟩ hc (quiet_none _) (by rw [hpc]; rfl) hl

theorem links_step (h : links.Inv s) (hw : s.devices.WellFormed) (hks : s.Keyed) {l : Label}
    (hser : s.Serial l) (hstep : s.step l = some s') : links.Inv s' ∧ s'.devices.WellFormed := by
  have hk := hks.step hstep
  cases l with
  | connect deviceID token now upgraded =>
    cases hstep
    rcases s.handler_cases deviceID token now upgraded with heq | ⟨-, device, hd, heq⟩ <;>
      rw [heq] at hk ⊢
    · exact ⟨h, hw⟩
    · have hlink : device.pairedWith.getD "" = s.devices.link deviceID := by
        simp [Devices.link_eq, Devices.peer, hd]
      refine ⟨links_connect h _ rfl rfl hlink ?_ rfl hk, hw⟩
      exact hser
  | receive c frame =>
    refine ⟨links_read h hk (dispatch_isRegister c frame) (dispatch_linking c frame) hstep, ?_⟩
    obtain ⟨conn, -, -, rfl⟩ := read_eq_some hstep
    exact hw
  | disconnect c =>
    refine ⟨links_read h hk rfl rfl hstep, ?_⟩
    obtain ⟨conn, -, -, rfl⟩ := read_eq_some hstep
    exact hw
  | handler c env =>
    obtain ⟨conn, a, pc, hc, hx, rfl⟩ := runHandler_move hstep
    refine ⟨links_exec h hw hks hk hx hc (hser conn hc), ?_⟩
    rw [advance_devices]
    exact hx.wellFormed hw
  | write c =>
    cases hstep
    exact ⟨links_same h hk (seen_modify s c fun _ => ⟨rfl, rfl⟩) (fun _ _ => Iff.rfl)
      (same_of_conns rfl (fun _ _ => id) (modify_pairedWith fun _ => rfl)), hw⟩
  | takeRegister =>
    obtain ⟨c, rest, hh, hr, rfl⟩ := takeRegister_eq_some hstep
    refine ⟨links_same h hk rfl (fun b pc => ?_)
      (same_of_conns rfl (fun _ _ => id) fun b conn' hb => ⟨conn', hb, rfl⟩), hw⟩
    simp only [Awaits, hh, hr, List.mem_cons, HubPc.register.injEq, reduceCtorEq, or_false]
    rw [or_comm (a := b ∈ rest), eq_comm (a := c)]
  | takeUnregister =>
    obtain ⟨c, rest, hh, hu, rfl⟩ := takeUnregister_eq_some hstep
    exact ⟨links_same h hk rfl (awaits_hub rfl (by simp [hh]) (by simp))
      (same_of_conns rfl (fun _ _ => id) fun b conn' hb => ⟨conn', hb, rfl⟩), hw⟩
  | hub =>
    have hm := runHub_move hstep
    refine ⟨links_hubMove h hk hm, ?_⟩
    cases hm with
    | register c client => rwa [evict_same]
    | _ => exact hw

theorem start_links (devices : Devices) (pairCodes : PairCodes) :
    links.Inv (start devices pairCodes) where
  exclusive := by
    rintro a b r ⟨x, hx, -⟩
    simp [start, seen] at hx
  stage c conn hc := by simp [start] at hc
  rest d _ c conn hc := by cases hc

/-- No goroutine of a connection is in the middle of a handler. -/
def Quiescent (s : Server) : Prop := ∀ conn ∈ s.conns, conn.pc = .reading ∨ conn.pc = .returned

instance (s : Server) : Decidable s.Quiescent :=
  inferInstanceAs (Decidable (∀ conn ∈ s.conns, conn.pc = .reading ∨ conn.pc = .returned))

theorem Quiescent.not_uses (h : s.Quiescent) (hd : s.Drained) (c : ℕ) (d : String) :
    ¬ s.Uses c d := by
  rintro ⟨x, hx, hu⟩
  obtain ⟨conn, hc, rfl⟩ := Option.map_eq_some_iff.1 hx
  rcases h conn (List.mem_of_getElem? hc) with hpc | hpc <;>
    simp [Awaits, hpc, hd.register, hd.hub, Pc.isRegister, Pc.linking] at hu

/-- Where the changes of each link and the registrations that read it come one after the other, every
registered connection says what the row of its device says once all have ended. -/
theorem pairedWith_eq_link {conn : Conn} (devices : Devices) (pairCodes : PairCodes)
    (labels : List Label) (hw : devices.WellFormed)
    (hm : Lts.Meets step Serial (start devices pairCodes) labels)
    (hrun : Lts.run step (start devices pairCodes) labels = some s) (hq : s.Quiescent)
    (hd : s.Drained) (id : String) (hid : s.clients id = some c) (hc : s.conns[c]? = some conn) :
    conn.deviceID = id ∧ conn.pairedWith = s.devices.link id := by
  obtain ⟨hk, -, h⟩ : s.Keyed ∧ s.devices.WellFormed ∧ links.Inv s :=
    Lts.run_inv (I := fun s => s.Keyed ∧ s.devices.WellFormed ∧ links.Inv s)
      (fun _ _ _ hi hl hs => ⟨hi.1.step hs, (links_step hi.2.2 hi.2.1 hi.1 hl hs).2,
        (links_step hi.2.2 hi.2.1 hi.1 hl hs).1⟩) labels
      ⟨start_keyed devices pairCodes, hw, start_links devices pairCodes⟩ hm hrun
  exact ⟨hk.device hid hc, h.rest id (fun b => hq.not_uses hd b id) c conn hid hc⟩

end Step

/-- Two devices that are not paired. -/
def devicesAB : Devices := fun id =>
  if id = "a" ∨ id = "b" then some { deviceToken := "t" } else none

theorem devicesAB_wellFormed : devicesAB.WellFormed := by
  have hpeer : ∀ id, devicesAB.peer id = none := by
    intro id
    unfold Devices.peer devicesAB
    split_ifs <;> rfl
  exact ⟨by simp [devicesAB], fun {x y} hxy => by simp [hpeer] at hxy⟩

/-- A device that is not paired connects, as connection `c`. -/
def connecting (id : String) (c : ℕ) : List Label :=
  [.connect id "t" 0 true, plainStep c, plainStep c, .takeRegister, .hub, .hub]

/-- `a` has a code, and both devices are connected. -/
def offering : List Label :=
  connecting "a" 0 ++ connecting "b" 1
    ++ [Label.receive 0 .pairRequest, .handler 0 ⟨0, false, some "1"⟩, plainStep 0]

/-- `b` accepts the code of `a`. -/
def accepting : List Label := .receive 1 (.pairAccept "1") :: List.replicate 9 (plainStep 1)

/-- `a` connects once more and has read its row when `b` accepts its code; the new connection is then
registered with the link that the row had before. -/
theorem pairedWith_ne_link :
    ∃ s conn, Lts.run step (start devicesAB fun _ => none) (offering ++ [Label.connect "a" "t" 0 true]
        ++ accepting ++ [plainStep 2, plainStep 2, .takeRegister, .hub, .hub]) = some s
      ∧ s.Quiescent ∧ s.Drained ∧ s.clients "a" = some 2 ∧ s.conns[2]? = some conn
      ∧ conn.pairedWith = "" ∧ s.devices.link "a" = "b" := by
  have h : (Lts.run step (start devicesAB fun _ => none) (offering ++ [Label.connect "a" "t" 0 true]
      ++ accepting ++ [plainStep 2, plainStep 2, .takeRegister, .hub, .hub])).any fun s =>
        decide (s.Quiescent ∧ s.Drained ∧ s.clients "a" = some 2 ∧ s.devices.link "a" = "b")
          && s.conns[2]?.any fun conn => decide (conn.pairedWith = "") := by
    decide +kernel
  obtain ⟨s, hrun, hs⟩ := (Option.any_eq_true ..).1 h
  simp only [Bool.and_eq_true, decide_eq_true_eq, Option.any_eq_true] at hs
  obtain ⟨⟨hq, hd, hcl, hlink⟩, conn, hconn, hp⟩ := hs
  exact ⟨s, conn, hrun, hq, hd, hcl, hconn, hp, hlink⟩

theorem pairedWith_eq_link_paired :
    ∃ s conn, Lts.run step (start devicesAB fun _ => none) (offering ++ accepting
        ++ Label.connect "a" "t" 0 true :: List.replicate 5 (plainStep 2)
        ++ [Label.takeRegister, .hub, .hub, .hub, .hub]) = some s
      ∧ s.Quiescent ∧ s.Drained ∧ s.clients "a" = some 2 ∧ s.conns[2]? = some conn
      ∧ s.devices.link "a" = "b" ∧ conn.deviceID = "a" ∧ conn.pairedWith = s.devices.link "a" := by
  have h : (Lts.run step (start devicesAB fun _ => none) (offering ++ accepting
      ++ Label.connect "a" "t" 0 true :: List.replicate 5 (plainStep 2)
      ++ [Label.takeRegister, .hub, .hub, .hub, .hub])).any fun s =>
        decide (s.Quiescent ∧ s.Drained ∧ s.clients "a" = some 2 ∧ s.devices.link "a" = "b")
          && s.conns[2]?.isSome := by
    decide +kernel
  obtain ⟨s, hrun, hs⟩ := (Option.any_eq_true ..).1 h
  simp only [Bool.and_eq_true, decide_eq_true_eq, Option.isSome_iff_exists] at hs
  obtain ⟨⟨hq, hd, hcl, hlink⟩, conn, hconn⟩ := hs
  exact ⟨s, conn, hrun, hq, hd, hcl, hconn, hlink, pairedWith_eq_link devicesAB _ _
    devicesAB_wellFormed (by decide +kernel) hrun hq hd "a" hcl hconn⟩

end Server

end Relayly.Relay
