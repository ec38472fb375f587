import Relayly.Proofs.RelayOrder
import Relayly.Relay.Admin

/-!
# Announced keys

The key of a device is written once. Every key that the server reports is one it has read from the
table, so a report that is in a queue, or in the hands of a goroutine, is backed by the row.
-/

namespace Relayly.Relay

/-- The devices and keys that a message reports. -/
def Control.reports : Control → List (String × String)
  | .welcome _ _ peers => peers.map fun peer => (peer.id, peer.staticKey)
  | .reply (.pairComplete _ peerID peerStaticKey) => [(peerID, peerStaticKey)]
  | _ => []

def WsFrame.reports (frame : WsFrame) : List (String × String) :=
  match frame.data with
  | .text msg => msg.reports
  | .binary _ => []

/-- The keys that the goroutine of a connection of `device` has read and is about to report. -/
def Pc.holds (device : String) : Pc → List (String × String)
  | .sendWelcome (.welcome peers _) => peers.map fun peer => (peer.id, peer.staticKey)
  | .pairAccept (.requesterKey _ _ myKey) => [(device, myKey)]
  | .pairAccept (.setPeer _ requesterID myKey requesterKey)
  | .pairAccept (.complete _ requesterID myKey requesterKey) =>
    [(device, myKey), (requesterID, requesterKey)]
  | .pairAccept (.lookup _ _ myKey) | .pairAccept (.setRequester _ _ myKey _) => [(device, myKey)]
  | .sendJSON _ msg => (Control.reply msg).reports
  | _ => []

namespace Devices

variable {t t' : Devices} {d : String}

/-- The stored key of a device, empty where there is none. -/
def key (t : Devices) (d : String) : String := (t d).elim "" Device.staticKey

/-- A key that is stored stays. -/
def KeepsKey (d : String) (t t' : Devices) : Prop := t.key d ≠ "" → t'.key d = t.key d

theorem KeepsKey.trans {t'' : Devices} (h : KeepsKey d t t') (h' : KeepsKey d t' t'') :
    KeepsKey d t t'' := by
  intro hne
  rw [h' (by rwa [h hne]), h hne]

theorem keepsKey_of_row (h : (t' d).map Device.staticKey = (t d).map Device.staticKey) :
    KeepsKey d t t' := by
  intro _
  have helim : ∀ row : Option Device, row.elim "" Device.staticKey
      = (row.map Device.staticKey).getD "" := by
    rintro (_ | row) <;> rfl
  rw [key, key, helim, h, helim]

theorem keepsKey_setStaticKeyIfUnset {id k : String} (h : t.setStaticKeyIfUnset id k = .ok t') :
    KeepsKey d t t' := by
  intro hne
  obtain ⟨row, hrow, ⟨-, rfl⟩ | ⟨hempty, rfl⟩⟩ := setStaticKeyIfUnset_ok h
  · rfl
  · by_cases hd : d = id
    · subst hd
      simp [key, hrow, hempty] at hne
    · simp [key, hd]

theorem keepsKey_pairDevices {a b : String} (h : t.pairDevices a b = .ok t') : KeepsKey d t t' := by
  have hset : ∀ (t : Devices) (x y : String),
      ((t.setPairedWith x y) d).map Device.staticKey = (t d).map Device.staticKey := by
    intro t x y
    unfold setPairedWith
    split_ifs
    · rw [Option.map_map]
      rfl
    · rfl
  unfold pairDevices at h
  split at h <;> cases h
  exact keepsKey_of_row (by rw [hset, hset])

theorem keepsKey_unpairDevice (t : Devices) (id : String) : KeepsKey d t (t.unpairDevice id) := by
  refine keepsKey_of_row ?_
  rw [unpairDevice, Option.map_map]
  congr 1
  funext row
  simp only [Function.comp_apply]
  split_ifs <;> rfl

theorem keepsKey_clearPairedWith (t : Devices) (id : String) :
    KeepsKey d t (t.clearPairedWith id) := by
  refine keepsKey_of_row ?_
  rw [clearPairedWith, Option.map_map]
  congr 1
  funext row
  simp only [Function.comp_apply]
  split_ifs <;> rfl

/-- Every key that is reported of `d` is the stored one, or empty. -/
def Backs (t : Devices) (d : String) (reports : List (String × String)) : Prop :=
  ∀ k, (d, k) ∈ reports → k = "" ∨ t.key d = k

theorem Backs.mono {l l' : List (String × String)} (h : t.Backs d l) (hl : l' ⊆ l) : t.Backs d l' :=
  fun k hk => h k (hl hk)

theorem Backs.keep {l : List (String × String)} (h : t.Backs d l) (ht : KeepsKey d t t') :
    t'.Backs d l := by
  intro k hk
  rcases h k hk with hk' | rfl
  · exact .inl hk'
  · by_cases hempty : t.key d = ""
    · exact .inl hempty
    · exact .inr (ht hempty)

theorem Backs.append {l l' : List (String × String)} (h : t.Backs d l) (h' : t.Backs d l') :
    t.Backs d (l ++ l') := by
  intro k hk
  rcases List.mem_append.1 hk with hk | hk
  · exact h k hk
  · exact h' k hk

theorem Backs.nil : t.Backs d [] := nofun

theorem Backs.cons {l : List (String × String)} (h : t.Backs d l) {id k : String}
    (hk : id = d → k = "" ∨ t.key d = k) : t.Backs d ((id, k) :: l) := by
  intro k' hk'
  rcases List.mem_cons.1 hk' with heq | hk'
  · cases heq
    exact hk rfl
  · exact h k' hk'

end Devices

/-- A key that is read is the stored one, or empty where the call fails. -/
theorem Server.backs_staticKey (s : Server) (d id : String) (env : Env)
    {l : List (String × String)} (h : s.devices.Backs d l) :
    s.devices.Backs d ((id, s.staticKey id env) :: l) := by
  refine h.cons ?_
  rintro rfl
  unfold Server.staticKey
  split_ifs
  · exact .inl rfl
  · exact .inr rfl

/-- What a step of a goroutine does with keys. -/
structure Keying (s : Server) (d : String) (conn : Conn) (x : Access × Pc) : Prop where
  devices : Devices.KeepsKey d s.devices (x.1.devicesAfter s.devices)
  holds : s.devices.Backs d (x.2.holds conn.deviceID)
  frame : ∀ t frame, x.1 = .enqueue t frame → s.devices.Backs d frame.reports

section Exec

variable {s : Server} {c : ℕ} {conn : Conn} {env : Env} {x : Access × Pc} {d : String}

def Access.reports : Access → List (String × String)
  | .enqueue _ frame => frame.reports
  | _ => []

/-- A step that reports no key. -/
theorem Keying.untold (hdev : Devices.KeepsKey d s.devices (x.1.devicesAfter s.devices))
    (hholds : s.devices.Backs d (x.2.holds conn.deviceID)) (hreports : x.1.reports = []) :
    Keying s d conn x where
  devices := hdev
  holds := hholds
  frame t frame he := by
    rw [he] at hreports
    rw [show frame.reports = [] from hreports]
    exact .nil

/-- A step that neither reads nor reports a key. -/
theorem Keying.silent (hdev : Devices.KeepsKey d s.devices (x.1.devicesAfter s.devices))
    (hholds : x.2.holds conn.deviceID = []) (hreports : x.1.reports = []) : Keying s d conn x :=
  .untold hdev (by rw [hholds]; exact .nil) hreports

theorem sendWelcome_keying (next : Welcome) (h : conn.pc = .sendWelcome next)
    (hold : s.devices.Backs d (conn.pc.holds conn.deviceID)) :
    Keying s d conn (sendWelcome s c conn env next) := by
  cases next with
  | staticKey peer => exact .untold (fun _ => rfl) (s.backs_staticKey d peer env .nil) rfl
  | welcome peers peer =>
    rw [h] at hold
    refine ⟨fun _ => rfl, ?_, fun t frame he => ?_⟩
    · cases peer <;> exact .nil
    · cases he
      exact hold
  | lookup peer => exact .silent (fun _ => rfl) rfl rfl
  | status peer online => exact .silent (fun _ => rfl) rfl rfl

theorem handleAnnounceKey_keying (key : String) :
    Keying s d conn (handleAnnounceKey s c conn env key) := by
  unfold handleAnnounceKey
  split
  · next t ht =>
    refine .silent ?_ rfl rfl
    split_ifs at ht
    exact Devices.keepsKey_setStaticKeyIfUnset ht
  · exact .silent (fun _ => rfl) rfl rfl
  · exact .silent (fun _ => rfl) rfl rfl

theorem handlePairRequest_keying : Keying s d conn (handlePairRequest s c conn env) := by
  unfold handlePairRequest
  split <;> exact .silent (fun _ => rfl) rfl rfl

theorem handlePairAccept_keying (next : PairAccept) (h : conn.pc = .pairAccept next)
    (hold : s.devices.Backs d (conn.pc.holds conn.deviceID)) :
    Keying s d conn (handlePairAccept s c conn env next) := by
  rw [h] at hold
  cases next with
  | take code =>
    refine .silent (fun _ => rfl) ?_ rfl
    simp only [handlePairAccept]
    split
    · rfl
    · rfl
    · split_ifs <;> rfl
  | pairDevices code r =>
    simp only [handlePairAccept]
    split
    · next t ht =>
      refine .silent ?_ rfl rfl
      split_ifs at ht
      exact Devices.keepsKey_pairDevices ht
    all_goals exact .silent (fun _ => rfl) rfl rfl
  | myKey code r => exact .untold (fun _ => rfl) (s.backs_staticKey d conn.deviceID env .nil) rfl
  | requesterKey code r myKey =>
    refine .untold (fun _ => rfl) (Devices.Backs.mono (s.backs_staticKey d r env hold) ?_) rfl
    simp [Pc.holds, handlePairAccept]
  | setPeer code r myKey requesterKey => exact .untold (fun _ => rfl) hold rfl
  | complete code r myKey requesterKey =>
    refine ⟨fun _ => rfl, hold.mono ?_, fun t frame he => ?_⟩
    · simp [Pc.holds, handlePairAccept]
    · cases he
      exact hold.mono (by simp [Pc.holds, WsFrame.reports, textFrame, Control.reports])
  | lookup code r myKey =>
    refine .untold (fun _ => rfl) ?_ rfl
    simp only [handlePairAccept]
    split
    · exact hold
    · exact .nil
  | setRequester code r myKey requester => exact .untold (fun _ => rfl) hold rfl

theorem handleUnpair_keying (next : Unpair) : Keying s d conn (handleUnpair s c conn env next) := by
  cases next with
  | unpairDevice p =>
    simp only [handleUnpair]
    split_ifs
    · exact .silent (fun _ => rfl) rfl rfl
    · exact .silent (Devices.keepsKey_unpairDevice _ _) rfl rfl
  | unpaired p =>
    refine .silent (fun _ => rfl) ?_ rfl
    dsimp only [handleUnpair]
    split_ifs <;> rfl
  | lookup p =>
    refine .silent (fun _ => rfl) ?_ rfl
    simp only [handleUnpair]
    split <;> rfl
  | _ => exact .silent (fun _ => rfl) rfl rfl

theorem route_keying (next : Route) (hx : route s conn next = some x) : Keying s d conn x := by
  cases next with
  | peer payload =>
    obtain rfl := Option.some.inj hx
    refine .silent (fun _ => rfl) ?_ rfl
    dsimp only
    split_ifs <;> rfl
  | lookup id payload =>
    obtain rfl := Option.some.inj hx
    refine .silent (fun _ => rfl) ?_ rfl
    dsimp only
    split <;> rfl
  | enqueue t payload =>
    obtain rfl := Option.some.inj hx
    refine .silent (fun _ => rfl) ?_ rfl
    dsimp only
    split_ifs <;> rfl
  | close t =>
    obtain rfl := Option.some.inj hx
    exact .silent (fun _ => rfl) rfl rfl
  | unregister t =>
    simp only [route] at hx
    split_ifs at hx
    obtain rfl := Option.some.inj hx
    exact .silent (fun _ => rfl) rfl rfl

theorem exec_keying (hold : s.devices.Backs d (conn.pc.holds conn.deviceID))
    (hx : exec s c conn env = some x) : Keying s d conn x := by
  unfold exec at hx
  split at hx
  · next device h =>
    split_ifs at hx
    obtain rfl := Option.some.inj hx
    refine .silent (fun _ => rfl) ?_ rfl
    dsimp only [startWelcome]
    split <;> rfl
  · next next h =>
    obtain rfl := Option.some.inj hx
    exact sendWelcome_keying next h hold
  · cases hx
  · next key h =>
    obtain rfl := Option.some.inj hx
    exact handleAnnounceKey_keying key
  · next h =>
    obtain rfl := Option.some.inj hx
    exact handlePairRequest_keying
  · next next h =>
    obtain rfl := Option.some.inj hx
    exact handlePairAccept_keying next h hold
  · next next h =>
    obtain rfl := Option.some.inj hx
    exact handleUnpair_keying next
  · next next h => exact route_keying next hx
  · next dest msg h =>
    obtain rfl := Option.some.inj hx
    rw [h] at hold
    refine ⟨fun _ => rfl, .nil, fun t frame he => ?_⟩
    cases he
    exact hold
  · next h =>
    obtain rfl := Option.some.inj hx
    refine .silent (fun _ => rfl) ?_ rfl
    dsimp only
    split_ifs <;> rfl
  · obtain rfl := Option.some.inj hx
    exact .silent (fun _ => rfl) rfl rfl
  · split_ifs at hx
    obtain rfl := Option.some.inj hx
    exact .silent (fun _ => rfl) rfl rfl
  · obtain rfl := Option.some.inj hx
    exact .silent (fun _ => rfl) rfl rfl
  · cases hx

end Exec

namespace Server

variable {s s' : Server} {c : ℕ} {conn : Conn} {d : String}

/-- What the frames report that a connection's queue has taken. -/
def reports (conn : Conn) : List (String × String) := conn.accepted.flatMap WsFrame.reports

/-- What is reported of `d`, or about to be, is the stored key. -/
def Locked (d : String) (s : Server) : Prop :=
  ∀ (c : ℕ) (conn : Conn), s.conns[c]? = some conn →
    s.devices.Backs d (conn.pc.holds conn.deviceID) ∧ s.devices.Backs d (reports conn)

theorem backs_reports_on {t : Devices} (h : t.Backs d (reports conn)) (a : Access) (c : ℕ)
    (ha : ∀ t' frame, a = .enqueue t' frame → t.Backs d frame.reports) :
    t.Backs d (reports (a.on c conn)) := by
  cases a with
  | enqueue t' frame =>
    have hframe := ha t' frame rfl
    simp only [Access.on, Conn.enqueue]
    split_ifs
    · simpa [reports] using h.append hframe
    · exact h
    · exact h
  | setPeer | close =>
    simp only [Access.on]
    split_ifs <;> exact h
  | _ => exact h

theorem Locked.advance (h : s.Locked d) (hc : s.conns[c]? = some conn) {x : Access × Pc}
    (hx : Keying s d conn x) : (s.advance c x.1 x.2).Locked d := by
  intro c' conn' hc'
  rw [advance_conns] at hc'
  obtain ⟨conn₀, hc₀, rfl⟩ := Option.map_eq_some_iff.1 hc'
  obtain ⟨hholds, hreports⟩ := h c' conn₀ hc₀
  rw [advance_devices]
  have hreports' := (backs_reports_on hreports x.1 c' hx.frame).keep hx.devices
  split_ifs with hcc
  · subst hcc
    obtain rfl : conn = conn₀ := Option.some.inj (hc.symm.trans hc₀)
    refine ⟨?_, hreports'⟩
    show Devices.Backs _ d (x.2.holds (x.1.on c conn).deviceID)
    rw [Access.on_deviceID]
    exact hx.holds.keep hx.devices
  · refine ⟨?_, hreports'⟩
    rw [Access.on_pc, Access.on_deviceID]
    exact hholds.keep hx.devices

theorem dispatch_holds (c : ℕ) (frame : Inbound) (d : String) : (dispatch c frame).holds d = [] := by
  cases frame <;> simp only [dispatch] <;> (try split_ifs) <;> rfl

theorem Locked.read (h : s.Locked d) (hc : s.conns[c]? = some conn) {pc : Pc}
    (hpc : ∀ d, pc.holds d = []) : (s.advance c .none pc).Locked d :=
  h.advance (x := (.none, pc)) hc (.silent (fun _ => rfl) (hpc _) rfl)

theorem Locked.step (h : s.Locked d) {l : Label} (hstep : s.step l = some s') :
    s'.Locked d ∧ Devices.KeepsKey d s.devices s'.devices := by
  cases step_moves hstep with
  | connect deviceID token now upgraded device =>
    refine ⟨fun c conn hc => ?_, fun _ => rfl⟩
    dsimp only at hc
    rw [List.getElem?_append] at hc
    split_ifs at hc
    · exact h c conn hc
    · obtain rfl := List.mem_singleton.1 (List.mem_of_getElem? hc)
      exact ⟨.nil, .nil⟩
  | receive c frame conn hc => exact ⟨h.read hc (dispatch_holds c frame), fun _ => rfl⟩
  | disconnect c conn hc => exact ⟨h.read hc fun _ => rfl, fun _ => rfl⟩
  | handler c env conn x hc hx =>
    have hkeying := exec_keying (h c conn hc).1 hx
    refine ⟨h.advance hc hkeying, ?_⟩
    rw [advance_devices]
    exact hkeying.devices
  | quiet _ _ hdev hview hheard =>
    refine ⟨fun c conn' hc' => ?_, hdev ▸ fun _ => rfl⟩
    obtain ⟨conn, hc, haccepted⟩ := hheard c conn' hc'
    have hsame := congrFun hview c
    rw [view_of_conn hc', view_of_conn hc] at hsame
    simp only [Option.some.injEq, Prod.mk.injEq] at hsame
    obtain ⟨hholds, hreports⟩ := h c conn hc
    rw [hdev, hsame.1, hsame.2.2]
    refine ⟨hholds, ?_⟩
    rcases haccepted with heq | ⟨id, online, heq⟩
    · rwa [reports, heq]
    · rw [reports, heq, List.flatMap_append]
      exact hreports.append .nil

theorem Locked.adminStep (h : s.Locked d) {l : AdminLabel} (hl : l ≠ .deleteRow d)
    (hstep : s.adminStep l = some s') :
    s'.Locked d ∧ Devices.KeepsKey d s.devices s'.devices := by
  have hdatabase : ∀ t, Devices.KeepsKey d s.devices t → Locked d { s with devices := t }
      ∧ Devices.KeepsKey d s.devices t := fun t ht =>
    ⟨fun c conn hc => ⟨(h c conn hc).1.keep ht, (h c conn hc).2.keep ht⟩, ht⟩
  cases l with
  | server l => exact h.step hstep
  | createDevice id token expiresAt =>
    simp only [Server.adminStep] at hstep
    split_ifs at hstep with hnew
    cases hstep
    refine hdatabase _ fun hne => ?_
    by_cases hd : d = id
    · simp [Devices.key, hd, hnew] at hne
    · simp [Devices.key, hd]
  | pairDevices a b =>
    simp only [Server.adminStep] at hstep
    split at hstep <;> cases hstep
    next t ht => exact hdatabase t (Devices.keepsKey_pairDevices ht)
  | clearPairedWith id =>
    cases hstep
    exact hdatabase _ (Devices.keepsKey_clearPairedWith _ id)
  | deleteRow id =>
    cases hstep
    have hd : d ≠ id := fun he => hl (he ▸ rfl)
    exact hdatabase _ fun _ => by simp [Devices.key, Devices.deleteRow, hd]

section Answer

/-- Whatever is done first by others, the next step of the goroutine of `c` can be taken, and it is one
that `P` describes. -/
def Next (c : ℕ) (P : Server → Server → Prop) (s : Server) : Prop :=
  ∀ labels s₁ env, Lts.run adminStep s labels = some s₁ →
    (∀ env', AdminLabel.server (.handler c env') ∉ labels) →
    ∃ s₂, s₁.step (.handler c env) = some s₂ ∧ P s₁ s₂

/-- The queue of `c` takes a frame. -/
def Takes (c : ℕ) (frame : WsFrame) (s s' : Server) : Prop :=
  ∃ conn conn', s.conns[c]? = some conn ∧ s'.conns[c]? = some conn'
    ∧ conn'.accepted = conn.accepted ++ [frame]

/-- What `sendErrorAndClose` sends. -/
def closingError (code message : String) : WsFrame where
  data := .text (.reply (.error code message))
  closeAfter := true

/-- A goroutine that does not read stays where it is until its own next step. -/
theorem seen_stays {pc : Pc} (hs : s.seen c = some (d, pc)) (hpc : pc ≠ .reading) {l : AdminLabel}
    (hl : ∀ env, l ≠ .server (.handler c env)) (hstep : s.adminStep l = some s') :
    s'.seen c = some (d, pc) := by
  have hmove : ∀ {c' conn} (a : Access) (pc' : Pc), s.conns[c']? = some conn → c' ≠ c →
      (s.advance c' a pc').seen c = some (d, pc) := fun a pc' hc hne => by
    rw [s.seen_advance a pc' hc, Function.update_of_ne (Ne.symm hne), hs]
  have hread : ∀ {c' : ℕ} {conn : Conn}, s.conns[c']? = some conn → conn.pc = .reading → c' ≠ c := by
    rintro c' conn hc hr rfl
    rw [seen_of_conn hc] at hs
    exact hpc ((Prod.mk.inj (Option.some.inj hs)).2 ▸ hr)
  cases l with
  | server l =>
    cases step_moves hstep with
    | connect deviceID token now upgraded device =>
      rw [seen_connect, if_neg (Nat.ne_of_lt (seen_lt hs)), hs]
    | receive c' frame conn hc hr => exact hmove _ _ hc (hread hc hr)
    | disconnect c' conn hc hr => exact hmove _ _ hc (hread hc hr)
    | handler c' env conn x hc =>
      refine hmove _ _ hc ?_
      rintro rfl
      exact hl env rfl
    | quiet _ _ _ hview => rw [seen_of_view hview, hs]
  | createDevice =>
    simp only [Server.adminStep] at hstep
    split_ifs at hstep
    cases hstep
    exact hs
  | pairDevices =>
    simp only [Server.adminStep] at hstep
    split at hstep <;> cases hstep
    exact hs
  | clearPairedWith | deleteRow =>
    cases hstep
    exact hs

/-- What the next step of a goroutine does follows from where it stands. -/
theorem next_of_seen {pc : Pc} {P : Server → Server → Prop} (hs : s.seen c = some (d, pc))
    (hpc : pc ≠ .reading) (hnext : ∀ s₁ conn env, s₁.conns[c]? = some conn → conn.pc = pc →
      ∃ x, exec s₁ c conn env = some x ∧ P s₁ (s₁.advance c x.1 x.2)) : s.Next c P := by
  intro labels s₁ env hrun hl
  have hs₁ : s₁.seen c = some (d, pc) := by
    refine Lts.run_inv (I := fun s => s.seen c = some (d, pc)) ?_ labels hs
      (Lts.meets_of_forall (p := fun l => ∀ env, l ≠ .server (.handler c env)) s ?_) hrun
    · exact fun s l s' hs hl hstep => seen_stays hs hpc hl hstep
    · rintro l hmem env rfl
      exact hl env hmem
  obtain ⟨conn, hc, hx⟩ := Option.map_eq_some_iff.1 hs₁
  obtain ⟨x, hexec, hP⟩ := hnext s₁ conn env hc (Prod.mk.inj hx).2
  refine ⟨_, ?_, hP⟩
  simp only [Server.step, runHandler, hc, hexec, Option.map_some]
  rfl

theorem next_closeAfterError (hs : s.seen c = some (d, .closeAfterError)) :
    s.Next c fun _ s' => s'.Closed c := by
  refine next_of_seen hs nofun fun s₁ conn env hc hpc => ⟨(.close c, .reading), ?_, ?_⟩
  · simp [exec, hpc]
  · refine ⟨_, by rw [advance_conns, hc]; rfl, ?_⟩
    simp [Access.on, Conn.close, Conn.setPc]

/-- `sendErrorAndClose` queues its frame, or closes the connection. -/
theorem next_sendErrorAndClose {code message : String}
    (hs : s.seen c = some (d, .sendErrorAndClose code message)) :
    s.Next c fun s₁ s₂ => (s₁.accepts c = true → s₁.Takes c (closingError code message) s₂)
      ∧ (s₁.accepts c = false → s₂.Next c fun _ s₃ => s₃.Closed c) := by
  refine next_of_seen hs nofun fun s₁ conn env hc hpc => ⟨_, by simp only [exec, hpc]; rfl, ?_, ?_⟩
  · intro ha
    refine ⟨conn, _, hc, by rw [advance_conns, hc]; rfl, ?_⟩
    have hconn : conn.accepts = true := by simpa [accepts, hc] using ha
    simp [Access.on, Conn.enqueue, hconn, Conn.setPc, closingError]
  · intro ha
    refine next_closeAfterError (d := conn.deviceID) ?_
    rw [s₁.seen_advance _ _ hc, Function.update_self]
    simp [ha]

/-- An announced key that is not the stored one is refused, and answered where the database works. -/
theorem announce_other (env : Env) {key : String} (hc : s.conns[c]? = some conn)
    (hpc : conn.pc = .announceKey key) (hset : s.devices.key conn.deviceID ≠ "")
    (hne : key ≠ s.devices.key conn.deviceID) :
    ∃ s', s.step (.handler c env) = some s' ∧ s'.devices = s.devices
      ∧ (env.fault = false → s'.seen c = some (conn.deviceID, .sendErrorAndClose "key_mismatch"
        "announced static key does not match the key locked on first connection")) := by
  have hmismatch : s.devices.setStaticKeyIfUnset conn.deviceID key = .error .errStaticKeyMismatch := by
    unfold Devices.setStaticKeyIfUnset
    unfold Devices.key at hset hne
    rcases hrow : s.devices conn.deviceID with _ | row <;> simp only [hrow, Option.elim] at hset hne ⊢
    · exact absurd rfl hset
    · rw [if_pos hset, if_pos (Ne.symm hne)]
  have hstep : ∀ x, exec s c conn env = some x → s.step (.handler c env) = some (s.advance c x.1 x.2) := by
    intro x hx
    simp only [Server.step, runHandler, hc, hx, Option.map_some]
    rfl
  refine ⟨_, hstep (handleAnnounceKey s c conn env key) (by simp only [exec, hpc]), ?_, fun hfault => ?_⟩
  · rw [advance_devices, handleAnnounceKey, hmismatch]
    by_cases hfault : env.fault <;> simp only [hfault, if_true, if_false, Bool.false_eq_true] <;> rfl
  · rw [s.seen_advance _ _ hc, Function.update_self, handleAnnounceKey, hmismatch, hfault]
    rfl

end Answer

/-- In every run in which `d` is not deleted: every key that any connection is told of `d` is the stored
one, which is the first that was stored; and an `announce_key` of another leaves the table as it is and
is answered, where its call of the database does not fail, with a closing frame, or by closing the
connection where its queue does not take the frame. -/
theorem reported_eq_stored {s₁ s₂ : Server} (devices : Devices) (pairCodes : PairCodes)
    (before after : List AdminLabel) (d : String)
    (h₁ : Lts.run adminStep (start devices pairCodes) before = some s₁)
    (h₂ : Lts.run adminStep s₁ after = some s₂)
    (hkept : ∀ l ∈ before ++ after, l ≠ .deleteRow d) :
    (∀ conn ∈ s₂.conns, ∀ frame ∈ conn.accepted, ∀ k, (d, k) ∈ frame.reports → k ≠ "" →
        s₂.devices.key d = k)
      ∧ (s₁.devices.key d ≠ "" → s₂.devices.key d = s₁.devices.key d)
      ∧ ∀ (c : ℕ) (conn : Conn) (key : String) (env : Env), s₂.conns[c]? = some conn →
        conn.deviceID = d → conn.pc = .announceKey key → s₂.devices.key d ≠ "" →
        key ≠ s₂.devices.key d →
        ∃ s, s₂.step (.handler c env) = some s ∧ s.devices = s₂.devices
          ∧ (env.fault = false → s.Next c fun s₃ s₄ =>
            (s₃.accepts c = true → s₃.Takes c (closingError "key_mismatch"
              "announced static key does not match the key locked on first connection") s₄)
            ∧ (s₃.accepts c = false → s₄.Next c fun _ s₅ => s₅.Closed c)) := by
  have hbefore : ∀ l ∈ before, l ≠ .deleteRow d := fun l hl => hkept l (List.mem_append_left _ hl)
  have hafter : ∀ l ∈ after, l ≠ .deleteRow d := fun l hl => hkept l (List.mem_append_right _ hl)
  have hstart : (start devices pairCodes).Locked d := fun c conn hc => by simp [start] at hc
  have hlocked₁ : s₁.Locked d := by
    refine Lts.run_inv (I := Locked d) ?_ before hstart (Lts.meets_of_forall _ hbefore) h₁
    exact fun s l s' hs hl hstep => (hs.adminStep hl hstep).1
  obtain ⟨hlocked, hkey⟩ : s₂.Locked d ∧ Devices.KeepsKey d s₁.devices s₂.devices := by
    refine Lts.run_inv (I := fun s => s.Locked d ∧ Devices.KeepsKey d s₁.devices s.devices) ?_ after
      ⟨hlocked₁, fun _ => rfl⟩ (Lts.meets_of_forall _ hafter) h₂
    intro s l s' hs hl hstep
    obtain ⟨hlocked, hkeeps⟩ := hs.1.adminStep hl hstep
    exact ⟨hlocked, hs.2.trans hkeeps⟩
  refine ⟨fun conn hconn frame hframe k hk hne => ?_, hkey, ?_⟩
  · obtain ⟨c, hc⟩ := List.mem_iff_getElem?.1 hconn
    rcases (hlocked c conn hc).2 k (List.mem_flatMap.2 ⟨frame, hframe, hk⟩) with hempty | heq
    · exact absurd hempty hne
    · exact heq
  · rintro c conn key env hc rfl hpc hset hne
    obtain ⟨s, hstep, hdev, hseen⟩ := announce_other env hc hpc hset hne
    exact ⟨s, hstep, hdev, fun hfault => next_sendErrorAndClose (hseen hfault)⟩

/-- `a` connects and announces a key. -/
def announcing : List Label :=
  Label.connect "a" "t" 0 true :: List.replicate 5 (plainStep 0)
    ++ [Label.takeRegister, .hub, .hub, .hub, .receive 0 (.announceKey "k"), plainStep 0]

/-- `b` connects and is told the key, and `a` announces another. -/
def announcingOther : List Label :=
  Label.connect "b" "t" 0 true :: List.replicate 5 (plainStep 1) ++ [Label.receive 0 (.announceKey "k'")]

theorem reported_eq_stored_refused :
    ∃ s₁ s₂, Lts.run adminStep (start linkedAB fun _ => none) (announcing.map .server) = some s₁
      ∧ Lts.run adminStep s₁ (announcingOther.map .server) = some s₂
      ∧ (∃ conn ∈ s₂.conns, ∃ frame ∈ conn.accepted, ("a", "k") ∈ frame.reports)
      ∧ s₂.devices.key "a" = "k"
      ∧ ∃ s, s₂.step (plainStep 0) = some s ∧ s.devices = s₂.devices
        ∧ s.Next 0 fun s₃ s₄ => (s₃.accepts 0 = true → s₃.Takes 0 (closingError "key_mismatch"
            "announced static key does not match the key locked on first connection") s₄)
          ∧ (s₃.accepts 0 = false → s₄.Next 0 fun _ s₅ => s₅.Closed 0) := by
  have h : (Lts.run adminStep (start linkedAB fun _ => none) (announcing.map .server)).any fun s₁ =>
      decide (s₁.devices.key "a" = "k")
        && (Lts.run adminStep s₁ (announcingOther.map .server)).any fun s₂ =>
          decide (∃ conn ∈ s₂.conns, ∃ frame ∈ conn.accepted, ("a", "k") ∈ frame.reports)
            && s₂.conns[0]?.any fun conn => decide (conn.deviceID = "a" ∧ conn.pc = .announceKey "k'") := by
    decide +kernel
  simp only [Bool.and_eq_true, decide_eq_true_eq, Option.any_eq_true] at h
  obtain ⟨s₁, hrun₁, hkey, s₂, hrun₂, hreported, conn, hc, hd, hpc⟩ := h
  have hkept : ∀ l ∈ announcing.map .server ++ announcingOther.map .server,
      l ≠ AdminLabel.deleteRow "a" := by
    rintro l hl rfl
    simp at hl
  obtain ⟨-, hlock, hanswer⟩ := reported_eq_stored linkedAB _ (announcing.map .server)
    (announcingOther.map .server) "a" hrun₁ hrun₂ hkept
  have hkey₂ : s₂.devices.key "a" = "k" := by rw [hlock (by simp [hkey]), hkey]
  obtain ⟨s, hstep, hdev, hnext⟩ := hanswer 0 conn "k'" ⟨0, false, none⟩ hc hd hpc (by simp [hkey₂])
    (by simp [hkey₂])
  exact ⟨s₁, s₂, hrun₁, hrun₂, hreported, hkey₂, s, hstep, hdev, hnext rfl⟩

end Server

end Relayly.Relay
