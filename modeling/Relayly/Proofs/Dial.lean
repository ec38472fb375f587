import Relayly.Dial
import Relayly.Lib.Run

/-!
# `announce_key` comes first where the write loop waits for it

Between publishing a connection and the end of its own write, `dial` has the connection to itself
exactly as long as the write loop begins no write on it. Neither client makes it wait: a frame that
was queued while the connection was down is taken as soon as the new one is published.
-/

namespace Relayly.Dial

/-- The connection that `dial` works on. -/
@[simp] def Dialing.conn : Dialing → Option ℕ
  | .idle => none
  | .reading k | .welcomed k | .announcing k => some k

namespace Client

/-- What has been written on a connection, and who may be writing there. -/
def Good (s : Client) (k : ℕ) (conn : Conn) : Prop :=
  match conn.stage with
  | .opened => conn.frames = [] ∧ s.writer ≠ .writing k ∧ s.dial ≠ .announcing k
  | .announcing =>
    conn.frames = [.announceKey s.staticKey] ∧ s.writer ≠ .writing k
      ∧ s.dial ≠ .reading k ∧ s.dial ≠ .welcomed k ∧ (conn.closed = false → s.dial = .announcing k)
  | .announced => conn.frames.head? = some (.announceKey s.staticKey) ∧ s.dial.conn ≠ some k

structure Inv (s : Client) : Prop where
  conns : ∀ k conn, s.conns[k]? = some conn → s.Good k conn
  dialed : ∀ k ∈ s.dial.conn, k < s.conns.length
  writing : ∀ k, s.writer = .writing k → k < s.conns.length

variable {sdk : Sdk} {s s' : Client} {k : ℕ} {l : Label} {conn : Conn}

theorem Inv.announcesFirst (h : s.Inv) : s.AnnouncesFirst := by
  intro conn hmem frame hframe
  obtain ⟨k, hk⟩ := List.mem_iff_getElem?.1 hmem
  have hgood := h.conns k conn hk
  rcases conn with ⟨_ | _ | _, closed, frames⟩ <;> simp_all [Good]

theorem Inv.not_overlaps (h : s.Inv) : ¬ s.Overlaps := by
  rintro ⟨k, hdial, hwriter⟩
  obtain ⟨conn, hk⟩ : ∃ conn, s.conns[k]? = some conn :=
    ⟨_, List.getElem?_eq_getElem (h.writing k hwriter)⟩
  have hgood := h.conns k conn hk
  rcases conn with ⟨_ | _ | _, closed, frames⟩ <;> simp_all [Good]

/-! ## The steps -/

/-- A step that changes one connection at most. -/
theorem Inv.modify (h : s.Inv) (f : Conn → Conn) (hconns : s'.conns = s.conns.modify k f)
    (hself : ∀ conn, s.conns[k]? = some conn → s.Good k conn → s'.Good k (f conn))
    (hother : ∀ j conn, j ≠ k → s.Good j conn → s'.Good j conn)
    (hdialed : ∀ j, s'.dial.conn = some j → s.dial.conn = some j)
    (hwriting : ∀ j, s'.writer = .writing j → j < s.conns.length) : s'.Inv := by
  refine ⟨fun j conn' hj => ?_, fun j hj => ?_, fun j hj => ?_⟩
  · rw [hconns, List.getElem?_modify] at hj
    obtain ⟨conn, hconn, rfl⟩ := Option.map_eq_some_iff.1 hj
    by_cases hjk : k = j
    · subst hjk
      rw [if_pos rfl]
      exact hself conn hconn (h.conns k conn hconn)
    · rw [if_neg hjk]
      exact hother j conn (Ne.symm hjk) (h.conns j conn hconn)
  · rw [hconns, List.length_modify]
    exact h.dialed j (hdialed j hj)
  · rw [hconns, List.length_modify]
    exact hwriting j hj

/-- A step that leaves the connections alone. -/
theorem Inv.same (h : s.Inv) (hconns : s'.conns = s.conns)
    (hgood : ∀ j conn, s.Good j conn → s'.Good j conn)
    (hdialed : ∀ j, s'.dial.conn = some j → s.dial.conn = some j)
    (hwriting : ∀ j, s'.writer = .writing j → s.writer = .writing j) : s'.Inv where
  conns j conn hj := hgood j conn (h.conns j conn (hconns ▸ hj))
  dialed j hj := hconns ▸ h.dialed j (hdialed j hj)
  writing j hj := hconns ▸ h.writing j (hwriting j hj)

theorem Inv.close (h : s.Inv) (k : ℕ) : (s.close k).Inv := by
  refine h.modify _ rfl (fun conn _ hgood => ?_) (fun _ _ _ hgood => hgood) (fun _ hj => hj) h.writing
  rcases conn with ⟨_ | _ | _, closed, frames⟩ <;> simp_all [Good, Client.close, modifyConn]

/-- `dial` returns an error, and leaves no open connection in the middle of its write. -/
theorem Good.fail (hgood : s.Good k conn) (hdial : conn.closed = true ∨ s.dial ≠ .announcing k) :
    s.fail.Good k conn := by
  rcases conn with ⟨_ | _ | _, closed, frames⟩
  · exact ⟨hgood.1, hgood.2.1, nofun⟩
  · refine ⟨hgood.1, hgood.2.1, nofun, nofun, fun hopen => ?_⟩
    rcases hdial with hclosed | hne
    · exact absurd (hclosed.symm.trans hopen) (by decide)
    · exact absurd (hgood.2.2.2.2 hopen) hne
  · exact ⟨hgood.1, nofun⟩

theorem Inv.fail (h : s.Inv)
    (hdial : ∀ k conn, s.conns[k]? = some conn → conn.closed = true ∨ s.dial ≠ .announcing k) :
    s.fail.Inv where
  conns k conn hk := (h.conns k conn hk).fail (hdial k conn hk)
  dialed := nofun
  writing := h.writing

/-- `dial` closes its connection and gives up. -/
theorem Inv.abort (h : s.Inv) (hdial : s.dial.conn = some k) : (s.close k).fail.Inv := by
  refine (h.close k).fail fun j conn' hj => ?_
  rw [Client.close, modifyConn, List.getElem?_modify] at hj
  obtain ⟨conn, -, rfl⟩ := Option.map_eq_some_iff.1 hj
  by_cases hjk : k = j
  · exact .inl (by rw [if_pos hjk])
  · refine .inr fun hj' => hjk ?_
    have hdial' : s.dial = .announcing j := hj'
    simpa [hdial'] using hdial.symm

theorem isOpen_iff : s.isOpen k = true ↔ ∃ conn, s.conns[k]? = some conn ∧ conn.closed = false := by
  simp [isOpen, Option.any_eq_true]

theorem Inv.announce (h : s.Inv) (hdial : s.dial = .welcomed k) : (s.announce k).Inv := by
  unfold Client.announce
  split_ifs
  · refine h.modify _ rfl (fun conn _ hgood => ?_) (fun j conn hj hgood => ?_) (fun j hj => ?_)
      h.writing
    · rcases conn with ⟨_ | _ | _, closed, frames⟩ <;> simp_all [Good, modifyConn]
    · rcases conn with ⟨_ | _ | _, closed, frames⟩ <;> simp_all [Good, modifyConn, Ne.symm hj]
    · rw [hdial]
      exact hj
  · exact h.abort (by rw [hdial]; rfl)

theorem Inv.announced (h : s.Inv) (hdial : s.dial = .announcing k) (ok : Bool) :
    (s.announced k ok).Inv := by
  unfold Client.announced
  split_ifs
  · refine h.modify _ rfl (fun conn _ hgood => ?_) (fun j conn hj hgood => ?_) nofun h.writing
    · rcases conn with ⟨_ | _ | _, closed, frames⟩ <;> simp_all [Good, modifyConn]
    · rcases conn with ⟨_ | _ | _, closed, frames⟩ <;> simp_all [Good, modifyConn, Ne.symm hj]
  · exact h.abort (by rw [hdial]; rfl)

/-- The write loop is not in a write. -/
theorem Inv.setWriter (h : s.Inv) (queue : List Queued) {writer : Writing}
    (hwriter : ∀ k, writer ≠ .writing k) : ({ s with queue, writer } : Client).Inv := by
  refine h.same rfl (fun j conn hgood => ?_) (fun _ hj => hj) fun j hj => absurd hj (hwriter j)
  rcases conn with ⟨_ | _ | _, closed, frames⟩
  · exact ⟨hgood.1, hwriter j, hgood.2.2⟩
  · exact ⟨hgood.1, hwriter j, hgood.2.2⟩
  · exact hgood

/-- The write loop writes on a connection where `announce_key` has been written. -/
theorem Inv.beginWrite (h : s.Inv) {f : Queued}
    (hstage : ∀ conn ∈ s.conns[k]?, conn.closed = false → conn.stage = .announced) :
    (s.beginWrite f k).Inv := by
  unfold Client.beginWrite
  split_ifs with hopen
  · obtain ⟨conn, hconn, hclosed⟩ := isOpen_iff.1 hopen
    have hannounced := hstage conn hconn hclosed
    refine h.modify _ rfl (fun conn' hconn' hgood => ?_) (fun j conn' hj hgood => ?_) (fun _ hj => hj)
      fun j hj => ?_
    · obtain rfl : conn = conn' := Option.some.inj (hconn.symm.trans hconn')
      rcases conn with ⟨_ | _ | _, closed, frames⟩ <;> simp_all [Good, modifyConn]
    · rcases conn' with ⟨_ | _ | _, closed, frames⟩ <;> simp_all [Good, modifyConn, Ne.symm hj]
    · cases hj
      exact (List.getElem?_eq_some_iff.1 hconn).1
  · exact h.setWriter s.queue nofun

theorem Inv.connect (h : s.Inv) (hdial : s.dial = .idle) :
    ({ s with
      conns := s.conns ++ [{}]
      current := some s.conns.length
      dial := .reading s.conns.length } : Client).Inv := by
  refine ⟨fun j conn hj => ?_, fun j hj => ?_, fun j hj => ?_⟩
  · by_cases hlt : j < s.conns.length
    · have hold := h.conns j conn ((List.getElem?_append_left hlt).symm.trans hj)
      have hne : s.conns.length ≠ j := by omega
      rcases conn with ⟨_ | _ | _, closed, frames⟩ <;> simp_all [Good]
    · obtain ⟨hj', hconn⟩ : j - s.conns.length = 0 ∧ {} = conn := by
        simpa [List.getElem?_append_right (Nat.le_of_not_lt hlt), List.getElem?_singleton] using hj
      subst hconn
      refine ⟨rfl, fun hwriter => hlt (h.writing j hwriter), nofun⟩
  · cases hj
    simp
  · have hlt := h.writing j hj
    simp only [List.length_append, List.length_singleton]
    omega

theorem Inv.queue (h : s.Inv) (queue : List Queued) : ({ s with queue } : Client).Inv :=
  h.same rfl (fun _ _ hgood => hgood) (fun _ hj => hj) fun _ hj => hj

theorem step_take (h : s.step sdk .take = some s') :
    ∃ f queue, s.started = true ∧ s.writer = .idle ∧ s.queue = f :: queue
      ∧ s' = take sdk { s with queue } f := by
  simp only [Client.step] at h
  split at h
  · rename_i f queue hstarted hwriter hqueue
    exact ⟨f, queue, hstarted, hwriter, hqueue, (Option.some.inj h).symm⟩
  · cases h

theorem Inv.take (h : s.Inv) {f : Queued} (hstage : sdk = .py → ∀ k ∈ s.current,
    ∀ conn ∈ s.conns[k]?, conn.closed = false → conn.stage = .announced) :
    (Client.take sdk s f).Inv := by
  unfold Client.take
  split
  · exact h.setWriter s.queue nofun
  · exact h.beginWrite (hstage rfl _ ‹_›)
  · exact h

theorem step_write {f : Queued} (h : s.writer = .loaded f k) :
    s.step sdk .write = some (s.beginWrite f k) := by
  simp only [Client.step]
  rw [h]

theorem take_py {f : Queued} (h : s.current = some k) : take .py s f = s.beginWrite f k := by
  unfold take
  rw [h]

theorem Inv.step (h : s.Inv) (hwaits : s.Waits sdk l) (hstep : s.step sdk l = some s') : s'.Inv := by
  cases l with
  | connect =>
    rcases hdial : s.dial with _ | k | k | k <;> simp only [Client.step, hdial, reduceCtorEq] at hstep
    split_ifs at hstep
    cases hstep
    exact h.connect hdial
  | welcome =>
    rcases hdial : s.dial with _ | k | k | k <;> simp only [Client.step, hdial, reduceCtorEq] at hstep
    cases hstep
    refine h.same rfl (fun j conn hgood => ?_) (fun j hj => by rw [hdial]; exact hj) fun _ hj => hj
    rcases conn with ⟨_ | _ | _, closed, frames⟩ <;> simp_all [Good]
  | refuse =>
    rcases hdial : s.dial with _ | k | k | k <;> simp only [Client.step, hdial, reduceCtorEq] at hstep
    cases hstep
    exact h.abort (by rw [hdial]; rfl)
  | timeOut =>
    rcases sdk <;> rcases hdial : s.dial with _ | k | k | k <;>
      simp only [Client.step, hdial, reduceCtorEq] at hstep
    cases hstep
    exact h.fail fun j conn _ => .inr (by simp [hdial])
  | keyError =>
    rcases sdk <;> rcases hdial : s.dial with _ | k | k | k <;>
      simp only [Client.step, hdial, reduceCtorEq] at hstep
    cases hstep
    exact h.abort (by rw [hdial]; rfl)
  | announce =>
    rcases hdial : s.dial with _ | k | k | k <;> simp only [Client.step, hdial, reduceCtorEq] at hstep
    cases hstep
    exact h.announce hdial
  | announced ok =>
    rcases hdial : s.dial with _ | k | k | k <;> simp only [Client.step, hdial, reduceCtorEq] at hstep
    cases hstep
    exact h.announced hdial ok
  | enqueue f =>
    simp only [Client.step] at hstep
    split_ifs at hstep
    cases hstep
    exact h.same rfl (fun _ _ hgood => hgood) (fun _ hj => hj) fun _ hj => hj
  | take =>
    obtain ⟨f, queue, hstarted, hwriter, hqueue, rfl⟩ := step_take hstep
    refine (h.queue queue).take fun hpy k hk => hwaits k ?_
    simpa [beginsOn, hwriter, hstarted, hqueue, hpy] using hk
  | load =>
    simp only [Client.step] at hstep
    split at hstep <;> cases hstep
    exact h.setWriter s.queue nofun
  | write =>
    simp only [Client.step] at hstep
    split at hstep
    · rename_i f k hwriter
      cases hstep
      exact h.beginWrite (hwaits k (by simp [beginsOn, hwriter]))
    · cases hstep
  | written =>
    rcases hwriter : s.writer with _ | f | ⟨f, k⟩ | k <;>
      simp only [Client.step, hwriter, reduceCtorEq] at hstep
    cases hstep
    exact h.setWriter s.queue nofun
  | lost k =>
    cases hstep
    exact h.close k

/-! ## A write that does not wait -/

theorem step_of_beginsOn (h : s.beginsOn sdk l = some k) :
    ∃ f queue, s.step sdk l = some (({ s with queue } : Client).beginWrite f k) := by
  unfold beginsOn at h
  split at h
  · rename_i f j hwriter
    cases h
    exact ⟨f, s.queue, step_write hwriter⟩
  · rename_i hwriter
    split_ifs at h with hcond
    obtain ⟨rfl, hstarted, hqueue⟩ := hcond
    obtain ⟨f, queue, hcons⟩ := List.exists_cons_of_ne_nil hqueue
    refine ⟨f, queue, ?_⟩
    rw [← take_py (s := { s with queue }) h]
    simp only [step]
    rw [hstarted, hwriter, hcons]
  · cases h

/-- On a connection that `dial` has not done with, the write comes first or overlaps. -/
theorem Inv.beginWrite_bad (h : s.Inv) {f : Queued} (hconn : s.conns[k]? = some conn)
    (hopen : conn.closed = false) (hstage : conn.stage ≠ .announced) :
    ¬ ((s.beginWrite f k).AnnouncesFirst ∧ ¬ (s.beginWrite f k).Overlaps) := by
  have hgood := h.conns k conn hconn
  have hisOpen : s.isOpen k = true := isOpen_iff.2 ⟨conn, hconn, hopen⟩
  rintro ⟨hfirst, hoverlaps⟩
  rw [Client.beginWrite, if_pos hisOpen] at hfirst hoverlaps
  rcases hs : conn.stage with _ | _ | _
  · have hframes : conn.frames = [] := by
      rw [Good, hs] at hgood
      exact hgood.1
    have hmem : { conn with frames := [.queued f] } ∈ s.conns.modify k fun conn =>
        { conn with frames := conn.frames ++ [.queued f] } :=
      List.mem_of_getElem? (i := k) (by simp [hconn, hframes])
    have := hfirst _ hmem _ rfl
    cases this
  · have hdial : s.dial = .announcing k := by
      rw [Good, hs] at hgood
      exact hgood.2.2.2.2 hopen
    exact hoverlaps ⟨k, hdial, rfl⟩
  · exact hstage hs

theorem Inv.waits_iff (h : s.Inv) (sdk : Sdk) (l : Label) :
    (∀ s' ∈ s.step sdk l, s'.AnnouncesFirst ∧ ¬ s'.Overlaps) ↔ s.Waits sdk l := by
  constructor
  · intro hall k hk conn hconn hopen
    obtain ⟨f, queue, hstep⟩ := step_of_beginsOn hk
    by_contra hstage
    exact (h.queue queue).beginWrite_bad hconn hopen hstage (hall _ hstep)
  · intro hwaits s' hs'
    have h' := h.step hwaits hs'
    exact ⟨h'.announcesFirst, h'.not_overlaps⟩

/-- In every run of the Go and of the Python client, `announce_key` is the first frame on each
connection and `dial`'s write overlaps no write of the write loop, in every state reached, exactly
if each write of the write loop waits for `dial`. -/
theorem announcesFirst_iff_waits (sdk : Sdk) (staticKey : String) (ls : List Label) :
    Lts.Meets (step sdk) (fun s l => ∀ s' ∈ s.step sdk l, s'.AnnouncesFirst ∧ ¬ s'.Overlaps)
        { staticKey } ls
      ↔ Lts.Meets (step sdk) (Waits sdk) { staticKey } ls := by
  have hstart : Inv { staticKey } := ⟨nofun, nofun, nofun⟩
  exact Lts.meets_congr (I := Inv) (fun s l s' h hw hs => h.step hw hs)
    (fun s l h => h.waits_iff sdk l) ls hstart

/-- A connection is lost, a ping is queued and `dial` publishes the next connection. -/
def reconnecting : List Label :=
  [.connect, .welcome, .announce, .announced true, .lost 0, .enqueue .ping, .connect]

/-- The write loop writes one frame. -/
def writesOne : Sdk → List Label
  | .go => [.take, .load, .write]
  | .py => [.take]

/-- The ping goes out before `announce_key`, or during its write. -/
theorem ping_first_or_overlapping :
    (∀ sdk, ∃ s, Lts.run (step sdk) { staticKey := "key" } (reconnecting ++ writesOne sdk) = some s
      ∧ ¬ s.AnnouncesFirst)
    ∧ ∀ sdk, ∃ s, Lts.run (step sdk) { staticKey := "key" }
        (reconnecting ++ [Label.welcome, .announce] ++ writesOne sdk) = some s ∧ s.Overlaps := by
  refine ⟨fun sdk => ?_, fun sdk => ?_⟩
  · cases sdk
    · exact ⟨_, rfl, by decide⟩
    · exact ⟨_, rfl, by decide⟩
  · cases sdk
    · exact ⟨_, rfl, 1, rfl, rfl⟩
    · exact ⟨_, rfl, 1, rfl, rfl⟩

end Client

end Relayly.Dial
