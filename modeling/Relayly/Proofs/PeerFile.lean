import Relayly.PeerFile
import Mathlib.Data.List.TakeWhile

/-!
# Pins in a file that several stores share

A call that finds no pin writes back the map it has checked, with the new pin. So a pin stays in
the file as long as each such call starts from a map that holds what the file holds, and no two of
them are under way at once. Where a store is behind the file, or a second one reads it before the
first has renamed, the pins written in between are gone.
-/

namespace Relayly.PeerFile

open Sdk (PinResult fileLookup comparePin withPin)

/-- The pinned key of a peer. -/
def keyOf (pins : Pins) (peerID : String) : Option String := (pins peerID).map PinnedPeer.staticKey

/-- Every pin of `file` is one of `pins`. -/
def Covers (pins file : Pins) : Prop :=
  ∀ peerID key, keyOf file peerID = some key → keyOf pins peerID = some key

theorem keyOf_withPin (pins : Pins) (peerID key stamp q : String) :
    keyOf (withPin pins peerID key stamp) q = if q = peerID then some key else keyOf pins q := by
  unfold keyOf withPin
  rw [Function.update_apply]
  split_ifs <;> rfl

/-- A new pin goes with those of the file. -/
theorem Covers.withPin {pins file : Pins} (h : Covers pins file) {peerID : String}
    (hnew : keyOf pins peerID = none) (key stamp : String) :
    Covers (withPin pins peerID key stamp) file := by
  intro q k hq
  have hk := h q k hq
  rw [keyOf_withPin, if_neg, hk]
  rintro rfl
  rw [hnew] at hk
  cases hk

/-! ## The temporary file -/

theorem fileStem_append_ne (name : List Char) : fileStem name ++ '.' :: "json.tmp".toList ≠ name := by
  intro h
  have hlen : ∀ {l : List Char}, l ++ '.' :: "json.tmp".toList ≠ l := fun hl =>
    absurd (congrArg List.length hl) (by simp)
  unfold fileStem at h
  generalize hp : (fun c : Char => decide (c ≠ '.')) = p at h
  rcases hd : name.reverse.dropWhile p with _ | ⟨dot, _ | ⟨c, stem⟩⟩ <;> simp only [hd] at h
  · exact hlen h
  · exact hlen h
  · -- what follows the last dot has no dot, but the new extension has one
    have hsplit : name.reverse.takeWhile p ++ dot :: c :: stem = name.reverse := by
      rw [← hd, List.takeWhile_append_dropWhile]
    have hname : (c :: stem).reverse ++ dot :: (name.reverse.takeWhile p).reverse = name := by
      have := congrArg List.reverse hsplit
      simpa using this
    have hext : "json.tmp".toList = (name.reverse.takeWhile p).reverse :=
      (List.cons.inj (List.append_cancel_left (h.trans hname.symm))).2
    have hmem : '.' ∈ name.reverse.takeWhile p := by
      rw [← List.mem_reverse, ← hext]
      decide
    have := List.mem_takeWhile_imp hmem
    simp [← hp] at this

theorem tmpName_ne (path : String) (kind : Kind) : tmpName path kind ≠ path := by
  have happ : path ++ ".tmp" ≠ path := fun h => by
    have := congrArg String.length h
    simp at this
  cases kind with
  | go => exact happ
  | ts => exact happ
  | rust =>
    intro h
    have hlist := congrArg String.toList h
    simp only [tmpName, withExtension, String.toList_ofList] at hlist
    have hpath : (path.toList.reverse.dropWhile fun c => decide (c ≠ '/')).reverse
        ++ (path.toList.reverse.takeWhile fun c => decide (c ≠ '/')).reverse = path.toList := by
      rw [← List.reverse_append, List.takeWhile_append_dropWhile, List.reverse_reverse]
    exact fileStem_append_ne _ (List.append_cancel_left (hlist.trans hpath.symm))

namespace Machine

variable {path : String} {s s' : Machine} {h : OpenStore} {i : ℕ}

theorem load_of_files (hf : s'.files path = s.files path) : s'.load path = s.load path := by
  rw [load, hf, load]

theorem keyOf_known (hl : s.lookup path h peerID = none) : keyOf (s.known path h) peerID = none := by
  unfold lookup at hl
  unfold known keyOf
  cases hk : h.kind <;> simp only [hk] at hl ⊢
  · simpa using hl
  · unfold fileLookup at hl
    split at hl
    · cases hl
    · rename_i hn
      rw [hn]
      rfl
  · simpa using hl

/-- What store `h` is about to rename goes with the file and has the new pin. -/
def Holds (path : String) (s : Machine) (h : OpenStore) : Prop :=
  match h.phase with
  | .idle => True
  | .writing peerID key pins => keyOf pins peerID = some key ∧ Covers pins (s.load path)
  | .renaming peerID key => ∃ pins, s.files (tmpName path h.kind) = some pins
    ∧ keyOf pins peerID = some key ∧ Covers pins (s.load path)

/-- All stores but `i` are at rest. -/
def Alone (s : Machine) (i : ℕ) : Prop :=
  ∀ (j : ℕ) (h : OpenStore), j ≠ i → s.stores[j]? = some h → h.phase = .idle

/-- The file has the pin of every call that returned success. -/
def Pinned (path : String) (s : Machine) : Prop :=
  ∀ r ∈ s.returned, r.result = .ok → keyOf (s.load path) r.peerID = some r.key

/-- One store at most is saving, its map holds what the file holds, and the file has the pin of
every call that returned success. -/
structure Inv (path : String) (s : Machine) : Prop where
  alone : ∀ (i : ℕ) (h : OpenStore), s.stores[i]? = some h → h.phase ≠ .idle → s.Alone i
  holds : ∀ (i : ℕ) (h : OpenStore), s.stores[i]? = some h → s.Holds path h
  pinned : s.Pinned path

/-- Where the other stores are at rest, only the one that moves is to be looked at. -/
theorem Inv.of_alone {h' : OpenStore} (ha : s.Alone i) (hs : s'.stores = s.stores.set i h')
    (hh : s'.Holds path h') (hp : s'.Pinned path) : s'.Inv path := by
  have hget : ∀ (j : ℕ) (g : OpenStore), s'.stores[j]? = some g →
      (j = i ∧ g = h') ∨ (j ≠ i ∧ g.phase = .idle) := by
    intro j g hj
    rw [hs, List.getElem?_set] at hj
    split_ifs at hj with hij hlt
    · exact .inl ⟨hij.symm, (Option.some.inj hj).symm⟩
    · exact .inr ⟨Ne.symm hij, ha j g (Ne.symm hij) hj⟩
  refine ⟨fun j g hj hg k g' hk hg' => ?_, fun j g hj => ?_, hp⟩
  · rcases hget j g hj with ⟨rfl, -⟩ | ⟨-, hidle⟩
    · rcases hget k g' hg' with ⟨rfl, -⟩ | ⟨-, hidle⟩
      · exact absurd rfl hk
      · exact hidle
    · exact absurd hidle hg
  · rcases hget j g hj with ⟨-, rfl⟩ | ⟨-, hidle⟩
    · exact hh
    · simp [Holds, hidle]

/-- What a call must find: a pin that matches is the file's too, and a map that is about to get a
new pin holds every pin of the file while no other call is saving. -/
def Current (path : String) (s : Machine) : Label → Prop
  | .pinOrVerify i peerID key _ => ∀ h, s.stores[i]? = some h →
    (s.lookup path h peerID = some (some key) → keyOf (s.load path) peerID = some key)
      ∧ (s.lookup path h peerID = none → Covers (s.known path h) (s.load path) ∧ s.Alone i)
  | _ => True

theorem Inv.load (hi : s.Inv path) (g : OpenStore) (hg : g.phase = .idle) :
    Inv path { s with stores := s.stores ++ [g] } := by
  have hget : ∀ (j : ℕ) (g' : OpenStore), (s.stores ++ [g])[j]? = some g' →
      s.stores[j]? = some g' ∨ g'.phase = .idle := by
    intro j g' hj
    rw [List.getElem?_append] at hj
    split_ifs at hj
    · exact .inl hj
    · obtain rfl := List.mem_singleton.1 (List.mem_of_getElem? hj)
      exact .inr hg
  refine ⟨fun j g' hj hidle k g'' hk hg'' => ?_, fun j g' hj => ?_, hi.pinned⟩
  · rcases hget j g' hj with hj | hj
    · rcases hget k g'' hg'' with hk' | hk'
      · exact hi.alone j g' hj hidle k g'' hk hk'
      · exact hk'
    · exact absurd hj hidle
  · rcases hget j g' hj with hj | hj
    · exact hi.holds j g' hj
    · simp [Holds, hj]

/-- A call that finds a pin. -/
theorem Inv.found (hi : s.Inv path) (hs : s.stores[i]? = some h) (hidle : h.phase = .idle)
    {peerID key : String} {existing : Option String}
    (hc : existing = some key → keyOf (s.load path) peerID = some key) :
    (s.finish i h peerID key (comparePin existing key)).Inv path := by
  have hstores : (s.finish i h peerID key (comparePin existing key)).stores = s.stores := by
    have hh : ({ h with phase := .idle } : OpenStore) = h := by rw [← hidle]
    simp only [finish, setStore, hh]
    exact List.ext_getElem? fun j => by
      rw [List.getElem?_set]
      split_ifs with hij hlt
      · rw [← hij, hs]
      · rw [← hij, List.getElem?_eq_none (by omega)]
      · rfl
  refine ⟨fun j g hj hg k g' hk hg' => ?_, fun j g hj => ?_, fun r hr hok => ?_⟩
  · rw [hstores] at hj hg'
    exact hi.alone j g hj hg k g' hk hg'
  · rw [hstores] at hj
    exact hi.holds j g hj
  · rcases List.mem_append.1 hr with hr | hr
    · exact hi.pinned r hr hok
    · obtain rfl := List.mem_singleton.1 hr
      refine hc ?_
      simp only [comparePin] at hok
      split_ifs at hok with he
      exact he

/-- A call that returns an error. -/
theorem Pinned.fault (hp : s.Pinned path) (i : ℕ) (h : OpenStore) (peerID key : String) :
    (s.finish i h peerID key .fault).Pinned path := by
  intro r hr hok
  rcases List.mem_append.1 hr with hr | hr
  · exact hp r hr hok
  · obtain rfl := List.mem_singleton.1 hr
    cases hok

theorem Inv.step (hi : s.Inv path) {l : Label} (hc : s.Current path l)
    (hstep : s.step path l = some s') : s'.Inv path := by
  cases l with
  | load kind =>
    obtain rfl := Option.some.inj hstep
    exact hi.load _ rfl
  | pinOrVerify i peerID key stamp =>
    rcases hs : s.stores[i]? with _ | h <;> simp only [Machine.step, hs] at hstep
    · cases hstep
    rcases hidle : h.phase with _ | _ | _ <;> simp only [hidle] at hstep
    · obtain ⟨hmatch, hnew⟩ := hc h hs
      rcases hl : s.lookup path h peerID with _ | existing <;> simp only [hl] at hstep <;>
        obtain rfl := Option.some.inj hstep
      · obtain ⟨hcov, ha⟩ := hnew hl
        refine .of_alone ha rfl ⟨?_, hcov.withPin (keyOf_known hl) key stamp⟩ hi.pinned
        rw [keyOf_withPin, if_pos rfl]
      · exact hi.found hs hidle fun he => hmatch (by rw [hl, he])
    · cases hstep
    · cases hstep
  | writeTemp i fault =>
    rcases hs : s.stores[i]? with _ | h <;> simp only [Machine.step, hs] at hstep
    · cases hstep
    have ha := hi.alone i h hs
    have hh := hi.holds i h hs
    unfold Holds at hh
    rcases hph : h.phase with _ | ⟨peerID, key, pins⟩ | _ <;> simp only [hph] at hstep hh
    · cases hstep
    · have ha : s.Alone i := ha (by simp [hph])
      split_ifs at hstep <;> obtain rfl := Option.some.inj hstep
      · exact .of_alone ha rfl trivial (hi.pinned.fault i h peerID key)
      · have hload : ∀ stores returned, Machine.load path
            ⟨Function.update s.files (tmpName path h.kind) (some pins), stores, returned⟩
              = s.load path := fun _ _ =>
          load_of_files (Function.update_of_ne (tmpName_ne path h.kind).symm _ _)
        refine .of_alone ha rfl ⟨pins, Function.update_self .., hh.1, ?_⟩ fun r hr hok => ?_
        · rw [hload]
          exact hh.2
        · rw [hload]
          exact hi.pinned r hr hok
    · cases hstep
  | rename i fault =>
    rcases hs : s.stores[i]? with _ | h <;> simp only [Machine.step, hs] at hstep
    · cases hstep
    have ha := hi.alone i h hs
    have hh := hi.holds i h hs
    unfold Holds at hh
    rcases hph : h.phase with _ | _ | ⟨peerID, key⟩ <;> simp only [hph] at hstep hh
    · cases hstep
    · cases hstep
    · have ha : s.Alone i := ha (by simp [hph])
      obtain ⟨pins, hf, hkey, hcov⟩ := hh
      rw [hf] at hstep
      cases fault with
      | true =>
        obtain rfl := Option.some.inj hstep
        exact .of_alone ha rfl trivial (hi.pinned.fault i h peerID key)
      | false =>
        obtain rfl := Option.some.inj hstep
        refine .of_alone ha rfl trivial fun r hr hok => ?_
        -- the file now holds what was in the temporary file
        have hload : ∀ stores returned, Machine.load path
            ⟨Function.update (Function.update s.files (tmpName path h.kind) none) path (some pins),
              stores, returned⟩ = pins := fun _ _ => by simp [Machine.load]
        rw [hload]
        rcases List.mem_append.1 hr with hr | hr
        · exact hcov _ _ (hi.pinned r hr hok)
        · obtain rfl := List.mem_singleton.1 hr
          exact hkey

/-! ## A call on its own -/

/-- The store that a call on `h` sees if no other store moves. -/
def storeOf (path : String) (s : Machine) (h : OpenStore) : Sdk.Store :=
  match h.kind with
  | .ts => .file (s.files path)
  | .go | .rust => .loaded h.peers (s.files path)

theorem pinOrVerify_found {peerID : String} {existing : Option String}
    (hl : s.lookup path h peerID = some existing) (key stamp : String) :
    (s.storeOf path h).pinOrVerify peerID key stamp none
      = (s.storeOf path h, comparePin existing key) := by
  unfold lookup load at hl
  cases hk : h.kind with
  | ts =>
    rw [hk] at hl
    simp [storeOf, hk, Sdk.Store.pinOrVerify, Sdk.Store.pinOrVerifyFile, hl]
  | go | rust =>
    simp only [hk, Option.map_eq_some_iff] at hl
    obtain ⟨pin, hp, rfl⟩ := hl
    simp [storeOf, hk, Sdk.Store.pinOrVerify, Sdk.Store.pinOrVerifyLoaded, hp]

theorem pinOrVerify_new {peerID : String} (hl : s.lookup path h peerID = none)
    (key stamp : String) :
    ((s.storeOf path h).pinOrVerify peerID key stamp none).2 = .ok
      ∧ ∀ (s' : Machine) (h' : OpenStore), h'.kind = h.kind →
        h'.peers = (if h.kind = .ts then h.peers else withPin (s.known path h) peerID key stamp) →
        s'.files path = some (withPin (s.known path h) peerID key stamp) →
        s'.storeOf path h' = ((s.storeOf path h).pinOrVerify peerID key stamp none).1 := by
  unfold lookup load at hl
  cases hk : h.kind with
  | ts =>
    rw [hk] at hl
    simp +contextual [storeOf, known, load, hk, Sdk.Store.pinOrVerify, Sdk.Store.pinOrVerifyFile, hl]
  | go | rust =>
    simp only [hk, Option.map_eq_none_iff] at hl
    simp +contextual [storeOf, known, hk, Sdk.Store.pinOrVerify, Sdk.Store.pinOrVerifyLoaded, hl]

theorem step_writeTemp (path : String) {peerID key : String} {pins : Pins}
    (hs : s.stores[i]? = some h) (hph : h.phase = .writing peerID key pins) :
    ∃ s', s.step path (.writeTemp i false) = some s'
      ∧ s'.stores[i]? = some { h with phase := .renaming peerID key }
      ∧ s'.files (tmpName path h.kind) = some pins ∧ s'.returned = s.returned := by
  have hlt := (List.getElem?_eq_some_iff.1 hs).1
  simp only [Machine.step, hs, hph]
  exact ⟨_, rfl, List.getElem?_set_self hlt, Function.update_self .., rfl⟩

theorem step_rename {peerID key : String} {pins : Pins} (hs : s.stores[i]? = some h)
    (hph : h.phase = .renaming peerID key) (hf : s.files (tmpName path h.kind) = some pins) :
    ∃ s', s.step path (.rename i false) = some s'
      ∧ s'.stores[i]? = some { h with phase := .idle } ∧ s'.files path = some pins
      ∧ s'.returned = s.returned ++ [⟨i, peerID, key, .ok⟩] := by
  have hlt := (List.getElem?_eq_some_iff.1 hs).1
  simp only [Machine.step, hs, hph, hf]
  exact ⟨_, rfl, List.getElem?_set_self hlt, Function.update_self .., rfl⟩

/-- A call whose steps come in a row is `pinOrVerify`. -/
theorem run_pinOrVerify (hs : s.stores[i]? = some h) (hidle : h.phase = .idle)
    (peerID key stamp : String) :
    ∃ as s' h', as <+: [.pinOrVerify i peerID key stamp, .writeTemp i false, .rename i false]
      ∧ Lts.run (Machine.step path) s as = some s'
      ∧ s'.stores[i]? = some h' ∧ h'.phase = .idle
      ∧ s'.storeOf path h' = ((s.storeOf path h).pinOrVerify peerID key stamp none).1
      ∧ s'.returned = s.returned
        ++ [⟨i, peerID, key, ((s.storeOf path h).pinOrVerify peerID key stamp none).2⟩] := by
  have hlt := (List.getElem?_eq_some_iff.1 hs).1
  rcases hl : s.lookup path h peerID with _ | existing
  · obtain ⟨hok, hstore⟩ := pinOrVerify_new hl key stamp
    let g := insertPin h peerID key (withPin (s.known path h) peerID key stamp)
    have h1 : s.step path (.pinOrVerify i peerID key stamp) = some (s.setStore i g) := by
      simp only [Machine.step, hs, hidle, hl]
      rfl
    have hg : (s.setStore i g).stores[i]? = some g := List.getElem?_set_self hlt
    obtain ⟨s₂, h2, hs₂, hf₂, hret₂⟩ := step_writeTemp path hg rfl
    obtain ⟨s₃, h3, hs₃, hf₃, hret₃⟩ := step_rename hs₂ rfl hf₂
    refine ⟨_, s₃, _, List.prefix_rfl, ?_, hs₃, rfl, hstore s₃ _ rfl rfl hf₃, ?_⟩
    · simp only [Lts.run, h1, h2, h3, Option.bind_some]
    · rw [hret₃, hret₂, hok]
      rfl
  · rw [pinOrVerify_found hl]
    refine ⟨[.pinOrVerify i peerID key stamp], s.finish i h peerID key (comparePin existing key),
      { h with phase := .idle }, by simp, ?_, List.getElem?_set_self hlt, rfl, rfl, rfl⟩
    simp [Lts.run, Machine.step, hs, hidle, hl]

/-! ## Whole runs -/

/-- While every call finds what it must, the file has the pin of each call that returned success,
and no other key of that peer is accepted by any store. -/
theorem pins_kept (path : String) (files : String → Option Pins) (as : List Label) (s : Machine)
    (hm : Lts.Meets (Machine.step path) (Current path) { files } as)
    (hrun : Lts.run (Machine.step path) { files } as = some s) :
    (∀ r ∈ s.returned, r.result = .ok → keyOf (s.load path) r.peerID = some r.key)
      ∧ ∀ r ∈ s.returned, ∀ r' ∈ s.returned, r.result = .ok → r'.result = .ok →
        r.peerID = r'.peerID → r.key = r'.key := by
  have hi : s.Inv path := Lts.run_inv (I := Inv path) (fun _ _ _ hi hc hs => hi.step hc hs) as
    ⟨by simp, by simp, by simp [Pinned]⟩ hm hrun
  refine ⟨hi.pinned, fun r hr r' hr' hok hok' hp => ?_⟩
  have h1 := hi.pinned r hr hok
  have h2 := hi.pinned r' hr' hok'
  rw [hp, h2] at h1
  exact (Option.some.inj h1).symm

/-- How calls on a file that is not there yet return, and the key it then has for `b`. -/
def outcome (as : List Label) : Option (List (String × String × PinResult) × Option String) :=
  (Lts.run (Machine.step "peers.json") { files := fun _ => none } as).map fun s =>
    (s.returned.map fun r => (r.peerID, r.key, r.result), keyOf (s.load "peers.json") "b")

/-- The steps of a call on store `i` that finds no pin, in a row. -/
def pinned (i : ℕ) (peerID key : String) : List Label :=
  [.pinOrVerify i peerID key "", .writeTemp i false, .rename i false]

/-- A store that was loaded before the pin of `b` writes back a map without it, and the next one
accepts another key. Two calls that read the file before either renames both return success. A
store renames the map that another has put in the temporary file. -/
theorem pins_lost :
    outcome ([Label.load .go, .load .rust] ++ pinned 0 "b" "K1" ++ pinned 1 "c" "K2"
        ++ [Label.load .ts] ++ pinned 2 "b" "K9")
      = some ([("b", "K1", .ok), ("c", "K2", .ok), ("b", "K9", .ok)], some "K9")
    ∧ outcome [.load .ts, .load .ts, .pinOrVerify 0 "b" "K1" "", .pinOrVerify 1 "b" "K9" "",
        .writeTemp 0 false, .rename 0 false, .writeTemp 1 false, .rename 1 false]
      = some ([("b", "K1", .ok), ("b", "K9", .ok)], some "K9")
    ∧ outcome [.load .go, .load .rust, .pinOrVerify 0 "b" "K1" "", .pinOrVerify 1 "c" "K2" "",
        .writeTemp 0 false, .writeTemp 1 false, .rename 0 false]
      = some ([("b", "K1", .ok)], none) := by
  refine ⟨?_, ?_, ?_⟩ <;> decide +kernel

theorem pins_kept_pinned :
    outcome ([Label.load .go] ++ pinned 0 "b" "K1" ++ [Label.load .ts, .pinOrVerify 1 "b" "K9" ""])
      = some ([("b", "K1", .ok), ("b", "K9", .mismatch)], some "K1")
    ∧ ∀ s, Lts.run (Machine.step "peers.json") { files := fun _ => none }
        ([Label.load .go] ++ pinned 0 "b" "K1" ++ [Label.load .ts, .pinOrVerify 1 "b" "K9" ""]) = some s →
      ∀ r ∈ s.returned, r.result = .ok → keyOf (s.load "peers.json") r.peerID = some r.key := by
  refine ⟨by decide +kernel, fun s hrun => (pins_kept "peers.json" _ _ s ?_ hrun).1⟩
  refine .cons trivial rfl (.cons (fun h hs => ?_) rfl (.cons trivial rfl (.cons trivial rfl
    (.cons trivial rfl (.cons (fun h hs => ?_) rfl trivial)))))
  · obtain rfl := Option.some.inj hs
    refine ⟨nofun, fun _ => ⟨fun _ _ hk => hk, fun j h hj hs => ?_⟩⟩
    obtain _ | j := j
    · exact absurd rfl hj
    · cases hs
  · obtain rfl := Option.some.inj hs
    exact ⟨fun hl => absurd hl (by decide +kernel), fun hl => absurd hl (by decide +kernel)⟩

end Machine

end Relayly.PeerFile
