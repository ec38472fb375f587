import Relayly.Lib.Run
import Relayly.Lib.Uri
import Relayly.Sdk.CppStore

/-!
# What a save of the C++ client leaves behind

Up to the rename the file is as it was, so a call that throws loses nothing. What is renamed is
whatever the stream has left, and that is the store only if every byte was written.
-/

namespace Relayly.Sdk.Cpp

namespace PeerStore

variable {lib : JsonText} {store before : PeerStore} {files : Files} {c : Call}

/-! ## The map -/

lemma get_eq_none_iff {peerID : String} :
    store.get peerID = none ↔ peerID ∉ store.peers.map (·.1) := by
  rw [get, List.lookup_eq_none_iff, List.mem_map]
  constructor
  · rintro hnone ⟨p, hp, rfl⟩
    simpa using hnone p hp
  · intro hmem p hp
    rw [bne_iff_ne]
    rintro rfl
    exact hmem ⟨p, hp, rfl⟩

lemma get_emplace_self {peerID : String} (hnew : store.get peerID = none) (entry : PinnedPeer) :
    (store.emplace peerID entry).get peerID = some entry := by
  rw [emplace, dif_neg (get_eq_none_iff.mp hnew)]
  simp [get]

lemma emplace_of_some {peerID : String} {pin : PinnedPeer} (hpin : store.get peerID = some pin)
    (entry : PinnedPeer) : store.emplace peerID entry = store := by
  rw [emplace, dif_pos]
  by_contra hmem
  rw [get_eq_none_iff.mpr hmem] at hpin
  cases hpin

lemma get_emplace_of_ne {peerID q : String} (hne : q ≠ peerID) (entry : PinnedPeer) :
    (store.emplace peerID entry).get q = store.get q := by
  unfold emplace
  split
  · rfl
  · rw [get, List.lookup_cons, beq_false_of_ne hne]
    rfl

/-- An entry that is there stays. -/
lemma get_emplace_of_some {peerID q : String} {pin : PinnedPeer} (hpin : store.get q = some pin)
    (entry : PinnedPeer) : (store.emplace peerID entry).get q = some pin := by
  by_cases hq : q = peerID
  · subst hq
    rw [emplace_of_some hpin, hpin]
  · rw [get_emplace_of_ne hq, hpin]

lemma mem_peers_of_get {peerID : String} {pin : PinnedPeer} (hpin : store.get peerID = some pin) :
    (peerID, pin) ∈ store.peers := by
  obtain ⟨l₁, l₂, heq, -⟩ := List.lookup_eq_some_iff.mp hpin
  rw [heq]
  simp

/-! ## `Load` after `Save` -/

lemma loadEntry_entryDocument (entry : PinnedPeer) :
    loadEntry (entryDocument entry) = .ok entry := by
  have hkeys : ((entryFields entry).map (·.1)).Nodup := by simp [entryFields]
  have hstatic := Json.lookup_assignAll (k := "static_key") (v := some (.str entry.staticKey)) hkeys
    (by simp [entryFields])
  have hpinned := Json.lookup_assignAll (k := "pinned_at") (v := some (.str entry.pinnedAt)) hkeys
    (by simp [entryFields])
  simp only [entryDocument, loadEntry, WireMessage.value, hstatic, hpinned]
  rfl

/-- The loop over the items: an entry that is there first wins. -/
lemma loadItems_entries : ∀ (members : List (String × Document)) (store : PeerStore),
    (∀ m ∈ members, ∃ entry, m.2 = entryDocument entry) →
      ∃ after, loadItems members store = some after ∧ ∀ q, after.get q =
        (store.get q).or ((members.lookup q).bind fun v => (loadEntry v).toOption)
  | [], store, _ => ⟨store, rfl, fun q => by simp⟩
  | (peerID, value) :: rest, store, hall => by
    obtain ⟨entry, rfl⟩ := hall _ List.mem_cons_self
    have hentry : (loadEntry (entryDocument entry)).toOption = some entry := by
      rw [loadEntry_entryDocument]
      rfl
    obtain ⟨after, hload, hget⟩ := loadItems_entries rest (store.emplace peerID entry)
      fun m hm => hall m (List.mem_cons_of_mem _ hm)
    refine ⟨after, by rw [loadItems, hentry]; exact hload, fun q => ?_⟩
    rw [hget]
    by_cases hq : q = peerID
    · subst hq
      rw [List.lookup_cons_self, Option.bind_some, hentry]
      cases hstore : store.get q with
      | none => rw [get_emplace_self hstore]; rfl
      | some pin => rw [get_emplace_of_some hstore]; rfl
    · rw [get_emplace_of_ne hq, Json.lookup_cons_of_ne hq]

lemma keys_fields (store : PeerStore) : store.fields.map (·.1) = store.peers.map (·.1) := by
  simp [fields]

/-- What the document of a store has under a key. -/
lemma lookup_document (store : PeerStore) (q : String) :
    (Json.assignAll store.fields).lookup q = (store.get q).map entryDocument := by
  cases hget : store.get q with
  | none =>
    refine Json.lookup_assignAll_of_notMem ?_
    rw [keys_fields]
    exact get_eq_none_iff.mp hget
  | some pin =>
    refine Json.lookup_assignAll ?_ ?_
    · rw [keys_fields]
      exact store.nodup
    · exact List.mem_map.mpr ⟨(q, pin), mem_peers_of_get hget, rfl⟩

/-- A store that is written as a whole is loaded again. -/
lemma load_dump (hlib : lib.Reads store.document) :
    ∃ after, load lib (some (lib.dump store.document)) = some after ∧
      ∀ q, after.get q = store.get q := by
  obtain ⟨after, hload, hget⟩ := loadItems_entries (Json.assignAll store.fields) empty
    fun m hm => by
      obtain ⟨p, -, hp⟩ := List.mem_map.mp (Json.mem_assignAll hm)
      exact ⟨p.2, Option.some.inj (Prod.mk.inj hp).2.symm⟩
  refine ⟨after, ?_, fun q => ?_⟩
  · rw [load, hlib.whole]
    exact hload
  · rw [hget, lookup_document]
    cases hq : store.get q with
    | none => rfl
    | some pin =>
      rw [Option.map_some, Option.bind_some, loadEntry_entryDocument]
      rfl

/-! ## `Save` -/

/-- Either the call throws and the file is as it was, or what the stream left is the file now. -/
lemma save_cases (lib : JsonText) (store : PeerStore) (files : Files) (fate : SaveFate) :
    ((save lib store files fate).1.target = files.target ∧
        (save lib store files fate).2 = .fault ∧
        (fate.created = true → fate.renamed = true → tmpText lib store files fate = none)) ∨
      ∃ text, tmpText lib store files fate = some text ∧ fate.created = true ∧
        fate.renamed = true ∧
        save lib store files fate = ({ target := some text, tmp := none }, .ok) := by
  unfold save
  cases hcreated : fate.created with
  | false => exact .inl ⟨rfl, rfl, fun h => by cases h⟩
  | true =>
    cases htext : tmpText lib store files fate with
    | none => exact .inl ⟨rfl, rfl, fun _ _ => rfl⟩
    | some text =>
      cases hrenamed : fate.renamed with
      | false => exact .inl ⟨rfl, rfl, fun _ h => by cases h⟩
      | true => exact .inr ⟨text, rfl, rfl, rfl, rfl⟩

lemma tmpText_of_opened {fate : SaveFate} (hopened : fate.opened = true) :
    tmpText lib store files fate = some ((lib.dump store.document).take fate.written) := by
  rw [tmpText, if_pos hopened]

lemma tmpText_of_not_opened {fate : SaveFate} (hopened : ¬ fate.opened = true) :
    tmpText lib store files fate = files.tmp := by
  rw [tmpText, if_neg hopened]

/-! ## One call -/

lemma pinOrVerify_new (hnew : store.get c.peerID = none) :
    pinOrVerify lib store files c =
      (store.pinned c, save lib (store.pinned c) files c.fate) := by
  rw [pinOrVerify, hnew]

lemma pinOrVerify_pinned {pin : PinnedPeer} (hpin : store.get c.peerID = some pin) :
    pinOrVerify lib store files c = (store, files, comparePin (some pin.staticKey) c.key) := by
  rw [pinOrVerify, hpin]

/-- The pins of a file that has the map with the new pin. -/
lemma get_pinned_of_le (hmem : ∀ q pin, before.get q = some pin → store.get q = some pin)
    {q : String} {pin : PinnedPeer} (hq : before.get q = some pin) :
    (store.pinned c).get q = some pin :=
  get_emplace_of_some (hmem q pin hq) _

/-- The text that the stream left, if it could be opened: the law holds of it if it is all of it. -/
lemma keeps_take_iff (hnew : store.get c.peerID = none)
    (hmem : ∀ q pin, before.get q = some pin → store.get q = some pin)
    (hlib : lib.Reads (store.pinned c).document) (n : ℕ) :
    Keeps lib before c (some ((lib.dump (store.pinned c).document).take n)) .ok ↔
      (lib.dump (store.pinned c).document).length ≤ n := by
  constructor
  · rintro ⟨after, hload, -⟩
    by_contra hlt
    rw [load, hlib.short n (not_le.mp hlt)] at hload
    cases hload
  · intro hle
    obtain ⟨after, hload, hget⟩ := load_dump hlib
    refine ⟨after, by rw [List.take_of_length_le hle]; exact hload, fun q pin hq => ?_, fun _ => ?_⟩
    · rw [hget]
      exact get_pinned_of_le hmem hq
    · rw [hget, pinned, get_emplace_self hnew]
      rfl

/-- A call that renames nothing keeps the law, unless it confirms a pin that the file does not
have. -/
lemma keeps_of_target_eq (hbefore : load lib files.target = some before) {result : PinResult}
    {target : Option Bytes} (htarget : target = files.target) :
    Keeps lib before c target result ↔
      (result = .ok → (before.get c.peerID).map PinnedPeer.staticKey = some c.key) := by
  subst htarget
  constructor
  · rintro ⟨after, hload, -, hnew⟩
    obtain rfl : before = after := Option.some.inj (hbefore.symm.trans hload)
    exact hnew
  · intro hnew
    exact ⟨before, hbefore, fun _ _ hq => hq, hnew⟩

/-- A save: the law holds exactly if what is renamed is whole. -/
lemma keeps_save_iff (hbefore : load lib files.target = some before)
    (hmem : ∀ q pin, before.get q = some pin → store.get q = some pin)
    (hnew : store.get c.peerID = none) (hlib : lib.Reads (store.pinned c).document) :
    Keeps lib before c (save lib (store.pinned c) files c.fate).1.target
        (save lib (store.pinned c) files c.fate).2 ↔
      (c.fate.created = true → c.fate.renamed = true → Whole lib store files before c) := by
  rcases save_cases lib (store.pinned c) files c.fate with
    ⟨htarget, hfault, hnone⟩ | ⟨text, htext, hcreated, hrenamed, hsave⟩
  · rw [keeps_of_target_eq hbefore htarget, hfault]
    refine iff_of_true (fun h => by cases h) fun hcreated hrenamed => ?_
    -- nothing was renamed, so there was no temporary file, old or new
    have hnone := hnone hcreated hrenamed
    by_cases hopened : c.fate.opened = true
    · rw [tmpText_of_opened hopened] at hnone
      cases hnone
    · rw [tmpText_of_not_opened hopened] at hnone
      rw [Whole, if_neg hopened, hnone]
      intro text htext
      cases htext
  · rw [hsave]
    simp only [hcreated, hrenamed, true_implies]
    by_cases hopened : c.fate.opened = true
    · rw [tmpText_of_opened hopened] at htext
      obtain rfl := Option.some.inj htext
      rw [Whole, if_pos hopened]
      exact keeps_take_iff hnew hmem hlib c.fate.written
    · rw [tmpText_of_not_opened hopened] at htext
      rw [Whole, if_neg hopened, htext]
      constructor
      · intro hkeeps text' htext'
        obtain rfl := Option.some.inj htext'
        exact hkeeps
      · intro hstale
        exact hstale text rfl

/-- On a store that has the pins of its file, a call leaves a file that loads, with all pins it had
and, if the call returned, the new one, exactly if what the call renames has been written in full
and a pin it confirms is in the file. -/
theorem pinOrVerify_keeps_iff (lib : JsonText) (store before : PeerStore) (files : Files) (c : Call)
    (hbefore : load lib files.target = some before)
    (hmem : ∀ q pin, before.get q = some pin → store.get q = some pin)
    (hlib : lib.Reads (store.pinned c).document) :
    Keeps lib before c (pinOrVerify lib store files c).2.1.target
        (pinOrVerify lib store files c).2.2 ↔
      Safe lib store files before c := by
  unfold Safe
  cases hpin : store.get c.peerID with
  | some existing =>
    rw [pinOrVerify_pinned hpin, keeps_of_target_eq hbefore rfl]
    simp [comparePin]
  | none =>
    rw [pinOrVerify_new hpin]
    exact keeps_save_iff hbefore hmem hpin hlib

/-- Where the rename is reached, all of the text is in the temporary file. -/
def Written (lib : JsonText) (store : PeerStore) (c : Call) : Prop :=
  c.fate.created = true → c.fate.renamed = true →
    c.fate.opened = true ∧ (lib.dump (store.pinned c).document).length ≤ c.fate.written

lemma safe_of_written (hnew : store.get c.peerID = none) (hwritten : Written lib store c) :
    Safe lib store files before c := by
  rw [Safe, hnew]
  intro hcreated hrenamed
  obtain ⟨hopened, hlen⟩ := hwritten hcreated hrenamed
  rw [Whole, if_pos hopened]
  exact hlen

section Sample

/-- A text of several lines. -/
def lines (ls : List String) : Bytes := [0x0A].intercalate (ls.map Uri.ascii)

/-- A store with one pin, and its text. -/
def sampleStore : PeerStore := ⟨[("a", ⟨"k", "t0"⟩)], by decide⟩

def sampleText : Bytes :=
  lines ["\x7b", "  \"a\": \x7b", "    \"pinned_at\": \"t0\",", "    \"static_key\": \"k\"", "  \x7d",
    "\x7d"]

/-- A second pin, for which `written` bytes reach the temporary file. -/
def sampleCall (written : ℕ) : Call := ⟨"b", "l", "t1", ⟨true, true, written, true⟩⟩

def sampleStore2 : PeerStore := sampleStore.emplace "b" ⟨"l", "t1"⟩

lemma pinned_sampleCall (written : ℕ) : sampleStore.pinned (sampleCall written) = sampleStore2 :=
  rfl

def sampleText2 : Bytes :=
  lines ["\x7b", "  \"a\": \x7b", "    \"pinned_at\": \"t0\",", "    \"static_key\": \"k\"", "  \x7d,",
    "  \"b\": \x7b", "    \"pinned_at\": \"t1\",", "    \"static_key\": \"l\"", "  \x7d", "\x7d"]

/-- Of the JSON library, what two texts need. -/
def twoTexts (text text2 : Bytes) (doc doc2 : Document) : JsonText where
  dump _ := text2
  parse t := if t = text2 then some doc2 else if t = text then some doc else none

lemma twoTexts_reads {text text2 : Bytes} {doc doc2 : Document}
    (hnot : ¬ text <+: text2) :
    (twoTexts text text2 doc doc2).Reads doc2 where
  whole := if_pos rfl
  short n hn := by
    have hshort : text2.take n ≠ text2 := fun heq => by
      have hlen := congrArg List.length heq
      rw [List.length_take] at hlen
      have hlt : n < text2.length := hn
      omega
    have hold : text2.take n ≠ text := fun heq => hnot (heq ▸ List.take_prefix n text2)
    exact (if_neg hshort).trans (if_neg hold)

/-- The library on the texts of the store with one pin and with two. -/
def sampleLib : JsonText :=
  twoTexts sampleText sampleText2 sampleStore.document sampleStore2.document

lemma load_sampleText : load sampleLib (some sampleText) = some sampleStore := by
  have hne : sampleText ≠ sampleText2 := by decide +kernel
  have hparse : sampleLib.parse sampleText = some sampleStore.document := by
    simp only [sampleLib, twoTexts, if_neg hne, if_true]
  rw [load, hparse]
  rfl

/-- A save that is written to its end. -/
theorem pinOrVerify_keeps_written :
    load sampleLib (some sampleText) = some sampleStore ∧
      Keeps sampleLib sampleStore (sampleCall 200)
        (pinOrVerify sampleLib sampleStore ⟨some sampleText, none⟩ (sampleCall 200)).2.1.target
        (pinOrVerify sampleLib sampleStore ⟨some sampleText, none⟩ (sampleCall 200)).2.2 := by
  have hnot : ¬ sampleText <+: sampleText2 := by decide +kernel
  have hreads : sampleLib.Reads (sampleStore.pinned (sampleCall 200)).document := by
    rw [pinned_sampleCall]
    exact twoTexts_reads hnot
  have hlen : sampleText2.length ≤ (sampleCall 200).fate.written := by decide +kernel
  refine ⟨load_sampleText, (pinOrVerify_keeps_iff sampleLib sampleStore sampleStore
    ⟨some sampleText, none⟩ (sampleCall 200) load_sampleText (fun _ _ hq => hq) hreads).mpr ?_⟩
  refine safe_of_written rfl fun _ _ => ⟨rfl, ?_⟩
  simpa only [sampleLib, twoTexts] using hlen

/-- On a full disk nothing is written; the empty file is renamed over the store, the call returns,
and the store does not load any more. -/
theorem pinOrVerify_destroys :
    load sampleLib (some sampleText) = some sampleStore ∧
      (pinOrVerify sampleLib sampleStore ⟨some sampleText, none⟩ (sampleCall 0)).2 =
        (⟨some [], none⟩, .ok) ∧
      load sampleLib (some []) = none := by
  have hne : [] ≠ sampleText2 ∧ [] ≠ sampleText := by decide +kernel
  have hparse : sampleLib.parse [] = none := by
    simp only [sampleLib, twoTexts, if_neg hne.1, if_neg hne.2]
  refine ⟨load_sampleText, ?_, ?_⟩
  · rw [pinOrVerify_new rfl]
    simp [save, tmpText, sampleCall]
  · rw [load, hparse]
    rfl

end Sample

/-! ## Calls that report what goes wrong -/

/-- The pins in memory and those of the file. -/
def asLoaded (lib : JsonText) (store : PeerStore) (files : Files) : Store :=
  .loaded store.get (files.target.bind fun text => (load lib (some text)).map get)

/-- What the caller is told of the save. -/
def SaveFate.fault (fate : SaveFate) : Option StoreFault :=
  if fate.created ∧ fate.renamed then none else some .save

lemma get_pinned (hnew : store.get c.peerID = none) :
    (store.pinned c).get = withPin store.get c.peerID c.key c.stamp := by
  funext q
  by_cases hq : q = c.peerID
  · subst hq
    rw [pinned, get_emplace_self hnew, withPin, Function.update_self]
  · rw [pinned, get_emplace_of_ne hq, withPin, Function.update_of_ne hq]

/-- A save whose text is written to its end, if it is renamed at all. -/
lemma save_of_written (files : Files) (hwritten : Written lib store c) :
    ((save lib (store.pinned c) files c.fate).1.target = files.target ∧
        (save lib (store.pinned c) files c.fate).2 = .fault ∧ c.fate.fault = some .save) ∨
      (save lib (store.pinned c) files c.fate =
          ({ target := some (lib.dump (store.pinned c).document), tmp := none }, .ok) ∧
        c.fate.fault = none) := by
  rcases save_cases lib (store.pinned c) files c.fate with
    ⟨htarget, hfault, hnone⟩ | ⟨text, htext, hcreated, hrenamed, hsave⟩
  · refine .inl ⟨htarget, hfault, ?_⟩
    rw [SaveFate.fault, if_neg]
    rintro ⟨hcreated, hrenamed⟩
    have hnone := hnone hcreated hrenamed
    rw [tmpText_of_opened (hwritten hcreated hrenamed).1] at hnone
    cases hnone
  · obtain ⟨hopened, hlen⟩ := hwritten hcreated hrenamed
    rw [tmpText_of_opened hopened, List.take_of_length_le hlen] at htext
    obtain rfl := Option.some.inj htext
    exact .inr ⟨hsave, by rw [SaveFate.fault, if_pos ⟨hcreated, hrenamed⟩]⟩

/-- A call whose text is written to its end is the call of the store that knows of no other
faults. -/
theorem pinOrVerify_asLoaded (hlib : lib.Reads (store.pinned c).document)
    (hwritten : Written lib store c) :
    (asLoaded lib (pinOrVerify lib store files c).1 (pinOrVerify lib store files c).2.1,
        (pinOrVerify lib store files c).2.2) =
      (asLoaded lib store files).pinOrVerify c.peerID c.key c.stamp c.fate.fault := by
  cases hpin : store.get c.peerID with
  | some existing =>
    rw [pinOrVerify_pinned hpin]
    simp only [asLoaded, Store.pinOrVerify, Store.pinOrVerifyLoaded, hpin]
  | none =>
    rw [pinOrVerify_new hpin]
    simp only [asLoaded, Store.pinOrVerify, Store.pinOrVerifyLoaded, hpin, ← get_pinned hpin]
    rcases save_of_written files hwritten with ⟨htarget, hfault, hthrows⟩ | ⟨hsave, hreturns⟩
    · rw [if_pos hthrows, htarget, hfault]
    · obtain ⟨after, hload, hget⟩ := load_dump hlib
      rw [hreturns, if_neg (by simp), hsave, Option.bind_some, hload, Option.map_some, funext hget]

/-! ## Runs -/

/-- The store and its files, call after call. -/
def step (lib : JsonText) (s : PeerStore × Files) (c : Call) : Option (PeerStore × Files) :=
  some ((pinOrVerify lib s.1 s.2 c).1, (pinOrVerify lib s.1 s.2 c).2.1)

/-- The file loads, with the pins it had at first, and memory has what the file has. -/
def Holds (lib : JsonText) (first : PeerStore) (s : PeerStore × Files) : Prop :=
  ∃ now, load lib s.2.target = some now ∧
    (∀ q pin, first.get q = some pin → now.get q = some pin) ∧
    ∀ q pin, now.get q = some pin → s.1.get q = some pin

lemma Holds.step {first : PeerStore} {s s' : PeerStore × Files}
    (hlib : lib.Reads (s.1.pinned c).document) (hs : Holds lib first s)
    (hwritten : Written lib s.1 c) (hstep : PeerStore.step lib s c = some s') :
    Holds lib first s' := by
  obtain ⟨now, hload, hfirst, hmem⟩ := hs
  obtain rfl := Option.some.inj hstep
  cases hpin : s.1.get c.peerID with
  | some existing =>
    rw [pinOrVerify_pinned hpin]
    exact ⟨now, hload, hfirst, hmem⟩
  | none =>
    rw [pinOrVerify_new hpin]
    rcases save_of_written s.2 hwritten with ⟨htarget, -, -⟩ | ⟨hsave, -⟩
    · refine ⟨now, ?_, hfirst, fun q pin hq => get_pinned_of_le hmem hq⟩
      rw [htarget]
      exact hload
    · obtain ⟨after, hafter, hget⟩ := load_dump hlib
      rw [hsave]
      refine ⟨after, hafter, fun q pin hq => ?_, fun q pin hq => by rw [← hget]; exact hq⟩
      rw [hget]
      exact get_pinned_of_le hmem (hfirst q pin hq)

/-- As long as no text is cut short, no pin of the file that was loaded is ever lost, whatever else
fails. -/
theorem run_holds (lib : JsonText) (hlib : ∀ store : PeerStore, lib.Reads store.document)
    (files : Files) (first : PeerStore) (hload : load lib files.target = some first)
    (calls : List Call) (s : PeerStore × Files)
    (hwritten : Lts.Meets (step lib) (fun s c => Written lib s.1 c) (first, files) calls)
    (hrun : Lts.run (step lib) (first, files) calls = some s) : Holds lib first s :=
  Lts.run_inv (fun s c _ hs hw hstep => hs.step (hlib (s.1.pinned c)) hw hstep) calls
    ⟨first, hload, fun _ _ hq => hq, fun _ _ hq => hq⟩ hwritten hrun

end PeerStore

end Relayly.Sdk.Cpp
