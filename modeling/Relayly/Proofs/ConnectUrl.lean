import Relayly.Sdk.ConnectUrl
import Mathlib.Data.List.Induction

/-!
# The credentials of a connect URL

The query of a connect URL yields what was encoded, so the credentials arrive unchanged exactly if
encoding can be undone and the query is not behind a fragment. A byte below 16 is written with one
digit, and the decoder then takes its second digit from the next byte, if it finds one there: what
comes out is shorter than what went in.
-/

namespace Relayly.Sdk.Cpp

open Uri

section bytes
variable {c : UInt8}

lemma hexValue_hexDigit (h : c < 16) : hexValue (hexDigit c) = some c := by
  grind [hexDigit, hexValue]

lemma sixteen_le_of_copied (h : copied c = true) : 16 ≤ c := by
  grind [copied, isalnum]

lemma ne_percent_of_copied (h : copied c = true) : c ≠ percent := by
  rintro rfl
  exact absurd h (by decide)

/-- No encoded byte starts a fragment or ends a parameter. -/
lemma separators_notMem_encodeByte : hashMark ∉ encodeByte c ∧ ampersand ∉ encodeByte c := by
  grind [encodeByte, copied, isalnum, hex, hexDigit, hashMark, ampersand, percent]

/-- A byte with two digits is decoded as it was. -/
lemma percentDecode_encodeByte (h : 16 ≤ c) (rest : Bytes) :
    percentDecode (encodeByte c ++ rest) = (percentDecode rest).map (c :: ·) := by
  by_cases hc : copied c = true
  · rw [encodeByte, if_pos hc]
    exact percentDecode_cons rest (ne_percent_of_copied hc)
  · have hdigits : hex c = [hexDigit (c / 16), hexDigit (c % 16)] := if_neg (by grind)
    have hjoin : c / 16 * 16 + c % 16 = c := by grind
    rw [encodeByte, if_neg hc, hdigits]
    simp only [List.cons_append, List.nil_append]
    rw [percentDecode_escape, hexValue_hexDigit (by grind), hexValue_hexDigit (by grind),
      Option.bind_some, Option.bind_some, hjoin]

/-- A byte with one digit loses the byte behind it, or makes the text malformed. -/
lemma percentDecode_encodeByte_small {d : UInt8} {rest out : Bytes} (h : c < 16)
    (hdec : percentDecode (encodeByte c ++ (encodeByte d ++ rest)) = some out) :
    copied d = true ∧ ∃ b tail, percentDecode rest = some tail ∧ out = b :: tail := by
  have hc : ¬ copied c = true := fun hc => absurd (sixteen_le_of_copied hc) (by grind)
  have hdigit : hex c = [hexDigit c] := if_pos h
  rw [encodeByte, if_neg hc, hdigit] at hdec
  by_cases hd : copied d = true
  · rw [encodeByte, if_pos hd] at hdec
    simp only [List.cons_append, List.nil_append] at hdec
    rw [percentDecode_escape, hexValue_hexDigit h, Option.bind_some] at hdec
    obtain ⟨l, -, hrest⟩ := Option.bind_eq_some_iff.mp hdec
    obtain ⟨tail, htail, rfl⟩ := Option.map_eq_some_iff.mp hrest
    exact ⟨hd, _, tail, htail, rfl⟩
  · -- the second digit would be a percent sign
    exfalso
    rw [encodeByte, if_neg hd] at hdec
    simp only [List.cons_append, List.nil_append] at hdec
    rw [percentDecode_escape, show hexValue percent = none from rfl, hexValue_hexDigit h,
      Option.bind_some, Option.bind_none] at hdec
    cases hdec

end bytes

section text
variable {raw : Bytes}

lemma percentEncode_cons (c : UInt8) (raw : Bytes) :
    percentEncode (c :: raw) = encodeByte c ++ percentEncode raw := List.flatMap_cons

lemma separators_notMem (raw : Bytes) :
    hashMark ∉ percentEncode raw ∧ ampersand ∉ percentEncode raw := by
  simp only [percentEncode, List.mem_flatMap, not_exists, not_and]
  exact ⟨fun c _ => separators_notMem_encodeByte.1, fun c _ => separators_notMem_encodeByte.2⟩

lemma percentDecode_percentEncode (h : ∀ b ∈ raw, 16 ≤ b) :
    percentDecode (percentEncode raw) = some raw := by
  induction raw with
  | nil => rfl
  | cons c raw ih =>
    rw [percentEncode_cons, percentDecode_encodeByte (h c (by simp)),
      ih fun b hb => h b (by simp [hb])]
    rfl

/-- Each byte below 16 costs one byte of what is decoded. -/
lemma length_of_percentDecode (raw : Bytes) : ∀ {out : Bytes},
    percentDecode (percentEncode raw) = some out →
      out.length + raw.countP (· < 16) = raw.length := by
  -- a small byte is decoded together with the one behind it, so the induction takes two at a time
  induction raw using List.twoStepInduction with
  | nil =>
    intro out h
    cases h
    rfl
  | singleton c =>
    intro out h
    rw [percentEncode_cons] at h
    by_cases hc : 16 ≤ c
    · rw [percentDecode_encodeByte hc] at h
      cases h
      have : ¬ c < 16 := by grind
      simp [this]
    · exfalso
      have hsmall : c < 16 := by grind
      have hcopied : ¬ copied c = true := fun h => hc (sixteen_le_of_copied h)
      rw [encodeByte, if_neg hcopied, hex, if_pos hsmall] at h
      cases (percentDecode_truncated (hexDigit c)).symm.trans h
  | cons_cons c d raw ih ih' =>
    intro out h
    rw [percentEncode_cons] at h
    by_cases hc : 16 ≤ c
    · rw [percentDecode_encodeByte hc] at h
      obtain ⟨tail, htail, rfl⟩ := Option.map_eq_some_iff.mp h
      have hlen := ih' d htail
      rw [List.countP_cons, if_neg (by simpa using hc)]
      simp only [List.length_cons] at hlen ⊢
      omega
    · have hsmall : c < 16 := by grind
      rw [percentEncode_cons] at h
      obtain ⟨hd, b, tail, htail, rfl⟩ := percentDecode_encodeByte_small hsmall h
      have hlen := ih htail
      rw [List.countP_cons, List.countP_cons, if_neg (by simpa using sixteen_le_of_copied hd),
        if_pos (by simpa using hsmall)]
      simp only [List.length_cons]
      omega

lemma percentDecode_percentEncode_iff (raw : Bytes) :
    percentDecode (percentEncode raw) = some raw ↔ ∀ b ∈ raw, 16 ≤ b := by
  refine ⟨fun h b hb => ?_, percentDecode_percentEncode⟩
  have hlen := length_of_percentDecode raw h
  have hzero : raw.countP (· < 16) = 0 := by omega
  have := List.countP_eq_zero.mp hzero b hb
  simpa using this

end text

section url
variable (url deviceID token : Bytes)

/-- Only the scheme is replaced. -/
lemma websocketUrl_eq : ∃ old new rest, url = old ++ rest ∧ websocketUrl url = new ++ rest ∧
    (hashMark ∉ old ∧ question ∉ old) ∧ hashMark ∉ new ∧ question ∉ new := by
  unfold websocketUrl
  split_ifs with h hs
  · obtain ⟨rest, rfl⟩ := h
    exact ⟨ascii "http://", ascii "ws://", rest, rfl,
      congrArg _ (List.drop_left' (by decide +kernel)), by decide +kernel, by decide +kernel⟩
  · obtain ⟨rest, rfl⟩ := hs
    exact ⟨ascii "https://", ascii "wss://", rest, rfl,
      congrArg _ (List.drop_left' (by decide +kernel)), by decide +kernel, by decide +kernel⟩
  · exact ⟨[], [], url, rfl, rfl, by simp, by simp⟩

lemma values_websocketUrl (name : Bytes) : values name (websocketUrl url) = values name url := by
  obtain ⟨old, new, rest, hurl, hnew, ⟨ho, hoq⟩, hn, hnq⟩ := websocketUrl_eq url
  rw [hnew, hurl, values_append_left hn hnq, values_append_left ho hoq]

lemma hashMark_mem_websocketUrl : hashMark ∈ websocketUrl url ↔ hashMark ∈ url := by
  obtain ⟨old, new, rest, hurl, hnew, ⟨ho, -⟩, hn, -⟩ := websocketUrl_eq url
  rw [hnew, hurl]
  simp [ho, hn]

lemma hash_notMem_credentials : hashMark ∉ credentials deviceID token := by
  have hname : hashMark ∉ deviceIDName ∧ hashMark ∉ tokenName := by decide +kernel
  have hequals : hashMark ≠ equals := by decide
  have hamp : hashMark ≠ ampersand := by decide
  simp [credentials, hname, hequals, hamp, separators_notMem]

/-- The query of the credentials has one parameter of each name. -/
lemma queryValues_credentials :
    queryValues deviceIDName (credentials deviceID token) =
        [percentDecode (percentEncode deviceID)] ∧
      queryValues tokenName (credentials deviceID token) =
        [percentDecode (percentEncode token)] := by
  have hid : ∀ name, queryValues name (deviceIDName ++ equals :: percentEncode deviceID) =
      if percentDecode deviceIDName = some name then [percentDecode (percentEncode deviceID)]
      else [] := queryValues_single (by decide +kernel) (by decide +kernel) (separators_notMem deviceID).2
  have htok : ∀ name, queryValues name (tokenName ++ equals :: percentEncode token) =
      if percentDecode tokenName = some name then [percentDecode (percentEncode token)]
      else [] := queryValues_single (by decide +kernel) (by decide +kernel) (separators_notMem token).2
  have hidName : percentDecode deviceIDName = some deviceIDName := by decide +kernel
  have htokName : percentDecode tokenName = some tokenName := by decide +kernel
  have hne : deviceIDName ≠ tokenName := by decide +kernel
  constructor
  · rw [credentials, queryValues_append, hid, htok, hidName, htokName, if_pos rfl,
      if_neg (by simpa using hne.symm)]
    rfl
  · rw [credentials, queryValues_append, hid, htok, hidName, htokName, if_pos rfl,
      if_neg (by simpa using hne)]
    rfl

end url

/-- The credentials arrive unchanged exactly if the server's URL has no fragment and no byte of
theirs is below 16. -/
theorem buildConnectUrl_carries_iff (serverUrl deviceID token : Bytes)
    (hid : values deviceIDName serverUrl = []) (htok : values tokenName serverUrl = []) :
    (values deviceIDName (buildConnectUrl serverUrl deviceID token) = [some deviceID] ∧
        values tokenName (buildConnectUrl serverUrl deviceID token) = [some token]) ↔
      hashMark ∉ serverUrl ∧ ∀ b ∈ deviceID ++ token, 16 ≤ b := by
  by_cases hfrag : hashMark ∈ serverUrl
  · have hnone : values deviceIDName (buildConnectUrl serverUrl deviceID token) = [] := by
      rw [buildConnectUrl, values_append_of_hash ((hashMark_mem_websocketUrl serverUrl).mpr hfrag),
        values_websocketUrl, hid]
    simp [hnone, hfrag]
  · have hws : hashMark ∉ websocketUrl serverUrl := fun h =>
      hfrag ((hashMark_mem_websocketUrl serverUrl).mp h)
    have hvalues : ∀ name, values name (buildConnectUrl serverUrl deviceID token) =
        values name serverUrl ++ queryValues name (credentials deviceID token) := by
      intro name
      rw [buildConnectUrl, values_append hws (hash_notMem_credentials deviceID token),
        values_websocketUrl]
    obtain ⟨hid', htok'⟩ := queryValues_credentials deviceID token
    rw [hvalues, hvalues, hid, htok, hid', htok']
    simp only [List.nil_append, List.cons.injEq, and_true, percentDecode_percentEncode_iff,
      hfrag, not_false_eq_true, true_and, List.forall_mem_append]

/-- Credentials full of reserved characters, behind a query. -/
theorem buildConnectUrl_carries_reserved :
    values deviceIDName (buildConnectUrl (ascii "https://h/ws?v=1") (ascii "a b?") (ascii "%&=#"))
        = [some (ascii "a b?")] ∧
      values tokenName (buildConnectUrl (ascii "https://h/ws?v=1") (ascii "a b?") (ascii "%&=#"))
        = [some (ascii "%&=#")] :=
  (buildConnectUrl_carries_iff (ascii "https://h/ws?v=1") (ascii "a b?") (ascii "%&=#")
    (by decide +kernel) (by decide +kernel)).mpr (by decide +kernel)

/-- A line feed swallows the `B` behind it, and a fragment swallows the whole query. -/
theorem buildConnectUrl_loses :
    values tokenName (buildConnectUrl (ascii "ws://h") (ascii "a") [0x0A, 0x42]) =
        [some [0xAB]] ∧
      values deviceIDName (buildConnectUrl (ascii "ws://h#f") (ascii "a") (ascii "b")) = [] := by
  decide +kernel

end Relayly.Sdk.Cpp
