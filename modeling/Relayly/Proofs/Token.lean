import Relayly.Relay.Token
import Mathlib.Data.Nat.Digits.Lemmas

/-!
# Which device tokens collide

The digits of the chunks stand side by side with nothing between them, so from the second chunk on
it is lost where one chunk ends. Within one chunk the number can be read back, digit by digit.
-/

namespace Relayly.Relay

/-! ## One chunk -/

theorem appendDigits_eq (num : ℕ) : appendDigits num = (Nat.digits 58 num).map base58Digit := by
  induction num using Nat.strongRecOn with
  | ind num ih =>
    rw [appendDigits]
    split
    · next h => simp [h]
    · next h =>
      have hpos : 0 < num := Nat.pos_of_ne_zero h
      rw [ih _ (Nat.div_lt_self hpos (by decide)), Nat.digits_def' (by decide) hpos, List.map_cons]

theorem bigEndian_eq (chunk : Bytes) :
    bigEndian chunk = Nat.ofDigits 256 (chunk.reverse.map UInt8.toNat) := by
  have hfold : ∀ (chunk : Bytes) (num : ℕ), chunk.foldl (fun num b => num * 256 + b.toNat) num
      = Nat.ofDigits 256 (chunk.reverse.map UInt8.toNat) + 256 ^ chunk.length * num := by
    intro chunk
    induction chunk with
    | nil => simp
    | cons b rest ih =>
      intro num
      rw [List.foldl_cons, ih, List.reverse_cons, List.map_append, Nat.ofDigits_append,
        List.length_map, List.length_reverse, List.length_cons, pow_succ, List.map_singleton,
        Nat.ofDigits_singleton]
      ring
  rw [bigEndian, hfold, Nat.mul_zero, Nat.add_zero]

theorem bigEndian_injective {a b : Bytes} (hlen : a.length = b.length)
    (h : bigEndian a = bigEndian b) : a = b := by
  have hbyte : ∀ c : Bytes, ∀ d ∈ c.reverse.map UInt8.toNat, d < 256 := by
    intro c d hd
    obtain ⟨x, -, rfl⟩ := List.mem_map.1 hd
    exact x.toNat_lt
  rw [bigEndian_eq, bigEndian_eq] at h
  have hdigits := Nat.ofDigits_inj_of_len_eq (by decide) (by simpa using hlen) (hbyte a) (hbyte b) h
  have hrev := (List.map_inj_right fun x y hxy => UInt8.toNat_inj.1 hxy).1 hdigits
  exact List.reverse_injective hrev

theorem bigEndian_zeros (k : ℕ) (chunk : Bytes) :
    bigEndian (List.replicate k 0 ++ chunk) = bigEndian chunk := by
  rw [bigEndian_eq, bigEndian_eq, List.reverse_append, List.map_append, List.reverse_replicate,
    List.map_replicate]
  exact Nat.ofDigits_append_replicate_zero _

/-- The value of a character of the alphabet. -/
def base58Value (c : Char) : ℕ := base58Alphabet.idxOf c

theorem base58Value_base58Digit {d : ℕ} (h : d < 58) : base58Value (base58Digit d) = d := by
  revert d
  decide +kernel

/-- Reading one chunk back: zeros after the digits make no difference. -/
theorem ofDigits_appendDigits (num k : ℕ) :
    Nat.ofDigits 58 ((appendDigits num ++ List.replicate k (base58Digit 0)).map base58Value)
      = num := by
  have hvalue : (Nat.digits 58 num).map (fun d => base58Value (base58Digit d))
      = Nat.digits 58 num := by
    refine (List.map_congr_left fun d hd => ?_).trans (List.map_id _)
    exact base58Value_base58Digit (Nat.digits_lt_base (by decide) hd)
  rw [appendDigits_eq, List.map_append, List.map_map, List.map_replicate,
    base58Value_base58Digit (by decide), Nat.ofDigits_append_replicate_zero]
  exact (congrArg _ hvalue).trans (Nat.ofDigits_digits 58 num)

/-! ## The chunks in a row -/

theorem encodeChunks_short {input : Bytes} (h : input.length ≤ 8) :
    encodeChunks input = appendDigits (bigEndian input) := by
  rcases Nat.eq_zero_or_pos input.length with h0 | hpos
  · obtain rfl := List.length_eq_zero_iff.1 h0
    rw [appendDigits]
    rfl
  · have hone : (input.length + 7) / 8 = 1 := by omega
    rw [encodeChunks, hone]
    simp only [List.range_one, List.flatMap_singleton, chunkAt, Nat.mul_zero, List.drop_zero,
      List.take_of_length_le h, bigEndian_zeros]

theorem encodeChunks_append {first rest : Bytes} (h : first.length = 8) :
    encodeChunks (first ++ rest) = appendDigits (bigEndian first) ++ encodeChunks rest := by
  have hcount : ((first ++ rest).length + 7) / 8 = (rest.length + 7) / 8 + 1 := by
    rw [List.length_append]
    omega
  rw [encodeChunks, hcount, List.range_succ_eq_map, List.flatMap_cons, List.flatMap_map, encodeChunks]
  congr 1
  · rw [Nat.mul_zero, chunkAt, List.drop_zero, List.take_left' h]
    simp [h]
  · congr 1
    funext k
    have hdrop : (first ++ rest).drop (8 * (k + 1)) = rest.drop (8 * k) := by
      rw [show 8 * (k + 1) = first.length + 8 * k by omega, List.drop_length_add_append]
    rw [chunkAt, chunkAt, hdrop]

/-- A chunk of zeros has no digits. -/
theorem encodeChunks_zeros (k : ℕ) : encodeChunks (List.replicate k 0) = [] := by
  rw [encodeChunks, List.flatMap_eq_nil_iff]
  intro i _
  have hzero : chunkAt (List.replicate k 0) (8 * i) = 0 := by
    simp only [chunkAt, List.drop_replicate, List.take_replicate, List.replicate_append_replicate]
    rw [bigEndian_eq, List.reverse_replicate, List.map_replicate]
    exact Nat.ofDigits_replicate_zero
  rw [hzero, appendDigits]
  rfl

/-! ## Which lengths are safe -/

/-- Two chunks, the first with the number `x` and the second with `y`, and `k` zeros. -/
def twoChunks (x y : UInt8) (m k : ℕ) : Bytes :=
  (List.replicate 7 0 ++ [x]) ++ (List.replicate m 0 ++ [y] ++ List.replicate k 0)

theorem length_twoChunks (x y : UInt8) (m k : ℕ) : (twoChunks x y m k).length = 9 + m + k := by
  simp [twoChunks]
  omega

theorem bigEndian_zeros_singleton (k : ℕ) (x : UInt8) :
    bigEndian (List.replicate k 0 ++ [x]) = x.toNat := by
  rw [bigEndian_zeros]
  simp [bigEndian]

theorem encodeChunks_twoChunks (x y : UInt8) {m k : ℕ} (hm : m ≤ 7) (hk : k = 0 ∨ m = 7) :
    encodeChunks (twoChunks x y m k) = appendDigits x.toNat ++ appendDigits y.toNat := by
  have hsecond : encodeChunks (List.replicate m 0 ++ [y] ++ List.replicate k 0)
      = appendDigits y.toNat := by
    rcases hk with rfl | rfl
    · rw [List.replicate_zero, List.append_nil, encodeChunks_short (by simp; omega),
        bigEndian_zeros_singleton]
    · rw [encodeChunks_append (by simp), bigEndian_zeros_singleton, encodeChunks_zeros,
        List.append_nil]
  rw [twoChunks, encodeChunks_append (by simp), bigEndian_zeros_singleton, hsecond]

theorem leadingZeros_twoChunks {x : UInt8} (hx : x ≠ 0) (y : UInt8) (m k : ℕ) :
    leadingZeros (twoChunks x y m k) = 7 := by
  simp [twoChunks, List.replicate, leadingZeros, hx]

/-- The digits `1` and `1 1` in a row are those of `1 1` and `1`. -/
theorem base58Encode_twoChunks {m k : ℕ} (hm : m ≤ 7) (hk : k = 0 ∨ m = 7) :
    base58Encode (twoChunks 1 59 m k) = base58Encode (twoChunks 59 1 m k) := by
  have hdigits : appendDigits (UInt8.toNat 1) ++ appendDigits (UInt8.toNat 59)
      = appendDigits (UInt8.toNat 59) ++ appendDigits (UInt8.toNat 1) := by
    simp [appendDigits_eq]
  rw [base58Encode, base58Encode, encodeChunks_twoChunks _ _ hm hk, encodeChunks_twoChunks _ _ hm hk,
    leadingZeros_twoChunks (by decide), leadingZeros_twoChunks (by decide), hdigits]

/-- Different inputs of the same length have different tokens exactly for inputs of one chunk. -/
theorem base58Encode_injective_iff (n : ℕ) :
    (∀ a b : Bytes, a.length = n → b.length = n → base58Encode a = base58Encode b → a = b) ↔ n ≤ 8 := by
  constructor
  · intro hinj
    by_contra hn
    have hm : min 7 (n - 9) ≤ 7 := Nat.min_le_left ..
    have hk : n - 9 - min 7 (n - 9) = 0 ∨ min 7 (n - 9) = 7 := by omega
    have hlen : 9 + min 7 (n - 9) + (n - 9 - min 7 (n - 9)) = n := by omega
    have heq := hinj _ _ ((length_twoChunks ..).trans hlen) ((length_twoChunks ..).trans hlen)
      (base58Encode_twoChunks hm hk)
    simp [twoChunks] at heq
  · rintro hn a b rfl hb heq
    rw [base58Encode, base58Encode, String.ofList_inj, List.reverse_inj, encodeChunks_short hn,
      encodeChunks_short (hb.trans_le hn)] at heq
    have hnum := congrArg (fun l => Nat.ofDigits 58 (l.map base58Value)) heq
    simp only [ofDigits_appendDigits] at hnum
    exact bigEndian_injective hb.symm hnum

/-- Two draws of `GenerateDeviceToken` with one token. -/
theorem generateDeviceToken_collides :
    ∃ a b : Fin 32 → UInt8, a ≠ b
      ∧ generateDeviceToken (some a) = generateDeviceToken (some b) := by
  have hbytes : ∀ x y : UInt8,
      List.ofFn (fun i : Fin 32 => if i = 7 then x else if i = 15 then y else 0)
        = twoChunks x y 7 16 := fun x y => by
    simp [List.ofFn_succ, twoChunks, List.replicate]
  refine ⟨fun i => if i = 7 then 1 else if i = 15 then 59 else 0,
    fun i => if i = 7 then 59 else if i = 15 then 1 else 0, fun h => ?_, ?_⟩
  · exact absurd (congrFun h 7) (by decide)
  · rw [generateDeviceToken, generateDeviceToken, Option.map_some, Option.map_some, hbytes, hbytes,
      base58Encode_twoChunks (by decide) (by decide)]

end Relayly.Relay
