import Mathlib

/-!
# The wire format of Kafka

Numbers of a fixed width are written with the most significant byte first, in two's complement.
Inside a record batch numbers are written in groups of seven bits, the least significant group
first, after a change of sign to the lowest bit.  What is written is read back.
-/

namespace MuduoChat

namespace KafkaWire

/-! ### Numbers of a fixed width -/

/-- The bytes of a number, the most significant one first. -/
def bigEndian : ℕ → ℕ → List UInt8
  | 0, _ => []
  | w + 1, n => bigEndian w (n / 256) ++ [UInt8.ofNat (n % 256)]

/-- The number of some bytes. -/
def unsigned (bytes : List UInt8) : ℕ := bytes.foldl (fun n b => n * 256 + b.toNat) 0

/-- The number of some bits in two's complement. -/
def signed (bits n : ℕ) : ℤ := if n < 2 ^ (bits - 1) then n else n - 2 ^ bits

/-- A number reduced to some bits. -/
def wrapped (bits : ℕ) (v : ℤ) : ℕ := (v % 2 ^ bits).toNat

def appendI16 (v : ℤ) : List UInt8 := bigEndian 2 (wrapped 16 v)

def appendI32 (v : ℤ) : List UInt8 := bigEndian 4 (wrapped 32 v)

def appendI64 (v : ℤ) : List UInt8 := bigEndian 8 (wrapped 64 v)

@[simp] lemma length_bigEndian (w n : ℕ) : (bigEndian w n).length = w := by
  induction w generalizing n with
  | zero => rfl
  | succ w ih => rw [bigEndian, List.length_append, ih, List.length_singleton]

@[simp] lemma length_appendI16 (v : ℤ) : (appendI16 v).length = 2 := length_bigEndian _ _

@[simp] lemma length_appendI32 (v : ℤ) : (appendI32 v).length = 4 := length_bigEndian _ _

@[simp] lemma length_appendI64 (v : ℤ) : (appendI64 v).length = 8 := length_bigEndian _ _

lemma unsigned_bigEndian (w n : ℕ) : unsigned (bigEndian w n) = n % 256 ^ w := by
  induction w generalizing n with
  | zero => simp [bigEndian, unsigned, Nat.mod_one]
  | succ w ih =>
    have hlast : (UInt8.ofNat (n % 256)).toNat = n % 256 := by
      rw [UInt8.toNat_ofNat', Nat.mod_mod_of_dvd n (by norm_num)]
    have hfront : unsigned (bigEndian (w + 1) n) =
        unsigned (bigEndian w (n / 256)) * 256 + n % 256 := by
      rw [bigEndian, unsigned, List.foldl_append]
      simp only [List.foldl_cons, List.foldl_nil, hlast]
      rfl
    rw [hfront, ih, pow_succ, mul_comm (256 ^ w), Nat.mod_mul]
    omega

lemma unsigned_lt (bytes : List UInt8) : unsigned bytes < 256 ^ bytes.length := by
  induction bytes using List.reverseRecOn with
  | nil => simp [unsigned]
  | append_singleton bytes b ih =>
    have hlast : unsigned (bytes ++ [b]) = unsigned bytes * 256 + b.toNat := by
      simp [unsigned, List.foldl_append]
    have hb : b.toNat < 256 := b.toNat_lt
    rw [hlast, List.length_append, List.length_singleton, pow_succ]
    omega

lemma signed_bounds {n : ℕ} (bits : ℕ) (h : n < 2 ^ (bits + 1)) :
    -2 ^ bits ≤ signed (bits + 1) n ∧ signed (bits + 1) n < 2 ^ bits := by
  have hpow : (2 : ℤ) ^ (bits + 1) = 2 * 2 ^ bits := by ring
  have hn : (n : ℤ) < 2 ^ (bits + 1) := by exact_mod_cast h
  have hpos : (0 : ℤ) < 2 ^ bits := by positivity
  rw [signed, Nat.add_sub_cancel]
  split_ifs with hlow
  · have hlow' : (n : ℤ) < 2 ^ bits := by exact_mod_cast hlow
    omega
  · have hhigh : (2 : ℤ) ^ bits ≤ n := by exact_mod_cast Nat.not_lt.1 hlow
    omega

lemma signed_wrapped {bits : ℕ} {v : ℤ} (hbits : 0 < bits) (hlo : -2 ^ (bits - 1) ≤ v)
    (hhi : v < 2 ^ (bits - 1)) : signed bits (wrapped bits v) = v := by
  obtain ⟨k, rfl⟩ : ∃ k, bits = k + 1 := ⟨bits - 1, by omega⟩
  rw [Nat.add_sub_cancel] at hlo hhi
  have hpow : (2 : ℤ) ^ (k + 1) = 2 * 2 ^ k := by ring
  have hpos : (0 : ℤ) < 2 ^ k := by positivity
  have hnat : ((2 ^ k : ℕ) : ℤ) = 2 ^ k := by push_cast; rfl
  rw [signed, wrapped, Nat.add_sub_cancel, hpow]
  by_cases hv : 0 ≤ v
  · rw [Int.emod_eq_of_lt hv (by omega), if_pos (by omega)]
    omega
  · have hmod : v % (2 * 2 ^ k) = v + 2 * 2 ^ k := by
      rw [← Int.add_mul_emod_self_left v (2 * 2 ^ k) 1, mul_one, Int.emod_eq_of_lt] <;> omega
    rw [hmod, if_neg (by omega)]
    omega

lemma wrapped_lt (bits : ℕ) (v : ℤ) : wrapped bits v < 2 ^ bits := by
  have hpos : (0 : ℤ) < 2 ^ bits := by positivity
  have hlt := Int.emod_lt_of_pos v hpos
  have hnonneg := Int.emod_nonneg v hpos.ne'
  have hcast : ((2 ^ bits : ℕ) : ℤ) = 2 ^ bits := by push_cast; rfl
  rw [wrapped]
  omega

lemma unsigned_appendI32 (v : ℤ) : unsigned (appendI32 v) = wrapped 32 v := by
  rw [appendI32, unsigned_bigEndian]
  exact Nat.mod_eq_of_lt (wrapped_lt 32 v)

lemma unsigned_appendI64 (v : ℤ) : unsigned (appendI64 v) = wrapped 64 v := by
  rw [appendI64, unsigned_bigEndian]
  exact Nat.mod_eq_of_lt (wrapped_lt 64 v)

lemma signed_appendI32 {v : ℤ} (hlo : -2 ^ 31 ≤ v) (hhi : v < 2 ^ 31) :
    signed 32 (unsigned (appendI32 v)) = v := by
  rw [unsigned_appendI32]
  exact signed_wrapped (by norm_num) hlo hhi

lemma signed_appendI64 {v : ℤ} (hlo : -2 ^ 63 ≤ v) (hhi : v < 2 ^ 63) :
    signed 64 (unsigned (appendI64 v)) = v := by
  rw [unsigned_appendI64]
  exact signed_wrapped (by norm_num) hlo hhi

lemma wrapped_signed {bits n : ℕ} (h : n < 2 ^ bits) : wrapped bits (signed bits n) = n := by
  have hmod : ((n : ℤ) - 2 ^ bits) % 2 ^ bits = n % 2 ^ bits := by
    rw [Int.sub_emod, Int.emod_self, sub_zero, Int.emod_emod_of_dvd _ dvd_rfl]
  have hn : (n : ℤ) % 2 ^ bits = n := Int.emod_eq_of_lt (by positivity) (by exact_mod_cast h)
  rw [wrapped, signed]
  split_ifs
  · rw [hn, Int.toNat_natCast]
  · rw [hmod, hn, Int.toNat_natCast]

/-! ### Numbers of variable length -/

/-- The sign of a number in its lowest bit. -/
def zigzag (v : ℤ) : ℕ := wrapped 64 (2 * v) ^^^ wrapped 64 (v / 2 ^ 63)

/-- The groups of seven bits of a number, each but the last with a mark.  For a number of 64 bits
nine rounds are enough. -/
def groups : ℕ → ℕ → List UInt8
  | 0, u => [UInt8.ofNat u]
  | k + 1, u =>
    if u ≥ 0x80 then UInt8.ofNat (u &&& 0x7F ||| 0x80) :: groups k (u >>> 7)
    else [UInt8.ofNat u]

/-- Write a number. -/
def varint (v : ℤ) : List UInt8 := groups 9 (zigzag v)

/-- The loop of `readVarint`: add groups to the result, at most so many. -/
def readGroups (data : List UInt8) : ℕ → ℕ → ℕ → ℕ → Option (ℕ × ℕ)
  | 0, _, result, pos => some (result, pos)
  | k + 1, shift, result, pos =>
    match data[pos]? with
    | none => none
    | some b =>
      let result := result ||| ((b.toNat &&& 0x7F) <<< shift) % 2 ^ 64
      if b.toNat &&& 0x80 = 0 then some (result, pos + 1)
      else readGroups data k (shift + 7) result (pos + 1)

/-- The number whose sign is in the lowest bit. -/
def unzigzag (result : ℕ) : ℤ :=
  let decoded : ℤ := (result >>> 1 : ℕ)
  if result &&& 1 = 1 then -decoded - 1 else decoded

/-- Read a number at a position.  The answer is the number and the position behind it, or nothing
if the bytes end before it. -/
def readVarint (data : List UInt8) (pos : ℕ) : Option (ℤ × ℕ) :=
  (readGroups data 10 0 0 pos).map fun (result, pos) => (unzigzag result, pos)

section Varint

variable {data rest : List UInt8} {pos shift acc u k : ℕ} {v : ℤ}

lemma xor_ones {n : ℕ} (h : n < 2 ^ 64) : n ^^^ (2 ^ 64 - 1) = 2 ^ 64 - 1 - n := by
  have hnot := congrArg BitVec.toNat (BitVec.xor_allOnes (x := BitVec.ofNat 64 n))
  rwa [BitVec.toNat_xor, BitVec.toNat_allOnes, BitVec.toNat_not, BitVec.toNat_ofNat,
    Nat.mod_eq_of_lt h] at hnot

lemma zigzag_eq (hlo : -2 ^ 63 ≤ v) (hhi : v < 2 ^ 63) :
    zigzag v = if 0 ≤ v then (2 * v).toNat else (-2 * v - 1).toNat := by
  rw [zigzag]
  split
  · have hsign : wrapped 64 (v / 2 ^ 63) = 0 := by
      rw [wrapped]
      omega
    have hdouble : wrapped 64 (2 * v) = (2 * v).toNat := by
      rw [wrapped]
      omega
    rw [hsign, hdouble, Nat.xor_zero]
  · have hsign : wrapped 64 (v / 2 ^ 63) = 2 ^ 64 - 1 := by
      rw [wrapped]
      omega
    have hlt : wrapped 64 (2 * v) < 2 ^ 64 := by
      rw [wrapped]
      omega
    rw [hsign, xor_ones hlt, wrapped]
    omega

lemma zigzag_lt (hlo : -2 ^ 63 ≤ v) (hhi : v < 2 ^ 63) : zigzag v < 2 ^ 64 := by
  rw [zigzag_eq hlo hhi]
  split <;> omega

lemma unzigzag_zigzag (hlo : -2 ^ 63 ≤ v) (hhi : v < 2 ^ 63) : unzigzag (zigzag v) = v := by
  rw [unzigzag, zigzag_eq hlo hhi, Nat.shiftRight_eq_div_pow, Nat.and_one_is_mod]
  by_cases hv : 0 ≤ v
  · rw [if_pos hv, if_neg (by omega)]
    omega
  · rw [if_neg hv, if_pos (by omega)]
    omega

lemma or_group {g : ℕ} (hacc : acc < 2 ^ shift) (hfit : g * 2 ^ shift < 2 ^ 64) :
    acc ||| (g <<< shift) % 2 ^ 64 = acc + g * 2 ^ shift := by
  have hshift : g <<< shift = g * 2 ^ shift := Nat.shiftLeft_eq g shift
  rw [hshift, Nat.mod_eq_of_lt hfit, ← hshift, Nat.or_comm, ← Nat.shiftLeft_add_eq_or_of_lt hacc,
    Nat.add_comm]

lemma last_group {n : ℕ} (h : n < 128) :
    (UInt8.ofNat n).toNat &&& 0x7F = n ∧ (UInt8.ofNat n).toNat &&& 0x80 = 0 := by
  have hall : ∀ m : Fin 128, (UInt8.ofNat m.val).toNat &&& 0x7F = m.val ∧
      (UInt8.ofNat m.val).toNat &&& 0x80 = 0 := by decide
  exact hall ⟨n, h⟩

lemma marked_group (n : ℕ) :
    (UInt8.ofNat (n &&& 0x7F ||| 0x80)).toNat &&& 0x7F = n % 128 ∧
      (UInt8.ofNat (n &&& 0x7F ||| 0x80)).toNat &&& 0x80 ≠ 0 := by
  have hall : ∀ m : Fin 128, (UInt8.ofNat (m.val ||| 0x80)).toNat &&& 0x7F = m.val ∧
      (UInt8.ofNat (m.val ||| 0x80)).toNat &&& 0x80 ≠ 0 := by decide
  have hmod : n &&& 0x7F = n % 128 := Nat.and_two_pow_sub_one_eq_mod n 7
  rw [hmod]
  exact hall ⟨n % 128, Nat.mod_lt n (by decide)⟩

lemma getElem?_of_drop {b : UInt8} (h : data.drop pos = b :: rest) :
    data[pos]? = some b ∧ data.drop (pos + 1) = rest := by
  constructor
  · rw [← List.head?_drop, h, List.head?_cons]
  · rw [← List.drop_drop, h]
    rfl

lemma readGroups_groups (hu : u < 128 ^ (k + 1)) (hfit : u * 2 ^ shift < 2 ^ 64)
    (hacc : acc < 2 ^ shift) (h : data.drop pos = groups k u ++ rest) :
    readGroups data (k + 1) shift acc pos =
        some (acc + u * 2 ^ shift, pos + (groups k u).length) ∧
      data.drop (pos + (groups k u).length) = rest := by
  induction k generalizing u shift acc pos with
  | zero =>
    obtain ⟨hbyte, hrest⟩ := getElem?_of_drop h
    obtain ⟨hbits, hmark⟩ := last_group (by simpa using hu)
    refine ⟨?_, hrest⟩
    rw [readGroups, hbyte]
    simp only [hbits, hmark, if_true, or_group hacc hfit]
    rfl
  | succ k ih =>
    rw [groups] at h ⊢
    by_cases hlarge : u ≥ 0x80
    · rw [if_pos hlarge] at h ⊢
      obtain ⟨hbyte, hrest⟩ := getElem?_of_drop h
      obtain ⟨hbits, hmark⟩ := marked_group u
      have hdiv : u >>> 7 = u / 128 := Nat.shiftRight_eq_div_pow u 7
      rw [hdiv] at hrest ⊢
      -- the number is its lowest group and the others
      have hpow : 2 ^ (shift + 7) = 128 * 2 ^ shift := by ring
      have hsum : u * 2 ^ shift = u % 128 * 2 ^ shift + u / 128 * 2 ^ (shift + 7) := by
        rw [hpow, ← mul_assoc, ← add_mul]
        congr 1
        omega
      have hgroup : u % 128 * 2 ^ shift ≤ 127 * 2 ^ shift := by
        gcongr
        omega
      have hu' : u / 128 < 128 ^ (k + 1) := by
        rw [pow_succ] at hu
        omega
      have hfit' : u / 128 * 2 ^ (shift + 7) < 2 ^ 64 := by omega
      have hacc' : acc + u % 128 * 2 ^ shift < 2 ^ (shift + 7) := by omega
      obtain ⟨hread, hleft⟩ := ih hu' hfit' hacc' hrest
      rw [readGroups, hbyte]
      simp only [hbits, hmark, if_false, or_group hacc (by omega : u % 128 * 2 ^ shift < 2 ^ 64)]
      rw [hread, hsum, List.length_cons, Nat.add_assoc acc, Nat.add_right_comm pos]
      exact ⟨rfl, by rwa [Nat.add_right_comm pos] at hleft⟩
    · rw [if_neg hlarge] at h ⊢
      obtain ⟨hbyte, hrest⟩ := getElem?_of_drop h
      obtain ⟨hbits, hmark⟩ := last_group (n := u) (by omega)
      refine ⟨?_, hrest⟩
      rw [readGroups, hbyte]
      simp only [hbits, hmark, if_true, or_group hacc hfit]
      rfl

/-- **A number that is written is read back**, up to where it ends. -/
lemma readVarint_varint (hlo : -2 ^ 63 ≤ v) (hhi : v < 2 ^ 63)
    (h : data.drop pos = varint v ++ rest) :
    readVarint data pos = some (v, pos + (varint v).length) ∧
      data.drop (pos + (varint v).length) = rest := by
  have hlt := zigzag_lt hlo hhi
  have hgroups : zigzag v < 128 ^ (9 + 1) := hlt.trans (by norm_num)
  have hfit : zigzag v * 2 ^ 0 < 2 ^ 64 := by rwa [pow_zero, mul_one]
  obtain ⟨hread, hrest⟩ := readGroups_groups hgroups hfit (by norm_num : 0 < 2 ^ 0) h
  refine ⟨?_, hrest⟩
  rw [readVarint, hread, Nat.zero_add, pow_zero, mul_one, Option.map_some, varint]
  simp only [unzigzag_zigzag hlo hhi]

lemma length_groups (k u : ℕ) : 1 ≤ (groups k u).length ∧ (groups k u).length ≤ k + 1 := by
  induction k generalizing u with
  | zero => simp [groups]
  | succ k ih =>
    rw [groups]
    split
    · have hrest := ih (u >>> 7)
      rw [List.length_cons]
      omega
    · simp

lemma groups_ne_nil (k u : ℕ) : groups k u ≠ [] := List.ne_nil_of_length_pos (length_groups k u).1

/-- **Numbers of variable length.**  Every signed number of 64 bits is written in one to ten bytes,
and it is read back from between any other bytes, up to where it ends. -/
theorem readVarint_between (before after : List UInt8) (v : ℤ) (hlo : -2 ^ 63 ≤ v)
    (hhi : v < 2 ^ 63) :
    readVarint (before ++ varint v ++ after) before.length =
        some (v, before.length + (varint v).length) ∧
      1 ≤ (varint v).length ∧ (varint v).length ≤ 10 := by
  have hdrop : (before ++ varint v ++ after).drop before.length = varint v ++ after := by
    rw [List.append_assoc, List.drop_left]
  exact ⟨(readVarint_varint hlo hhi hdrop).1, length_groups 9 (zigzag v)⟩

theorem readVarint_between_least :
    readVarint ([7] ++ varint (-2 ^ 63) ++ [8, 9]) 1 = some (-2 ^ 63, 1 + 10) := by
  have hread := (readVarint_between [7] [8, 9] (-2 ^ 63) le_rfl (by norm_num)).1
  exact hread

/-! ### What is read of any bytes -/

lemma readGroups_bounds {result pos' : ℕ} (hacc : acc < 2 ^ 64)
    (h : readGroups data k shift acc pos = some (result, pos')) :
    result < 2 ^ 64 ∧ pos ≤ pos' ∧ (pos ≤ data.length → pos' ≤ data.length) ∧
      (0 < k → pos < pos') := by
  induction k generalizing shift acc pos with
  | zero =>
    obtain ⟨rfl, rfl⟩ := Prod.mk.inj (Option.some.inj h)
    exact ⟨hacc, le_rfl, id, by omega⟩
  | succ k ih =>
    rw [readGroups] at h
    cases hb : data[pos]? with
    | none =>
      rw [hb] at h
      cases h
    | some b =>
      obtain ⟨hpos, -⟩ := List.getElem?_eq_some_iff.1 hb
      have hor : acc ||| ((b.toNat &&& 0x7F) <<< shift) % 2 ^ 64 < 2 ^ 64 :=
        Nat.or_lt_two_pow hacc (Nat.mod_lt _ (by positivity))
      rw [hb] at h
      simp only at h
      split at h
      · obtain ⟨rfl, rfl⟩ := Prod.mk.inj (Option.some.inj h)
        exact ⟨hor, by omega, fun _ => hpos, fun _ => by omega⟩
      · obtain ⟨hlt, hle, hdata, -⟩ := ih hor h
        exact ⟨hlt, by omega, fun _ => hdata hpos, fun _ => by omega⟩

lemma readVarint_bounds {pos' : ℕ} (h : readVarint data pos = some (v, pos')) :
    -2 ^ 63 ≤ v ∧ v < 2 ^ 63 ∧ pos < pos' ∧ pos' ≤ data.length := by
  obtain ⟨⟨result, p⟩, hread, heq⟩ := Option.map_eq_some_iff.1 h
  cases heq
  obtain ⟨hlt, -, hdata, hpos⟩ := readGroups_bounds (by norm_num) hread
  have hstart : pos ≤ data.length := by
    by_contra hpast
    rw [readGroups, List.getElem?_eq_none (by omega)] at hread
    cases hread
  have hhalf : result >>> 1 = result / 2 := Nat.shiftRight_eq_div_pow result 1
  refine ⟨?_, ?_, hpos (by norm_num), hdata hstart⟩
  all_goals
    rw [unzigzag, hhalf]
    split <;> omega

end Varint

end KafkaWire

end MuduoChat
