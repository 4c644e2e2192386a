import Mathlib.Algebra.BigOperators.Intervals
import Mathlib.Algebra.BigOperators.Ring.Finset
import Mathlib.Tactic.SplitIfs
import R3000.Memory.Bank

/-!
# Contents of a bank

A bank is known by its bytes. A store changes the bytes of the value it writes
and no others, and a load is the sum of its bytes, each weighted by its place.
-/

namespace R3000

/-- Byte `k` of a value, the lowest first. -/
def byteOf (value : UInt32) (k : Nat) : UInt8 :=
  UInt8.ofNat (value.toNat / 256 ^ k)

/-- The value of `n` bytes, the lowest first. -/
def composed (n : Nat) (byte : Nat → UInt8) : Nat :=
  ∑ k ∈ Finset.range n, (byte k).toNat * 256 ^ k

theorem composed_congr {n : Nat} {f g : Nat → UInt8} (h : ∀ k < n, f k = g k) :
    composed n f = composed n g :=
  Finset.sum_congr rfl fun k hk => by rw [h k (Finset.mem_range.mp hk)]

theorem composed_lt (n : Nat) (byte : Nat → UInt8) : composed n byte < 256 ^ n := by
  induction n with
  | zero => exact Nat.one_pos
  | succ n ih =>
    have hlast := (byte n).toNat_lt
    rw [composed, Finset.sum_range_succ]
    calc composed n byte + (byte n).toNat * 256 ^ n
      _ < 256 ^ n + (byte n).toNat * 256 ^ n := Nat.add_lt_add_right ih _
      _ = ((byte n).toNat + 1) * 256 ^ n := by rw [Nat.add_mul, Nat.one_mul, Nat.add_comm]
      _ ≤ 256 * 256 ^ n := Nat.mul_le_mul_right _ hlast
      _ = 256 ^ (n + 1) := (Nat.pow_succ' ..).symm

theorem composed_add (m n : Nat) (byte : Nat → UInt8) :
    composed (m + n) byte = composed m byte + 256 ^ m * composed n fun k => byte (m + k) := by
  rw [composed, Finset.sum_range_add, composed, composed, Finset.mul_sum]
  congr 1
  apply Finset.sum_congr rfl
  intro k _
  rw [Nat.pow_add, Nat.mul_left_comm]

/-- The bytes from byte `s` on are a value of their own. -/
theorem composed_slice {s n m : Nat} (h : s + n ≤ m) (byte : Nat → UInt8) :
    composed m byte / 256 ^ s % 256 ^ n = composed n fun k => byte (s + k) := by
  obtain ⟨r, rfl⟩ := Nat.exists_eq_add_of_le h
  have hbelow := composed_lt s byte
  have hslice := composed_lt n fun k => byte (s + k)
  rw [Nat.add_assoc, composed_add, composed_add n, Nat.add_mul_div_left _ _ (Nat.pow_pos (by decide)),
    Nat.div_eq_of_lt hbelow, Nat.zero_add, Nat.add_mul_mod_self_left, Nat.mod_eq_of_lt hslice]

theorem toUInt8_shiftRight (value s : UInt32) {k : Nat} (hs : s.toNat = 8 * k) (hk : k < 4) :
    (value >>> s).toUInt8 = byteOf value k := by
  apply UInt8.toNat_inj.mp
  rw [UInt32.toNat_toUInt8, UInt32.toNat_shiftRight, hs, byteOf, UInt8.toNat_ofNat',
    Nat.shiftRight_eq_div_pow, Nat.mod_eq_of_lt (by omega : 8 * k < 32), Nat.pow_mul]

/-- Placing a byte above the bytes that are there already. -/
theorem toNat_or_shiftLeft (low s : UInt32) (byte : UInt8) {k : Nat} (hs : s.toNat = 8 * k)
    (hk : k < 4) (hlow : low.toNat < 256 ^ k) :
    (low ||| (byte.toUInt32 <<< s)).toNat = low.toNat + byte.toNat * 256 ^ k := by
  have hp : 256 ^ k = 2 ^ (8 * k) := by rw [Nat.pow_mul]
  have hb := byte.toNat_lt
  have hfit : byte.toNat * 256 ^ k < 2 ^ 32 := by
    calc byte.toNat * 256 ^ k < 2 ^ 8 * 2 ^ (8 * k) := by
          rw [hp]; exact Nat.mul_lt_mul_of_pos_right hb (Nat.two_pow_pos _)
      _ = 2 ^ (8 + 8 * k) := (Nat.pow_add ..).symm
      _ ≤ 2 ^ 32 := Nat.pow_le_pow_right (by decide) (by omega)
  -- The byte lies above what is there, so disjunction is addition.
  rw [UInt32.toNat_or, UInt32.toNat_shiftLeft, hs, UInt8.toNat_toUInt32, Nat.shiftLeft_eq,
    Nat.mod_eq_of_lt (by omega : 8 * k < 32), ← hp, Nat.mod_eq_of_lt hfit, Nat.or_comm, hp,
    Nat.mul_comm, ← Nat.two_pow_add_eq_or_of_lt (by rwa [← hp]), Nat.add_comm]

namespace Bank

variable {size : Nat}

theorem get_eq_getElem? (b : Bank size) (i : Nat) : b.get i = (b.bytes.data[i]?).getD 0 := by
  unfold get
  split
  · rename_i h
    rw [ByteArray.getElem_eq_getElem_data, Array.getElem?_eq_getElem (by simpa using h)]
    rfl
  · rename_i h
    rw [Array.getElem?_eq_none (by simpa using h)]
    rfl

theorem size_data (b : Bank size) : b.bytes.data.size = size := by
  rw [ByteArray.size_data, b.size_eq]

theorem data_set (b : Bank size) (i : Nat) (value : UInt8) :
    (b.set i value).bytes.data = b.bytes.data.setIfInBounds i value := by
  unfold set
  split
  · rename_i h
    rw [ByteArray.data_set, Array.setIfInBounds, dif_pos (by simpa using h)]
  · rename_i h
    rw [Array.setIfInBounds, dif_neg (by simpa using h)]

@[simp] theorem get_set (b : Bank size) (i j : Nat) (value : UInt8) :
    (b.set i value).get j = if j = i ∧ i < size then value else b.get j := by
  rw [get_eq_getElem?, get_eq_getElem?, data_set, Array.getElem?_setIfInBounds, b.size_data]
  by_cases hi : i = j
  · subst hi
    by_cases hs : i < size
    · simp [hs]
    · have hnone : b.bytes.data[i]? = none :=
        Array.getElem?_eq_none (by rw [b.size_data]; omega)
      simp [hs, hnone]
  · rw [if_neg hi, if_neg fun h => hi h.1.symm]

/-- A bank is known by its bytes. -/
theorem ext_get {b c : Bank size} (h : ∀ i, b.get i = c.get i) : b = c := by
  have hdata : b.bytes.data = c.bytes.data := by
    apply Array.ext
    · rw [b.size_data, c.size_data]
    · intro i hb hc
      have hi := h i
      rw [get_eq_getElem?, get_eq_getElem?, Array.getElem?_eq_getElem hb,
        Array.getElem?_eq_getElem hc] at hi
      exact hi
  cases b
  cases c
  congr
  exact ByteArray.ext hdata

theorem get_blank (k i : Nat) : (blank k).get i = 0 := by
  have hdata (k : Nat) : ∀ i : Nat, ((zeros k).data[i]?).getD 0 = 0 := by
    induction k with
    | zero => intro i; cases i <;> rfl
    | succ k ih =>
      intro i
      simp only [zeros, ByteArray.data_append, Array.getElem?_append]
      split <;> exact ih _
  rw [get_eq_getElem?]
  exact hdata k i

theorem load_blank (k : Nat) (w : Width) (i : Nat) : (blank k).load w i = 0 := by
  cases w <;> simp only [load, get_blank] <;> rfl

/-- A load is the value of its bytes. -/
theorem toNat_load (b : Bank size) (w : Width) (i : Nat) :
    (b.load w i).toNat = composed w.bytes fun k => b.get (i + k) := by
  have h0 := (b.get i).toNat_lt
  have h1 := (b.get (i + 1)).toNat_lt
  have h2 := (b.get (i + 2)).toNat_lt
  have hhalf : (b.load .half i).toNat = (b.get i).toNat + (b.get (i + 1)).toNat * 256 ^ 1 :=
    toNat_or_shiftLeft _ 8 _ rfl (by decide) (by simpa using h0)
  cases w with
  | byte => simp [load, composed, Width.bytes]
  | half => simp [hhalf, composed, Width.bytes, Finset.sum_range_succ]
  | word =>
    have hthree : (b.load .half i ||| ((b.get (i + 2)).toUInt32 <<< 16)).toNat =
        (b.load .half i).toNat + (b.get (i + 2)).toNat * 256 ^ 2 :=
      toNat_or_shiftLeft _ 16 _ rfl (by decide) (by rw [hhalf]; omega)
    have hfour : (b.load .word i).toNat =
        (b.load .half i ||| ((b.get (i + 2)).toUInt32 <<< 16)).toNat +
          (b.get (i + 3)).toNat * 256 ^ 3 :=
      toNat_or_shiftLeft _ 24 _ rfl (by decide) (lt_of_eq_of_lt hthree (by rw [hhalf]; omega))
    simp [hfour, hthree, hhalf, composed, Width.bytes, Finset.sum_range_succ]

/-- A store sets the bytes of its value one after the other. -/
theorem store_eq_foldl (b : Bank size) (w : Width) (i : Nat) (value : UInt32) :
    b.store w i value =
      (List.range w.bytes).foldl (fun b k => b.set (i + k) (byteOf value k)) b := by
  have h0 : value.toUInt8 = byteOf value 0 := by
    simpa using toUInt8_shiftRight value 0 (k := 0) rfl (by decide)
  have h1 := toUInt8_shiftRight value 8 (k := 1) rfl (by decide)
  have h2 := toUInt8_shiftRight value 16 (k := 2) rfl (by decide)
  have h3 := toUInt8_shiftRight value 24 (k := 3) rfl (by decide)
  cases w with
  | byte => simp [store, Width.bytes, h0]
  | half => simp [store, Width.bytes, List.range_succ, h0, h1]
  | word => simp [store, Width.bytes, List.range_succ, h0, h1, h2, h3]

theorem get_foldl_set (b : Bank size) (i j n : Nat) (byte : Nat → UInt8) :
    ((List.range n).foldl (fun b k => b.set (i + k) (byte k)) b).get j =
      if i ≤ j ∧ j < i + n ∧ j < size then byte (j - i) else b.get j := by
  -- Later bytes do not touch the earlier ones, so the last byte is split off.
  induction n with
  | zero => simp; omega
  | succ n ih =>
    rw [List.range_succ, List.foldl_append, List.foldl_cons, List.foldl_nil, get_set, ih]
    by_cases hj : j = i + n
    · subst hj
      by_cases hs : i + n < size
      · simp [hs]
      · simp [hs]
    · rw [if_neg fun h => hj h.1]
      congr 1
      simp only [eq_iff_iff]
      omega

/-- A store writes the bytes of its value and keeps every other byte. -/
theorem get_store (b : Bank size) (w : Width) (i j : Nat) (value : UInt32) :
    (b.store w i value).get j =
      if i ≤ j ∧ j < i + w.bytes ∧ j < size then byteOf value (j - i) else b.get j := by
  rw [store_eq_foldl, get_foldl_set]

end Bank

end R3000
