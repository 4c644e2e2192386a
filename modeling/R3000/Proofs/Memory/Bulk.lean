import R3000.Memory
import R3000.Proofs.Memory.Bank
import R3000.Proofs.Memory.Region

/-!
# Bulk writes to RAM

A bulk write steps an address from byte to byte and drops the bits that RAM does
not have, so a long one comes round and meets cells that it has written before. A
cell keeps the byte that falls on it last. A fill stops after as many bytes as RAM
holds: by then every cell has got the byte that it would get again.
-/

namespace R3000

/-- Byte `i` of `data`. -/
def byteIn (data : ByteArray) (i : Nat) : UInt8 :=
  data.data.getD i 0

theorem getElem_eq_byteIn (data : ByteArray) {i : Nat} (h : i < data.size) :
    data[i] = byteIn data i := by
  rw [byteIn, Array.getD_eq_getD_getElem?, Array.getElem?_eq_getElem h]
  rfl

/-- So many bytes of one value. -/
def copies (count : Nat) (value : UInt8) : ByteArray :=
  ⟨Array.replicate count value⟩

/-! ## Where bytes fall -/

/-- Offset of RAM on which byte `k` of a bulk write from `address` on falls. -/
def fallsOn (address : UInt32) (k : Nat) : Nat :=
  (address.toNat + k) % Region.ram.size

/-- Which of `n` bytes from `address` on falls on offset `o` last, if one does. -/
def lastOn? (address : UInt32) (o : Nat) : (n : Nat) → Option Nat
  | 0 => none
  | n + 1 => if fallsOn address n = o then some n else lastOn? address o n

section

variable {address : UInt32} {o n i : Nat}

theorem lastOn?_eq_none_iff : lastOn? address o n = none ↔ ∀ k < n, fallsOn address k ≠ o := by
  induction n with
  | zero => simp [lastOn?]
  | succ n ih =>
    rw [lastOn?, Nat.forall_lt_succ_right]
    split
    · rename_i h
      simp [h]
    · rename_i h
      simp [ih, h]

theorem lastOn?_eq_some_iff :
    lastOn? address o n = some i ↔
      i < n ∧ fallsOn address i = o ∧ ∀ k, i < k → k < n → fallsOn address k ≠ o := by
  induction n with
  | zero => simp [lastOn?]
  | succ n ih =>
    rw [lastOn?]
    by_cases h : fallsOn address n = o
    · rw [if_pos h, Option.some_inj]
      constructor
      · rintro rfl
        exact ⟨Nat.lt_succ_self n, h, fun k hk hk' => by omega⟩
      · rintro ⟨hi, -, hlast⟩
        by_contra hne
        exact hlast n (by omega) (Nat.lt_succ_self n) h
    · rw [if_neg h, ih]
      constructor
      · rintro ⟨hi, hio, hlast⟩
        refine ⟨Nat.lt_succ_of_lt hi, hio, fun k hk hk' => ?_⟩
        rcases Nat.lt_succ_iff_lt_or_eq.mp hk' with hk' | rfl
        · exact hlast k hk hk'
        · exact h
      · rintro ⟨hi, hio, hlast⟩
        have hne : i ≠ n := by
          rintro rfl
          exact h hio
        exact ⟨by omega, hio, fun k hk hk' => hlast k hk (Nat.lt_succ_of_lt hk')⟩

/-- When all bytes are alike, it only matters whether one falls there. -/
theorem elim_lastOn? {byte : Nat → UInt8} {value : UInt8} (h : ∀ k < n, byte k = value)
    (old : UInt8) :
    (lastOn? address o n).elim old byte =
      if ∃ k < n, fallsOn address k = o then value else old := by
  cases hl : lastOn? address o n with
  | none =>
    rw [if_neg]
    · rfl
    · rintro ⟨k, hk, hko⟩
      exact lastOn?_eq_none_iff.mp hl k hk hko
  | some i =>
    obtain ⟨hi, hio, -⟩ := lastOn?_eq_some_iff.mp hl
    rw [if_pos ⟨i, hi, hio⟩]
    exact h i hi

/-- As many bytes as RAM holds fall on every cell on which more would. -/
theorem exists_fallsOn_min :
    (∃ k < min n Region.ram.size, fallsOn address k = o) ↔ ∃ k < n, fallsOn address k = o := by
  constructor
  · rintro ⟨k, hk, hko⟩
    exact ⟨k, Nat.lt_of_lt_of_le hk (Nat.min_le_left _ _), hko⟩
  · rintro ⟨k, hk, hko⟩
    have hround : fallsOn address (k % Region.ram.size) = fallsOn address k := Nat.add_mod_mod ..
    refine ⟨k % Region.ram.size, Nat.lt_min.mpr ⟨?_, ?_⟩, hround.trans hko⟩
    · exact Nat.lt_of_le_of_lt (Nat.mod_le _ _) hk
    · exact Nat.mod_lt _ Region.ram.size_pos

end

/-- Dropping the segment before the address is stepped does not matter. -/
theorem offset_physical_add (address : UInt32) (k : Nat) :
    Region.ram.offset (physical address + UInt32.ofNat k) = fallsOn address k := by
  have hsize : Region.ram.size = 2 ^ 21 := rfl
  rw [Region.offset_eq_mod, fallsOn, hsize, UInt32.toNat_add, UInt32.toNat_ofNat', toNat_physical]
  omega

theorem offset_physical_of_add (address : UInt32) (k : Nat) :
    Region.ram.offset (physical (address + UInt32.ofNat k)) = fallsOn address k := by
  have hsize : Region.ram.size = 2 ^ 21 := rfl
  rw [Region.offset_eq_mod, fallsOn, hsize, toNat_physical, UInt32.toNat_add, UInt32.toNat_ofNat']
  omega

namespace Memory

/-! ## Byte after byte -/

/-- Write one byte to RAM. -/
def put (m : Memory) (address : UInt32) (value : UInt8) : Memory :=
  m.modify .ram fun b => b.set (Region.ram.offset address) value

/-- Write the bytes `0` to `n - 1` to RAM from `address` on. -/
def putBytes (m : Memory) (address : UInt32) (byte : Nat → UInt8) : (n : Nat) → Memory
  | 0 => m
  | n + 1 => (m.putBytes address byte n).put (address + UInt32.ofNat n) (byte n)

section

variable (m : Memory) (address : UInt32) (byte : Nat → UInt8) (n : Nat)

/-- The loops begin with the first byte. -/
theorem putBytes_succ :
    m.putBytes address byte (n + 1) =
      (m.put address (byte 0)).putBytes (address + 1) (fun k => byte (k + 1)) n := by
  induction n with
  | zero =>
    have hzero : address + UInt32.ofNat 0 = address := UInt32.add_zero address
    exact congrArg (m.put · (byte 0)) hzero
  | succ n ih =>
    have hnext : address + UInt32.ofNat (n + 1) = address + 1 + UInt32.ofNat n := by
      rw [Nat.add_comm, UInt32.ofNat_add, ← UInt32.add_assoc]
      rfl
    rw [putBytes, ih, hnext]
    rfl

theorem putBytes_eq_foldl :
    m.putBytes address byte n =
      (List.range n).foldl (fun m k => m.put (address + UInt32.ofNat k) (byte k)) m := by
  induction n with
  | zero => rfl
  | succ n ih => rw [putBytes, ih, List.range_succ, List.foldl_append, List.foldl_cons, List.foldl_nil]

/-- The bytes go to RAM alone. -/
theorem bank_putBytes_other {r : Region} (hr : r ≠ .ram) :
    (m.putBytes address byte n).bank r = m.bank r := by
  induction n with
  | zero => rfl
  | succ n ih => exact (bank_modify ..).trans ((if_neg hr).trans ih)

/-- A cell keeps the byte that falls on it last. -/
theorem get_putBytes (o : Nat) :
    (m.putBytes (physical address) byte n).get .ram o =
      (lastOn? address o n).elim (m.get .ram o) byte := by
  induction n with
  | zero => rfl
  | succ n ih =>
    -- The newest byte covers whatever fell on its cell before.
    have hlt : fallsOn address n < Region.ram.size := Nat.mod_lt _ Region.ram.size_pos
    rw [putBytes, put, get, bank_modify, if_pos rfl, Bank.get_set, offset_physical_add, lastOn?]
    by_cases h : fallsOn address n = o
    · rw [if_pos h, if_pos ⟨h.symm, hlt⟩]
      rfl
    · rw [if_neg h, if_neg fun ho => h ho.1.symm]
      exact ih

end

theorem copyFrom_eq (m : Memory) (address : UInt32) (data : ByteArray) (i : Nat) :
    m.copyFrom address data i =
      m.putBytes address (fun k => byteIn data (k + i)) (data.size - i) := by
  fun_induction copyFrom m address data i with
  | case1 m address i h m' ih =>
    have hsize : data.size - i = data.size - (i + 1) + 1 := by omega
    have hbyte : data[i] = byteIn data (0 + i) := by
      rw [Nat.zero_add, getElem_eq_byteIn data h]
    rw [ih, hsize, putBytes_succ, ← hbyte]
    simp only [Nat.add_assoc, Nat.add_comm 1]
    rfl
  | case2 m address i h => rw [Nat.sub_eq_zero_of_le (Nat.le_of_not_lt h), putBytes]

theorem copy_eq (m : Memory) (address : UInt32) (data : ByteArray) :
    m.copy address data = m.putBytes address (byteIn data) data.size :=
  m.copyFrom_eq address data 0

theorem fill_eq (m : Memory) (address : UInt32) (count : Nat) (value : UInt8) :
    m.fill address count value = m.putBytes address (fun _ => value) count := by
  induction count generalizing m address with
  | zero => rfl
  | succ count ih =>
    rw [fill, ih, putBytes_succ]
    rfl

/-! ## Copies and fills -/

section

variable (m : Memory) (address : UInt32)

/-- A copy to RAM leaves the other regions alone. -/
theorem bank_copy_other {r : Region} (hr : r ≠ .ram) (data : ByteArray) :
    (m.copy address data).bank r = m.bank r := by
  rw [copy_eq, bank_putBytes_other _ _ _ _ hr]

/-- So does a fill of RAM. -/
theorem bank_fill_other {r : Region} (hr : r ≠ .ram) (count : Nat) (value : UInt8) :
    (m.fill address count value).bank r = m.bank r := by
  rw [fill_eq, bank_putBytes_other _ _ _ _ hr]

theorem get_copy (data : ByteArray) (o : Nat) :
    (m.copy (physical address) data).get .ram o =
      (lastOn? address o data.size).elim (m.get .ram o) (byteIn data) := by
  rw [copy_eq, get_putBytes]

/-- A fill that stops when RAM is full writes to every cell that it would reach. -/
theorem get_fill (count : Nat) (value : UInt8) (o : Nat) :
    (m.fill (physical address) (min count Region.ram.size) value).get .ram o =
      if ∃ k < count, fallsOn address k = o then value else m.get .ram o := by
  rw [fill_eq, get_putBytes, elim_lastOn? fun _ _ => rfl]
  exact if_congr exists_fallsOn_min rfl rfl

/-- A fill is a copy of so many bytes of one value, also when it stops before. -/
theorem fill_eq_copy (count : Nat) (value : UInt8) :
    m.fill (physical address) (min count Region.ram.size) value =
      m.copy (physical address) (copies count value) := by
  have hsize : (copies count value).size = count := Array.size_replicate
  have hbyte (k : Nat) (hk : k < count) : byteIn (copies count value) k = value := by
    rw [byteIn, copies, Array.getD_eq_getD_getElem?, Array.getElem?_replicate, if_pos hk,
      Option.getD_some]
  apply ext_bank
  intro r
  by_cases hr : r = .ram
  · subst hr
    apply Bank.ext_get
    intro o
    have hfill := m.get_fill address count value o
    rw [← elim_lastOn? hbyte] at hfill
    have hcopy := m.get_copy address (copies count value) o
    rw [hsize] at hcopy
    exact hfill.trans hcopy.symm
  · rw [m.bank_fill_other _ hr, m.bank_copy_other _ hr]

end

end Memory

end R3000
