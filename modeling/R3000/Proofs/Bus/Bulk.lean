import R3000.Proofs.Bus.Parts
import R3000.Proofs.Memory.Bulk

/-!
# Bulk writes and stores

A copy to RAM goes past the bus: it drops the segment of its first address once and
then writes to RAM whatever the later addresses are. Stores find out for every address
anew what answers there. As long as that is RAM, both do the same.
-/

namespace R3000.Bus

/-- The address is below the last kernel segment and in the window of RAM. -/
def NamesRam (a : Nat) : Prop :=
  a < Target.controlSegment.toNat ∧ Region.ram.Holds (physical (UInt32.ofNat a))

instance (a : Nat) : Decidable (NamesRam a) :=
  inferInstanceAs (Decidable (_ ∧ _))

/-- Store the bytes of `data` one after the other, from `address` on. -/
def storeBytes (b : Bus) (address : UInt32) (data : ByteArray) : Except Error Bus :=
  (List.finRange data.size).foldlM
    (fun b (i : Fin data.size) => b.store .byte (address + UInt32.ofNat i) data[i].toUInt32) b

section

variable {b : Bus} {address : UInt32} {data : ByteArray}

/-- A byte stored to RAM is put there. -/
theorem store_ram {a : UInt32} (hi : b.isolated = false) (hlow : a < Target.controlSegment)
    (hram : Region.ram.Holds (physical a)) (x : UInt8) :
    b.store .byte a x.toUInt32 = .ok { b with memory := b.memory.put (physical a) x } := by
  have hregion : Region.ofAddress a = .ram :=
    (Region.ofPhysical_eq_iff (toNat_physical_lt a) .ram).mpr hram
  have hcell : NamesCell a := ⟨hlow, by rw [hregion]; decide⟩
  rw [b.store_writable .byte hcell hi (by rw [hregion]; decide), hregion, Memory.store, Memory.put]
  simp only [Bank.store, UInt8.toUInt8_toUInt32]
  rfl

/-- It does not matter whether the segment is dropped before or after the address is stepped. -/
theorem put_physical (m : Memory) (address : UInt32) (k : Nat) (x : UInt8) :
    m.put (physical (address + UInt32.ofNat k)) x = m.put (physical address + UInt32.ofNat k) x := by
  rw [Memory.put, offset_physical_of_add, ← offset_physical_add, Memory.put]

theorem copyToRam_eq_foldl (b : Bus) (address : UInt32) (data : ByteArray) :
    b.copyToRam address data = (List.finRange data.size).foldl
      (fun b (i : Fin data.size) =>
        { b with memory := b.memory.put (physical address + UInt32.ofNat i) data[i] }) b := by
  have hbyte (i : Fin data.size) : data[i] = byteIn data i := getElem_eq_byteIn data i.isLt
  simp only [hbyte]
  rw [copyToRam, Memory.copy_eq, Memory.putBytes_eq_foldl, ← List.map_coe_finRange_eq_range,
    List.foldl_map, ← foldl_memory]

/-- Where every byte goes to RAM, the stores succeed and do what the copy does. -/
theorem storeBytes_eq_copyToRam (hi : b.isolated = false)
    (hram : ∀ i < data.size, NamesRam (address.toNat + i)) :
    b.storeBytes address data = .ok (b.copyToRam address data) := by
  rw [storeBytes, copyToRam_eq_foldl]
  -- No store to RAM isolates the cache, so the next one is not dropped either.
  refine foldlM_ok (I := fun b : Bus => b.isolated = false) ?_ hi
  intro b hi i _
  refine ⟨?_, hi⟩
  obtain ⟨hlow, hwindow⟩ := hram i i.isLt
  have haddress : UInt32.ofNat (address.toNat + i) = address + UInt32.ofNat i := by
    rw [UInt32.ofNat_add, UInt32.ofNat_toNat]
  rw [haddress] at hwindow
  have hbelow : address + UInt32.ofNat i < Target.controlSegment := by
    have hsegment : Target.controlSegment.toNat = 0xC0000000 := rfl
    rw [← haddress, UInt32.lt_iff_toNat_lt, UInt32.toNat_ofNat']
    omega
  rw [store_ram hi hbelow hwindow, put_physical]

end

/-- A copy to RAM is a byte store after the other, where these all go to RAM and the
cache is not isolated. A fill of any length is a copy of that many bytes. -/
theorem bulk_writes (b : Bus) (address : UInt32) :
    (∀ data : ByteArray, b.isolated = false →
        (∀ i < data.size, NamesRam (address.toNat + i)) →
        b.storeBytes address data = .ok (b.copyToRam address data)) ∧
      ∀ (count : UInt32) (value : UInt8),
        b.fillRam address count value = b.copyToRam address (copies count.toNat value) := by
  refine ⟨fun data hi hram => storeBytes_eq_copyToRam hi hram, fun count value => ?_⟩
  rw [fillRam, fillCount, Memory.fill_eq_copy, copyToRam]

/-- Four bytes across the end of a mirror of RAM. The last two come to its beginning. -/
theorem bulk_writes_mirror :
    ∃ data b, data = ⟨#[1, 2, 3, 4]⟩ ∧ b = ({} : Bus).copyToRam 0x803FFFFE data ∧
      (∀ i < data.size, NamesRam (0x803FFFFE + i)) ∧
      ({} : Bus).storeBytes 0x803FFFFE data = .ok b ∧
      b.memory.get .ram 0x1FFFFF = 2 ∧ b.memory.get .ram 0 = 3 := by
  have hram : ∀ i < (⟨#[1, 2, 3, 4]⟩ : ByteArray).size, NamesRam (0x803FFFFE + i) := by decide
  refine ⟨_, _, rfl, rfl, hram, (bulk_writes {} 0x803FFFFE).1 _ rfl hram, ?_, ?_⟩
  · exact Memory.get_copy ..
  · exact Memory.get_copy ..

end R3000.Bus
