import R3000.Proofs.Bus.Bytes

/-!
# Devices in the I/O window

Where an access goes whose address belongs to a device: to the device, at the
offset of the address from the first of its registers, or nowhere if that offset
is a hole. Its word and its place within the word are those of the address.
-/

namespace R3000

/-- What is on the map is in the I/O window. -/
theorem Occupant.ofPhysical_ports {p : UInt32} {x : Occupant} (h : ofPhysical? p = some x) :
    Region.ofPhysical p = .ports := by
  obtain ⟨first, last, hspans, hfirst, hlast⟩ := ofPhysical_spans h
  have hlimit : p < 0x1F802000 :=
    UInt32.lt_of_le_of_lt (UInt32.le_trans hlast hspans.high) (by decide)
  have hp : p.toNat < 2 ^ 29 := Nat.lt_trans (UInt32.lt_iff_toNat_lt.mp hlimit) (by decide)
  exact (Region.ofPhysical_eq_iff hp .ports).mpr ⟨UInt32.le_trans hspans.low hfirst, hlimit⟩

/-- An access that is aligned finds the register of its word. -/
theorem registerHole_eq_none_iff {answers : UInt32 → Bool} {w : Width} {offset : UInt32}
    (h : w.align offset = offset) :
    registerHole? answers w offset = none ↔ answers (wordAddress offset) = true := by
  cases w with
  | byte | half => simp [registerHole?]
  | word =>
    have hword : wordAddress offset = offset := h
    simp [registerHole?, hword]

namespace Peripheral

variable (p : Peripheral) (w : Width) (a : UInt32)

/-- The address is one of those that the device takes up. -/
def Owns : Prop :=
  a < Target.controlSegment ∧ Occupant.ofPhysical? (physical a) = some (.device p)

instance : Decidable (p.Owns a) :=
  inferInstanceAs (Decidable (_ ∧ _))

variable {p a} in
/-- It is owned with the word around it. -/
theorem Owns.of_wordAddress {word : UInt32} (hlow : a < Target.controlSegment)
    (hword : wordAddress (physical a) = word)
    (ho : Occupant.ofPhysical? word = some (.device p)) : p.Owns a := by
  refine ⟨hlow, ?_⟩
  rw [← Occupant.ofPhysical_wordAddress, hword, ho]

/-- The offset of an access to the device. -/
def offset : UInt32 :=
  w.align (physical a) - p.first

theorem wordAddress_offset : wordAddress (p.offset w a) = wordAddress (physical a) - p.first := by
  rw [offset, wordAddress_sub p.first_mod_four, wordAddress_align]

/-- The word of the offset tells the word of the address. -/
theorem wordAddress_offset_eq_iff {o : UInt32} :
    wordAddress (p.offset w a) = o ↔ wordAddress (physical a) = o + p.first := by
  rw [wordAddress_offset, UInt32.sub_eq_iff_eq_add]

theorem align_offset : w.align (p.offset w a) = p.offset w a := by
  rw [offset, w.align_sub p.first_mod_four, w.align_align]

theorem start_offset : w.start (p.offset w a) = w.start a := by
  rw [offset, start_sub_first, w.start_physical]

end Peripheral

/-- An access to an address of a device goes to the device, unless it meets a hole. -/
theorem Target.ofAddress_occupied {hole? : Peripheral → Width → UInt32 → Option UInt32} {w : Width}
    {a : UInt32} {p : Peripheral} (h : p.Owns a) :
    ofAddress hole? w (w.align a) =
      match hole? p w (p.offset w a) with
      | some _ => .error (.unmappedIo (w.align (physical a)) w.bytes)
      | none => .ok (.device p (p.offset w a)) := by
  obtain ⟨hlow, ho⟩ := h
  have hsegment : ¬ controlSegment ≤ w.align a :=
    UInt32.not_le.mpr (UInt32.lt_of_le_of_lt (w.align_le a) hlow)
  rw [ofAddress, if_neg hsegment, physical_align, Region.ofPhysical_align,
    Occupant.ofPhysical_ports ho]
  simp only [ofOccupant, Occupant.ofPhysical_align, ho]
  rfl

end R3000
