import R3000.Proofs.Bounds.Bus
import R3000.Proofs.Bus.Bytes
import R3000.Proofs.Bus.Refusal
import R3000.Proofs.Cpu.Access
import R3000.Proofs.Device.UpperHalf

/-!
# Mapped addresses and access widths

An address of the I/O window is unmapped if no register is there. The bus and
every device decide this for the word around the address, so bytes, halfwords
and words are refused alike. There is one exception. Each timer has a word
without a register, and the upper half of that word takes halfwords.
-/

namespace R3000

/-- The access found no register. -/
def Unmapped {α : Type} (answer : Except Error α) : Prop :=
  ∃ address width, answer = .error (.unmappedIo address width)

namespace Unmapped

variable {α β : Type}

theorem error (address : UInt32) (width : Nat) :
    Unmapped (.error (.unmappedIo address width) : Except Error α) :=
  ⟨address, width, rfl⟩

theorem not_ok (x : α) : ¬ Unmapped (.ok x : Except Error α) := by
  rintro ⟨_, _, h⟩
  cases h

theorem map_iff (answer : Except Error α) (f : α → β) :
    Unmapped (answer.map f) ↔ Unmapped answer := by
  cases answer with
  | error e => simp [Unmapped, Except.map]
  | ok x => exact iff_of_false (not_ok (f x)) (not_ok x)

end Unmapped

/-! ## Devices -/

/-- Accesses of width `w` find a register where words do. -/
def Alike (hole? : Width → UInt32 → Option UInt32) (w : Width) (offset : UInt32) : Prop :=
  hole? w (w.align offset) = none ↔ hole? .word (wordAddress offset) = none

variable {w : Width} {offset a : UInt32}

theorem registerHole_alike (answers : UInt32 → Bool) (w : Width) (offset : UInt32) :
    Alike (registerHole? answers) w offset := by
  by_cases hw : w = .word
  · subst hw
    exact Iff.rfl
  · rw [Alike, registerHole_narrow hw, wordAddress_align]

namespace Timers

/-- The offset is in the upper half of a word without a register. -/
def Gap (offset : UInt32) : Prop :=
  isUpperHalf offset = true ∧ answers (wordAddress offset) = false

instance (offset : UInt32) : Decidable (Gap offset) :=
  inferInstanceAs (Decidable (_ ∧ _))

theorem hole_alike_iff : Alike hole? w offset ↔ ¬ (w = .half ∧ Gap offset) := by
  cases w with
  | byte => exact iff_of_true (registerHole_alike answers .byte offset) (by nofun)
  | word => exact iff_of_true Iff.rfl (by nofun)
  | half =>
    cases hupper : isUpperHalf offset with
    | true => simp [Alike, hole?, registerHole?, Gap, isUpperHalf_align_half, hupper]
    | false =>
      refine iff_of_true ?_ (by simp [Gap, hupper])
      have hlower := hupper
      rw [← isUpperHalf_align_half, align_half_of_lower hupper] at hlower
      simp [Alike, hole?, registerHole?, align_half_of_lower hupper, hlower]

end Timers

/-- The GPU has no word without a register. -/
theorem Gpu.answers_wordAddress (h : offset ≤ Peripheral.gpu.span) :
    answers (wordAddress offset) = true := by
  have hlast : offset.toNat ≤ 7 := UInt32.le_iff_toNat_le.mp h
  have hport : wordAddress offset = 0 ∨ wordAddress offset = 4 := by
    rw [← UInt32.toNat_inj, ← UInt32.toNat_inj, toNat_wordAddress]
    change _ = 0 ∨ _ = 4
    omega
  rcases hport with hport | hport <;> rw [hport] <;> rfl

namespace Peripheral

/-- Where halfwords find what words do not. -/
def Gap (p : Peripheral) (w : Width) (offset : UInt32) : Prop :=
  p = .timers ∧ w = .half ∧ Timers.Gap offset

theorem readHole_alike_iff (p : Peripheral) :
    Alike (Device.readHole? p.State) w offset ↔ ¬ p.Gap w offset := by
  cases p with
  | interrupt => exact iff_of_true (registerHole_alike _ w offset) (by nofun)
  | dma => exact iff_of_true (registerHole_alike _ w offset) (by nofun)
  | gpu => exact iff_of_true (registerHole_alike _ w offset) (by nofun)
  | spu => exact iff_of_true Iff.rfl (by nofun)
  | timers =>
    change Alike Timers.hole? w offset ↔ _
    rw [Timers.hole_alike_iff, Gap, and_iff_right rfl]

theorem writeHole_alike_iff (p : Peripheral) (h : offset ≤ p.span) :
    Alike (Device.writeHole? p.State) w offset ↔ ¬ p.Gap w offset := by
  cases p with
  | interrupt => exact readHole_alike_iff .interrupt
  | dma => exact readHole_alike_iff .dma
  | timers => exact readHole_alike_iff .timers
  | spu => exact readHole_alike_iff .spu
  | gpu =>
    refine iff_of_true ?_ (by nofun)
    -- Narrow writes are dropped, but not refused. No word is refused either.
    have hword : Device.writeHole? Peripheral.gpu.State .word (wordAddress offset) = none :=
      if_pos (Gpu.answers_wordAddress h)
    cases w with
    | word => exact Iff.rfl
    | byte | half => exact iff_of_true rfl hword

end Peripheral

/-! ## Targets -/

/-- The address is in the upper half of a word of the timers that has no register. -/
def TimerGap (a : UInt32) : Prop :=
  a < Target.controlSegment ∧
    wordAddress (physical a) ∈ [0x1F80110C, 0x1F80111C, 0x1F80112C] ∧ 2 ≤ a.toNat % 4

instance (a : UInt32) : Decidable (TimerGap a) :=
  inferInstanceAs (Decidable (_ ∧ _))

/-- The address is below the last segment and in the I/O window. -/
def InPorts (a : UInt32) : Prop :=
  a < Target.controlSegment ∧ Region.ofPhysical (physical a) = .ports

theorem Timers.gap_iff (h : offset ≤ Peripheral.timers.span) :
    Gap offset ↔ wordAddress offset ∈ [0x0C, 0x1C, 0x2C] ∧ 2 ≤ offset.toNat % 4 := by
  -- The words of the timers, one by one.
  have hwords : ∀ k : Fin 12, answers (UInt32.ofNat (4 * k)) = false ↔
      UInt32.ofNat (4 * k) ∈ [0x0C, 0x1C, 0x2C] := by decide
  have hk : offset.toNat / 4 < 12 := by
    have := UInt32.le_iff_toNat_le.mp h
    change _ ≤ 47 at this
    omega
  have hword : UInt32.ofNat (4 * (offset.toNat / 4)) = wordAddress offset := by
    apply UInt32.toNat_inj.mp
    rw [UInt32.toNat_ofNat', toNat_wordAddress]
    omega
  have hanswers := hwords ⟨_, hk⟩
  rw [hword] at hanswers
  rw [Gap, isUpperHalf_iff, hanswers, and_comm]

theorem timerGap_iff : TimerGap a ↔
    InPorts a ∧ Occupant.ofPhysical? (physical a) = some (.device .timers) ∧
      Timers.Gap (physical a - Peripheral.timers.first) := by
  have hfirst := Peripheral.timers.first_mod_four
  have hplace : (physical a - Peripheral.timers.first).toNat % 4 = a.toNat % 4 := by
    have hp := (physical a).toNat_lt
    have hlt := Peripheral.timers.first.toNat_lt
    rw [UInt32.toNat_sub, toNat_physical]
    omega
  have hbegin : wordAddress (physical a - Peripheral.timers.first) =
      wordAddress (physical a) - Peripheral.timers.first := wordAddress_sub hfirst _
  constructor
  · rintro ⟨hlow, hword, hupper⟩
    -- Region and occupant of an address are those of its word, which is known.
    have hregion := Region.ofPhysical_align .word (physical a)
    change Region.ofPhysical (wordAddress (physical a)) = _ at hregion
    rw [Timers.Gap, Timers.isUpperHalf_iff, hplace, hbegin, InPorts, ← hregion,
      ← Occupant.ofPhysical_wordAddress]
    simp only [List.mem_cons, List.not_mem_nil, or_false] at hword
    rcases hword with hword | hword | hword <;> rw [hword] <;>
      exact ⟨⟨hlow, rfl⟩, rfl, hupper, rfl⟩
  · rintro ⟨⟨hlow, -⟩, hoccupant, hgap⟩
    obtain ⟨hbefore, hafter⟩ := Occupant.device_bounds hoccupant
    rw [Timers.gap_iff (Peripheral.sub_first_le hbefore hafter), hplace, hbegin] at hgap
    refine ⟨hlow, ?_, hgap.2⟩
    have hbase : Peripheral.timers.first = 0x1F801100 := rfl
    simpa [UInt32.sub_eq_iff_eq_add, hbase] using hgap.1

namespace Target

variable {hole? : Peripheral → Width → UInt32 → Option UInt32}

theorem ofOccupant_unmapped_iff {p : UInt32} : Unmapped (ofOccupant hole? w p) ↔
    Occupant.ofPhysical? p = none ∨
      ∃ q, Occupant.ofPhysical? p = some (.device q) ∧ hole? q w (p - q.first) ≠ none := by
  rw [ofOccupant]
  cases Occupant.ofPhysical? p with
  | none => simp [Unmapped]
  | some x =>
    cases x with
    | latch | absent => simp [Unmapped]
    | device q =>
      simp only
      cases hhole : hole? q w (p - q.first) <;> simp [Unmapped, hhole]

theorem ofAddress_unmapped_iff (w : Width) (a : UInt32) :
    Unmapped (ofAddress hole? w (w.align a)) ↔
      InPorts a ∧ Unmapped (ofOccupant hole? w (w.align (physical a))) := by
  have hsegment : controlSegment ≤ w.align a ↔ controlSegment ≤ a :=
    w.le_align_iff rfl a
  have hregion : Region.ofPhysical (physical (w.align a)) = Region.ofPhysical (physical a) :=
    Region.ofAddress_align w a
  rw [ofAddress, InPorts, hregion, physical_align]
  by_cases hlow : controlSegment ≤ a
  · rw [if_pos (hsegment.mpr hlow)]
    refine iff_of_false ?_ fun h => absurd hlow (UInt32.not_le.mpr h.1.1)
    split <;> simp [Unmapped]
  · rw [if_neg (mt hsegment.mp hlow), and_iff_right (UInt32.not_le.mp hlow)]
    split
    · rename_i hports
      rw [hports, and_iff_right rfl]
    · rename_i hports
      exact iff_of_false (Unmapped.not_ok _) fun h => hports h.1

/-- Accesses in one word are refused alike, if they are at the device there. -/
theorem ofAddress_alike_iff (w : Width) (a : UInt32) :
    (Unmapped (ofAddress hole? w (w.align a)) ↔
        Unmapped (ofAddress hole? .word (wordAddress a))) ↔
      (InPorts a → ∀ p, Occupant.ofPhysical? (physical a) = some (.device p) →
        Alike (hole? p) w (physical a - p.first)) := by
  have hword : Unmapped (ofAddress hole? .word (wordAddress a)) ↔
      InPorts a ∧ Unmapped (ofOccupant hole? .word (wordAddress (physical a))) :=
    ofAddress_unmapped_iff .word a
  rw [ofAddress_unmapped_iff, hword, ofOccupant_unmapped_iff, ofOccupant_unmapped_iff,
    Occupant.ofPhysical_align, Occupant.ofPhysical_wordAddress]
  cases Occupant.ofPhysical? (physical a) with
  | none => simp
  | some x =>
    cases x with
    | latch | absent => simp
    | device p =>
      simp only [Alike, Width.align_sub p.first_mod_four, wordAddress_sub p.first_mod_four,
        Option.some.injEq, Occupant.device.injEq, reduceCtorEq, false_or, exists_eq_left',
        forall_eq']
      tauto

/-- Reads and writes differ in which narrow accesses a device refuses, but not in this. -/
theorem ofAddress_alike_iff_gap
    (h : ∀ p offset, offset ≤ p.span → (Alike (hole? p) w offset ↔ ¬ p.Gap w offset)) (a : UInt32) :
    (Unmapped (ofAddress hole? w (w.align a)) ↔
        Unmapped (ofAddress hole? .word (wordAddress a))) ↔ ¬ (w = .half ∧ TimerGap a) := by
  rw [ofAddress_alike_iff, timerGap_iff]
  constructor
  · rintro halike ⟨hw, hports, hoccupant, hgap⟩
    obtain ⟨hfirst, hlast⟩ := Occupant.device_bounds hoccupant
    exact (h _ _ (Peripheral.sub_first_le hfirst hlast)).mp (halike hports _ hoccupant)
      ⟨rfl, hw, hgap⟩
  · intro hnot hports p hoccupant
    obtain ⟨hfirst, hlast⟩ := Occupant.device_bounds hoccupant
    refine (h p _ (Peripheral.sub_first_le hfirst hlast)).mpr ?_
    rintro ⟨rfl, hw, hgap⟩
    exact hnot ⟨hw, hports, hoccupant, hgap⟩

theorem ofLoad_alike_iff (w : Width) (a : UInt32) :
    (Unmapped (ofLoad w a) ↔ Unmapped (ofLoad .word (wordAddress a))) ↔
      ¬ (w = .half ∧ TimerGap a) := by
  rw [ofLoad_wordAddress]
  exact ofAddress_alike_iff_gap (fun p _ _ => p.readHole_alike_iff) a

theorem ofStore_alike_iff (w : Width) (a : UInt32) :
    (Unmapped (ofStore w a) ↔ Unmapped (ofStore .word (wordAddress a))) ↔
      ¬ (w = .half ∧ TimerGap a) := by
  rw [ofStore_word, ofLoad_wordAddress, ← ofStore_word]
  exact ofAddress_alike_iff_gap (fun p _ => p.writeHole_alike_iff) a

theorem ofAddress_timerGap (h : TimerGap a) (hhole : hole? .timers = Timers.hole?) :
    ∃ offset, ofAddress hole? .half (Width.half.align a) = .ok (.device .timers offset) ∧
      Timers.isUpperHalf offset = true := by
  obtain ⟨⟨hlow, hports⟩, hoccupant, hupper, -⟩ := timerGap_iff.mp h
  have hsegment : ¬ controlSegment ≤ Width.half.align a :=
    UInt32.not_le.mpr (UInt32.lt_of_le_of_lt (Width.half.align_le a) hlow)
  rw [← Timers.isUpperHalf_align_half, Width.align_sub Peripheral.timers.first_mod_four] at hupper
  refine ⟨_, ?_, hupper⟩
  rw [ofAddress, if_neg hsegment, physical_align, Region.ofPhysical_align, hports]
  simp [ofOccupant, Occupant.ofPhysical_align, hoccupant, hhole, Timers.hole?, hupper]

end Target

namespace Bus

/-- Halfwords are read as zero and lost in the gaps between the registers of the timers. -/
theorem half_timerGap (b : Bus) (hi : b.isolated = false) (h : TimerGap a) (value : UInt32) :
    b.load .half a = .ok (0, b) ∧ b.store .half a value = .ok b := by
  constructor
  · obtain ⟨offset, ht, hupper⟩ : ∃ offset,
        Target.ofLoad .half a = .ok (.device .timers offset) ∧ Timers.isUpperHalf offset = true :=
      Target.ofAddress_timerGap h rfl
    have hread : Device.read b.timers .half offset = (0, b.timers) := if_pos hupper
    have hbus : b.read (.device .timers offset) .half = (0, b) :=
      congrArg (fun x : UInt32 × Timers => (x.1, { b with timers := x.2 })) hread
    rw [load_eq_map, ht, Except.map, hbus]
  · obtain ⟨offset, ht, hupper⟩ : ∃ offset,
        Target.ofStore .half a = .ok (.device .timers offset) ∧ Timers.isUpperHalf offset = true :=
      Target.ofAddress_timerGap h rfl
    have hwrite : Device.write b.timers .half offset (Width.half.truncate value) = b.timers :=
      if_pos hupper
    have hbus : b.write (.device .timers offset) .half value = b :=
      congrArg (fun timers => { b with timers }) hwrite
    rw [store_eq_map, if_neg (by simp [hides, hi]), ht, Except.map, hbus]

/-- Accesses of all widths to one word are refused alike, but for halfwords in the
gaps between the registers of the timers. These succeed and do nothing. -/
theorem mapped_alike (b : Bus) (hi : b.isolated = false) (w : Width) (a value wordValue : UInt32) :
    ((Unmapped (b.load w a) ↔ Unmapped (b.load .word (wordAddress a))) ↔
        ¬ (w = .half ∧ TimerGap a)) ∧
      ((Unmapped (b.store w a value) ↔ Unmapped (b.store .word (wordAddress a) wordValue)) ↔
        ¬ (w = .half ∧ TimerGap a)) ∧
      (w = .half → TimerGap a → b.load w a = .ok (0, b) ∧ b.store w a value = .ok b) := by
  have hseen (w : Width) (a : UInt32) : ¬ b.hides w a = true := by simp [hides, hi]
  refine ⟨?_, ?_, ?_⟩
  · rw [load_eq_map, load_eq_map, Unmapped.map_iff, Unmapped.map_iff, Target.ofLoad_alike_iff]
  · rw [store_eq_map, store_eq_map, if_neg (hseen _ _), if_neg (hseen _ _), Unmapped.map_iff,
      Unmapped.map_iff, Target.ofStore_alike_iff]
  · rintro rfl h
    exact half_timerGap b hi h value

/-- Nothing is between the second timer and the third, at any width but the halfword's. -/
theorem mapped_alike_gap :
    ({} : Bus).isolated = false ∧ TimerGap 0xBF80111E ∧
      Unmapped (({} : Bus).load .word 0xBF80111C) ∧ Unmapped (({} : Bus).load .byte 0xBF80111E) ∧
      ({} : Bus).load .half 0xBF80111E = .ok (0, {}) := by
  have hgap : TimerGap 0xBF80111E := by decide
  have hword : Unmapped (({} : Bus).load .word 0xBF80111C) := .error 0x1F80111C 4
  obtain ⟨hbyte, -, -⟩ := mapped_alike {} rfl .byte 0xBF80111E 0 0
  obtain ⟨-, -, hhalf⟩ := mapped_alike {} rfl .half 0xBF80111E 0 0
  exact ⟨rfl, hgap, hword, (hbyte.mpr (by nofun)).mpr hword, (hhalf rfl hgap).1⟩

/-- A halfword is read where there is no register. -/
theorem gap_read :
    ¬ ∀ (b : Bus) (w : Width) (a value wordValue : UInt32), b.isolated = false → InWindow w a →
        (Unmapped (b.load w a) ↔ Unmapped (b.load .word (wordAddress a))) ∧
          (Unmapped (b.store w a value) ↔
            Unmapped (b.store .word (wordAddress a) wordValue)) := by
  intro hlaw
  have hwindow : InWindow .half 0x1F80110E := ⟨by decide, by decide, by decide⟩
  have hgap : TimerGap 0x1F80110E := by decide
  have hword : Unmapped (({} : Bus).load .word (wordAddress 0x1F80110E)) := .error 0x1F80110C 4
  have hread := (hlaw {} .half 0x1F80110E 0 0 rfl hwindow).1.mpr hword
  rw [(half_timerGap {} rfl hgap 0).1] at hread
  exact Unmapped.not_ok _ hread

end Bus

end R3000
