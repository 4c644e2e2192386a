import R3000.Proofs.Bounds.Bus
import R3000.Proofs.Bus.Window
import R3000.Proofs.Device.Dma
import R3000.Proofs.Device.Parts
import R3000.Proofs.Machine.Consistency

/-!
# Stores in parts

Memory, and the registers that keep what is written to them, hold the same after
a word is stored as after its halves or its bytes are stored one after the
other. Each width has its own way there, so this is shown for what answers at
an address, and then for the address.
-/

namespace R3000

/-! ## Places in a word -/

section Places

variable {w : Width} {a : UInt32} {k : Nat}

theorem le_add_place_iff {first : UInt32} (hfirst : first.toNat % 4 = 0) (ha : a.toNat % 4 = 0)
    (hk : k ∈ w.places) : first ≤ a + UInt32.ofNat k ↔ first ≤ a := by
  rw [← le_wordAddress_iff hfirst, Width.wordAddress_add_place ha hk]

theorem physical_add_place (ha : a.toNat % 4 = 0) (hk : k ∈ w.places) :
    physical (a + UInt32.ofNat k) = physical a + UInt32.ofNat k := by
  have hlt := Width.lt_of_mem hk
  have hadd := a.toNat_lt
  apply UInt32.toNat_inj.mp
  rw [toNat_physical, UInt32.toNat_add, UInt32.toNat_add, UInt32.toNat_ofNat', toNat_physical]
  omega

theorem wordAddress_physical_add_place (ha : a.toNat % 4 = 0) (hk : k ∈ w.places) :
    wordAddress (physical (a + UInt32.ofNat k)) = physical a := by
  rw [← physical_wordAddress, Width.wordAddress_add_place ha hk]

theorem Region.offset_add_place (r : Region) (ha : a.toNat % 4 = 0) (hk : k ∈ w.places) :
    r.offset (physical (a + UInt32.ofNat k)) = r.offset (physical a) + k := by
  have hword : Width.word.align a = a := Width.wordAddress_of_aligned ha
  have hoffset := r.offset_align_add (w := .word) a (Width.lt_of_mem hk)
  rwa [hword] at hoffset

namespace Peripheral

variable {p : Peripheral}

/-- A device owns a word as a whole. -/
theorem Owns.add_place (h : p.Owns a) (ha : a.toNat % 4 = 0) (hk : k ∈ w.places) :
    p.Owns (a + UInt32.ofNat k) := by
  refine .of_wordAddress ?_ (wordAddress_physical_add_place ha hk) h.2
  rw [← UInt32.not_le, le_add_place_iff rfl ha hk, UInt32.not_le]
  exact h.1

theorem offset_add_place (p : Peripheral) (ha : a.toNat % 4 = 0) (hk : k ∈ w.places) :
    p.offset w (a + UInt32.ofNat k) = physical a - p.first + UInt32.ofNat k := by
  rw [offset, ← physical_align, Width.align_add_place ha hk, physical_add_place ha hk,
    UInt32.sub_eq_add_neg, UInt32.sub_eq_add_neg, UInt32.add_assoc, UInt32.add_comm (.ofNat k),
    ← UInt32.add_assoc]

theorem sub_first_mod_four (p : Peripheral) (ha : a.toNat % 4 = 0) :
    (physical a - p.first).toNat % 4 = 0 := by
  have hfirst := p.first_mod_four
  have hlt := (physical a).toNat_lt
  have hlt' := p.first.toNat_lt
  rw [UInt32.toNat_sub, toNat_physical]
  omega

end Peripheral

end Places

/-! ## Holes -/

section Holes

variable {w : Width} {offset : UInt32} {k : Nat}

theorem InterruptController.writeHole_add_place (h : answers offset = true)
    (ha : offset.toNat % 4 = 0) (hk : k ∈ w.places) :
    Device.writeHole? InterruptController w (offset + UInt32.ofNat k) = none := by
  refine (registerHole_eq_none_iff (Width.align_add_place ha hk)).mpr ?_
  rw [Width.wordAddress_add_place ha hk, h]

theorem Dma.writeHole_add_place {r : Register} (h : Register.ofOffset? offset = some r)
    (ha : offset.toNat % 4 = 0) (hk : k ∈ w.places) :
    Device.writeHole? Dma w (offset + UInt32.ofNat k) = none := by
  rw [writeHole_eq_none_iff, answers, ← Register.ofOffset_wordAddress,
    Width.wordAddress_add_place ha hk, h, Option.isSome_some]

theorem Timers.writeHole_add_place {r : Register} (h : Register.ofOffset? offset = some r)
    (ha : offset.toNat % 4 = 0) (hk : k ∈ w.places) :
    Device.writeHole? Timers w (offset + UInt32.ofNat k) = none := by
  have hanswers : answers offset = true := by rw [answers, h, Option.isSome_some]
  have hregister : registerHole? answers w (offset + UInt32.ofNat k) = none := by
    refine (registerHole_eq_none_iff (Width.align_add_place ha hk)).mpr ?_
    rw [Width.wordAddress_add_place ha hk, hanswers]
  cases w with
  | byte | word => exact hregister
  | half =>
    -- The lower half has the register, and the upper half always answers.
    refine if_pos ?_
    obtain rfl | rfl : k = 0 ∨ k = 2 := by simpa [Width.places] using hk
    · have hzero : offset + UInt32.ofNat 0 = offset := UInt32.add_zero offset
      rw [hzero, hanswers, Bool.or_true]
    · have hupper : isUpperHalf (offset + UInt32.ofNat 2) = true := by
        rw [isUpperHalf_iff, toNat_add_ofNat_mod, ha]
      rw [hupper, Bool.true_or]

end Holes

namespace Bus

variable {b : Bus} {w : Width} {a value : UInt32} {p : Peripheral} {k : Nat}

/-! ## Stores -/

/-- Store the parts of a value, one after the other by rising address. -/
def storeParts (b : Bus) (w : Width) (a value : UInt32) : Except Error Bus :=
  w.places.foldlM (fun b k => b.store w (a + UInt32.ofNat k) (w.part value k)) b

/-- The only part of a word that has its width is the word. -/
theorem storeParts_word (b : Bus) (a value : UInt32) :
    b.storeParts .word a value = b.store .word a value := by
  have hzero : a + UInt32.ofNat 0 = a := UInt32.add_zero a
  simp only [storeParts, Width.places, List.foldlM_cons, List.foldlM_nil, hzero, Width.part_word]
  cases b.store .word a value <;> rfl

/-- Steps that succeed as long as something holds that they keep succeed together. -/
theorem foldlM_ok {α σ ε : Type} {g : σ → α → Except ε σ} {f : σ → α → σ} {I : σ → Prop}
    {xs : List α} (h : ∀ s, I s → ∀ x ∈ xs, g s x = .ok (f s x) ∧ I (f s x)) {s : σ} (hs : I s) :
    xs.foldlM g s = .ok (xs.foldl f s) := by
  induction xs generalizing s with
  | nil => rfl
  | cons x xs ih =>
    obtain ⟨hstep, hkept⟩ := h s hs x List.mem_cons_self
    rw [List.foldlM_cons, hstep, List.foldl_cons]
    exact ih (fun s hs y hy => h s hs y (List.mem_cons_of_mem x hy)) hkept

/-- An isolated cache takes the parts as it takes the word. -/
theorem storeParts_isolated (hi : b.isolated = true) (hlow : a < Target.controlSegment)
    (ha : a.toNat % 4 = 0) (w : Width) (value : UInt32) : b.storeParts w a value = .ok b := by
  have hstep (b : Bus) (hi : b.isolated = true) (k : Nat) (hk : k ∈ w.places) :
      b.store w (a + UInt32.ofNat k) (w.part value k) = .ok b ∧ b.isolated = true := by
    have hpart : w.align (a + UInt32.ofNat k) < Target.controlSegment := by
      rw [Width.align_add_place ha hk, ← UInt32.not_le, le_add_place_iff rfl ha hk, UInt32.not_le]
      exact hlow
    rw [store, hides, hi, decide_eq_true hpart]
    exact ⟨rfl, rfl⟩
  refine (foldlM_ok (f := fun b _ => b) hstep hi).trans ?_
  cases w <;> rfl

/-- Where nothing is hidden, the parts are written one after the other. -/
theorem storeParts_eq {target : Nat → Target}
    (hseen : b.isolated = false ∨ Target.controlSegment ≤ a) (ha : a.toNat % 4 = 0)
    (ht : ∀ k ∈ w.places, Target.ofStore w (a + UInt32.ofNat k) = .ok (target k))
    (value : UInt32) :
    b.storeParts w a value =
      .ok (w.places.foldl (fun b k => b.write (target k) w (w.part value k)) b) := by
  refine foldlM_ok (I := fun b' => b'.isolated = b.isolated) (fun b' hi k hk => ⟨?_, ?_⟩) rfl
  · have hshown : ¬ b'.hides w (a + UInt32.ofNat k) = true := by
      rw [hides, Bool.and_eq_true, decide_eq_true_iff, hi, Width.align_add_place ha hk,
        ← UInt32.not_le, le_add_place_iff rfl ha hk]
      rintro ⟨hisolated, hlow⟩
      rcases hseen with hseen | hhigh
      · exact Bool.false_ne_true (hseen.symm.trans hisolated)
      · exact hlow hhigh
    rw [store, if_neg hshown, ht k hk]
  · exact (stable_isolated b.isolated).write b' _ w _ hi

/-! ## Cache control -/

theorem storeParts_cacheControl (b : Bus) (w : Width) (value : UInt32) :
    b.storeParts w Target.cacheControlAddress value = .ok { b with cacheControl := value } := by
  have hkeeps : Keeps Bus.cacheControl (fun b x => { b with cacheControl := x }) 0xFFFFFFFF :=
    .of_get_put (fun b x => rfl) fun b x y => rfl
  have ht : ∀ k ∈ w.places, Target.ofStore w (Target.cacheControlAddress + UInt32.ofNat k) =
      .ok (.cacheControl (Target.cacheControlAddress + UInt32.ofNat k)) := by
    cases w <;> decide
  have ha : Target.cacheControlAddress.toNat % 4 = 0 := rfl
  rw [storeParts_eq (.inr (by decide)) ha ht]
  exact congrArg Except.ok (hkeeps.put_parts w ha value b)

/-! ## Memory -/

theorem foldl_memory {α : Type} (f : Memory → α → Memory) (xs : List α) (b : Bus) :
    xs.foldl (fun b x => { b with memory := f b.memory x }) b =
      { b with memory := xs.foldl f b.memory } := by
  induction xs generalizing b with
  | nil => rfl
  | cons x xs ih => rw [List.foldl_cons, ih, List.foldl_cons]

theorem write_cell {r : Region} (hr : r ≠ .bios) (b : Bus) (i : Nat) (w : Width) (value : UInt32) :
    b.write (.cell r i) w value = { b with memory := b.memory.store r w i value } := by
  cases r with
  | bios => exact absurd rfl hr
  | _ => rfl

/-- The bytes of a region take the parts as they take the word, if they take anything. -/
theorem storeParts_cell {r : Region} {i : Nat} (hi : b.isolated = false) (ha : a.toNat % 4 = 0)
    (ht : ∀ w : Width, ∀ k ∈ w.places,
      Target.ofStore w (a + UInt32.ofNat k) = .ok (.cell r (i + k))) (value : UInt32) :
    ∃ b', ∀ w, b.storeParts w a value = .ok b' := by
  by_cases hr : r = .bios
  · subst hr
    refine ⟨b, fun w => ?_⟩
    rw [storeParts_eq (.inl hi) ha (ht w)]
    cases w <;> rfl
  · refine ⟨{ b with memory := b.memory.store r .word i value }, fun w => ?_⟩
    rw [storeParts_eq (.inl hi) ha (ht w), ← b.memory.store_parts r w, ← foldl_memory]
    simp only [write_cell hr]

/-! ## Devices -/

theorem writeDevice_eq (b : Bus) (p : Peripheral) (w : Width) (offset value : UInt32) :
    b.writeDevice p w offset value = b.setDevice p (Device.write (b.device p) w offset value) := by
  cases p <;> rfl

theorem foldl_setDevice {α : Type} (p : Peripheral) (f : p.State → α → p.State) (xs : List α)
    (b : Bus) :
    xs.foldl (fun b x => b.setDevice p (f (b.device p) x)) b =
      b.setDevice p (xs.foldl f (b.device p)) := by
  induction xs generalizing b with
  | nil => cases p <;> rfl
  | cons x xs ih =>
    have hset (d d' : p.State) : (b.setDevice p d).setDevice p d' = b.setDevice p d' := by
      cases p <;> rfl
    have hdevice (d : p.State) : (b.setDevice p d).device p = d := by
      cases p <;> rfl
    rw [List.foldl_cons, ih, hset, hdevice, List.foldl_cons]

/-- A device that is written in parts takes the parts as it takes the word. -/
theorem storeParts_device (hi : b.isolated = false) (ha : a.toNat % 4 = 0) (ho : p.Owns a)
    (hhole : ∀ w : Width, ∀ k ∈ w.places,
      Device.writeHole? p.State w (physical a - p.first + UInt32.ofNat k) = none)
    (hdivides : Device.Divides p.State (physical a - p.first)) (value : UInt32) :
    ∃ b', ∀ w, b.storeParts w a value = .ok b' := by
  have ht (w : Width) : ∀ k ∈ w.places, Target.ofStore w (a + UInt32.ofNat k) =
      .ok (.device p (physical a - p.first + UInt32.ofNat k)) := by
    intro k hk
    rw [Target.ofStore, Target.ofAddress_occupied (ho.add_place ha hk), p.offset_add_place ha hk,
      hhole w k hk]
  refine ⟨b.writeDevice p .word (physical a - p.first) value, fun w => ?_⟩
  rw [storeParts_eq (.inl hi) ha (ht w), writeDevice_eq, ← hdivides (b.device p) w value,
    ← foldl_setDevice p fun d k =>
      Device.write d w (physical a - p.first + UInt32.ofNat k) (w.part value k)]
  simp only [write, Width.truncate_part, writeDevice_eq]

/-! ## Addresses -/

/-- What answers at an address keeps what is stored there: the cache control
register, memory, plain bytes of the I/O window, the interrupt controller, the
sound unit, and the registers of the DMA controller and of the timers that
writing does not act on. -/
inductive Divisible (a : UInt32) : Prop where
  | cacheControl (h : a = Target.cacheControlAddress)
  | memory (h : NamesCell a)
  | latch (hlow : a < Target.controlSegment)
    (h : Occupant.ofPhysical? (physical a) = some .latch)
  | interrupt (h : Peripheral.interrupt.Owns a)
  | spu (h : Peripheral.spu.Owns a)
  | dma {r : Dma.Register} (h : Peripheral.dma.Owns a)
    (hr : Dma.Register.ofOffset? (physical a - Peripheral.dma.first) = some r) (plain : r.Plain)
  | timers {r : Timers.Register} (h : Peripheral.timers.Owns a)
    (hr : Timers.Register.ofOffset? (physical a - Peripheral.timers.first) = some r)
    (plain : r.Plain)

namespace Divisible

/-- Only the cache control register is in the last segment. -/
theorem lt_or_cacheControl (h : Divisible a) :
    a < Target.controlSegment ∨ a = Target.cacheControlAddress := by
  cases h with
  | cacheControl h => exact .inr h
  | latch hlow => exact .inl hlow
  | memory h | interrupt h | spu h | dma h | timers h => exact .inl h.1

end Divisible

theorem interrupt_answers (h : Peripheral.interrupt.Owns a) (ha : a.toNat % 4 = 0) :
    InterruptController.answers (physical a - Peripheral.interrupt.first) = true := by
  obtain ⟨hfirst, hlast⟩ := Occupant.device_bounds h.2
  have hspan := UInt32.le_iff_toNat_le.mp (Peripheral.sub_first_le hfirst hlast)
  have hplace := Peripheral.interrupt.sub_first_mod_four ha
  have hlt : (physical a - Peripheral.interrupt.first).toNat < 8 := Nat.lt_succ_of_le hspan
  rw [InterruptController.answers, Bool.or_eq_true, beq_iff_eq, beq_iff_eq, ← UInt32.toNat_inj,
    ← UInt32.toNat_inj]
  change _ = 0 ∨ _ = 4
  omega

theorem ofStore_memory (h : NamesCell a) (ha : a.toNat % 4 = 0) (hk : k ∈ w.places) :
    Target.ofStore w (a + UInt32.ofNat k) =
      .ok (.cell (Region.ofAddress a) ((Region.ofAddress a).offset (physical a) + k)) := by
  have hregion : Region.ofAddress (a + UInt32.ofNat k) = Region.ofAddress a := by
    have hword : Width.word.align a = a := Width.wordAddress_of_aligned ha
    have hpart := Region.ofAddress_align_add (w := .word) a (Width.lt_of_mem hk)
    rwa [hword] at hpart
  have hnames : NamesCell (a + UInt32.ofNat k) := by
    refine ⟨?_, hregion ▸ h.2⟩
    rw [← UInt32.not_le, le_add_place_iff rfl ha hk, UInt32.not_le]
    exact h.1
  rw [Target.ofStore, Target.ofAddress_cell hnames, hregion, Width.align_add_place ha hk,
    Region.offset_add_place _ ha hk]

theorem ofStore_latch (hlow : a < Target.controlSegment)
    (h : Occupant.ofPhysical? (physical a) = some .latch) (ha : a.toNat % 4 = 0)
    (hk : k ∈ w.places) :
    Target.ofStore w (a + UInt32.ofNat k) =
      .ok (.cell .ports (Region.ports.offset (physical a) + k)) := by
  have hsegment : ¬ Target.controlSegment ≤ a + UInt32.ofNat k := by
    rw [le_add_place_iff rfl ha hk, UInt32.not_le]
    exact hlow
  have hoccupant : Occupant.ofPhysical? (physical (a + UInt32.ofNat k)) = some .latch := by
    rw [← Occupant.ofPhysical_wordAddress, wordAddress_physical_add_place ha hk, h]
  rw [Target.ofStore, Target.ofAddress, Width.align_add_place ha hk, if_neg hsegment,
    Occupant.ofPhysical_ports hoccupant]
  simp only [Target.ofOccupant, hoccupant, Region.offset_add_place _ ha hk]

/-- Stores that are not hidden agree, whatever takes them. -/
theorem storeParts_agree (hi : b.isolated = false) (ha : a.toNat % 4 = 0) (h : Divisible a)
    (value : UInt32) : ∃ b', ∀ w, b.storeParts w a value = .ok b' := by
  cases h with
  | cacheControl h =>
    subst h
    exact ⟨_, fun w => b.storeParts_cacheControl w value⟩
  | memory h => exact storeParts_cell hi ha (fun w k hk => ofStore_memory h ha hk) value
  | latch hlow h => exact storeParts_cell hi ha (fun w k hk => ofStore_latch hlow h ha hk) value
  | interrupt h =>
    have hanswers := interrupt_answers h ha
    refine storeParts_device hi ha h ?_ (InterruptController.divides hanswers) value
    intro w k hk
    exact InterruptController.writeHole_add_place hanswers (Peripheral.sub_first_mod_four _ ha) hk
  | spu h =>
    exact storeParts_device hi ha h (fun _ _ _ => rfl)
      (Spu.divides (Peripheral.sub_first_mod_four _ ha)) value
  | dma h hr plain =>
    have hplace := Peripheral.dma.sub_first_mod_four ha
    refine storeParts_device hi ha h ?_ (Dma.divides hplace hr plain) value
    intro w k hk
    exact Dma.writeHole_add_place hr hplace hk
  | timers h hr plain =>
    have hplace := Peripheral.timers.sub_first_mod_four ha
    refine storeParts_device hi ha h ?_ (Timers.divides hplace hr plain) value
    intro w k hk
    exact Timers.writeHole_add_place hr hplace hk

/-- Wherever storing does nothing but to keep what is stored, a word leaves the same
bus as its halves and as its bytes, stored by rising address, whether the cache
is isolated or not. -/
theorem stores_agree (b : Bus) (value : UInt32) (ha : a.toNat % 4 = 0) (h : Divisible a) :
    ∃ b', b.store .word a value = .ok b' ∧ ∀ w, b.storeParts w a value = .ok b' := by
  suffices hparts : ∃ b', ∀ w, b.storeParts w a value = .ok b' by
    obtain ⟨b', hb'⟩ := hparts
    exact ⟨b', (b.storeParts_word a value).symm.trans (hb' .word), hb'⟩
  rcases h.lt_or_cacheControl with hlow | rfl
  · cases hi : b.isolated with
    | true => exact ⟨b, fun w => storeParts_isolated hi hlow ha w value⟩
    | false => exact storeParts_agree hi ha h value
  · exact ⟨_, fun w => b.storeParts_cacheControl w value⟩

/-- The word of the control register of the sound unit, which is its upper half and
shows in the status register. -/
theorem stores_agree_control :
    (0xBF801DA8 : UInt32).toNat % 4 = 0 ∧ Divisible 0xBF801DA8 ∧
      ∃ b', ({} : Bus).store .word 0xBF801DA8 0xC0251234 = .ok b' ∧
        (∀ w, ({} : Bus).storeParts w 0xBF801DA8 0xC0251234 = .ok b') ∧
        b'.spu.readHalf Spu.statusOffset = 0x0025 := by
  have ha : (0xBF801DA8 : UInt32).toNat % 4 = 0 := by decide
  have h : Divisible 0xBF801DA8 := .spu (by decide)
  obtain ⟨b', hs, hparts⟩ := stores_agree {} 0xC0251234 ha h
  have ht : Target.ofStore .word 0xBF801DA8 = .ok (.device .spu 0x1A8) := by decide
  have hstore : ({} : Bus).store .word 0xBF801DA8 0xC0251234 =
      .ok { spu := ({} : Spu).writeWord 0x1A8 0xC0251234 } := by
    rw [store_eq_map, ht]
    rfl
  have hspu : b'.spu = ({} : Spu).writeWord 0x1A8 0xC0251234 := by
    rw [← Except.ok.inj (hstore.symm.trans hs)]
  have hblank : ({} : Spu).registers[Spu.index Spu.statusOffset]? = some 0 := by
    simp [show Spu.index Spu.statusOffset = 215 from rfl]
  refine ⟨ha, h, b', hs, hparts, ?_⟩
  rw [hspu, Spu.writeWord, Spu.readHalf, Array.getD_eq_getD_getElem?, Spu.getElem?_writeHalf,
    Spu.getElem?_writeHalf, hblank]
  decide

end Bus

end R3000
