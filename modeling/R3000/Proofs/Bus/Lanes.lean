import R3000.Proofs.Bus.History

/-!
# Loads of all widths

A word that can be loaded tells what its bytes and halfwords are: these can be loaded
too, and they are the lanes of the word, the lowest first. A load leaves the bus as
it was, with one exception. The mode of a timer loses its two flags when it is
read, and no other register does.
-/

namespace R3000

/-- The address is in the word that has the mode of timer `n`. -/
def InTimerMode (n : Fin 3) (a : UInt32) : Prop :=
  a < Target.controlSegment ∧ wordAddress (physical a) = 0x1F801104 + 0x10 * UInt32.ofNat n

instance (n : Fin 3) (a : UInt32) : Decidable (InTimerMode n a) :=
  inferInstanceAs (Decidable (_ ∧ _))

namespace Bus

variable {b b' : Bus} {w : Width} {a x : UInt32} {p : Peripheral} {offset : UInt32}

/-- The offset of an access that goes to a device. -/
theorem offset_of_load (h : Target.ofLoad w a = .ok (.device p offset)) :
    a < Target.controlSegment ∧ offset = p.offset w a := by
  obtain ⟨hlow, hplace, -⟩ := Target.ofAddress_device h
  refine ⟨?_, ?_⟩
  · rw [← UInt32.not_le, ← w.le_align_iff rfl]
    exact hlow
  · rw [Peripheral.offset, ← physical_align, hplace, UInt32.add_comm, UInt32.add_sub_cancel]

theorem inTimerMode_of_register {n : Fin 3}
    (h : Target.ofLoad w a = .ok (.device .timers offset))
    (hr : Timers.Register.ofOffset? (wordAddress offset) = some (.mode n)) : InTimerMode n a := by
  obtain ⟨hlow, rfl⟩ := offset_of_load h
  refine ⟨hlow, ?_⟩
  have hmode := Timers.Register.toNat_of_mode hr
  rw [Peripheral.wordAddress_offset, UInt32.toNat_sub] at hmode
  have hword := (wordAddress (physical a)).toNat_lt
  have hfirst : Peripheral.timers.first.toNat = 0x1F801100 := rfl
  have hn := n.isLt
  apply UInt32.toNat_inj.mp
  rw [UInt32.toNat_add, UInt32.toNat_mul, UInt32.toNat_ofNat']
  change _ = (0x1F801104 + 0x10 * (n.val % 2 ^ 32) % 2 ^ 32) % 2 ^ 32
  omega

/-- A load leaves the bus as it was, or it clears the flags of the mode around its address. -/
theorem load_leaves (h : b.load w a = .ok (x, b')) :
    b' = b ∨ ∃ n, InTimerMode n a ∧
      b' = { b with timers := b.timers.modifyChannel n (·.readMode.2) } := by
  obtain ⟨t, ht, hr⟩ := load_ok h
  have hb : b' = (b.read t w).2 := (congrArg Prod.snd hr).symm
  rw [hb]
  rcases b.read_snd t w with hkept | ⟨offset, rfl, hread⟩
  · exact .inl hkept
  · have haligned : w.align offset = offset := by
      rw [(offset_of_load ht).2, Peripheral.align_offset]
    rw [hread]
    rcases b.timers.read_leaves haligned with hkept | ⟨n, hmode, hcleared⟩
    · exact .inl (congrArg (fun timers => { b with timers }) hkept)
    · exact .inr ⟨n, inTimerMode_of_register ht hmode,
        congrArg (fun timers => { b with timers }) hcleared⟩

/-- All loads in a word that can be loaded give its lanes. Of all loads, those of the
mode of a timer alone leave a change, which is that its bits 11 and 12 are clear. -/
theorem loads_coherent (b : Bus) :
    (∀ a x b', b.load .word a = .ok (x, b') → ∀ w a', wordAddress a' = wordAddress a →
        ∃ v, b.load w a' = .ok (v, b.happen (.load w a')) ∧
          v.toNat = x.toNat / 256 ^ ((w.align a').toNat % 4) % 256 ^ w.bytes) ∧
      ∀ w a, b.happen (.load w a) = b ∨
        ∃ n, InTimerMode n a ∧ b.happen (.load w a) = { b with
          timers := b.timers.modifyChannel n fun c => { c with mode := c.mode &&& ~~~0x1800 } } := by
  refine ⟨fun a x b' h w a' ha => ?_, fun w a => ?_⟩
  · rw [← load_word_congr ha] at h
    obtain ⟨b'', hl, -⟩ := load_lane h w
    have hleaves : b.happen (.load w a') = b'' := Access.leaves_load hl
    exact ⟨_, by rw [hl, hleaves], w.toNat_lane a' x⟩
  · cases hl : b.load w a with
    | error e => exact .inl (Access.leaves_load_error hl)
    | ok y =>
      have hleaves : b.happen (.load w a) = y.2 := Access.leaves_load hl
      rw [hleaves]
      exact load_leaves hl

/-- The upper byte of a mode with both flags set. -/
theorem loads_coherent_flagged :
    let b : Bus := { timers := .flagged }
    ∃ b', b.load .word 0xBF801104 = .ok (0x1C01, b') ∧
      b.load .byte 0xBF801105 = .ok (0x1C, b.happen (.load .byte 0xBF801105)) := by
  intro b
  have ht : Target.ofLoad .word 0xBF801104 = .ok (.device .timers 4) := by decide
  have hl : b.load .word 0xBF801104 =
      .ok (0x1C01, { b with timers := b.timers.modifyChannel 0 (·.readMode.2) }) := by
    rw [load_eq_map, ht]
    rfl
  obtain ⟨v, hbyte, hv⟩ := b.loads_coherent.1 _ _ _ hl .byte 0xBF801105 (by decide)
  obtain rfl : 0x1C = v := by
    rw [← UInt32.toNat_inj, hv]
    rfl
  exact ⟨_, hl, hbyte⟩

end Bus

end R3000
