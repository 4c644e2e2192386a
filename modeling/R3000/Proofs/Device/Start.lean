import R3000.Proofs.Device.Dma
import R3000.Proofs.Latch

/-!
# Channels that were started

A write to the control register of a channel starts the channel if it leaves it
ready and the controller lets it run at that moment. The controller keeps the
channels that were started until the transfer engine takes them. So the engine
is told of every start since it last asked, and of each channel once.
-/

namespace R3000

/-! ## Channels that are ready -/

/-- The start bit is set, and the mode is not zero or the manual start is set too. -/
def DmaChannel.Ready (c : DmaChannel) : Prop :=
  c.control.toNat.testBit 24 = true ∧
    (c.control.toNat.testBit 9 = true ∨ c.control.toNat.testBit 10 = true ∨
      c.control.toNat.testBit 28 = true)

theorem DmaChannel.syncMode_ne_zero_iff (c : DmaChannel) :
    (c.syncMode != 0) = true ↔
      c.control.toNat.testBit 9 = true ∨ c.control.toNat.testBit 10 = true := by
  have hmask : (3 : UInt32).toNat = 2 ^ 2 - 1 := rfl
  have hbit (i : Nat) :
      c.syncMode.toNat.testBit i = (c.control.toNat.testBit (9 + i) && decide (i < 2)) := by
    rw [syncMode, UInt32.toNat_and, Nat.testBit_and, hmask, Nat.testBit_two_pow_sub_one,
      UInt32.toNat_shiftRight, Nat.testBit_shiftRight]
    rfl
  simp only [ne_zero_iff_exists_testBit, hbit, Bool.and_eq_true, decide_eq_true_iff]
  constructor
  · rintro ⟨i, hi, hlt⟩
    obtain rfl | rfl : i = 0 ∨ i = 1 := by omega
    · exact .inl hi
    · exact .inr hi
  · rintro (h | h)
    · exact ⟨0, h, by decide⟩
    · exact ⟨1, h, by decide⟩

theorem DmaChannel.isReady_iff (c : DmaChannel) : c.isReady = true ↔ c.Ready := by
  rw [isReady, Bool.and_eq_true, Bool.or_eq_true, syncMode_ne_zero_iff, isActive, isTriggered,
    and_ne_zero_eq_testBit (k := 24) rfl, and_ne_zero_eq_testBit (k := 28) rfl, Ready, or_assoc]

namespace Dma

/-- The controller lets a channel run by the highest of its four bits. -/
theorem isEnabled_eq (d : Dma) (ch : Fin 7) :
    d.isEnabled ch = d.control.toNat.testBit (4 * ch + 3) := by
  have hshift : (UInt32.ofNat (ch * 4 + 3)).toNat % 32 = 4 * ch + 3 := by
    rw [UInt32.toNat_ofNat']
    omega
  rw [isEnabled, and_ne_zero_eq_testBit (k := 0) rfl, UInt32.toNat_shiftRight, hshift,
    Nat.testBit_shiftRight, Nat.add_zero]

/-! ## Starts -/

/-- The register that an event puts a value into. -/
def Event.register? : Event → Option Register
  | write _ offset _ => Register.ofOffset? offset
  | _ => none

/-- The event starts channel `ch`: it writes the control register of the channel
and leaves the channel ready, while the controller lets it run. -/
structure Starts (ch : Fin 7) (d : Dma) (event : Event) : Prop where
  write : event.register? = some (.channelControl ch)
  ready : ((d.happen event).channels.get ch).Ready
  enabled : d.control.toNat.testBit (4 * ch + 3) = true

/-- Channel `ch` waits to be taken. -/
def Triggered (d : Dma) (ch : Fin 7) : Prop :=
  d.triggered.toNat.testBit ch = true

/-- Since the channels were last taken, an event of the history started channel `ch`. -/
def StartedSince (history : List Event) (ch : Fin 7) : Prop :=
  SetSince happen (Starts ch) (· ≠ .takeTriggered) {} history

theorem toNat_channelBit (ch : Fin 7) : (channelBit ch).toNat = 2 ^ ch.val := by
  revert ch
  decide

/-- The channels that wait are taken. -/
theorem mem_takeTriggered (d : Dma) (ch : Fin 7) : ch ∈ d.takeTriggered.1 ↔ d.Triggered ch := by
  have hand : (d.triggered &&& channelBit ch).toNat =
      (d.triggered.toNat.testBit ch).toNat * 2 ^ ch.val := by
    rw [UInt8.toNat_and, toNat_channelBit, Nat.and_two_pow]
  rw [takeTriggered, List.mem_filter, and_iff_right (List.mem_finRange ch), bne_iff_ne, ne_eq,
    ← UInt8.toNat_inj, hand, Triggered]
  cases d.triggered.toNat.testBit ch <;> simp

/-- They are taken in rising order. -/
theorem pairwise_takeTriggered (d : Dma) : d.takeTriggered.1.Pairwise (· < ·) := by
  have hall : (List.finRange 7).Pairwise (· < ·) := by decide
  exact List.Pairwise.filter _ hall

/-! ## What an event does to the channels that wait -/

theorem channel_writeChannelControl (d : Dma) (k ch : Fin 7) (value : UInt32) :
    (d.writeChannelControl k value).channels.get ch =
      if k = ch then { d.channels.get ch with control := channelControl k value }
      else d.channels.get ch := by
  rw [← d.channel_modify k ch ({ · with control := channelControl k value }), writeChannelControl]
  split <;> rfl

theorem starts_iff (d : Dma) (ch : Fin 7) (value : UInt32) :
    d.starts ch value = true ↔ ((d.writeChannelControl ch value).channels.get ch).Ready ∧
      d.control.toNat.testBit (4 * ch + 3) = true := by
  rw [starts, Bool.and_eq_true, DmaChannel.isReady_iff, isEnabled_eq, channel_writeChannelControl,
    if_pos rfl]
  rfl

/-- A write to the control register of channel `k` adds this channel if it starts it. -/
theorem triggered_writeChannelControl (d : Dma) (k ch : Fin 7) (value : UInt32) :
    (d.writeChannelControl k value).Triggered ch ↔
      (k = ch ∧ d.starts k value = true) ∨ d.Triggered ch := by
  simp only [writeChannelControl]
  cases hstarts : d.starts k value with
  | false => simp [Triggered, modifyChannel]
  | true =>
    rw [if_pos rfl, Triggered, UInt8.toNat_or, Nat.testBit_or, toNat_channelBit,
      Nat.testBit_two_pow, Bool.or_eq_true, decide_eq_true_iff, Fin.val_inj, or_comm,
      and_iff_left rfl, Triggered]

/-- Of the writes to the control register of a channel, those start it that let it run. -/
theorem starts_write_iff {k : Fin 7} {w : Width} {offset value : UInt32}
    (hr : Register.ofOffset? offset = some (.channelControl k)) (d : Dma) (ch : Fin 7) :
    Starts ch d (.write w offset value) ↔
      k = ch ∧ d.starts k (w.merge offset (d.readRegister (.channelControl k)) value) = true := by
  have hd := d.happen_write_eq w offset value
  rw [hr] at hd
  rw [starts_iff]
  constructor
  · rintro ⟨hregister, hready, henabled⟩
    obtain rfl : k = ch := by simpa [Event.register?, hr] using hregister
    rw [hd] at hready
    exact ⟨rfl, hready, henabled⟩
  · rintro ⟨rfl, hready, henabled⟩
    exact ⟨hr, hd ▸ hready, henabled⟩

/-- A channel waits after an event that starts it, or if it waited before and was
not taken. -/
theorem triggered_happen (d : Dma) (event : Event) (ch : Fin 7) :
    (d.happen event).Triggered ch ↔
      Starts ch d event ∨ (event ≠ .takeTriggered ∧ d.Triggered ch) := by
  -- An event that writes no control register of a channel starts none.
  have hother (hr : event.register? ≠ some (.channelControl ch))
      (hkept : (d.happen event).Triggered ch ↔ event ≠ .takeTriggered ∧ d.Triggered ch) :
      (d.happen event).Triggered ch ↔
        Starts ch d event ∨ (event ≠ .takeTriggered ∧ d.Triggered ch) := by
    rw [hkept, or_iff_right fun hstarts => hr hstarts.write]
  cases event with
  | complete k =>
    have hkept : (d.happen (.complete k)).triggered = d.triggered := rfl
    exact hother nofun (by simp [Triggered, hkept])
  | takeTriggered =>
    have hnone : (d.happen .takeTriggered).triggered = 0 := rfl
    exact hother nofun (by simp [Triggered, hnone])
  | write w offset value =>
    have hd := d.happen_write_eq w offset value
    cases hr : Register.ofOffset? offset with
    | none =>
      rw [hr] at hd
      exact hother (by simp [Event.register?, hr]) (by simp [hd])
    | some r =>
      rw [hr] at hd
      have hwrite : Event.write w offset value ≠ .takeTriggered := nofun
      cases r with
      | channelControl k =>
        rw [starts_write_iff hr, hd, and_iff_right hwrite]
        exact d.triggered_writeChannelControl k ch _
      | base | blockControl | control | interrupt | spare =>
        have hkept : (d.happen (.write w offset value)).triggered = d.triggered := by
          rw [hd]
          rfl
        exact hother (by simp [Event.register?, hr]) (by simp [Triggered, hkept])

/-- The channels that are taken are those that were started since they were last taken. -/
theorem triggered_after (history : List Event) (ch : Fin 7) :
    (after history).Triggered ch ↔ StartedSince history ch := by
  have hinitial : ¬ Triggered {} ch := by
    simp [Triggered]
  have hlatched := latched_foldl (I := fun _ => True) (P := fun d : Dma => d.Triggered ch)
    (fun _ _ h => h) (fun d event _ => d.triggered_happen event ch) (s := {}) trivial history
  rwa [or_iff_right fun h => hinitial h.1] at hlatched

/-! ## The ordering table -/

/-- The bits that the control register of the ordering table's channel has. -/
def orderingTableBits : UInt32 := 0x51000002

theorem within_happen {d : Dma} (h : Within orderingTableBits (d.channels.get orderingTable).control)
    (event : Event) :
    Within orderingTableBits ((d.happen event).channels.get orderingTable).control := by
  have hmodify (k : Fin 7) (f : DmaChannel → DmaChannel)
      (hf : Within orderingTableBits (f (d.channels.get orderingTable)).control) :
      Within orderingTableBits ((d.modifyChannel k f).channels.get orderingTable).control := by
    rw [channel_modify]
    split
    · exact hf
    · exact h
  cases event with
  | takeTriggered => exact h
  | complete k => exact hmodify k .stop (h.and_left _)
  | write w offset value =>
    rcases d.happen_write w offset value with hd | ⟨r, content, hd⟩
    · rw [hd]
      exact h
    · rw [hd]
      cases r with
      | base k => exact hmodify k ({ · with base := content &&& 0x00FFFFFF }) h
      | blockControl k => exact hmodify k ({ · with blockControl := content }) h
      | control | interrupt | spare => exact h
      | channelControl k =>
        change Within _ ((d.writeChannelControl k content).channels.get orderingTable).control
        rw [channel_writeChannelControl]
        split
        · rename_i hk
          subst hk
          exact (Within.and_right content (.of_and_eq (by decide))).or (.of_and_eq (by decide))
        · exact h

theorem within_after (history : List Event) :
    Within orderingTableBits ((after history).channels.get orderingTable).control :=
  after_preserves (P := fun d => Within orderingTableBits (d.channels.get orderingTable).control)
    (.of_and_eq (by decide)) (fun _ event h => within_happen h event) history

/-- After every history the engine is told of exactly the channels that were
started since it last asked, in rising order and each once, and nothing waits
afterwards. The control register of the ordering table's channel has none but
its own bits. -/
theorem takeTriggered_after (history : List Event) :
    (after history).takeTriggered.1.Pairwise (· < ·) ∧
      (∀ ch, ch ∈ (after history).takeTriggered.1 ↔ StartedSince history ch) ∧
      (after (history ++ [.takeTriggered])).takeTriggered.1 = [] ∧
      Within orderingTableBits ((after history).channels.get orderingTable).control := by
  refine ⟨pairwise_takeTriggered _, ?_, ?_, within_after history⟩
  · intro ch
    rw [mem_takeTriggered, triggered_after]
  · have hnone (ch : Fin 7) : ¬ (after (history ++ [.takeTriggered])).Triggered ch := by
      rw [after, List.foldl_append]
      simp [Triggered, happen, takeTriggered]
    rw [List.eq_nil_iff_forall_not_mem]
    intro ch
    rw [mem_takeTriggered]
    exact hnone ch

/-- Channel 2 is let run, given a mode, and started by the highest byte of its
control register; channel 4 is not let run. -/
example :
    (after [.write .word 0x70 0x07654B21, .write .half 0x28 0x0201, .write .byte 0x2B 0x01,
      .write .word 0x48 0x01000201]).takeTriggered.1 = [2] := by
  decide

end Dma

end R3000
