import Mathlib.Data.List.Basic
import Mathlib.Data.List.Induction
import R3000.Device.Gpu
import R3000.Proofs.Bits

/-!
# Control words

A control word that does not reset the GPU replaces what belongs to its kind: some bits
of the status register, the queue, the value of the next data read or a parameter of the
display. What belongs to one kind belongs to no other. So words of different kinds may
change places, and of the words of one kind only the last one counts.
-/

namespace R3000

attribute [ext] Gpu

namespace Gpu

/-! ## Bits of the status register -/

namespace Control

/-- The bits of the status register that belong to a kind. -/
def mask : Control → UInt32
  | acknowledge => 0x01000000
  | displayEnable => 0x00800000
  | dmaDirection => 0x60000000
  | displayMode => 0x007F4000
  | _ => 0

/-- What a word with parameter `p` puts into the bits of its kind. -/
def bits (p : UInt32) : Control → UInt32
  | displayEnable => if p &&& 1 != 0 then 0x00800000 else 0
  | dmaDirection => (p &&& 3) <<< (29 : UInt32)
  | displayMode => displayModeBits p
  | _ => 0

/-- The kind that bit `i` of the status register belongs to. -/
def ofBit? (i : Nat) : Option Control :=
  if i = 14 ∨ 16 ≤ i ∧ i ≤ 22 then some displayMode
  else if i = 23 then some displayEnable
  else if i = 24 then some acknowledge
  else if i = 29 ∨ i = 30 then some dmaDirection
  else none

theorem testBit_mask (k : Control) (i : Nat) :
    k.mask.toNat.testBit i = true ↔ ofBit? i = some k := by
  by_cases hi : i < 32
  · revert i
    cases k <;> decide
  · rw [testBit_eq_false_of_le _ (Nat.le_of_not_lt hi), ofBit?, if_neg (by omega),
      if_neg (by omega), if_neg (by omega), if_neg (by omega)]
    exact iff_of_false Bool.false_ne_true nofun

end Control

theorem within_moveBit {mask target : UInt32} (h : mask &&& (1 <<< target) = 1 <<< target)
    (p source : UInt32) : Within mask (moveBit p source target) := by
  rw [moveBit, UInt32.shiftLeft_and]
  exact Within.and_right _ (.of_and_eq (by rwa [UInt32.and_comm] at h))

theorem within_bits (p : UInt32) (k : Control) : Within k.mask (k.bits p) := by
  have hnone {mask : UInt32} : Within mask 0 := .of_and_eq UInt32.zero_and
  cases k with
  | displayEnable =>
    simp only [Control.bits]
    split
    · exact .of_and_eq (by decide)
    · exact hnone
  | dmaDirection =>
    simp only [Control.bits]
    rw [UInt32.shiftLeft_and]
    exact Within.and_right _ (.of_and_eq (by decide))
  | displayMode =>
    simp only [Control.bits, displayModeBits]
    refine .or (.or (.or (.or (.or (.or (.or ?_ ?_) ?_) ?_) ?_) ?_) ?_) ?_ <;>
      exact within_moveBit (by decide) p _
  | _ => exact hnone

variable {g : Gpu} {word : UInt32}

/-- A control word puts its bits in place of those that belong to its kind. -/
theorem status_control (g : Gpu) (h : Control.ofWord word ≠ .reset) :
    (g.control word).status =
      (g.status &&& ~~~(Control.ofWord word).mask) |||
        (Control.ofWord word).bits (parameter word) := by
  have hset (a m : UInt32) : (a &&& ~~~m) ||| m = a ||| m := by
    apply UInt32.toNat_inj.mp
    apply Nat.eq_of_testBit_eq
    intro i
    rw [UInt32.toNat_or, Nat.testBit_or, testBit_cleared, UInt32.toNat_or, Nat.testBit_or]
    cases m.toNat.testBit i <;> simp
  have hkept : ~~~(0 : UInt32) = -1 := rfl
  rw [control]
  cases hk : Control.ofWord word with
  | reset => exact absurd hk h
  | displayEnable =>
    simp only [Control.mask, Control.bits]
    split
    · exact (hset _ _).symm
    · exact UInt32.or_zero.symm
  | acknowledge => exact UInt32.or_zero.symm
  | dmaDirection | displayMode => rfl
  | _ => simp only [Control.mask, Control.bits, hkept, UInt32.and_neg_one, UInt32.or_zero]

/-! ## Parts -/

/-- A part of the GPU that belongs to one kind of control words, or to none: a word of that
kind puts `value` there, and no other word changes it, unless it resets the GPU. -/
def BelongsTo {α : Type} (kind? : Option Control) (part : Gpu → α) (value : UInt32 → α) : Prop :=
  ∀ g word, Control.ofWord word ≠ .reset →
    part (g.control word) = if kind? = some (Control.ofWord word) then value word else part g

theorem status_belongs (i : Nat) :
    BelongsTo (Control.ofBit? i) (·.status.toNat.testBit i)
      fun word => ((Control.ofWord word).bits (parameter word)).toNat.testBit i := by
  intro g word h
  have hmask := (Control.ofWord word).testBit_mask i
  simp only [status_control g h]
  rw [UInt32.toNat_or, Nat.testBit_or, testBit_cleared]
  split
  · rename_i howner
    rw [hmask.mpr howner, Bool.not_true, Bool.and_false, Bool.false_or]
  · rename_i hother
    have hclear : (Control.ofWord word).mask.toNat.testBit i = false :=
      Bool.eq_false_iff.mpr (mt hmask.mp hother)
    rw [(within_bits _ _).testBit_eq_false hclear, hclear, Bool.not_false, Bool.and_true,
      Bool.or_false]

/-- Outside of the status register each field belongs to a kind. -/
theorem fields_belong :
    BelongsTo (some .clearQueue) (·.queue) (fun _ => #[]) ∧
      BelongsTo (some .info) (·.latch) (infoValue <| parameter ·) ∧
      BelongsTo (some .displayStart) (·.displayStart) parameter ∧
      BelongsTo (some .horizontalRange) (·.horizontalRange) parameter ∧
      BelongsTo (some .verticalRange) (·.verticalRange) parameter := by
  refine ⟨?_, ?_, ?_, ?_, ?_⟩
  all_goals
    intro g word h
    rw [control]
    cases hk : Control.ofWord word with
    | reset => exact absurd hk h
    | _ => rfl

theorem eq_of_testBit_status {g' : Gpu}
    (h : ∀ i, g.status.toNat.testBit i = g'.status.toNat.testBit i) : g.status = g'.status :=
  UInt32.toNat_inj.mp (Nat.eq_of_testBit_eq h)

namespace BelongsTo

variable {α : Type} {kind? : Option Control} {part : Gpu → α} {value : UInt32 → α}

/-- Words of different kinds leave the same in a part, whichever comes first. -/
theorem comm (h : BelongsTo kind? part value) {v w : UInt32}
    (hkinds : Control.ofWord v ≠ Control.ofWord w) (hv : Control.ofWord v ≠ .reset)
    (hw : Control.ofWord w ≠ .reset) (g : Gpu) :
    part ((g.control v).control w) = part ((g.control w).control v) := by
  rw [h _ w hw, h _ v hv, h _ v hv, h _ w hw]
  -- The part belongs to one of the two kinds at most.
  by_cases howner : kind? = some (Control.ofWord v)
  · have hother : kind? ≠ some (Control.ofWord w) := fun hsame =>
      hkinds (Option.some.inj (howner.symm.trans hsame))
    rw [if_neg hother, if_pos howner, if_pos howner]
  · rw [if_neg howner, if_neg howner]

end BelongsTo

/-- Control words of different kinds may change places. -/
theorem control_comm {v w : UInt32} (hkinds : Control.ofWord v ≠ Control.ofWord w)
    (hv : Control.ofWord v ≠ .reset) (hw : Control.ofWord w ≠ .reset) (g : Gpu) :
    (g.control v).control w = (g.control w).control v := by
  obtain ⟨hqueue, hlatch, hstart, hhorizontal, hvertical⟩ := fields_belong
  exact Gpu.ext (eq_of_testBit_status fun i => (status_belongs i).comm hkinds hv hw g)
    (hqueue.comm hkinds hv hw g) (hlatch.comm hkinds hv hw g) (hstart.comm hkinds hv hw g)
    (hhorizontal.comm hkinds hv hw g) (hvertical.comm hkinds hv hw g)

/-! ## Sequences of words -/

/-- The last of the words of a kind, if there is one. -/
def lastOf? (kind : Control) (words : List UInt32) : Option UInt32 :=
  (words.filter (Control.ofWord · = kind)).getLast?

theorem lastOf?_concat (kind : Control) (words : List UInt32) (word : UInt32) :
    lastOf? kind (words ++ [word]) =
      if Control.ofWord word = kind then some word else lastOf? kind words := by
  rw [lastOf?, List.filter_append]
  split
  · rename_i hkind
    rw [List.filter_cons_of_pos (by simpa using hkind), List.filter_nil, List.getLast?_concat]
  · rename_i hkind
    rw [List.filter_cons_of_neg (by simpa using hkind), List.filter_nil, List.append_nil, lastOf?]

/-- What belongs to a kind is as its last word left it, or as it was. -/
theorem BelongsTo.foldl {α : Type} {kind? : Option Control} {part : Gpu → α}
    {value : UInt32 → α} (h : BelongsTo kind? part value) (g : Gpu) {words : List UInt32}
    (hwords : ∀ w ∈ words, Control.ofWord w ≠ .reset) :
    part (words.foldl control g) =
      ((kind?.bind (lastOf? · words)).map value).getD (part g) := by
  -- From the end, where the word stands that counts.
  induction words using List.reverseRecOn with
  | nil => cases kind? <;> rfl
  | append_singleton words word ih =>
    have hword : Control.ofWord word ≠ .reset := hwords word (List.mem_concat_self)
    have hbefore := ih fun w hw => hwords w (List.mem_append_left _ hw)
    rw [List.foldl_concat, h _ word hword, hbefore]
    cases kind? with
    | none => rfl
    | some kind =>
      simp only [Option.some.injEq, Option.bind_some, lastOf?_concat, eq_comm]
      split <;> rfl

/-- Words of different kinds, of which neither resets the GPU, may change places. After a
reset and any words that do not reset the GPU again, the status register and the value of
the next data read follow from the last word of each kind, whatever was before the reset,
and a parameter of the display is that of its last word, or as it was. -/
theorem kinds_independent :
    (∀ (g : Gpu) (v w : UInt32), Control.ofWord v ≠ Control.ofWord w →
        Control.ofWord v ≠ .reset → Control.ofWord w ≠ .reset →
        (g.control v).control w = (g.control w).control v) ∧
      ∀ (g g' : Gpu) (r r' : UInt32) (words words' : List UInt32),
        Control.ofWord r = .reset → Control.ofWord r' = .reset →
        (∀ w ∈ words, Control.ofWord w ≠ .reset) → (∀ w ∈ words', Control.ofWord w ≠ .reset) →
        (∀ kind, lastOf? kind words = lastOf? kind words') →
        let after := (r :: words).foldl control g
        let after' := (r' :: words').foldl control g'
        after.status = after'.status ∧ after.latch = after'.latch ∧
          after.displayStart =
            ((lastOf? .displayStart words).map parameter).getD g.displayStart ∧
          after.horizontalRange =
            ((lastOf? .horizontalRange words).map parameter).getD g.horizontalRange ∧
          after.verticalRange =
            ((lastOf? .verticalRange words).map parameter).getD g.verticalRange := by
  refine ⟨fun g v w hkinds hv hw => control_comm hkinds hv hw g, ?_⟩
  intro g g' r r' words words' hr hr' hwords hwords' hlast after after'
  have hreset {g : Gpu} {r : UInt32} (hr : Control.ofWord r = .reset) :
      g.control r = { g with status := 0x14802000, queue := #[], latch := 0 } := by
    rw [control, hr]
  -- What a part held before the words is the same on both sides where the reset has set it.
  have hsame {α : Type} {kind? : Option Control} {part : Gpu → α} {value : UInt32 → α}
      (h : BelongsTo kind? part value) (hpart : part (g.control r) = part (g'.control r')) :
      part after = part after' := by
    change part (words.foldl control (g.control r)) = part (words'.foldl control (g'.control r'))
    rw [h.foldl _ hwords, h.foldl _ hwords', hpart]
    cases kind? with
    | none => rfl
    | some kind => rw [Option.bind_some, Option.bind_some, hlast]
  have hkept {kind : Control} {part : Gpu → UInt32} (h : BelongsTo (some kind) part parameter)
      (hpart : part (g.control r) = part g) :
      part after = ((lastOf? kind words).map parameter).getD (part g) := by
    change part (words.foldl control (g.control r)) = _
    rw [h.foldl _ hwords, hpart, Option.bind_some]
  obtain ⟨-, hlatch, hstart, hhorizontal, hvertical⟩ := fields_belong
  refine ⟨eq_of_testBit_status fun i => ?_, ?_, ?_, ?_, ?_⟩
  · exact hsame (status_belongs i) (by rw [hreset hr, hreset hr'])
  · exact hsame hlatch (by rw [hreset hr, hreset hr'])
  · exact hkept hstart (by rw [hreset hr])
  · exact hkept hhorizontal (by rw [hreset hr])
  · exact hkept hvertical (by rw [hreset hr])

/-- A display mode and a direction of DMA, in either order and with words before that they
replace, leave the same status register, on a GPU that showed something else before. -/
theorem kinds_independent_mode_and_direction :
    let g : Gpu := { displayStart := 7 }
    let g' : Gpu := { status := 0xFFFFFFFF, latch := 9 }
    (g.control 0x0800007F).control 0x04000002 = (g.control 0x04000002).control 0x0800007F ∧
      ([0, 0x08000080, 0x04000002, 0x0800007F].foldl control g).status =
        ([0x00123456, 0x04000003, 0x0800007F, 0x04000002].foldl control g').status ∧
      ([0, 0x08000080, 0x04000002, 0x0800007F].foldl control g).displayStart = 7 := by
  obtain ⟨hcomm, hsettled⟩ := kinds_independent
  have hlast (kind : Control) : lastOf? kind [0x08000080, 0x04000002, 0x0800007F] =
      lastOf? kind [0x04000003, 0x0800007F, 0x04000002] := by
    cases kind <;> decide
  have hwords : ∀ w ∈ [0x08000080, 0x04000002, 0x0800007F], Control.ofWord w ≠ .reset := by
    simp only [List.forall_mem_cons]
    exact ⟨by decide, by decide, by decide, nofun⟩
  have hwords' : ∀ w ∈ [0x04000003, 0x0800007F, 0x04000002], Control.ofWord w ≠ .reset := by
    simp only [List.forall_mem_cons]
    exact ⟨by decide, by decide, by decide, nofun⟩
  intro g g'
  obtain ⟨hstatus, -, hstart, -, -⟩ :=
    hsettled g g' 0 0x00123456 _ _ (by decide) (by decide) hwords hwords' hlast
  exact ⟨hcomm g _ _ (by decide) (by decide) (by decide), hstatus, hstart⟩

end Gpu

end R3000
