import R3000.Proofs.Bus.Refusal
import R3000.Proofs.Cpu.Access
import R3000.Proofs.Device.Gpu
import R3000.Proofs.Machine.Consistency

/-!
# Words sent to the GPU

The GPU is told what to do by the machine around it, or through its two ports
by stores on the bus. A store acts on the GPU only if it is a word, goes to a
port in a segment that has one, and the cache is not isolated. Then it is a
command, so what waits in the queue follows from the commands of a history.
-/

namespace R3000

namespace Target

variable {a offset : UInt32}

/-- The GPU answers words at its two ports. -/
theorem writeHole_gpu_word :
    Device.writeHole? Peripheral.gpu.State .word offset = none ↔ offset = 0 ∨ offset = 4 := by
  change (if Gpu.answers offset then none else some offset) = none ↔ _
  simp [Gpu.answers, or_iff_not_imp_left]

theorem ofStore_gpu_word :
    ofStore .word a = .ok (.device .gpu offset) ↔
      ¬ controlSegment ≤ wordAddress a ∧ physical (wordAddress a) = 0x1F801810 + offset ∧
        (offset = 0 ∨ offset = 4) := by
  constructor
  · intro h
    obtain ⟨hlow, hphysical, hhole⟩ := ofAddress_device h
    exact ⟨hlow, hphysical, writeHole_gpu_word.mp hhole⟩
  · rintro ⟨hlow, hphysical, hport⟩
    have hword : Width.word.align a = wordAddress a := rfl
    rw [ofStore, ofAddress, hword, if_neg hlow, hphysical]
    rcases hport with rfl | rfl <;> rfl

end Target

/-- What reaches the GPU: a command from the machine around it, or a store. -/
inductive Traffic where
  | command (c : Gpu.Command)
  | store (w : Width) (address value : UInt32)
deriving DecidableEq, Repr

/-- The command that traffic is to the GPU, if the cache is isolated and if not. -/
def Traffic.command? (isolated : Bool) : Traffic → Option Gpu.Command
  | command c => some c
  | store .word address value =>
    if isolated = true ∨ Target.controlSegment ≤ wordAddress address then none
    else if physical (wordAddress address) = 0x1F801810 then some (.submit value)
    else if physical (wordAddress address) = 0x1F801814 then some (.control value)
    else none
  | store .. => none

namespace Bus

/-- The bus after traffic. A store that is refused leaves what it has done until then. -/
def carry (b : Bus) : Traffic → Bus
  | .command c => { b with gpu := b.gpu.obey c }
  | .store w address value => (Access.store w address value).leaves b

variable {b : Bus} {w : Width} {a value offset : UInt32}

theorem isolated_carry (b : Bus) (t : Traffic) : (b.carry t).isolated = b.isolated := by
  cases t with
  | command c => rfl
  | store w a value =>
    rw [carry]
    cases hs : b.store w a value with
    | error e => rw [Access.leaves_store_error hs]
    | ok b' =>
      rw [Access.leaves_store hs]
      exact (stable_isolated b.isolated).store hs rfl

theorem gpu_write_other {t : Target} (h : ∀ offset, t ≠ .device .gpu offset) :
    (b.write t w value).gpu = b.gpu := by
  cases t with
  | cacheControl | absent => rfl
  | cell r offset => cases r <;> rfl
  | device p offset =>
    cases p with
    | gpu => exact absurd rfl (h offset)
    | _ => rfl

/-- A store that finds the GPU writes to it. -/
theorem gpu_store (hseen : b.hides w a = false)
    (ht : Target.ofStore w a = .ok (.device .gpu offset)) :
    (b.carry (.store w a value)).gpu = Device.write b.gpu w offset (w.truncate value) := by
  have hs : b.store w a value = .ok (b.write (.device .gpu offset) w value) := by
    rw [store_eq_map, if_neg (Bool.eq_false_iff.mp hseen), ht]
    rfl
  rw [carry, Access.leaves_store hs]
  rfl

/-- A store that finds something else leaves the GPU alone. -/
theorem gpu_store_other (h : b.hides w a = false →
      ∀ offset, Target.ofStore w a ≠ .ok (.device .gpu offset)) :
    (b.carry (.store w a value)).gpu = b.gpu := by
  rw [carry]
  cases hs : b.store w a value with
  | error e => rw [Access.leaves_store_error hs]
  | ok b' =>
    rw [Access.leaves_store hs]
    rcases store_ok hs with ⟨-, rfl⟩ | ⟨hseen, t, ht, rfl⟩
    · rfl
    · refine gpu_write_other fun offset hgpu => ?_
      subst hgpu
      exact h hseen offset ht

/-- Narrow stores leave the GPU alone wherever they go. -/
theorem gpu_store_narrow (hw : w ≠ .word) : (b.carry (.store w a value)).gpu = b.gpu := by
  by_cases h : b.hides w a = false ∧ ∃ offset, Target.ofStore w a = .ok (.device .gpu offset)
  · obtain ⟨hseen, offset, ht⟩ := h
    rw [gpu_store hseen ht]
    cases w with
    | word => exact absurd rfl hw
    | byte | half => rfl
  · exact gpu_store_other fun hseen offset ht => h ⟨hseen, offset, ht⟩

/-- Of the words that are stored, those to a port are commands. -/
theorem gpu_store_word (hi : b.isolated = false)
    (ht : Target.ofStore .word a = .ok (.device .gpu offset)) :
    (b.carry (.store .word a value)).gpu = b.gpu.writeWord offset value := by
  have hseen : b.hides .word a = false := by rw [hides, hi, Bool.false_and]
  have hvalue : Width.word.truncate value = value := UInt32.and_neg_one
  rw [gpu_store hseen ht, hvalue]
  rfl

/-- Traffic acts on the GPU as its command does. -/
theorem gpu_carry (b : Bus) (t : Traffic) :
    (b.carry t).gpu = ((t.command? b.isolated).map b.gpu.obey).getD b.gpu := by
  cases t with
  | command c => rfl
  | store w a value =>
    cases w with
    | byte | half => exact gpu_store_narrow (by decide)
    | word =>
      rw [Traffic.command?]
      split
      -- The store is hidden, or goes to the last segment, where no port is.
      · rename_i hlost
        refine gpu_store_other fun hseen offset ht => ?_
        obtain ⟨hlow, -, -⟩ := Target.ofStore_gpu_word.mp ht
        have hsegment : Width.word.align a < 0xC0000000 := UInt32.not_le.mp hlow
        exact Bool.eq_false_iff.mp hseen (hides_iff.mpr ⟨hlost.resolve_right hlow, hsegment⟩)
      · rename_i hreaches
        obtain ⟨hi, hlow⟩ := not_or.mp hreaches
        rw [Bool.not_eq_true] at hi
        have hport {offset : UInt32} (hoffset : offset = 0 ∨ offset = 4)
            (ha : physical (wordAddress a) = 0x1F801810 + offset) :
            (b.carry (.store .word a value)).gpu = b.gpu.writeWord offset value :=
          gpu_store_word hi (Target.ofStore_gpu_word.mpr ⟨hlow, ha, hoffset⟩)
        split
        · exact hport (.inl rfl) ‹_›
        · split
          · exact hport (.inr rfl) ‹_›
          -- It goes somewhere else, and finds no port.
          · rename_i hdrawing hcontrol
            refine gpu_store_other fun hseen offset ht => ?_
            obtain ⟨-, ha, rfl | rfl⟩ := Target.ofStore_gpu_word.mp ht
            · exact hdrawing ha
            · exact hcontrol ha

/-- The bus after traffic that begins when the GPU is switched on. -/
def afterTraffic (b : Bus) (traffic : List Traffic) : Bus :=
  traffic.foldl carry { b with gpu := {} }

/-- The commands of the traffic decide what becomes of the GPU. -/
theorem gpu_afterTraffic (b : Bus) (traffic : List Traffic) :
    (b.afterTraffic traffic).gpu = Gpu.after (traffic.filterMap (·.command? b.isolated)) := by
  have hfold (b₁ : Bus) : (traffic.foldl carry b₁).gpu =
      (traffic.filterMap (·.command? b₁.isolated)).foldl Gpu.obey b₁.gpu := by
    induction traffic generalizing b₁ with
    | nil => rfl
    | cons t traffic ih =>
      rw [List.foldl_cons, ih, isolated_carry, gpu_carry]
      cases hc : t.command? b₁.isolated with
      | none => rw [List.filterMap_cons_none hc]; rfl
      | some c => rw [List.filterMap_cons_some hc]; rfl
  exact hfold { b with gpu := {} }

/-- Whatever traffic there was, at most 4096 words wait, a drain answers the last
4096 of the words that were submitted since the queue was last emptied, in
their order, or all of them if there are fewer, and leaves none. Narrow stores
submit nothing. -/
theorem drain_afterTraffic (b : Bus) (traffic : List Traffic) :
    (b.afterTraffic traffic).gpu.queue.size ≤ 4096 ∧
      (b.afterTraffic traffic).gpu.drain.1.toList =
        (Gpu.submitted (traffic.filterMap (·.command? b.isolated))).rtake 4096 ∧
      (b.afterTraffic traffic).gpu.drain.1.size =
        min 4096 (Gpu.submitted (traffic.filterMap (·.command? b.isolated))).length ∧
      (b.afterTraffic traffic).gpu.drain.2.queue = #[] ∧
      ∀ a value,
        (b.afterTraffic (traffic ++ [.store .byte a value])).gpu = (b.afterTraffic traffic).gpu ∧
        (b.afterTraffic (traffic ++ [.store .half a value])).gpu = (b.afterTraffic traffic).gpu := by
  have hqueue := Gpu.queue_after (traffic.filterMap (·.command? b.isolated))
  rw [← gpu_afterTraffic] at hqueue
  have hsize : (b.afterTraffic traffic).gpu.queue.size =
      min 4096 (Gpu.submitted (traffic.filterMap (·.command? b.isolated))).length := by
    rw [← Array.length_toList, hqueue, List.rtake, List.length_drop]
    change _ - (_ - 4096) = _
    omega
  refine ⟨by omega, hqueue, hsize, rfl, ?_⟩
  intro a value
  simp only [afterTraffic, List.foldl_concat]
  exact ⟨gpu_store_narrow (by decide), gpu_store_narrow (by decide)⟩

end Bus

end R3000
