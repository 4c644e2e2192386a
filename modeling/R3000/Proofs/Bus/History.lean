import R3000.Proofs.Bus.Window
import R3000.Proofs.Cpu.Access
import R3000.Proofs.Machine.Consistency

/-!
# Histories of the bus

The processor loads and stores at any width, the devices tick, and the transfer
engine reports the end of transfers. None of this changes whether the cache is
isolated.
-/

namespace R3000

namespace Bus

/-- What happens on the bus. -/
inductive Event where
  | load (w : Width) (address : UInt32)
  | store (w : Width) (address value : UInt32)
  | tick
  | completeDma (ch : Fin 7)
deriving DecidableEq, Repr

/-- The bus after an event. An access that is refused leaves what it has done until then. -/
def happen (b : Bus) : Event → Bus
  | .load w address => (Access.load w address).leaves b
  | .store w address value => (Access.store w address value).leaves b
  | .tick => b.tick.2
  | .completeDma ch => b.completeDma ch

/-- The bus after a history that begins with `b`. -/
def after (b : Bus) (history : List Event) : Bus :=
  history.foldl happen b

variable {b : Bus} {w : Width} {a value : UInt32} {p : Peripheral}

theorem after_concat (b : Bus) (history : List Event) (event : Event) :
    b.after (history ++ [event]) = (b.after history).happen event :=
  List.foldl_concat ..

/-! ## Accesses -/

/-- A load leaves the bus as it was but for the timers, whether it is refused or not. -/
theorem happen_load (b : Bus) (w : Width) (a : UInt32) :
    ∃ timers, b.happen (.load w a) = { b with timers } ∧ b.timers.Observed timers := by
  cases hl : b.load w a with
  | error e => exact ⟨b.timers, Access.leaves_load_error hl, .refl _⟩
  | ok x =>
    obtain ⟨timers, hb, ht⟩ := load_eq hl
    exact ⟨timers, (Access.leaves_load hl).trans hb, ht⟩

/-- A store that is not hidden writes its target, if it finds one. -/
theorem happen_store (b : Bus) (w : Width) (a value : UInt32) :
    b.happen (.store w a value) =
      if b.hides w a then b
      else
        match Target.ofStore w a with
        | .ok t => b.write t w value
        | .error _ => b := by
  have hs := b.store_eq_map w a value
  rw [happen]
  split at hs
  · rw [if_pos ‹_›, Access.leaves_store hs]
  · rw [if_neg ‹_›]
    cases ht : Target.ofStore w a with
    | ok t =>
      rw [ht] at hs
      exact Access.leaves_store hs
    | error e =>
      rw [ht] at hs
      exact Access.leaves_store_error hs

/-- A store to an address of a device writes the device, unless it meets a hole. -/
theorem happen_store_device (hi : b.isolated = false) (h : p.Owns a) :
    b.happen (.store w a value) =
      match Device.writeHole? p.State w (p.offset w a) with
      | some _ => b
      | none => b.writeDevice p w (p.offset w a) (w.truncate value) := by
  have hseen : ¬ b.hides w a = true := by rw [hides, hi, Bool.false_and]; exact Bool.false_ne_true
  rw [happen_store, if_neg hseen, Target.ofStore, Target.ofAddress_occupied h]
  cases Device.writeHole? p.State w (p.offset w a) <;> rfl

/-! ## Isolation -/

theorem isolated_happen (b : Bus) (event : Event) : (b.happen event).isolated = b.isolated := by
  cases event with
  | load w a =>
    obtain ⟨timers, hb, -⟩ := b.happen_load w a
    rw [hb]
  | store w a value =>
    rw [happen_store]
    split
    · rfl
    · split
      · exact (stable_isolated b.isolated).write b _ w value rfl
      · rfl
  | tick => rfl
  | completeDma ch => rfl

end Bus

end R3000
