import R3000.Proofs.Bus.Reading
import R3000.Proofs.Device.InPlace
import R3000.Proofs.Device.Tick
import R3000.Proofs.Latch

/-!
# Histories of the timers

The timers tick, and a program reads and writes their registers at any width.
A channel that does not repeat its interrupt remembers that it was raised, until
its mode is written.
-/

namespace R3000

namespace Timers

variable {t : Timers} {n : Fin 3} {w : Width} {offset value : UInt32}

def channel (t : Timers) (n : Fin 3) : TimerChannel :=
  t.channels.get n

/-! ## Histories -/

/-- What happens to the timers. -/
inductive Event where
  | tick
  | read (w : Width) (offset : UInt32)
  | write (w : Width) (offset value : UInt32)
deriving DecidableEq, Repr

/-- The register that an event puts a value into. -/
def Event.register? : Event → Option Register
  | write .word offset _ => Register.ofOffset? offset
  | write .half offset _ => if isUpperHalf offset then none else Register.ofOffset? offset
  | write .byte offset _ => Register.ofOffset? (wordAddress offset)
  | _ => none

/-- The timers after an event. An access that is refused leaves what it has done until then. -/
def happen (t : Timers) : Event → Timers
  | .tick => t.tick.2
  | .read w offset =>
    match loadInPlace w offset t with
    | .ok _ t' => t'
    | .error _ t' => t'
  | .write w offset value =>
    match storeInPlace w offset value t with
    | .ok _ t' => t'
    | .error _ t' => t'

/-- The timers after a history that begins with `t`. -/
def after (t : Timers) (history : List Event) : Timers :=
  history.foldl happen t

/-- A tick raises the interrupt of channel `n`. -/
def raises (t : Timers) (n : Fin 3) : Bool :=
  t.tick.1 &&& InterruptController.timerLine n != 0

/-! ## Channels -/

theorem tick_channel (t : Timers) (n : Fin 3) : t.tick.2.channel n = (t.channel n).tick.2 := by
  match n with
  | 0 => rfl
  | 1 => rfl
  | 2 => rfl

theorem raises_eq (t : Timers) (n : Fin 3) : t.raises n = (t.channel n).tick.1 := by
  have hlines : ∀ (irq₀ irq₁ irq₂ : Bool) (n : Fin 3),
      (((if irq₀ then InterruptController.timerLine 0 else 0) |||
        (if irq₁ then InterruptController.timerLine 1 else 0) |||
        (if irq₂ then InterruptController.timerLine 2 else 0)) &&&
          InterruptController.timerLine n != 0) = #v[irq₀, irq₁, irq₂].get n := by
    decide
  rw [raises]
  refine (hlines (t.channel 0).tick.1 (t.channel 1).tick.1 (t.channel 2).tick.1 n).trans ?_
  match n with
  | 0 => rfl
  | 1 => rfl
  | 2 => rfl

theorem channel_modify (t : Timers) (k n : Fin 3) (f : TimerChannel → TimerChannel) :
    (t.modifyChannel k f).channel n = if k = n then f (t.channel n) else t.channel n := by
  change (t.modifyChannel k f).channels[n] = _
  rw [modifyChannel, Fin.getElem_fin, Vector.getElem_set]
  by_cases hk : k = n
  · subst hk
    rw [if_pos rfl, if_pos rfl]
    rfl
  · rw [if_neg hk, if_neg fun h => hk (Fin.ext h)]
    rfl

theorem modifyChannel_modifyChannel (t : Timers) (n : Fin 3) (f g : TimerChannel → TimerChannel) :
    (t.modifyChannel n f).modifyChannel n g = t.modifyChannel n fun c => g (f c) := by
  simp [modifyChannel]

theorem channel_writeRegister (t : Timers) (r : Register) (value : UInt32) (n : Fin 3) :
    (t.writeRegister r value).channel n =
      if r = .mode n then (t.channel n).writeMode value
      else if r = .counter n then (t.channel n).writeCounter value
      else if r = .target n then (t.channel n).writeTarget value
      else t.channel n := by
  cases r with
  | counter k | mode k | target k => simp [writeRegister, channel_modify]

/-! ## Accesses -/

/-- A write that is refused puts its value nowhere. -/
theorem register_of_hole {hole : UInt32} (h : Device.writeHole? Timers w offset = some hole) :
    (Event.write w offset value).register? = none := by
  have hnone {used : UInt32} (hhole : (if answers used then none else some used) = some hole) :
      Register.ofOffset? used = none := by
    split at hhole
    · cases hhole
    · rename_i hanswers
      rw [answers, Bool.not_eq_true, Option.isSome_eq_false_iff, Option.isNone_iff_eq_none]
        at hanswers
      exact hanswers
  cases w with
  | word => exact hnone h
  | byte => exact hnone h
  | half =>
    simp only [Device.writeHole?, hole?, Event.register?] at h ⊢
    cases hupper : isUpperHalf offset with
    | true => rfl
    | false =>
      rw [hupper, Bool.false_or] at h
      exact hnone h

theorem happen_read (t : Timers) (w : Width) (offset : UInt32) :
    t.Observed (t.happen (.read w offset)) := by
  rw [happen, loadInPlace_eq, Device.load]
  cases Device.readHole? Timers w offset with
  | some hole => exact .refl t
  | none => exact t.observed_read w offset

/-- A write reads at most, and then writes its register. -/
theorem happen_write (t : Timers) (w : Width) (offset value : UInt32) :
    ∃ t', t.Observed t' ∧
      match (Event.write w offset value).register? with
      | none => t.happen (.write w offset value) = t'
      | some r => ∃ content, t.happen (.write w offset value) = t'.writeRegister r content := by
  rw [happen, storeInPlace_eq, Device.store]
  cases hhole : Device.writeHole? Timers w offset with
  | some hole =>
    rw [register_of_hole hhole]
    exact ⟨t, .refl t, rfl⟩
  | none =>
    have hword (t : Timers) (offset value : UInt32) :
        match Register.ofOffset? offset with
        | none => t.writeWord offset value = t
        | some r => ∃ content, t.writeWord offset value = t.writeRegister r content := by
      rw [writeWord]
      cases Register.ofOffset? offset with
      | none => rfl
      | some r => exact ⟨value, rfl⟩
    cases w with
    | word => exact ⟨t, .refl t, hword t offset value⟩
    | byte => exact ⟨_, t.observed_readWord (wordAddress offset), hword _ _ _⟩
    | half =>
      refine ⟨t, .refl t, ?_⟩
      simp only [Event.register?, Device.write, settled, Except.map]
      cases isUpperHalf offset with
      | true => rfl
      | false => exact hword t offset value

/-! ## Since the mode was written -/

/-- Only a written mode arms the interrupt again. -/
theorem fired_happen (t : Timers) (event : Event) (n : Fin 3) :
    ((t.happen event).channel n).fired =
      if event.register? = some (.mode n) then false
      else (t.channel n).fired || (event = .tick && t.raises n) := by
  cases event with
  | tick =>
    rw [happen, tick_channel, (TimerChannel.ticks _).fired, raises_eq]
    simp [Event.register?]
  | read w offset =>
    have hkept : ((t.happen (.read w offset)).channel n).fired = (t.channel n).fired :=
      (t.happen_read w offset n).fired
    rw [hkept]
    simp [Event.register?]
  | write w offset value =>
    obtain ⟨t', ho, hw⟩ := t.happen_write w offset value
    have hkept : (t'.channel n).fired = (t.channel n).fired := (ho n).fired
    cases hr : (Event.write w offset value).register? with
    | none =>
      rw [hr] at hw
      dsimp only at hw
      rw [hw, hkept]
      simp
    | some r =>
      rw [hr] at hw
      obtain ⟨content, hw⟩ := hw
      rw [hw, channel_writeRegister, ← hkept]
      by_cases hmode : r = .mode n
      · rw [if_pos hmode, if_pos (congrArg some hmode)]
        rfl
      · rw [if_neg hmode, if_neg (mt Option.some.inj hmode)]
        split
        · simp [TimerChannel.writeCounter]
        · split <;> simp [TimerChannel.writeTarget]

/-- The event leaves the mode of channel `n` as it is written. -/
def Event.Spares (n : Fin 3) (event : Event) : Prop :=
  event.register? ≠ some (.mode n)

/-- Since the mode of channel `n` was last written, its interrupt was raised; or it
was so at the beginning, and the mode was not written at all. -/
def FiredSince (t : Timers) (history : List Event) (n : Fin 3) : Prop :=
  ((t.channel n).fired = true ∧ ∀ event ∈ history, event.Spares n) ∨
    ∃ before since, history = before ++ .tick :: since ∧ (t.after before).raises n = true ∧
      ∀ event ∈ since, event.Spares n

theorem after_concat (t : Timers) (history : List Event) (event : Event) :
    t.after (history ++ [event]) = (t.after history).happen event := by
  rw [after, List.foldl_append]
  rfl

/-- The interrupt of a channel is a latch that its mode clears. -/
theorem firedSince_iff (t : Timers) (history : List Event) (n : Fin 3) :
    t.FiredSince history n ↔
      ((t.channel n).fired = true ∧ ∀ event ∈ history, event.Spares n) ∨
        SetSince happen (fun t event => event = .tick ∧ t.raises n = true) (Event.Spares n)
          t history := by
  refine or_congr_right ⟨?_, ?_⟩
  · rintro ⟨before, since, heq, hraises, hspared⟩
    exact ⟨before, .tick, since, heq, ⟨rfl, hraises⟩, hspared⟩
  · rintro ⟨before, event, since, heq, ⟨rfl, hraises⟩, hspared⟩
    exact ⟨before, since, heq, hraises, hspared⟩

/-- One event: the interrupt is raised by it, or it was raised and the mode is spared. -/
theorem fired_happen_iff (t : Timers) (event : Event) (n : Fin 3) :
    ((t.happen event).channel n).fired = true ↔
      (event = .tick ∧ t.raises n = true) ∨ (event.Spares n ∧ (t.channel n).fired = true) := by
  rw [fired_happen]
  by_cases hmode : event.register? = some (.mode n)
  · -- A tick writes no register.
    have htick : event ≠ .tick := by
      rintro rfl
      cases hmode
    simp [Event.Spares, hmode, htick]
  · rw [if_neg hmode, Bool.or_eq_true, Bool.and_eq_true, decide_eq_true_iff, or_comm]
    exact or_congr_right (and_iff_right hmode).symm

/-- A channel remembers whether its interrupt was raised since its mode was written. -/
theorem fired_after (t : Timers) (history : List Event) (n : Fin 3) :
    ((t.after history).channel n).fired = true ↔ t.FiredSince history n := by
  rw [firedSince_iff]
  exact latched_foldl (I := fun _ => True) (P := fun t : Timers => (t.channel n).fired = true)
    (fun _ _ h => h) (fun t event _ => t.fired_happen_iff event n) trivial history

/-- After every history a tick does to each channel what `Ticks` says, and what a
channel knows of its interrupt is whether it was raised since the mode was
written. Both values are noted unless the highest one is the target and the
counter starts over there. -/
theorem tick_after (t : Timers) (history : List Event) (n : Fin 3) :
    ((t.after history).channel n).Ticks ((t.after history).raises n)
        ((t.after (history ++ [.tick])).channel n) ∧
      (((t.after history).channel n).fired = true ↔ t.FiredSince history n) ∧
      (((t.after history).channel n).NotesBoth ((t.after history).raises n)
          ((t.after (history ++ [.tick])).channel n) ↔
        ¬ ((t.after history).channel n).Overlooks) := by
  have hticks : ((t.after history).channel n).Ticks ((t.after history).raises n)
      ((t.after (history ++ [.tick])).channel n) := by
    rw [after_concat, happen, tick_channel, raises_eq]
    exact TimerChannel.ticks _
  exact ⟨hticks, t.fired_after history n, hticks.notesBoth_iff⟩

/-- A counter that starts over at the highest value as at its target: neither the
flag nor the interrupt of the highest value comes. -/
theorem highest_unnoted :
    ¬ ∀ (t : Timers) (history : List Event) (n : Fin 3),
        ((t.after history).channel n).NotesBoth ((t.after history).raises n)
          ((t.after (history ++ [.tick])).channel n) := by
  intro hlaw
  have hnotes := hlaw {} [.write .word 4 0x28, .write .word 8 0xFFFF, .write .word 0 0xFFFE] 0
  exact absurd (hnotes.max (by decide)) (by decide)

end Timers

end R3000
