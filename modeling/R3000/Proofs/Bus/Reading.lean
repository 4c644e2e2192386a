import R3000.Proofs.Bus.Access

/-!
# What reading leaves

Reading changes a bus in one place: a mode register of the timers loses its two
flags when it is read. `Unwritten` says that no more than this happened to
memory and devices.
-/

namespace R3000

/-! ## Timers -/

/-- `c'` is `c`, but both flags may have been cleared. -/
structure TimerChannel.Observed (c c' : TimerChannel) : Prop where
  counter : c'.counter = c.counter
  target : c'.target = c.target
  fired : c'.fired = c.fired
  mode : c'.mode = c.mode ∨ c'.mode = c.mode &&& ~~~(reachedTarget ||| reachedMax)

namespace TimerChannel.Observed

theorem refl (c : TimerChannel) : c.Observed c :=
  ⟨rfl, rfl, rfl, .inl rfl⟩

theorem readMode (c : TimerChannel) : c.Observed c.readMode.2 :=
  ⟨rfl, rfl, rfl, .inr rfl⟩

theorem trans {c c₁ c' : TimerChannel} (h : c.Observed c₁) (h' : c₁.Observed c') :
    c.Observed c' where
  counter := h'.counter.trans h.counter
  target := h'.target.trans h.target
  fired := h'.fired.trans h.fired
  mode := by
    rcases h.mode with hm | hm <;> rcases h'.mode with hm' | hm'
    · exact .inl (hm'.trans hm)
    · exact .inr (by rw [hm', hm])
    · exact .inr (hm'.trans hm)
    -- Flags that are cleared already stay so.
    · exact .inr (by rw [hm', hm, UInt16.and_assoc, UInt16.and_self])

end TimerChannel.Observed

namespace Timers

/-- `t'` is `t`, but flags of its channels may have been cleared. -/
def Observed (t t' : Timers) : Prop :=
  ∀ n : Fin 3, (t.channels.get n).Observed (t'.channels.get n)

theorem Observed.refl (t : Timers) : t.Observed t :=
  fun _ => .refl _

theorem Observed.trans {t t₁ t' : Timers} (h : t.Observed t₁) (h' : t₁.Observed t') :
    t.Observed t' :=
  fun n => (h n).trans (h' n)

theorem observed_readMode (t : Timers) (n : Fin 3) : t.Observed (t.readMode n).2 := by
  intro k
  change t.channels[k].Observed (t.readMode n).2.channels[k]
  by_cases hk : n = k
  · subst hk
    have hset : (t.readMode n).2.channels[n] = t.channels[n].readMode.2 :=
      Vector.getElem_set_self ..
    rw [hset]
    exact .readMode _
  · have hset : (t.readMode n).2.channels[k] = t.channels[k] :=
      Vector.getElem_set_ne n.isLt k.isLt fun h => hk (Fin.ext h)
    rw [hset]
    exact .refl _

theorem observed_readWord (t : Timers) (offset : UInt32) : t.Observed (t.readWord offset).2 := by
  unfold readWord
  cases Register.ofOffset? offset with
  | none => exact .refl t
  | some r =>
    cases r with
    | counter n | target n => exact .refl t
    | mode n => exact t.observed_readMode n

theorem observed_read (t : Timers) (w : Width) (offset : UInt32) :
    t.Observed (Device.read t w offset).2 := by
  cases w with
  | byte => exact t.observed_readWord (wordAddress offset)
  | word => exact t.observed_readWord offset
  | half =>
    change t.Observed (if isUpperHalf offset then (0, t) else t.readWord offset).2
    split
    · exact .refl t
    · exact t.observed_readWord offset

end Timers

/-- Timers of which the first has both flags set, to be cleared by reading. -/
def Timers.flagged : Timers :=
  ⟨#v[{ mode := 0x1C01 }, {}, {}]⟩

/-! ## The bus -/

theorem Dma.read_snd (d : Dma) (w : Width) (offset : UInt32) :
    (Device.read d w offset).2 = d := by
  simp only [Device.read]
  cases Register.ofOffset? offset <;> rfl

theorem Spu.read_snd (s : Spu) (w : Width) (offset : UInt32) :
    (Device.read s w offset).2 = s := by
  cases w <;> rfl

namespace Bus

variable {b b₁ b' : Bus} {w : Width} {a value : UInt32}

/-- Reading leaves the bus as it was, if it is not a register of the timers that is read. -/
theorem read_snd (b : Bus) (t : Target) (w : Width) :
    (b.read t w).2 = b ∨ ∃ offset, t = .device .timers offset ∧
      (b.read t w).2 = { b with timers := (Device.read b.timers w offset).2 } := by
  cases t with
  | cacheControl | cell | absent => exact .inl rfl
  | device p offset =>
    cases p with
    | interrupt | gpu => exact .inl rfl
    | dma => exact .inl (congrArg (fun dma => { b with dma }) (b.dma.read_snd w offset))
    | spu => exact .inl (congrArg (fun spu => { b with spu }) (b.spu.read_snd w offset))
    | timers => exact .inr ⟨offset, rfl, rfl⟩

/-- Only the timers change when a target is read. -/
theorem read_eq (b : Bus) (t : Target) (w : Width) :
    ∃ timers, (b.read t w).2 = { b with timers } ∧ b.timers.Observed timers := by
  rcases b.read_snd t w with hkept | ⟨offset, -, hread⟩
  · exact ⟨b.timers, hkept, .refl _⟩
  · exact ⟨_, hread, b.timers.observed_read w offset⟩

theorem load_eq (h : b.load w a = .ok (value, b')) :
    ∃ timers, b' = { b with timers } ∧ b.timers.Observed timers := by
  obtain ⟨t, -, hr⟩ := load_ok h
  have hread := b.read_eq t w
  rwa [hr] at hread

/-- Memory and devices are the same in `b'` as in `b`, but flags of the timers
may have been cleared. -/
structure Unwritten (b b' : Bus) : Prop where
  memory : b'.memory = b.memory
  interrupt : b'.interrupt = b.interrupt
  dma : b'.dma = b.dma
  timers : b.timers.Observed b'.timers
  gpu : b'.gpu = b.gpu
  spu : b'.spu = b.spu

namespace Unwritten

theorem refl (b : Bus) : b.Unwritten b :=
  ⟨rfl, rfl, rfl, .refl _, rfl, rfl⟩

theorem trans (h : b.Unwritten b₁) (h' : b₁.Unwritten b') : b.Unwritten b' where
  memory := h'.memory.trans h.memory
  interrupt := h'.interrupt.trans h.interrupt
  dma := h'.dma.trans h.dma
  timers := h.timers.trans h'.timers
  gpu := h'.gpu.trans h.gpu
  spu := h'.spu.trans h.spu

theorem load (h : b.load w a = .ok (value, b')) : b.Unwritten b' := by
  obtain ⟨timers, rfl, ht⟩ := load_eq h
  exact ⟨rfl, rfl, rfl, ht, rfl, rfl⟩

end Unwritten

theorem cacheControl_load (h : b.load w a = .ok (value, b')) :
    b'.cacheControl = b.cacheControl := by
  obtain ⟨timers, rfl, -⟩ := load_eq h
  rfl

theorem isolated_load (h : b.load w a = .ok (value, b')) : b'.isolated = b.isolated := by
  obtain ⟨timers, rfl, -⟩ := load_eq h
  rfl

end Bus

end R3000
