import Mathlib.Data.List.Basic

/-!
# Latches

A latch is set by some events, and keeps what it holds over every event that
spares it. So after a history it is set exactly if an event set it and was
followed by events that spare it, or if it was set at first and spared throughout.
What sets or spares it may rest on something that every event keeps.
-/

namespace R3000

variable {σ ε : Type} {step : σ → ε → σ} {I P : σ → Prop} {sets : σ → ε → Prop} {spares : ε → Prop}

/-- The history has an event that sets the latch, and only events after it that spare it. -/
def SetSince (step : σ → ε → σ) (sets : σ → ε → Prop) (spares : ε → Prop) (s : σ)
    (history : List ε) : Prop :=
  ∃ before event since, history = before ++ event :: since ∧
    sets (before.foldl step s) event ∧ ∀ e ∈ since, spares e

theorem setSince_cons (s : σ) (event : ε) (history : List ε) :
    SetSince step sets spares s (event :: history) ↔
      (sets s event ∧ ∀ e ∈ history, spares e) ∨
        SetSince step sets spares (step s event) history := by
  constructor
  · rintro ⟨before, e, since, heq, hset, hspared⟩
    cases before with
    | nil =>
      obtain ⟨rfl, rfl⟩ := List.cons.inj heq
      exact .inl ⟨hset, hspared⟩
    | cons first before =>
      obtain ⟨rfl, rfl⟩ := List.cons.inj heq
      exact .inr ⟨before, e, since, rfl, hset, hspared⟩
  · rintro (⟨hset, hspared⟩ | ⟨before, e, since, rfl, hset, hspared⟩)
    · exact ⟨[], event, history, rfl, hset, hspared⟩
    · exact ⟨event :: before, e, since, rfl, hset, hspared⟩

/-- What a latch holds after a history, from what it holds after one event. -/
theorem latched_foldl (hI : ∀ s event, I s → I (step s event))
    (h : ∀ s event, I s → (P (step s event) ↔ sets s event ∨ (spares event ∧ P s)))
    {s : σ} (hs : I s) (history : List ε) :
    P (history.foldl step s) ↔
      (P s ∧ ∀ e ∈ history, spares e) ∨ SetSince step sets spares s history := by
  induction history generalizing s with
  | nil => simp [SetSince]
  | cons event history ih =>
    rw [List.foldl_cons, ih (hI s event hs), h s event hs, setSince_cons, List.forall_mem_cons]
    tauto

end R3000
