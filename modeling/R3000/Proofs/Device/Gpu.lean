import Mathlib.Data.List.DropRight
import R3000.Device.Gpu

/-!
# The queue of the GPU

Drawing words are queued, drained and thrown away. After any history the queue
holds the end of what was submitted since it was last emptied: as many words as
it can hold at most, in the order of their submission.
-/

namespace R3000

namespace Gpu

/-! ## Its length -/

section Size

variable {g : Gpu}

theorem size_submit_le (h : g.queue.size ≤ queueCapacity) (word : UInt32) :
    (g.submit word).queue.size ≤ queueCapacity := by
  have hcapacity : 1 ≤ queueCapacity := by decide
  simp only [submit]
  split
  -- A full queue loses its oldest word first.
  · rw [Array.size_push, Array.size_extract]
    omega
  · rw [Array.size_push]
    omega

/-- Of a queue that is too long no word is lost any more. -/
theorem size_submit_of_lt (h : queueCapacity < g.queue.size) (word : UInt32) :
    (g.submit word).queue.size = g.queue.size + 1 := by
  simp only [submit, if_neg (Nat.ne_of_gt h), Array.size_push]

theorem size_control_le (g : Gpu) (word : UInt32) :
    (g.control word).queue.size ≤ g.queue.size := by
  unfold control
  cases Control.ofWord word with
  | reset | clearQueue => exact Nat.zero_le _
  | _ => exact Nat.le_refl _

theorem size_write_le (h : g.queue.size ≤ queueCapacity) (w : Width) (offset value : UInt32) :
    (Device.write g w offset value).queue.size ≤ queueCapacity := by
  cases w with
  -- Narrow writes are dropped.
  | byte | half => exact h
  | word =>
    change (g.writeWord offset value).queue.size ≤ queueCapacity
    unfold writeWord
    split
    · exact size_submit_le h value
    · split
      · exact Nat.le_trans (g.size_control_le value) h
      · exact h

end Size

/-! ## Commands -/

/-- What the GPU is told. -/
inductive Command where
  | submit (word : UInt32)
  | control (word : UInt32)
  | drain
deriving DecidableEq, Repr

/-- The GPU after a command. -/
def obey (g : Gpu) : Command → Gpu
  | .submit word => g.submit word
  | .control word => g.control word
  | .drain => g.drain.2

/-- The GPU after commands that begin when it is switched on. -/
def after (history : List Command) : Gpu :=
  history.foldl obey {}

namespace Command

/-- The word that a command submits. -/
def word? : Command → Option UInt32
  | submit word => some word
  | _ => none

/-- The command leaves no word waiting: it drains the queue, or it is a control
word of kind 0, which resets the GPU, or 1, which clears the queue. -/
def empties : Command → Bool
  | submit _ => false
  | control word => word >>> 24 ≤ 1
  | drain => true

end Command

/-- The words that were submitted since the queue was last emptied. -/
def submitted (history : List Command) : List UInt32 :=
  (history.rtakeWhile (!·.empties)).filterMap Command.word?

theorem submitted_concat (history : List Command) (c : Command) :
    submitted (history ++ [c]) =
      if c.empties then [] else submitted history ++ c.word?.toList := by
  rw [submitted, List.rtakeWhile_concat, submitted]
  cases c.empties with
  | true => rfl
  | false =>
    rw [Bool.not_false, if_pos rfl, List.filterMap_append, if_neg Bool.false_ne_true]
    cases c <;> rfl

/-! ## What waits -/

/-- A word is queued last, and of a queue that grows too long the oldest word is lost. -/
theorem queue_submit {g : Gpu} (h : g.queue.size ≤ queueCapacity) (word : UInt32) :
    (g.submit word).queue.toList = (g.queue.toList ++ [word]).rtake queueCapacity := by
  have hcapacity : 1 ≤ queueCapacity := by decide
  have hlength : (g.queue.toList ++ [word]).length = g.queue.size + 1 := by simp
  rw [List.rtake, hlength, List.drop_append_of_le_length (by rw [Array.length_toList]; omega),
    submit, Array.toList_push]
  refine congrArg (· ++ [word]) ?_
  split
  -- The oldest word goes exactly when the new one is one too many.
  · rename_i hfull
    have hone : g.queue.size + 1 - queueCapacity = 1 := by omega
    rw [hone, Array.toList_extract, List.extract_eq_take_drop, List.take_of_length_le]
    rw [List.length_drop, Array.length_toList]
  · rename_i hroom
    have hnone : g.queue.size + 1 - queueCapacity = 0 := by omega
    rw [hnone, List.drop_zero]

/-- The control words that empty the queue are the reset and the clearing of the queue. -/
theorem empties_control (word : UInt32) :
    (Command.control word).empties = true ↔
      Control.ofWord word = .reset ∨ Control.ofWord word = .clearQueue := by
  have hkind : (Command.control word).empties = true ↔ (word >>> 24).toNat ≤ 1 :=
    decide_eq_true_iff
  rw [hkind, Control.ofWord]
  generalize (word >>> 24).toNat = kind
  split
  case h_10 hreset hclear _ _ _ _ _ _ _ =>
    have hlow : ¬ kind ≤ 1 := fun h =>
      (Nat.le_one_iff_eq_zero_or_eq_one.mp h).elim hreset hclear
    split <;> simp [hlow]
  all_goals simp

theorem queue_control (g : Gpu) (word : UInt32) :
    (g.control word).queue = if (Command.control word).empties then #[] else g.queue := by
  have hempties := empties_control word
  rw [control]
  cases hc : Control.ofWord word with
  | reset => rw [if_pos (hempties.mpr (.inl hc))]
  | clearQueue => rw [if_pos (hempties.mpr (.inr hc))]
  | _ => rw [if_neg (by simp [hempties, hc])]

/-- What was cut off once is not missed when more is cut off. -/
theorem rtake_rtake_concat (words : List UInt32) (word : UInt32) (n : Nat) :
    (words.rtake n ++ [word]).rtake n = (words ++ [word]).rtake n := by
  cases n with
  | zero => rw [List.rtake_zero, List.rtake_zero]
  | succ n =>
    rw [List.rtake_concat_succ, List.rtake_concat_succ]
    refine congrArg (· ++ [word]) ?_
    rw [List.rtake, List.rtake, List.rtake, List.drop_drop, List.length_drop]
    congr 1
    omega

/-- Of what was submitted the end waits. -/
theorem queue_after (history : List Command) :
    (after history).queue.toList = (submitted history).rtake queueCapacity := by
  -- The history is taken from its end, where the command stands that came last.
  induction history using List.reverseRecOn with
  | nil => rfl
  | append_singleton history c ih =>
    have hsize : (after history).queue.size ≤ queueCapacity := by
      rw [← Array.length_toList, ih, List.rtake, List.length_drop]
      omega
    have hafter : after (history ++ [c]) = (after history).obey c := List.foldl_concat ..
    rw [hafter, submitted_concat]
    cases c with
    | submit word =>
      change ((after history).submit word).queue.toList = (submitted history ++ [word]).rtake _
      rw [queue_submit hsize, ih, rtake_rtake_concat]
    | control word =>
      change ((after history).control word).queue.toList = _
      rw [queue_control]
      split
      · exact (List.rtake_nil _).symm
      · exact ih.trans (congrArg (List.rtake · _) (List.append_nil _).symm)
    | drain => exact (List.rtake_nil _).symm

/-- The first word is cleared away, and other control words lose none. -/
example :
    (after [.submit 1, .control 0x01000000, .submit 2, .control 0x04000002, .submit 3]).drain.1 =
      #[2, 3] := by
  decide

end Gpu

end R3000
