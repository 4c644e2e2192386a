import Mathlib.Data.List.Forall2
import R3000.Text.Hex

/-!
# Divided text

Text that is put together from parts is taken apart again where the parts lack the
character that divides them. Numbers lack all of those: decimal ones have digits and a sign
only, hexadecimal ones digits behind a fixed beginning.
-/

namespace R3000

namespace Text

/-! ## Parts -/

variable {ch : Char} {sep : String} {rest : List Char}

/-- The text before the first `ch` is found again. -/
theorem takeWhile_divided {text : List Char} (h : ch ∉ text) (behind : List Char) :
    (text ++ ch :: behind).takeWhile (· != ch) = text := by
  rw [List.takeWhile_append_of_pos, List.takeWhile_cons_of_neg (by simp), List.append_nil]
  intro x hx
  exact bne_iff_ne.mpr fun heq => h (heq ▸ hx)

/-- Text before a separator that begins with a character which it lacks. -/
theorem divided_inj (hsep : sep.toList = ch :: rest) {a a' b b' : String} (ha : ch ∉ a.toList)
    (ha' : ch ∉ a'.toList) (h : a ++ sep ++ b = a' ++ sep ++ b') : a = a' ∧ b = b' := by
  have hchars := congrArg String.toList h
  simp only [String.toList_append, hsep, List.append_assoc, List.cons_append] at hchars
  have hfirst : a.toList = a'.toList := by
    rw [← takeWhile_divided ha (rest ++ b.toList), hchars, takeWhile_divided ha']
  refine ⟨String.toList_injective hfirst, String.toList_injective ?_⟩
  rw [hfirst, List.append_cancel_left_eq, List.cons_inj_right, List.append_cancel_left_eq] at hchars
  exact hchars

/-- Texts that lack the first character of the separator are found again in what they are
joined to. -/
theorem intercalate_inj (hsep : sep.toList = ch :: rest) {texts texts' : List String}
    (h : ∀ text ∈ texts, ch ∉ text.toList) (h' : ∀ text ∈ texts', ch ∉ text.toList)
    (hne : texts ≠ []) (hne' : texts' ≠ [])
    (heq : sep.intercalate texts = sep.intercalate texts') : texts = texts' := by
  -- A text that is joined to others has the separator behind it, a single one has none.
  have hjoined {a b : String} (others : List String) :
      ch ∈ (sep.intercalate (a :: b :: others)).toList := by
    simp [String.intercalate_cons_cons, hsep]
  induction texts generalizing texts' with
  | nil => exact absurd rfl hne
  | cons a texts ih =>
    cases texts' with
    | nil => exact absurd rfl hne'
    | cons a' texts' =>
      have ha := h a List.mem_cons_self
      have ha' := h' a' List.mem_cons_self
      cases texts with
      | nil =>
        cases texts' with
        | nil => simpa using heq
        | cons b' texts' =>
          rw [String.intercalate_singleton] at heq
          exact absurd (heq ▸ hjoined texts') ha
      | cons b texts =>
        cases texts' with
        | nil =>
          rw [String.intercalate_singleton] at heq
          exact absurd (heq ▸ hjoined texts) ha'
        | cons b' texts' =>
          rw [String.intercalate_cons_cons, String.intercalate_cons_cons] at heq
          obtain ⟨hfirst, hothers⟩ := divided_inj hsep ha ha' heq
          rw [hfirst, ih (fun x hx => h x (List.mem_cons_of_mem _ hx))
            (fun x hx => h' x (List.mem_cons_of_mem _ hx)) (List.cons_ne_nil _ _)
            (List.cons_ne_nil _ _) hothers]

/-- Texts of one length are found again before whatever follows them. -/
theorem append_inj_of_length {a a' b b' : String}
    (hlength : a.toList.length = a'.toList.length) (h : a ++ b = a' ++ b') : a = a' ∧ b = b' := by
  have hchars := congrArg String.toList h
  rw [String.toList_append, String.toList_append] at hchars
  obtain ⟨hfirst, hothers⟩ := List.append_inj hchars hlength
  exact ⟨String.toList_injective hfirst, String.toList_injective hothers⟩

/-- Texts that show where they end are found again one after another, up to a text that
none of them begins. -/
theorem join_inj {α : Type} {text : α → String} {R : α → α → Prop} {P : String → Prop}
    (hend : ∀ a s, ¬ P (text a ++ s)) {as bs : List α}
    (hinj : ∀ a ∈ as, ∀ b ∈ bs, ∀ s t, text a ++ s = text b ++ t → R a b ∧ s = t)
    {s t : String} (hs : P s) (ht : P t)
    (h : String.join (as.map text) ++ s = String.join (bs.map text) ++ t) :
    List.Forall₂ R as bs ∧ s = t := by
  have hbegun {a : α} {others : List α} {s t : String} (ht : P t) :
      String.join ((a :: others).map text) ++ s ≠ t := by
    rintro rfl
    rw [List.map_cons, String.join_cons, String.append_assoc] at ht
    exact hend a _ ht
  induction as generalizing bs with
  | nil =>
    rw [List.map_nil, String.join_nil, String.empty_append] at h
    cases bs with
    | nil => exact ⟨.nil, by rwa [List.map_nil, String.join_nil, String.empty_append] at h⟩
    | cons b bs => exact absurd h.symm (hbegun hs)
  | cons a as ih =>
    cases bs with
    | nil =>
      rw [List.map_nil, String.join_nil, String.empty_append] at h
      exact absurd h (hbegun ht)
    | cons b bs =>
      rw [List.map_cons, List.map_cons, String.join_cons, String.join_cons, String.append_assoc,
        String.append_assoc] at h
      obtain ⟨hfirst, hothers⟩ := hinj a List.mem_cons_self b List.mem_cons_self _ _ h
      obtain ⟨hrest, hbehind⟩ := ih (fun a ha b hb =>
        hinj a (List.mem_cons_of_mem _ ha) b (List.mem_cons_of_mem _ hb)) hothers
      exact ⟨.cons hfirst hrest, hbehind⟩

/-! ## Numbers -/

theorem isDigit_of_mem_repr {n : Nat} {ch : Char} (h : ch ∈ n.repr.toList) :
    ch.isDigit = true := by
  rw [Nat.toList_repr] at h
  exact Nat.isDigit_of_mem_toDigits (by decide) (by decide) h

/-- A number is shown by digits, behind a sign if it is negative. -/
theorem mem_toString {n : Int} {ch : Char} (h : ch ∈ (toString n).toList) :
    ch.isDigit = true ∨ ch = '-' := by
  rw [Int.toString_eq_repr] at h
  cases n with
  | ofNat n => exact .inl (isDigit_of_mem_repr h)
  | negSucc n =>
    have hsign : ch ∈ ("-" ++ (n + 1).repr).toList := h
    rw [String.toList_append, List.mem_append] at hsign
    exact hsign.elim (fun hs => .inr (by simpa using hs)) fun hn => .inl (isDigit_of_mem_repr hn)

/-- The sign is not a digit, and the digits are read back as the number that they show. -/
theorem toString_inj {m n : Int} : toString m = toString n ↔ m = n := by
  have hdigits {k l : Nat} (h : k.repr = l.repr) : k = l := by
    have hread := congrArg (fun text : String => Nat.ofDigitChars 10 text.toList 0) h
    simpa only [Nat.toList_repr, Nat.ofDigitChars_ten_toDigits] using hread
  have hsign (k l : Nat) : k.repr ≠ "-" ++ l.repr := by
    intro h
    have hmem : '-' ∈ k.repr.toList := by simp [h]
    exact absurd (isDigit_of_mem_repr hmem) (by decide)
  refine ⟨fun h => ?_, congrArg toString⟩
  rw [Int.toString_eq_repr, Int.toString_eq_repr] at h
  cases m with
  | ofNat k =>
    cases n with
    | ofNat l => exact congrArg Int.ofNat (hdigits h)
    | negSucc l => exact absurd h (hsign k (l + 1))
  | negSucc k =>
    cases n with
    | ofNat l => exact absurd h.symm (hsign l (k + 1))
    | negSucc l =>
      have hsize : k + 1 = l + 1 := hdigits ((String.append_right_inj "-").mp h)
      exact congrArg Int.negSucc (Nat.succ.inj hsize)

theorem comma_toString (n : Int) : ',' ∉ (toString n).toList := fun h => by
  simpa using mem_toString h

end Text

namespace Hex

theorem comma_digits (count n : Nat) : ',' ∉ digits count n := by
  have hdigit : ∀ d < 16, digit d ≠ ',' := by decide
  induction count generalizing n with
  | zero => exact List.not_mem_nil
  | succ count ih =>
    rw [digits, List.mem_append, List.mem_singleton, not_or]
    refine ⟨ih (n / 16), ?_⟩
    have hlast := hdigit (n % 16) (Nat.mod_lt _ (by decide))
    rwa [digit, Nat.mod_mod, ← digit, ne_comm] at hlast

theorem comma_fixed (count n : Nat) : ',' ∉ (fixed count n).toList := by
  rw [fixed, String.toList_ofList]
  exact comma_digits count n

theorem comma_word (w : UInt32) : ',' ∉ (word w).toList := by
  rw [word, String.toList_append, List.mem_append, not_or]
  exact ⟨by decide, comma_fixed 8 w.toNat⟩

end Hex

end R3000
