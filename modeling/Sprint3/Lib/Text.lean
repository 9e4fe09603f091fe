/-
# Text in lines and fields

A text is a list of characters. Its `lines` are those that are ended; the
`fields` of a line are what stands between its blanks; a number is written in
`decimal` and read back by `readDecimal`.
-/
import Mathlib.Data.Nat.Notation
import Mathlib.Tactic.Basic

abbrev Text := List Char

namespace Text

/-! ### Lines -/

/-- A text as a line, ended. -/
def line (t : Text) : Text := t ++ ['\n']

/-- The ended lines of a text. -/
def lines (t : Text) : List Text := (t.splitOn '\n').dropLast

/-- Every line of the text is ended. -/
def Ended (t : Text) : Prop := t = [] ∨ ∃ u, t = line u

@[simp] theorem lines_nil : lines [] = [] := rfl

theorem ended_nil : Ended [] := .inl rfl

theorem ended_line (t : Text) : Ended (line t) := .inr ⟨t, rfl⟩

theorem Ended.append {t u : Text} (ht : Ended t) (hu : Ended u) : Ended (t ++ u) := by
  rcases hu with rfl | ⟨u, rfl⟩
  · rwa [List.append_nil]
  · exact .inr ⟨t ++ u, by simp [line]⟩

theorem ended_flatMap {α : Type*} {f : α → Text} (hf : ∀ a, Ended (f a)) (l : List α) :
    Ended (l.flatMap f) := by
  induction l with
  | nil => exact ended_nil
  | cons a l ih => exact (hf a).append ih

/-- The lines of a text continued after its last line. -/
theorem lines_append {t : Text} (ht : Ended t) (u : Text) : lines (t ++ u) = lines t ++ lines u := by
  rcases ht with rfl | ⟨t, rfl⟩
  · rfl
  · have hsplit : ∀ u : Text, lines (line t ++ u) = t.splitOn '\n' ++ lines u := fun u =>
      calc lines (line t ++ u)
          = ((t ++ '\n' :: u).splitOn '\n').dropLast := by
            rw [line, lines, List.append_assoc, List.singleton_append]
        _ = (t.splitOn '\n' ++ u.splitOn '\n').dropLast := by rw [List.splitOn_append_cons_self]
        _ = t.splitOn '\n' ++ lines u :=
            List.dropLast_append_of_ne_nil (List.splitOn_ne_nil _ _)
    have hnil : lines (line t) = t.splitOn '\n' := by
      simpa using hsplit []
    rw [hsplit, hnil]

theorem lines_line {t : Text} (ht : '\n' ∉ t) : lines (line t) = [t] := by
  rw [line, lines, List.splitOn_append_cons_self_of_not_mem ht]
  rfl

/-- Lines written one after the other read back. -/
theorem lines_flatMap_line {ls : List Text} (h : ∀ t ∈ ls, '\n' ∉ t) :
    lines (ls.flatMap line) = ls := by
  induction ls with
  | nil => rfl
  | cons t ls ih =>
    calc lines ((t :: ls).flatMap line)
        = lines (line t) ++ lines (ls.flatMap line) := lines_append (ended_line t) _
      _ = [t] ++ ls := by
          rw [lines_line (h t List.mem_cons_self),
            ih fun u hu => h u (List.mem_cons_of_mem t hu)]

/-! ### Fields -/

/-- The fields of a line, split on single blanks. -/
def fields (t : Text) : List Text := t.splitOn ' '

theorem fields_cons {w : Text} (hw : ' ' ∉ w) (t : Text) :
    fields (w ++ ' ' :: t) = w :: fields t :=
  List.splitOn_append_cons_self_of_not_mem hw t

/-! ### Numbers -/

/-- A number in decimal. -/
def decimal (n : ℕ) : Text := Nat.toDigits 10 n

/-- The number a field of decimal digits stands for. -/
def readDecimal (w : Text) : Option ℕ :=
  if w ≠ [] ∧ w.all Char.isDigit = true then some (Nat.ofDigitChars 10 w 0) else none

theorem isDigit_of_mem_decimal {n : ℕ} {c : Char} (hc : c ∈ decimal n) : c.isDigit = true :=
  Nat.isDigit_of_mem_toDigits (by decide) (by decide) hc

theorem not_mem_decimal {c : Char} (hc : c.isDigit = false) (n : ℕ) : c ∉ decimal n := fun h => by
  rw [isDigit_of_mem_decimal h] at hc
  cases hc

theorem newline_not_mem_decimal (n : ℕ) : '\n' ∉ decimal n := not_mem_decimal (by decide) n

theorem blank_not_mem_decimal (n : ℕ) : ' ' ∉ decimal n := not_mem_decimal (by decide) n

/-- A number in decimal reads back. -/
theorem readDecimal_decimal (n : ℕ) : readDecimal (decimal n) = some n := by
  have hdigits : (decimal n).all Char.isDigit = true :=
    List.all_eq_true.mpr fun _ => isDigit_of_mem_decimal
  rw [readDecimal, if_pos ⟨Nat.toDigits_ne_nil, hdigits⟩, decimal, Nat.ofDigitChars_ten_toDigits]

@[simp] theorem readDecimal_nil : readDecimal [] = none := rfl

theorem toNat_ofUInt8 (n : UInt8) : (Char.ofUInt8 n).toNat = n.toNat := by
  show n.toUInt32.toNat = n.toNat
  exact UInt8.toNat_toUInt32 n

/-- A character is no decimal of its own code. -/
theorem readDecimal_singleton (c : Char) : readDecimal [c] ≠ some c.toNat := by
  intro h
  unfold readDecimal at h
  split at h
  case isTrue hdigit =>
    have hdigit : c.isDigit = true := by simpa using hdigit
    have hcode : c.toNat - 48 = c.toNat := by
      simpa [Nat.ofDigitChars_cons] using Option.some.inj h
    have hrange : 48 ≤ c.toNat := by
      simp only [Char.isDigit, Bool.and_eq_true, decide_eq_true_eq] at hdigit
      exact hdigit.1
    omega
  case isFalse => cases h

end Text
