import Mathlib.Data.List.TakeWhile
import Mathlib.Data.Nat.Digits.Defs
import Mathlib.Order.Defs.Unbundled
import MetricLayer.Proofs.Outcome
import MetricLayer.Warehouse.Questions

/-!
# Dates and their texts

Dates are ordered, each in its place (`order_inj`). A date of a year of four digits
has a text of ten characters, which is read as the date (`read_text`), also where it
is the value of a partition column (`partitionDate_text`).
-/

namespace MetricLayer

namespace Date

/-! ## Order -/

theorem bounds (d : Date) : (1 ≤ d.month ∧ d.month ≤ 12) ∧ 1 ≤ d.day ∧ d.day ≤ 31 := by
  have hvalid := d.valid
  simp only [isDate, Bool.and_eq_true, decide_eq_true_eq] at hvalid
  refine ⟨⟨hvalid.1.1.1.2, hvalid.1.1.2⟩, hvalid.1.2, hvalid.2.trans ?_⟩
  rw [daysInMonth]
  split
  · split <;> omega
  · split <;> omega

theorem order_inj {a b : Date} (h : a.order = b.order) : a = b := by
  obtain ⟨year, month, day, valid⟩ := a
  obtain ⟨year', month', day', valid'⟩ := b
  have hb := bounds ⟨year, month, day, valid⟩
  have hb' := bounds ⟨year', month', day', valid'⟩
  simp only [order] at h hb hb'
  obtain ⟨rfl, rfl, rfl⟩ : year = year' ∧ month = month' ∧ day = day' := by omega
  rfl

/-- The date in a place of the order. -/
def ofOrder? (n : Int) : Option Date := ofFields? (n / 32 / 13) (n / 32 % 13).toNat (n % 32).toNat

theorem ofOrder?_order (d : Date) : ofOrder? d.order = some d := by
  have hbounds := d.bounds
  have hyear : d.order / 32 / 13 = d.year := by
    rw [order]
    omega
  have hmonth : (d.order / 32 % 13).toNat = d.month := by
    rw [order]
    omega
  have hday : (d.order % 32).toNat = d.day := by
    rw [order]
    omega
  rw [ofOrder?, hyear, hmonth, hday, ofFields?, dif_pos d.valid]

instance : IsStrictTotalOrder Date (· < ·) where
  irrefl d := Int.lt_irrefl d.order
  trans _ _ _ hab hbc := Int.lt_trans hab hbc
  trichotomous _ _ hab hba := order_inj (Int.le_antisymm (Int.not_lt.1 hba) (Int.not_lt.1 hab))

/-! ## Fields -/

theorem toList_padded (width n : Nat) : (padded width n).toList =
    List.replicate (width - (Nat.toDigits 10 n).length) '0' ++ Nat.toDigits 10 n := by
  have hdigits : (toString n).toList = Nat.toDigits 10 n := Nat.toList_repr
  rw [padded, String.toList_append, String.toList_ofList, hdigits, ← String.length_toList, hdigits]

theorem isDigit_of_mem_padded {width n : Nat} {c : Char} (h : c ∈ (padded width n).toList) :
    c.isDigit = true := by
  rw [toList_padded, List.mem_append] at h
  rcases h with h | h
  · rw [List.eq_of_mem_replicate h]
    rfl
  · exact Nat.isDigit_of_mem_toDigits (by decide) (by decide) h

theorem exists_padded_eq_cons (width n : Nat) :
    ∃ c cs, (padded width n).toList = c :: cs ∧ c.isDigit = true := by
  have hne : (padded width n).toList ≠ [] := by
    rw [toList_padded]
    exact List.append_ne_nil_of_right_ne_nil _ Nat.toDigits_ne_nil
  obtain ⟨c, cs, hcs⟩ := List.exists_cons_of_ne_nil hne
  exact ⟨c, cs, hcs, isDigit_of_mem_padded (hcs ▸ List.mem_cons_self)⟩

/-- A date is written with digits and signs. -/
theorem isDigit_or_sign_of_mem_text {d : Date} {c : Char} (h : c ∈ d.text.toList) :
    c.isDigit = true ∨ c = '-' ∨ c = '+' := by
  have hpadded {width n : Nat} (h : c ∈ (padded width n).toList) :
      c.isDigit = true ∨ c = '-' ∨ c = '+' :=
    .inl (isDigit_of_mem_padded h)
  have hdash (h : c ∈ "-".toList) : c.isDigit = true ∨ c = '-' ∨ c = '+' :=
    .inr (.inl (List.mem_singleton.1 h))
  have hyear (h : c ∈ (yearText d.year).toList) : c.isDigit = true ∨ c = '-' ∨ c = '+' := by
    rw [yearText] at h
    split at h
    · exact hpadded h
    · rw [String.toList_append, List.mem_append] at h
      refine h.elim (fun h => ?_) hpadded
      split at h
      · exact hdash h
      · exact .inr (.inr (List.mem_singleton.1 h))
  simp only [text, String.toList_append, List.mem_append] at h
  obtain (((h | h) | h) | h) | h := h
  · exact hyear h
  · exact hdash h
  · exact hpadded h
  · exact hdash h
  · exact hpadded h

variable {width n : Nat}

theorem length_padded (hwidth : 0 < width) (h : n < 10 ^ width) :
    (padded width n).toList.length = width := by
  have hle := Nat.toDigits_length 10 n width hwidth h
  rw [toList_padded, List.length_append, List.length_replicate]
  omega

/-- As many digits as the field is wide stand for the number. -/
theorem number_padded (hwidth : 0 < width) (h : n < 10 ^ width) (rest : List Char) :
    number width ((padded width n).toList ++ rest) = .ok (n, rest) := by
  have hlength := length_padded hwidth h
  have hvalue : (padded width n).toList.foldl (fun n c => 10 * n + (c.toNat - '0'.toNat)) 0 = n := by
    rw [← Nat.ofDigitChars_eq_foldl, toList_padded, Nat.ofDigitChars_append,
      Nat.ofDigitChars_replicate_zero, Nat.mul_zero, Nat.ofDigitChars_ten_toDigits]
  have htake : (((padded width n).toList ++ rest).take width).takeWhile Char.isDigit =
      (padded width n).toList := by
    rw [List.take_left' hlength]
    exact List.takeWhile_eq_self_iff.2 fun c hc => isDigit_of_mem_padded hc
  have hne : (padded width n).toList.isEmpty = false := by
    rw [List.isEmpty_eq_false_iff, ← List.length_pos_iff, hlength]
    exact hwidth
  rw [number, htake, hne, hvalue, hlength, List.drop_left' hlength]
  rfl

theorem trimStart_padded (width n : Nat) (rest : List Char) :
    Text.trimStart ((padded width n).toList ++ rest) = (padded width n).toList ++ rest := by
  obtain ⟨c, cs, hcs, hc⟩ := exists_padded_eq_cons width n
  have hblank : Text.isBlank c = false := by
    have hrange : 48 ≤ c.toNat ∧ c.toNat ≤ 57 := Char.isDigit_iff_toNat.1 hc
    simp only [Text.isBlank, Bool.or_eq_false_iff, Bool.and_eq_false_iff, decide_eq_false_iff_not,
      beq_eq_false_iff_ne]
    omega
  rw [hcs, List.cons_append, Text.trimStart, List.dropWhile_cons, hblank]
  rfl

theorem numberIn_padded {low high : Nat} (hwidth : 0 < width) (h : n < 10 ^ width) (hlow : low ≤ n)
    (hhigh : n ≤ high) (rest : List Char) :
    numberIn low high width ((padded width n).toList ++ rest) = .ok (n, rest) := by
  rw [numberIn, trimStart_padded, number_padded hwidth h]
  simp [bind, Except.bind, hlow, hhigh]

theorem yearIn_padded (h : n < 10 ^ 4) (rest : List Char) :
    yearIn ((padded 4 n).toList ++ rest) = .ok ((n : Int), rest) := by
  have hsigned : signedYear ((padded 4 n).toList ++ rest) = .ok ((n : Int), rest) := by
    have hnumber := number_padded (by decide) h rest
    obtain ⟨c, cs, hcs, hc⟩ := exists_padded_eq_cons 4 n
    rw [hcs, List.cons_append] at hnumber ⊢
    -- a digit is no sign
    unfold signedYear
    split
    · rename_i heq
      rw [(List.cons.inj heq).1] at hc
      cases hc
    · rename_i heq
      rw [(List.cons.inj heq).1] at hc
      cases hc
    · rw [hnumber]
      rfl
  have hlow : Int32.minValue.toInt ≤ (n : Int) := by
    have hmin : Int32.minValue.toInt ≤ 0 := by decide
    omega
  have hhigh : (n : Int) ≤ Int32.maxValue.toInt := by
    have hmax : 10000 ≤ Int32.maxValue.toInt := by decide
    omega
  rw [yearIn, trimStart_padded, hsigned]
  simp [bind, Except.bind, hhigh]

/-! ## Texts -/

/-- The year is written with four digits. -/
def HasPlainYear (d : Date) : Prop := 0 ≤ d.year ∧ d.year ≤ 9999

instance (d : Date) : Decidable d.HasPlainYear :=
  inferInstanceAs (Decidable (0 ≤ d.year ∧ d.year ≤ 9999))

theorem toList_text {d : Date} (h : d.HasPlainYear) : d.text.toList =
    (padded 4 d.year.toNat).toList ++ '-' ::
      ((padded 2 d.month).toList ++ '-' :: (padded 2 d.day).toList) := by
  have hyear : (decide (0 ≤ d.year) && decide (d.year ≤ 9999)) = true := by
    simp [h.1, h.2]
  rw [text, yearText, if_pos hyear]
  simp

theorem read_text {d : Date} (h : d.HasPlainYear) : read d.text.toList = .ok d := by
  have hvalid := d.valid
  have hbounds := d.bounds
  obtain ⟨hlow, hhigh⟩ := h
  have hyear : ((d.year.toNat : Nat) : Int) = d.year := Int.toNat_of_nonneg hlow
  have hday : numberIn 1 31 2 ((padded 2 d.day).toList ++ []) = .ok (d.day, []) :=
    numberIn_padded (by decide) (by omega) (by omega) (by omega) []
  rw [List.append_nil] at hday
  rw [toList_text ⟨hlow, hhigh⟩, read, yearIn_padded (by omega), hyear]
  simp only [bind, Except.bind, literal, beq_self_eq_true, if_true]
  rw [numberIn_padded (by decide) (by omega) (by omega) (by omega)]
  simp only [beq_self_eq_true, if_true]
  rw [hday]
  simp [ofFields?, hvalid]

theorem takeBytes?_of_utf8Size {cs : List Char} (h : ∀ c ∈ cs, c.utf8Size = 1) :
    Text.takeBytes? cs.length cs = some cs := by
  induction cs with
  | nil => rw [List.length_nil, Text.takeBytes?]
  | cons c cs ih =>
    have hc := h c List.mem_cons_self
    rw [List.length_cons, Text.takeBytes?, hc, if_pos (by omega), Nat.add_sub_cancel,
      ih fun d hd => h d (List.mem_cons_of_mem c hd)]
    rfl

/-- The text has ten characters, and no more are read. -/
theorem partitionDate_text {d : Date} (h : d.HasPlainYear) : partitionDate d.text = .ok d := by
  have hbounds := d.bounds
  have hlength : d.text.toList.length = 10 := by
    have hyear := h.2
    rw [toList_text h]
    simp only [List.length_append, List.length_cons]
    rw [length_padded (by decide) (by omega), length_padded (by decide) (by omega),
      length_padded (by decide) (by omega)]
  have hascii : ∀ c ∈ d.text.toList, c.utf8Size = 1 := by
    have hdigit {width n : Nat} {c : Char} (hc : c ∈ (padded width n).toList) : c.utf8Size = 1 := by
      have hrange : 48 ≤ c.toNat ∧ c.toNat ≤ 57 :=
        Char.isDigit_iff_toNat.1 (isDigit_of_mem_padded hc)
      exact Char.utf8Size_eq_one_iff.2 (show c.toNat ≤ 127 by omega)
    intro c hc
    rw [toList_text h, List.mem_append, List.mem_cons, List.mem_append, List.mem_cons] at hc
    rcases hc with hc | rfl | hc | rfl | hc
    · exact hdigit hc
    · rfl
    · exact hdigit hc
    · rfl
    · exact hdigit hc
  have htake := takeBytes?_of_utf8Size hascii
  rw [hlength] at htake
  rw [partitionDate, htake, Option.getD_some, read_text h]
  rfl

end Date

end MetricLayer
