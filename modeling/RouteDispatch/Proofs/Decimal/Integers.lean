import RouteDispatch.Decimal.Reader
import RouteDispatch.Json.Text
import Mathlib.Data.List.TakeWhile

/-!
# Integers written and read

The text of an integer is read back as that integer.  It holds nothing but digits and a minus sign,
so it is not mistaken for a word; and read as a double it gives the double nearest to the integer.
-/

namespace RouteDispatch
namespace Decimal

variable {c : Char} {cs : List Char}

/-! ## Digits -/

theorem isDigit_iff : isDigit c = true ↔ 48 ≤ c.toNat ∧ c.toNat ≤ 57 := by
  unfold isDigit
  rw [Bool.and_eq_true, decide_eq_true_eq, decide_eq_true_eq]
  rfl

theorem isDigit_of_mem_toDigits {n : Nat} (h : c ∈ Nat.toDigits 10 n) : isDigit c = true :=
  Nat.isDigit_of_mem_toDigits (by decide) (by decide) h

theorem ofDigits_toDigits (n : Nat) : ofDigits (Nat.toDigits 10 n) = n :=
  Nat.ofDigitChars_ten_toDigits

theorem isEmpty_toDigits (n : Nat) : (Nat.toDigits 10 n).isEmpty = false :=
  List.isEmpty_eq_false_iff.mpr Nat.toDigits_ne_nil

theorem natural?_toDigits (n : Nat) : natural? (Nat.toDigits 10 n) = some n := by
  have hdigits : (Nat.toDigits 10 n).all isDigit = true :=
    List.all_eq_true.mpr fun c hc => isDigit_of_mem_toDigits hc
  rw [natural?, isEmpty_toDigits, hdigits, ofDigits_toDigits]
  rfl

theorem takeSign_of_isDigit (h : isDigit c = true) : takeSign (c :: cs) = (false, c :: cs) := by
  unfold takeSign
  split
  next heq =>
    obtain ⟨rfl, -⟩ := List.cons.inj heq
    cases h
  next heq =>
    obtain ⟨rfl, -⟩ := List.cons.inj heq
    cases h
  · rfl

/-! ## Texts of signs and digits -/

/-- A digit or a minus sign. -/
def IsSignOrDigit (c : Char) : Prop :=
  c = '-' ∨ isDigit c = true

instance (c : Char) : Decidable (IsSignOrDigit c) :=
  inferInstanceAs (Decidable (_ ∨ _))

theorem IsSignOrDigit.toNat (h : IsSignOrDigit c) : c.toNat = 45 ∨ 48 ≤ c.toNat ∧ c.toNat ≤ 57 := by
  rcases h with rfl | hdigit
  · exact .inl rfl
  · exact .inr (isDigit_iff.mp hdigit)

/-- Neither digits nor the sign are capitals. -/
theorem IsSignOrDigit.toLower (h : IsSignOrDigit c) : c.toLower = c := by
  have hcode := h.toNat
  unfold Char.toLower
  rw [dif_neg]
  rintro ⟨hcapital, -⟩
  have hbound : 65 ≤ c.toNat := hcapital
  omega

/-- In whatever case, such a text is no word. -/
theorem lowerAscii_ne_of_isSignOrDigit
    (h : ∀ c ∈ cs, IsSignOrDigit c) {word : List Char} (letter : Char) (hletter : letter ∈ word)
    (hother : ¬ IsSignOrDigit letter) : lowerAscii cs ≠ word := by
  have hlower : lowerAscii cs = cs :=
    (List.map_congr_left fun c hc => (h c hc).toLower).trans (List.map_id' cs)
  rw [hlower]
  rintro rfl
  exact hother (h letter hletter)

/-! ## Integers -/

theorem toList_integerText (n : Int) :
    (Json.integerText n).toList = (if n < 0 then ['-'] else []) ++ Nat.toDigits 10 n.natAbs :=
  String.toList_ofList

theorem isSignOrDigit_of_mem_integerText {n : Int} (h : c ∈ (Json.integerText n).toList) :
    IsSignOrDigit c := by
  rw [toList_integerText] at h
  rcases List.mem_append.mp h with hsign | hdigit
  · by_cases hn : n < 0
    · rw [if_pos hn] at hsign
      exact .inl (List.mem_singleton.mp hsign)
    · rw [if_neg hn] at hsign
      cases hsign
  · exact .inr (isDigit_of_mem_toDigits hdigit)

theorem takeSign_integerText (n : Int) :
    takeSign (Json.integerText n).toList = (decide (n < 0), Nat.toDigits 10 n.natAbs) := by
  rw [toList_integerText]
  by_cases hn : n < 0
  · rw [if_pos hn, decide_eq_true hn]
    rfl
  · rw [if_neg hn, decide_eq_false hn, List.nil_append]
    obtain ⟨first, rest, hdigits⟩ :=
      List.exists_cons_of_ne_nil (Nat.toDigits_ne_nil (n := n.natAbs) (b := 10))
    have hfirst : isDigit first = true :=
      isDigit_of_mem_toDigits (n := n.natAbs) (hdigits ▸ List.mem_cons_self)
    rw [hdigits, takeSign_of_isDigit hfirst]

/-- The text of an integer is read back. -/
theorem integer?_integerText (n : Int) : integer? (Json.integerText n).toList = some n := by
  have hvalue : (if decide (n < 0) = true then -(n.natAbs : Int) else n.natAbs) = n := by
    simp only [decide_eq_true_eq]
    split <;> omega
  rw [integer?, takeSign_integerText]
  simp only [natural?_toDigits]
  exact congrArg some hvalue

theorem integerIn?_integerText (low high n : Int) :
    integerIn? low high (Json.integerText n).toList =
      if low ≤ n ∧ n ≤ high then some n else none := by
  rw [integerIn?, integer?_integerText]

/-! ## Integers as doubles -/

theorem unsigned?_toDigits (negative : Bool) (n : Nat) :
    unsigned? negative (Nat.toDigits 10 n) = some (scaled negative n 0) := by
  have htake : (Nat.toDigits 10 n).takeWhile isDigit = Nat.toDigits 10 n :=
    List.takeWhile_eq_self_iff.mpr fun c hc => isDigit_of_mem_toDigits hc
  have hdrop : (Nat.toDigits 10 n).dropWhile isDigit = [] :=
    List.dropWhile_eq_nil_iff.mpr fun c hc => isDigit_of_mem_toDigits hc
  simp only [unsigned?, htake, hdrop, isEmpty_toDigits, Bool.false_and, exponentPart?,
    List.append_nil, ofDigits_toDigits, Option.map_some, List.length_nil]
  rfl

/-- A number of one word is far from the bounds beyond which its size alone counts. -/
theorem scaled_zero {n : Nat} (h : n < UInt64.size) (negative : Bool) :
    scaled negative n 0 = Double.ofRatio negative n 1 := by
  by_cases hzero : n = 0
  · unfold scaled Double.ofRatio
    rw [if_pos hzero, if_pos hzero]
  · unfold UInt64.size at h
    have hlog : Nat.log2 n < 64 := (Nat.log2_lt hzero).mpr (by omega)
    unfold scaled
    rw [if_neg hzero, if_neg (by omega), if_neg (by omega)]
    change Double.ofRatio negative (n * 1) 1 = _
    rw [Nat.mul_one]

/-- Read as a double, the text of an integer of one word gives the integer as a double. -/
theorem double?_integerText {n : Int} (h : n.natAbs < UInt64.size) :
    double? (Json.integerText n).toList = some (Double.ofInt n) := by
  have hdigits : ∀ c ∈ Nat.toDigits 10 n.natAbs, IsSignOrDigit c := fun c hc =>
    .inr (isDigit_of_mem_toDigits hc)
  have hnan : lowerAscii (Nat.toDigits 10 n.natAbs) ≠ "nan".toList :=
    lowerAscii_ne_of_isSignOrDigit hdigits 'n' (by decide) (by decide)
  have hinf : lowerAscii (Nat.toDigits 10 n.natAbs) ≠ "inf".toList :=
    lowerAscii_ne_of_isSignOrDigit hdigits 'n' (by decide) (by decide)
  have hinfinity : lowerAscii (Nat.toDigits 10 n.natAbs) ≠ "infinity".toList :=
    lowerAscii_ne_of_isSignOrDigit hdigits 'n' (by decide) (by decide)
  rw [double?, takeSign_integerText]
  simp only [if_neg hnan, hinf, hinfinity, or_self, if_false, unsigned?_toDigits, scaled_zero h]
  rfl

end Decimal
end RouteDispatch
