import DryRun.Json.Reader
import DryRun.Proofs.Spelling

/-!
# Reading numbers that were written as JSON

A number is written in one of three layouts, positional as a whole number or with a fraction, or
scientific, and an integer in digits alone. The reader wants a digit before the point and no zero
in front of another digit. This module shows that it reads each layout, and as which number.

That is not always the decimal that was written. A whole number has a zero behind its point, and
the zero is read as a digit: `1000.0` is `10000 · 10 ^ -1`. So a decimal is read as one of the same
sign and value, `Decimal.reread`. A zero has to be written without an exponent, or it would have a
zero in front of it (`Decimal.IsNormal`).

The reader takes as much as it can, so a number is found as it was written if what follows cannot
go on with it (`Json.EndsNumber`).

## Main results

* `Json.readNumber_whole`, `Json.readNumber_pointed`, `Json.readNumber_scientific`,
  `Json.readNumber_integer`: the layouts one by one.
* `Json.readNumber_chars`: a written number is read as a number of the same value.
-/

namespace DryRun

open Scan (NumberText)

/-! ### Digits -/

namespace Decimal

/-- The digits of a number start with a zero only if it is zero. -/
theorem eq_zero_of_head?_digits {n : Nat} (h : (digits n).head? = some '0') : n = 0 := by
  induction n using Nat.strongRecOn with
  | ind n ih =>
      rcases Nat.lt_or_ge n 10 with hlt | hge
      · rw [digits, Nat.toDigits_of_lt_base hlt] at h
        simpa using h
      · rw [digits, Nat.toDigits_of_base_le (by decide) hge,
          List.head?_append_of_ne_nil _ Nat.toDigits_ne_nil] at h
        have := ih (n / 10) (by omega) h
        omega

/-- A run of digits is read as a whole if no digit follows. -/
theorem scanDigits_append {ds rest : List Char} (hds : ds.all Char.isDigit)
    (hrest : ∀ c ∈ rest.head?, c.isDigit = false) : scanDigits (ds ++ rest) = (ds, rest) := by
  obtain ⟨htake, hdrop⟩ := Scan.takeWhile_dropWhile_append (List.all_eq_true.mp hds) hrest
  rw [scanDigits, htake, hdrop]

/-- An exponent is read as it was written. -/
theorem scanExponent_exponentText (e : Int) {rest : List Char}
    (hrest : ∀ c ∈ rest.head?, c.isDigit = false) :
    scanExponent (exponentText e ++ rest) = some (e, rest) := by
  have hdigits : scanDigits (digits e.natAbs ++ rest) = (digits e.natAbs, rest) :=
    scanDigits_append (all_isDigit_digits _) hrest
  have hne : digits e.natAbs ≠ [] := Nat.toDigits_ne_nil
  have hvalue : Nat.ofDigitChars 10 (digits e.natAbs) 0 = e.natAbs := Nat.ofDigitChars_ten_toDigits
  rcases Int.lt_or_le e 0 with he | he
  · simp only [exponentText, if_pos he, List.cons_append, scanExponent, scanSign, hdigits,
      if_neg hne, hvalue, true_or, if_true]
    congr 2
    omega
  · simp only [exponentText, if_neg (Int.not_lt.mpr he), List.cons_append, scanExponent, scanSign,
      hdigits, if_neg hne, hvalue, true_or, if_true]
    congr 2
    simp only [Bool.false_eq_true, if_false]
    omega

/-- A decimal is written with a digit behind its sign. -/
theorem exists_json_eq (d : Decimal) :
    ∃ c cs, c.isDigit ∧ d.json = signText d.negative ++ c :: cs := by
  obtain ⟨c, cs, hdigits⟩ := List.exists_cons_of_ne_nil
    (Nat.toDigits_ne_nil (n := d.significand) (b := 10))
  have hall := List.all_eq_true.mp (all_isDigit_digits d.significand)
  have hc : c.isDigit := hall c (by rw [digits, hdigits]; exact List.mem_cons_self)
  rw [json]
  split
  · split
    · exact ⟨c, _, hc, by rw [digits, hdigits]; rfl⟩
    · obtain ⟨whole, fraction, hpointed, hne, -, happend, -⟩ :=
        pointed_eq (digits d.significand) (-d.exponent).toNat
      obtain ⟨w, ws, rfl⟩ := List.exists_cons_of_ne_nil hne
      refine ⟨w, _, ?_, congrArg (signText d.negative ++ ·) hpointed⟩
      have hmem : w ∈ w :: ws ++ fraction := List.mem_cons_self
      rw [happend, List.mem_append] at hmem
      rcases hmem with hzero | hdigit
      · rw [List.eq_of_mem_replicate hzero]
        rfl
      · exact hall w hdigit
  · exact ⟨c, _, hc, by rw [digits, hdigits]; rfl⟩

/-- Whether a zero is written without an exponent. Only such decimals name numbers. -/
def IsNormal (d : Decimal) : Prop := d.significand = 0 → d.exponent = 0

/-- A normalized decimal names a number: if it is zero, it has lost its exponent. -/
theorem isNormal_normalize (d : Decimal) : d.normalize.IsNormal := by
  intro hzero
  have hvalue : d.absValue = 0 := by
    rw [← absValue_normalize, absValue, hzero, Nat.cast_zero, zero_mul]
  have hsignificand : d.significand = 0 := by
    exact_mod_cast (mul_eq_zero_iff_right (by positivity)).mp hvalue
  rw [normalize, if_pos hsignificand]

/-- The decimal that is read where a decimal was written: a whole number is written with one
zero behind its point, and then this zero is a digit of it. -/
def reread (d : Decimal) : Decimal :=
  if (-5 ≤ d.magnitude ∧ d.magnitude < 16) ∧ 0 ≤ d.exponent then
    ⟨d.negative, d.significand * 10 ^ (d.exponent.toNat + 1), -1⟩
  else d

/-- A decimal keeps its sign when it is read again. -/
theorem negative_reread (d : Decimal) : d.reread.negative = d.negative := by
  rw [reread]
  split <;> rfl

/-- A decimal keeps its value when it is read again. -/
theorem absValue_reread (d : Decimal) : d.reread.absValue = d.absValue := by
  rw [reread]
  split
  · next h =>
      obtain ⟨k, hk⟩ := Int.eq_ofNat_of_zero_le h.2
      simp only [absValue, hk, Int.toNat_natCast, zpow_natCast, zpow_neg, zpow_one, pow_succ]
      push_cast
      ring
  · rfl

end Decimal

namespace Json

/-! ### Numbers -/

/-- Whether a text goes on with something that is not part of a number. -/
def EndsNumber (cs : List Char) : Prop :=
  ∀ c ∈ cs.head?, c.isDigit = false ∧ c ≠ '.' ∧ c ≠ 'e' ∧ c ≠ 'E'

/-- A number without an exponent is read as one where it ends. -/
theorem EndsNumber.scanExponent {rest : List Char} (h : EndsNumber rest) :
    Decimal.scanExponent rest = some (0, rest) ∧ startsExponent rest = false := by
  cases rest with
  | nil => exact ⟨rfl, rfl⟩
  | cons c cs =>
      obtain ⟨-, -, he, hE⟩ := h c rfl
      simp [Decimal.scanExponent, startsExponent, he, hE]

/-- Whether a number is spelled as the reader wants it: in digits, without a zero in front. -/
structure IsLegible (n : NumberText) : Prop where
  spelled : n.Spelled
  head : n.whole.head? = some '0' → n.whole.length = 1

/-- A whole part is read as it is written if it has no leading zero. -/
theorem readWhole_append {ds rest : List Char} (hne : ds ≠ []) (hds : ds.all Char.isDigit)
    (hhead : ds.head? = some '0' → ds.length = 1) (hrest : ∀ c ∈ rest.head?, c.isDigit = false) :
    readWhole (ds ++ rest) = some (ds, rest) := by
  rw [readWhole, Decimal.scanDigits_append hds hrest]
  split
  · next heq => exact absurd (congrArg Prod.fst heq) hne
  · next heq =>
      obtain ⟨rfl, -⟩ := Prod.mk.inj heq
      exact absurd (hhead rfl) (by simp)
  · rfl

/-- A fraction is read as it is written, and so is its absence. -/
theorem readFraction_append {ds rest : List Char} (hds : ds.all Char.isDigit)
    (hrest : ∀ c ∈ rest.head?, c.isDigit = false ∧ c ≠ '.') :
    readFraction ((if ds = [] then [] else '.' :: ds) ++ rest) = some (ds, rest) := by
  by_cases hpoint : ds = []
  · subst hpoint
    rw [if_pos rfl, List.nil_append, readFraction]
    rintro cs rfl
    exact (hrest '.' rfl).2 rfl
  · rw [if_neg hpoint, List.cons_append, readFraction,
      Decimal.scanDigits_append hds fun c hc => (hrest c hc).1, if_neg hpoint]

/-- A digit is no sign. -/
theorem readMinus_of_isDigit {c : Char} (h : c.isDigit) (cs : List Char) :
    readMinus (c :: cs) = (false, c :: cs) := by
  unfold readMinus
  split
  · next heq =>
      cases heq
      exact absurd h (by decide)
  · rfl

/-- The sign of a spelled number is read as it is written. -/
theorem readMinus_chars {n : NumberText} (h : n.Spelled) (rest : List Char) :
    readMinus (n.chars ++ rest) = (n.negative, n.unsignedChars ++ rest) := by
  obtain ⟨negative, whole, fraction⟩ := n
  cases negative with
  | true => rfl
  | false =>
      cases whole with
      | nil => exact absurd rfl h.whole_ne_nil
      | cons c cs =>
          have hdigit := h.whole
          rw [List.all_cons, Bool.and_eq_true] at hdigit
          exact readMinus_of_isDigit hdigit.1 _

/-- **A number is read as it is spelled**, up to where its exponent starts. -/
theorem readNumber_chars_append {n : NumberText} (h : IsLegible n) {tail rest : List Char} {e : Int}
    (htail : ∀ c ∈ tail.head?, c.isDigit = false ∧ c ≠ '.')
    (hexponent : Decimal.scanExponent tail = some (e, rest)) :
    readNumber (n.chars ++ tail) =
      let d := (Decimal.ofDigits n.negative n.whole n.fraction).shift e
      some (if n.fraction = [] ∧ startsExponent tail = false ∧
          ¬(n.negative = true ∧ d.significand = 0) then
        .integer (if n.negative then -(d.significand : Int) else d.significand)
      else .decimal d, rest) := by
  have hstop : ∀ c ∈ ((if n.fraction = [] then [] else '.' :: n.fraction) ++ tail).head?,
      c.isDigit = false := by
    intro c hc
    split at hc
    · exact (htail c hc).1
    · cases hc
      decide
  simp only [readNumber, readMinus_chars h.spelled, NumberText.unsignedChars, List.append_assoc,
    readWhole_append h.spelled.whole_ne_nil h.spelled.whole h.head hstop,
    readFraction_append h.spelled.fraction htail, hexponent, Option.bind_eq_bind, Option.bind_some,
    Option.pure_def]
  split <;> rfl

/-- A number with a fraction is read as its digits say. -/
theorem readNumber_of_fraction {n : NumberText} (h : IsLegible n) (hfraction : n.fraction ≠ [])
    {rest : List Char} (hrest : EndsNumber rest) :
    readNumber (n.chars ++ rest) =
      some (.decimal (Decimal.ofDigits n.negative n.whole n.fraction), rest) := by
  rw [readNumber_chars_append h (fun c hc => ⟨(hrest c hc).1, (hrest c hc).2.1⟩)
    hrest.scanExponent.1]
  simp only [hfraction, false_and, if_false, Decimal.shift, Int.add_zero]

/-- A number can be read if its whole part has no needless zeros. -/
theorem isLegible_whole (negative : Bool) {significand k : Nat} (hzero : significand = 0 → k = 0)
    {fraction : List Char} (hfraction : fraction.all Char.isDigit) :
    IsLegible ⟨negative, Decimal.digits significand ++ List.replicate k '0', fraction⟩ where
  spelled :=
    ⟨List.append_ne_nil_of_left_ne_nil Nat.toDigits_ne_nil _,
      by rw [List.all_append, Decimal.all_isDigit_digits, Decimal.all_isDigit_zeros]; rfl,
      hfraction⟩
  head := by
    intro hhead
    obtain rfl : significand = 0 := by
      refine Decimal.eq_zero_of_head?_digits (Eq.trans ?_ hhead)
      exact (List.head?_append_of_ne_nil _ Nat.toDigits_ne_nil).symm
    obtain rfl := hzero rfl
    rfl

/-- A whole number in the positional layout is read with the zero behind its point. -/
theorem readNumber_whole {d : Decimal} (hd : d.IsNormal)
    (h : (-5 ≤ d.magnitude ∧ d.magnitude < 16) ∧ 0 ≤ d.exponent)
    {rest : List Char} (hrest : EndsNumber rest) :
    readNumber (d.json ++ rest) = some (.decimal d.reread, rest) := by
  obtain ⟨negative, significand, exponent⟩ := d
  obtain ⟨k, rfl⟩ := Int.eq_ofNat_of_zero_le h.2
  have hlegible : IsLegible ⟨negative, Decimal.digits significand ++ List.replicate k '0', ['0']⟩ :=
    isLegible_whole negative (fun hzero => Int.natCast_eq_zero.mp (hd hzero)) rfl
  have hchars : Decimal.json ⟨negative, significand, k⟩ = NumberText.chars
      ⟨negative, Decimal.digits significand ++ List.replicate k '0', ['0']⟩ := by
    simp [Decimal.json, if_pos h.1, NumberText.chars, NumberText.unsignedChars]
  have hvalue : Nat.ofDigitChars 10
      (Decimal.digits significand ++ List.replicate k '0' ++ ['0']) 0 =
      significand * 10 ^ (k + 1) := by
    rw [Nat.ofDigitChars_append, Nat.ofDigitChars_append, Nat.ofDigitChars_replicate_zero,
      Decimal.digits, Nat.ofDigitChars_ten_toDigits, Nat.ofDigitChars_cons, Nat.ofDigitChars_nil,
      pow_succ]
    simp only [Nat.sub_self, Nat.add_zero]
    ring
  rw [hchars, readNumber_of_fraction hlegible (List.cons_ne_nil _ _) hrest, Decimal.reread,
    if_pos h, Decimal.ofDigits, hvalue]
  rfl

/-- A number with a fraction in the positional layout is read as it is. -/
theorem readNumber_pointed {d : Decimal} (h : -5 ≤ d.magnitude ∧ d.magnitude < 16)
    (hexponent : d.exponent < 0) {rest : List Char} (hrest : EndsNumber rest) :
    readNumber (d.json ++ rest) = some (.decimal d, rest) := by
  obtain ⟨n, hspelled, hchars, heq, hwhole⟩ := Decimal.numberText_pointed d hexponent
  have hlegible : IsLegible n := by
    refine ⟨hspelled, fun hhead => ?_⟩
    rcases hwhole with hone | ⟨tail, htail⟩
    · exact hone
    · have hzero : d.significand = 0 := by
        refine Decimal.eq_zero_of_head?_digits ?_
        rw [← htail, List.head?_append_of_ne_nil _ hspelled.whole_ne_nil, hhead]
      have hlength := congrArg List.length htail
      rw [hzero, List.length_append] at hlength
      have := List.length_pos_iff.mpr hspelled.whole_ne_nil
      change _ = 1 at hlength
      omega
  have hfraction : n.fraction ≠ [] := by
    intro hnil
    have hzero := congrArg Decimal.exponent heq
    rw [Decimal.ofDigits, hnil] at hzero
    change 0 = d.exponent at hzero
    omega
  have hjson : d.json = n.chars := by
    rw [hchars, Decimal.json, Decimal.plain, if_pos h]
    simp only [if_neg (Int.not_le.mpr hexponent)]
  rw [hjson, readNumber_of_fraction hlegible hfraction hrest, heq]

/-- A number in the scientific layout is read as it is. -/
theorem readNumber_scientific {d : Decimal} (h : ¬(-5 ≤ d.magnitude ∧ d.magnitude < 16))
    {rest : List Char} (hrest : EndsNumber rest) :
    readNumber (d.json ++ rest) = some (.decimal d, rest) := by
  obtain ⟨c, cs, hdigits⟩ := List.exists_cons_of_ne_nil
    (Nat.toDigits_ne_nil (n := d.significand) (b := 10))
  have hall : (c :: cs).all Char.isDigit := hdigits ▸ Decimal.all_isDigit_digits d.significand
  rw [List.all_cons, Bool.and_eq_true] at hall
  -- One digit stands before the point, whatever the exponent, and the magnitude makes up for it.
  have hlegible : IsLegible ⟨d.negative, [c], cs⟩ :=
    ⟨⟨List.cons_ne_nil _ _, by simpa using hall.1, hall.2⟩, fun _ => rfl⟩
  have hjson : d.json ++ rest =
      NumberText.chars ⟨d.negative, [c], cs⟩ ++ (Decimal.exponentText d.magnitude ++ rest) := by
    rw [Decimal.json, if_neg h]
    simp [Decimal.digits, hdigits, NumberText.chars, NumberText.unsignedChars]
  have hvalue : (Decimal.ofDigits d.negative [c] cs).shift d.magnitude = d := by
    have hsignificand : Nat.ofDigitChars 10 ([c] ++ cs) 0 = d.significand := by
      rw [List.singleton_append, ← hdigits, Nat.ofDigitChars_ten_toDigits]
    have hexponent : -(cs.length : Int) + d.magnitude = d.exponent := by
      rw [Decimal.magnitude, Decimal.digits, hdigits, List.length_cons]
      omega
    rw [Decimal.ofDigits, Decimal.shift, hsignificand, hexponent]
  have htail : ∀ c ∈ (Decimal.exponentText d.magnitude ++ rest).head?,
      c.isDigit = false ∧ c ≠ '.' := by
    intro c hc
    cases hc
    decide
  have hstarts : startsExponent (Decimal.exponentText d.magnitude ++ rest) = true := rfl
  rw [hjson, readNumber_chars_append hlegible htail
    (Decimal.scanExponent_exponentText d.magnitude fun c hc => (hrest c hc).1)]
  simp only [hvalue, hstarts, Bool.true_eq_false, false_and, and_false, if_false]

/-- An integer is read as it is. -/
theorem readNumber_integer (n : Int) {rest : List Char} (hrest : EndsNumber rest) :
    readNumber (integerText n ++ rest) = some (.integer n, rest) := by
  have hlegible : IsLegible ⟨n < 0, Decimal.digits n.natAbs ++ List.replicate 0 '0', []⟩ :=
    isLegible_whole _ (fun _ => rfl) rfl
  have hchars : integerText n =
      NumberText.chars ⟨n < 0, Decimal.digits n.natAbs ++ List.replicate 0 '0', []⟩ := by
    simp [integerText, NumberText.chars, NumberText.unsignedChars]
  have hvalue : Nat.ofDigitChars 10 (Decimal.digits n.natAbs ++ List.replicate 0 '0' ++ []) 0 =
      n.natAbs := by
    rw [List.replicate_zero, List.append_nil, List.append_nil, Decimal.digits,
      Nat.ofDigitChars_ten_toDigits]
  have hzero : ¬(n < 0 ∧ n.natAbs = 0) := by omega
  obtain ⟨hexponent, hstarts⟩ := hrest.scanExponent
  rw [hchars, readNumber_chars_append hlegible
    (fun c hc => ⟨(hrest c hc).1, (hrest c hc).2.1⟩) hexponent]
  simp only [Decimal.ofDigits, Decimal.shift, hvalue, hstarts, decide_eq_true_eq, hzero,
    not_false_eq_true, and_true, if_true]
  congr 3
  split <;> omega

/-- Whether a number is written so that it can be read. -/
def Number.IsNormal : Number → Prop
  | .integer _ => True
  | .decimal d => d.IsNormal

/-- The number that is read where a number was written. -/
def Number.reread : Number → Number
  | .integer n => .integer n
  | .decimal d => .decimal d.reread

/-- **A written number is read as a number of the same value.** -/
theorem readNumber_chars {n : Number} (hn : n.IsNormal) {rest : List Char}
    (hrest : EndsNumber rest) : readNumber (n.chars ++ rest) = some (n.reread, rest) := by
  cases n with
  | integer n => exact readNumber_integer n hrest
  | decimal d =>
      by_cases hmagnitude : -5 ≤ d.magnitude ∧ d.magnitude < 16
      · by_cases hexponent : 0 ≤ d.exponent
        · exact readNumber_whole hn ⟨hmagnitude, hexponent⟩ hrest
        · rw [Number.chars, readNumber_pointed hmagnitude (Int.not_le.mp hexponent) hrest,
            Number.reread, Decimal.reread, if_neg fun h => hexponent h.2]
      · rw [Number.chars, readNumber_scientific hmagnitude hrest, Number.reread, Decimal.reread,
          if_neg fun h => hmagnitude h.1]

/-- The text of a number starts with a digit or a minus sign. -/
theorem Number.exists_chars_eq (n : Number) :
    ∃ c cs, (c.isDigit ∨ c = '-') ∧ n.chars = c :: cs := by
  have hsigned (negative : Bool) {c : Char} (cs : List Char) (hc : c.isDigit) :
      ∃ b bs, (b.isDigit ∨ b = '-') ∧ Decimal.signText negative ++ c :: cs = b :: bs := by
    cases negative with
    | true => exact ⟨'-', _, .inr rfl, rfl⟩
    | false => exact ⟨c, cs, .inl hc, rfl⟩
  cases n with
  | integer n =>
      obtain ⟨c, cs, hdigits⟩ := List.exists_cons_of_ne_nil
        (Nat.toDigits_ne_nil (n := n.natAbs) (b := 10))
      have hc := List.all_eq_true.mp (Decimal.all_isDigit_digits n.natAbs) c
        (by rw [Decimal.digits, hdigits]; exact List.mem_cons_self)
      rw [chars, integerText, Decimal.digits, hdigits]
      exact hsigned _ cs hc
  | decimal d =>
      obtain ⟨c, cs, hc, hjson⟩ := d.exists_json_eq
      rw [chars, hjson]
      exact hsigned _ cs hc

end Json

end DryRun
