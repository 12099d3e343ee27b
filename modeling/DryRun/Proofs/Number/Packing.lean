import DryRun.Number.Double
import Mathlib

/-!
# The bits of doubles

A finite double that is not zero is a sign, a mantissa `m` and an exponent `q`, and the bits of
its word hold the three in fields of their own. Not every pair `(m, q)` can be held:
`Double.Canonical` says which. A normal double has a mantissa of 53 bits, of which the word
leaves out the first; a subnormal one has fewer, and the least exponent.

## Main results

* `Double.canonical_of_unpack`: what a word holds is canonical.
* `Double.unpack_pack`: a canonical pair is held without loss.
* `Double.pack_unpack`: a double is determined by what its word holds.
-/

namespace DryRun.Double

open Float.Model (UnpackedFloat Format)
open Float.Model.UnpackedFloat

/-- The pairs `(m, q)` that are the mantissa and the exponent of a double. -/
structure Canonical (m : Nat) (q : Int) : Prop where
  pos : 0 < m
  lt : m < 2 ^ 53
  le_exponent : -1074 ≤ q
  exponent_le : q ≤ 971
  normal_or_subnormal : 2 ^ 52 ≤ m ∨ q = -1074

/-! ### The fields of a word -/

/-- The exponent field of a word. -/
def exponentField (b : BitVec Format.binary64.numBits) : BitVec 11 :=
  @unpackExponent Format.binary64 b

/-- The mantissa field of a word. -/
def mantissaField (b : BitVec Format.binary64.numBits) : BitVec 52 :=
  @unpackMantissa Format.binary64 b

/-- The sign that a word holds. -/
def signField (b : BitVec Format.binary64.numBits) : Sign :=
  Sign.ofBitVec (@unpackSign Format.binary64 b)

/-- The sign that was put into a word. -/
theorem signField_packComponents (s : Sign) (e : BitVec 11) (v : BitVec 52) :
    signField (packComponents Format.binary64 s e v) = s := by
  rw [signField, unpackSign_packComponents, Sign.ofBitVec_toBitVec]

/-- The exponent that was put into a word. -/
theorem exponentField_packComponents (s : Sign) (e : BitVec 11) (v : BitVec 52) :
    exponentField (packComponents Format.binary64 s e v) = e :=
  unpackExponent_packComponents

/-- The mantissa that was put into a word. -/
theorem mantissaField_packComponents (s : Sign) (e : BitVec 11) (v : BitVec 52) :
    mantissaField (packComponents Format.binary64 s e v) = v :=
  unpackMantissa_packComponents

/-! ### Reading a word -/

/-- The first bit of a normal mantissa, which the word leaves out. -/
theorem toNat_append_one (v : BitVec 52) : (1#1 ++ v).toNat = 2 ^ 52 + v.toNat := by
  rw [BitVec.toNat_append, ← Nat.shiftLeft_add_eq_or_of_lt v.isLt]
  rfl

/-- How a word is read. -/
theorem unpack_eq (b : BitVec Format.binary64.numBits) :
    UnpackedFloat.unpack Format.binary64 b =
      if (exponentField b).toNat = 2047 then
        if (mantissaField b).toNat = 0 then .infinity (signField b) else .notANumber
      else if (exponentField b).toNat = 0 then
        if h : (mantissaField b).toNat = 0 then .zero (signField b)
        else .finite (signField b) (mantissaField b).toNat (-1074) (Nat.pos_of_ne_zero h)
      else .finite (signField b) (2 ^ 52 + (mantissaField b).toNat)
        ((exponentField b).toNat - 1075) (by omega) := by
  change (if exponentField b = -1#11 then
      if mantissaField b = 0#52 then UnpackedFloat.infinity (signField b) else .notANumber
    else if exponentField b = 0#11 then
      if h : mantissaField b = 0#52 then .zero (signField b)
      else .finite (signField b) (mantissaField b).toNat
        ((exponentField b).toNat - (1023 + 52) + 1) _
    else .finite (signField b) (1#1 ++ mantissaField b).toNat
      ((exponentField b).toNat - (1023 + 52)) _) = _
  have hones : exponentField b = -1#11 ↔ (exponentField b).toNat = 2047 := BitVec.toNat_inj.symm
  have hzero : exponentField b = 0#11 ↔ (exponentField b).toNat = 0 := BitVec.toNat_inj.symm
  have hmantissa : mantissaField b = 0#52 ↔ (mantissaField b).toNat = 0 := BitVec.toNat_inj.symm
  simp only [hones, hzero, hmantissa, toNat_append_one]
  split
  · rfl
  · split
    · next hexponent => simp only [hexponent]; rfl
    · rfl

/-- What the fields of a word hold if it is a finite double other than zero. -/
theorem unpack_eq_finite_iff {b : BitVec Format.binary64.numBits} {s : Sign} {m : Nat} {q : Int}
    {hm : 0 < m} :
    UnpackedFloat.unpack Format.binary64 b = .finite s m q hm ↔ signField b = s ∧
      ((exponentField b).toNat = 0 ∧ (mantissaField b).toNat = m ∧ q = -1074 ∨
        (exponentField b).toNat ≠ 0 ∧ (exponentField b).toNat ≠ 2047 ∧
          2 ^ 52 + (mantissaField b).toNat = m ∧ q = (exponentField b).toNat - 1075) := by
  rw [unpack_eq]
  split
  · split <;> grind
  · split
    · split <;> grind
    · grind

/-- **What a word holds is canonical.** -/
theorem canonical_of_unpack {x : Float.Model} {s : Sign} {m : Nat} {q : Int} {hm : 0 < m}
    (h : x.unpack = .finite s m q hm) : Canonical m q := by
  have hmantissa := (mantissaField x.toBits.toBitVec).isLt
  have hexponent := (exponentField x.toBits.toBitVec).isLt
  obtain ⟨-, ⟨-, rfl, rfl⟩ | ⟨hzero, hones, rfl, rfl⟩⟩ := unpack_eq_finite_iff.mp h
  · exact ⟨hm, by omega, by omega, by omega, .inr rfl⟩
  · exact ⟨hm, by omega, by omega, by omega, .inl (by omega)⟩

/-! ### Writing a word -/

/-- A normal mantissa has 53 bits. -/
theorem log2_of_normal {m : Nat} (hle : 2 ^ 52 ≤ m) (hlt : m < 2 ^ 53) : m.log2 = 52 :=
  (Nat.log2_eq_iff (by omega)).mpr ⟨hle, hlt⟩

/-- A normal double is written with its exponent above the least one. -/
theorem pack_normal (s : Sign) {m e : Nat} (hm : 0 < m) (hle : 2 ^ 52 ≤ m) (hlt : m < 2 ^ 53)
    (he : e < 2047) :
    UnpackedFloat.pack Format.binary64 (.finite s m (e - 1075) hm) =
      packComponents Format.binary64 s (BitVec.ofNat 11 e) (BitVec.ofNat 52 m) := by
  change (if 2 ^ 11 ≤ ((e : Int) - 1075 + (1023 : Nat) + (52 : Nat)).toNat + 1 then _
    else if m.log2 + 1 = 53 then packComponents Format.binary64 s
      (BitVec.ofNat 11 ((e : Int) - 1075 + (1023 : Nat) + (52 : Nat)).toNat) _ else _) = _
  have hfield : ((e : Int) - 1075 + (1023 : Nat) + (52 : Nat)).toNat = e := by omega
  rw [hfield, if_neg (by omega), if_pos (by rw [log2_of_normal hle hlt])]

/-- A subnormal double is written with an exponent field of zero. -/
theorem pack_subnormal (s : Sign) {m : Nat} (hm : 0 < m) (hlt : m < 2 ^ 52) :
    UnpackedFloat.pack Format.binary64 (.finite s m (-1074) hm) =
      packComponents Format.binary64 s 0#11 (BitVec.ofNat 52 m) := by
  have hlog : m.log2 < 52 := (Nat.log2_lt hm.ne').mpr hlt
  exact if_neg (show ¬ m.log2 + 1 = 53 by omega)

/-- **A double is determined by what its word holds.** -/
theorem pack_unpack (x : Float.Model) : Float.Model.pack x.unpack = x := by
  obtain ⟨⟨bits⟩, valid⟩ := x
  have hbits : UnpackedFloat.pack Format.binary64 (UnpackedFloat.unpack Format.binary64 bits) =
      bits := pack_unpack_of_valid valid
  simp only [Float.Model.pack, Float.Model.unpack, hbits]

/-- **A canonical pair is held without loss.** -/
theorem unpack_pack (s : Sign) {m : Nat} {q : Int} (h : Canonical m q) :
    (Float.Model.pack (.finite s m q h.pos)).unpack = .finite s m q h.pos := by
  have hlt := h.lt
  have hle := h.le_exponent
  have hmax := h.exponent_le
  change UnpackedFloat.unpack Format.binary64 (UnpackedFloat.pack Format.binary64 _) = _
  rw [unpack_eq_finite_iff]
  by_cases hsub : m < 2 ^ 52
  · obtain rfl : q = -1074 := h.normal_or_subnormal.resolve_left (by omega)
    rw [pack_subnormal s h.pos hsub, signField_packComponents, exponentField_packComponents,
      mantissaField_packComponents]
    exact ⟨rfl, .inl ⟨rfl, Nat.mod_eq_of_lt hsub, rfl⟩⟩
  · obtain ⟨e, rfl⟩ : ∃ e : Nat, q = e - 1075 := ⟨(q + 1075).toNat, by omega⟩
    rw [pack_normal s h.pos (Nat.not_lt.mp hsub) hlt (by omega), signField_packComponents,
      exponentField_packComponents, mantissaField_packComponents, BitVec.toNat_ofNat,
      BitVec.toNat_ofNat]
    refine ⟨rfl, .inr ⟨?_, ?_, ?_, ?_⟩⟩ <;> omega

end DryRun.Double
