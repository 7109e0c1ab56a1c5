import Mathlib.Tactic
import Mathlib.Data.String.Basic
import Sahl.Core.EventChain
import Sahl.Lib.Numeral

/-! # Identifiers and digests in columns

    A column holds an identifier as hyphenated text and a digest as its bytes. The texts of
    identifiers compare as the identifiers do (`Uuid.toHyphenated_lt_iff`), so sorting a column
    sorts what it stands for; a digest reads back from its bytes. -/

namespace Sahl

/-! ## Section 1: Identifiers -/

theorem hexDigits_eq (width n : Nat) :
    Json.hexDigits width n = (Numeral.digits 16 width n).map Nat.digitChar := by
  induction width generalizing n with
  | zero => rfl
  | succ width ih => rw [Json.hexDigits, ih, Numeral.digits, List.map_append, List.map_singleton]

theorem digitChar_lt_iff : ∀ a < 16, ∀ b < 16, Nat.digitChar a < Nat.digitChar b ↔ a < b := by
  decide

/-- Hexadecimal texts of one width compare as the numbers do. -/
theorem hexDigits_lt_iff {width m n : Nat} (hm : m < 16 ^ width) (hn : n < 16 ^ width) :
    Json.hexDigits width m < Json.hexDigits width n ↔ m < n := by
  have hbound : ∀ k, ∀ d ∈ Numeral.digits 16 width k, d < 16 :=
    fun k => Numeral.digits_lt_base (by decide) width k
  rw [hexDigits_eq, hexDigits_eq, Numeral.map_lt_map_iff, Numeral.digits_lt_iff hm hn]
  · exact fun x hx y hy => digitChar_lt_iff x (hbound _ x hx) y (hbound _ y hy)
  · intro x hx y hy
    exact ⟨Json.digitChar_inj x (hbound _ x hx) y (hbound _ y hy), fun h => by rw [h]⟩

/-- Hyphens at the same places decide nothing. -/
theorem hyphenate_lt_iff {sizes : List Nat} {xs ys : List Char} (h : xs.length = ys.length) :
    hyphenate sizes xs < hyphenate sizes ys ↔ xs < ys := by
  induction sizes generalizing xs ys with
  | nil => exact Iff.rfl
  | cons n sizes ih =>
    have htake : (xs.take n).length = (ys.take n).length := by simp [h]
    have hdrop : (xs.drop n).length = (ys.drop n).length := by simp [h]
    rw [hyphenate, hyphenate, Numeral.append_lt_append_iff htake, List.cons_lt_cons_self,
      ih hdrop, ← Numeral.append_lt_append_iff htake, List.take_append_drop,
      List.take_append_drop]

/-- **Texts of identifiers compare as the identifiers do.** -/
theorem Uuid.toHyphenated_lt_iff {a b : Uuid} : a.toHyphenated < b.toHyphenated ↔ a < b := by
  have ha : (a.bits : Nat) < 16 ^ 32 := by
    have := a.bits.isLt
    omega
  have hb : (b.bits : Nat) < 16 ^ 32 := by
    have := b.bits.isLt
    omega
  rw [String.lt_iff_toList_lt, Uuid.toHyphenated, Uuid.toHyphenated, String.toList_ofList,
    String.toList_ofList, hyphenate_lt_iff (by simp), hexDigits_lt_iff ha hb]
  exact Iff.rfl

theorem Uuid.toHyphenated_le_iff {a b : Uuid} : a.toHyphenated ≤ b.toHyphenated ↔ a ≤ b := by
  rw [← not_lt, ← not_lt, Uuid.toHyphenated_lt_iff]

/-! ## Section 2: Digests -/

namespace EventHash

/-- The raw digest bytes. -/
def asBytes (h : EventHash) : List UInt8 := (Numeral.digits 256 32 h.bits).map UInt8.ofNat

/-- Construct from raw bytes, of which there are 32. -/
def fromBytes (bytes : List UInt8) : EventHash :=
  ⟨Fin.ofNat _ (Numeral.value 256 (bytes.map UInt8.toNat))⟩

@[simp] theorem asBytes_length (h : EventHash) : h.asBytes.length = 32 := by simp [asBytes]

theorem fromBytes_asBytes (h : EventHash) : fromBytes h.asBytes = h := by
  have hbytes : h.asBytes.map UInt8.toNat = Numeral.digits 256 32 h.bits := by
    rw [asBytes, List.map_map]
    conv_rhs => rw [← List.map_id (Numeral.digits 256 32 h.bits)]
    refine List.map_congr_left fun d hd => ?_
    have hlt := Numeral.digits_lt_base (by decide) 32 _ d hd
    show (UInt8.ofNat d).toNat = d
    rw [UInt8.toNat_ofNat', Nat.mod_eq_of_lt hlt]
  have hfits : (h.bits : Nat) < 256 ^ 32 := by
    have := h.bits.isLt
    omega
  rw [fromBytes, hbytes, Numeral.value_digits hfits]
  exact congrArg EventHash.mk (Fin.ext (Nat.mod_eq_of_lt h.bits.isLt))

/-- What a hexadecimal digit of either case stands for. -/
def hexValue? (c : Char) : Option Nat :=
  if '0' ≤ c ∧ c ≤ '9' then some (c.toNat - '0'.toNat)
  else if 'a' ≤ c ∧ c ≤ 'f' then some (c.toNat - 'a'.toNat + 10)
  else if 'A' ≤ c ∧ c ≤ 'F' then some (c.toNat - 'A'.toNat + 10)
  else none

theorem hexValue?_digitChar : ∀ d < 16, hexValue? (Nat.digitChar d) = some d := by decide

theorem hexValues_digitChars {ds : List Nat} (h : ∀ d ∈ ds, d < 16) :
    (ds.map Nat.digitChar).mapM hexValue? = some ds := by
  induction ds with
  | nil => rfl
  | cons d ds ih =>
    obtain ⟨hd, hrest⟩ := List.forall_mem_cons.mp h
    rw [List.map_cons, List.mapM_cons, hexValue?_digitChar d hd, ih hrest]
    rfl

end EventHash

end Sahl
