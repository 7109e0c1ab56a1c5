import Mathlib.Tactic
import Mathlib.Data.List.DropRight

/-! # Text: blanks, trimming, comparison without regard to case

    The Unicode `White_Space` property decides what is blank; case is ASCII case only. -/

namespace Text

/-- `char::is_whitespace`: the characters of the `White_Space` property. -/
def isWhitespace (c : Char) : Bool :=
  let n := c.toNat
  (0x0009 ≤ n ∧ n ≤ 0x000D) ∨ n = 0x0020 ∨ n = 0x0085 ∨ n = 0x00A0 ∨ n = 0x1680 ∨
    (0x2000 ≤ n ∧ n ≤ 0x200A) ∨ n = 0x2028 ∨ n = 0x2029 ∨ n = 0x202F ∨ n = 0x205F ∨ n = 0x3000

/-- `str::trim`: without the white space at either end. -/
def trim (s : String) : String :=
  String.ofList ((s.toList.dropWhile isWhitespace).rdropWhile isWhitespace)

/-- Nothing but white space: what `trim().is_empty()` asks. -/
def isBlank (s : String) : Bool := (trim s).toList.isEmpty

/-- `str::eq_ignore_ascii_case`. -/
def eqIgnoreAsciiCase (s t : String) : Bool := s.toList.map Char.toLower = t.toList.map Char.toLower

/-- `str::to_ascii_uppercase`. -/
def toAsciiUppercase (s : List Char) : List Char := s.map Char.toUpper

theorem toUpper_toNat (c : Char) : c.toUpper.toNat =
    if 97 ≤ c.toNat ∧ c.toNat ≤ 122 then c.toNat - 32 else c.toNat := by
  unfold Char.toUpper
  split
  · rename_i h
    have hlow : 97 ≤ c.val.toNat := h.1
    have hhigh : c.val.toNat ≤ 122 := h.2
    have hshift : ('A'.val - 'a'.val).toNat = 4294967264 := by decide
    rw [if_pos ⟨hlow, hhigh⟩]
    show (c.val + ('A'.val - 'a'.val)).toNat = c.val.toNat - 32
    rw [UInt32.toNat_add, hshift]
    omega
  · rename_i h
    rw [if_neg fun hrange => h ⟨hrange.1, hrange.2⟩]

theorem toLower_toNat (c : Char) : c.toLower.toNat =
    if 65 ≤ c.toNat ∧ c.toNat ≤ 90 then c.toNat + 32 else c.toNat := by
  unfold Char.toLower
  split
  · rename_i h
    have hlow : 65 ≤ c.val.toNat := h.1
    have hhigh : c.val.toNat ≤ 90 := h.2
    have hshift : ('a'.val - 'A'.val).toNat = 32 := by decide
    rw [if_pos ⟨hlow, hhigh⟩]
    show (c.val + ('a'.val - 'A'.val)).toNat = c.val.toNat + 32
    rw [UInt32.toNat_add, hshift]
    omega
  · rename_i h
    rw [if_neg fun hrange => h ⟨hrange.1, hrange.2⟩]

theorem toLower_toUpper (c : Char) : c.toUpper.toLower = c.toLower := by
  apply Char.toNat_inj.mp
  rw [toLower_toNat, toLower_toNat, toUpper_toNat]
  split_ifs <;> omega

/-- Texts with one upper case are the same but for case. -/
theorem eqIgnoreAsciiCase_of_uppercase {s t : String}
    (h : toAsciiUppercase s.toList = toAsciiUppercase t.toList) : eqIgnoreAsciiCase s t = true := by
  have hlower := congrArg (List.map Char.toLower) h
  rw [toAsciiUppercase, toAsciiUppercase, List.map_map, List.map_map] at hlower
  have hcomp : Char.toLower ∘ Char.toUpper = Char.toLower := funext toLower_toUpper
  rw [hcomp] at hlower
  exact decide_eq_true hlower

/-- Case changes letters alone. -/
theorem newline_notMem_toAsciiUppercase {s : List Char} (h : '\n' ∉ s) :
    '\n' ∉ toAsciiUppercase s := by
  intro hmem
  obtain ⟨c, hc, hupper⟩ := List.mem_map.mp hmem
  have hnat := toUpper_toNat c
  rw [hupper] at hnat
  have hten : '\n'.toNat = 10 := by decide
  have hc' : c = '\n' := by
    apply Char.toNat_inj.mp
    split_ifs at hnat <;> omega
  exact h (hc' ▸ hc)

/-- `str::as_bytes`: the bytes of a text. -/
def utf8 (text : String) : List UInt8 := text.toUTF8.data.toList

theorem utf8_injective {a b : String} (h : utf8 a = utf8 b) : a = b := by
  have harrays : a.toUTF8.data = b.toUTF8.data := Array.toList_inj.mp h
  have hbytes : a.toUTF8 = b.toUTF8 := ByteArray.ext harrays
  exact String.toByteArray_inj.mp hbytes

/-- `str::starts_with`. -/
def startsWith (s start : String) : Bool := start.toList.isPrefixOf s.toList

end Text
