import Mathlib.Tactic

/-! # Base64

    What a base64 codec promises, and the standard alphabet with padding as one that keeps it:
    three bytes are written as four characters of six bits each. -/

/-- A codec from bytes to text, with nothing lost. -/
structure Base64 where
  encode : List UInt8 → String
  decode : String → Option (List UInt8)
  decode_encode : ∀ bytes, decode (encode bytes) = some bytes

namespace Base64

/-- The characters of the six-bit values, in order. -/
def alphabet : List Char :=
  "ABCDEFGHIJKLMNOPQRSTUVWXYZabcdefghijklmnopqrstuvwxyz0123456789+/".toList

def sextetChar (n : Nat) : Char := alphabet.getD n '='

def sextet? (c : Char) : Option Nat :=
  if alphabet.idxOf c < 64 then some (alphabet.idxOf c) else none

def byte (n : Nat) : UInt8 := UInt8.ofNat n

/-- The characters of some bytes; a group that is not full ends in padding. -/
def write : List UInt8 → List Char
  | [] => []
  | [a] => [sextetChar (a.toNat / 4), sextetChar (a.toNat % 4 * 16), '=', '=']
  | [a, b] => [sextetChar (a.toNat / 4), sextetChar (a.toNat % 4 * 16 + b.toNat / 16),
      sextetChar (b.toNat % 16 * 4), '=']
  | a :: b :: c :: rest => sextetChar (a.toNat / 4) ::
      sextetChar (a.toNat % 4 * 16 + b.toNat / 16) ::
      sextetChar (b.toNat % 16 * 4 + c.toNat / 64) :: sextetChar (c.toNat % 64) :: write rest

/-- The last group, padded or not, and the bytes of the groups before it. -/
def read : List Char → Option (List UInt8)
  | [] => some []
  | w :: x :: y :: z :: rest => do
    let w ← sextet? w
    let x ← sextet? x
    if y = '=' then
      if z = '=' ∧ rest = [] ∧ x % 16 = 0 then some [byte (w * 4 + x / 16)] else none
    else
      let y ← sextet? y
      if z = '=' then
        if rest = [] ∧ y % 4 = 0 then some [byte (w * 4 + x / 16), byte (x % 16 * 16 + y / 4)]
        else none
      else
        let z ← sextet? z
        let tail ← read rest
        some (byte (w * 4 + x / 16) :: byte (x % 16 * 16 + y / 4) :: byte (y % 4 * 64 + z) :: tail)
  | _ => none

theorem sextet?_sextetChar {n : Nat} (h : n < 64) : sextet? (sextetChar n) = some n := by
  have hall : ∀ n : Fin 64, sextet? (sextetChar n.val) = some n.val := by decide +kernel
  exact hall ⟨n, h⟩

theorem sextetChar_ne_pad {n : Nat} (h : n < 64) : sextetChar n ≠ '=' := by
  have hall : ∀ n : Fin 64, sextetChar n.val ≠ '=' := by decide +kernel
  exact hall ⟨n, h⟩

theorem byte_eq {n : Nat} (a : UInt8) (h : n = a.toNat) : byte n = a := by
  rw [h]
  exact UInt8.ofNat_toNat

theorem read_write (bytes : List UInt8) : read (write bytes) = some bytes := by
  induction bytes using write.induct with
  | case1 => rfl
  | case2 a =>
    have ha := a.toNat_lt
    simp only [write, read, sextet?_sextetChar (show a.toNat / 4 < 64 by omega),
      sextet?_sextetChar (show a.toNat % 4 * 16 < 64 by omega), Option.bind_eq_bind,
      Option.bind_some, if_true, true_and]
    rw [if_pos (by omega), byte_eq a (by omega)]
  | case3 a b =>
    have ha := a.toNat_lt
    have hb := b.toNat_lt
    have hthird : b.toNat % 16 * 4 < 64 := by omega
    simp only [write, read, sextet?_sextetChar (show a.toNat / 4 < 64 by omega),
      sextet?_sextetChar (show a.toNat % 4 * 16 + b.toNat / 16 < 64 by omega),
      sextet?_sextetChar hthird, if_neg (sextetChar_ne_pad hthird), Option.bind_eq_bind,
      Option.bind_some, if_true, true_and]
    rw [if_pos (by omega), byte_eq a (by omega), byte_eq b (by omega)]
  -- three bytes make four sextets; a short rest, fewer and padding
  | case4 a b c rest ih =>
    have ha := a.toNat_lt
    have hb := b.toNat_lt
    have hc := c.toNat_lt
    have hthird : b.toNat % 16 * 4 + c.toNat / 64 < 64 := by omega
    have hfourth : c.toNat % 64 < 64 := by omega
    simp only [write, read, sextet?_sextetChar (show a.toNat / 4 < 64 by omega),
      sextet?_sextetChar (show a.toNat % 4 * 16 + b.toNat / 16 < 64 by omega),
      sextet?_sextetChar hthird, sextet?_sextetChar hfourth, if_neg (sextetChar_ne_pad hthird),
      if_neg (sextetChar_ne_pad hfourth), Option.bind_eq_bind, Option.bind_some, ih]
    rw [byte_eq a (by omega), byte_eq b (by omega), byte_eq c (by omega)]

/-- The standard alphabet, padded. -/
def standard : Base64 where
  encode bytes := String.ofList (write bytes)
  decode text := read text.toList
  decode_encode bytes := by rw [String.toList_ofList, read_write]

example : standard.encode [77, 97] = "TWE=" := by decide +kernel

end Base64
