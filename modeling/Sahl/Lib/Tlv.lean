import Mathlib.Tactic

/-! # Tag-length-value triplets

    A tag byte, a length byte, and as many bytes of value. A sequence of triplets is their
    concatenation; it is read back to its last byte or not at all. -/

namespace Tlv

/-- A triplet, for a value one length byte can describe. -/
def triplet (tag : UInt8) (value : List UInt8) : List UInt8 :=
  tag :: UInt8.ofNat value.length :: value

/-- Read triplets to the last byte. -/
def decode : List UInt8 → Option (List (UInt8 × List UInt8))
  | [] => some []
  | [_] => none
  | tag :: length :: rest =>
    if rest.length < length.toNat then none
    else (decode (rest.drop length.toNat)).map ((tag, rest.take length.toNat) :: ·)
  termination_by bytes => bytes.length
  decreasing_by
    rw [List.length_drop, List.length_cons, List.length_cons]
    omega

@[simp] theorem decode_nil : decode [] = some [] := by rw [decode]

/-- A triplet is read, and reading goes on after its value. -/
theorem decode_triplet_append {tag : UInt8} {value rest : List UInt8} (h : value.length < 256) :
    decode (triplet tag value ++ rest) = (decode rest).map ((tag, value) :: ·) := by
  have hlength : (UInt8.ofNat value.length).toNat = value.length := by
    rw [UInt8.toNat_ofNat']
    exact Nat.mod_eq_of_lt h
  show decode (tag :: UInt8.ofNat value.length :: (value ++ rest)) = _
  rw [decode, hlength, if_neg (by simp), List.drop_left, List.take_left]

/-- **A sequence of triplets is read back**, every byte of it. -/
theorem decode_flatten (triplets : List (UInt8 × List UInt8))
    (h : ∀ t ∈ triplets, t.2.length < 256) :
    decode (triplets.map fun t => triplet t.1 t.2).flatten = some triplets := by
  induction triplets with
  | nil => exact decode_nil
  | cons t rest ih =>
    obtain ⟨ht, hrest⟩ := List.forall_mem_cons.mp h
    rw [List.map_cons, List.flatten_cons, decode_triplet_append ht, ih hrest, Option.map_some]

end Tlv
