import Mathlib.Tactic

/-! # Hash chains

    Records that name the digest of the record before them. Where digests of different records
    differ, the last digest of a chain and its length determine the whole chain
    (`linked_commit`), and two chains that agree at a position agree up to it
    (`linked_take_eq`). -/

namespace HashChain

variable {E H : Type} (prev hash : E → H)

/-- Each record names the digest before it, the first one `start`. -/
def Linked : H → List E → Prop
  | _, [] => True
  | start, e :: es => prev e = start ∧ Linked (hash e) es

/-- The digest a chain ends in. -/
def lastHash : H → List E → H
  | start, [] => start
  | _, e :: es => lastHash (hash e) es

variable {prev hash}

@[simp] theorem lastHash_append (start : H) (as : List E) (e : E) :
    lastHash hash start (as ++ [e]) = hash e := by
  induction as generalizing start with
  | nil => rfl
  | cons a as ih => exact ih _

theorem linked_append {start : H} {as bs : List E} :
    Linked prev hash start (as ++ bs) ↔
      Linked prev hash start as ∧ Linked prev hash (lastHash hash start as) bs := by
  induction as generalizing start with
  | nil => simp [Linked, lastHash]
  | cons a as ih => simp [Linked, lastHash, ih, and_assoc]

theorem linked_concat {start : H} {as : List E} {e : E} :
    Linked prev hash start (as ++ [e]) ↔
      Linked prev hash start as ∧ prev e = lastHash hash start as := by
  rw [linked_append]
  simp [Linked]

theorem linked_take {start : H} {as : List E} (h : Linked prev hash start as) (n : Nat) :
    Linked prev hash start (as.take n) := by
  rw [← List.take_append_drop n as] at h
  exact (linked_append.mp h).1

/-- Records of the two runs with one digest are one record. -/
def Committing (hash : E → H) (as bs : List E) : Prop :=
  ∀ a ∈ as, ∀ b ∈ bs, hash a = hash b → a = b

theorem Committing.mono {as bs as' bs' : List E} (h : Committing hash as bs)
    (ha : ∀ a ∈ as', a ∈ as) (hb : ∀ b ∈ bs', b ∈ bs) : Committing hash as' bs' :=
  fun a ha' b hb' => h a (ha a ha') b (hb b hb')

/-- **Commitment**: chains of one length that start and end alike are one chain. -/
theorem linked_commit {start : H} {as bs : List E} (hcommit : Committing hash as bs)
    (has : Linked prev hash start as) (hbs : Linked prev hash start bs)
    (hlength : as.length = bs.length)
    (hlast : lastHash hash start as = lastHash hash start bs) : as = bs := by
  -- from the end backwards: equal digests make equal records, which name equal digests
  induction as using List.reverseRecOn generalizing bs with
  | nil => exact (List.length_eq_zero_iff.mp hlength.symm).symm
  | append_singleton as a ih =>
    rcases List.eq_nil_or_concat bs with rfl | ⟨bs, b, rfl⟩
    · simp at hlength
    · rw [List.concat_eq_append] at *
      obtain ⟨hinitA, hprevA⟩ := linked_concat.mp has
      obtain ⟨hinitB, hprevB⟩ := linked_concat.mp hbs
      rw [lastHash_append, lastHash_append] at hlast
      obtain rfl := hcommit a (by simp) b (by simp) hlast
      rw [ih (hcommit.mono (by simp_all) (by simp_all)) hinitA hinitB
        (by simpa using hlength) (hprevA.symm.trans hprevB)]

/-- Chains that agree on the digest at a position agree on everything up to it. -/
theorem linked_take_eq {start : H} {as bs : List E} {n : Nat} {a b : E}
    (hcommit : Committing hash as bs) (has : Linked prev hash start as)
    (hbs : Linked prev hash start bs) (ha : as[n]? = some a) (hb : bs[n]? = some b)
    (hhash : hash a = hash b) : as.take (n + 1) = bs.take (n + 1) := by
  obtain ⟨hna, _⟩ := List.getElem?_eq_some_iff.mp ha
  obtain ⟨hnb, _⟩ := List.getElem?_eq_some_iff.mp hb
  refine linked_commit (hcommit.mono (fun _ h => List.mem_of_mem_take h)
    (fun _ h => List.mem_of_mem_take h)) (linked_take has _) (linked_take hbs _) ?_ ?_
  · simp only [List.length_take]
    omega
  · rw [List.take_add_one, List.take_add_one, ha, hb]
    simpa using hhash

end HashChain
