import Mathlib.Tactic
import Std.Data.ExtTreeMap
import Sahl.Lib.Lists

/-! # Identifiers, instants and the maps keyed by them

    `Uuid` carries the 128 bits of the identifier; its order is the order of those bits, which
    is also the order of the hyphenated lower-case text a database column holds.
    `Timestamp` is milliseconds since the Unix epoch. -/

namespace Sahl

/-! ## Uuid -/

structure Uuid where
  bits : Fin (2 ^ 128)
  deriving DecidableEq

namespace Uuid

/-- `Uuid::from_u128`. -/
def fromU128 (n : Nat) : Uuid := ⟨Fin.ofNat _ n⟩

theorem fromU128_inj {a b : Nat} (ha : a < 2 ^ 128) (hb : b < 2 ^ 128)
    (h : Uuid.fromU128 a = Uuid.fromU128 b) : a = b := by
  have hbits : a % 2 ^ 128 = b % 2 ^ 128 := congrArg (fun id : Uuid => id.bits.val) h
  rwa [Nat.mod_eq_of_lt ha, Nat.mod_eq_of_lt hb] at hbits

instance (n : Nat) : OfNat Uuid n := ⟨fromU128 n⟩

/-- `Uuid::nil`. -/
def nil : Uuid := 0

instance : LinearOrder Uuid :=
  LinearOrder.lift' Uuid.bits (fun a b h => by cases a; cases b; simp_all)

instance : Std.TransCmp (compare : Uuid → Uuid → Ordering) := inferInstance

instance : Std.LawfulEqCmp (compare : Uuid → Uuid → Ordering) :=
  ⟨fun h => compare_eq_iff_eq.mp h⟩

end Uuid

/-! ## Timestamp -/

/-- A point in time, as milliseconds since the Unix epoch. -/
structure Timestamp where
  millis : I64
  deriving DecidableEq

namespace Timestamp

def epoch : Timestamp := ⟨0⟩

instance : LinearOrder Timestamp :=
  LinearOrder.lift' Timestamp.millis (fun a b h => by cases a; cases b; simp_all)

end Timestamp

/-! ## Maps keyed by identifier -/

/-- A `BTreeMap<Uuid, β>`: the entries in key order, equal when the entries are. -/
abbrev UuidMap (β : Type) := Std.ExtTreeMap Uuid β compare

namespace UuidMap

variable {β ε : Type}

/-- Put under a key what its entry is made into. -/
def alterM (m : UuidMap β) (k : Uuid) (f : Option β → Except ε β) : Except ε (UuidMap β) := do
  let v ← f m[k]?
  .ok (m.insert k v)

theorem get_insert (m : UuidMap β) (k a : Uuid) (v : β) :
    (m.insert k v)[a]? = if k = a then some v else m[a]? := by
  simp [Std.ExtTreeMap.getElem?_insert]

/-- The values are those of the entries. -/
theorem values_eq_toList (m : UuidMap β) : m.values = m.toList.map (·.2) := by
  have hfold : m.values = m.foldr (fun _ v values => v :: values) [] := by
    obtain ⟨⟨tree⟩⟩ := m
    induction tree using Quotient.ind
    rfl
  rw [hfold, Std.ExtTreeMap.foldr_eq_foldr_toList]
  induction m.toList with
  | nil => rfl
  | cons entry entries ih => rw [List.foldr_cons, List.map_cons, ih]

theorem mem_values {m : UuidMap β} {v : β} : v ∈ m.values ↔ ∃ k : Uuid, m[k]? = some v := by
  simp only [values_eq_toList, List.mem_map, Prod.exists, exists_eq_right,
    Std.ExtTreeMap.mem_toList_iff_getElem?_eq_some]

/-- An entry written back as it was changes nothing. -/
theorem insert_self {m : UuidMap β} {k : Uuid} {v : β} (h : m[k]? = some v) : m.insert k v = m := by
  refine Std.ExtTreeMap.ext_getElem? fun a => ?_
  rw [get_insert]
  split
  · rename_i hsame
    rw [← hsame, h]
  · rfl

theorem insert_comm (m : UuidMap β) {k l : Uuid} (h : k ≠ l) (v w : β) :
    (m.insert k v).insert l w = (m.insert l w).insert k v := by
  refine Std.ExtTreeMap.ext_getElem? fun a => ?_
  rw [get_insert, get_insert, get_insert, get_insert]
  by_cases hl : l = a
  · rw [if_pos hl, if_pos hl, if_neg (fun hk => h (hk.trans hl.symm))]
  · rw [if_neg hl, if_neg hl]

/-- Entries put in one after another: what a key holds is among them, and a key that holds nothing
    is in none of them. -/
theorem foldl_insert_get (entries : List (Uuid × β)) (m : UuidMap β) (k : Uuid) :
    (∀ v, (entries.foldl (fun (m : UuidMap β) e => m.insert e.1 e.2) m)[k]? = some v →
        (k, v) ∈ entries ∨ m[k]? = some v) ∧
      ((entries.foldl (fun (m : UuidMap β) e => m.insert e.1 e.2) m)[k]? = none →
        (∀ e ∈ entries, e.1 ≠ k) ∧ m[k]? = none) := by
  induction entries generalizing m with
  | nil => exact ⟨fun v h => .inr h, fun h => ⟨fun _ hmem => absurd hmem List.not_mem_nil, h⟩⟩
  | cons entry entries ih =>
    obtain ⟨hsome, hnone⟩ := ih (m.insert entry.1 entry.2)
    rw [get_insert] at hnone
    rw [List.foldl_cons]
    constructor
    · intro v hv
      rcases hsome v hv with hmem | hget
      · exact .inl (List.mem_cons_of_mem _ hmem)
      · rw [get_insert] at hget
        -- an entry put in first stays unless a later one has its key
        split at hget
        · rename_i hkey
          cases hget
          exact .inl (by rw [← hkey]; exact List.mem_cons_self)
        · exact .inr hget
    · intro h
      obtain ⟨hentries, hget⟩ := hnone h
      split at hget
      · cases hget
      · rename_i hkey
        exact ⟨List.forall_mem_cons.mpr ⟨hkey, hentries⟩, hget⟩

/-- Under keys that differ, every entry put in is kept. -/
theorem foldl_insert_get_iff {entries : List (Uuid × β)} (hkeys : (entries.map Prod.fst).Nodup)
    (k : Uuid) (v : β) :
    (entries.foldl (fun (m : UuidMap β) e => m.insert e.1 e.2) ∅)[k]? = some v ↔
      (k, v) ∈ entries := by
  obtain ⟨hsome, hnone⟩ := foldl_insert_get entries ∅ k
  constructor
  · intro h
    exact (hsome v h).resolve_right (by simp)
  · intro hmem
    cases hget : (entries.foldl (fun (m : UuidMap β) e => m.insert e.1 e.2) ∅)[k]? with
    | none => exact absurd rfl ((hnone hget).1 _ hmem)
    | some v' =>
      have hmem' := (hsome v' hget).resolve_right (by simp)
      have hsame := List.inj_on_of_nodup_map hkeys hmem' hmem rfl
      rw [(Prod.mk.inj hsame).2]

/-- No two entries stand in the relation. -/
def Apart (clash : β → β → Prop) (m : UuidMap β) : Prop :=
  ∀ (a b : Uuid) (v w : β), a ≠ b → m[a]? = some v → m[b]? = some w → ¬ clash v w

theorem apart_empty (clash : β → β → Prop) : Apart clash (∅ : UuidMap β) := by
  intro a b v w _ hv
  simp at hv

/-- Entries stay apart where the one that is put in is apart from the others. -/
theorem apart_insert_iff {clash : β → β → Prop} (hsymm : ∀ v w, clash v w → clash w v)
    {m : UuidMap β} (h : Apart clash m) (k : Uuid) (v : β) :
    Apart clash (m.insert k v) ↔
      ∀ (b : Uuid) (w : β), k ≠ b → m[b]? = some w → ¬ clash v w := by
  constructor
  · intro hinsert b w hne hw
    refine hinsert k b v w hne ?_ ?_
    · rw [get_insert, if_pos rfl]
    · rw [get_insert, if_neg hne]
      exact hw
  · intro hfree a b x y hab hx hy
    rw [get_insert] at hx hy
    split at hx
    · rename_i ha
      cases hx
      rw [if_neg (ha ▸ hab)] at hy
      exact hfree b y (ha ▸ hab) hy
    · rename_i ha
      split at hy
      · cases hy
        intro hclash
        exact hfree a x ha hx (hsymm _ _ hclash)
      · exact h a b x y hab hx hy

theorem alterM_eq_ok {m m' : UuidMap β} {k : Uuid} {f : Option β → Except ε β} :
    m.alterM k f = .ok m' ↔ ∃ v, f m[k]? = .ok v ∧ m.insert k v = m' := by
  unfold alterM
  rw [Except.bind_eq_ok]
  simp

/-- Entries under two keys are made into something independently of each other. -/
theorem alterM_swap {m m' m'' : UuidMap β} {k l : Uuid} (h : k ≠ l)
    {f g : Option β → Except ε β} (hk : m.alterM k f = .ok m') (hl : m'.alterM l g = .ok m'') :
    ∃ n, m.alterM l g = .ok n ∧ n.alterM k f = .ok m'' := by
  obtain ⟨v, hv, rfl⟩ := alterM_eq_ok.mp hk
  obtain ⟨w, hw, rfl⟩ := alterM_eq_ok.mp hl
  rw [get_insert, if_neg h] at hw
  refine ⟨_, alterM_eq_ok.mpr ⟨w, hw, rfl⟩, alterM_eq_ok.mpr ⟨v, ?_, insert_comm m h.symm w v⟩⟩
  rw [get_insert, if_neg h.symm]
  exact hv

/-- A run of entries goes in exactly when, for every key, the entries under it do. -/
theorem foldlM_alterM_isOkay {α : Type} {key : α → Uuid} {f : α → Option β → Except ε β}
    (xs : List α) (m : UuidMap β) :
    (xs.foldlM (fun (m : UuidMap β) x => m.alterM (key x) (f x)) m).isOkay ↔
      ∀ k : Uuid, ((xs.filter (key · = k)).foldlM (fun entry x => (f x entry).map some)
        m[k]?).isOkay := by
  -- the first record changes the entry of its own key and of no other
  induction xs generalizing m with
  | nil => exact ⟨fun _ _ => rfl, fun _ => rfl⟩
  | cons x xs ih =>
    have hhead : (x :: xs).filter (key · = key x) = x :: xs.filter (key · = key x) := by simp
    have hother : ∀ {k}, key x ≠ k → (x :: xs).filter (key · = k) = xs.filter (key · = k) := by
      intro k hk
      simp [hk]
    rw [foldlM_cons_isOkay]
    constructor
    · rintro ⟨m', hm', hrest⟩ k
      obtain ⟨v, hv, rfl⟩ := alterM_eq_ok.mp hm'
      have hk := (ih _).mp hrest k
      rw [get_insert] at hk
      by_cases hkey : key x = k
      · subst hkey
        rw [if_pos rfl] at hk
        rw [hhead]
        exact foldlM_cons_isOkay.mpr ⟨some v, by rw [hv]; rfl, hk⟩
      · rw [if_neg hkey] at hk
        rw [hother hkey]
        exact hk
    · intro h
      have hx := h (key x)
      rw [hhead] at hx
      obtain ⟨entry, hentry, hrest⟩ := foldlM_cons_isOkay.mp hx
      obtain ⟨v, hv, rfl⟩ := Except.map_eq_ok.mp hentry
      refine ⟨_, alterM_eq_ok.mpr ⟨v, hv, rfl⟩, (ih _).mpr fun k => ?_⟩
      rw [get_insert]
      by_cases hkey : key x = k
      · subst hkey
        rw [if_pos rfl]
        exact hrest
      · rw [if_neg hkey, ← hother hkey]
        exact h k

/-- A map cut into pieces that share no key lists the entries of the pieces. -/
theorem toList_perm_flatMap {m : UuidMap β} {pieces : List (UuidMap β)}
    (hdisjoint : pieces.Pairwise fun p q => ∀ k : Uuid, p[k]?.isSome → q[k]? = none)
    (hmem : ∀ (k : Uuid) (v : β), m[k]? = some v ↔ ∃ p ∈ pieces, p[k]? = some v) :
    m.toList.Perm (pieces.flatMap (·.toList)) := by
  have hnodup : ∀ n : UuidMap β, n.toList.Nodup := by
    intro n
    refine List.Pairwise.imp ?_ (Std.ExtTreeMap.distinct_keys_toList (t := n))
    rintro a b hab rfl
    exact hab Std.ReflCmp.compare_self
  refine (List.perm_ext_iff_of_nodup (hnodup m) ?_).mpr ?_
  · refine List.nodup_flatMap.mpr ⟨fun p _ => hnodup p, hdisjoint.imp fun hpq => ?_⟩
    rintro ⟨k, v⟩ hp hq
    rw [Std.ExtTreeMap.mem_toList_iff_getElem?_eq_some] at hp hq
    rw [hpq k (by rw [hp]; rfl)] at hq
    cases hq
  · rintro ⟨k, v⟩
    rw [Std.ExtTreeMap.mem_toList_iff_getElem?_eq_some, hmem, List.mem_flatMap]
    simp only [Std.ExtTreeMap.mem_toList_iff_getElem?_eq_some]

end UuidMap

end Sahl
