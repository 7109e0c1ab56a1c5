import Mathlib.Tactic
import Mathlib.Data.List.Sort
import Sahl.Lib.Checked

/-! # Lists: sums over a key, folds that can fail

    Facts about lists of records that carry a key: how much of a quantity the records of
    one key hold, and how a fold that can fail reads back. -/

/-! ## Sums over a key -/

section KeySum

variable {α κ M : Type} [DecidableEq κ] [AddCommMonoid M]

/-- What the records of key `k` add up to. -/
def keySum (key : α → κ) (f : α → M) (xs : List α) (k : κ) : M :=
  ((xs.filter (fun x => key x = k)).map f).sum

variable {key : α → κ} {f : α → M}

@[simp] theorem keySum_nil {k : κ} : keySum key f [] k = 0 := rfl

theorem keySum_cons (x : α) (xs : List α) (k : κ) :
    keySum key f (x :: xs) k = (if key x = k then f x else 0) + keySum key f xs k := by
  by_cases h : key x = k <;> simp [keySum, h]

theorem keySum_append (xs ys : List α) (k : κ) :
    keySum key f (xs ++ ys) k = keySum key f xs k + keySum key f ys k := by
  simp [keySum]

theorem keySum_perm {xs ys : List α} (h : xs.Perm ys) (k : κ) :
    keySum key f xs k = keySum key f ys k :=
  ((h.filter _).map f).sum_eq

/-- No record carries the key, so nothing is held under it. -/
theorem keySum_not_mem {xs : List α} {k : κ} (h : k ∉ xs.map key) : keySum key f xs k = 0 := by
  have hf : xs.filter (fun x => key x = k) = [] := by
    rw [List.filter_eq_nil_iff]
    intro x hx hk
    exact h (List.mem_map.mpr ⟨x, hx, by simpa using hk⟩)
  simp [keySum, hf]

/-- Where keys do not repeat, a record holds everything under its key. -/
theorem keySum_mem_nodup {xs : List α} (hn : (xs.map key).Nodup) {x : α} (hx : x ∈ xs) :
    keySum key f xs (key x) = f x := by
  induction xs with
  | nil => cases hx
  | cons y ys ih =>
    rw [List.map_cons, List.nodup_cons] at hn
    rw [keySum_cons]
    cases hx with
    | head => rw [if_pos rfl, keySum_not_mem hn.1, add_zero]
    | tail _ hx =>
      have hne : key y ≠ key x := fun h => hn.1 (h ▸ List.mem_map_of_mem hx)
      rw [if_neg hne, ih hn.2 hx, zero_add]

/-- Where keys do not repeat, a key holds what the record found under it does. -/
theorem keySum_eq_find? {xs : List α} (hn : (xs.map key).Nodup) (k : κ) :
    keySum key f xs k = ((xs.find? (key · = k)).map f).getD 0 := by
  cases hfind : xs.find? (key · = k) with
  | none =>
    refine keySum_not_mem fun hk => ?_
    obtain ⟨x, hx, hkey⟩ := List.mem_map.mp hk
    exact List.find?_eq_none.mp hfind x hx (by simpa using hkey)
  | some x =>
    have hkey : key x = k := by simpa using List.find?_some hfind
    subst hkey
    exact keySum_mem_nodup hn (List.mem_of_find?_eq_some hfind)

theorem keySum_flatMap {β : Type} (g : β → List α) (ys : List β) (k : κ) :
    keySum key f (ys.flatMap g) k = (ys.map fun y => keySum key f (g y) k).sum := by
  induction ys with
  | nil => rfl
  | cons y ys ih => rw [List.flatMap_cons, keySum_append, ih, List.map_cons, List.sum_cons]

/-- Keys that do not repeat, every record's key among them, hold everything together. -/
theorem sum_keySum {ks : List κ} (hks : ks.Nodup) {xs : List α} (h : ∀ x ∈ xs, key x ∈ ks) :
    (ks.map (keySum key f xs)).sum = (xs.map f).sum := by
  have hone : ∀ x : α, key x ∈ ks → (ks.map fun k => if key x = k then f x else 0).sum = f x := by
    intro x hx
    rw [List.sum_map_eq_nsmul_single (key x) (fun k => if key x = k then f x else 0)
        fun k hk _ => if_neg (Ne.symm hk),
      if_pos rfl, List.count_eq_one_of_mem hks hx, one_smul]
  induction xs with
  | nil =>
    have hnil : keySum key f [] = fun _ : κ => (0 : M) := rfl
    simp [hnil]
  | cons x xs ih =>
    have hcons : keySum key f (x :: xs) =
        fun k => (if key x = k then f x else 0) + keySum key f xs k := funext (keySum_cons x xs)
    rw [hcons, List.sum_map_add, List.map_cons, List.sum_cons, hone x (h x List.mem_cons_self),
      ih fun y hy => h y (List.mem_cons_of_mem _ hy)]

/-- Records that hold the same under every key hold the same together. -/
theorem sum_eq_of_keySum_eq {xs ys : List α} (h : ∀ k, keySum key f xs k = keySum key f ys k) :
    (xs.map f).sum = (ys.map f).sum := by
  have hks : ((xs ++ ys).map key).dedup.Nodup := List.nodup_dedup _
  have hxs : ∀ x ∈ xs, key x ∈ ((xs ++ ys).map key).dedup := fun x hx =>
    List.mem_dedup.mpr (List.mem_map_of_mem (List.mem_append_left _ hx))
  have hys : ∀ y ∈ ys, key y ∈ ((xs ++ ys).map key).dedup := fun y hy =>
    List.mem_dedup.mpr (List.mem_map_of_mem (List.mem_append_right _ hy))
  rw [← sum_keySum hks hxs, ← sum_keySum hks hys]
  exact congrArg List.sum (List.map_congr_left fun k _ => h k)

end KeySum

theorem sum_map_flatMap {α β M : Type} [AddCommMonoid M] (f : α → M) (g : β → List α)
    (ys : List β) : ((ys.flatMap g).map f).sum = (ys.map fun y => ((g y).map f).sum).sum := by
  induction ys with
  | nil => rfl
  | cons y ys ih =>
    rw [List.flatMap_cons, List.map_append, List.sum_append, ih, List.map_cons, List.sum_cons]

/-! ## Sums of integer figures -/

/-- Figures of which none is negative come to nothing only where each is nothing. -/
theorem sum_eq_zero_iff_of_nonneg {α : Type} {f : α → Int} {xs : List α}
    (h : ∀ x ∈ xs, 0 ≤ f x) : (xs.map f).sum = 0 ↔ ∀ x ∈ xs, f x = 0 := by
  constructor
  · intro hsum x hx
    refine List.all_zero_of_le_zero_le_of_sum_eq_zero (fun n hn => ?_) hsum
      (List.mem_map_of_mem hx)
    obtain ⟨y, hy, rfl⟩ := List.mem_map.mp hn
    exact h y hy
  · intro hall
    refine List.sum_eq_zero fun n hn => ?_
    obtain ⟨x, hx, rfl⟩ := List.mem_map.mp hn
    exact hall x hx

theorem sum_map_pair {α : Type} (f g : α → Int) (xs : List α) :
    (xs.map fun x => (f x, g x)).sum = ((xs.map f).sum, (xs.map g).sum) := by
  induction xs with
  | nil => rfl
  | cons x xs ih => simp [ih]

theorem sum_map_add {α : Type} {f g h : α → Int} {xs : List α}
    (heq : ∀ x ∈ xs, h x = f x + g x) : (xs.map h).sum = (xs.map f).sum + (xs.map g).sum := by
  rw [List.map_congr_left heq, List.sum_map_add]

theorem sum_filter_add_not {α : Type} (p : α → Bool) (f : α → Int) (xs : List α) :
    ((xs.filter p).map f).sum + ((xs.filter (! p ·)).map f).sum = (xs.map f).sum := by
  rw [← List.sum_append, ← List.map_append]
  exact ((List.filter_append_perm p xs).map f).sum_eq

/-- Leaving out records with no negative figure does not raise the sum. -/
theorem sum_filter_le {α : Type} (p : α → Bool) {f : α → Int} {xs : List α}
    (h : ∀ x ∈ xs, 0 ≤ f x) : ((xs.filter p).map f).sum ≤ (xs.map f).sum := by
  refine List.Sublist.sum_le_sum (List.filter_sublist.map f) fun y hy => ?_
  obtain ⟨x, hx, rfl⟩ := List.mem_map.mp hy
  exact h x hx

/-! ## Running totals that saturate -/

/-- No running total of the figures leaves the range. -/
def I64.NeverFull (xs : List I64) : Prop :=
  ∀ seen, seen <+: xs → I64.Fits (seen.map (·.val)).sum

/-- Figures that are small enough together never fill the range. -/
theorem I64.neverFull_of_abs {xs : List I64}
    (h : (xs.map fun x => |x.val|).sum < 9223372036854775808) : I64.NeverFull xs := by
  intro seen hseen
  have hle : (seen.map fun x => |x.val|).sum ≤ (xs.map fun x => |x.val|).sum := by
    refine List.Sublist.sum_le_sum (hseen.sublist.map _) fun y hy => ?_
    obtain ⟨x, -, rfl⟩ := List.mem_map.mp hy
    exact abs_nonneg _
  have habs : |(seen.map (·.val)).sum| ≤ (seen.map fun x => |x.val|).sum := by
    have hsum := Multiset.abs_sum_le_sum_abs (s := (seen.map (·.val) : Multiset Int))
    simp only [Multiset.map_coe, Multiset.sum_coe, List.map_map] at hsum
    exact hsum
  have hbound := abs_lt.mp (lt_of_le_of_lt (habs.trans hle) h)
  exact ⟨hbound.1.le, hbound.2⟩

/-- A running total that never saturates is the sum. -/
theorem I64.foldl_saturatingAdd_val {xs : List I64} (h : I64.NeverFull xs) :
    (xs.foldl SInt.saturatingAdd 0).val = (xs.map (·.val)).sum := by
  induction xs using List.reverseRecOn with
  | nil => rfl
  | append_singleton xs x ih =>
    have hbefore : I64.NeverFull xs := fun seen hseen =>
      h seen (hseen.trans (List.prefix_append _ _))
    have hfits := h (xs ++ [x]) List.prefix_rfl
    rw [List.map_append, List.sum_append, List.map_singleton, List.sum_singleton] at hfits ⊢
    have hsum := ih hbefore
    rw [← hsum] at hfits ⊢
    rw [List.foldl_append, List.foldl_cons, List.foldl_nil, SInt.saturatingAdd,
      dif_pos (by simpa [I64.Fits] using hfits)]

/-- Of two records of a list one stands before the other. -/
theorem pair_sublist_or {α : Type} {a b : α} {xs : List α} (ha : a ∈ xs) (hb : b ∈ xs)
    (hne : a ≠ b) : [a, b].Sublist xs ∨ [b, a].Sublist xs := by
  induction xs with
  | nil => cases ha
  | cons x xs ih =>
    rcases List.mem_cons.mp ha with rfl | hin
    · have hlater := (List.mem_cons.mp hb).resolve_left hne.symm
      exact .inl (.cons_cons a (List.singleton_sublist.mpr hlater))
    · rcases List.mem_cons.mp hb with rfl | hin'
      · exact .inr (.cons_cons b (List.singleton_sublist.mpr hin))
      · exact (ih hin hin').imp (.cons x) (.cons x)

/-! ## Lists matched record by record -/

section Forall₂

variable {α β : Type} {R : α → β → Prop} {xs : List α} {ys : List β}

theorem forall₂_mem_right (h : List.Forall₂ R xs ys) {y : β} (hy : y ∈ ys) :
    ∃ x ∈ xs, R x y := by
  induction h with
  | nil => cases hy
  | cons hxy _ ih =>
    rcases List.mem_cons.mp hy with rfl | hy
    · exact ⟨_, List.mem_cons_self, hxy⟩
    · obtain ⟨x, hx, hR⟩ := ih hy
      exact ⟨x, List.mem_cons_of_mem _ hx, hR⟩

/-- What holds of every two records, in order, holds of what they are matched with. -/
theorem forall₂_getElem? (h : List.Forall₂ R xs ys) {i : Nat} {y : β} (hy : ys[i]? = some y) :
    ∃ x, xs[i]? = some x ∧ R x y := by
  induction h generalizing i with
  | nil => simp at hy
  | cons hxy _ ih =>
    cases i with
    | zero =>
      cases hy
      exact ⟨_, rfl, hxy⟩
    | succ i => exact ih hy

theorem forall₂_pairwise {S : α → α → Prop} {T : β → β → Prop} (h : List.Forall₂ R xs ys)
    (hS : xs.Pairwise S) (hT : ∀ a b x y, R a x → R b y → S a b → T x y) : ys.Pairwise T := by
  induction h with
  | nil => exact .nil
  | cons hxy hrest ih =>
    obtain ⟨hhead, htail⟩ := List.pairwise_cons.mp hS
    refine List.pairwise_cons.mpr ⟨fun y hy => ?_, ih htail⟩
    obtain ⟨x, hx, hR⟩ := forall₂_mem_right hrest hy
    exact hT _ _ _ _ hxy hR (hhead x hx)

theorem forall₂_comp {γ : Type} {S : β → γ → Prop} {T : α → γ → Prop} {zs : List γ}
    (hR : List.Forall₂ R xs ys) (hS : List.Forall₂ S ys zs)
    (hT : ∀ x y z, R x y → S y z → T x z) : List.Forall₂ T xs zs := by
  induction hR generalizing zs with
  | nil =>
    cases hS
    exact .nil
  | cons hxy _ ih =>
    cases hS with
    | cons hyz hrest => exact .cons (hT _ _ _ hxy hyz) (ih hrest)

/-- Where matched records agree on a view of each, the views are the same list. -/
theorem forall₂_map_eq {γ : Type} {f : α → γ} {g : β → γ} (h : List.Forall₂ R xs ys)
    (hfg : ∀ x y, R x y → f x = g y) : xs.map f = ys.map g := by
  induction h with
  | nil => rfl
  | cons hxy _ ih => rw [List.map_cons, List.map_cons, hfg _ _ hxy, ih]

/-- Lists matched by a function are its image. -/
theorem forall₂_eq_map {f : α → β} (h : List.Forall₂ R xs ys) (hf : ∀ x y, R x y → y = f x) :
    ys = xs.map f := by
  have himage := forall₂_map_eq h (g := fun y => y) fun x y hxy => (hf x y hxy).symm
  rw [himage, List.map_id']

end Forall₂

/-! ## Pages of a sorted list -/

/-- What does not rank above the last record of a page is on the page. -/
theorem mem_take_of_le {α κ : Type} [LinearOrder κ] {key : α → κ} {xs : List α} {n : Nat}
    {last x : α} (hsorted : xs.Pairwise fun a b => key a ≤ key b)
    (hinj : ∀ a ∈ xs, ∀ b ∈ xs, key a = key b → a = b) (hlast : (xs.take n).getLast? = some last)
    (hx : x ∈ xs) (hle : key x ≤ key last) : x ∈ xs.take n := by
  have hmem : last ∈ xs.take n := List.mem_of_getLast? hlast
  rw [← List.take_append_drop n xs, List.mem_append] at hx
  rcases hx with hx | hx
  · exact hx
  · -- beyond the page nothing ranks below its last record
    rw [← List.take_append_drop n xs, List.pairwise_append] at hsorted
    have hge : key last ≤ key x := hsorted.2.2 last hmem x hx
    rw [hinj x (List.mem_of_mem_drop hx) last (List.mem_of_mem_take hmem) (le_antisymm hle hge)]
    exact hmem

/-- The first records of a sorted list are those with few records before them. -/
theorem forall_take_iff_rank {α κ : Type} [LinearOrder κ] {key : α → κ} {P : κ → Prop}
    {xs : List α} (hsorted : xs.Pairwise fun a b => key a ≤ key b) (n : Nat) :
    (∀ x ∈ xs.take n, P (key x)) ↔
      ∀ x ∈ xs, xs.countP (fun y => key y < key x) < n → P (key x) := by
  induction xs generalizing n with
  | nil => simp
  | cons first rest ih =>
    obtain ⟨hfirst, hrest⟩ := List.pairwise_cons.mp hsorted
    -- the first record has none before it
    have hnone : (first :: rest).countP (fun y => key y < key first) = 0 := by
      rw [List.countP_eq_zero]
      intro y hy
      rcases List.mem_cons.mp hy with rfl | hy
      · simp
      · simpa using hfirst y hy
    cases n with
    | zero => simp
    | succ n =>
      rw [List.take_succ_cons, List.forall_mem_cons, List.forall_mem_cons, ih hrest]
      constructor
      · intro h
        refine ⟨fun _ => h.1, fun x hx hcount => ?_⟩
        by_cases hlt : key first < key x
        · rw [List.countP_cons_of_pos (by simpa using hlt)] at hcount
          exact h.2 x hx (by omega)
        · rw [le_antisymm (not_lt.mp hlt) (hfirst x hx)]
          exact h.1
      · intro h
        refine ⟨h.1 (by omega), fun x hx hcount => h.2 x hx ?_⟩
        rw [List.countP_cons]
        split <;> omega

theorem filterMap_cons_toList {α β : Type} (f : α → Option β) (x : α) (xs : List α) :
    (x :: xs).filterMap f = (f x).toList ++ xs.filterMap f := by
  cases h : f x <;> simp [h]

theorem getLast?_filterMap_eq_bind {α β : Type} (f : α → Option β) (xs : List α) :
    (xs.filterMap f).getLast? = (xs.filter fun x => (f x).isSome).getLast?.bind f := by
  induction xs using List.reverseRecOn with
  | nil => rfl
  | append_singleton xs x ih => cases h : f x <;> simp [h, ih]

/-- Of the records of a sorted list that something is read from, the highest one is read
    last. -/
theorem getLast?_filterMap_of_sorted {α β κ : Type} [LinearOrder κ] (key : α → κ)
    {f : α → Option β} {ys : List α} (hsorted : ys.Pairwise fun a b => key a ≤ key b)
    (hinj : ∀ a ∈ ys, ∀ b ∈ ys, key a = key b → a = b) {x : α} {b : β} (hx : x ∈ ys)
    (hread : f x = some b) (hmax : ∀ y ∈ ys, (f y).isSome → key y ≤ key x) :
    (ys.filterMap f).getLast? = some b := by
  obtain ⟨before, after, rfl⟩ := List.append_of_mem hx
  -- whatever is read after it is at most as high, hence the same record
  have hafter : ∀ c ∈ after.filterMap f, c = b := by
    intro c hc
    obtain ⟨y, hy, hfy⟩ := List.mem_filterMap.mp hc
    have hmem : y ∈ before ++ x :: after := by simp [hy]
    have hge : key x ≤ key y :=
      (List.pairwise_cons.mp (List.pairwise_append.mp hsorted).2.1).1 y hy
    have hle := hmax y hmem (by simp [hfy])
    rw [hinj y hmem x hx (le_antisymm hle hge), hread] at hfy
    exact (Option.some.inj hfy).symm
  rw [List.filterMap_append, List.filterMap_cons, hread]
  simp only
  rw [List.getLast?_append, List.getLast?_cons]
  cases hlast : (after.filterMap f).getLast? with
  | none => rfl
  | some c =>
    rw [hafter c (List.mem_of_getLast? hlast)]
    rfl

/-- What is read last of a sorted list is read from the highest record. -/
theorem exists_of_getLast?_filterMap {α β κ : Type} [LinearOrder κ] (key : α → κ)
    {f : α → Option β} {ys : List α} (hsorted : ys.Pairwise fun a b => key a ≤ key b) {b : β}
    (h : (ys.filterMap f).getLast? = some b) :
    ∃ x ∈ ys, f x = some b ∧ ∀ y ∈ ys, (f y).isSome → key y ≤ key x := by
  rw [getLast?_filterMap_eq_bind] at h
  obtain ⟨x, hx, hread⟩ := Option.bind_eq_some_iff.mp h
  obtain ⟨before, hbefore⟩ := List.getLast?_eq_some_iff.mp hx
  have hread_sorted := hsorted.filter fun y => (f y).isSome
  rw [hbefore] at hread_sorted
  refine ⟨x, (List.mem_filter.mp (List.mem_of_getLast? hx)).1, hread, fun y hy hsome => ?_⟩
  have hmem : y ∈ before ++ [x] := hbefore ▸ List.mem_filter.mpr ⟨hy, hsome⟩
  rcases List.mem_append.mp hmem with hy | hy
  · exact (List.pairwise_append.mp hread_sorted).2.2 y hy x (List.mem_singleton_self x)
  · rw [List.mem_singleton.mp hy]

/-! ### Records that are left out -/

section LeftOut

variable {α β : Type} {f : α → Option β} {p : α → Bool} {xs : List α}

/-- What is read last is still read last when only records are left out that nothing like it is
    read from. -/
theorem getLast?_filterMap_filter {b : β} (h : (xs.filterMap f).getLast? = some b)
    (hkept : ∀ x ∈ xs, f x = some b → p x = true) :
    ((xs.filter p).filterMap f).getLast? = some b := by
  obtain ⟨before, hbefore⟩ := List.getLast?_eq_some_iff.mp h
  obtain ⟨start, rest, rfl, -, hrest⟩ := List.filterMap_eq_append_iff.mp hbefore
  obtain ⟨skipped, x, after, rfl, hskipped, hx, hafter⟩ := List.filterMap_eq_cons_iff.mp hrest
  have hp : p x = true := hkept x (by simp) hx
  have hnone : (after.filter p).filterMap f = [] := by
    refine List.eq_nil_of_sublist_nil ?_
    rw [← hafter]
    exact List.filter_sublist.filterMap f
  simp [List.filter_cons_of_pos hp, hx, hnone]

/-- Picking some of what is read leaves nothing out with records that none of it is read from. -/
theorem filter_filterMap_filter {q : β → Bool}
    (hkept : ∀ x ∈ xs, ∀ b, f x = some b → q b = true → p x = true) :
    (xs.filterMap f).filter q = ((xs.filter p).filterMap f).filter q := by
  induction xs with
  | nil => rfl
  | cons x xs ih =>
    obtain ⟨hx, hxs⟩ := List.forall_mem_cons.mp hkept
    by_cases hp : p x = true
    · rw [List.filter_cons_of_pos hp, filterMap_cons_toList, filterMap_cons_toList,
        List.filter_append, List.filter_append, ih hxs]
    · rw [List.filter_cons_of_neg hp, filterMap_cons_toList, List.filter_append, ih hxs]
      have hnone : (f x).toList.filter q = [] := by
        rw [List.filter_eq_nil_iff]
        intro b hb hq
        exact hp (hx b (Option.mem_toList.mp hb) hq)
      rw [hnone, List.nil_append]

end LeftOut

/-! ## Sorting -/

section Sorting

variable {α : Type} {r : α → α → Prop} [DecidableRel r] [IsTrans α r]

theorem filter_orderedInsert {p : α → Bool} {a : α} {xs : List α} (hsorted : xs.Pairwise r) :
    (xs.orderedInsert r a).filter p =
      if p a then (xs.filter p).orderedInsert r a else xs.filter p := by
  induction xs with
  | nil => by_cases hp : p a <;> simp [hp]
  | cons b xs ih =>
    obtain ⟨hb, hrest⟩ := List.pairwise_cons.mp hsorted
    by_cases hab : r a b
    · rw [List.orderedInsert_cons_of_le _ _ hab]
      by_cases hp : p a
      · rw [List.filter_cons_of_pos hp, if_pos hp]
        -- `a` comes before everything that is left of the list
        have hall : ∀ c ∈ (b :: xs).filter p, r a c := by
          intro c hc
          rcases List.mem_cons.mp (List.mem_filter.mp hc).1 with rfl | hc
          · exact hab
          · exact IsTrans.trans a b c hab (hb c hc)
        cases hfilter : (b :: xs).filter p with
        | nil => rfl
        | cons c rest =>
          have hc : c ∈ (b :: xs).filter p := by
            rw [hfilter]
            exact List.mem_cons_self
          rw [List.orderedInsert_cons_of_le _ _ (hall c hc)]
      · rw [List.filter_cons_of_neg hp, if_neg hp]
    · rw [List.orderedInsert_of_not_le _ _ hab]
      by_cases hpb : p b
      · rw [List.filter_cons_of_pos hpb, List.filter_cons_of_pos hpb, ih hrest]
        by_cases hp : p a
        · rw [if_pos hp, if_pos hp, List.orderedInsert_of_not_le _ _ hab]
        · rw [if_neg hp, if_neg hp]
      · rw [List.filter_cons_of_neg hpb, List.filter_cons_of_neg hpb, ih hrest]

/-- Sorting keeps records of one rank in their order, so some of them can be picked out before
    or after. -/
theorem filter_insertionSort [Std.Total r] (p : α → Bool) (xs : List α) :
    (xs.insertionSort r).filter p = (xs.filter p).insertionSort r := by
  induction xs with
  | nil => rfl
  | cons a xs ih =>
    rw [List.insertionSort_cons, filter_orderedInsert (List.pairwise_insertionSort r xs), ih]
    by_cases hp : p a
    · rw [if_pos hp, List.filter_cons_of_pos hp, List.insertionSort_cons]
    · rw [if_neg hp, List.filter_cons_of_neg hp]

/-- Sorting is stable: records of one rank stand as they stood before. -/
theorem pairwise_insertionSort_stable [Std.Total r] {s : α → α → Prop} {xs : List α}
    (h : xs.Pairwise s) : (xs.insertionSort r).Pairwise fun a b => r a b ∧ (r b a → s a b) := by
  have hinsert : ∀ {a : α} {ys : List α}, (∀ b ∈ ys, s a b) →
      ys.Pairwise (fun a b => r a b ∧ (r b a → s a b)) →
      (ys.orderedInsert r a).Pairwise fun a b => r a b ∧ (r b a → s a b) := by
    intro a ys ha hys
    induction ys with
    | nil => exact List.pairwise_singleton _ a
    | cons b ys ih =>
      obtain ⟨hb, hrest⟩ := List.pairwise_cons.mp hys
      by_cases hab : r a b
      · rw [List.orderedInsert_cons_of_le _ _ hab]
        refine List.pairwise_cons.mpr ⟨fun c hc => ⟨?_, fun _ => ha c hc⟩, hys⟩
        rcases List.mem_cons.mp hc with rfl | hc
        · exact hab
        · exact IsTrans.trans a b c hab (hb c hc).1
      · -- what goes behind `b` ranks below it
        rw [List.orderedInsert_of_not_le _ _ hab]
        refine List.pairwise_cons.mpr ⟨fun c hc => ?_, ih (fun c hc => ha c (.tail b hc)) hrest⟩
        rcases (List.mem_orderedInsert r).mp hc with rfl | hc
        · exact ⟨(Std.Total.total b c).resolve_right hab, fun hcb => absurd hcb hab⟩
        · exact hb c hc
  induction xs with
  | nil => exact .nil
  | cons a xs ih =>
    obtain ⟨ha, hrest⟩ := List.pairwise_cons.mp h
    exact hinsert (fun b hb => ha b ((List.mem_insertionSort r).mp hb)) (ih hrest)

end Sorting

/-- Sorting what ranks below its last element sorts the rest. -/
theorem insertionSort_concat {α : Type} {r : α → α → Prop} [DecidableRel r] {xs : List α} {x : α}
    (h : ∀ a ∈ xs, r a x) : (xs ++ [x]).insertionSort r = xs.insertionSort r ++ [x] := by
  have hinsert : ∀ {a : α} (ys : List α), r a x →
      (ys ++ [x]).orderedInsert r a = ys.orderedInsert r a ++ [x] := by
    intro a ys hax
    induction ys with
    | nil => exact List.orderedInsert_cons_of_le r [] hax
    | cons y ys ih =>
      rw [List.cons_append, List.orderedInsert_cons, List.orderedInsert_cons]
      by_cases hay : r a y
      · rw [if_pos hay, if_pos hay]
        rfl
      · rw [if_neg hay, if_neg hay, ih]
        rfl
  induction xs with
  | nil => rfl
  | cons a xs ih =>
    rw [List.cons_append, List.insertionSort_cons, List.insertionSort_cons,
      ih fun b hb => h b (List.mem_cons_of_mem _ hb), hinsert _ (h a List.mem_cons_self)]

/-- The record of the highest key, where records and keys are written another way. -/
theorem argmax_map {α β κ ι : Type} [LinearOrder κ] [LinearOrder ι] {h : α → β} {f : β → κ}
    {g : α → ι} {xs : List α} (hkeys : ∀ a ∈ xs, ∀ b ∈ xs, f (h a) < f (h b) ↔ g a < g b) :
    (xs.map h).argmax f = (xs.argmax g).map h := by
  induction xs using List.reverseRecOn with
  | nil => rfl
  | append_singleton xs x ih =>
    have hrest := ih fun a ha b hb =>
      hkeys a (List.mem_append_left _ ha) b (List.mem_append_left _ hb)
    rw [List.map_append, List.map_singleton, List.argmax_concat, List.argmax_concat, hrest]
    cases hmax : xs.argmax g with
    | none => rfl
    | some best =>
      have hbest := hkeys best (List.mem_append_left _ (List.argmax_mem hmax)) x
        (List.mem_append_right _ List.mem_cons_self)
      simp only [Option.map_some, hbest]
      split <;> rfl

/-- Lists matched by records that rank alike are matched sorted. -/
theorem forall₂_insertionSort {α β : Type} {R : α → β → Prop} {r : α → α → Prop} {s : β → β → Prop}
    [DecidableRel r] [DecidableRel s]
    (hrank : ∀ a b x y, R a x → R b y → (r a b ↔ s x y)) {xs : List α} {ys : List β}
    (h : List.Forall₂ R xs ys) : List.Forall₂ R (xs.insertionSort r) (ys.insertionSort s) := by
  have hinsert : ∀ {a x} {as : List α} {zs : List β}, R a x → List.Forall₂ R as zs →
      List.Forall₂ R (as.orderedInsert r a) (zs.orderedInsert s x) := by
    intro a x as zs hax hrest
    induction hrest with
    | nil => exact .cons hax .nil
    | @cons b y as zs hby hrest ih =>
      rw [List.orderedInsert_cons, List.orderedInsert_cons]
      by_cases hab : r a b
      · rw [if_pos hab, if_pos ((hrank a b x y hax hby).mp hab)]
        exact .cons hax (.cons hby hrest)
      · rw [if_neg hab, if_neg fun hxy => hab ((hrank a b x y hax hby).mpr hxy)]
        exact .cons hby ih
  induction h with
  | nil => exact .nil
  | cons hax _ ih => exact hinsert hax ih

/-! ## Folds that can fail -/

/-- What holds at every element of a list, given those before it, does so of one element more. -/
theorem forall_split_concat {α : Type} {p : List α → α → Prop} {xs : List α} {x : α} :
    (∀ earlier next later, xs ++ [x] = earlier ++ next :: later → p earlier next) ↔
      (∀ earlier next later, xs = earlier ++ next :: later → p earlier next) ∧ p xs x := by
  constructor
  · intro h
    refine ⟨?_, h xs x [] rfl⟩
    intro earlier next later hsplit
    exact h earlier next (later ++ [x]) (by rw [hsplit]; simp)
  · intro h earlier next later hsplit
    rcases List.eq_nil_or_concat later with rfl | ⟨later', last, rfl⟩
    · obtain ⟨rfl, hlast⟩ := List.append_inj' hsplit rfl
      cases hlast
      exact h.2
    · rw [List.concat_eq_append, ← List.cons_append, ← List.append_assoc] at hsplit
      exact h.1 earlier next later' (List.append_inj' hsplit rfl).1

section FoldlM

variable {ε α σ : Type} {f : σ → α → Except ε σ}

theorem foldlM_cons_eq_ok {x : α} {xs : List α} {s t : σ} :
    (x :: xs).foldlM f s = .ok t ↔ ∃ u, f s x = .ok u ∧ xs.foldlM f u = .ok t := by
  rw [List.foldlM_cons, Except.bind_eq_ok]

theorem foldlM_append_eq_ok {xs ys : List α} {s t : σ} :
    (xs ++ ys).foldlM f s = .ok t ↔ ∃ u, xs.foldlM f s = .ok u ∧ ys.foldlM f u = .ok t := by
  rw [List.foldlM_append, Except.bind_eq_ok]

theorem foldlM_append_isOkay {xs ys : List α} {s : σ} :
    ((xs ++ ys).foldlM f s).isOkay ↔ ∃ u, xs.foldlM f s = .ok u ∧ (ys.foldlM f u).isOkay := by
  rw [List.foldlM_append, Except.bind_isOkay]

theorem foldlM_cons_isOkay {x : α} {xs : List α} {s : σ} :
    ((x :: xs).foldlM f s).isOkay ↔ ∃ u, f s x = .ok u ∧ (xs.foldlM f u).isOkay := by
  rw [List.foldlM_cons, Except.bind_isOkay]

/-- A method that is never refused leads where it leads with nothing skipped. -/
theorem foldlM_toExcept_eq_ok {g : σ → α → Outcome ε σ} {xs : List α} {s t : σ}
    (h : xs.foldlM (fun s x => (g s x).toExcept) s = .ok t) :
    xs.foldl (fun s x => (g s x).state) s = t := by
  induction xs generalizing s with
  | nil => exact Except.pure_eq_ok.mp h
  | cons x xs ih =>
    obtain ⟨u, hstep, hrest⟩ := foldlM_cons_eq_ok.mp h
    rw [List.foldl_cons, (Outcome.toExcept_eq_ok.mp hstep).2]
    exact ih hrest

theorem mapM_eq_ok {β : Type} {g : α → Except ε β} {xs : List α} {ys : List β} :
    xs.mapM g = .ok ys ↔ List.Forall₂ (fun x y => g x = .ok y) xs ys := by
  induction xs generalizing ys with
  | nil =>
    rw [List.mapM_nil, Except.pure_eq_ok, List.forall₂_nil_left_iff]
    exact eq_comm
  | cons x xs ih =>
    rw [List.mapM_cons, List.forall₂_cons_left_iff]
    simp only [Except.bind_eq_ok, Except.pure_eq_ok, ih]
    constructor
    · rintro ⟨y, hy, ys', hys', rfl⟩
      exact ⟨y, ys', hy, hys', rfl⟩
    · rintro ⟨y, ys', hy, hys', rfl⟩
      exact ⟨y, hy, ys', hys', rfl⟩

theorem mapM_isOkay {β : Type} {g : α → Except ε β} {xs : List α} :
    (xs.mapM g).isOkay ↔ ∀ x ∈ xs, (g x).isOkay := by
  induction xs with
  | nil => exact ⟨fun _ => by simp, fun _ => rfl⟩
  | cons x xs ih =>
    rw [List.mapM_cons, Except.bind_isOkay, List.forall_mem_cons, ← ih]
    constructor
    · rintro ⟨y, hy, hrest⟩
      obtain ⟨ys, hys, -⟩ := Except.bind_isOkay.mp hrest
      exact ⟨Except.isOkay_iff.mpr ⟨y, hy⟩, Except.isOkay_iff.mpr ⟨ys, hys⟩⟩
    · rintro ⟨hx, hxs⟩
      obtain ⟨y, hy⟩ := Except.isOkay_iff.mp hx
      obtain ⟨ys, hys⟩ := Except.isOkay_iff.mp hxs
      exact ⟨y, hy, Except.bind_isOkay.mpr ⟨ys, hys, rfl⟩⟩

theorem mapM_append_eq_ok {β : Type} {g : α → Except ε β} {xs ys : List α} {zs : List β} :
    (xs ++ ys).mapM g = .ok zs ↔ ∃ us vs, xs.mapM g = .ok us ∧ ys.mapM g = .ok vs ∧
      zs = us ++ vs := by
  rw [List.mapM_append]
  simp only [Except.bind_eq_ok, Except.pure_eq_ok]
  constructor
  · rintro ⟨us, hus, vs, hvs, rfl⟩
    exact ⟨us, vs, hus, hvs, rfl⟩
  · rintro ⟨us, vs, hus, hvs, rfl⟩
    exact ⟨us, hus, vs, hvs, rfl⟩

theorem mapM_cons_eq_ok {β : Type} {g : α → Except ε β} {x : α} {xs : List α} {ys : List β} :
    (x :: xs).mapM g = .ok ys ↔ ∃ z zs, g x = .ok z ∧ xs.mapM g = .ok zs ∧ ys = z :: zs := by
  rw [List.mapM_cons]
  simp only [Except.bind_eq_ok, Except.pure_eq_ok]
  constructor
  · rintro ⟨z, hz, zs, hzs, rfl⟩
    exact ⟨z, zs, hz, hzs, rfl⟩
  · rintro ⟨z, zs, hz, hzs, rfl⟩
    exact ⟨z, hz, zs, hzs, rfl⟩

/-- A fold succeeds where a fold over a view of its state does, when the steps correspond. -/
theorem foldlM_isOkay_view {ε' τ : Type} (g : τ → α → Except ε' τ) (view : σ → τ)
    (hview : ∀ s x t, g (view s) x = .ok t ↔ ∃ s', f s x = .ok s' ∧ view s' = t) (xs : List α)
    (s : σ) : (xs.foldlM f s).isOkay ↔ (xs.foldlM g (view s)).isOkay := by
  induction xs generalizing s with
  | nil => exact Iff.rfl
  | cons x xs ih =>
    rw [foldlM_cons_isOkay, foldlM_cons_isOkay]
    constructor
    · rintro ⟨s', hs', hrest⟩
      exact ⟨view s', (hview s x _).mpr ⟨s', hs', rfl⟩, (ih s').mp hrest⟩
    · rintro ⟨t, ht, hrest⟩
      obtain ⟨s', hs', rfl⟩ := (hview s x t).mp ht
      exact ⟨s', hs', (ih s').mpr hrest⟩

/-- A loop that keeps what a fallible test picks keeps all of it, where no test fails. -/
theorem filterM_eq_ok {p : α → Except ε Bool} {xs ys : List α} :
    xs.filterM p = .ok ys ↔
      (∀ x ∈ xs, (p x).isOkay) ∧ ys = xs.filter fun x => (p x).toOption = some true := by
  -- the library runs the loop with what it has kept in reverse
  have haux : ∀ xs acc zs : List α, xs.filterAuxM p acc = .ok zs ↔
      (∀ x ∈ xs, (p x).isOkay) ∧
        zs = (xs.filter fun x => (p x).toOption = some true).reverse ++ acc := by
    intro xs
    induction xs with
    | nil =>
      intro acc zs
      rw [List.filterAuxM, Except.pure_eq_ok]
      exact ⟨fun h => ⟨by simp, by simpa using h.symm⟩, fun h => by simpa using h.2.symm⟩
    | cons x xs ih =>
      intro acc zs
      rw [List.filterAuxM, Except.bind_eq_ok, List.forall_mem_cons]
      cases hx : p x with
      | error error => simp [Except.isOkay]
      | ok picked =>
        simp only [Except.ok.injEq, exists_eq_left', ih]
        cases picked <;> simp [hx, Except.isOkay, Except.toOption]
  rw [List.filterM, Except.bind_eq_ok]
  constructor
  · intro h
    obtain ⟨zs, hzs, h⟩ := h
    cases h
    obtain ⟨hokay, rfl⟩ := (haux xs [] zs).mp hzs
    exact ⟨hokay, by simp⟩
  · intro h
    obtain ⟨hokay, rfl⟩ := h
    exact ⟨_, (haux xs [] _).mpr ⟨hokay, rfl⟩, by simp [pure, Except.pure]⟩

/-- A check of every member passes where each member does. -/
theorem forM_eq_ok {f : α → Except ε Unit} {xs : List α} :
    xs.forM f = .ok () ↔ ∀ x ∈ xs, f x = .ok () := by
  induction xs with
  | nil => simp [pure, Except.pure]
  | cons x xs ih =>
    show ((f x) >>= fun _ => xs.forM f) = .ok () ↔ _
    rw [Except.bind_eq_ok, List.forall_mem_cons, ih]
    exact ⟨fun ⟨_, hx, hxs⟩ => ⟨hx, hxs⟩, fun ⟨hx, hxs⟩ => ⟨(), hx, hxs⟩⟩

theorem forM_isOkay {f : α → Except ε Unit} {xs : List α} :
    (xs.forM f).isOkay ↔ ∀ x ∈ xs, (f x).isOkay := by
  have hunit : ∀ y : Except ε Unit, y.isOkay ↔ y = .ok () := by
    intro y
    rw [Except.isOkay_iff]
    exact ⟨fun ⟨_, h⟩ => h, fun h => ⟨(), h⟩⟩
  simp only [hunit, forM_eq_ok]

/-- A relation between the records read so far and the state survives the whole fold when one
    step keeps it. -/
theorem foldlM_invariant (inv : List α → σ → Prop)
    (hstep : ∀ seen s x s', inv seen s → f s x = .ok s' → inv (seen ++ [x]) s')
    {xs : List α} {s t : σ} (h0 : inv [] s) (h : xs.foldlM f s = .ok t) : inv xs t := by
  suffices hgen : ∀ (ys seen : List α) (u : σ), inv seen u → ys.foldlM f u = .ok t →
      inv (seen ++ ys) t from hgen xs [] s h0 h
  intro ys
  induction ys with
  | nil =>
    intro seen u hu h
    rw [List.foldlM_nil, Except.pure_eq_ok] at h
    subst h
    simpa using hu
  | cons y ys ih =>
    intro seen u hu h
    obtain ⟨v, hv, hrest⟩ := foldlM_cons_eq_ok.mp h
    have := ih _ v (hstep seen u y v hu hv) hrest
    simpa using this

end FoldlM

/-! ### Numbers and what is kept -/

section Numbered

variable {α β : Type}

/-- Pairing keeps of the second list what the first is long enough for. -/
theorem map_snd_zip_eq_take (xs : List α) (ys : List β) :
    (xs.zip ys).map Prod.snd = ys.take xs.length := by
  induction xs generalizing ys with
  | nil => rfl
  | cons x rest ih =>
    cases ys with
    | nil => rfl
    | cons y ys => exact congrArg (y :: ·) (ih ys)

/-- Among what is kept of a list, an element goes by how many are kept before it. -/
theorem zipIdx_filter (p : α → Bool) (xs : List α) (i j : Nat) : (xs.filter p).zipIdx j =
    ((xs.zipIdx i).filter (p ·.1)).map fun x => (x.1, j + (xs.take (x.2 - i)).countP p) := by
  induction xs generalizing i j with
  | nil => rfl
  | cons x rest ih =>
    -- after the head, each position counts it when it is kept
    have hrest : ∀ a ∈ (rest.zipIdx (i + 1)).filter (p ·.1),
        ((x :: rest).take (a.2 - i)).countP p =
          (rest.take (a.2 - (i + 1))).countP p + if p x then 1 else 0 := by
      intro a ha
      have hpast := List.le_snd_of_mem_zipIdx (List.mem_of_mem_filter ha)
      have hnext : a.2 - i = a.2 - (i + 1) + 1 := by omega
      rw [hnext, List.take_succ_cons, List.countP_cons]
    rw [List.zipIdx_cons]
    by_cases hx : p x = true
    · have hkept : ((x, i) :: rest.zipIdx (i + 1)).filter (p ·.1) =
          (x, i) :: (rest.zipIdx (i + 1)).filter (p ·.1) := List.filter_cons_of_pos hx
      rw [List.filter_cons_of_pos hx, hkept, List.zipIdx_cons, List.map_cons, ih (i + 1) (j + 1)]
      congr 1
      · simp
      · apply List.map_congr_left
        intro a ha
        rw [hrest a ha, if_pos hx]
        congr 1
        omega
    · have hleft : ((x, i) :: rest.zipIdx (i + 1)).filter (p ·.1) =
          (rest.zipIdx (i + 1)).filter (p ·.1) := List.filter_cons_of_neg hx
      rw [List.filter_cons_of_neg hx, hleft, ih (i + 1) j]
      apply List.map_congr_left
      intro a ha
      rw [hrest a ha, if_neg hx]
      rfl

/-- Two readings that skip the same elements agree on a list where they agree on each element. -/
theorem filterMap_eq_iff {f g : α → Option β} {xs : List α}
    (h : ∀ x ∈ xs, (f x).isSome = (g x).isSome) :
    xs.filterMap f = xs.filterMap g ↔ ∀ x ∈ xs, f x = g x := by
  induction xs with
  | nil => simp
  | cons x rest ih =>
    obtain ⟨hx, hrest⟩ := List.forall_mem_cons.mp h
    rw [List.forall_mem_cons, ← ih hrest]
    cases hf : f x with
    | none =>
      rw [hf] at hx
      have hg : g x = none := Option.not_isSome_iff_eq_none.mp (by simp [← hx])
      rw [List.filterMap_cons_none hf, List.filterMap_cons_none hg]
      simp [hg]
    | some y =>
      rw [hf] at hx
      obtain ⟨z, hg⟩ := Option.isSome_iff_exists.mp hx.symm
      rw [List.filterMap_cons_some hf, List.filterMap_cons_some hg, List.cons.injEq, hg,
        Option.some.injEq]

end Numbered

/-! ### Every prefix of a run -/

/-- Where a step keeps a property exactly on a condition, a run has it at every prefix exactly where
    every step of it meets the condition. -/
theorem foldl_prefix_iff {α σ : Type} {step : σ → α → σ} {inv P : σ → Prop} {ok : σ → α → Prop}
    {start : σ} (hinv : inv start) (hkeep : ∀ s x, inv s → inv (step s x)) (hstart : P start)
    (hstep : ∀ s x, inv s → P s → (P (step s x) ↔ ok s x)) (xs : List α) :
    (∀ before, before <+: xs → P (before.foldl step start)) ↔
      ∀ before x, before ++ [x] <+: xs → ok (before.foldl step start) x := by
  -- the invariant needs no condition, so every prefix has it
  have hreached : ∀ before : List α, inv (before.foldl step start) := by
    intro before
    induction before using List.reverseRecOn with
    | nil => exact hinv
    | append_singleton before x ih =>
      rw [List.foldl_append]
      exact hkeep _ x ih
  constructor
  · intro hall before x hinitial
    have hbefore := hall before ((List.prefix_append before [x]).trans hinitial)
    have hafter := hall (before ++ [x]) hinitial
    rw [List.foldl_append] at hafter
    exact (hstep _ x (hreached before) hbefore).mp hafter
  · intro hok before
    induction before using List.reverseRecOn with
    | nil => exact fun _ => hstart
    | append_singleton before x ih =>
      intro hinitial
      have hbefore := ih ((List.prefix_append before [x]).trans hinitial)
      rw [List.foldl_append]
      exact (hstep _ x (hreached before) hbefore).mpr (hok before x hinitial)

/-- Two lists whose members match one to one, by keys that no two members of either share, hold the
    same values. -/
theorem map_perm_of_keys {α β κ γ : Type} {xs : List α} {ys : List β} {f : α → κ} {g : β → κ}
    {u : α → γ} {v : β → γ} (hxs : (xs.map f).Nodup) (hys : (ys.map g).Nodup)
    (hto : ∀ x ∈ xs, ∃ y ∈ ys, g y = f x ∧ v y = u x)
    (hback : ∀ y ∈ ys, ∃ x ∈ xs, g y = f x) : (xs.map u).Perm (ys.map v) := by
  have hpairs : (xs.map fun x => (f x, u x)).Perm (ys.map fun y => (g y, v y)) := by
    refine (List.perm_ext_iff_of_nodup ?_ ?_).mpr fun pair => ⟨fun hpair => ?_, fun hpair => ?_⟩
    · exact .of_map Prod.fst (by rwa [List.map_map])
    · exact .of_map Prod.fst (by rwa [List.map_map])
    · obtain ⟨x, hx, rfl⟩ := List.mem_map.mp hpair
      obtain ⟨y, hy, hkey, hvalue⟩ := hto x hx
      exact List.mem_map.mpr ⟨y, hy, by rw [hkey, hvalue]⟩
    · obtain ⟨y, hy, rfl⟩ := List.mem_map.mp hpair
      obtain ⟨x, hx, hkey⟩ := hback y hy
      obtain ⟨y', hy', hkey', hvalue⟩ := hto x hx
      -- the one that matches is the one that was given
      cases List.inj_on_of_nodup_map hys hy hy' (hkey.trans hkey'.symm)
      exact List.mem_map.mpr ⟨x, hx, by rw [hkey, hvalue]⟩
  have hvalues := hpairs.map Prod.snd
  rwa [List.map_map, List.map_map] at hvalues
