import Mathlib.Tactic
import Sahl.Lib.Lists

/-! # Rows under keys

    Entries are posted to rows, one row under each key: an entry goes to the row of its key, and
    a key met for the first time starts a row. What can be said of the row under a key is said of
    the entries of that key, in order (`Posting.posted`); what the rows come to together is what
    the entries do (`Posted.sum`). -/

/-! ## Section 1: Posting -/

/-- How entries are posted. -/
structure Posting (α κ ρ ε : Type) where
  key : α → κ
  /-- The row an entry starts when its key is new. -/
  fresh : α → ρ
  add : ρ → α → Except ε ρ

section Posting

variable {α κ ρ ε : Type} {cmp : κ → κ → Ordering} [Std.TransCmp cmp]

namespace Posting

/-- Post one entry. -/
def post (p : Posting α κ ρ ε) (rows : Std.ExtTreeMap κ ρ cmp) (entry : α) :
    Except ε (Std.ExtTreeMap κ ρ cmp) := do
  let row ← p.add (rows.getD (p.key entry) (p.fresh entry)) entry
  .ok (rows.insert (p.key entry) row)

theorem post_eq_ok {p : Posting α κ ρ ε} {rows rows' : Std.ExtTreeMap κ ρ cmp} {entry : α} :
    p.post rows entry = .ok rows' ↔
      ∃ row, p.add (rows.getD (p.key entry) (p.fresh entry)) entry = .ok row ∧
        rows' = rows.insert (p.key entry) row := by
  unfold post
  rw [Except.bind_eq_ok]
  simp [eq_comm]

/-- The keys that have a row, each once. -/
theorem nodup_keys (rows : Std.ExtTreeMap κ ρ cmp) : (rows.toList.map (·.1)).Nodup := by
  have hkeys : rows.toList.map (·.1) = rows.keys := Std.ExtTreeMap.map_fst_toList_eq_keys
  rw [hkeys]
  exact Std.ExtTreeMap.nodup_keys

variable [DecidableEq κ]

/-- The entries of one key, in order. -/
def under (p : Posting α κ ρ ε) (k : κ) (entries : List α) : List α :=
  entries.filter (p.key · = k)

/-- Rows that entries were posted to: the row under a key stands in a relation to the entries of
    that key, and there is a row where there is an entry. -/
structure Posted (p : Posting α κ ρ ε) (inv : κ → List α → ρ → Prop) (entries : List α)
    (rows : Std.ExtTreeMap κ ρ cmp) : Prop where
  row : ∀ (k : κ) (row : ρ), rows[k]? = some row → inv k (p.under k entries) row
  isSome : ∀ k : κ, rows[k]?.isSome ↔ ∃ e ∈ entries, p.key e = k

variable {p : Posting α κ ρ ε}

theorem under_append_self (entries : List α) (e : α) :
    p.under (p.key e) (entries ++ [e]) = p.under (p.key e) entries ++ [e] := by
  simp [under]

theorem under_append_other {k : κ} {e : α} (h : p.key e ≠ k) (entries : List α) :
    p.under k (entries ++ [e]) = p.under k entries := by
  simp [under, h]

theorem under_eq_nil {k : κ} {entries : List α} (h : ∀ e ∈ entries, p.key e ≠ k) :
    p.under k entries = [] := by
  refine List.filter_eq_nil_iff.mpr fun e he => ?_
  simpa using h e he

/-- **The rule of posting**: what the first entry of a key makes true of its row, and every later
    one keeps, is true of every row once all entries are posted. -/
theorem posted [Std.LawfulEqCmp cmp] {inv : κ → List α → ρ → Prop}
    (hstart : ∀ e row, p.add (p.fresh e) e = .ok row → inv (p.key e) [e] row)
    (hadd : ∀ seen row e row', inv (p.key e) seen row → p.add row e = .ok row' →
      inv (p.key e) (seen ++ [e]) row')
    {entries : List α} {rows : Std.ExtTreeMap κ ρ cmp}
    (h : entries.foldlM p.post ∅ = .ok rows) : p.Posted inv entries rows := by
  refine foldlM_invariant (fun seen (rows : Std.ExtTreeMap κ ρ cmp) => p.Posted inv seen rows)
    (fun seen rows e rows' hseen hstep => ?_) ?_ h
  · obtain ⟨row, hrow, rfl⟩ := post_eq_ok.mp hstep
    constructor
    · intro k found hfound
      rw [Std.ExtTreeMap.getElem?_insert] at hfound
      by_cases hkey : p.key e = k
      · subst hkey
        rw [if_pos (Std.ReflCmp.compare_self)] at hfound
        cases hfound
        rw [under_append_self]
        rw [Std.ExtTreeMap.getD_eq_getD_getElem?] at hrow
        cases hold : rows[p.key e]? with
        | none =>
          -- a key without a row has had no entry
          have hnone : p.under (p.key e) seen = [] := by
            refine under_eq_nil fun e' he' hsame => ?_
            have hsome := (hseen.isSome (p.key e)).mpr ⟨e', he', hsame⟩
            rw [hold] at hsome
            cases hsome
          rw [hnone]
          rw [hold] at hrow
          exact hstart e row hrow
        | some old =>
          rw [hold] at hrow
          exact hadd _ old e row (hseen.row _ old hold) hrow
      · rw [if_neg (fun hcmp => hkey (Std.LawfulEqCmp.eq_of_compare hcmp))] at hfound
        rw [under_append_other hkey]
        exact hseen.row k found hfound
    · intro k
      rw [Std.ExtTreeMap.getElem?_insert]
      by_cases hkey : p.key e = k
      · subst hkey
        rw [if_pos (Std.ReflCmp.compare_self)]
        exact ⟨fun _ => ⟨e, by simp, rfl⟩, fun _ => rfl⟩
      · rw [if_neg (fun hcmp => hkey (Std.LawfulEqCmp.eq_of_compare hcmp)), hseen.isSome k]
        simp only [List.mem_append, List.mem_singleton]
        constructor
        · rintro ⟨e', he', hk⟩
          exact ⟨e', .inl he', hk⟩
        · rintro ⟨e', he' | rfl, hk⟩
          · exact ⟨e', he', hk⟩
          · exact absurd hk hkey
  · constructor <;> simp

/-- Entries are all posted where what is true of a row lets the next entry of its key in. -/
theorem posted_isOkay [Std.LawfulEqCmp cmp] (inv : κ → List α → ρ → Prop)
    (hstart : ∀ e row, p.add (p.fresh e) e = .ok row → inv (p.key e) [e] row)
    (hadd : ∀ seen row e row', inv (p.key e) seen row → p.add row e = .ok row' →
      inv (p.key e) (seen ++ [e]) row')
    {entries : List α} (hfresh : ∀ e ∈ entries, (p.add (p.fresh e) e).isOkay)
    (hgoes : ∀ seen e row, seen ++ [e] <+: entries →
      inv (p.key e) (p.under (p.key e) seen) row → (p.add row e).isOkay) :
    ∃ rows : Std.ExtTreeMap κ ρ cmp, entries.foldlM p.post ∅ = .ok rows := by
  -- every initial part is posted, by induction on where it ends
  suffices hgen : ∀ seen : List α, seen <+: entries →
      ∃ rows : Std.ExtTreeMap κ ρ cmp, seen.foldlM p.post ∅ = .ok rows by
    exact hgen entries List.prefix_rfl
  intro seen
  induction seen using List.reverseRecOn with
  | nil => exact fun _ => ⟨∅, rfl⟩
  | append_singleton seen e ih =>
    intro hinitial
    obtain ⟨rows, hrows⟩ := ih ((List.prefix_append _ _).trans hinitial)
    have hrow : (p.add (rows.getD (p.key e) (p.fresh e)) e).isOkay := by
      rw [Std.ExtTreeMap.getD_eq_getD_getElem?]
      cases hold : rows[p.key e]? with
      | none => exact hfresh e (hinitial.subset List.mem_concat_self)
      | some row => exact hgoes seen e row hinitial ((posted hstart hadd hrows).row _ row hold)
    obtain ⟨row, hrow⟩ := Except.isOkay_iff.mp hrow
    exact ⟨_, foldlM_append_eq_ok.mpr ⟨rows, hrows,
      foldlM_cons_eq_ok.mpr ⟨_, post_eq_ok.mpr ⟨row, hrow, rfl⟩, rfl⟩⟩⟩

/-! ## Section 2: What the rows come to -/

namespace Posted

variable {inv inv' : κ → List α → ρ → Prop} {entries entries' : List α}
  {rows rows' : Std.ExtTreeMap κ ρ cmp}

theorem imp (h : p.Posted inv entries rows) (himp : ∀ k row, inv k (p.under k entries) row →
    inv' k (p.under k entries) row) : p.Posted inv' entries rows :=
  ⟨fun k row hrow => himp _ _ (h.row k row hrow), h.isSome⟩

theorem mono (h : p.Posted inv entries rows) (himp : ∀ k seen row, inv k seen row →
    inv' k seen row) : p.Posted inv' entries rows :=
  h.imp fun k row => himp k _ row

variable [Std.LawfulEqCmp cmp]

theorem mem_keys (h : p.Posted inv entries rows) {e : α} (he : e ∈ entries) :
    p.key e ∈ rows.toList.map (·.1) := by
  obtain ⟨row, hrow⟩ := Option.isSome_iff_exists.mp ((h.isSome (p.key e)).mpr ⟨e, he, rfl⟩)
  exact List.mem_map.mpr ⟨(p.key e, row), Std.ExtTreeMap.mem_toList_iff_getElem?_eq_some.mpr hrow,
    rfl⟩

/-- Rows that come to what their entries come to, come to what all entries do. -/
theorem sum {M : Type} [AddCommMonoid M] {view : ρ → M} {weight : α → M}
    (h : p.Posted (fun _ seen row => view row = (seen.map weight).sum) entries rows) :
    (rows.toList.map fun entry => view entry.2).sum = (entries.map weight).sum := by
  have hrows : rows.toList.map (fun entry => view entry.2) =
      (rows.toList.map (·.1)).map (keySum p.key weight entries) := by
    rw [List.map_map]
    refine List.map_congr_left fun entry hentry => ?_
    exact h.row entry.1 entry.2 (Std.ExtTreeMap.mem_toList_iff_getElem?_eq_some.mp hentry)
  rw [hrows]
  exact sum_keySum (nodup_keys rows) fun e he => h.mem_keys he

/-- Where a row is labelled with its key, no label repeats. -/
theorem nodup_labels {label : ρ → κ} {rest : κ → List α → ρ → Prop}
    (h : p.Posted (fun k seen row => label row = k ∧ rest k seen row) entries rows) :
    ((rows.toList.map (·.2)).map label).Nodup := by
  have hlabels : (rows.toList.map (·.2)).map label = rows.toList.map (·.1) := by
    rw [List.map_map]
    refine List.map_congr_left fun entry hentry => ?_
    exact (h.row _ _ (Std.ExtTreeMap.mem_toList_iff_getElem?_eq_some.mp hentry)).1
  rw [hlabels]
  exact nodup_keys rows

/-- Where a row is labelled with its key, what a label holds is what the entries of the key do. -/
theorem keySum_rows {M : Type} [AddCommMonoid M] {label : ρ → κ} {view : ρ → M}
    {weight : α → M}
    (h : p.Posted (fun k seen row => label row = k ∧ view row = (seen.map weight).sum) entries
      rows) (k : κ) :
    keySum label view (rows.toList.map (·.2)) k = keySum p.key weight entries k := by
  -- no row under the key means no entry and no label; a row is the only one of its label
  cases hrow : rows[k]? with
  | none =>
    have hnone : ∀ e ∈ entries, p.key e ≠ k := by
      intro e he hk
      have hsome := (h.isSome k).mpr ⟨e, he, hk⟩
      rw [hrow] at hsome
      cases hsome
    rw [keySum_not_mem, keySum_not_mem]
    · intro hk
      obtain ⟨e, he, hek⟩ := List.mem_map.mp hk
      exact hnone e he hek
    · intro hk
      obtain ⟨row, hmem, rfl⟩ := List.mem_map.mp hk
      obtain ⟨⟨k', row'⟩, hmem', rfl⟩ := List.mem_map.mp hmem
      have hfound := Std.ExtTreeMap.mem_toList_iff_getElem?_eq_some.mp hmem'
      rw [(h.row k' row' hfound).1, hfound] at hrow
      cases hrow
  | some row =>
    obtain ⟨hlabel, hview⟩ := h.row k row hrow
    have hmem : row ∈ rows.toList.map (·.2) :=
      List.mem_map.mpr ⟨(k, row), Std.ExtTreeMap.mem_toList_iff_getElem?_eq_some.mpr hrow, rfl⟩
    have hone := keySum_mem_nodup (f := view) h.nodup_labels hmem
    rw [hlabel] at hone
    rw [hone, hview]
    rfl

/-- Where the entries of a key decide its row in whatever order they came, entries posted in
    another order make the same rows. -/
theorem perm
    (hdecides : ∀ k xs ys row row', xs.Perm ys → inv k xs row → inv k ys row' → row = row')
    (hperm : entries.Perm entries') (h : p.Posted inv entries rows)
    (h' : p.Posted inv entries' rows') : rows = rows' := by
  refine Std.ExtTreeMap.ext_getElem? fun k => ?_
  have hsame : rows[k]?.isSome ↔ rows'[k]?.isSome := by
    rw [h.isSome, h'.isSome]
    simp only [hperm.mem_iff]
  cases hrow : rows[k]? with
  | none =>
    rw [hrow] at hsame
    simpa using hsame
  | some row =>
    rw [hrow] at hsame
    obtain ⟨row', hrow'⟩ := Option.isSome_iff_exists.mp (hsame.mp rfl)
    rw [hrow', hdecides k _ _ row row' (hperm.filter _) (h.row k row hrow) (h'.row k row' hrow')]

/-- Entries posted in another order make rows under the same keys, in the same order. -/
theorem keys_perm (hperm : entries.Perm entries') (h : p.Posted inv entries rows)
    (h' : p.Posted inv' entries' rows') : rows.keys = rows'.keys := by
  have hsame : ∀ k, k ∈ rows.keys ↔ k ∈ rows'.keys := by
    intro k
    rw [Std.ExtTreeMap.mem_keys, Std.ExtTreeMap.mem_keys, Std.ExtTreeMap.mem_iff_isSome_getElem?,
      Std.ExtTreeMap.mem_iff_isSome_getElem?, h.isSome, h'.isSome]
    simp only [hperm.mem_iff]
  refine List.Perm.eq_of_pairwise (fun a b _ _ (hab : cmp a b = .lt) hba => ?_)
    Std.ExtTreeMap.ordered_keys Std.ExtTreeMap.ordered_keys ?_
  · exact absurd hba (Std.OrientedCmp.not_lt_of_lt hab)
  · exact (List.perm_ext_iff_of_nodup Std.ExtTreeMap.nodup_keys Std.ExtTreeMap.nodup_keys).mpr
      hsame

/-- Where the entries of a key, in either order, make rows that match, entries posted in another
    order make rows that match key by key. -/
theorem forall₂_rows {R : ρ → ρ → Prop} (hperm : entries.Perm entries')
    (hmatch : ∀ k row row', inv k (p.under k entries) row → inv' k (p.under k entries') row' →
      R row row') (h : p.Posted inv entries rows) (h' : p.Posted inv' entries' rows') :
    List.Forall₂ R (rows.toList.map (·.2)) (rows'.toList.map (·.2)) := by
  have hkeys : rows.toList.map (·.1) = rows'.toList.map (·.1) := by
    rw [Std.ExtTreeMap.map_fst_toList_eq_keys, Std.ExtTreeMap.map_fst_toList_eq_keys]
    exact h.keys_perm hperm h'
  have hpaired : List.Forall₂ (fun a b => a.1 = b.1) rows.toList rows'.toList := by
    rw [← List.forall₂_eq_eq_eq, List.forall₂_map_left_iff, List.forall₂_map_right_iff] at hkeys
    exact hkeys
  rw [List.forall₂_map_left_iff, List.forall₂_map_right_iff]
  refine List.forall₂_iff_zip.mpr ⟨hpaired.length_eq, fun {a b} hab => ?_⟩
  obtain ⟨ha, hb⟩ := List.of_mem_zip hab
  have hkey := List.forall₂_zip hpaired hab
  refine hmatch a.1 _ _ (h.row _ _ (Std.ExtTreeMap.mem_toList_iff_getElem?_eq_some.mp ha)) ?_
  rw [hkey]
  exact h'.row _ _ (Std.ExtTreeMap.mem_toList_iff_getElem?_eq_some.mp hb)

end Posted

end Posting

/-! ## Section 3: Posting that cannot fail -/

/-- The row under a key is what the entries of the key make of a fresh one. -/
theorem Posting.getElem?_foldl_insert [Std.LawfulEqCmp cmp] [DecidableEq κ] (key : α → κ) (fresh : ρ)
    (add : ρ → α → ρ) (entries : List α) (k : κ) :
    (entries.foldl (fun (rows : Std.ExtTreeMap κ ρ cmp) e =>
        rows.insert (key e) (add (rows.getD (key e) fresh) e)) ∅)[k]? =
      if entries.filter (key · = k) = [] then none
      else some ((entries.filter (key · = k)).foldl add fresh) := by
  induction entries using List.reverseRecOn generalizing k with
  | nil => simp
  | append_singleton seen e ih =>
    rw [List.foldl_append, List.foldl_cons, List.foldl_nil, Std.ExtTreeMap.getElem?_insert,
      List.filter_append]
    -- an entry changes the row of its own key alone
    by_cases hkey : key e = k
    · subst hkey
      have hsome : seen.filter (key · = key e) ++ [e] ≠ [] :=
        List.append_ne_nil_of_right_ne_nil _ (List.cons_ne_nil _ _)
      rw [if_pos Std.ReflCmp.compare_self, Std.ExtTreeMap.getD_eq_getD_getElem?, ih,
        List.filter_cons_of_pos (by simp), List.filter_nil, if_neg hsome, List.foldl_append]
      by_cases hnone : seen.filter (key · = key e) = []
      · rw [if_pos hnone, hnone]
        rfl
      · rw [if_neg hnone]
        rfl
    · rw [if_neg fun hsame => hkey (Std.LawfulEqCmp.eq_of_compare hsame),
        List.filter_cons_of_neg (by simpa using hkey), List.filter_nil, List.append_nil]
      exact ih k

end Posting

/-! ## Section 4: Counting -/

section Counting

variable {κ : Type} {cmp : κ → κ → Ordering} [Std.TransCmp cmp]

/-- How often each key is there. -/
def countBy (keys : List κ) : Std.ExtTreeMap κ Nat cmp :=
  keys.foldl (fun counts k => counts.insert k (counts.getD k 0 + 1)) ∅

variable [Std.LawfulEqCmp cmp] [BEq κ] [LawfulBEq κ]

theorem getElem?_countBy (keys : List κ) (k : κ) :
    (countBy keys : Std.ExtTreeMap κ Nat cmp)[k]? =
      if keys.count k = 0 then none else some (keys.count k) := by
  have : DecidableEq κ := instDecidableEqOfLawfulBEq
  have hfold := @Posting.getElem?_foldl_insert κ κ Nat cmp _ _ _ id 0 (fun n _ => n + 1) keys k
  have hcount : ∀ xs : List κ, ∀ n, xs.foldl (fun n _ => n + 1) n = n + xs.length := by
    intro xs
    induction xs with
    | nil => exact fun n => rfl
    | cons x xs ih =>
      intro n
      rw [List.foldl_cons, ih, List.length_cons]
      omega
  show (keys.foldl _ ∅ : Std.ExtTreeMap κ Nat cmp)[k]? = _
  refine hfold.trans ?_
  have hfilter : keys.filter (fun x => decide (id x = k)) = keys.filter (· == k) :=
    List.filter_congr fun x _ => (beq_eq_decide x k).symm
  rw [hcount, zero_add, hfilter, ← List.count_eq_length_filter]
  simp only [List.count_eq_length_filter, List.length_eq_zero_iff]

theorem mem_countBy {keys : List κ} {k : κ} {n : Nat} :
    (k, n) ∈ (countBy keys : Std.ExtTreeMap κ Nat cmp).toList ↔ 0 < n ∧ keys.count k = n := by
  rw [Std.ExtTreeMap.mem_toList_iff_getElem?_eq_some, getElem?_countBy]
  by_cases hzero : keys.count k = 0
  · rw [if_pos hzero]
    exact ⟨fun h => (by cases h), fun h => by omega⟩
  · rw [if_neg hzero, Option.some.injEq]
    exact ⟨fun h => ⟨by omega, h⟩, fun h => h.2⟩

theorem countBy_perm {keys keys' : List κ} (h : keys.Perm keys') :
    (countBy keys : Std.ExtTreeMap κ Nat cmp) = countBy keys' := by
  refine Std.ExtTreeMap.ext_getElem? fun k => ?_
  rw [getElem?_countBy, getElem?_countBy, h.count_eq]

end Counting
