import Mathlib.Tactic

/-! # A contested register

    Owners make claims on one register. An owner's claim replaces its own; against another's the
    earlier one stands. `converges_iff` says for which claims the register ends with one owner
    whatever order the owners' streams arrive in. -/

namespace Contest

section Register

variable {Owner C K : Type} [DecidableEq Owner] [LinearOrder K] (owner : C → Owner) (key : C → K)

/-- The claim that stands after one more. -/
def keep (standing : Option C) (claim : C) : C :=
  match standing with
  | none => claim
  | some held =>
    if owner held = owner claim then claim
    else if key claim < key held then claim
    else held

/-- The claim that stands after a run of claims. -/
def settle (standing : Option C) (claims : List C) : Option C :=
  claims.foldl (fun standing claim => some (keep owner key standing claim)) standing

/-- Each owner makes the same claims in the same order. -/
def Interleaving (xs ys : List C) : Prop :=
  ∀ o, xs.filter (owner · = o) = ys.filter (owner · = o)

/-- No order of arrival keeps the register from `o`. -/
inductive Prevails (standing : Option C) (claims : List C) (o : Owner) : Prop where
  /-- Its last claim is earlier than every claim of the others, and what stands at first is its
      own or later than one of its claims. -/
  | claiming (last : C) : (claims.filter (owner · = o)).getLast? = some last →
      (∀ held, standing = some held →
        owner held = o ∨ ∃ claim ∈ claims, owner claim = o ∧ key claim < key held) →
      (∀ claim ∈ claims, owner claim ≠ o → key last < key claim) → Prevails standing claims o
  /-- It makes no claim, and what stands at first is its own and earlier than every claim. -/
  | holding (held : C) : standing = some held → owner held = o →
      (∀ claim ∈ claims, owner claim ≠ o ∧ key held < key claim) → Prevails standing claims o

variable {owner key} {standing : Option C} {claims xs ys : List C} {o : Owner}

@[simp] theorem settle_nil : settle owner key standing [] = standing := rfl

theorem settle_cons (claim : C) (claims : List C) :
    settle owner key standing (claim :: claims) =
      settle owner key (some (keep owner key standing claim)) claims := rfl

theorem settle_append (xs ys : List C) :
    settle owner key standing (xs ++ ys) =
      settle owner key (settle owner key standing xs) ys := List.foldl_append

theorem settle_isSome (h : claims ≠ []) : (settle owner key standing claims).isSome := by
  cases claims with
  | nil => exact absurd rfl h
  | cons claim claims =>
    rw [settle_cons]
    generalize keep owner key standing claim = held
    clear h claim
    induction claims generalizing held with
    | nil => rfl
    | cons claim claims ih => exact ih _

variable (owner key) in
theorem keep_cases (standing : Option C) (claim : C) :
    keep owner key standing claim = claim ∨
      standing = some (keep owner key standing claim) ∧
        owner (keep owner key standing claim) ≠ owner claim ∧
        ¬ key claim < key (keep owner key standing claim) := by
  cases standing with
  | none => exact .inl rfl
  | some held =>
    unfold keep
    by_cases hown : owner held = owner claim
    · simp [hown]
    · by_cases hearlier : key claim < key held
      · simp [hown, hearlier]
      · simp [hown, hearlier]

theorem keep_of_later {held claim : C} (hother : owner held ≠ owner claim)
    (hlate : ¬ key claim < key held) : keep owner key (some held) claim = held := by
  simp only [keep, if_neg hother, if_neg hlate]

/-! ## One owner prevails -/

/-- What prevails before a claim prevails after it. -/
theorem Prevails.tail {claim : C} {claims : List C}
    (h : Prevails owner key standing (claim :: claims) o) :
    Prevails owner key (some (keep owner key standing claim)) claims o := by
  have hkeep := keep_cases owner key standing claim
  cases h with
  | claiming last hlast htakes hearlier =>
    -- what the claim leaves standing, if it is another's, a claim still to come beats
    have hrest : ∀ held, standing = some held → ¬ key claim < key held → owner held ≠ o →
        ∃ later ∈ claims, owner later = o ∧ key later < key held := by
      intro held hstanding hlate hother
      rcases htakes held hstanding with hown | ⟨later, hmem, hlater, hbeats⟩
      · exact absurd hown hother
      · rcases List.mem_cons.mp hmem with rfl | hmem
        · exact absurd hbeats hlate
        · exact ⟨later, hmem, hlater, hbeats⟩
    have hafter : ∀ c ∈ claims, owner c ≠ o → key last < key c :=
      fun c hc => hearlier c (List.mem_cons_of_mem _ hc)
    by_cases hown : owner claim = o
    · have htook : ∀ held, keep owner key standing claim = held → owner held = o ∨
          ∃ later ∈ claims, owner later = o ∧ key later < key held := by
        rintro held rfl
        rcases hkeep with hkept | ⟨hstands, hother, hlate⟩
        · exact .inl (by rw [hkept, hown])
        · exact .inr (hrest _ hstands hlate (by rwa [hown] at hother))
      rw [List.filter_cons_of_pos (by simpa using hown), List.getLast?_cons] at hlast
      cases hmore : (claims.filter (owner · = o)).getLast? with
      | some later =>
        rw [hmore] at hlast
        obtain rfl : later = last := Option.some.inj hlast
        exact .claiming later hmore (fun held h => htook held (Option.some.inj h)) hafter
      | none =>
        rw [hmore] at hlast
        obtain rfl : claim = last := Option.some.inj hlast
        have hnone : ∀ c ∈ claims, owner c ≠ o := by
          simpa [List.getLast?_eq_none_iff, List.filter_eq_nil_iff] using hmore
        have hkept : keep owner key standing claim = claim := by
          rcases hkeep with hkept | ⟨hstands, hother, hlate⟩
          · exact hkept
          · obtain ⟨later, hmem, hlater, -⟩ :=
              hrest _ hstands hlate (by rwa [hown] at hother)
            exact absurd hlater (hnone later hmem)
        rw [hkept]
        exact .holding claim rfl hown fun c hc => ⟨hnone c hc, hafter c hc (hnone c hc)⟩
    · rw [List.filter_cons_of_neg (by simpa using hown)] at hlast
      refine .claiming last hlast (fun held hheld => ?_) hafter
      obtain rfl := Option.some.inj hheld
      rcases hkeep with hkept | ⟨hstands, -, hlate⟩
      · have hmem := List.mem_filter.mp (List.mem_of_getLast? hlast)
        rw [hkept]
        exact .inr ⟨last, hmem.1, by simpa using hmem.2, hearlier claim List.mem_cons_self hown⟩
      · by_cases hheld : owner (keep owner key standing claim) = o
        · exact .inl hheld
        · exact .inr (hrest _ hstands hlate hheld)
  | holding held hstanding hheld hall =>
    obtain ⟨hother, hlate⟩ := hall claim List.mem_cons_self
    have hkept : keep owner key standing claim = held := by
      subst hstanding
      exact keep_of_later (by rw [hheld]; exact fun h => hother h.symm) (not_lt.mpr hlate.le)
    rw [hkept]
    exact .holding held rfl hheld fun c hc => hall c (List.mem_cons_of_mem _ hc)

theorem Prevails.settle (h : Prevails owner key standing claims o) :
    ∃ last, settle owner key standing claims = some last ∧ owner last = o := by
  induction claims generalizing standing with
  | nil =>
    cases h with
    | claiming last hlast => simp at hlast
    | holding held hstanding hown => exact ⟨held, hstanding, hown⟩
  | cons claim claims ih => exact ih h.tail

theorem Interleaving.mem_iff (h : Interleaving owner xs ys) {claim : C} :
    claim ∈ xs ↔ claim ∈ ys := by
  have hown := congrArg (claim ∈ ·) (h (owner claim))
  simpa using hown

theorem Prevails.interleaving (h : Prevails owner key standing xs o)
    (hys : Interleaving owner xs ys) : Prevails owner key standing ys o := by
  cases h with
  | claiming last hlast htakes hearlier =>
    refine .claiming last (by rw [← hys o, hlast]) (fun held hstanding => ?_)
      fun claim hclaim => hearlier claim (hys.mem_iff.mpr hclaim)
    rcases htakes held hstanding with hown | ⟨claim, hmem, hclaim⟩
    · exact .inl hown
    · exact .inr ⟨claim, hys.mem_iff.mp hmem, hclaim⟩
  | holding held hstanding hheld hall =>
    exact .holding held hstanding hheld fun claim hclaim => hall claim (hys.mem_iff.mpr hclaim)

/-! ## Nobody else can be sure -/

/-- The owner of what stands at the end made none of the claims: it stood at first, and every
    claim was later. -/
theorem settle_others {s : C} (hkey : ∀ a b : C, key a = key b → owner a = owner b)
    (hothers : ∀ claim ∈ claims, owner claim ≠ o) (hown : owner s = o)
    (h : settle owner key standing claims = some s) :
    standing = some s ∧ ∀ claim ∈ claims, key s < key claim := by
  induction claims generalizing standing with
  | nil => exact ⟨h, by simp⟩
  | cons claim claims ih =>
    obtain ⟨hclaim, hrest⟩ := List.forall_mem_cons.mp hothers
    obtain ⟨hstood, hlater⟩ := ih hrest h
    have hkept := Option.some.inj hstood
    rcases keep_cases owner key standing claim with
      hreplaced | ⟨hstands, -, hlate⟩
    · rw [hreplaced] at hkept
      exact absurd (hkept ▸ hown) hclaim
    · rw [hkept] at hstands hlate
      refine ⟨hstands, List.forall_mem_cons.mpr ⟨lt_of_le_of_ne (not_lt.mp hlate) ?_, hlater⟩⟩
      exact fun hsame => hclaim (hkey s claim hsame ▸ hown)

/-- The owner of what stands at the end made all of the claims: its last one stands, and it
    stood at first or one of them was earlier than what did. -/
theorem settle_own {s : C} (hall : ∀ claim ∈ claims, owner claim = o) (hsome : claims ≠ [])
    (hown : owner s = o) (h : settle owner key standing claims = some s) :
    claims.getLast? = some s ∧ ∀ held, standing = some held →
      owner held = o ∨ ∃ claim ∈ claims, key claim < key held := by
  induction claims generalizing standing with
  | nil => exact absurd rfl hsome
  | cons claim claims ih =>
    obtain ⟨hclaim, hrest⟩ := List.forall_mem_cons.mp hall
    -- a holder of another owner keeps against a claim that is not ahead of it
    have hbeaten : ∀ held, standing = some held → owner held ≠ o → ¬ key claim < key held →
        keep owner key standing claim = held := by
      intro held hstanding hother hlate
      subst hstanding
      exact keep_of_later (by rwa [hclaim]) hlate
    -- the last claim decides who holds; an earlier one, whether the first holder was beaten
    by_cases hmore : claims = []
    · subst hmore
      have hkept : keep owner key standing claim = s := Option.some.inj h
      have hlast : claim = s := by
        rcases keep_cases owner key standing claim with
          hreplaced | ⟨-, hother, -⟩
        · rw [← hreplaced, hkept]
        · rw [hkept, hclaim] at hother
          exact absurd hown hother
      refine ⟨by rw [hlast]; rfl, fun held hstanding => ?_⟩
      by_contra hcon
      rw [not_or] at hcon
      have hlate : ¬ key claim < key held := fun hlt =>
        hcon.2 ⟨claim, List.mem_cons_self, hlt⟩
      have hheld := hbeaten held hstanding hcon.1 hlate
      rw [hkept] at hheld
      exact hcon.1 (hheld ▸ hown)
    · obtain ⟨hlast, hfirst⟩ := ih hrest hmore h
      refine ⟨by rw [List.getLast?_cons, hlast]; rfl, fun held hstanding => ?_⟩
      by_contra hcon
      rw [not_or] at hcon
      have hlate : ¬ key claim < key held := fun hlt =>
        hcon.2 ⟨claim, List.mem_cons_self, hlt⟩
      have hkept := congrArg some (hbeaten held hstanding hcon.1 hlate)
      rcases hfirst held hkept with hheld | ⟨later, hmem, hlt⟩
      · exact hcon.1 hheld
      · exact hcon.2 ⟨later, List.mem_cons_of_mem _ hmem, hlt⟩

theorem interleaving_front (claims : List C) (o : Owner) : Interleaving owner claims
    (claims.filter (owner · = o) ++ claims.filter (owner · ≠ o)) := by
  intro p
  rw [List.filter_append, List.filter_filter, List.filter_filter]
  by_cases hp : p = o
  · subst hp
    simp
  · have hnone : ∀ c ∈ claims, ¬ (decide (owner c = p) && decide (owner c = o)) = true := by
      intro c _ hc
      rw [Bool.and_eq_true, decide_eq_true_eq, decide_eq_true_eq] at hc
      exact hp (hc.1.symm.trans hc.2)
    rw [List.filter_eq_nil_iff.mpr hnone, List.nil_append]
    refine List.filter_congr fun c _ => ?_
    by_cases hc : owner c = p
    · simp [hc, hp]
    · simp [hc]

/-- **Convergence, exactly**: the register ends with the same owner in every order of arrival
    when nothing is claimed, or when one owner prevails. -/
theorem converges_iff (hkey : ∀ a b : C, key a = key b → owner a = owner b)
    (standing : Option C) (claims : List C) :
    (∀ xs ys, Interleaving owner claims xs → Interleaving owner claims ys →
      (settle owner key standing xs).map owner = (settle owner key standing ys).map owner) ↔
      claims = [] ∨ ∃ o, Prevails owner key standing claims o := by
  constructor
  · intro h
    by_cases hsome : claims = []
    · exact .inl hsome
    · have hstands : (settle owner key standing claims).isSome := settle_isSome hsome
      obtain ⟨s, hs⟩ := Option.isSome_iff_exists.mp hstands
      -- let the owner that ends up with the register make all its claims first
      have hsame := h _ _ (interleaving_front claims (owner s)) fun _ => rfl
      rw [hs, settle_append] at hsame
      obtain ⟨last, hlast, hown⟩ := Option.map_eq_some_iff.mp hsame
      obtain ⟨hmid, hlater⟩ := settle_others hkey (o := owner s)
        (fun claim hclaim => by simpa using (List.mem_filter.mp hclaim).2) hown hlast
      refine .inr ⟨owner s, ?_⟩
      by_cases hclaims : claims.filter (owner · = owner s) = []
      · have hnone : ∀ claim ∈ claims, owner claim ≠ owner s := by
          simpa [List.filter_eq_nil_iff] using hclaims
        rw [hclaims, settle_nil] at hmid
        refine .holding last hmid hown fun claim hclaim => ⟨hnone claim hclaim, ?_⟩
        exact hlater claim (List.mem_filter.mpr ⟨hclaim, by simpa using hnone claim hclaim⟩)
      · obtain ⟨hlast, hfirst⟩ := settle_own (o := owner s)
          (fun claim hclaim => by simpa using (List.mem_filter.mp hclaim).2) hclaims hown hmid
        refine .claiming last hlast (fun held hheld => ?_) fun claim hclaim hother => ?_
        · rcases hfirst held hheld with hheld | ⟨claim, hclaim, hlt⟩
          · exact .inl hheld
          · obtain ⟨hmem, hclaim⟩ := List.mem_filter.mp hclaim
            exact .inr ⟨claim, hmem, by simpa using hclaim, hlt⟩
        · exact hlater claim (List.mem_filter.mpr ⟨hclaim, by simpa using hother⟩)
  · rintro (rfl | ⟨o, hprevails⟩) xs ys hxs hys
    · have hnil : ∀ {zs : List C}, Interleaving owner [] zs → zs = [] := fun h =>
        List.eq_nil_iff_forall_not_mem.mpr fun claim hclaim => by
          simpa using h.mem_iff.mpr hclaim
      rw [hnil hxs, hnil hys]
    · obtain ⟨x, hx, hxo⟩ := (hprevails.interleaving hxs).settle
      obtain ⟨y, hy, hyo⟩ := (hprevails.interleaving hys).settle
      rw [hx, hy, Option.map_some, Option.map_some, hxo, hyo]

end Register

end Contest
