import Mathlib.Tactic

/-! # JSON values and their compact text

    A JSON value, the compact text a writer gives it, and the theorem that the text of a value
    without floating-point numbers determines the value, whatever follows it in the stream
    (`write_unique`). Objects hold their entries in the order of their map. -/

namespace Json

/-! ## Section 1: Digits -/

/-- `width` hexadecimal digits, most significant first. -/
def hexDigits : Nat → Nat → List Char
  | 0, _ => []
  | width + 1, n => hexDigits width (n / 16) ++ [Nat.digitChar (n % 16)]

theorem digitChar_inj : ∀ a < 16, ∀ b < 16, Nat.digitChar a = Nat.digitChar b → a = b := by
  decide

@[simp] theorem hexDigits_length (width n : Nat) : (hexDigits width n).length = width := by
  induction width generalizing n with
  | zero => rfl
  | succ width ih => simp [hexDigits, ih]

theorem hexDigits_inj {width a b : Nat} (ha : a < 16 ^ width) (hb : b < 16 ^ width)
    (h : hexDigits width a = hexDigits width b) : a = b := by
  induction width generalizing a b with
  | zero => simp_all
  | succ width ih =>
    simp only [hexDigits] at h
    obtain ⟨hhigh, hlow⟩ := List.append_inj h (by simp)
    have hhigh := ih (by rw [pow_succ] at ha; omega) (by rw [pow_succ] at hb; omega) hhigh
    have hlow := digitChar_inj _ (Nat.mod_lt _ (by decide)) _ (Nat.mod_lt _ (by decide))
      (List.cons.inj hlow).1
    omega

/-- Two texts that agree split alike where one kind of character ends. -/
theorem append_unique {p : Char → Bool} {xs ys r r' : List Char}
    (hxs : ∀ c ∈ xs, p c = true) (hys : ∀ c ∈ ys, p c = true)
    (hr : ∀ c ∈ r.head?, p c = false) (hr' : ∀ c ∈ r'.head?, p c = false)
    (h : xs ++ r = ys ++ r') : xs = ys ∧ r = r' := by
  induction xs generalizing ys with
  | nil =>
    match ys with
    | [] => exact ⟨rfl, h⟩
    | y :: ys =>
      have := hr y (by rw [List.nil_append] at h; simp [h])
      simp [hys y List.mem_cons_self] at this
  | cons x xs ih =>
    match ys with
    | [] =>
      have := hr' x (by rw [List.nil_append] at h; simp [← h])
      simp [hxs x List.mem_cons_self] at this
    | y :: ys =>
      rw [List.cons_append, List.cons_append, List.cons.injEq] at h
      obtain ⟨rfl, h⟩ := h
      obtain ⟨rfl, hrest⟩ := ih (fun c hc => hxs c (List.mem_cons_of_mem _ hc))
        (fun c hc => hys c (List.mem_cons_of_mem _ hc)) h
      exact ⟨rfl, hrest⟩

/-! ## Section 2: Numbers -/

/-- The decimal text of an integer. -/
def writeInt : Int → List Char
  | .ofNat n => Nat.toDigits 10 n
  | .negSucc n => '-' :: Nat.toDigits 10 (n + 1)

/-- What may follow a value: nothing, or the character that ends or continues what holds it. -/
def Ends (r : List Char) : Prop := ∀ c ∈ r.head?, c = ',' ∨ c = ']' ∨ c = '}'

theorem Ends.not_digit {r : List Char} (h : Ends r) : ∀ c ∈ r.head?, c.isDigit = false := by
  intro c hc
  rcases h c hc with rfl | rfl | rfl <;> decide

theorem toDigits_inj {m n : Nat} (h : Nat.toDigits 10 m = Nat.toDigits 10 n) : m = n := by
  rw [← Nat.ofDigitChars_ten_toDigits (n := m), h, Nat.ofDigitChars_ten_toDigits]

theorem toDigits_isDigit (n : Nat) : ∀ c ∈ Nat.toDigits 10 n, c.isDigit = true :=
  fun _ hc => Nat.isDigit_of_mem_toDigits (by decide) (by decide) hc

/-- The digits of a number start with a digit. -/
theorem toDigits_cons (n : Nat) : ∃ c cs, Nat.toDigits 10 n = c :: cs ∧ c.isDigit = true := by
  match h : Nat.toDigits 10 n with
  | [] => exact absurd h Nat.toDigits_ne_nil
  | c :: cs => exact ⟨c, cs, rfl, toDigits_isDigit n c (by rw [h]; exact List.mem_cons_self)⟩

theorem toDigits_unique {m n : Nat} {r r' : List Char} (hr : Ends r) (hr' : Ends r')
    (h : Nat.toDigits 10 m ++ r = Nat.toDigits 10 n ++ r') : m = n ∧ r = r' := by
  obtain ⟨hdigits, hrest⟩ :=
    append_unique (toDigits_isDigit m) (toDigits_isDigit n) hr.not_digit hr'.not_digit h
  exact ⟨toDigits_inj hdigits, hrest⟩

/-- A number starts with a digit or a minus sign. -/
theorem writeInt_cons (n : Int) : ∃ c cs, writeInt n = c :: cs ∧ (c.isDigit = true ∨ c = '-') := by
  cases n with
  | ofNat n =>
    obtain ⟨c, cs, h, hc⟩ := toDigits_cons n
    exact ⟨c, cs, h, .inl hc⟩
  | negSucc n => exact ⟨'-', _, rfl, .inr rfl⟩

theorem writeInt_unique {m n : Int} {r r' : List Char} (hr : Ends r) (hr' : Ends r')
    (h : writeInt m ++ r = writeInt n ++ r') : m = n ∧ r = r' := by
  cases m with
  | ofNat m =>
    cases n with
    | ofNat n =>
      obtain ⟨rfl, hrest⟩ := toDigits_unique hr hr' h
      exact ⟨rfl, hrest⟩
    -- a digit is not the sign
    | negSucc n =>
      obtain ⟨c, cs, hm, hc⟩ := toDigits_cons m
      simp only [writeInt, hm, List.cons_append, List.cons.injEq] at h
      rw [h.1] at hc
      exact absurd hc (by decide)
  | negSucc m =>
    cases n with
    | ofNat n =>
      obtain ⟨c, cs, hn, hc⟩ := toDigits_cons n
      simp only [writeInt, hn, List.cons_append, List.cons.injEq] at h
      rw [← h.1] at hc
      exact absurd hc (by decide)
    | negSucc n =>
      simp only [writeInt, List.cons_append, List.cons.injEq, true_and] at h
      obtain ⟨hmn, hrest⟩ := toDigits_unique hr hr' h
      exact ⟨by rw [Nat.succ.inj hmn], hrest⟩

/-! ## Section 3: Strings -/

/-- The letter of a two-character escape, for the characters that have one. -/
def shortEscape (c : Char) : Option Char :=
  if c = '"' then some '"'
  else if c = '\\' then some '\\'
  else if c = '\x08' then some 'b'
  else if c = '\t' then some 't'
  else if c = '\n' then some 'n'
  else if c = '\x0c' then some 'f'
  else if c = '\r' then some 'r'
  else none

/-- The text of one character inside a string. -/
def escapeChar (c : Char) : List Char :=
  match shortEscape c with
  | some letter => ['\\', letter]
  | none => if c.toNat < 32 then '\\' :: 'u' :: hexDigits 4 c.toNat else [c]

/-- The character a short escape stands for. -/
def shortMeaning (letter : Char) : Char :=
  if letter = 'b' then '\x08'
  else if letter = 't' then '\t'
  else if letter = 'n' then '\n'
  else if letter = 'f' then '\x0c'
  else if letter = 'r' then '\r'
  else letter

theorem shortMeaning_shortEscape {c letter : Char} (h : shortEscape c = some letter) :
    shortMeaning letter = c := by
  unfold shortEscape at h
  split_ifs at h <;> cases h <;> subst_vars <;> decide

theorem shortEscape_inj {c d letter : Char} (hc : shortEscape c = some letter)
    (hd : shortEscape d = some letter) : c = d :=
  (shortMeaning_shortEscape hc).symm.trans (shortMeaning_shortEscape hd)

theorem shortEscape_ne_u {c : Char} : shortEscape c ≠ some 'u' := by
  unfold shortEscape
  split_ifs <;> decide

theorem shortEscape_none {c : Char} (h : shortEscape c = none) : c ≠ '\\' ∧ c ≠ '"' := by
  unfold shortEscape at h
  split_ifs at h
  exact ⟨‹_›, ‹_›⟩

theorem escapeChar_short {c letter : Char} (h : shortEscape c = some letter) :
    escapeChar c = ['\\', letter] := by
  simp [escapeChar, h]

theorem escapeChar_control {c : Char} (h : shortEscape c = none) (hc : c.toNat < 32) :
    escapeChar c = '\\' :: 'u' :: hexDigits 4 c.toNat := by
  simp [escapeChar, h, hc]

theorem escapeChar_plain {c : Char} (h : shortEscape c = none) (hc : ¬ c.toNat < 32) :
    escapeChar c = [c] := by
  simp [escapeChar, h, hc]

/-- The three shapes of an escaped character. -/
theorem escapeChar_cases (c : Char) :
    (∃ letter, shortEscape c = some letter ∧ escapeChar c = ['\\', letter]) ∨
      (c.toNat < 32 ∧ escapeChar c = '\\' :: 'u' :: hexDigits 4 c.toNat) ∨
      (c ≠ '\\' ∧ c ≠ '"' ∧ escapeChar c = [c]) := by
  cases h : shortEscape c with
  | some letter => exact .inl ⟨letter, rfl, escapeChar_short h⟩
  | none =>
    by_cases hc : c.toNat < 32
    · exact .inr (.inl ⟨hc, escapeChar_control h hc⟩)
    · exact .inr (.inr ⟨(shortEscape_none h).1, (shortEscape_none h).2, escapeChar_plain h hc⟩)

/-- An escaped character does not start with the quote that ends a string. -/
theorem escapeChar_head (c : Char) : ∃ d ds, escapeChar c = d :: ds ∧ d ≠ '"' := by
  rcases escapeChar_cases c with ⟨_, _, h⟩ | ⟨_, h⟩ | ⟨_, hquote, h⟩
  · exact ⟨_, _, h, by decide⟩
  · exact ⟨_, _, h, by decide⟩
  · exact ⟨_, _, h, hquote⟩

theorem escapeChar_unique {c d : Char} {r r' : List Char}
    (h : escapeChar c ++ r = escapeChar d ++ r') : c = d ∧ r = r' := by
  rcases escapeChar_cases c with ⟨lc, hlc, hc⟩ | ⟨hlc, hc⟩ | ⟨hslash, _, hc⟩ <;>
    rcases escapeChar_cases d with ⟨ld, hld, hd⟩ | ⟨hld, hd⟩ | ⟨hslash', _, hd⟩ <;>
    rw [hc, hd] at h <;> simp only [List.cons_append, List.nil_append, List.cons.injEq] at h
  · obtain ⟨_, rfl, hr⟩ := h
    exact ⟨shortEscape_inj hlc hld, hr⟩
  · exact absurd (h.2.1 ▸ hlc) shortEscape_ne_u
  · exact absurd h.1.symm hslash'
  · exact absurd (h.2.1 ▸ hld) shortEscape_ne_u
  · obtain ⟨_, _, h⟩ := h
    obtain ⟨hdigits, hr⟩ := List.append_inj h (by simp)
    exact ⟨Char.toNat_inj.mp (hexDigits_inj (by omega) (by omega) hdigits), hr⟩
  · exact absurd h.1.symm hslash'
  · exact absurd h.1 hslash
  · exact absurd h.1 hslash
  · exact h

/-- A string between quotes. -/
def writeString (s : String) : List Char := '"' :: s.toList.flatMap escapeChar ++ ['"']

theorem escape_unique {cs ds r r' : List Char}
    (h : cs.flatMap escapeChar ++ '"' :: r = ds.flatMap escapeChar ++ '"' :: r') :
    cs = ds ∧ r = r' := by
  induction cs generalizing ds with
  | nil =>
    match ds with
    | [] => simpa using h
    | d :: ds =>
      -- no escape begins with the quote that ends the string
      obtain ⟨e, es, hd, hquote⟩ := escapeChar_head d
      simp only [List.flatMap_nil, List.nil_append, List.flatMap_cons, hd, List.cons_append,
        List.cons.injEq] at h
      exact absurd h.1.symm hquote
  | cons c cs ih =>
    match ds with
    | [] =>
      obtain ⟨e, es, hc, hquote⟩ := escapeChar_head c
      simp only [List.flatMap_nil, List.nil_append, List.flatMap_cons, hc, List.cons_append,
        List.cons.injEq] at h
      exact absurd h.1 hquote
    | d :: ds =>
      simp only [List.flatMap_cons, List.append_assoc] at h
      obtain ⟨rfl, hrest⟩ := escapeChar_unique h
      obtain ⟨rfl, hr⟩ := ih hrest
      exact ⟨rfl, hr⟩

theorem writeString_unique {s t : String} {r r' : List Char}
    (h : writeString s ++ r = writeString t ++ r') : s = t ∧ r = r' := by
  simp only [writeString, List.cons_append, List.append_assoc, List.cons.injEq, true_and,
    List.nil_append] at h
  obtain ⟨hst, hr⟩ := escape_unique h
  exact ⟨String.toList_inj.mp hst, hr⟩

/-! ## Section 4: Values -/

inductive Value where
  | null
  | bool (b : Bool)
  | integer (n : Int)
  | float (text : String)
  | string (s : String)
  | array (items : List Value)
  | object (entries : List (String × Value))

namespace Value

mutual

/-- The compact text of a value. -/
def write : Value → List Char
  | null => "null".toList
  | bool true => "true".toList
  | bool false => "false".toList
  | integer n => writeInt n
  | float text => text.toList
  | string s => writeString s
  | array items => '[' :: writeItems true items ++ [']']
  | object entries => '{' :: writeEntries true entries ++ ['}']

/-- Items, each but the first behind a comma. -/
def writeItems : Bool → List Value → List Char
  | _, [] => []
  | first, v :: rest => (if first then [] else [',']) ++ v.write ++ writeItems false rest

/-- Entries, each but the first behind a comma. -/
def writeEntries : Bool → List (String × Value) → List Char
  | _, [] => []
  | first, (key, v) :: rest =>
    (if first then [] else [',']) ++ writeString key ++ ':' :: v.write ++ writeEntries false rest

end

mutual

/-- The first floating-point number in a value, in the order of its text. -/
def firstFloat : Value → Option String
  | float text => some text
  | array items => firstFloatItems items
  | object entries => firstFloatEntries entries
  | null | bool _ | integer _ | string _ => none

def firstFloatItems : List Value → Option String
  | [] => none
  | v :: rest => v.firstFloat.or (firstFloatItems rest)

def firstFloatEntries : List (String × Value) → Option String
  | [] => none
  | (_, v) :: rest => v.firstFloat.or (firstFloatEntries rest)

end

/-! ## Section 5: The text determines the value -/

/-- The kind of value a first character announces. -/
def kindOf (c : Char) : Nat :=
  if c = 'n' then 0
  else if c = 't' then 1
  else if c = 'f' then 2
  else if c = '"' then 3
  else if c = '[' then 4
  else if c = '{' then 5
  else if c.isDigit ∨ c = '-' then 6
  else 7

theorem kindOf_number {c : Char} (hc : c.isDigit = true ∨ c = '-') : kindOf c = 6 := by
  unfold kindOf
  split_ifs
  all_goals subst_vars
  all_goals first | rfl | exact absurd hc (by decide)

/-- The kind of a value, as its first character announces it. -/
def kind : Value → Nat
  | null => 0
  | bool true => 1
  | bool false => 2
  | string _ => 3
  | array _ => 4
  | object _ => 5
  | integer _ => 6
  | float _ => 7

/-- The first character of a value without floats announces its kind. -/
theorem write_head {v : Value} (h : v.firstFloat = none) :
    ∃ c cs, v.write = c :: cs ∧ kindOf c = v.kind ∧ v.kind ≠ 7 := by
  match v with
  | null => exact ⟨'n', _, rfl, by decide⟩
  | bool true => exact ⟨'t', _, rfl, by decide⟩
  | bool false => exact ⟨'f', _, rfl, by decide⟩
  | integer n =>
    obtain ⟨c, cs, hn, hc⟩ := writeInt_cons n
    refine ⟨c, cs, by rw [write, hn], ?_, by simp [kind]⟩
    exact kindOf_number hc
  | float _ => simp [firstFloat] at h
  | string s => exact ⟨'"', _, by rw [write, writeString, List.cons_append], by simp [kind]; decide⟩
  | array _ => exact ⟨'[', _, by rw [write, List.cons_append], by simp [kind]; decide⟩
  | object _ => exact ⟨'{', _, by rw [write, List.cons_append], by simp [kind]; decide⟩

theorem write_kind {v w : Value} {r r' : List Char} (hv : v.firstFloat = none)
    (hw : w.firstFloat = none) (h : v.write ++ r = w.write ++ r') : v.kind = w.kind := by
  obtain ⟨c, cs, hc, hcv, _⟩ := write_head hv
  obtain ⟨d, ds, hd, hdw, _⟩ := write_head hw
  rw [hc, hd, List.cons_append, List.cons_append, List.cons.injEq] at h
  rw [← hcv, ← hdw, h.1]

theorem firstFloatItems_cons {v : Value} {rest : List Value} :
    firstFloatItems (v :: rest) = none ↔ v.firstFloat = none ∧ firstFloatItems rest = none := by
  simp [firstFloatItems]

theorem firstFloatEntries_cons {key : String} {v : Value} {rest : List (String × Value)} :
    firstFloatEntries ((key, v) :: rest) = none ↔
      v.firstFloat = none ∧ firstFloatEntries rest = none := by
  simp [firstFloatEntries]

/-- What follows an item is a comma or the closing bracket. -/
theorem writeItems_ends (rest : List Value) (r : List Char) :
    Ends (writeItems false rest ++ ']' :: r) := by
  intro c hc
  cases rest with
  | nil =>
    simp only [writeItems, List.nil_append, List.head?_cons, Option.mem_some_iff] at hc
    exact .inr (.inl hc.symm)
  | cons v rest =>
    simp only [writeItems, Bool.false_eq_true, if_false, List.cons_append, List.nil_append,
      List.head?_cons, Option.mem_some_iff] at hc
    exact .inl hc.symm

theorem writeEntries_ends (rest : List (String × Value)) (r : List Char) :
    Ends (writeEntries false rest ++ '}' :: r) := by
  intro c hc
  cases rest with
  | nil =>
    simp only [writeEntries, List.nil_append, List.head?_cons, Option.mem_some_iff] at hc
    exact .inr (.inr hc.symm)
  | cons entry rest =>
    simp only [writeEntries, Bool.false_eq_true, if_false, List.cons_append, List.nil_append,
      List.head?_cons, Option.mem_some_iff] at hc
    exact .inl hc.symm

/-- A nonempty run of items does not start like an empty one ends. -/
theorem writeItems_ne_nil {first : Bool} {v : Value} {rest : List Value} {r r' : List Char}
    (hv : v.firstFloat = none) :
    writeItems first (v :: rest) ++ r ≠ ']' :: r' := by
  obtain ⟨c, cs, hwrite, hkind, hseven⟩ := write_head hv
  have hbracket : c ≠ ']' := by
    rintro rfl
    exact hseven (hkind.symm.trans (by decide))
  cases first <;> simp [writeItems, hwrite, hbracket]

theorem writeEntries_ne_nil {first : Bool} {key : String} {v : Value}
    {rest : List (String × Value)} {r r' : List Char} :
    writeEntries first ((key, v) :: rest) ++ r ≠ '}' :: r' := by
  cases first <;> simp [writeEntries, writeString]

mutual

/-- **Unique reading**: two texts that agree, and go on after a value in a way a value can be
    gone on after, hold the same value. -/
theorem write_unique : ∀ {v w : Value} {r r' : List Char},
    v.firstFloat = none → w.firstFloat = none → Ends r → Ends r' →
    v.write ++ r = w.write ++ r' → v = w ∧ r = r'
  | v, w, r, r', hv, hw, hr, hr', h => by
    -- the first character tells the kind, so only equal kinds are left to compare
    have hkind := write_kind hv hw h
    match v, w with
    | null, null => exact ⟨rfl, by simpa [write] using h⟩
    | bool true, bool true => exact ⟨rfl, by simpa [write] using h⟩
    | bool false, bool false => exact ⟨rfl, by simpa [write] using h⟩
    | integer m, integer n =>
      simp only [write] at h
      obtain ⟨rfl, hrest⟩ := writeInt_unique hr hr' h
      exact ⟨rfl, hrest⟩
    | string s, string t =>
      simp only [write] at h
      obtain ⟨rfl, hrest⟩ := writeString_unique h
      exact ⟨rfl, hrest⟩
    | array xs, array ys =>
      simp only [write, List.cons_append, List.append_assoc, List.cons.injEq, true_and,
        List.nil_append] at h
      obtain ⟨rfl, hrest⟩ := writeItems_unique hv hw h
      exact ⟨rfl, hrest⟩
    | object xs, object ys =>
      simp only [write, List.cons_append, List.append_assoc, List.cons.injEq, true_and,
        List.nil_append] at h
      obtain ⟨rfl, hrest⟩ := writeEntries_unique hv hw h
      exact ⟨rfl, hrest⟩

theorem writeItems_unique : ∀ {first : Bool} {xs ys : List Value} {r r' : List Char},
    firstFloatItems xs = none → firstFloatItems ys = none →
    writeItems first xs ++ ']' :: r = writeItems first ys ++ ']' :: r' → xs = ys ∧ r = r'
  | _, [], [], _, _, _, _, h => by simpa [writeItems] using h
  | _, [], w :: ys, _, _, _, hys, h =>
    absurd h.symm (writeItems_ne_nil (firstFloatItems_cons.mp hys).1)
  | _, v :: xs, [], _, _, hxs, _, h =>
    absurd h (writeItems_ne_nil (firstFloatItems_cons.mp hxs).1)
  | first, v :: xs, w :: ys, r, r', hxs, hys, h => by
    obtain ⟨hv, hxs'⟩ := firstFloatItems_cons.mp hxs
    obtain ⟨hw, hys'⟩ := firstFloatItems_cons.mp hys
    simp only [writeItems, List.append_assoc, List.append_cancel_left_eq] at h
    obtain ⟨rfl, hrest⟩ := write_unique hv hw (writeItems_ends _ _) (writeItems_ends _ _) h
    obtain ⟨rfl, hr⟩ := writeItems_unique hxs' hys' hrest
    exact ⟨rfl, hr⟩

theorem writeEntries_unique : ∀ {first : Bool} {xs ys : List (String × Value)} {r r' : List Char},
    firstFloatEntries xs = none → firstFloatEntries ys = none →
    writeEntries first xs ++ '}' :: r = writeEntries first ys ++ '}' :: r' → xs = ys ∧ r = r'
  | _, [], [], _, _, _, _, h => by simpa [writeEntries] using h
  | _, [], (_, _) :: _, _, _, _, _, h => absurd h.symm writeEntries_ne_nil
  | _, (_, _) :: _, [], _, _, _, _, h => absurd h writeEntries_ne_nil
  | first, (key, v) :: xs, (key', w) :: ys, r, r', hxs, hys, h => by
    obtain ⟨hv, hxs'⟩ := firstFloatEntries_cons.mp hxs
    obtain ⟨hw, hys'⟩ := firstFloatEntries_cons.mp hys
    simp only [writeEntries, List.append_assoc, List.append_cancel_left_eq, List.cons_append] at h
    obtain ⟨rfl, hvalue⟩ := writeString_unique h
    simp only [List.cons.injEq, true_and] at hvalue
    obtain ⟨rfl, hrest⟩ :=
      write_unique hv hw (writeEntries_ends _ _) (writeEntries_ends _ _) hvalue
    obtain ⟨rfl, hr⟩ := writeEntries_unique hxs' hys' hrest
    exact ⟨rfl, hr⟩

end

end Value

end Json
