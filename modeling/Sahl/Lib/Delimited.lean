import Mathlib.Tactic
import Sahl.Lib.Text
import Sahl.Lib.Checked

/-! # Delimited text

    Lines, cells between delimiters with quotes honoured, and integers as they are written. The
    readers work on characters and give back strings where a cell is done. -/

namespace Text

/-! ## Blank and trimmed -/

theorem isBlank_iff {s : String} : isBlank s = true ↔ ∀ c ∈ s.toList, isWhitespace c := by
  rw [isBlank, trim, List.isEmpty_iff, String.toList_ofList, List.rdropWhile_eq_nil_iff]
  constructor
  · intro h c hc
    by_contra hblank
    have hkept : c ∈ s.toList.dropWhile isWhitespace ∨ c ∈ s.toList.takeWhile isWhitespace := by
      rw [or_comm, ← List.mem_append, List.takeWhile_append_dropWhile]
      exact hc
    rcases hkept with hdropped | htaken
    · exact hblank (h c hdropped)
    · exact hblank (List.mem_takeWhile_imp htaken)
  · intro h c hc
    exact h c ((List.dropWhile_sublist isWhitespace).subset hc)

/-- What is left of a trimmed text is not blank. -/
theorem trim_not_blank {s : String} (h : trim s ≠ "") : isBlank (trim s) = false := by
  rw [Bool.eq_false_iff, ne_eq, isBlank_iff]
  intro hblank
  have hne : (s.toList.dropWhile isWhitespace).rdropWhile isWhitespace ≠ [] := by
    intro hnil
    rw [trim, hnil] at h
    exact h rfl
  refine List.rdropWhile_last_not isWhitespace _ hne (hblank _ ?_)
  rw [trim, String.toList_ofList]
  exact List.getLast_mem hne

/-- Trimming takes nothing off a text with nothing to trim in it. -/
theorem dropWhile_rdropWhile_eq_self {p : Char → Bool} {s : List Char}
    (h : ∀ c ∈ s, p c = false) : (s.dropWhile p).rdropWhile p = s := by
  have hfront : s.dropWhile p = s := by
    rw [List.dropWhile_eq_self_iff]
    intro hpos hblank
    rw [h _ (List.getElem_mem hpos)] at hblank
    cases hblank
  rw [hfront, List.rdropWhile_eq_self_iff]
  intro hne hblank
  rw [h _ (List.getLast_mem hne)] at hblank
  cases hblank

/-- A text with no white space in it is its own trimming. -/
theorem trim_eq_self {s : String} (h : ∀ c ∈ s.toList, isWhitespace c = false) : trim s = s := by
  rw [trim, dropWhile_rdropWhile_eq_self h, String.ofList_toList]

theorem isWhitespace_of_isDigit {c : Char} (h : c.isDigit = true) : isWhitespace c = false := by
  rw [Char.isDigit, Bool.and_eq_true, decide_eq_true_eq, decide_eq_true_eq] at h
  have hlow : 48 ≤ c.toNat := h.1
  have hhigh : c.toNat ≤ 57 := h.2
  simp only [isWhitespace, decide_eq_false_iff_not]
  omega

/-- Digits take a byte each. -/
theorem utf8ByteSize_of_digits {s : String} (h : ∀ c ∈ s.toList, c.isDigit = true) :
    s.utf8ByteSize = s.toList.length := by
  have hchars : ∀ cs : List Char, (∀ c ∈ cs, c.isDigit = true) →
      (String.ofList cs).utf8ByteSize = cs.length := by
    intro cs
    induction cs with
    | nil => exact fun _ => rfl
    | cons c rest ih =>
      intro hcs
      obtain ⟨hc, hrest⟩ := List.forall_mem_cons.mp hcs
      rw [Char.isDigit, Bool.and_eq_true, decide_eq_true_eq, decide_eq_true_eq] at hc
      have hone : c.utf8Size = 1 :=
        Char.utf8Size_eq_one_iff.mpr (UInt32.le_trans hc.2 (by decide))
      rw [String.ofList_cons, String.utf8ByteSize_append, String.utf8ByteSize_singleton, hone,
        ih hrest, List.length_cons, Nat.add_comm]
  rw [← hchars s.toList h, String.ofList_toList]

/-! ## Lines and cells -/

/-- A line without the carriage return its end may leave. -/
def dropCarriageReturn (line : List Char) : List Char :=
  if line.getLast? = some '\r' then line.dropLast else line

def linesFrom (current : List Char) : List Char → List (List Char)
  | [] => if current.isEmpty then [] else [current]
  | c :: rest =>
    if c = '\n' then dropCarriageReturn current :: linesFrom [] rest
    else linesFrom (current ++ [c]) rest

/-- `str::lines`. -/
def lines (s : String) : List String := (linesFrom [] s.toList).map String.ofList

def cellsFrom (delimiter : Char) (current : List Char) (quoted : Bool) :
    List Char → List (List Char)
  | [] => [current]
  | c :: rest =>
    if c = '"' then cellsFrom delimiter current (!quoted) rest
    else if c = delimiter ∧ quoted = false then current :: cellsFrom delimiter [] quoted rest
    else cellsFrom delimiter (current ++ [c]) quoted rest

/-- Split a line, honouring double quotes. -/
def cells (line : String) (delimiter : Char) : List String :=
  (cellsFrom delimiter [] false line.toList).map fun cell => trim (String.ofList cell)

/-- `str::split` on any of some characters. -/
def splitOn (isSeparator : Char → Bool) (s : String) : List String :=
  (s.toList.splitOnP isSeparator).map String.ofList

/-- `str::split_once`, with nothing after a separator that is not there. -/
def splitOnce (separator : Char) (s : List Char) : List Char × List Char :=
  (s.takeWhile (· ≠ separator), (s.dropWhile (· ≠ separator)).tail)

/-- A text is split at the first separator. -/
theorem splitOnce_append {separator : Char} {s rest : List Char} (hs : separator ∉ s) :
    splitOnce separator (s ++ separator :: rest) = (s, rest) := by
  have hne : ∀ c ∈ s, decide (c ≠ separator) = true := by
    intro c hc
    rw [decide_eq_true_eq]
    exact fun hsame => hs (hsame ▸ hc)
  rw [splitOnce, List.takeWhile_append_of_pos hne, List.dropWhile_append_of_pos hne]
  simp

/-- What stands before the first separator, and what stands after it, are those of the text. -/
theorem append_first_inj {separator : Char} {s t rest rest' : List Char} (hs : separator ∉ s)
    (ht : separator ∉ t) (h : s ++ separator :: rest = t ++ separator :: rest') :
    s = t ∧ rest = rest' := by
  have hsplit := congrArg (splitOnce separator) h
  rw [splitOnce_append hs, splitOnce_append ht] at hsplit
  exact Prod.mk.inj hsplit

/-- What stands before the last separator, and what stands after it, are those of the text. -/
theorem append_last_inj {separator : Char} {s t rest rest' : List Char} (hrest : separator ∉ rest)
    (hrest' : separator ∉ rest') (h : s ++ separator :: rest = t ++ separator :: rest') :
    s = t ∧ rest = rest' := by
  have hreversed := congrArg List.reverse h
  simp only [List.reverse_append, List.reverse_cons, List.append_assoc, List.singleton_append]
    at hreversed
  obtain ⟨hlast, hfirst⟩ := append_first_inj (fun hmem => hrest (List.mem_reverse.mp hmem))
    (fun hmem => hrest' (List.mem_reverse.mp hmem)) hreversed
  exact ⟨List.reverse_inj.mp hfirst, List.reverse_inj.mp hlast⟩

/-! ## Integers as written -/

/-- The value of some digits, at least one. -/
def digits? (s : List Char) : Option Nat :=
  if s.isEmpty then none
  else s.foldlM (fun value c => if c.isDigit then some (10 * value + (c.toNat - 48)) else none) 0

/-- `str::parse` of a signed integer, before its range is looked at. -/
def integer? : List Char → Option Int
  | '-' :: rest => (digits? rest).map fun n => -(n : Int)
  | '+' :: rest => (digits? rest).map fun n => (n : Int)
  | s => (digits? s).map fun n => (n : Int)

/-- `str::parse` of a signed integer of a width. -/
def parseInt? (w : Nat) (s : List Char) : Option (SInt w) := (integer? s).bind SInt.ofInt?

/-- Zeros on the right up to a width (`{:0<width$}`). -/
def padRight (s : List Char) (width : Nat) : List Char := s ++ List.replicate (width - s.length) '0'

/-- `str::to_lowercase` as far as it can make ASCII text: the Kelvin sign is the one character
    outside ASCII that becomes an ASCII letter. -/
def lowered (s : String) : String :=
  String.ofList (s.toList.map fun c => if c.toNat = 0x212A then 'k' else c.toLower)

end Text
