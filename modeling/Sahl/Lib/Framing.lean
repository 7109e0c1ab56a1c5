import Mathlib.Tactic

/-! # Streams that mix text with commands

    A device reads a stream from the left. A control starts a command, whose extent it makes out
    from what follows; everything else is text. Nothing else tells text and commands apart, so a
    control in what was meant as text is a command. -/

/-- What starts a command, and how much of a stream that begins with one belongs to it. -/
structure Framing (β : Type) where
  control : β → Bool
  extent : List β → ℕ

/-- What a device makes of a stream, one thing after the other. -/
inductive Reading (β : Type) where
  | print (unit : β)
  | obey (command : List β)
  deriving DecidableEq

namespace Framing

variable {β : Type} (framing : Framing β)

/-- Read on, with so many units still to come of a command already read. -/
def readAfter : ℕ → List β → List (Reading β)
  | _, [] => []
  | pending + 1, _ :: rest => readAfter pending rest
  | 0, unit :: rest =>
    if framing.control unit then
      .obey ((unit :: rest).take (framing.extent (unit :: rest))) ::
        readAfter (framing.extent (unit :: rest) - 1) rest
    else .print unit :: readAfter 0 rest

def read (stream : List β) : List (Reading β) := framing.readAfter 0 stream

/-- A command: it starts with a control, and takes all of itself and nothing after it. -/
structure Command where
  first : β
  tail : List β
  starts : framing.control first = true
  extent : ∀ rest, framing.extent (first :: tail ++ rest) = tail.length + 1

def Command.units {framing : Framing β} (command : framing.Command) : List β :=
  command.first :: command.tail

/-- What a program writes: commands it gives, and text it means to be printed. -/
inductive Piece where
  | command (given : framing.Command)
  | text (written : List β)

namespace Piece

variable {framing}

def units : framing.Piece → List β
  | command given => given.units
  | text written => written

/-- What the program means by it. -/
def meaning : framing.Piece → List (Reading β)
  | command given => [.obey given.units]
  | text written => written.map .print

/-- Text without a control in it. A command is no text. -/
def Inert : framing.Piece → Prop
  | command _ => True
  | text written => ∀ unit ∈ written, framing.control unit = false

end Piece

/-! ## What is read -/

variable {framing}

theorem readAfter_eq (pending : ℕ) (stream : List β) :
    framing.readAfter pending stream = framing.read (stream.drop pending) := by
  induction stream generalizing pending with
  | nil => cases pending <;> simp [read, readAfter]
  | cons unit rest ih =>
    cases pending with
    | zero => rfl
    | succ pending => exact ih pending

/-- A command is read as itself, whatever follows. -/
theorem read_command_append (command : framing.Command) (rest : List β) :
    framing.read (command.units ++ rest) = .obey command.units :: framing.read rest := by
  show framing.readAfter 0 (command.first :: (command.tail ++ rest)) = _
  have hextent : framing.extent (command.first :: (command.tail ++ rest)) =
      command.tail.length + 1 := command.extent rest
  rw [readAfter, if_pos command.starts, hextent, readAfter_eq, Nat.add_sub_cancel, List.drop_left,
    List.take_succ_cons, List.take_left]
  rfl

/-- Text without a control is read as text, whatever follows. -/
theorem read_text_append {units : List β} (h : ∀ unit ∈ units, framing.control unit = false)
    (rest : List β) : framing.read (units ++ rest) = units.map .print ++ framing.read rest := by
  induction units with
  | nil => rfl
  | cons unit units ih =>
    obtain ⟨hunit, hunits⟩ := List.forall_mem_cons.mp h
    show framing.readAfter 0 (unit :: (units ++ rest)) = _
    rw [readAfter, if_neg (by simp [hunit])]
    exact congrArg _ (ih hunits)

/-- A control is never printed. -/
theorem control_of_print_mem {unit : β} {stream : List β}
    (h : .print unit ∈ framing.read stream) : framing.control unit = false := by
  suffices hall : ∀ pending, .print unit ∈ framing.readAfter pending stream →
      framing.control unit = false from hall 0 h
  clear h
  induction stream with
  | nil =>
    intro pending h
    cases pending <;> simp [readAfter] at h
  | cons first rest ih =>
    intro pending h
    cases pending with
    -- arguments of an open command are swallowed, not printed
    | succ pending => exact ih pending h
    | zero =>
      rw [readAfter] at h
      by_cases hfirst : framing.control first = true
      · rw [if_pos hfirst, List.mem_cons] at h
        rcases h with h | h
        · cases h
        · exact ih _ h
      · rw [if_neg hfirst, List.mem_cons] at h
        rcases h with h | h
        · cases h
          exact Bool.eq_false_iff.mpr hfirst
        · exact ih _ h

/-- **A stream is read as it was meant** exactly where no text in it has a control. -/
theorem read_eq_meaning_iff (pieces : List framing.Piece) :
    framing.read (pieces.flatMap (·.units)) = pieces.flatMap (·.meaning) ↔
      ∀ piece ∈ pieces, piece.Inert := by
  constructor
  · intro h piece hpiece
    cases piece with
    | command _ => trivial
    | text units =>
      intro unit hunit
      have hprint : Reading.print unit ∈ pieces.flatMap (·.meaning) :=
        List.mem_flatMap.mpr ⟨_, hpiece, List.mem_map_of_mem hunit⟩
      rw [← h] at hprint
      exact control_of_print_mem hprint
  · intro h
    induction pieces with
    | nil => rfl
    | cons piece rest ih =>
      obtain ⟨hpiece, hrest⟩ := List.forall_mem_cons.mp h
      rw [List.flatMap_cons, List.flatMap_cons, ← ih hrest]
      cases piece with
      | command given => exact read_command_append given _
      | text units => exact read_text_append hpiece _

end Framing
