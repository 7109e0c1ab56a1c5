import Mathlib.Tactic
import Sahl.Lib.Framing

/-! # Raw ESC/POS control sequences

    Only near-universally supported sequences. A printer finds out from the first bytes of a
    sequence how much of the stream belongs to it; each sequence here is built with the proof that
    it is exactly as long as a printer takes it to be. -/

namespace Sahl.Escpos

/-! ## Section 1: What a printer reads -/

/-- Escape. -/
def esc : UInt8 := 0x1B

/-- Group separator, which starts the newer family of commands. -/
def gs : UInt8 := 0x1D

def ascii (c : Char) : UInt8 := UInt8.ofNat c.toNat

/-- How much a sequence takes: a selector says how many parameters follow, and one family
    (`GS ( k`) gives its own length in two bytes. A sequence that is not known takes two bytes. -/
def extent : List UInt8 → ℕ
  | first :: selector :: rest =>
    if first = esc then
      if selector = ascii 'a' ∨ selector = ascii 'E' ∨ selector = ascii 'd' ∨
          selector = ascii 't' then 3
      else if selector = ascii 'p' then 5
      else 2
    else if selector = ascii '!' then 3
    else if selector = ascii 'V' then 4
    else if selector = ascii '(' then
      match rest with
      | _ :: low :: high :: _ => 5 + low.toNat + 256 * high.toNat
      | _ => 2
    else 2
  | _ => 1

def printer : Framing UInt8 where
  control b := b = esc ∨ b = gs
  extent := extent

/-! ## Section 2: The sequences -/

/-- Reset alignment, emphasis, font and line spacing. -/
def initializePrinter : printer.Command := ⟨esc, [ascii '@'], by decide, fun _ => rfl⟩

inductive Align where
  | left
  | center
  | right
  deriving DecidableEq

def align (alignment : Align) : printer.Command :=
  let mode : UInt8 := match alignment with
    | .left => 0
    | .center => 1
    | .right => 2
  ⟨esc, [ascii 'a', mode], by decide, fun _ => rfl⟩

/-- Bold on or off. -/
def emphasis (on : Bool) : printer.Command :=
  ⟨esc, [ascii 'E', if on then 1 else 0], by decide, fun _ => rfl⟩

/-- Double width, double height. -/
def size (doubleWidth doubleHeight : Bool) : printer.Command :=
  let mode : UInt8 := (if doubleWidth then 0x20 else 0) ||| (if doubleHeight then 0x10 else 0)
  ⟨gs, [ascii '!', mode], by decide, fun _ => rfl⟩

/-- Feed blank lines. -/
def feed (lines : UInt8) : printer.Command := ⟨esc, [ascii 'd', lines], by decide, fun _ => rfl⟩

/-- Partial cut. -/
def cut : printer.Command := ⟨gs, [ascii 'V', 66, 0], by decide, fun _ => rfl⟩

/-- Which drawer connector to pulse. -/
inductive DrawerPin where
  | two
  | five
  deriving DecidableEq

/-- Fire the drawer solenoid. -/
def openDrawer (pin : DrawerPin) : printer.Command :=
  let connector : UInt8 := match pin with
    | .two => 0
    | .five => 1
  ⟨esc, [ascii 'p', connector, 25, 25], by decide, fun _ => rfl⟩

/-- Select a character code table. -/
def codePage (page : UInt8) : printer.Command := ⟨esc, [ascii 't', page], by decide, fun _ => rfl⟩

def codePageCp437 : UInt8 := 0

/-! ## Section 3: QR codes -/

inductive QrError where
  | empty
  | tooLong (length : ℕ)
  deriving DecidableEq

/-- One function of the symbol family: two bytes describe the parameters that follow. -/
def symbol (parameters : List UInt8) (h : parameters.length < 2 ^ 16) : printer.Command where
  first := gs
  tail := [ascii '(', ascii 'k', UInt8.ofNat (parameters.length % 256),
    UInt8.ofNat (parameters.length / 256)] ++ parameters
  starts := by decide
  extent rest := by
    show 5 + (UInt8.ofNat (parameters.length % 256)).toNat +
      256 * (UInt8.ofNat (parameters.length / 256)).toNat = _
    simp only [UInt8.toNat_ofNat', List.length_append, List.length_cons, List.length_nil]
    omega

/-- Print a QR code: select the model, the size and the error correction, store the payload, and
    print what was stored. -/
def qr (payload : List UInt8) (moduleSize : UInt8) : Except QrError (List printer.Command) :=
  if payload.isEmpty then .error .empty
  -- a payload the store command's two bytes cannot describe is longer than the symbol holds
  else if h : 7089 < payload.length then .error (.tooLong payload.length)
  else .ok
    [symbol [49, 65, 50, 0] (by decide), symbol [49, 67, max 1 (min 16 moduleSize)] (by simp),
     symbol [49, 69, 49] (by decide), symbol ([49, 80, 48] ++ payload) (by simp; omega),
     symbol [49, 81, 48] (by decide)]

end Sahl.Escpos
