import LoccFirmware.Automata.Mealy

/-!
# The Command Parser

The host talks to the firmware over a serial line, and `handle_user_input`
(`c_locc.c`) eats that line one byte at a time.  Its two `static` variables and
the global `led_states` it writes through `set_led` are the fields of `Parser`;
the bytes it echoes with `usb_putc` are the `sent` field of its result.

`char` is unsigned on this target (`-funsigned-char`), so bytes are `UInt8`
throughout and the two subtractions of `'0'` wrap.
-/

namespace LoccFirmware.Protocol

open LoccFirmware.Automata

/-! ## State -/

/-- `enum protocol_state`. -/
inductive ProtocolState where
  | waitForNewline
  | waitForCmdChar
  | waitForLedNumber
  | waitForLedValue
  deriving DecidableEq, Repr

/-- What persists between two calls: the statics `p_state` and `cmd_target`, and
the global `led_states`. -/
structure Parser where
  pState : ProtocolState
  cmdTarget : UInt8
  ledStates : UInt8
  deriving DecidableEq, Repr

/-- The initialisers in `c_locc.c`. -/
def Parser.initial : Parser where
  pState := .waitForNewline
  cmdTarget := 0
  ledStates := 0x07

/-! ## LEDs -/

/-- `set_led`: the LEDs hang on active-low outputs, so `val = 0` sets the bit. -/
def setLed (num val : UInt8) (p : Parser) : Parser :=
  if num < 3 then
    -- clear the bit, then set it again if `val` is 0: `(!val)<<num`
    let ledStates := p.ledStates &&& ~~~(1 <<< num)
    { p with ledStates := ledStates ||| (if val = 0 then 1 else 0) <<< num }
  else p

/-! ## The parser -/

/-- What one call of `handle_user_input` leaves behind: the parser's new state, the
returned `command` and the bytes passed to `usb_putc`, in order. -/
structure Handled where
  parser : Parser
  command : ℕ
  sent : List UInt8

/-- `handle_user_input`. -/
def handleUserInput (c : UInt8) (p : Parser) : Handled :=
  match p.pState with
  -- everything up to the end of the line is skipped
  | .waitForNewline =>
    if c = '\n'.toUInt8 ∨ c = '\r'.toUInt8 then
      { parser := { p with pState := .waitForCmdChar }, command := 0, sent := [] }
    else
      { parser := p, command := 0, sent := [] }
  | .waitForCmdChar =>
    if c = 'o'.toUInt8 then
      { parser := { p with pState := .waitForNewline }, command := 1, sent := ['O'.toUInt8] }
    else if c = 'l'.toUInt8 then
      { parser := { p with pState := .waitForLedNumber }, command := 0, sent := [] }
    else if c = 'h'.toUInt8 then
      -- the call to `loccPowerDown` is commented out; `p_state` is left alone
      { parser := p, command := 0, sent := [] }
    else if c = 'i'.toUInt8 then
      -- likewise for `loccPowerUp`
      { parser := p, command := 0, sent := [] }
    else if c = '\n'.toUInt8 ∨ c = '\r'.toUInt8 then
      -- an empty line is answered and the next line may hold a command
      { parser := p, command := 0, sent := ['\r'.toUInt8] }
    else
      { parser := { p with pState := .waitForNewline }, command := 0, sent := [] }
  -- any byte is taken as the LED's number, a line end too
  | .waitForLedNumber =>
    { parser := { p with cmdTarget := c, pState := .waitForLedValue }, command := 0, sent := [] }
  -- and any byte as its value; both differences wrap
  | .waitForLedValue =>
    let p := setLed (p.cmdTarget - '0'.toUInt8) (c - '0'.toUInt8) p
    { parser := { p with pState := .waitForNewline }, command := 0, sent := [] }

/-- The parser as a machine: it reads bytes and answers each with `command`. -/
def parser : Mealy Parser UInt8 ℕ where
  step p c := ((handleUserInput c p).parser, (handleUserInput c p).command)

/-- The parser after a byte stream. -/
def parse (s : List UInt8) : Parser :=
  parser.run Parser.initial s

/-- What the successive calls on a byte stream return. -/
def returns (s : List UInt8) : List ℕ :=
  parser.outputs Parser.initial s

/-! ## What one call can do -/

/-- The two bytes that end a line. -/
def IsLineEnd (c : UInt8) : Prop :=
  c = '\n'.toUInt8 ∨ c = '\r'.toUInt8

instance (c : UInt8) : Decidable (IsLineEnd c) :=
  inferInstanceAs (Decidable (_ ∨ _))

@[simp] theorem setLed_pState (num val : UInt8) (p : Parser) :
    (setLed num val p).pState = p.pState := by
  unfold setLed
  split <;> rfl

/-- A call returns 1 exactly on an `o` read where a command is expected. -/
theorem handleUserInput_command_eq_one_iff (c : UInt8) (p : Parser) :
    (handleUserInput c p).command = 1 ↔ p.pState = .waitForCmdChar ∧ c = 'o'.toUInt8 := by
  unfold handleUserInput
  cases p.pState with
  | waitForCmdChar => simp only [true_and]; split_ifs <;> simp_all
  | waitForNewline => simp only [reduceCtorEq, false_and, iff_false]; split_ifs <;> simp
  | waitForLedNumber => simp
  | waitForLedValue => simp

/-- A call that returns 1 answers `O`; any other returns 0 and answers nothing, or a
carriage return to an empty line. -/
theorem handleUserInput_answer (c : UInt8) (p : Parser) :
    ((handleUserInput c p).command = 1 ∧ (handleUserInput c p).sent = ['O'.toUInt8]) ∨
      ((handleUserInput c p).command = 0 ∧
        ((handleUserInput c p).sent = [] ∨ (handleUserInput c p).sent = ['\r'.toUInt8])) := by
  unfold handleUserInput
  cases p.pState with
  | waitForCmdChar => dsimp only; split_ifs <;> simp
  | waitForNewline => dsimp only; split_ifs <;> simp
  | waitForLedNumber => simp
  | waitForLedValue => simp

/-- The bytes after which a command is expected: a line end, unless it is LED data,
and where a command is already expected also `h` and `i`. -/
theorem handleUserInput_waitForCmdChar_iff (c : UInt8) (p : Parser) :
    (handleUserInput c p).parser.pState = .waitForCmdChar ↔
      (p.pState = .waitForNewline ∧ IsLineEnd c) ∨
      (p.pState = .waitForCmdChar ∧ (IsLineEnd c ∨ c = 'h'.toUInt8 ∨ c = 'i'.toUInt8)) := by
  unfold handleUserInput IsLineEnd
  cases hp : p.pState with
  | waitForNewline =>
    simp only [reduceCtorEq, false_and, or_false, true_and]
    split_ifs <;> simp_all
  | waitForCmdChar =>
    simp only [reduceCtorEq, false_and, false_or, true_and]
    split_ifs with ho hl hh hi hn
    -- `o` and `l` leave the state
    · subst ho; simp; decide
    · subst hl; simp; decide
    -- `h`, `i` and a line end do not
    · simp [hp, hh]
    · simp [hp, hi]
    · simp [hp, hn]
    · simp [hh, hi, hn]
  | waitForLedNumber => simp
  | waitForLedValue => simp

/-- A line end read where a line end or a command is expected leaves the parser
expecting a command, with nothing else changed and nothing returned. -/
theorem handleUserInput_lineEnd {c : UInt8} {p : Parser} (hc : IsLineEnd c)
    (hp : p.pState = .waitForNewline ∨ p.pState = .waitForCmdChar) :
    (handleUserInput c p).parser = { p with pState := .waitForCmdChar } ∧
      (handleUserInput c p).command = 0 := by
  -- a line end is none of the command characters
  obtain ⟨ho, hl, hh, hi⟩ :
      c ≠ 'o'.toUInt8 ∧ c ≠ 'l'.toUInt8 ∧ c ≠ 'h'.toUInt8 ∧ c ≠ 'i'.toUInt8 := by
    rcases hc with rfl | rfl <;> decide
  unfold IsLineEnd at hc
  rcases p with ⟨pState, cmdTarget, ledStates⟩
  rcases hp with rfl | rfl
  · simp [handleUserInput, hc]
  · simp [handleUserInput, hc, ho, hl, hh, hi]

end LoccFirmware.Protocol
