import LoccFirmware.Protocol.Parser

/-!
# Decoding Undoes Encoding

The command language of the host side: `o` opens the lock, `l` followed by two
arbitrary bytes sets an LED, and every command is followed by at least one line
end.  A session that speaks this language is read back command by command:
every open command is reported once and on its own byte, and the LEDs end up as
the last command for each of them says.

The induction is over the list of commands.  One command and its line ends form
a step that starts and ends with the parser expecting a command, so neither the
data bytes of an LED command (line ends included) nor repeated line ends can get
the two sides out of step.
-/

namespace LoccFirmware.Protocol

/-! ## The language -/

/-- A command of the host. -/
inductive Command where
  | openLock
  | led (a b : UInt8)
  deriving DecidableEq, Repr

/-- The bytes of a command, without its line end. -/
def Command.encode : Command → List UInt8
  | .openLock => ['o'.toUInt8]
  | .led a b => ['l'.toUInt8, a, b]

/-- What the calls on the bytes of a command return. -/
def Command.answers : Command → List ℕ
  | .openLock => [1]
  | .led _ _ => [0, 0, 0]

/-- One or more line ends. -/
structure LineEnds where
  bytes : List UInt8
  nonempty : bytes ≠ []
  lineEnds : ∀ c ∈ bytes, IsLineEnd c

/-- The byte stream of a session: some line ends, then commands with line ends
after each. -/
def session (lead : LineEnds) (cmds : List (Command × LineEnds)) : List UInt8 :=
  lead.bytes ++ cmds.flatMap fun ce => ce.1.encode ++ ce.2.bytes

/-- The returns of a session: 1 on the byte of each open command, 0 everywhere else. -/
def sessionAnswers (lead : LineEnds) (cmds : List (Command × LineEnds)) : List ℕ :=
  List.replicate lead.bytes.length 0 ++
    cmds.flatMap fun ce => ce.1.answers ++ List.replicate ce.2.bytes.length 0

/-- The value byte of the last command for LED `k`, if there was one. -/
def lastLed (k : ℕ) (cmds : List Command) : Option UInt8 :=
  (cmds.filterMap fun
    | .openLock => none
    | .led a b => if a = '0'.toUInt8 + UInt8.ofNat k then some b else none).getLast?

/-! ## One step of a session -/

theorem run_lineEnds_of_waitForCmdChar {p : Parser} (hp : p.pState = .waitForCmdChar)
    {l : List UInt8} (hl : ∀ c ∈ l, IsLineEnd c) :
    parser.run p l = p ∧ parser.outputs p l = List.replicate l.length 0 := by
  induction l with
  | nil => exact ⟨rfl, rfl⟩
  | cons c l ih =>
    obtain ⟨hnext, hret⟩ := handleUserInput_lineEnd (hl c List.mem_cons_self) (Or.inr hp)
    have hstep : parser.step p c = (p, 0) := by
      have hsame : { p with pState := .waitForCmdChar } = p := by rw [← hp]
      rw [hsame] at hnext
      exact Prod.ext hnext hret
    obtain ⟨hrun, hout⟩ := ih (fun d hd => hl d (List.mem_cons_of_mem c hd))
    rw [Automata.Mealy.run_cons, Automata.Mealy.outputs_cons, hstep, hrun, hout]
    exact ⟨rfl, rfl⟩

/-- One or more line ends, read where a line end or a command is expected, lead to a
    parser that expects a command and has changed nothing else. -/
theorem run_lineEnds {p : Parser}
    (hp : p.pState = .waitForNewline ∨ p.pState = .waitForCmdChar) (e : LineEnds) :
    parser.run p e.bytes = { p with pState := .waitForCmdChar } ∧
      parser.outputs p e.bytes = List.replicate e.bytes.length 0 := by
  obtain ⟨l, hne, hl⟩ := e
  cases l with
  | nil => exact absurd rfl hne
  | cons c l =>
    obtain ⟨hnext, hret⟩ := handleUserInput_lineEnd (hl c List.mem_cons_self) hp
    have hstep : parser.step p c = ({ p with pState := .waitForCmdChar }, 0) :=
      Prod.ext hnext hret
    -- the first line end gets the parser there, the others keep it there
    obtain ⟨hrun, hout⟩ := run_lineEnds_of_waitForCmdChar
      (p := { p with pState := .waitForCmdChar }) rfl
      (fun d hd => hl d (List.mem_cons_of_mem c hd))
    rw [Automata.Mealy.run_cons, Automata.Mealy.outputs_cons, hstep, hrun, hout]
    exact ⟨rfl, rfl⟩

/-- What a command does to `led_states`. -/
def Command.apply (c : Command) (p : Parser) : UInt8 :=
  match c with
  | .openLock => p.ledStates
  | .led a b => (setLed (a - '0'.toUInt8) (b - '0'.toUInt8) p).ledStates

/-- The bytes of a command, read where a command is expected, carry it out and leave
    the parser waiting for a line end. -/
theorem run_command {p : Parser} (hp : p.pState = .waitForCmdChar) (c : Command) :
    (parser.run p c.encode).pState = .waitForNewline ∧
      (parser.run p c.encode).ledStates = c.apply p ∧
      parser.outputs p c.encode = c.answers := by
  obtain ⟨pState, cmdTarget, ledStates⟩ := p
  simp only at hp
  subst hp
  cases c with
  | openLock => exact ⟨rfl, rfl, rfl⟩
  | led a b =>
    refine ⟨rfl, ?_, rfl⟩
    -- the three calls store `a`, then pass it on with `b`; `set_led` reads neither static
    show (setLed (a - '0'.toUInt8) (b - '0'.toUInt8) _).ledStates = _
    simp only [Command.apply, setLed]
    split <;> rfl

/-- A command with its line ends: from a parser that expects a command to one that
    expects a command. -/
theorem run_command_lineEnds {p : Parser} (hp : p.pState = .waitForCmdChar)
    (ce : Command × LineEnds) :
    (parser.run p (ce.1.encode ++ ce.2.bytes)).pState = .waitForCmdChar ∧
      (parser.run p (ce.1.encode ++ ce.2.bytes)).ledStates = ce.1.apply p ∧
      parser.outputs p (ce.1.encode ++ ce.2.bytes) =
        ce.1.answers ++ List.replicate ce.2.bytes.length 0 := by
  obtain ⟨hstate, hled, hout⟩ := run_command hp ce.1
  obtain ⟨hrun, hzero⟩ := run_lineEnds (Or.inl hstate) ce.2
  rw [Automata.Mealy.run_append, Automata.Mealy.outputs_append, hrun, hzero, hout]
  exact ⟨rfl, hled, rfl⟩

/-! ## LED bits -/

/-- `set_led` on a valid number writes that bit, active low, and no other. -/
theorem setLed_testBit {p : Parser} (hp : p.ledStates < 8) {num : UInt8} (hnum : num < 3)
    (val : UInt8) {k : ℕ} (hk : k < 8) :
    (setLed num val p).ledStates.toNat.testBit k =
      if k = num.toNat then decide (val = 0) else p.ledStates.toNat.testBit k := by
  -- `led_states` stays below 8, so all cases are in a small table
  have table : ∀ n < 8, ∀ m < 3, ∀ k < 8, ∀ v : Bool,
      (UInt8.ofNat n &&& ~~~(1 <<< UInt8.ofNat m) |||
        (if v then 1 else 0) <<< UInt8.ofNat m).toNat.testBit k =
      if k = m then v else n.testBit k := by decide
  have h := table p.ledStates.toNat (UInt8.lt_iff_toNat_lt.mp hp) num.toNat
    (UInt8.lt_iff_toNat_lt.mp hnum) k hk (decide (val = 0))
  rw [UInt8.ofNat_toNat, UInt8.ofNat_toNat] at h
  simpa [setLed, hnum] using h

theorem setLed_lt {p : Parser} (hp : p.ledStates < 8) (num val : UInt8) :
    (setLed num val p).ledStates < 8 := by
  unfold setLed
  split
  · rename_i hnum
    have table : ∀ n < 8, ∀ m < 3, ∀ v : Bool,
        UInt8.ofNat n &&& ~~~(1 <<< UInt8.ofNat m) |||
          (if v then 1 else 0) <<< UInt8.ofNat m < 8 := by decide
    have h := table p.ledStates.toNat (UInt8.lt_iff_toNat_lt.mp hp) num.toNat
      (UInt8.lt_iff_toNat_lt.mp hnum) (decide (val = 0))
    rw [UInt8.ofNat_toNat, UInt8.ofNat_toNat] at h
    simpa using h
  · exact hp

/-- The LEDs stay in the three low bits, whatever is received. -/
theorem handleUserInput_ledStates_lt (c : UInt8) {p : Parser} (hp : p.ledStates < 8) :
    (handleUserInput c p).parser.ledStates < 8 := by
  unfold handleUserInput
  cases p.pState with
  | waitForNewline => dsimp only; split_ifs <;> exact hp
  | waitForCmdChar => dsimp only; split_ifs <;> exact hp
  | waitForLedNumber => exact hp
  | waitForLedValue => exact setLed_lt hp _ _

theorem parse_ledStates_lt (s : List UInt8) : (parse s).ledStates < 8 :=
  Automata.Mealy.run_induction (M := parser) (I := fun p => p.ledStates < 8)
    (fun _ c hp => handleUserInput_ledStates_lt c hp) (by decide) s

/-- The subtraction in the call of `set_led` wraps, so only `0`, `1` and `2` name an LED. -/
theorem sub_zero_char_lt_three_iff (a : UInt8) :
    a - '0'.toUInt8 < 3 ↔ a = '0'.toUInt8 ∨ a = '1'.toUInt8 ∨ a = '2'.toUInt8 := by
  have h0 : '0'.toUInt8 = 48 := by decide
  have h1 : '1'.toUInt8 = 49 := by decide
  have h2 : '2'.toUInt8 = 50 := by decide
  rw [h0, h1, h2]
  constructor
  · intro h; grind
  · rintro (rfl | rfl | rfl) <;> decide

private theorem ofNat_toNat_of_lt_three {k : ℕ} (hk : k < 3) : (UInt8.ofNat k).toNat = k :=
  UInt8.toNat_ofNat_of_lt' (Nat.lt_trans hk (by decide))

/-- A command acts on LED bit `k` exactly when it names LED `k`. -/
theorem apply_testBit {p : Parser} (hp : p.ledStates < 8) (c : Command) {k : ℕ} (hk : k < 3) :
    (c.apply p).toNat.testBit k =
      match c with
      | .openLock => p.ledStates.toNat.testBit k
      | .led a b =>
        if a = '0'.toUInt8 + UInt8.ofNat k then decide (b = '0'.toUInt8)
        else p.ledStates.toNat.testBit k := by
  cases c with
  | openLock => rfl
  | led a b =>
    simp only [Command.apply]
    by_cases hnum : a - '0'.toUInt8 < 3
    · rw [setLed_testBit hp hnum _ (by omega)]
      -- the wrapped difference is `k` exactly when `a` is the character of `k`
      have hname : k = (a - '0'.toUInt8).toNat ↔ a = '0'.toUInt8 + UInt8.ofNat k := by
        constructor
        · intro h
          rw [h, UInt8.ofNat_toNat]
          grind
        · rintro rfl
          have : '0'.toUInt8 + UInt8.ofNat k - '0'.toUInt8 = UInt8.ofNat k := by grind
          rw [this, ofNat_toNat_of_lt_three hk]
      have hval : (b - '0'.toUInt8 = 0) ↔ b = '0'.toUInt8 := by grind
      simp only [hname, hval]
    · -- a number that is none of an LED is not `k` either
      have hne : a ≠ '0'.toUInt8 + UInt8.ofNat k := by
        rintro rfl
        apply hnum
        have : '0'.toUInt8 + UInt8.ofNat k - '0'.toUInt8 = UInt8.ofNat k := by grind
        rw [this, UInt8.lt_iff_toNat_lt, ofNat_toNat_of_lt_three hk]
        exact hk
      simp [setLed, hnum, hne]

theorem apply_lt {p : Parser} (hp : p.ledStates < 8) (c : Command) : c.apply p < 8 := by
  cases c with
  | openLock => exact hp
  | led a b => exact setLed_lt hp _ _

theorem lastLed_concat (k : ℕ) (cmds : List Command) (c : Command) :
    lastLed k (cmds ++ [c]) =
      match c with
      | .openLock => lastLed k cmds
      | .led a b => if a = '0'.toUInt8 + UInt8.ofNat k then some b else lastLed k cmds := by
  unfold lastLed
  cases c with
  | openLock => simp
  | led a b =>
    by_cases h : a = '0'.toUInt8 + UInt8.ofNat k
    · simp [h]
    · simp [h]

/-! ## Whole sessions -/

theorem session_concat (lead : LineEnds) (cmds : List (Command × LineEnds))
    (ce : Command × LineEnds) :
    session lead (cmds ++ [ce]) = session lead cmds ++ (ce.1.encode ++ ce.2.bytes) := by
  simp [session]

theorem sessionAnswers_concat (lead : LineEnds) (cmds : List (Command × LineEnds))
    (ce : Command × LineEnds) :
    sessionAnswers lead (cmds ++ [ce]) =
      sessionAnswers lead cmds ++ (ce.1.answers ++ List.replicate ce.2.bytes.length 0) := by
  simp [sessionAnswers]

/-- What holds after every session; each command with its line ends preserves it. -/
structure SessionRead (lead : LineEnds) (cmds : List (Command × LineEnds)) : Prop where
  state : (parse (session lead cmds)).pState = .waitForCmdChar
  answers : returns (session lead cmds) = sessionAnswers lead cmds
  leds : (parse (session lead cmds)).ledStates < 8
  bits : ∀ k < 3, (parse (session lead cmds)).ledStates.toNat.testBit k =
    match lastLed k (cmds.map Prod.fst) with
    | none => true
    | some b => decide (b = '0'.toUInt8)

theorem SessionRead.nil (lead : LineEnds) : SessionRead lead [] := by
  have hsession : session lead [] = lead.bytes := by simp [session]
  obtain ⟨hrun, hout⟩ := run_lineEnds (p := Parser.initial) (Or.inl rfl) lead
  constructor
  · rw [hsession, parse, hrun]
  · rw [hsession, returns, hout]
    simp [sessionAnswers]
  · rw [hsession, parse, hrun]
    decide
  · rw [hsession, parse, hrun]
    decide

theorem SessionRead.concat {lead : LineEnds} {cmds : List (Command × LineEnds)}
    (h : SessionRead lead cmds) (ce : Command × LineEnds) :
    SessionRead lead (cmds ++ [ce]) := by
  obtain ⟨hstate, hled, hout⟩ := run_command_lineEnds h.state ce
  have hparse : parse (session lead (cmds ++ [ce])) =
      parser.run (parse (session lead cmds)) (ce.1.encode ++ ce.2.bytes) := by
    rw [session_concat, parse, Automata.Mealy.run_append]
    rfl
  constructor
  · rw [hparse, hstate]
  · rw [session_concat, returns, Automata.Mealy.outputs_append, sessionAnswers_concat,
      ← h.answers]
    exact congrArg (returns (session lead cmds) ++ ·) hout
  · rw [hparse, hled]
    exact apply_lt h.leds ce.1
  · intro k hk
    rw [hparse, hled, apply_testBit h.leds ce.1 hk, List.map_append, List.map_cons, List.map_nil,
      lastLed_concat]
    -- the last command for LED `k` is this one, or it was there before
    cases hc : ce.1 with
    | openLock => exact h.bits k hk
    | led a b =>
      simp only
      split
      · rfl
      · exact h.bits k hk

theorem sessionRead (lead : LineEnds) (cmds : List (Command × LineEnds)) :
    SessionRead lead cmds := by
  -- commands are added at the end, where the parser is
  induction cmds using List.reverseRecOn with
  | nil => exact SessionRead.nil lead
  | append_singleton cmds ce ih => exact ih.concat ce

/-- **Decoding undoes encoding**: on every session the calls return 1 exactly on the
    byte of each open command; the parser ends up expecting a command; LED bit `k` is 0
    exactly when the last command for LED `k` had a value other than `0`; the bits
    above are 0; and an LED command that names no LED changes nothing. -/
theorem session_decoded (lead : LineEnds) (cmds : List (Command × LineEnds)) :
    returns (session lead cmds) = sessionAnswers lead cmds ∧
    (parse (session lead cmds)).pState = .waitForCmdChar ∧
    (∀ k < 3, (parse (session lead cmds)).ledStates.toNat.testBit k = false ↔
      ∃ b, lastLed k (cmds.map Prod.fst) = some b ∧ b ≠ '0'.toUInt8) ∧
    (∀ k, 3 ≤ k → (parse (session lead cmds)).ledStates.toNat.testBit k = false) ∧
    (∀ a b e, a ∉ ['0'.toUInt8, '1'.toUInt8, '2'.toUInt8] →
      (parse (session lead (cmds ++ [(.led a b, e)]))).ledStates =
        (parse (session lead cmds)).ledStates) := by
  have h := sessionRead lead cmds
  refine ⟨h.answers, h.state, fun k hk => ?_, fun k hk => ?_, fun a b e ha => ?_⟩
  · rw [h.bits k hk]
    cases lastLed k (cmds.map Prod.fst) with
    | none => simp
    | some b => simp
  · have hlt : (parse (session lead cmds)).ledStates.toNat < 2 ^ k :=
      Nat.lt_of_lt_of_le (UInt8.lt_iff_toNat_lt.mp h.leds) (Nat.pow_le_pow_right Nat.two_pos hk)
    exact Nat.testBit_lt_two_pow hlt
  · -- `set_led` ignores a number above 2
    have hnum : ¬ a - '0'.toUInt8 < 3 := by
      rw [sub_zero_char_lt_three_iff]
      simpa using ha
    obtain ⟨-, hled, -⟩ := run_command_lineEnds h.state (.led a b, e)
    rw [session_concat, parse, Automata.Mealy.run_append]
    refine hled.trans ?_
    simp [Command.apply, setLed, hnum]

end LoccFirmware.Protocol
