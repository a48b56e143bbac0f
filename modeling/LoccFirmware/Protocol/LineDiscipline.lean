import LoccFirmware.Protocol.Parser

/-!
# Line Discipline of the Parser

The comment in `loop` gives the command language as `[command]\n`: a command
stands at the start of a line.  Two questions about arbitrary byte streams:

- **Line starts**: which `o` bytes open the lock?  All that directly follow a line
  end, and one more kind.  The `h` and `i` branches of `handle_user_input` leave
  `p_state` where it is, so an `o` right after an `h` or `i` still opens.
- **Resynchronisation**: what does a line end do after an arbitrary history?  It
  leaves the parser expecting a command unless it falls into the two data bytes
  of an LED command, where it is data like any other byte.

Both are answered exactly, over every stream.
-/

namespace LoccFirmware.Protocol

/-- The parser's `p_state` when it reads byte `k` of a stream. -/
def stateBefore (s : List UInt8) (k : ℕ) : ProtocolState :=
  (parse (s.take k)).pState

theorem parse_concat (s : List UInt8) (c : UInt8) :
    parse (s ++ [c]) = (handleUserInput c (parse s)).parser :=
  parser.run_concat _ s c

theorem returns_getElem?_eq_one_iff (s : List UInt8) (k : ℕ) :
    (returns s)[k]? = some 1 ↔
      stateBefore s k = .waitForCmdChar ∧ s[k]? = some 'o'.toUInt8 := by
  rw [returns, parser.outputs_getElem?]
  cases hk : s[k]? with
  | none => simp
  | some c =>
    simp only [Option.map_some, Option.some.injEq]
    exact handleUserInput_command_eq_one_iff c (parse (s.take k))

/-- The state before byte `k + 1` is the state before byte `k`, moved by byte `k`. -/
theorem stateBefore_succ {s : List UInt8} {k : ℕ} {c : UInt8} (hk : s[k]? = some c) :
    stateBefore s (k + 1) = (handleUserInput c (parse (s.take k))).parser.pState := by
  rw [stateBefore, parse, parser.run_take_succ _ hk]
  rfl

/-! ## Line starts -/

/-- Every call that returns 1 is on an `o` that directly follows a line end. -/
def OpensOnlyAtLineStart (s : List UInt8) : Prop :=
  ∀ k, (returns s)[k]? = some 1 →
    s[k]? = some 'o'.toUInt8 ∧ 0 < k ∧
      (s[k - 1]? = some '\n'.toUInt8 ∨ s[k - 1]? = some '\r'.toUInt8)

/-- No `o` directly follows an `h` or `i` that was read where a command is expected. -/
def NoOpenAfterIdleCommand (s : List UInt8) : Prop :=
  ∀ k, stateBefore s k = .waitForCmdChar →
    s[k]? = some 'h'.toUInt8 ∨ s[k]? = some 'i'.toUInt8 → s[k + 1]? ≠ some 'o'.toUInt8

/-- Where a command is expected before byte `k + 1`, byte `k` was a line end, or an
    `h` or `i` read where a command was already expected. -/
theorem byte_before_command {s : List UInt8} {k : ℕ} {c : UInt8} (hk : s[k]? = some c)
    (hstate : stateBefore s (k + 1) = .waitForCmdChar) :
    IsLineEnd c ∨
      (stateBefore s k = .waitForCmdChar ∧ (c = 'h'.toUInt8 ∨ c = 'i'.toUInt8)) := by
  rw [stateBefore_succ hk, handleUserInput_waitForCmdChar_iff] at hstate
  rcases hstate with ⟨-, hend⟩ | ⟨hcmd, hend | hidle⟩
  · exact Or.inl hend
  · exact Or.inl hend
  · exact Or.inr ⟨hcmd, hidle⟩

/-- **Line starts, exactly**: on a stream, every opening `o` directly follows a line
    end if and only if no `o` directly follows an `h` or `i` that the parser read
    where it expected a command. -/
theorem opensOnlyAtLineStart_iff (s : List UInt8) :
    OpensOnlyAtLineStart s ↔ NoOpenAfterIdleCommand s := by
  constructor
  · intro h k hstate hidle ho
    -- the idle command keeps the parser in place, so the `o` behind it opens
    have hopen : (returns s)[k + 1]? = some 1 := by
      rw [returns_getElem?_eq_one_iff]
      refine ⟨?_, ho⟩
      rcases hidle with hk | hk
      · rw [stateBefore_succ hk, handleUserInput_waitForCmdChar_iff]
        exact Or.inr ⟨hstate, Or.inr (Or.inl rfl)⟩
      · rw [stateBefore_succ hk, handleUserInput_waitForCmdChar_iff]
        exact Or.inr ⟨hstate, Or.inr (Or.inr rfl)⟩
    obtain ⟨-, -, hend⟩ := h (k + 1) hopen
    rw [Nat.add_sub_cancel] at hend
    rcases hidle with hk | hk <;> rcases hend with he | he <;>
      · rw [hk] at he
        exact absurd he (by decide)
  · -- conversely, a call that returns 1 expects a command, so look at the byte before it
    intro h k hopen
    rw [returns_getElem?_eq_one_iff] at hopen
    obtain ⟨hstate, ho⟩ := hopen
    cases k with
    -- at first a line end is awaited
    | zero => exact absurd hstate (by simp [stateBefore, parse, Parser.initial])
    | succ k =>
      have hlt : k < s.length := by
        have := (List.getElem?_eq_some_iff.mp ho).1
        omega
      have hk : s[k]? = some s[k] := List.getElem?_eq_getElem hlt
      refine ⟨ho, Nat.succ_pos k, ?_⟩
      rw [Nat.add_sub_cancel, hk]
      rcases byte_before_command hk hstate with hend | ⟨hcmd, hidle⟩
      · exact hend.imp (congrArg some) (congrArg some)
      · exact absurd ho (h k hcmd (by
          rw [hk]; exact hidle.imp (congrArg some) (congrArg some)))

/-- The stream `\nho` opens the lock although its `o` follows an `h`. -/
theorem not_opensOnlyAtLineStart_ho :
    ¬ OpensOnlyAtLineStart ['\n'.toUInt8, 'h'.toUInt8, 'o'.toUInt8] := by
  intro h
  obtain ⟨-, -, hend⟩ := h 2 (by decide)
  exact absurd hend (by decide)

/-! ## Resynchronisation -/

/-- After stream `s` a command is expected, and an `o` fed next returns 1. -/
def Resynchronised (s : List UInt8) : Prop :=
  (parse s).pState = .waitForCmdChar ∧ (returns (s ++ ['o'.toUInt8])).getLast? = some 1

/-- The stream stops behind the `l` of an LED command or behind its first data byte. -/
def EndsInsideLedCommand (s : List UInt8) : Prop :=
  ∃ t, (parse t).pState = .waitForCmdChar ∧
    (s = t ++ ['l'.toUInt8] ∨ ∃ a, s = t ++ ['l'.toUInt8, a])

theorem resynchronised_iff (s : List UInt8) :
    Resynchronised s ↔ (parse s).pState = .waitForCmdChar := by
  refine ⟨And.left, fun h => ⟨h, ?_⟩⟩
  rw [returns, parser.outputs_concat, List.getLast?_concat]
  exact congrArg some ((handleUserInput_command_eq_one_iff _ (parse s)).mpr ⟨h, rfl⟩)

theorem waitForLedNumber_iff (c : UInt8) (p : Parser) :
    (handleUserInput c p).parser.pState = .waitForLedNumber ↔
      p.pState = .waitForCmdChar ∧ c = 'l'.toUInt8 := by
  unfold handleUserInput
  cases hp : p.pState with
  | waitForCmdChar =>
    simp only [true_and]
    split_ifs with ho hl
    · subst ho; simp; decide
    · simp [hl]
    all_goals simp [hp, hl]
  | waitForNewline => simp only [reduceCtorEq, false_and, iff_false]; split_ifs <;> simp_all
  | waitForLedNumber => simp
  | waitForLedValue => simp

theorem waitForLedValue_iff (c : UInt8) (p : Parser) :
    (handleUserInput c p).parser.pState = .waitForLedValue ↔
      p.pState = .waitForLedNumber := by
  unfold handleUserInput
  cases hp : p.pState with
  | waitForCmdChar => simp only [reduceCtorEq, iff_false]; split_ifs <;> simp_all
  | waitForNewline => simp only [reduceCtorEq, iff_false]; split_ifs <;> simp_all
  | waitForLedNumber => simp
  | waitForLedValue => simp

/-- The parser waits for LED data exactly when the stream ends inside an LED command. -/
theorem endsInsideLedCommand_iff (s : List UInt8) :
    EndsInsideLedCommand s ↔
      (parse s).pState = .waitForLedNumber ∨ (parse s).pState = .waitForLedValue := by
  constructor
  · rintro ⟨t, ht, rfl | ⟨a, rfl⟩⟩
    · left
      rw [parse_concat, waitForLedNumber_iff]
      exact ⟨ht, rfl⟩
    · right
      rw [← List.singleton_append, ← List.append_assoc, parse_concat, waitForLedValue_iff,
        parse_concat, waitForLedNumber_iff]
      exact ⟨ht, rfl⟩
  · -- walk back from the waiting state to the `l` that led there
    have number : ∀ s, (parse s).pState = .waitForLedNumber →
        ∃ t, (parse t).pState = .waitForCmdChar ∧ s = t ++ ['l'.toUInt8] := by
      intro s hs
      cases s using List.reverseRecOn with
      | nil => exact absurd hs (by decide)
      | append_singleton t c =>
        rw [parse_concat, waitForLedNumber_iff] at hs
        exact ⟨t, hs.1, by rw [hs.2]⟩
    rintro (hs | hs)
    -- one byte back to the `l`, or two
    · obtain ⟨t, ht, rfl⟩ := number s hs
      exact ⟨t, ht, Or.inl rfl⟩
    · cases s using List.reverseRecOn with
      | nil => exact absurd hs (by decide)
      | append_singleton s c =>
        rw [parse_concat, waitForLedValue_iff] at hs
        obtain ⟨t, ht, rfl⟩ := number s hs
        exact ⟨t, ht, Or.inr ⟨c, by simp⟩⟩

/-- One line end resynchronises exactly the parsers that do not wait for LED data. -/
theorem newline_waitForCmdChar_iff (s : List UInt8) :
    (parse (s ++ ['\n'.toUInt8])).pState = .waitForCmdChar ↔ ¬ EndsInsideLedCommand s := by
  rw [parse_concat, handleUserInput_waitForCmdChar_iff, endsInsideLedCommand_iff]
  have hend : IsLineEnd '\n'.toUInt8 := Or.inl rfl
  -- a line end is one in the two states that wait for none of the LED's bytes
  cases (parse s).pState <;> simp [hend]

/-- The first two line ends after any history use up the LED data bytes still
    missing, so the third finds a parser that takes it as a line end. -/
theorem not_endsInside_two_newlines (s : List UInt8) :
    ¬ EndsInsideLedCommand (s ++ ['\n'.toUInt8] ++ ['\n'.toUInt8]) := by
  rw [endsInsideLedCommand_iff, parse_concat, waitForLedNumber_iff, waitForLedValue_iff,
    parse_concat, waitForLedNumber_iff]
  -- either way one of the two line ends would have to be an `l`
  rintro (⟨-, h⟩ | ⟨-, h⟩)
  · exact absurd h (by decide)
  · exact absurd h (by decide)

/-- **Resynchronisation**: after any history, one line end leaves the parser
    expecting a command (and an `o` fed next opens) unless the history ends inside an
    LED command, whose data it then is; three line ends always do. -/
theorem newline_resynchronises (s : List UInt8) :
    (¬ EndsInsideLedCommand s → Resynchronised (s ++ ['\n'.toUInt8])) ∧
    (EndsInsideLedCommand s → ¬ Resynchronised (s ++ ['\n'.toUInt8])) ∧
    Resynchronised (s ++ ['\n'.toUInt8, '\n'.toUInt8, '\n'.toUInt8]) := by
  refine ⟨fun h => ?_, fun h => ?_, ?_⟩
  · rw [resynchronised_iff, newline_waitForCmdChar_iff]
    exact h
  · rw [resynchronised_iff, newline_waitForCmdChar_iff]
    exact not_not_intro h
  · have hthree : s ++ ['\n'.toUInt8, '\n'.toUInt8, '\n'.toUInt8] =
        s ++ ['\n'.toUInt8] ++ ['\n'.toUInt8] ++ ['\n'.toUInt8] := by simp
    rw [resynchronised_iff, hthree, newline_waitForCmdChar_iff]
    exact not_endsInside_two_newlines s

/-- A host that dies behind the `l` of an LED command does not recover with one
    line end: the line end becomes the LED number, and the `o` after it the value. -/
theorem not_resynchronised_truncated_led :
    ¬ Resynchronised (['\n'.toUInt8, 'l'.toUInt8] ++ ['\n'.toUInt8]) := by
  intro h
  exact absurd h.1 (by decide)

end LoccFirmware.Protocol
