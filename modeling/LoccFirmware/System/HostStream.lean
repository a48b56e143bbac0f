import LoccFirmware.Input.KeyReports
import LoccFirmware.System.HostLink

/-!
# Reading the Stream Apart

The answers to commands, the characters of the keypad and those of the dial go to the host
in one stream of bytes, and nothing in it says where a byte comes from.  The answers are
bytes of their own, and so are the letters of the hook and those of the keypad; the host
can pick them out, and what it gets is what `dial_scan` and `keypad_scan` returned, in
order, whatever else was going on.  The digits are another matter: the keypad and the dial
share them, and the host can tell them apart only if one of the two is left alone.
-/

namespace LoccFirmware.System

open LoccFirmware.Automata LoccFirmware.Protocol LoccFirmware.Lock LoccFirmware.Input

/-! ## Kinds of bytes -/

/-- Answers to commands: a command seen or accepted, an opening done, an empty line. -/
def isAnswer (c : UInt8) : Bool :=
  c = 'O'.toUInt8 ∨ c = '.'.toUInt8 ∨ c = '\r'.toUInt8

/-- Letters for the hook. -/
def isHookLetter (c : UInt8) : Bool :=
  c = 'H'.toUInt8 ∨ c = 'h'.toUInt8

/-- Keys that are no digits. -/
def isKeyLetter (c : UInt8) : Bool :=
  'a'.toUInt8 ≤ c ∧ c ≤ 'f'.toUInt8

/-- Digits, of the keypad or of the dial. -/
def isDigit (c : UInt8) : Bool :=
  '0'.toUInt8 ≤ c ∧ c ≤ '9'.toUInt8

/-- Characters of the keypad and the dial, taken by turns, without the zeros. -/
def merged (keys dialled : List UInt8) : List UInt8 :=
  (keys.zip dialled).flatMap fun x => putcNonzero x.1 ++ putcNonzero x.2

/-- The samples of port D in a run. -/
def pinds (events : List Event) : List UInt8 :=
  events.filterMap Event.pind

/-- The samples of port C in a run. -/
def pincs (events : List Event) : List UInt8 :=
  events.filterMap Event.pinc

/-! ## Merged characters -/

section Merged

variable {p : UInt8 → Bool} {keys dialled : List UInt8}

theorem flatMap_putcNonzero (cs : List UInt8) : cs.flatMap putcNonzero = cs.filter (· ≠ 0) := by
  induction cs with
  | nil => rfl
  | cons c cs ih =>
    rw [List.flatMap_cons, List.filter_cons, ih, putcNonzero]
    by_cases hc : c = 0 <;> simp [hc]

/-- Zeros are not among the bytes in question. -/
theorem filter_flatMap_putcNonzero (hzero : p 0 = false) (cs : List UInt8) :
    (cs.flatMap fun c => (putcNonzero c).filter p) = cs.filter p := by
  rw [← List.filter_flatMap, flatMap_putcNonzero, List.filter_filter]
  apply List.filter_congr
  intro c _
  by_cases hc : c = 0 <;> simp [hc, hzero]

theorem filter_putcNonzero_of_not {c : UInt8} (hc : p c = false) :
    (putcNonzero c).filter p = [] := by
  unfold putcNonzero
  split <;> simp [hc]

/-- Where the keys have none of the bytes in question, these are the dial's. -/
theorem filter_merged_of_keys (hlen : keys.length = dialled.length) (hzero : p 0 = false)
    (hkeys : ∀ k ∈ keys, p k = false) : (merged keys dialled).filter p = dialled.filter p := by
  have hdial : ∀ x ∈ keys.zip dialled, (putcNonzero x.1 ++ putcNonzero x.2).filter p =
      (putcNonzero x.2).filter p := by
    intro x hx
    rw [List.filter_append, filter_putcNonzero_of_not (hkeys x.1 (List.of_mem_zip hx).1)]
    rfl
  rw [merged, List.filter_flatMap, List.flatMap_congr hdial,
    ← List.flatMap_map Prod.snd fun d => (putcNonzero d).filter p,
    List.map_snd_zip (Nat.le_of_eq hlen.symm), filter_flatMap_putcNonzero hzero]

/-- Where the dial has none of the bytes in question, these are the keys'. -/
theorem filter_merged_of_dialled (hlen : keys.length = dialled.length) (hzero : p 0 = false)
    (hdialled : ∀ d ∈ dialled, p d = false) :
    (merged keys dialled).filter p = keys.filter p := by
  have hkey : ∀ x ∈ keys.zip dialled, (putcNonzero x.1 ++ putcNonzero x.2).filter p =
      (putcNonzero x.1).filter p := by
    intro x hx
    rw [List.filter_append, filter_putcNonzero_of_not (hdialled x.2 (List.of_mem_zip hx).2),
      List.append_nil]
  rw [merged, List.filter_flatMap, List.flatMap_congr hkey,
    ← List.flatMap_map Prod.fst fun k => (putcNonzero k).filter p,
    List.map_fst_zip (Nat.le_of_eq hlen), filter_flatMap_putcNonzero hzero]

end Merged

/-! ## The parts of a frame's stream -/

section Frame

variable (f : FrameInput) (m : Machine)

/-- The bytes of a frame before those of the keypad and the dial. -/
def answerBytes : List UInt8 :=
  (handleReceived f.received m.parser).sent ++
    (if (beforeTurn f m).2 then ['O'.toUInt8] else []) ++
    (driveLock f (beforeTurn f m).1).2.2

theorem handleReceived_isAnswer (received : Option UInt8) (p : Parser) :
    ∀ b ∈ (handleReceived received p).sent, isAnswer b = true := by
  cases received with
  | none => exact fun b hb => absurd hb List.not_mem_nil
  | some c =>
    rw [handleReceived]
    rcases handleUserInput_answer c p with ⟨-, hsent⟩ | ⟨-, hsent | hsent⟩
    · rw [hsent]
      exact List.all_eq_true.mp (by decide)
    · rw [hsent]
      exact List.all_eq_true.mp (by decide)
    · rw [hsent]
      exact List.all_eq_true.mp (by decide)

theorem driveLock_isAnswer (m : Machine) : ∀ b ∈ (driveLock f m).2.2, isAnswer b = true := by
  rcases driveLock_says f m with h | h
  · rw [h]
    exact List.all_eq_true.mp (by decide)
  · rw [h]
    exact List.all_eq_true.mp (by decide)

theorem answerBytes_isAnswer : ∀ b ∈ answerBytes f m, isAnswer b = true := by
  intro b hb
  rw [answerBytes, List.mem_append, List.mem_append] at hb
  rcases hb with (hb | hb) | hb
  · exact handleReceived_isAnswer _ _ b hb
  · split at hb
    · rw [List.mem_singleton.mp hb]
      decide
    · cases hb
  · exact driveLock_isAnswer f _ b hb

/-- A frame sends its answers, then the character of the keypad, then that of the dial. -/
theorem loop_sent_parts :
    (loop f m).2.sent = answerBytes f m ++ putcNonzero (keypadScan f.pind m.keypad).2 ++
      putcNonzero (dialScan f.pinc m.dial).2 :=
  loop_sent f m

end Frame

/-! ## Characters of the keypad and the dial -/

/-- The characters of the keypad are digits and letters. -/
theorem keypad_outputs_char {samples : List UInt8} {c : UInt8}
    (hc : c ∈ keypad.outputs Keypad.reset samples) :
    c = 0 ∨ isDigit c = true ∨ isKeyLetter c = true := by
  have hlookup : ∀ n < 16, isDigit (lookupAt n) = true ∨ isKeyLetter (lookupAt n) = true := by
    decide
  obtain ⟨t, ht⟩ := List.mem_iff_getElem?.mp hc
  have hlt : t < samples.length := by
    have := (List.getElem?_eq_some_iff.mp ht).1
    rwa [Mealy.outputs_length] at this
  obtain ⟨ret, hret, hcases⟩ := keypad_returns samples hlt
  obtain rfl : ret = c := Option.some.inj (hret.symm.trans ht)
  rcases hcases with ⟨i, hi, -, -, heq⟩ | ⟨-, hzero⟩
  · rw [heq]
    exact Or.inr (hlookup _ (by omega))
  · exact Or.inl hzero

/-- Those of the dial are digits and the letters for the hook. -/
theorem scans_char {samples : List UInt8} {c : UInt8} (hc : c ∈ scans samples) :
    c = 0 ∨ isDigit c = true ∨ isHookLetter c = true := by
  obtain ⟨t, x, -, rfl⟩ := Mealy.exists_step_of_mem_outputs _ hc
  generalize dial.run Dial.reset (samples.take t) = d
  have hstep : (dial.step d x).2 = (dialScan x d).2 := rfl
  rw [hstep, dialScan_returns]
  rcases (hookStep d.stateHangup.toNat (hangupHigh x)).2 with _ | _ | _
  · simp only
    split
    · obtain ⟨hge, hle⟩ := digitChar_range (countedImpulses x d)
      exact Or.inr (Or.inl (decide_eq_true ⟨hge, hle⟩))
    · exact Or.inl rfl
  · exact Or.inr (Or.inr rfl)
  · exact Or.inr (Or.inr rfl)

/-- The kinds of bytes exclude each other. -/
theorem kinds_disjoint (c : UInt8) :
    (isDigit c = true → isHookLetter c = false ∧ isKeyLetter c = false ∧ isAnswer c = false) ∧
    (isHookLetter c = true → isKeyLetter c = false ∧ isAnswer c = false) ∧
    (isKeyLetter c = true → isHookLetter c = false ∧ isAnswer c = false) := by
  have table : ∀ n < 256,
      (isDigit (UInt8.ofNat n) = true → isHookLetter (UInt8.ofNat n) = false ∧
        isKeyLetter (UInt8.ofNat n) = false ∧ isAnswer (UInt8.ofNat n) = false) ∧
      (isHookLetter (UInt8.ofNat n) = true → isKeyLetter (UInt8.ofNat n) = false ∧
        isAnswer (UInt8.ofNat n) = false) ∧
      (isKeyLetter (UInt8.ofNat n) = true → isHookLetter (UInt8.ofNat n) = false ∧
        isAnswer (UInt8.ofNat n) = false) := by
    decide +kernel
  have h := table c.toNat c.toNat_lt
  rwa [UInt8.ofNat_toNat] at h

/-! ## Whole runs -/

section Runs

variable (events : List Event)

theorem pinds_length : (pinds events).length = (pincs events).length := by
  induction events with
  | nil => rfl
  | cons e events ih =>
    cases e with
    | tick => exact ih
    | frame f => exact congrArg Nat.succ ih

/-- As many characters from the keypad as from the dial. -/
theorem scans_length :
    (keypad.outputs Keypad.reset (pinds events)).length = (scans (pincs events)).length := by
  rw [scans, Mealy.outputs_length, Mealy.outputs_length, pinds_length]

theorem merged_concat {keys dialled : List UInt8} (hlen : keys.length = dialled.length)
    (k d : UInt8) :
    merged (keys ++ [k]) (dialled ++ [d]) =
      merged keys dialled ++ (putcNonzero k ++ putcNonzero d) := by
  rw [merged, List.zip_append hlen, List.flatMap_append]
  simp [merged]

/-- **Without the answers**, the stream is what the keypad and the dial returned. -/
theorem sentBytes_filter {p : UInt8 → Bool} (hp : ∀ c, isAnswer c = true → p c = false) :
    (sentBytes events).filter p =
      (merged (keypad.outputs Keypad.reset (pinds events)) (scans (pincs events))).filter p := by
  refine Mealy.history_induction (M := firmware) (s := setup)
    (P := fun is _ os => (os.flatMap sentIn).filter p =
      (merged (keypad.outputs Keypad.reset (pinds is)) (scans (pincs is))).filter p)
    rfl (fun is e ih => ?_) events
  rw [List.flatMap_append, List.filter_append, ih, List.flatMap_singleton]
  cases e with
  | tick =>
    have hpinds : pinds (is ++ [.tick]) = pinds is := by simp [pinds, Event.pind]
    have hpincs : pincs (is ++ [.tick]) = pincs is := by simp [pincs, Event.pinc]
    rw [hpinds, hpincs]
    exact List.append_nil _
  | frame f =>
    have hpinds : pinds (is ++ [.frame f]) = pinds is ++ [f.pind] := by simp [pinds, Event.pind]
    have hpincs : pincs (is ++ [.frame f]) = pincs is ++ [f.pinc] := by simp [pincs, Event.pinc]
    -- both scans find the state that their own samples have led to
    have hkeypad := keypad_run is
    have hdial := dial_run is
    have hsent : sentIn (firmware.step (firmware.run setup is) (.frame f)).2 =
        answerBytes f (firmware.run setup is) ++
          putcNonzero (keypad.step (keypad.run Keypad.reset (pinds is)) f.pind).2 ++
          putcNonzero (dial.step (dial.run Dial.reset (pincs is)) f.pinc).2 := by
      rw [pinds, ← hkeypad, pincs, ← scanned, ← hdial]
      exact loop_sent_parts f _
    have hanswers : (answerBytes f (firmware.run setup is)).filter p = [] :=
      List.filter_eq_nil_iff.mpr fun b hb => by
        rw [hp b (answerBytes_isAnswer f _ b hb)]
        exact Bool.false_ne_true
    have hscans : scans (pincs is ++ [f.pinc]) =
        scans (pincs is) ++ [(dial.step (dial.run Dial.reset (pincs is)) f.pinc).2] :=
      Mealy.outputs_concat _ _ _ _
    rw [hsent, hpinds, hpincs, hscans, Mealy.outputs_concat, merged_concat (scans_length is)]
    simp only [List.filter_append, hanswers, List.nil_append]

/-- The bytes of a kind that the keypad does not have come from the dial. -/
theorem sentBytes_filter_dial {p : UInt8 → Bool} (hp : ∀ c, isAnswer c = true → p c = false)
    (hzero : p 0 = false) (hkeys : ∀ k ∈ keypad.outputs Keypad.reset (pinds events), p k = false) :
    (sentBytes events).filter p = (scans (pincs events)).filter p := by
  rw [sentBytes_filter events hp]
  exact filter_merged_of_keys (scans_length events) hzero hkeys

theorem sentBytes_filter_isHookLetter :
    (sentBytes events).filter isHookLetter = hookChars (scans (pincs events)) := by
  refine sentBytes_filter_dial events (fun c hc => ?_) (by decide) fun k hk => ?_
  · by_contra h
    rw [((kinds_disjoint c).2.1 (by simpa using h)).2] at hc
    cases hc
  · rcases keypad_outputs_char hk with rfl | hdigit | hletter
    · rfl
    · exact ((kinds_disjoint k).1 hdigit).1
    · exact ((kinds_disjoint k).2.2 hletter).1

theorem sentBytes_filter_isKeyLetter :
    (sentBytes events).filter isKeyLetter =
      (keypad.outputs Keypad.reset (pinds events)).filter isKeyLetter := by
  have hanswer : ∀ c, isAnswer c = true → isKeyLetter c = false := by
    intro c hc
    by_contra h
    rw [((kinds_disjoint c).2.2 (by simpa using h)).2] at hc
    cases hc
  rw [sentBytes_filter events hanswer]
  refine filter_merged_of_dialled (scans_length events) (by decide) fun d hd => ?_
  rcases scans_char hd with rfl | hdigit | hhook
  · rfl
  · exact ((kinds_disjoint d).1 hdigit).2.1
  · exact ((kinds_disjoint d).2.1 hhook).1

/-- No character of the keypad or the dial is an answer. -/
theorem merged_not_isAnswer {c : UInt8}
    (hc : c ∈ merged (keypad.outputs Keypad.reset (pinds events)) (scans (pincs events))) :
    isAnswer c = false := by
  have hput : ∀ {b : UInt8}, c ∈ putcNonzero b → c = b ∧ b ≠ 0 := by
    intro b hb
    unfold putcNonzero at hb
    split at hb
    · exact ⟨List.mem_singleton.mp hb, ‹_›⟩
    · cases hb
  obtain ⟨x, hx, hcx⟩ := List.mem_flatMap.mp hc
  obtain ⟨hkey, hdial⟩ := List.of_mem_zip hx
  rcases List.mem_append.mp hcx with h | h
  · obtain ⟨rfl, hne⟩ := hput h
    rcases keypad_outputs_char hkey with hzero | hdigit | hletter
    · exact absurd hzero hne
    · exact ((kinds_disjoint _).1 hdigit).2.2
    · exact ((kinds_disjoint _).2.2 hletter).2
  · obtain ⟨rfl, hne⟩ := hput h
    rcases scans_char hdial with hzero | hdigit | hhook
    · exact absurd hzero hne
    · exact ((kinds_disjoint _).1 hdigit).2.2
    · exact ((kinds_disjoint _).2.1 hhook).2

end Runs

/-- **The host can read the stream apart**: after every run from `setup`, whatever was
    received and however the lock was driven, the bytes sent are, but for the answers, the
    characters of the keypad and the dial by turns; the letters of the hook among them are
    those that `dial_scan` returned, and the letters of the keypad those that
    `keypad_scan` returned.  So the host sees the hook alternate and knows where it has
    settled, if every hand-over in `dial_scan` finds the hook where it was reported. -/
theorem host_reads_apart (events : List Event) :
    (sentBytes events).filter (fun c => !isAnswer c) =
        merged (keypad.outputs Keypad.reset (pinds events)) (scans (pincs events)) ∧
      (sentBytes events).filter isHookLetter = hookChars (scans (pincs events)) ∧
      (sentBytes events).filter isKeyLetter =
        (keypad.outputs Keypad.reset (pinds events)).filter isKeyLetter ∧
      (HookHandoverAgrees (pincs events) →
        (∀ (j : ℕ) (c : UInt8), ((sentBytes events).filter isHookLetter)[j]? = some c →
          c = if j % 2 = 0 then 'H'.toUInt8 else 'h'.toUInt8) ∧
        ((firmware.run setup events).dial.stateHangup = 1 →
          ((sentBytes events).filter isHookLetter).getLast? = some 'H'.toUInt8) ∧
        ((firmware.run setup events).dial.stateHangup = 0 →
          ((sentBytes events).filter isHookLetter).getLast? = none ∨
            ((sentBytes events).filter isHookLetter).getLast? = some 'h'.toUInt8)) := by
  refine ⟨?_, sentBytes_filter_isHookLetter events, sentBytes_filter_isKeyLetter events, ?_⟩
  · rw [sentBytes_filter events (by simp)]
    exact List.filter_eq_self.mpr fun c hc => by rw [merged_not_isAnswer events hc]; rfl
  · intro hagrees
    -- what holds after every number of samples holds after all of them
    have hfaithful := (hookFaithful_iff_faithful (pincs events)).mpr
      ((faithful_iff_handoverAgrees _).mpr ((hookHandoverAgrees_iff _).mp hagrees))
    have hhigh := hfaithful.settledHigh (pincs events).length (Nat.le_refl _)
    have hlow := hfaithful.settledLow (pincs events).length (Nat.le_refl _)
    have hstate : (firmware.run setup events).dial = scanned (pincs events) := dial_run events
    rw [List.take_length] at hhigh hlow
    rw [sentBytes_filter_isHookLetter, hstate]
    exact ⟨hfaithful.alternate, hhigh, hlow⟩

end LoccFirmware.System
