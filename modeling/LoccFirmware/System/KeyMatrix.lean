import LoccFirmware.System.HostStream
import LoccFirmware.System.RowDrive

/-!
# The Keypad in Its Circuit

The columns that `keypad_scan` samples are not just given: a column is low if a closed
contact connects it to a row that the shift register drives, and which row that is was
decided by the frame before.  Here the firmware is closed to a circuit with the shift
register and the sixteen contacts.  What is given is then which contacts are closed in
each frame, and the question is what the host reads.

Until the first frame is over the shift register holds whatever it held at power-up, and
the first sample shows the contacts through that.
-/

namespace LoccFirmware.System

open LoccFirmware.Automata LoccFirmware.Coding LoccFirmware.Protocol LoccFirmware.Input

/-! ## The circuit -/

/-- The contacts of the matrix by row and column, closed or open. -/
abbrev KeyContacts := ℕ → ℕ → Bool

/-- Column `i` is connected to a driven row. -/
def pulledLow (latched : UInt8) (closed : KeyContacts) (i : ℕ) : Bool :=
  (List.range 4).any fun q => drivesRow latched q && closed q i

/-- What `PIND` reads: the four columns, high unless pulled low, and the other pins. -/
def columns (low : ℕ → Bool) (others : UInt8) : UInt8 :=
  (List.range 4).foldl
    (fun pind i => if low i then pind else pind ||| (1 : UInt8) <<< UInt8.ofNat i) 0 |||
    (others &&& 0xF0)

/-- What the environment does during one frame, with contacts in the place of columns. -/
structure KeyFrame where
  received : Option UInt8
  closed : KeyContacts
  others : UInt8
  pinc : UInt8
  ticksBeforeCheck : ℕ
  ticksDuringStep : ℕ
  behind : ℕ → BitVec 16

/-- The frame as the firmware sees it through a shift register. -/
def KeyFrame.seen (latched : UInt8) (f : KeyFrame) : FrameInput where
  received := f.received
  pind := columns (pulledLow latched f.closed) f.others
  pinc := f.pinc
  ticksBeforeCheck := f.ticksBeforeCheck
  ticksDuringStep := f.ticksDuringStep
  behind := f.behind

/-- A frame, or a timer interrupt between two frames. -/
inductive KeyEvent where
  | tick
  | frame (f : KeyFrame)

/-- The contacts during an event. -/
def KeyEvent.closed : KeyEvent → Option KeyContacts
  | .tick => none
  | .frame f => some f.closed

/-- The firmware and the contents of the shift register. -/
structure Console where
  machine : Machine
  latched : UInt8

/-- Firmware and circuit; the output is what the firmware has seen. -/
def console : Mealy Console KeyEvent Event where
  step c e :=
    match e with
    | .tick => ({ c with machine := (firmware.step c.machine .tick).1 }, .tick)
    | .frame f =>
      ({ machine := (loop (f.seen c.latched) c.machine).1
         latched := (loop (f.seen c.latched) c.machine).2.spdr }, .frame (f.seen c.latched))

/-- The contacts frame by frame. -/
def contactsOf (events : List KeyEvent) : List KeyContacts :=
  events.filterMap KeyEvent.closed

section Seen

variable (atPowerUp : UInt8)

/-- What the firmware sees in a run from `setup`, given the contents of the shift register
at power-up. -/
def seenEvents (events : List KeyEvent) : List Event :=
  console.outputs ⟨setup, atPowerUp⟩ events

/-- The contacts as they are seen: in the first frame through what the shift register held
at power-up. -/
def asSeen : List KeyContacts → List KeyContacts
  | [] => []
  | closed :: rest => (fun _ i => pulledLow atPowerUp closed i) :: rest

/-- What `keypad_scan` returns in the frames of a run. -/
def keyChars (events : List KeyEvent) : List UInt8 :=
  keypad.outputs Keypad.reset (pinds (seenEvents atPowerUp events))

end Seen

/-- The samples of contact `(r, i)` in the frames that scan its row: scan `n` of row `r` is
frame `4 * n + r`. -/
def rowSamples (contacts : List KeyContacts) (r i : ℕ) : List Bool :=
  (List.range ((contacts.length + 3 - r) / 4)).map fun n =>
    (contacts.getD (4 * n + r) fun _ _ => false) r i

/-! ## One frame -/

theorem keyPressed_columns (low : ℕ → Bool) (others : UInt8) {i : ℕ} (hi : i < 4) :
    keyPressed (columns low others) i = low i := by
  -- the other pins are not looked at
  have hmask : others &&& 0xF0 &&& (1 : UInt8) <<< UInt8.ofNat i = 0 := by
    have hdisjoint : ∀ i < 4, (0xF0 : UInt8) &&& (1 : UInt8) <<< UInt8.ofNat i = 0 := by decide
    rw [UInt8.and_assoc, hdisjoint i hi, UInt8.and_zero]
  have table : ∀ a b c d : Bool, ∀ i < 4,
      keyPressed ((List.range 4).foldl (fun pind k => if [a, b, c, d].getD k false then pind
        else pind ||| (1 : UInt8) <<< UInt8.ofNat k) 0) i = [a, b, c, d].getD i false := by
    decide
  have hlevels : [low 0, low 1, low 2, low 3].getD i false = low i := by
    match i, hi with
    | 0, _ => rfl
    | 1, _ => rfl
    | 2, _ => rfl
    | 3, _ => rfl
  rw [keyPressed, columns, or_and_other_mask _ hmask, ← hlevels]
  exact table (low 0) (low 1) (low 2) (low 3) i hi

/-- If a single row is driven, a column shows the contact on that row. -/
theorem pulledLow_of_driven {latched : UInt8} {r : ℕ} (hr : r < 4)
    (hdriven : ∀ q < 4, drivesRow latched q = true ↔ q = r) (closed : KeyContacts) (i : ℕ) :
    pulledLow latched closed i = closed r i := by
  rw [pulledLow, Bool.eq_iff_iff, List.any_eq_true]
  constructor
  · rintro ⟨q, hq, h⟩
    rw [Bool.and_eq_true, hdriven q (List.mem_range.mp hq)] at h
    rw [← h.1]
    exact h.2
  · intro h
    exact ⟨r, List.mem_range.mpr hr, by rw [(hdriven r hr).mpr rfl, h]; rfl⟩

/-! ## Whole runs -/

section Runs

variable {atPowerUp : UInt8}

theorem asSeen_concat (contacts : List KeyContacts) (closed : KeyContacts) :
    asSeen atPowerUp (contacts ++ [closed]) =
      asSeen atPowerUp contacts ++
        [if contacts = [] then fun _ i => pulledLow atPowerUp closed i else closed] := by
  cases contacts with
  | nil => rfl
  | cons first rest => rfl

/-- Firmware and circuit after a run: the shift register drives the row that the next frame
scans, and every sample so far shows the contacts of the row that its frame scanned. -/
structure InStep (atPowerUp : UInt8) (contacts : List KeyContacts) (c : Console)
    (seen : List Event) : Prop where
  machine : c.machine = firmware.run setup seen
  length : (pinds seen).length = contacts.length
  atFirst : contacts = [] → c.latched = atPowerUp
  driven : contacts ≠ [] → ∀ q < 4, drivesRow c.latched q = true ↔ q = contacts.length % 4
  sampled : ∀ (t : ℕ) (x : UInt8) (closed : KeyContacts), (pinds seen)[t]? = some x →
    (asSeen atPowerUp contacts)[t]? = some closed → ∀ i < 4, keyPressed x i = closed (t % 4) i

theorem length_asSeen (atPowerUp : UInt8) (contacts : List KeyContacts) :
    (asSeen atPowerUp contacts).length = contacts.length := by
  cases contacts with
  | nil => rfl
  | cons first rest => rfl

/-- The byte that a frame latches drives the row that the next one scans. -/
theorem driven_after_frame (seen : List Event) (f : FrameInput) {q : ℕ} (hq : q < 4) :
    drivesRow (loop f (firmware.run setup seen)).2.spdr q = true ↔
      q = ((pinds seen).length + 1) % 4 := by
  have hkeypad : (loop f (firmware.run setup seen)).1.keypad.AtRow
      (((pinds seen).length + 1) % 4) := by
    rw [keypad_loop, keypad_run]
    have hstep := (keypad_atRow (pinds seen)).step f.pind
    rwa [Nat.mod_add_mod] at hstep
  have hleds : (loop f (firmware.run setup seen)).1.parser.ledStates < 8 := by
    have hrun := run_ledStates_lt (seen ++ [.frame f])
    rwa [Mealy.run_concat] at hrun
  obtain ⟨hdriven, -⟩ := latch_spec hleds hkeypad.lt
  rw [loop_spdr, hkeypad.selector]
  exact hdriven q hq

theorem InStep.frame {contacts : List KeyContacts} {c : Console} {seen : List Event}
    (h : InStep atPowerUp contacts c seen) (f : KeyFrame) :
    InStep atPowerUp (contacts ++ [f.closed]) (console.step c (.frame f)).1
      (seen ++ [(console.step c (.frame f)).2]) := by
  have hpinds : pinds (seen ++ [(console.step c (.frame f)).2]) =
      pinds seen ++ [(f.seen c.latched).pind] := by
    simp [pinds, console, Event.pind]
  have hlen := h.length
  refine ⟨?_, ?_, fun hnil => ?_, fun _ q hq => ?_, fun t x closed hx hclosed i hi => ?_⟩
  · rw [Mealy.run_concat, ← h.machine]
    rfl
  · rw [hpinds, List.length_append, List.length_append, hlen]
    rfl
  · exact absurd hnil (by simp)
  · rw [List.length_append, List.length_singleton, ← hlen]
    have hdriven := driven_after_frame seen (f.seen c.latched) hq
    rw [← h.machine] at hdriven
    exact hdriven
  · rw [hpinds] at hx
    rw [asSeen_concat] at hclosed
    rcases getElem?_concat_eq_some_iff.mp hx with hold | ⟨rfl, rfl⟩
    · -- an earlier sample
      have ht : t < (asSeen atPowerUp contacts).length := by
        have := (List.getElem?_eq_some_iff.mp hold).1
        rw [length_asSeen]
        omega
      rw [List.getElem?_append_left ht] at hclosed
      exact h.sampled t x closed hold hclosed i hi
    · -- the new one, through the row that is driven now
      rw [hlen, ← length_asSeen atPowerUp, List.getElem?_concat_length,
        Option.some.injEq] at hclosed
      rw [KeyFrame.seen, keyPressed_columns _ _ hi, ← hclosed]
      by_cases hnil : contacts = []
      · rw [if_pos hnil, h.atFirst hnil]
      · rw [if_neg hnil, hlen]
        exact pulledLow_of_driven (Nat.mod_lt _ (by decide)) (h.driven hnil) f.closed i

theorem InStep.tick {contacts : List KeyContacts} {c : Console} {seen : List Event}
    (h : InStep atPowerUp contacts c seen) :
    InStep atPowerUp contacts (console.step c .tick).1 (seen ++ [(console.step c .tick).2]) := by
  have hpinds : pinds (seen ++ [(console.step c .tick).2]) = pinds seen := by
    simp [pinds, console, Event.pind]
  refine ⟨?_, by rw [hpinds]; exact h.length, h.atFirst, h.driven, by rw [hpinds]; exact h.sampled⟩
  rw [Mealy.run_concat, ← h.machine]
  rfl

theorem inStep (atPowerUp : UInt8) (events : List KeyEvent) :
    InStep atPowerUp (contactsOf events) (console.run ⟨setup, atPowerUp⟩ events)
      (seenEvents atPowerUp events) := by
  refine Mealy.history_induction (M := console) (s := ⟨setup, atPowerUp⟩)
    (P := fun is c os => InStep atPowerUp (contactsOf is) c os) ?_ (fun is e ih => ?_) events
  · exact ⟨rfl, rfl, fun _ => rfl, fun hne => absurd rfl hne, fun t x closed hx => by cases hx⟩
  · cases e with
    | tick =>
      have hcontacts : contactsOf (is ++ [.tick]) = contactsOf is := by
        simp [contactsOf, KeyEvent.closed]
      rw [hcontacts]
      exact ih.tick
    | frame f =>
      have hcontacts : contactsOf (is ++ [.frame f]) = contactsOf is ++ [f.closed] := by
        simp [contactsOf, KeyEvent.closed]
      rw [hcontacts]
      exact ih.frame f

theorem asSeen_getElem? (contacts : List KeyContacts) {t : ℕ} (ht : 0 < t) :
    (asSeen atPowerUp contacts)[t]? = contacts[t]? := by
  cases contacts with
  | nil => rfl
  | cons first rest =>
    obtain ⟨n, rfl⟩ := Nat.exists_eq_add_one_of_ne_zero (Nat.ne_of_gt ht)
    rfl

/-- Seen through the circuit, a key's samples are those of its contact. -/
theorem keySamples_seen (events : List KeyEvent) {r i : ℕ} (hr : r < 4) (hi : i < 4) :
    keySamples r i (pinds (seenEvents atPowerUp events)) =
      rowSamples (asSeen atPowerUp (contactsOf events)) r i := by
  have hstep := inStep atPowerUp events
  have hlen : (pinds (seenEvents atPowerUp events)).length =
      (asSeen atPowerUp (contactsOf events)).length := by rw [hstep.length, length_asSeen]
  apply List.ext_getElem?
  intro n
  rw [getElem?_keySamples hr, rowSamples, List.getElem?_map]
  by_cases hn : 4 * n + r < (asSeen atPowerUp (contactsOf events)).length
  · have hpind := List.getElem?_eq_getElem (hlen ▸ hn)
    have hclosed := List.getElem?_eq_getElem hn
    have hsampled := hstep.sampled _ _ _ hpind hclosed i hi
    rw [List.getElem?_range (by omega), hpind, Option.map_some, Option.map_some, hsampled,
      List.getD_eq_getElem?_getD, hclosed, Option.getD_some, Nat.mul_add_mod,
      Nat.mod_eq_of_lt hr]
  · rw [List.getElem?_eq_none (by omega), List.getElem?_eq_none (by rw [List.length_range]; omega)]
    rfl

end Runs

/-! ## What the host reads -/

/-- In frame `t` the contact `(t % 4, i)` rises, as far as it can be seen. -/
def RisesIn (atPowerUp : UInt8) (events : List KeyEvent) (t i : ℕ) : Prop :=
  Rises 0x40 (rowSamples (asSeen atPowerUp (contactsOf events)) (t % 4) i) (t / 4)

section Reports

variable {atPowerUp : UInt8} {events : List KeyEvent} {t i : ℕ}

theorem keyReports_seen (ht : t < (contactsOf events).length) (hi : i < 4) :
    KeyReports (pinds (seenEvents atPowerUp events)) t i ↔ RisesIn atPowerUp events t i := by
  have hlen := (inStep atPowerUp events).length
  rw [keyReports_iff_rises (by omega) hi, keySamples_seen events (Nat.mod_lt t (by decide)) hi]
  rfl

/-- A frame returns the key of its row that has risen in the greatest column, or none. -/
theorem keyChars_getElem? (atPowerUp : UInt8) (ht : t < (contactsOf events).length) :
    ∃ c, (keyChars atPowerUp events)[t]? = some c ∧
      ((∃ i < 4, RisesIn atPowerUp events t i ∧
          (∀ j, i < j → j < 4 → ¬ RisesIn atPowerUp events t j) ∧
          c = lookupAt (4 * (t % 4) + i)) ∨
        ((∀ i < 4, ¬ RisesIn atPowerUp events t i) ∧ c = 0)) := by
  have hlen := (inStep atPowerUp events).length
  obtain ⟨c, hc, hcases⟩ :=
    keypad_returns (pinds (seenEvents atPowerUp events)) (t := t) (by omega)
  refine ⟨c, hc, ?_⟩
  rcases hcases with ⟨i, hi, hrep, hlast, heq⟩ | ⟨hnone, heq⟩
  · exact Or.inl ⟨i, hi, (keyReports_seen ht hi).mp hrep,
      fun j hij hj h => hlast j hij hj ((keyReports_seen ht hj).mpr h), heq⟩
  · exact Or.inr ⟨fun i hi h => hnone i hi ((keyReports_seen ht hi).mpr h), heq⟩

/-- A contact that is closed when its row is scanned has risen, then or before. -/
theorem exists_risesIn (atPowerUp : UInt8) {closed : KeyContacts} (ht : 0 < t)
    (hclosed : (contactsOf events)[t]? = some closed) (hpressed : closed (t % 4) i = true) :
    ∃ u ≤ t, u % 4 = t % 4 ∧ RisesIn atPowerUp events u i := by
  have hlt : t < (contactsOf events).length := (List.getElem?_eq_some_iff.mp hclosed).1
  have hsample : (rowSamples (asSeen atPowerUp (contactsOf events)) (t % 4) i)[t / 4]? =
      some true := by
    have hframe : 4 * (t / 4) + t % 4 = t := Nat.div_add_mod t 4
    rw [rowSamples, List.getElem?_map, List.getElem?_range (by rw [length_asSeen]; omega),
      Option.map_some, hframe, List.getD_eq_getElem?_getD, asSeen_getElem? _ ht, hclosed,
      Option.getD_some, hpressed]
  obtain ⟨n, hn, hrises⟩ := exists_rises_of_high 0x40 hsample
  have hmod : (4 * n + t % 4) % 4 = t % 4 := by omega
  have hdiv : (4 * n + t % 4) / 4 = n := by omega
  refine ⟨4 * n + t % 4, by omega, hmod, ?_⟩
  rw [RisesIn, hmod, hdiv]
  exact hrises

end Reports

/-- **What is pressed is what is read**: whatever the shift register held at power-up,
    whatever else happens and whichever contacts are closed when, a frame returns the key
    of the row it scans whose contact rises in the greatest column, or nothing if none
    does.  So after the first frame no key is ever returned that is not pressed at that
    moment; and whenever a contact is closed in a frame of its row, then the key, or one
    beside it in a greater column, has been returned.  The letters among these characters
    are those in the stream to the host. -/
theorem keys_read_as_pressed (atPowerUp : UInt8) (events : List KeyEvent) :
    (∀ t < (contactsOf events).length, ∃ c, (keyChars atPowerUp events)[t]? = some c ∧
      ((∃ i < 4, RisesIn atPowerUp events t i ∧
          (∀ j, i < j → j < 4 → ¬ RisesIn atPowerUp events t j) ∧
          c = lookupAt (4 * (t % 4) + i)) ∨
        ((∀ i < 4, ¬ RisesIn atPowerUp events t i) ∧ c = 0))) ∧
    (∀ (t : ℕ) (closed : KeyContacts) (r i : ℕ), 0 < t →
      (contactsOf events)[t]? = some closed → r < 4 → i < 4 →
      (keyChars atPowerUp events)[t]? = some (lookupAt (r * 4 + i)) →
      r = t % 4 ∧ closed r i = true) ∧
    (∀ (t : ℕ) (closed : KeyContacts) (i : ℕ), 0 < t →
      (contactsOf events)[t]? = some closed → i < 4 → closed (t % 4) i = true →
      ∃ u ≤ t, u % 4 = t % 4 ∧ ∃ j, i ≤ j ∧ j < 4 ∧
        (keyChars atPowerUp events)[u]? = some (lookupAt (4 * (t % 4) + j))) ∧
    (sentBytes (seenEvents atPowerUp events)).filter isKeyLetter =
      (keyChars atPowerUp events).filter isKeyLetter := by
  have hstep := inStep atPowerUp events
  refine ⟨fun t ht => keyChars_getElem? atPowerUp ht, fun t closed r i ht hclosed hr hi hret => ?_,
    fun t closed i ht hclosed hi hpressed => ?_, sentBytes_filter_isKeyLetter _⟩
  · -- the character names the key, and the key was sampled as its contact stood
    obtain ⟨hlt, hrow, hrep⟩ := keyReports_of_returned hr hi hret
    have hpind := List.getElem?_eq_getElem hlt
    rw [keyReports_iff hpind hi] at hrep
    have hsampled := hstep.sampled t _ closed hpind
      (by rw [asSeen_getElem? _ ht, hclosed]) i hi
    rw [hrep.2, hrow] at hsampled
    exact ⟨hrow.symm, hsampled.symm⟩
  · obtain ⟨u, hu, hmod, hrises⟩ := exists_risesIn atPowerUp ht hclosed hpressed
    have hlt : t < (contactsOf events).length := (List.getElem?_eq_some_iff.mp hclosed).1
    obtain ⟨c, hc, hcases⟩ :=
      keyChars_getElem? atPowerUp (Nat.lt_of_le_of_lt hu hlt)
    rcases hcases with ⟨j, hj, -, hlast, rfl⟩ | ⟨hnone, -⟩
    · have hij : i ≤ j := by
        by_contra hlt
        exact hlast i (by omega) hi hrises
      rw [hmod] at hc
      exact ⟨u, hu, hmod, j, hij, hj, hc⟩
    · exact absurd hrises (hnone i hi)

end LoccFirmware.System
