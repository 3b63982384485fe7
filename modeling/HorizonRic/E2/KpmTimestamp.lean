import HorizonRic.Python.BigEndian
import HorizonRic.Python.Number

/-!
`e2/kpm_bridge.py`: the collection time of a KPM indication, eight octets in one of
two layouts. The window that arbitrates between them ends at `10 ^ 19`, not at the
`10 ^ 16` of the years 2001 to 2286, so a swapped time is lost wherever its straight
reading falls between the two.
-/
namespace HorizonRic.KpmBridge

open Py

/-- The first microsecond of year 1, and the first one past year 9999, from the epoch. -/
def yearOne : ℤ := -62135596800000000
def year10000 : ℤ := 253402300800000000

/-- Microseconds after the epoch, within the years 1 to 9999. -/
structure DateTime where
  micros : ℤ
  fromYearOne : yearOne ≤ micros
  beforeYear10000 : micros < year10000

@[ext] theorem DateTime.ext {a b : DateTime} (same : a.micros = b.micros) : a = b := by
  cases a
  cases b
  cases same
  rfl

/-- `datetime.fromtimestamp(seconds, tz=timezone.utc)`. -/
def fromTimestamp (seconds : ℚ) : Except PyErr DateTime :=
  let micros := roundHalfEven (seconds * 10 ^ 6)
  if low : yearOne ≤ micros then
    if high : micros < year10000 then .ok ⟨micros, low, high⟩
    else .error .valueError
  else .error .valueError

def candidates (tsOctets : Bytes) : List Nat :=
  [intFromBytes tsOctets,
    intFromBytes (tsOctets.drop 4) <<< 32 ||| intFromBytes (tsOctets.take 4)]

/-- The test of the loop. -/
def passesTest (us : Nat) : Bool :=
  decide (1000000000000000 ≤ us) && decide (us < 10000000000000000000)

/-- What the loop returns for a reading that passes its test. -/
def toDateTime (us : Nat) : Option DateTime :=
  match fromTimestamp ((us : ℚ) / 10 ^ 6) with
  | .ok time => some time
  | .error _ => none

def decodeTimestamp (tsOctets : Bytes) : Option DateTime :=
  if tsOctets.length ≠ 8 then none
  else ((candidates tsOctets).find? passesTest).bind toDateTime

/-! What the octets say. -/

/-- The plausibility window, the years 2001 to 2286. -/
def WithinWindow (us : Nat) : Prop := 1000000000000000 ≤ us ∧ us < 10000000000000000

/-- Past the window, and still inside the test of the loop. -/
def Overlooked (us : Nat) : Prop := 10000000000000000 ≤ us ∧ us < 10000000000000000000

instance (us : Nat) : Decidable (Overlooked us) := inferInstanceAs (Decidable (_ ∧ _))

/-- The two 32-bit words of a number, swapped. -/
def swapWords (n : Nat) : Nat := n % 2 ^ 32 * 2 ^ 32 + n / 2 ^ 32

/-- The layout of two big-endian words with the low one first. -/
def lowWordFirst (n : Nat) : Bytes := intToBytes 4 (n % 2 ^ 32) ++ intToBytes 4 (n / 2 ^ 32)

def Decodes (octets : Bytes) (us : Nat) : Prop :=
  (decodeTimestamp octets).map DateTime.micros = some (us : ℤ)

theorem roundHalfEven_intCast (n : ℤ) : roundHalfEven n = n := by
  have half : (0 : ℚ) < 1 / 2 := by norm_num
  simp [roundHalfEven]

theorem yearOne_le (us : Nat) : yearOne ≤ us := by
  unfold yearOne
  omega

theorem fromTimestamp_micros (us : Nat) :
    fromTimestamp ((us : ℚ) / 10 ^ 6) =
      if late : (us : ℤ) < year10000 then .ok ⟨us, yearOne_le us, late⟩
      else .error .valueError := by
  have exact_ : (us : ℚ) / 10 ^ 6 * 10 ^ 6 = ((us : ℤ) : ℚ) := by
    rw [div_mul_cancel₀ _ (by norm_num : (10 : ℚ) ^ 6 ≠ 0), Int.cast_natCast]
  rw [fromTimestamp, exact_, roundHalfEven_intCast]
  exact dif_pos (yearOne_le us)

theorem candidates_eq {octets : Bytes} (eight : octets.length = 8) :
    candidates octets = [intFromBytes octets, swapWords (intFromBytes octets)] := by
  have split := intFromBytes_append (octets.take 4) (octets.drop 4)
  have low := intFromBytes_lt (octets.drop 4)
  have high := intFromBytes_lt (octets.take 4)
  rw [List.take_append_drop] at split
  have four : (octets.take 4).length = 4 := by simp [eight]
  have four' : (octets.drop 4).length = 4 := by simp [eight]
  rw [four] at high
  rw [four'] at split low
  have swapped : intFromBytes (octets.drop 4) * 2 ^ 32 + intFromBytes (octets.take 4) =
      swapWords (intFromBytes octets) := by
    unfold swapWords
    omega
  rw [candidates, ← Nat.shiftLeft_add_eq_or_of_lt (by omega), Nat.shiftLeft_eq, swapped]

theorem passesTest_iff (us : Nat) : passesTest us = true ↔ WithinWindow us ∨ Overlooked us := by
  rw [passesTest, Bool.and_eq_true, decide_eq_true_eq, decide_eq_true_eq, WithinWindow, Overlooked]
  omega

def representable (us : Nat) : Option ℤ := if (us : ℤ) < year10000 then some us else none

theorem toDateTime_micros (us : Nat) : (toDateTime us).map DateTime.micros = representable us := by
  rw [toDateTime, fromTimestamp_micros, representable]
  by_cases late : (us : ℤ) < year10000
  · rw [dif_pos late, if_pos late]
    rfl
  · rw [dif_neg late, if_neg late]
    rfl

theorem find?_pair (test : Nat → Bool) (first second : Nat) :
    [first, second].find? test =
      if test first then some first else if test second then some second else none := by
  cases one : test first <;> cases other : test second <;> simp [one, other]

theorem decode_eq {octets : Bytes} (eight : octets.length = 8) :
    (decodeTimestamp octets).map DateTime.micros =
      if passesTest (intFromBytes octets) then representable (intFromBytes octets)
      else if passesTest (swapWords (intFromBytes octets)) then
        representable (swapWords (intFromBytes octets))
      else none := by
  rw [decodeTimestamp, if_neg (not_not.mpr eight), candidates_eq eight, find?_pair]
  split
  · rw [Option.bind_some, toDateTime_micros]
  · split
    · rw [Option.bind_some, toDateTime_micros]
    · rw [Option.bind_none, Option.map_none]

/-! The two layouts of a time. -/

theorem swapWords_swapWords {n : Nat} (fits : n < 2 ^ 64) : swapWords (swapWords n) = n := by
  unfold swapWords
  omega

theorem straight_eq {n : Nat} (fits : n < 2 ^ 64) : intFromBytes (intToBytes 8 n) = n :=
  intFromBytes_toBytes (by omega)

theorem lowWordFirst_eq {n : Nat} (fits : n < 2 ^ 64) :
    intFromBytes (lowWordFirst n) = swapWords n := by
  rw [lowWordFirst, intFromBytes_append, intFromBytes_toBytes (by omega),
    intFromBytes_toBytes (by omega), length_intToBytes, swapWords,
    show 256 ^ 4 = 2 ^ 32 by norm_num]

theorem WithinWindow.representable {us : Nat} (within : WithinWindow us) :
    representable us = some (us : ℤ) := by
  apply if_pos
  obtain ⟨_, early⟩ := within
  unfold year10000
  omega

/-- A time in network order is always found. -/
theorem decodes_straight {time : Nat} (within : WithinWindow time) :
    Decodes (intToBytes 8 time) time := by
  have fits : time < 2 ^ 64 := by
    obtain ⟨_, early⟩ := within
    omega
  rw [Decodes, decode_eq (length_intToBytes 8 time), straight_eq fits,
    if_pos ((passesTest_iff time).mpr (Or.inl within)), within.representable]

/-- A time with its low word first is found unless the straight reading is overlooked. -/
theorem decodes_lowWordFirst_iff {time : Nat} (within : WithinWindow time)
    (other : ¬ WithinWindow (swapWords time)) :
    Decodes (lowWordFirst time) time ↔ ¬ Overlooked (swapWords time) := by
  have fits : time < 2 ^ 64 := by
    obtain ⟨_, early⟩ := within
    omega
  have eight : (lowWordFirst time).length = 8 := by simp [lowWordFirst]
  rw [Decodes, decode_eq eight, lowWordFirst_eq fits, swapWords_swapWords fits,
    if_pos ((passesTest_iff time).mpr (Or.inl within)), within.representable]
  by_cases overlooked : Overlooked (swapWords time)
  · rw [if_pos ((passesTest_iff _).mpr (Or.inr overlooked)), KpmBridge.representable]
    simp only [overlooked, not_true_eq_false, iff_false]
    split
    · intro same
      have equal : swapWords time = time := by
        simpa using same
      rw [equal] at other
      exact other within
    · intro same
      cases same
  · have outside : ¬ passesTest (swapWords time) = true := by
      rw [passesTest_iff]
      exact fun inside => inside.elim other overlooked
    rw [if_neg outside]
    simp [overlooked]

/-! Readings outside the documented window. -/

/-- The first overlooked reading, if there is one, still has a year of four digits. -/
def Misread (straight swapped : Nat) : Prop :=
  if Overlooked straight then (straight : ℤ) < year10000
  else Overlooked swapped ∧ (swapped : ℤ) < year10000

theorem decode_none_iff {octets : Bytes} (eight : octets.length = 8)
    (straight : ¬ WithinWindow (intFromBytes octets))
    (swapped : ¬ WithinWindow (swapWords (intFromBytes octets))) :
    decodeTimestamp octets = none ↔
      ¬ Misread (intFromBytes octets) (swapWords (intFromBytes octets)) := by
  have window : ∀ us, ¬ WithinWindow us → (passesTest us = true ↔ Overlooked us) := by
    intro us outside
    rw [passesTest_iff, or_iff_right outside]
  rw [← Option.map_eq_none_iff (f := DateTime.micros), decode_eq eight, Misread]
  simp only [window _ straight, window _ swapped, KpmBridge.representable]
  split
  · simp
  · split
    · rename_i overlooked
      simp [overlooked]
    · rename_i inside
      simp [inside]

/-- A time whose other reading lies outside the window comes back from both layouts. -/
def FoundInBothLayouts (time : Nat) : Prop :=
  WithinWindow time → ¬ WithinWindow (swapWords time) →
    Decodes (intToBytes 8 time) time ∧ Decodes (lowWordFirst time) time

/-- Octets without a reading in the window give no time. -/
def RefusedOutsideWindow (octets : Bytes) : Prop :=
  octets.length = 8 → ¬ WithinWindow (intFromBytes octets) →
    ¬ WithinWindow (swapWords (intFromBytes octets)) → decodeTimestamp octets = none

/-- The window of the loop decides both properties but for the readings it overlooks. -/
theorem decodeTimestamp_iff (time : Nat) (octets : Bytes) :
    (FoundInBothLayouts time ↔ ¬ (WithinWindow time ∧ Overlooked (swapWords time))) ∧
      (RefusedOutsideWindow octets ↔
        ¬ (octets.length = 8 ∧ ¬ WithinWindow (intFromBytes octets) ∧
          ¬ WithinWindow (swapWords (intFromBytes octets)) ∧
          Misread (intFromBytes octets) (swapWords (intFromBytes octets)))) := by
  constructor
  · constructor
    · rintro found ⟨within, overlooked⟩
      have other : ¬ WithinWindow (swapWords time) := by
        intro inside
        obtain ⟨_, early⟩ := inside
        obtain ⟨late, _⟩ := overlooked
        omega
      exact (decodes_lowWordFirst_iff within other).mp (found within other).2 overlooked
    · intro clear within other
      refine ⟨decodes_straight within, (decodes_lowWordFirst_iff within other).mpr ?_⟩
      exact fun overlooked => clear ⟨within, overlooked⟩
  · constructor
    · rintro refused ⟨eight, straight, swapped, misread⟩
      exact (decode_none_iff eight straight swapped).mp (refused eight straight swapped) misread
    · intro clear eight straight swapped
      rw [decode_none_iff eight straight swapped]
      exact fun misread => clear ⟨eight, straight, swapped, misread⟩

/-- The swapped words of a time of the year 2023 are lost, and eight octets that hold no
    time of the window give one of the year 2286. -/
theorem november_2023_lost :
    ¬ FoundInBothLayouts 1700000000000000 ∧
      ¬ RefusedOutsideWindow (intToBytes 8 10000000000000000) := by
  have other : swapWords 1700000000000000 = 1737896874956163620 := by norm_num [swapWords]
  have swapped : swapWords 10000000000000000 = 8052717608717485810 := by norm_num [swapWords]
  constructor
  · intro found
    have within : WithinWindow 1700000000000000 := ⟨by decide, by decide⟩
    have outside : ¬ WithinWindow (swapWords 1700000000000000) := by
      rw [other]
      rintro ⟨_, early⟩
      exact absurd early (by decide)
    apply (decodes_lowWordFirst_iff within outside).mp (found within outside).2
    rw [other]
    exact ⟨by decide, by decide⟩
  · intro refused
    have eight : (intToBytes 8 10000000000000000).length = 8 := length_intToBytes 8 _
    have reading : intFromBytes (intToBytes 8 10000000000000000) = 10000000000000000 :=
      straight_eq (by decide)
    have straight : ¬ WithinWindow (intFromBytes (intToBytes 8 10000000000000000)) := by
      rw [reading]
      rintro ⟨_, early⟩
      exact absurd early (by decide)
    have outside : ¬ WithinWindow (swapWords (intFromBytes (intToBytes 8 10000000000000000))) := by
      rw [reading, swapped]
      rintro ⟨_, early⟩
      exact absurd early (by decide)
    apply (decode_none_iff eight straight outside).mp (refused eight straight outside)
    rw [reading, Misread, if_pos ⟨by decide, by decide⟩, year10000]
    decide

end HorizonRic.KpmBridge
