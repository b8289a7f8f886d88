import OpaqueTokens.Time.Instant

/-!
# Whole seconds and deadlines

Tokens keep instants as counts of seconds. Cutting an instant to its whole second keeps its count
of seconds, and the count leads back to the whole second, never out of the range of instants. Only
adding a span can lead out of the range, past its end. What is counted from now on ends where the
years end, which is no earlier than any instant. The seconds that are left until an instant are
counted down to zero.
-/

namespace OpaqueTokens.Time.Instant

/-- A number of nanoseconds leads to an instant just when it is the one of the instant. -/
theorem ofNanos?_eq_some_iff {nanos : Int} {i : Instant} :
    ofNanos? nanos = some i ↔ nanos = i.nanos := by
  rw [ofNanos?]
  constructor
  · intro h
    split at h
    · injection h with h
      exact h ▸ rfl
    · simp at h
  · rintro rfl
    rw [dif_pos ⟨i.first_le, i.le_last⟩]

/-- The instant a span later is there unless it is past the last one. -/
theorem add?_eq_some_iff {i j : Instant} {span : Span} :
    i.add? span = some j ↔ i.nanos + span.nanos = j.nanos :=
  ofNanos?_eq_some_iff

/-- There is no instant a span later just when it would be past the last one. -/
theorem add?_eq_none_iff {i : Instant} {span : Span} :
    i.add? span = none ↔ lastNanos < i.nanos + span.nanos := by
  have hfirst := i.first_le
  rw [add?, ofNanos?]
  split
  · rename_i h
    simp only [reduceCtorEq, false_iff]
    omega
  · rename_i h
    simp only [true_iff]
    omega

/-- Cutting to the whole second keeps the count of seconds. -/
@[simp] theorem seconds_floor (i : Instant) : i.floor.seconds = i.seconds := by
  simp only [seconds, floor_nanos]
  omega

/-- A whole second is its own whole second. -/
@[simp] theorem floor_floor (i : Instant) : i.floor.floor = i.floor :=
  Instant.ext (by simp)

/-- The count of seconds of an instant leads to its whole second. -/
@[simp] theorem ofSeconds?_seconds (i : Instant) : ofSeconds? i.seconds = some i.floor := by
  rw [ofSeconds?, ofNanos?, dif_pos ⟨i.floor.first_le, i.floor.le_last⟩]
  rfl

/-- An instant lies before a whole second as soon as its count of seconds is smaller. -/
theorem lt_of_seconds_lt {a b : Instant} (h : a.seconds < b.seconds) : a < b := by
  simp only [seconds] at h
  rw [lt_def]
  omega

/-- A whole second is reached as soon as its count of seconds is. -/
theorem seconds_le_iff {a b : Instant} (h : a.floor = a) : a.seconds ≤ b.seconds ↔ a ≤ b := by
  have hnanos : a.seconds * 1000000000 = a.nanos := congrArg nanos h
  simp only [le_def, seconds] at hnanos ⊢
  omega

/-- Cutting to the whole second never leads past an instant. -/
theorem floor_le (i : Instant) : i.floor ≤ i := by
  rw [le_def, floor_nanos, seconds]
  omega

/-- A clock that shows universal time shows the instant. -/
@[simp] theorem shown_reading (i : Instant) : i.reading.shown = i.nanos := by
  simp [Reading.shown, reading]

/-- What lasts a span from now on lasts until every instant that is no further away, also where the
years end before it. -/
theorem deadline_le_after_iff {i now : Instant} {span : Span} :
    i.deadline ≤ now.reading.after span ↔ i.nanos ≤ now.nanos + span.nanos := by
  have hlast := i.le_last
  rw [Deadline.le_def, Reading.after, shown_reading]
  split
  · rfl
  · rename_i hpast
    simp only [deadline_nanos, last]
    omega

/-- What lasts a span from now on ends before an instant just when the instant is further away, also
where the years end before it. -/
theorem after_lt_iff {i now : Instant} {span : Span} :
    now.after span < i ↔ now.nanos + span.nanos < i.nanos := by
  have hreached : i.deadline ≤ now.reading.after span ↔ i.nanos ≤ now.nanos + span.nanos :=
    deadline_le_after_iff
  rw [after_reading, Deadline.le_def, deadline_nanos, deadline_nanos] at hreached
  rw [lt_def]
  omega

/-- From the target on no seconds are left until it. -/
theorem secondsUntil_of_le {now target : Instant} (h : target ≤ now) :
    now.secondsUntil target = 0 := by
  rw [le_def] at h
  rw [secondsUntil, Int.toNat_eq_zero]
  omega

/-- Before the target the seconds that are left are the whole ones. -/
theorem secondsUntil_spec {now target : Instant} (h : now < target) :
    (now.secondsUntil target : Int) * 1000000000 ≤ target.nanos - now.nanos ∧
      target.nanos - now.nanos < (now.secondsUntil target + 1 : Int) * 1000000000 := by
  rw [lt_def] at h
  rw [secondsUntil, Int.toNat_of_nonneg (by omega)]
  omega

/-- As time passes the seconds that are left do not become more. -/
theorem secondsUntil_le_of_le {now later : Instant} (h : now ≤ later) (target : Instant) :
    later.secondsUntil target ≤ now.secondsUntil target := by
  rw [le_def] at h
  apply Int.toNat_le_toNat
  omega

/-- Counts of seconds fit in sixty-four bits with a sign. -/
theorem seconds_bounds (i : Instant) :
    -9223372036854775808 ≤ i.seconds ∧ i.seconds < 9223372036854775808 := by
  have hfirst := i.first_le
  have hlast := i.le_last
  simp only [firstNanos, lastNanos, seconds] at *
  omega

end OpaqueTokens.Time.Instant
