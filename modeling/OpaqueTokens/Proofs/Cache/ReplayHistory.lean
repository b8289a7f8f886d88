import OpaqueTokens.Proofs.Cache.Replay

/-!
# Marks and the history of uses

The cache forgets: a later mark replaces the one of the same identifier, and clean-ups drop marks.
As long as time does not run backwards nobody can tell. Whether a use counts as the first one
depends on the first uses of the same identifier that came before, and on nothing else: it is
refused just when one of them was to be remembered for longer.
-/

namespace OpaqueTokens.ReplayCache

open Time (Instant)

/-- What happens to a cache at some time: an identifier is used, or lapsed marks are removed. -/
inductive Event where
  | use (now : Instant) (id : TokenId) (validUntil : Instant)
  | cleanup (now : Instant)
  deriving DecidableEq

namespace Event

/-- When an event happens. -/
def now : Event → Instant
  | .use now _ _ | .cleanup now => now

/-- Whether an event is a use of one of some identifiers. -/
def usesAmong (among : TokenId → Bool) : Event → Bool
  | .use _ id _ => among id
  | .cleanup _ => false

end Event

/-- The property of events that happen one after the other. -/
def InOrder (events : List Event) : Prop :=
  events.Pairwise fun earlier later => earlier.now ≤ later.now

instance (events : List Event) : Decidable (InOrder events) :=
  inferInstanceAs (Decidable (events.Pairwise _))

/-- The cache after an event. -/
def step (cache : ReplayCache) : Event → ReplayCache
  | .use now id validUntil => (cache.check id validUntil now).1
  | .cleanup now => (cache.cleanup now).1

/-- The cache after events. -/
def after (cache : ReplayCache) (events : List Event) : ReplayCache :=
  events.foldl step cache

/-- The answers to the uses of some identifiers, in their order. -/
def answers (among : TokenId → Bool) (cache : ReplayCache) : List Event → List Bool
  | [] => []
  | .use now id validUntil :: rest =>
    let (after, isFirst) := cache.check id validUntil now
    if among id then isFirst :: answers among after rest else answers among after rest
  | .cleanup now :: rest => answers among (cache.cleanup now).1 rest

/-- Among events there is a use of an identifier that was answered as the first one, to be
remembered until an instant. -/
def FirstUse (cache : ReplayCache) (events : List Event) (id : TokenId) (validUntil : Instant) :
    Prop :=
  ∃ before now rest, events = before ++ .use now id validUntil :: rest ∧
    ((cache.after before).check id validUntil now).2 = true

/-- A first use among events is the first event, or one among the others. -/
theorem firstUse_cons_iff {cache : ReplayCache} {event : Event} {events : List Event} {id : TokenId}
    {validUntil : Instant} :
    FirstUse cache (event :: events) id validUntil ↔
      (∃ now, event = .use now id validUntil ∧ (cache.check id validUntil now).2 = true) ∨
        FirstUse (cache.step event) events id validUntil := by
  constructor
  · rintro ⟨before, now, rest, hevents, hfirst⟩
    rcases List.cons_eq_append_iff.mp hevents with ⟨rfl, hfront⟩ | ⟨others, rfl, hothers⟩
    · obtain ⟨rfl, -⟩ := List.cons.inj hfront
      exact .inl ⟨now, rfl, hfirst⟩
    · exact .inr ⟨others, now, rest, hothers, hfirst⟩
  · rintro (⟨now, rfl, hfirst⟩ | ⟨before, now, rest, rfl, hfirst⟩)
    · exact ⟨[], now, events, rfl, hfirst⟩
    · exact ⟨event :: before, now, rest, rfl, hfirst⟩

/-- A use is answered as the first one just when there is no mark. -/
theorem check_snd (cache : ReplayCache) (id : TokenId) (validUntil now : Instant) :
    (cache.check id validUntil now).2 = !cache.isMarked id now := by
  rw [check_eq]
  cases cache.isMarked id now <;> rfl

/-- What is marked was marked before. -/
theorem isMarked_of_le {cache : ReplayCache} {id : TokenId} {now later : Instant}
    (hnow : now ≤ later) (h : cache.isMarked id later = true) : cache.isMarked id now = true := by
  obtain ⟨held, hfind, hlater⟩ := isMarked_iff.mp h
  exact isMarked_iff.mpr ⟨held, hfind, Int.lt_of_le_of_lt hnow hlater⟩

/-- A first use marks its identifier until an end, and besides nothing changes in what is marked
from then on. -/
theorem isMarked_check_iff {cache : ReplayCache} {id other : TokenId}
    {validUntil now later : Instant} (hlater : now ≤ later) :
    (cache.check other validUntil now).1.isMarked id later = true ↔
      cache.isMarked id later = true ∨
        (id = other ∧ (cache.check other validUntil now).2 = true ∧ later < validUntil) := by
  rw [check_snd, check_eq]
  by_cases hmarked : cache.isMarked other now = true
  · simp [hmarked]
  · rw [if_neg hmarked, isMarked_put]
    by_cases hid : id = other
    · subst hid
      -- The mark that is replaced has lapsed, so only the new one counts.
      have hlapsed : ¬cache.isMarked id later = true := fun h => hmarked (isMarked_of_le hlater h)
      simp [hmarked, hlapsed]
    · simp [hid]

/-- From the time of an event on, the event marks an identifier besides if it is a first use of it,
until the end of the mark, and changes nothing else. -/
theorem isMarked_step_iff {cache : ReplayCache} {event : Event} {id : TokenId} {later : Instant}
    (hlater : event.now ≤ later) :
    (cache.step event).isMarked id later = true ↔
      cache.isMarked id later = true ∨ ∃ now validUntil, event = .use now id validUntil ∧
        (cache.check id validUntil now).2 = true ∧ later < validUntil := by
  cases event with
  | cleanup now =>
    have hsame : (cache.cleanup now).1.isMarked id later = cache.isMarked id later :=
      isMarked_cleanup cache id hlater
    simp [step, hsame]
  | use now other validUntil =>
    have hnow : now ≤ later := hlater
    rw [step, isMarked_check_iff hnow]
    refine or_congr_right ⟨?_, ?_⟩
    · rintro ⟨rfl, hfirst, hlt⟩
      exact ⟨now, validUntil, rfl, hfirst, hlt⟩
    · rintro ⟨_, _, hevent, hfirst, hlt⟩
      obtain ⟨rfl, rfl, rfl⟩ := Event.use.inj hevent
      exact ⟨rfl, hfirst, hlt⟩

/-- After events an identifier is marked just when it was before or a first use of it among the
events is to be remembered for longer. -/
theorem isMarked_after_iff {cache : ReplayCache} {events : List Event} {id : TokenId}
    {later : Instant} (hlater : ∀ event ∈ events, event.now ≤ later) :
    (cache.after events).isMarked id later = true ↔
      cache.isMarked id later = true ∨
        ∃ validUntil, FirstUse cache events id validUntil ∧ later < validUntil := by
  induction events generalizing cache with
  | nil => simp [after, FirstUse]
  | cons event events ih =>
    rw [List.forall_mem_cons] at hlater
    rw [after, List.foldl_cons, ← after, ih hlater.2, isMarked_step_iff hlater.1]
    simp only [firstUse_cons_iff]
    constructor
    · rintro ((h | ⟨now, validUntil, hevent, hfirst, hlt⟩) | ⟨validUntil, hfirst, hlt⟩)
      · exact .inl h
      · exact .inr ⟨validUntil, .inl ⟨now, hevent, hfirst⟩, hlt⟩
      · exact .inr ⟨validUntil, .inr hfirst, hlt⟩
    · rintro (h | ⟨validUntil, ⟨now, hevent, hfirst⟩ | hfirst, hlt⟩)
      · exact .inl (.inl h)
      · exact .inl (.inr ⟨now, validUntil, hevent, hfirst, hlt⟩)
      · exact .inr ⟨validUntil, hfirst, hlt⟩

/-- After a run that starts without marks, a use is answered as the first one just when no first use
of the same identifier in the run is to be remembered for longer. -/
theorem check_after_empty_iff {events : List Event} {now : Instant}
    (hnow : ∀ event ∈ events, event.now ≤ now) (id : TokenId) (validUntil : Instant) :
    ((empty.after events).check id validUntil now).2 = true ↔
      ∀ held, FirstUse empty events id held → held ≤ now := by
  have hunmarked : empty.isMarked id now = false := rfl
  rw [check_snd, Bool.not_eq_true', ← Bool.not_eq_true, isMarked_after_iff hnow, hunmarked]
  simp only [Bool.false_eq_true, false_or, not_exists, not_and]
  exact forall_congr' fun held => imp_congr_right fun _ => Int.not_lt

/-- From an instant on, two caches mark the same among some identifiers. -/
def AgreeFrom (among : TokenId → Bool) (now : Instant) (a b : ReplayCache) : Prop :=
  ∀ id, among id = true → ∀ later, now ≤ later → a.isMarked id later = b.isMarked id later

/-- An event that is no use of one of the identifiers makes no difference to them. -/
theorem AgreeFrom.step_left {among : TokenId → Bool} {event : Event} {a b : ReplayCache}
    (h : AgreeFrom among event.now a b) (hevent : event.usesAmong among = false) :
    AgreeFrom among event.now (a.step event) b := by
  intro id hid later hlater
  rw [← h id hid later hlater, Bool.eq_iff_iff, isMarked_step_iff hlater]
  refine ⟨?_, .inl⟩
  rintro (hmarked | ⟨now, validUntil, rfl, -⟩)
  · exact hmarked
  · simp [Event.usesAmong, hid] at hevent

/-- A use of one of the identifiers is answered alike by both caches, and keeps them in
agreement. -/
theorem AgreeFrom.check {among : TokenId → Bool} {now validUntil : Instant} {id : TokenId}
    {a b : ReplayCache} (h : AgreeFrom among now a b) (hid : among id = true) :
    (a.check id validUntil now).2 = (b.check id validUntil now).2 ∧
      AgreeFrom among now (a.check id validUntil now).1 (b.check id validUntil now).1 := by
  have hmarked : a.isMarked id now = b.isMarked id now := h id hid now (Int.le_refl _)
  have hanswer : (a.check id validUntil now).2 = (b.check id validUntil now).2 := by
    rw [check_snd, check_snd, hmarked]
  refine ⟨hanswer, fun other hother later hlater => ?_⟩
  rw [check_eq, check_eq, hmarked]
  split
  · exact h other hother later hlater
  · rw [isMarked_put, isMarked_put, h other hother later hlater]

/-- Caches that agree on some identifiers answer the uses of them alike, also where nothing else
happens to the second cache. -/
theorem AgreeFrom.answers_filter {among : TokenId → Bool} {events : List Event} {now : Instant}
    {a b : ReplayCache} (hagree : AgreeFrom among now a b) (horder : InOrder events)
    (hnow : ∀ event ∈ events, now ≤ event.now) :
    a.answers among events = b.answers among (events.filter (Event.usesAmong among)) := by
  induction events generalizing now a b with
  | nil => rfl
  | cons event events ih =>
    obtain ⟨hevent, hothers⟩ := List.pairwise_cons.mp horder
    have hagree : AgreeFrom among event.now a b := fun id hid later hlater =>
      hagree id hid later (Int.le_trans (hnow event List.mem_cons_self) hlater)
    -- Both caches take a step at a use that counts; at any other event only the first one does.
    by_cases huses : event.usesAmong among = true
    · rw [List.filter_cons_of_pos huses]
      cases event with
      | cleanup time => cases huses
      | use time id validUntil =>
        have hid : among id = true := huses
        have htime : AgreeFrom among time a b := hagree
        obtain ⟨hanswer, hafter⟩ := @AgreeFrom.check _ time validUntil id a b htime hid
        simp only [answers, hid, if_true]
        rw [hanswer, ih hafter hothers hevent]
    · have hunused : event.usesAmong among = false := Bool.not_eq_true _ ▸ huses
      rw [List.filter_cons_of_neg huses, ← ih (hagree.step_left hunused) hothers hevent]
      cases event with
      | cleanup time => rfl
      | use time id validUntil =>
        have hid : among id = false := hunused
        simp [answers, hid, step]

/-- The uses of some identifiers are answered as if nothing else had happened. -/
theorem answers_filter (among : TokenId → Bool) (cache : ReplayCache) {events : List Event}
    (horder : InOrder events) :
    cache.answers among events = cache.answers among (events.filter (Event.usesAmong among)) := by
  cases events with
  | nil => rfl
  | cons event events =>
    have hagree : AgreeFrom among event.now cache cache := fun _ _ _ _ => rfl
    exact hagree.answers_filter horder
      (List.forall_mem_cons.mpr ⟨Int.le_refl _, (List.pairwise_cons.mp horder).1⟩)

/-- Cleaning up removes as many marks as have lapsed. -/
theorem cleanup_snd (cache : ReplayCache) (now : Instant) :
    (cache.cleanup now).2 = cache.marks.countP fun mark => mark.2 ≤ now := by
  have hlapsed (mark : TokenId × Instant) : (mark.2 ≤ now) ↔ ¬now < mark.2 := Int.not_lt.symm
  have hsplit : cache.marks.length = cache.marks.countP (fun mark => now < mark.2) +
      cache.marks.countP (fun mark => ¬decide (now < mark.2) = true) :=
    List.length_eq_countP_add_countP _
  rw [cleanup, size, hsplit, List.countP_eq_length_filter]
  simp [hlapsed]

/-- Cleaning up counts what it removes. -/
theorem size_cleanup (cache : ReplayCache) (now : Instant) :
    (cache.cleanup now).1.size + (cache.cleanup now).2 = cache.size :=
  Nat.add_sub_of_le (List.length_filter_le _ cache.marks)

/-- Cleaning up removes just the marks that have lapsed. -/
theorem mem_cleanup_iff {cache : ReplayCache} {now : Instant} {mark : TokenId × Instant} :
    mark ∈ (cache.cleanup now).1.marks ↔ mark ∈ cache.marks ∧ ¬mark.2 ≤ now := by
  have hlapsed : now < mark.2 ↔ ¬mark.2 ≤ now := Int.not_le.symm
  simp [cleanup, hlapsed]

/-- In runs that start without marks and whose times do not run backwards, a use is answered as the
first one just when no first use of the same identifier before it is to be remembered for longer.
What is refused leaves the cache as it is. The uses of some identifiers are answered by these uses
alone, so neither clean-ups nor the uses of other identifiers make a difference. Cleaning up removes
just the marks that have lapsed and counts them. -/
theorem first_use_by_history :
    (∀ (before : List Event) (now : Instant) (id : TokenId) (validUntil : Instant),
      InOrder (before ++ [.use now id validUntil]) →
      (((empty.after before).check id validUntil now).2 = true ↔
        ∀ held, FirstUse empty before id held → held ≤ now)) ∧
    (∀ (cache : ReplayCache) (id : TokenId) (validUntil now : Instant),
      (cache.check id validUntil now).2 = false → (cache.check id validUntil now).1 = cache) ∧
    (∀ (among : TokenId → Bool) (events others : List Event), InOrder events → InOrder others →
      events.filter (Event.usesAmong among) = others.filter (Event.usesAmong among) →
      empty.answers among events = empty.answers among others) ∧
    ∀ (cache : ReplayCache) (now : Instant),
      (cache.cleanup now).2 = (cache.marks.countP fun mark => mark.2 ≤ now) ∧
      (cache.cleanup now).1.size + (cache.cleanup now).2 = cache.size ∧
      ∀ mark, mark ∈ (cache.cleanup now).1.marks ↔ mark ∈ cache.marks ∧ ¬mark.2 ≤ now := by
  refine ⟨fun before now id validUntil horder => ?_, fun cache id validUntil now hrefused => ?_,
    fun among events others hevents hothers huses => ?_, fun cache now => ⟨?_, ?_, fun mark => ?_⟩⟩
  · have hnow : ∀ event ∈ before, event.now ≤ now := fun event hevent =>
      (List.pairwise_append.mp horder).2.2 event hevent _ (List.mem_singleton_self _)
    exact check_after_empty_iff hnow id validUntil
  · have hmarked : cache.isMarked id now = true := by simpa [check_snd] using hrefused
    rw [check_eq, if_pos hmarked]
  · calc empty.answers among events
        = empty.answers among (events.filter (Event.usesAmong among)) :=
          answers_filter among empty hevents
      _ = empty.answers among (others.filter (Event.usesAmong among)) := by rw [huses]
      _ = empty.answers among others := (answers_filter among empty hothers).symm
  · exact cleanup_snd cache now
  · exact size_cleanup cache now
  · exact mem_cleanup_iff

/-- An identifier. -/
def sampleId : TokenId := ⟨"code-1"⟩

/-- The instant so many nanoseconds past the start of 1970. -/
def sampleInstant (nanos : Int) : Instant :=
  (Instant.ofNanos? nanos).getD Instant.last

/-- A minute past the start of 1970. -/
def sampleMinute : Instant := sampleInstant 60000000000

/-- An identifier is used, another one until a time that has passed, and the first one once more
before its minute is over. -/
def sampleUses : List Event :=
  [.use (sampleInstant 0) sampleId sampleMinute,
   .use (sampleInstant 1) ⟨"code-2"⟩ (sampleInstant 0),
   .use (sampleInstant 59999999999) sampleId Instant.last]

/-- The same uses with clean-ups in between. -/
def sampleEvents : List Event :=
  sampleUses.flatMap fun event => [event, .cleanup event.now]

/-- The second use of the identifier is refused, and would be so without clean-ups. It extends
nothing, so the identifier can be used again once the minute is over. -/
theorem first_use_by_history_sample :
    InOrder (sampleEvents ++ [.use sampleMinute sampleId Instant.last]) ∧
      (∀ held, FirstUse empty sampleEvents sampleId held → held ≤ sampleMinute) ∧
      ((empty.put sampleId sampleMinute).check sampleId Instant.last (sampleInstant 0)).1 =
        empty.put sampleId sampleMinute ∧
      empty.answers (fun _ => true) sampleEvents = empty.answers (fun _ => true) sampleUses ∧
      empty.answers (fun _ => true) sampleUses = [true, true, false] :=
  ⟨by decide,
    (first_use_by_history.1 sampleEvents sampleMinute sampleId Instant.last (by decide)).mp
      (by decide),
    first_use_by_history.2.1 _ _ _ _ (by decide),
    first_use_by_history.2.2.1 _ _ _ (by decide) (by decide) (by decide),
    by decide⟩

end OpaqueTokens.ReplayCache
