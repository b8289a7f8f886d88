import Mathlib.Data.List.Basic
import OpaqueTokens.Proofs.Cache.Revocation

/-!
# Records and the history of revocations

One record for each lineage stands for all the revocations of it that there ever were, and clean-ups
drop records besides. As long as clean-ups do not run backwards nobody can tell. Whether a lineage
is revoked depends on the set of its revocations and on nothing else: not on their order, not on how
often they are repeated, not on other lineages and not on clean-ups. What a clean-up counts can be
told from the history as well: the lineages with a revocation that no earlier clean-up has seen
lapse, and with none that lasts.
-/

namespace OpaqueTokens.RevocationCache

open Time (Deadline Instant)

/-- What happens to a cache: a lineage is revoked until a deadline, whenever that may be, or lapsed
records are removed at some time. -/
inductive Event where
  | revoke (id : TokenId) (deadline : Deadline)
  | cleanup (now : Instant)
  deriving DecidableEq

namespace Event

/-- When an event cleans up. -/
def cleanup? : Event → Option Instant
  | .revoke _ _ => none
  | .cleanup now => some now

/-- Whether an event is a revocation of a lineage. -/
def revokes (id : TokenId) : Event → Bool
  | .revoke other _ => other = id
  | .cleanup _ => false

end Event

/-- The times of the clean-ups among events. -/
def cleanups (events : List Event) : List Instant :=
  events.filterMap Event.cleanup?

/-- The property of events whose clean-ups happen one after the other. -/
def InOrder (events : List Event) : Prop :=
  (cleanups events).Pairwise (· ≤ ·)

instance (events : List Event) : Decidable (InOrder events) :=
  inferInstanceAs (Decidable (List.Pairwise _ _))

/-- The last clean-up among events, if there is one, is not later than a time. -/
def CleanedBy (events : List Event) (now : Instant) : Prop :=
  ∀ last ∈ (cleanups events).getLast?, last ≤ now

instance (events : List Event) (now : Instant) : Decidable (CleanedBy events now) :=
  inferInstanceAs (Decidable (∀ last ∈ (cleanups events).getLast?, last ≤ now))

/-- Where clean-ups happen one after the other, none is later than the last one. -/
theorem InOrder.le_of_mem {events : List Event} {now : Instant} (horder : InOrder events)
    (hcleaned : CleanedBy events now) {time : Instant} (h : time ∈ cleanups events) :
    time ≤ now := by
  rcases List.eq_nil_or_concat (cleanups events) with hnil | ⟨earlier, last, hconcat⟩
  · simp [hnil] at h
  · rw [List.concat_eq_append] at hconcat
    have hlast : last ≤ now := hcleaned last (by simp [hconcat])
    rw [InOrder, hconcat, List.pairwise_append] at horder
    rw [hconcat, List.mem_append] at h
    rcases h with h | h
    · exact Int.le_trans (horder.2.2 time h last (List.mem_singleton_self last)) hlast
    · exact List.mem_singleton.mp h ▸ hlast

/-- The cache after an event. -/
def step (cache : RevocationCache) : Event → RevocationCache
  | .revoke id deadline => cache.revokeUntil id deadline
  | .cleanup now => (cache.cleanup now).1

/-- The cache after events. -/
def after (cache : RevocationCache) (events : List Event) : RevocationCache :=
  events.foldl step cache

/-- A revocation stands after events: it is one of them, and no clean-up that came later has seen it
lapse. -/
def Standing (events : List Event) (id : TokenId) (deadline : Deadline) : Prop :=
  ∃ before rest, events = before ++ .revoke id deadline :: rest ∧
    ∀ time ∈ cleanups rest, time.deadline < deadline

variable {cache : RevocationCache} {events : List Event} {event : Event} {id : TokenId}
  {deadline : Deadline} {now : Instant}

/-- After one more event those revocations stand that stood before, unless it cleans them up, and
the revocation that the event is. -/
theorem standing_snoc_iff :
    Standing (events ++ [event]) id deadline ↔
      event = .revoke id deadline ∨
        (Standing events id deadline ∧ ∀ time ∈ event.cleanup?, time.deadline < deadline) := by
  constructor
  · rintro ⟨before, rest, hevents, hstands⟩
    rcases List.eq_nil_or_concat rest with rfl | ⟨others, last, rfl⟩
    · exact .inl (List.singleton_inj.mp (List.append_inj' hevents rfl).2)
    · rw [List.concat_eq_append, ← List.cons_append, ← List.append_assoc] at hevents
      obtain ⟨hbefore, hlast⟩ := List.append_inj' hevents rfl
      obtain rfl := List.singleton_inj.mp hlast
      simp only [List.concat_eq_append, cleanups, List.filterMap_append, List.mem_append,
        or_imp, forall_and] at hstands
      refine .inr ⟨⟨before, others, hbefore, hstands.1⟩, fun time htime => ?_⟩
      exact hstands.2 time (List.mem_filterMap.mpr ⟨event, List.mem_singleton_self event, htime⟩)
  · rintro (rfl | ⟨⟨before, rest, rfl, hstands⟩, hevent⟩)
    · exact ⟨events, [], rfl, by simp [cleanups]⟩
    · refine ⟨before, rest ++ [event], by simp, fun time htime => ?_⟩
      rw [cleanups, List.filterMap_append, List.mem_append] at htime
      rcases htime with htime | htime
      · exact hstands time htime
      · obtain ⟨other, hother, htime⟩ := List.mem_filterMap.mp htime
        exact hevent time (List.mem_singleton.mp hother ▸ htime)

/-- A revocation that stands is one of the events. -/
theorem Standing.mem (h : Standing events id deadline) : .revoke id deadline ∈ events := by
  obtain ⟨before, rest, rfl, -⟩ := h
  simp

/-- A revocation that lasts beyond all clean-ups stands. -/
theorem standing_of_mem (h : .revoke id deadline ∈ events)
    (hlasts : ∀ time ∈ cleanups events, time.deadline < deadline) :
    Standing events id deadline := by
  obtain ⟨before, rest, rfl⟩ := List.append_of_mem h
  refine ⟨before, rest, rfl, fun time htime => hlasts time ?_⟩
  rw [cleanups, List.filterMap_append, List.mem_append]
  exact .inr htime

/-- A cache recalls events: it has a record for just those lineages that have a standing revocation,
and the record is the one of these that lasts longest. -/
structure Recalls (cache : RevocationCache) (events : List Event) : Prop where
  standing : ∀ {id held}, cache.find? id = some held → Standing events id held
  longest : ∀ {id deadline}, Standing events id deadline →
    ∃ held, cache.find? id = some held ∧ deadline ≤ held

theorem recalls_empty : empty.Recalls [] where
  standing h := by cases h
  longest h := by cases h.mem

/-- What a deadline extends is a deadline itself or the one before. -/
theorem extended_eq_or (held : Option Deadline) (deadline : Deadline) :
    extended held deadline = deadline ∨ held = some (extended held deadline) := by
  cases held with
  | none => exact .inl rfl
  | some held =>
    change (if held ≤ deadline then deadline else held) = deadline ∨
      some held = some (if held ≤ deadline then deadline else held)
    split
    · exact .inl rfl
    · exact .inr rfl

theorem le_extended_of_eq_some {held : Option Deadline} {value : Deadline} (h : held = some value)
    (deadline : Deadline) : value ≤ extended held deadline :=
  h ▸ Deadline.le_max_left value deadline

/-- Revoking a lineage is recalled: its record is extended, and the revocations of all lineages
stand as before. -/
theorem Recalls.revokeUntil (h : cache.Recalls events) (other : TokenId) (deadline : Deadline) :
    (cache.revokeUntil other deadline).Recalls (events ++ [.revoke other deadline]) := by
  constructor
  · intro id held hfind
    rw [find?_revokeUntil] at hfind
    apply standing_snoc_iff.mpr
    by_cases hid : id = other
    · subst hid
      rw [if_pos rfl] at hfind
      obtain rfl := Option.some.inj hfind
      rcases extended_eq_or (cache.find? id) deadline with hnew | hold
      · exact .inl (by rw [hnew])
      · exact .inr ⟨h.standing hold, by simp [Event.cleanup?]⟩
    · rw [if_neg hid] at hfind
      exact .inr ⟨h.standing hfind, by simp [Event.cleanup?]⟩
  · intro id standing hstanding
    rw [find?_revokeUntil]
    rcases standing_snoc_iff.mp hstanding with hevent | ⟨hbefore, -⟩
    · obtain ⟨rfl, rfl⟩ := Event.revoke.inj hevent
      exact ⟨_, if_pos rfl, le_extended _ _⟩
    · obtain ⟨held, hfind, hle⟩ := h.longest hbefore
      by_cases hid : id = other
      · subst hid
        exact ⟨_, if_pos rfl, Int.le_trans hle (le_extended_of_eq_some hfind deadline)⟩
      · exact ⟨held, by rw [if_neg hid, hfind], hle⟩

/-- Cleaning up is recalled: the records that are kept are those of revocations that still stand. -/
theorem Recalls.cleanup (h : cache.Recalls events) (now : Instant) :
    (cache.cleanup now).1.Recalls (events ++ [.cleanup now]) := by
  constructor
  · intro id held hfind
    rw [find?_cleanup, Option.filter_eq_some_iff] at hfind
    obtain ⟨hfind, hlasts⟩ := hfind
    apply standing_snoc_iff.mpr
    refine .inr ⟨h.standing hfind, fun time htime => ?_⟩
    obtain rfl : now = time := Option.some.inj htime
    exact of_decide_eq_true hlasts
  · intro id standing hstanding
    rcases standing_snoc_iff.mp hstanding with hevent | ⟨hbefore, hlasts⟩
    · cases hevent
    · obtain ⟨held, hfind, hle⟩ := h.longest hbefore
      have hheld : now.deadline < held := Int.lt_of_lt_of_le (hlasts now rfl) hle
      exact ⟨held, by simp [find?_cleanup, hfind, hheld], hle⟩

/-- A cache that recalls events recalls one event more after it. -/
theorem Recalls.step (h : cache.Recalls events) (event : Event) :
    (cache.step event).Recalls (events ++ [event]) := by
  cases event with
  | revoke id deadline => exact h.revokeUntil id deadline
  | cleanup now => exact h.cleanup now

/-- A cache that recalls events recalls all that happens after them as well. -/
theorem Recalls.after {past : List Event} (h : cache.Recalls past) (events : List Event) :
    (cache.after events).Recalls (past ++ events) := by
  induction events generalizing cache past with
  | nil =>
    rw [List.append_nil]
    exact h
  | cons event rest ih =>
    rw [List.append_cons]
    exact ih (h.step event)

/-- After events that start without records the cache recalls the events. -/
theorem recalls_after (events : List Event) : (empty.after events).Recalls events :=
  recalls_empty.after events

/-- A lineage is revoked, at a time that no clean-up is later than, just when one of its revocations
lasts longer. -/
theorem isRevoked_after_iff (hnow : ∀ time ∈ cleanups events, time ≤ now) :
    (empty.after events).isRevoked id now = true ↔
      ∃ deadline, .revoke id deadline ∈ events ∧ now.deadline < deadline := by
  have hrecalls := recalls_after events
  rw [isRevoked_iff]
  constructor
  · rintro ⟨held, hfind, hlasts⟩
    exact ⟨held, (hrecalls.standing hfind).mem, hlasts⟩
  · rintro ⟨deadline, hmem, hlasts⟩
    -- What lasts beyond the query lasts beyond all clean-ups, so none of them has dropped it.
    have hstanding : Standing events id deadline :=
      standing_of_mem hmem fun time htime => Int.lt_of_le_of_lt (hnow time htime) hlasts
    obtain ⟨held, hfind, hle⟩ := hrecalls.longest hstanding
    exact ⟨held, hfind, Int.lt_of_lt_of_le hlasts hle⟩

/-- Two runs with the same revocations of a lineage give the same answers about it. -/
theorem isRevoked_after_congr {others : List Event} (hnow : ∀ time ∈ cleanups events, time ≤ now)
    (hothers : ∀ time ∈ cleanups others, time ≤ now)
    (h : ∀ deadline, .revoke id deadline ∈ events ↔ .revoke id deadline ∈ others) :
    (empty.after events).isRevoked id now = (empty.after others).isRevoked id now := by
  rw [Bool.eq_iff_iff, isRevoked_after_iff hnow, isRevoked_after_iff hothers]
  simp only [h]

/-- The lineages whose records have lapsed at a time. -/
def lapsed (cache : RevocationCache) (now : Instant) : List TokenId :=
  (cache.records.filter fun record => record.2 ≤ now.deadline).map (·.1)

theorem nodup_lapsed (cache : RevocationCache) (now : Instant) : (cache.lapsed now).Nodup :=
  cache.distinct.sublist (List.filter_sublist.map _)

/-- A lineage has lapsed just when its record has. -/
theorem mem_lapsed_iff :
    id ∈ cache.lapsed now ↔ ∃ held, cache.find? id = some held ∧ held ≤ now.deadline := by
  simp only [lapsed, List.mem_map, List.mem_filter, decide_eq_true_eq, find?,
    Cache.lookup_eq_some_iff cache.distinct]
  constructor
  · rintro ⟨⟨other, held⟩, ⟨hmem, hle⟩, rfl⟩
    exact ⟨held, hmem, hle⟩
  · rintro ⟨held, hmem, hle⟩
    exact ⟨(id, held), ⟨hmem, hle⟩, rfl⟩

/-- Cleaning up counts the lineages whose records have lapsed. -/
theorem cleanup_snd (cache : RevocationCache) (now : Instant) :
    (cache.cleanup now).2 = (cache.lapsed now).length := by
  have hlapsed : (fun record : TokenId × Deadline => decide (record.2 ≤ now.deadline)) =
      fun record => !decide (now.deadline < record.2) := by
    funext record
    have hnot : record.2 ≤ now.deadline ↔ ¬now.deadline < record.2 := Int.not_lt.symm
    simp [hnot]
  have hsplit := cache.records.length_eq_length_filter_add fun record => now.deadline < record.2
  rw [lapsed, List.length_map, hlapsed, cleanup, size]
  omega

/-- Cleaning up removes the records that have lapsed and no others. -/
theorem find?_cleanup_eq_ite (cache : RevocationCache) (now : Instant) (id : TokenId) :
    (cache.cleanup now).1.find? id = if id ∈ cache.lapsed now then none else cache.find? id := by
  rw [find?_cleanup]
  by_cases hmem : id ∈ cache.lapsed now
  · obtain ⟨held, hfind, hle⟩ := mem_lapsed_iff.mp hmem
    have hlapsed : ¬now.deadline < held := Int.not_lt.mpr hle
    rw [if_pos hmem, hfind]
    simp [Option.filter, hlapsed]
  · rw [if_neg hmem]
    cases hfind : cache.find? id with
    | none => rfl
    | some held =>
      have hlasts : now.deadline < held := Int.not_le.mp fun hle =>
        hmem (mem_lapsed_iff.mpr ⟨held, hfind, hle⟩)
      simp [Option.filter, hlasts]

/-- In a cache that recalls events the records have lapsed of those lineages that have standing
revocations, none of which lasts. -/
theorem Recalls.mem_lapsed_iff (h : cache.Recalls events) :
    id ∈ cache.lapsed now ↔ (∃ deadline, Standing events id deadline) ∧
      ∀ deadline, Standing events id deadline → deadline ≤ now.deadline := by
  rw [RevocationCache.mem_lapsed_iff]
  constructor
  · rintro ⟨held, hfind, hlapsed⟩
    refine ⟨⟨held, h.standing hfind⟩, fun deadline hstanding => ?_⟩
    obtain ⟨other, hother, hle⟩ := h.longest hstanding
    obtain rfl := Option.some.inj (hfind.symm.trans hother)
    exact Int.le_trans hle hlapsed
  · rintro ⟨⟨deadline, hstanding⟩, hlapsed⟩
    obtain ⟨held, hfind, -⟩ := h.longest hstanding
    exact ⟨held, hfind, hlapsed held (h.standing hfind)⟩

/-- In runs that start without records and whose clean-ups do not run backwards, a lineage is
revoked, at a time not before the last clean-up, just when one of its revocations lasts longer. So
nothing that happens later shortens a revocation; runs with the same revocations of a lineage, in
whatever order and however often, give the same answers about it; and they are the answers of these
revocations alone, without other lineages and without clean-ups. A clean-up removes and counts the
records of just those lineages that have revocations which no earlier clean-up has seen lapse, and
none that lasts. -/
theorem revoked_by_history :
    (∀ (events : List Event) (id : TokenId) (now : Instant),
      InOrder events → CleanedBy events now →
      ((empty.after events).isRevoked id now = true ↔
        ∃ deadline, .revoke id deadline ∈ events ∧ now.deadline < deadline)) ∧
    (∀ (events more : List Event) (id : TokenId) (now : Instant),
      InOrder (events ++ more) → CleanedBy (events ++ more) now →
      (empty.after events).isRevoked id now = true →
        (empty.after (events ++ more)).isRevoked id now = true) ∧
    (∀ (events others : List Event) (id : TokenId) (now : Instant),
      InOrder events → CleanedBy events now → InOrder others → CleanedBy others now →
      (∀ deadline, .revoke id deadline ∈ events ↔ .revoke id deadline ∈ others) →
        (empty.after events).isRevoked id now = (empty.after others).isRevoked id now) ∧
    (∀ (events : List Event) (id : TokenId) (now : Instant),
      InOrder events → CleanedBy events now →
        (empty.after events).isRevoked id now =
          (empty.after (events.filter (Event.revokes id))).isRevoked id now) ∧
    ∀ (events : List Event) (now : Instant), ∃ ids : List TokenId, ids.Nodup ∧
      (∀ id, id ∈ ids ↔ (∃ deadline, Standing events id deadline) ∧
        ∀ deadline, Standing events id deadline → deadline ≤ now.deadline) ∧
      ((empty.after events).cleanup now).2 = ids.length ∧
      ∀ id, ((empty.after events).cleanup now).1.find? id =
        if id ∈ ids then none else (empty.after events).find? id := by
  refine ⟨fun events id now horder hcleaned => ?_,
    fun events more id now horder hcleaned hrevoked => ?_,
    fun events others id now horder hcleaned horder' hcleaned' hsame => ?_,
    fun events id now horder hcleaned => ?_, fun events now => ?_⟩
  · exact isRevoked_after_iff fun _ => horder.le_of_mem hcleaned
  · have hnow : ∀ time ∈ cleanups (events ++ more), time ≤ now := fun _ =>
      horder.le_of_mem hcleaned
    have hearlier : ∀ time ∈ cleanups events, time ≤ now := fun time htime => by
      apply hnow
      rw [cleanups, List.filterMap_append, List.mem_append]
      exact .inl htime
    obtain ⟨deadline, hmem, hlasts⟩ := (isRevoked_after_iff hearlier).mp hrevoked
    exact (isRevoked_after_iff hnow).mpr ⟨deadline, List.mem_append_left more hmem, hlasts⟩
  · exact isRevoked_after_congr (fun _ => horder.le_of_mem hcleaned)
      (fun _ => horder'.le_of_mem hcleaned') hsame
  · refine isRevoked_after_congr (fun _ => horder.le_of_mem hcleaned) ?_ ?_
    · intro time htime
      obtain ⟨event, hevent, htime⟩ := List.mem_filterMap.mp htime
      have hrevokes := (List.mem_filter.mp hevent).2
      cases event with
      | revoke => cases htime
      | cleanup => cases hrevokes
    · simp [List.mem_filter, Event.revokes]
  · exact ⟨(empty.after events).lapsed now, nodup_lapsed _ now,
      fun id => (recalls_after events).mem_lapsed_iff, cleanup_snd _ now,
      find?_cleanup_eq_ite _ now⟩

/-- A lineage. -/
def sampleLineage : TokenId := ⟨"lineage-1"⟩

/-- An hour past the start of 1970. -/
def sampleHour : Instant := ⟨3600000000000, by decide, by decide⟩

/-- The last instant of this hour. -/
def beforeSampleHour : Instant := ⟨3599999999999, by decide, by decide⟩

/-- A lineage is revoked for an hour, and after a clean-up once more for a shorter time. Another
lineage is revoked until a time that has passed when it is cleaned up. -/
def sampleEvents : List Event :=
  [.revoke sampleLineage sampleHour.deadline, .revoke ⟨"lineage-2"⟩ ⟨600000000000⟩,
   .cleanup ⟨1800000000000, by decide, by decide⟩, .revoke sampleLineage ⟨2400000000000⟩,
   .cleanup beforeSampleHour]

/-- The same revocations of the lineage in another order, one of them twice. -/
def reorderedEvents : List Event :=
  [.revoke sampleLineage ⟨2400000000000⟩, .cleanup ⟨1200000000000, by decide, by decide⟩,
   .revoke sampleLineage sampleHour.deadline, .revoke sampleLineage ⟨2400000000000⟩]

/-- The lineage is revoked until the hour is over and no longer, in either order, and without the
clean-ups and the other lineage. -/
theorem revoked_by_history_sample :
    InOrder sampleEvents ∧ CleanedBy sampleEvents beforeSampleHour ∧
      (empty.after sampleEvents).isRevoked sampleLineage beforeSampleHour = true ∧
      (empty.after sampleEvents).isRevoked sampleLineage sampleHour = false ∧
      (empty.after (sampleEvents ++ reorderedEvents.drop 2)).isRevoked sampleLineage
        beforeSampleHour = true ∧
      (empty.after reorderedEvents).isRevoked sampleLineage beforeSampleHour = true ∧
      (empty.after (sampleEvents.filter (Event.revokes sampleLineage))).isRevoked sampleLineage
        beforeSampleHour = true := by
  obtain ⟨hanswer, hlater, hsame, hfilter, -⟩ := revoked_by_history
  have horder : InOrder sampleEvents := by decide
  have hcleaned : CleanedBy sampleEvents beforeSampleHour := by decide
  have hrevoked : (empty.after sampleEvents).isRevoked sampleLineage beforeSampleHour = true :=
    (hanswer _ _ _ horder hcleaned).mpr ⟨sampleHour.deadline, by decide, by decide⟩
  have hreordered (deadline : Deadline) : .revoke sampleLineage deadline ∈ sampleEvents ↔
      .revoke sampleLineage deadline ∈ reorderedEvents := by
    simp [sampleEvents, reorderedEvents, sampleLineage, or_comm]
  refine ⟨horder, hcleaned, hrevoked, by decide, ?_, ?_, ?_⟩
  · exact hlater _ _ _ _ (by decide) (by decide) hrevoked
  · rw [← hsame _ _ _ _ horder hcleaned (by decide) (by decide) hreordered]
    exact hrevoked
  · rw [← hfilter _ _ _ horder hcleaned]
    exact hrevoked

end OpaqueTokens.RevocationCache
