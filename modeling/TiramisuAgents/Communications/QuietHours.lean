import TiramisuAgents.Communications.Policy
import TiramisuAgents.Library.TimeZones

/-!
`_quiet_hours_end` of `communications/policy.py` and `DailyQuietHours` of
`processes/definitions.py`: the daily interval of local time in which contact is forbidden.

The two candidates for a start are yesterday's and today's, by the local date, and a boundary
that an offset change repeats or skips is resolved towards the wider interval.

* `DailyQuietHours.Contains`: the start-inclusive, end-exclusive interval of local times.
* `quietHours_exact`: with a constant offset the quiet hours are that interval, and with a change
  of offset nearby they have no gap.
-/

namespace TiramisuAgents

/-- A day, in microseconds. -/
def day : ℤ := 24 * 3600 * 1000000

/-- `DailyQuietHours`, with its local clock times as microseconds since midnight. -/
structure DailyQuietHours where
  timezone : String
  startLocal : ℤ
  endLocal : ℤ
  startsInDay : 0 ≤ startLocal ∧ startLocal < day
  endsInDay : 0 ≤ endLocal ∧ endLocal < day
  differ : startLocal ≠ endLocal

/-- `_resolve_local_boundary`. -/
def resolveLocalBoundary (zone : TimeZones.Zone day) (earliest : Bool) (value : ℤ) : ℤ :=
  let candidates := (zone.utc false value, zone.utc true value)
  if earliest then min candidates.1 candidates.2 else max candidates.1 candidates.2

/-- Whether the interval ends on the day after it starts. -/
def DailyQuietHours.overnight (configuration : DailyQuietHours) : Bool :=
  configuration.startLocal > configuration.endLocal

/-- The interval that starts on a date: its start and its end. -/
def quietHoursOn (configuration : DailyQuietHours) (zone : TimeZones.Zone day) (startDate : ℤ) :
    ℤ × ℤ :=
  let endDate := startDate + if configuration.overnight then 1 else 0
  (resolveLocalBoundary zone true (startDate * day + configuration.startLocal),
    resolveLocalBoundary zone false (endDate * day + configuration.endLocal))

/-- `_quiet_hours_end`. -/
def quietHoursEnd (zoneInfo : String → TimeZones.Zone day) :
    Option DailyQuietHours → Time → Option Time
  | none, _ => none
  | some configuration, now =>
      let zone := zoneInfo configuration.timezone
      let localDate := zone.wall now / day
      [localDate - 1, localDate].findSome? fun startDate =>
        let (startUtc, endUtc) := quietHoursOn configuration zone startDate
        if startUtc ≤ now ∧ now < endUtc then some endUtc else none

/-! ### The interval of local times -/

/-- The local time of day at an instant. -/
def localTime (zone : TimeZones.Zone day) (t : ℤ) : ℤ := zone.wall t % day

/-- The start-inclusive, end-exclusive daily interval, which an overnight one wraps around
midnight. -/
def DailyQuietHours.Contains (configuration : DailyQuietHours) (value : ℤ) : Prop :=
  if configuration.overnight then configuration.startLocal ≤ value ∨ value < configuration.endLocal
  else configuration.startLocal ≤ value ∧ value < configuration.endLocal

instance (configuration : DailyQuietHours) : DecidablePred configuration.Contains :=
  fun value => inferInstanceAs (Decidable (if configuration.overnight then
    configuration.startLocal ≤ value ∨ value < configuration.endLocal
    else configuration.startLocal ≤ value ∧ value < configuration.endLocal))

section

variable {zoneInfo : String → TimeZones.Zone day} {configuration : DailyQuietHours}
  {zone : TimeZones.Zone day} {now e : ℤ}

lemma resolveLocalBoundary_earliest (fold : Bool) (value : ℤ) :
    resolveLocalBoundary zone true value ≤ zone.utc fold value := by
  cases fold
  · exact min_le_left _ _
  · exact min_le_right _ _

lemma resolveLocalBoundary_latest (fold : Bool) (value : ℤ) :
    zone.utc fold value ≤ resolveLocalBoundary zone false value := by
  cases fold
  · exact le_max_left _ _
  · exact le_max_right _ _

/-- An end is the end of an interval of one of the two dates, and the instant is in it. -/
lemma quietHoursEnd_eq_some (h : quietHoursEnd zoneInfo (some configuration) now = some e) :
    ∃ startDate, (startDate = (zoneInfo configuration.timezone).wall now / day - 1 ∨
        startDate = (zoneInfo configuration.timezone).wall now / day) ∧
      (quietHoursOn configuration (zoneInfo configuration.timezone) startDate).1 ≤ now ∧
      now < e ∧
      e = (quietHoursOn configuration (zoneInfo configuration.timezone) startDate).2 := by
  rw [quietHoursEnd] at h
  obtain ⟨startDate, hmem, hif⟩ := List.exists_of_findSome?_eq_some h
  dsimp only at hif
  split_ifs at hif with hin
  cases hif
  exact ⟨startDate, by simpa using hmem, hin.1, hin.2, rfl⟩

/-- An instant in the interval of one of the two dates is blocked. -/
lemma quietHoursEnd_isSome {startDate : ℤ}
    (hdate : startDate = (zoneInfo configuration.timezone).wall now / day - 1 ∨
      startDate = (zoneInfo configuration.timezone).wall now / day)
    (hstart : (quietHoursOn configuration (zoneInfo configuration.timezone) startDate).1 ≤ now)
    (hend : now < (quietHoursOn configuration (zoneInfo configuration.timezone) startDate).2) :
    ∃ e, quietHoursEnd zoneInfo (some configuration) now = some e ∧ now < e := by
  have hsome : (quietHoursEnd zoneInfo (some configuration) now).isSome := by
    rw [quietHoursEnd, List.findSome?_isSome_iff]
    refine ⟨startDate, by simpa using hdate, ?_⟩
    dsimp only
    rw [if_pos ⟨hstart, hend⟩, Option.isSome_some]
  obtain ⟨e, he⟩ := Option.isSome_iff_exists.mp hsome
  obtain ⟨-, -, -, hlater, -⟩ := quietHoursEnd_eq_some he
  exact ⟨e, he, hlater⟩

/-- A local time in the interval has its start at most a day back and its end at most a day
ahead, by the wall. -/
lemma DailyQuietHours.Contains.exists_date (h : configuration.Contains (localTime zone now)) :
    ∃ startDate, (startDate = zone.wall now / day - 1 ∨ startDate = zone.wall now / day) ∧
      let start := startDate * day + configuration.startLocal
      let stop := (startDate + if configuration.overnight then 1 else 0) * day
        + configuration.endLocal
      (start ≤ zone.wall now ∧ zone.wall now - start ≤ day) ∧
        zone.wall now < stop ∧ stop - zone.wall now ≤ day := by
  have hs := configuration.startsInDay
  have he := configuration.endsInDay
  rw [localTime] at h
  generalize zone.wall now = wall at *
  simp only [DailyQuietHours.Contains, overnight, decide_eq_true_eq, gt_iff_lt, day] at h hs he ⊢
  by_cases hover : configuration.endLocal < configuration.startLocal
  · simp only [if_pos hover] at h ⊢
    by_cases hlate : configuration.startLocal ≤ wall % (24 * 3600 * 1000000)
    · exact ⟨_, .inr rfl, by omega⟩
    · exact ⟨_, .inl rfl, by omega⟩
  · simp only [if_neg hover] at h ⊢
    exact ⟨_, .inr rfl, by omega⟩

/-! ### With one change of offset nearby -/

/-- Quiet hours have no gap: a wall-clock time in the interval is blocked. -/
lemma DailyQuietHours.Contains.blocked
    (hsteady : (zoneInfo configuration.timezone).Steady (3 * day) now)
    (h : configuration.Contains (localTime (zoneInfo configuration.timezone) now)) :
    ∃ e, quietHoursEnd zoneInfo (some configuration) now = some e ∧ now < e := by
  obtain ⟨startDate, hdate, hstart, hend⟩ := h.exists_date
  have hradius : day + 2 * day ≤ 3 * day := by ring_nf; rfl
  obtain ⟨early, hearly⟩ := hsteady.exists_utc_le hradius
    (by rw [abs_le]; omega) hstart.1
  obtain ⟨late, hlate⟩ := hsteady.exists_lt_utc hradius
    (by rw [abs_le]; omega) hend.1
  refine quietHoursEnd_isSome hdate ?_ ?_
  · exact (resolveLocalBoundary_earliest early _).trans hearly
  · exact hlate.trans_le (resolveLocalBoundary_latest late _)

/-! ### With a constant offset -/

lemma resolveLocalBoundary_constant (hzone : zone.Constant) (earliest : Bool) (value : ℤ) :
    resolveLocalBoundary zone earliest value = value - zone.initial := by
  rw [resolveLocalBoundary, hzone.utc, hzone.utc, min_self, max_self, ite_self]

/-- An interval of one of the two dates that an instant is in has exactly the local times of the
daily interval, from the instant to its end. -/
lemma contains_until (hzone : zone.Constant) {startDate : ℤ}
    (hstart : (quietHoursOn configuration zone startDate).1 ≤ now)
    {t : ℤ} (hlater : now ≤ t)
    (ht : t < (quietHoursOn configuration zone startDate).2) :
    configuration.Contains (localTime zone t) := by
  have hs := configuration.startsInDay
  have he := configuration.endsInDay
  simp only [quietHoursOn, resolveLocalBoundary_constant hzone, DailyQuietHours.Contains,
    localTime, hzone.wall, DailyQuietHours.overnight, decide_eq_true_eq,
    gt_iff_lt] at hs he hstart ht ⊢
  simp only [day] at hs he hstart ht ⊢
  split_ifs at ht ⊢ with hover
  · omega
  · omega

/-- From an end on the local times are outside, until the interval starts again. -/
lemma exists_recurrence (hzone : zone.Constant) (startDate : ℤ) :
    ∃ recurrence, (quietHoursOn configuration zone startDate).2 < recurrence ∧
      (∀ t, (quietHoursOn configuration zone startDate).2 ≤ t → t < recurrence →
        ¬ configuration.Contains (localTime zone t)) ∧
      configuration.Contains (localTime zone recurrence) := by
  have hs := configuration.startsInDay
  have he := configuration.endsInDay
  have hdiffer := configuration.differ
  refine ⟨(quietHoursOn configuration zone startDate).2
    + (configuration.startLocal - configuration.endLocal) % day, ?_, fun t hend ht => ?_, ?_⟩
  all_goals
    simp only [quietHoursOn, resolveLocalBoundary_constant hzone, DailyQuietHours.Contains,
      localTime, hzone.wall, DailyQuietHours.overnight, decide_eq_true_eq, gt_iff_lt] at *
    simp only [day] at *
    split_ifs at * <;> omega

/-- With a constant offset an end is the first later instant outside the interval. -/
lemma quietHoursEnd_first (hzone : (zoneInfo configuration.timezone).Constant)
    (h : quietHoursEnd zoneInfo (some configuration) now = some e) :
    now < e ∧
      (∀ t, now ≤ t → t < e →
        configuration.Contains (localTime (zoneInfo configuration.timezone) t)) ∧
      ¬ configuration.Contains (localTime (zoneInfo configuration.timezone) e) := by
  obtain ⟨startDate, -, hstart, hlater, rfl⟩ := quietHoursEnd_eq_some h
  obtain ⟨recurrence, hrecurs, houtside, -⟩ := exists_recurrence hzone startDate
  exact ⟨hlater, fun t => contains_until hzone hstart, houtside _ le_rfl hrecurs⟩

/-- With a constant offset the interval is blocked, and nothing else. -/
lemma quietHoursEnd_isSome_iff (hzone : (zoneInfo configuration.timezone).Constant) :
    (quietHoursEnd zoneInfo (some configuration) now).isSome ↔
      configuration.Contains (localTime (zoneInfo configuration.timezone) now) := by
  constructor
  · intro h
    obtain ⟨e, he⟩ := Option.isSome_iff_exists.mp h
    obtain ⟨hlater, hinside, -⟩ := quietHoursEnd_first hzone he
    exact hinside now le_rfl hlater
  · intro h
    obtain ⟨startDate, hdate, hstart, hend⟩ := h.exists_date
    have hon : quietHoursOn configuration (zoneInfo configuration.timezone) startDate =
        (startDate * day + configuration.startLocal - (zoneInfo configuration.timezone).initial,
          (startDate + if configuration.overnight then 1 else 0) * day + configuration.endLocal
            - (zoneInfo configuration.timezone).initial) := by
      rw [quietHoursOn, resolveLocalBoundary_constant hzone, resolveLocalBoundary_constant hzone]
    have hwall := hzone.wall now
    obtain ⟨e, he, -⟩ := quietHoursEnd_isSome hdate (by rw [hon]; dsimp only; omega)
      (by rw [hon]; dsimp only; omega)
    rw [he, Option.isSome_some]

end

/-- Quiet hours are exact with a constant offset: there is an end at an instant iff its local time
of day is in the interval, and that end is the first later instant outside.  They are conservative
where the offset changes at most once within three days: an instant whose local time is in the
interval is blocked, until a later instant. -/
theorem quietHours_exact (zoneInfo : String → TimeZones.Zone day) (configuration : DailyQuietHours)
    (now : ℤ) :
    ((zoneInfo configuration.timezone).Constant →
      ((quietHoursEnd zoneInfo (some configuration) now).isSome ↔
        configuration.Contains (localTime (zoneInfo configuration.timezone) now)) ∧
      ∀ e, quietHoursEnd zoneInfo (some configuration) now = some e →
        now < e ∧
        (∀ t, now ≤ t → t < e →
          configuration.Contains (localTime (zoneInfo configuration.timezone) t)) ∧
        ¬ configuration.Contains (localTime (zoneInfo configuration.timezone) e)) ∧
    ((zoneInfo configuration.timezone).Steady (3 * day) now →
      configuration.Contains (localTime (zoneInfo configuration.timezone) now) →
      ∃ e, quietHoursEnd zoneInfo (some configuration) now = some e ∧ now < e) :=
  ⟨fun hzone => ⟨quietHoursEnd_isSome_iff hzone, fun _ => quietHoursEnd_first hzone⟩,
    fun hsteady h => h.blocked hsteady⟩

/-- From ten at night to seven in the morning: an instant at two in the morning is blocked in a
zone without changes, and in one that sets its clock ahead at that very instant. -/
theorem quietHours_exact_night :
    let night : DailyQuietHours :=
      { timezone := "Europe/Berlin"
        startLocal := 22 * 3600 * 1000000
        endLocal := 7 * 3600 * 1000000
        startsInDay := by decide
        endsInDay := by decide
        differ := by decide }
    let winter : TimeZones.Zone day :=
      { initial := 3600 * 1000000
        changes := []
        ordered := by decide
        bounded := by decide }
    let spring : TimeZones.Zone day :=
      { initial := 3600 * 1000000
        changes := [(3600 * 1000000, 2 * 3600 * 1000000)]
        ordered := by decide
        bounded := by decide }
    (quietHoursEnd (fun _ => winter) (some night) (3600 * 1000000)).isSome ∧
      ∃ e, quietHoursEnd (fun _ => spring) (some night) (3600 * 1000000) = some e ∧
        3600 * 1000000 < e :=
  ⟨((quietHours_exact _ _ _).1 (by decide)).1.mpr (by decide),
    (quietHours_exact _ _ _).2 (by decide) (by decide)⟩

end TiramisuAgents
