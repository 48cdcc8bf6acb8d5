import Mathlib.Data.List.MinMax
import NextendoMatchmaking.Matchmaking.PlayerLookups
import NextendoMatchmaking.Ranking.Competition
import NextendoMatchmaking.Wire.DateTime

/-!
# Where timestamps are compared and written

`sessionOfParticipant` of `nextendo-nex/matchmaking_acnh.go` compares the starting times of sessions as
numbers, and the rows of a ranking carry the instants of the results (`nexDateTime` of `ranking_board.go`).
Both numbers are those of `MakeDateTime`, so the session that is found is the latest one by the calendar
(`dateTimes_like_calendar`).
-/

namespace NextendoMatchmaking.Server

open NextendoMatchmaking.Matchmaking NextendoMatchmaking.Ranking

variable {m : Store} {pid : UInt64} {order : List UInt32}

/-! ### The latest session of a player -/

/-- The gatherings with `pid` in them, as a loop visits them. -/
def gatheringsWith (m : Store) (pid : UInt64) (order : List UInt32) : List GatheringEntry :=
  order.filterMap (fun gid => (m.gatherings.lookup gid).filter (fun g => containsPID g.participants pid))

theorem mem_gatheringsWith {g : GatheringEntry} : g ∈ gatheringsWith m pid order ↔
    ∃ gid ∈ order, m.gatherings.lookup gid = some g ∧ pid ∈ g.participants := by
  simp only [gatheringsWith, List.mem_filterMap, Option.filter_eq_some_iff, containsPID_iff]

theorem gatheringsWith_snoc (order : List UInt32) (gid : UInt32) :
    gatheringsWith m pid (order ++ [gid]) = gatheringsWith m pid order ++
      ((m.gatherings.lookup gid).filter (fun g => containsPID g.participants pid)).toList := by
  simp only [gatheringsWith, List.filterMap_append, List.filterMap_cons, List.filterMap_nil]
  cases (m.gatherings.lookup gid).filter (fun g => containsPID g.participants pid) <;> rfl

/-- The loop of `sessionOfParticipant` keeps the first of the greatest. -/
theorem sessionOfParticipant_eq_argmax (m : Store) (pid : UInt64) (order : List UInt32) :
    sessionOfParticipant m pid order =
      (gatheringsWith m pid order).argmax (fun g => g.session.startedTime.toNat) := by
  rw [sessionOfParticipant]
  induction order using List.reverseRecOn with
  | nil => rfl
  | append_singleton order gid ih =>
    rw [List.foldl_append, List.foldl_cons, List.foldl_nil, ih, gatheringsWith_snoc]
    by_cases hsits : SitsIn m pid gid
    · obtain ⟨g, hg, hpid⟩ := hsits
      have hkept : (some g).filter (fun g => containsPID g.participants pid) = some g :=
        Option.filter_some_pos (containsPID_iff.mpr hpid)
      rw [hg, hkept, Option.toList_some, List.argmax_concat]
      unfold latestWith
      rw [hg]
      simp only [containsPID_iff.mpr hpid, UInt64.lt_iff_toNat_lt, if_true]
      cases (gatheringsWith m pid order).argmax (fun g => g.session.startedTime.toNat) <;> rfl
    · have hdropped : (m.gatherings.lookup gid).filter (fun g => containsPID g.participants pid) = none := by
        refine Option.filter_eq_none_iff.mpr (fun g hg hpid => hsits ?_)
        exact ⟨g, hg, containsPID_iff.mp hpid⟩
      rw [latestWith_of_not hsits, hdropped, Option.toList_none, List.append_nil]

/-- `found` is a session of the player, and no session of the player was started later. -/
def IsLatest (m : Store) (startedAt : UInt32 → CalendarTime) (pid : UInt64) (found : GatheringEntry) : Prop :=
  ∃ gid, m.gatherings.lookup gid = some found ∧ pid ∈ found.participants ∧
    ∀ gid', SitsIn m pid gid' → ¬ (startedAt gid).Precedes (startedAt gid')

/-- The starting times of the sessions are those of the calendar. -/
def StartedAt (m : Store) (startedAt : UInt32 → CalendarTime) : Prop :=
  ∀ gid g, m.gatherings.lookup gid = some g → g.session.startedTime = (startedAt gid).dateTime

theorem isLatest_of_some {startedAt : UInt32 → CalendarTime} {found : GatheringEntry}
    (hstarted : StartedAt m startedAt) (horder : GoMap.Enumerates order m.gatherings)
    (h : sessionOfParticipant m pid order = some found) : IsLatest m startedAt pid found := by
  rw [sessionOfParticipant_eq_argmax] at h
  obtain ⟨gid, _, hfound, hpid⟩ := mem_gatheringsWith.mp (List.argmax_mem h)
  refine ⟨gid, hfound, hpid, fun gid' hsits hprecedes => ?_⟩
  obtain ⟨g', hg', hpid'⟩ := hsits
  have hmem : g' ∈ gatheringsWith m pid order :=
    mem_gatheringsWith.mpr ⟨gid', (horder.2 gid').mpr (Finmap.mem_of_lookup_eq_some hg'), hg', hpid'⟩
  have hlt := (dateTime_lt_iff _ _).mpr hprecedes
  rw [← hstarted gid found hfound, ← hstarted gid' g' hg', UInt64.lt_iff_toNat_lt] at hlt
  exact List.not_lt_of_mem_argmax hmem h hlt

theorem sessionOfParticipant_eq_none_iff (horder : GoMap.Enumerates order m.gatherings) :
    sessionOfParticipant m pid order = none ↔ ∀ gid, ¬ SitsIn m pid gid := by
  rw [sessionOfParticipant_eq_argmax, List.argmax_eq_none, List.eq_nil_iff_forall_not_mem]
  constructor
  · intro hnone gid hsits
    obtain ⟨g, hg, hpid⟩ := hsits
    exact hnone g (mem_gatheringsWith.mpr
      ⟨gid, (horder.2 gid).mpr (Finmap.mem_of_lookup_eq_some hg), hg, hpid⟩)
  · intro hnone g hmem
    obtain ⟨gid, _, hg, hpid⟩ := mem_gatheringsWith.mp hmem
    exact hnone gid ⟨_, hg, hpid⟩

/-! ### The instants of a ranking -/

/-- The fields of an instant, as `nexDateTime` takes them from Go's `Time`. -/
def civilFields (instant : Int) : List Int :=
  let seconds := instant / nanoseconds
  [(civil (seconds / 86400)).1, (civil (seconds / 86400)).2.1, (civil (seconds / 86400)).2.2,
    seconds / 3600 % 24, seconds / 60 % 60, seconds % 60]

theorem nexDateTime_of_calendar {instant : Int} {c : CalendarTime}
    (h : civilFields instant = c.fields.map (fun n : ℕ => (n : Int))) : nexDateTime instant = c.dateTime := by
  simp only [civilFields, CalendarTime.fields, List.map_cons, List.map_nil, List.cons.injEq, and_true] at h
  obtain ⟨hyear, hmonth, hday, hhour, hminute, hsecond⟩ := h
  unfold nexDateTime CalendarTime.dateTime makeDateTime
  simp only [hyear, hmonth, hday, hhour, hminute, hsecond]

/-- **Timestamps are ordered like the calendar.**  The accessors give back the fields, and of two numbers the
smaller one is that of the earlier time.  So a search for the greatest starting time finds a latest session of
the player, if there is one, and the instants in a ranking are ordered like their calendar times. -/
theorem dateTimes_like_calendar (a b : CalendarTime) :
    a.dateTime.fields = a.fields.map (fun n : ℕ => (n : Int)) ∧
      (a.dateTime < b.dateTime ↔ a.Precedes b) ∧
      (∀ m startedAt, StartedAt m startedAt → ∀ pid order, GoMap.Enumerates order m.gatherings →
        (sessionOfParticipant m pid order = none ↔ ∀ gid, ¬ SitsIn m pid gid) ∧
        ∀ found, sessionOfParticipant m pid order = some found → IsLatest m startedAt pid found) ∧
      ∀ instant instant', civilFields instant = a.fields.map (fun n : ℕ => (n : Int)) →
        civilFields instant' = b.fields.map (fun n : ℕ => (n : Int)) →
          (nexDateTime instant < nexDateTime instant' ↔ a.Precedes b) := by
  refine ⟨fields_dateTime a, dateTime_lt_iff a b, ?_, ?_⟩
  · intro m startedAt hstarted pid order horder
    exact ⟨sessionOfParticipant_eq_none_iff horder, fun found hfound => isLatest_of_some hstarted horder hfound⟩
  · intro instant instant' ha hb
    rw [nexDateTime_of_calendar ha, nexDateTime_of_calendar hb]
    exact dateTime_lt_iff a b

end NextendoMatchmaking.Server
