import NextendoMatchmaking.Matchmaking.Seating

/-!
# The limits of a room

Two places compare the occupied seats of a gathering with `MaxParticipants`: `autoMatchmake` when it looks
for a lobby, and `reserveJoinLocked` when it takes a seat there.  The first one counts seats, the second one
also knows who asks: a player with a place is let in however full the room is.  So they differ just for such
a player and a full room (`capacity_tests_agree_iff`).

A third place writes `MaxParticipants`: `applySessionPart`.  It takes the new limit as it comes, also one
below the seats that are taken (`session_part_fits_iff`).
-/

namespace NextendoMatchmaking.Matchmaking

open NextendoMatchmaking.Runs

variable {o : Options} {m : Store} {gid : UInt32} {g : GatheringEntry} {pid : UInt64} {now : Int}

/-! ### Two tests of the capacity -/

/-- Every seat of the gathering is taken or reserved at the time `now`. -/
def FullAt (g : GatheringEntry) (now : Int) : Prop :=
  g.session.maxParticipants.toNat ≤
    g.participants.length + GoMap.len (expireJoinReservations g now).reservations

/-- `pid` takes part in the gathering, or has a reservation in it that has not expired. -/
def HasPlace (g : GatheringEntry) (pid : UInt64) (now : Int) : Prop :=
  pid ∈ g.participants ∨ ∃ expires, g.reservations.lookup pid = some expires ∧ now < expires

/-- The test of `autoMatchmake` finds a free seat; the 16 bits of its count do not matter. -/
theorem selects_iff (hrep : Represented gid g) (now : Int) :
    UInt16.ofNat (occupiedSeats g now).1 < g.session.maxParticipants ↔ ¬ FullAt g now := by
  have hbound := hrep.bound
  have hswept : GoMap.len (expireJoinReservations g now).reservations ≤ GoMap.len g.reservations :=
    GoMap.len_deleteWhere_le _ _
  have hseats : (occupiedSeats g now).1 =
      g.participants.length + GoMap.len (expireJoinReservations g now).reservations := rfl
  have hcount : (UInt16.ofNat (occupiedSeats g now).1).toNat = (occupiedSeats g now).1 :=
    UInt16.toNat_ofNat_of_lt' (by rw [hseats]; show _ < 2 ^ 16; omega)
  rw [UInt16.lt_iff_toNat_lt, hcount, hseats, FullAt, Nat.not_le]

theorem lookup_expire : ((expireJoinReservations g now).reservations.lookup pid).isSome ↔
    ∃ expires, g.reservations.lookup pid = some expires ∧ now < expires := by
  constructor
  · intro hres
    obtain ⟨expires, hlive⟩ := Option.isSome_iff_exists.mp hres
    obtain ⟨hlookup, hkept⟩ := GoMap.lookup_deleteWhere_some hlive
    exact ⟨expires, hlookup, by simpa using hkept⟩
  · rintro ⟨expires, hlookup, hnow⟩
    rw [show (expireJoinReservations g now).reservations.lookup pid = some expires from
      GoMap.lookup_deleteWhere_kept hlookup (by simpa using hnow)]
    rfl

/-- `reserveJoinLocked` lets in whoever has a place, and others while there is a free seat. -/
theorem reserves_iff (hrep : Represented gid g) (ttl now : Int) (pid : UInt64) :
    (reserveJoin ttl now g pid).1 = true ↔ HasPlace g pid now ∨ ¬ FullAt g now := by
  have hroom : Room (expireJoinReservations g now) pid ↔
      (∃ expires, g.reservations.lookup pid = some expires ∧ now < expires) ∨ ¬ FullAt g now := by
    have hmax : (expireJoinReservations g now).session.maxParticipants = g.session.maxParticipants := rfl
    rw [Room, lookup_expire, hmax, and_iff_right hrep.maxPos]
    rfl
  have hresult := reserveResult ttl now g pid
  revert hresult
  generalize reserveJoin ttl now g pid = result
  intro hresult
  cases hresult with
  | seated hpid => exact iff_of_true rfl (.inl (.inl hpid))
  | held hpid hheld =>
    refine iff_of_true rfl ?_
    rcases hroom.mp hheld with hplace | hfree
    · exact .inl (.inr hplace)
    · exact .inr hfree
  | full hpid hfull =>
    refine iff_of_false Bool.false_ne_true ?_
    rintro ((hmem | hplace) | hfree)
    · exact hpid hmem
    · exact hfull (hroom.mpr (.inl hplace))
    · exact hfull (hroom.mpr (.inr hfree))

/-- **The two tests of the capacity.**  In every state of every run, for every live gathering, every player
and every time, the test that selects a lobby and the reservation of a seat in it agree just when the room
is not full, or the player has no place in it. -/
theorem capacity_tests_agree_iff (o : Options) (m : Store) (h : Reachable (step o) newMatchmaking m)
    (gid : UInt32) (g : GatheringEntry) (hg : m.gatherings.lookup gid = some g) (pid : UInt64) (now : Int) :
    (UInt16.ofNat (occupiedSeats g now).1 < g.session.maxParticipants ↔
        (reserveJoin m.reservationTTL now g pid).1 = true) ↔
      ¬ FullAt g now ∨ ¬ HasPlace g pid now := by
  have hrep : Represented gid g := represented_of_reachable h gid g hg
  rw [selects_iff hrep, reserves_iff hrep]
  tauto

/-- `pid` is matched for a session of two, on a server whose lobbies are open. -/
def matchEvent (pid : UInt64) (now : Int) (order : List UInt32) : Event :=
  .request .extension ⟨pid, 3⟩ { createRequest 2 with method := Method.autoMatchmakeWithParamPostpone }
    { quietEnv now order with creation := ⟨[], 0, true⟩ }

/-- Two players are matched into one room. -/
def pairEvents : List Event := [matchEvent 7 0 [], matchEvent 8 1 [1]]

/-- A third player and the full room of two others: neither test lets it in. -/
theorem capacity_tests_agree_third : ∃ m g,
    run (step plainOptions) newMatchmaking pairEvents = some m ∧ m.gatherings.lookup 1 = some g ∧
      (UInt16.ofNat (occupiedSeats g 2).1 < g.session.maxParticipants ↔
        (reserveJoin m.reservationTTL 2 g 9).1 = true) := by
  have heval : (run (step plainOptions) newMatchmaking pairEvents).bind
      (fun m => (m.gatherings.lookup 1).map (fun g => (g.participants, g.reservations))) =
        some ([7, 8], ∅) := by decide +kernel
  obtain ⟨m, g, hm, hg, hdata⟩ := exists_live heval
  obtain ⟨hps, hres⟩ := Prod.mk.inj hdata
  refine ⟨m, g, hm, hg, (capacity_tests_agree_iff plainOptions m ⟨_, hm⟩ 1 g hg 9 2).mpr (.inr ?_)⟩
  rintro (hmem | ⟨expires, hlookup, -⟩)
  · rw [hps] at hmem
    revert hmem
    decide
  · rw [hres] at hlookup
    cases hlookup

/-- A player of a full room could take its seat there again, but the room is not selected: the player gets a
second one. -/
theorem full_room_not_selected : ∃ m g m',
    run (step plainOptions) newMatchmaking pairEvents = some m ∧ m.gatherings.lookup 1 = some g ∧
      ¬ (UInt16.ofNat (occupiedSeats g 2).1 < g.session.maxParticipants ↔
        (reserveJoin m.reservationTTL 2 g 7).1 = true) ∧
      run (step plainOptions) newMatchmaking (pairEvents ++ [matchEvent 7 2 [1]]) = some m' ∧
      m'.members 1 = some [7, 8] ∧ m'.members 2 = some [7] := by
  have heval : (run (step plainOptions) newMatchmaking pairEvents).bind
      (fun m => (m.gatherings.lookup 1).map (fun g =>
        (decide (UInt16.ofNat (occupiedSeats g 2).1 < g.session.maxParticipants),
          (reserveJoin m.reservationTTL 2 g 7).1))) = some (false, true) := by decide +kernel
  have hsecond : (run (step plainOptions) newMatchmaking (pairEvents ++ [matchEvent 7 2 [1]])).map
      (fun m => (m.members 1, m.members 2)) = some (some [7, 8], some [7]) := by decide +kernel
  obtain ⟨m, g, hm, hg, htests⟩ := exists_live heval
  obtain ⟨m', hm', hmembers⟩ := Option.map_eq_some_iff.mp hsecond
  obtain ⟨hselects, hreserves⟩ := Prod.mk.inj htests
  obtain ⟨hfirst, hown⟩ := Prod.mk.inj hmembers
  refine ⟨m, g, m', hm, hg, fun hagree => ?_, hm', hfirst, hown⟩
  exact of_decide_eq_false hselects (hagree.mpr hreserves)

/-! ### Partial updates -/

/-- The participants and the reservations of the gathering are within its limit. -/
def WithinLimit (g : GatheringEntry) : Prop :=
  g.participants.length + GoMap.len g.reservations ≤ g.session.maxParticipants.toNat

/-- The door of the gathering is moved only by an update that says so. -/
def DoorKept (p : UpdateMatchmakeSessionParam) (g g' : GatheringEntry) : Prop :=
  p.modificationFlags &&& 0x2 = 0 → g'.session.openParticipation = g.session.openParticipation

theorem lookup_applySessionPart (p : UpdateMatchmakeSessionParam) (hg : m.gatherings.lookup gid = some g) :
    (applySessionPart p m).gatherings.lookup gid = some (if p.gid = gid then applyPart p g else g) := by
  unfold applySessionPart
  cases hnamed : m.gatherings.lookup p.gid with
  | none =>
    have hne : p.gid ≠ gid := by
      rintro rfl
      rw [hg] at hnamed
      cases hnamed
    rw [if_neg hne]
    exact hg
  | some g₀ =>
    show (m.put p.gid (applyPart p g₀)).gatherings.lookup gid = _
    rw [lookup_put]
    by_cases hgid : p.gid = gid
    · subst hgid
      obtain rfl := Option.some.inj (hg.symm.trans hnamed)
      rw [if_pos rfl, if_pos rfl]
    · rw [if_neg (Ne.symm hgid), if_neg hgid, hg]

theorem doorKept_applyPart (p : UpdateMatchmakeSessionParam) (g : GatheringEntry) :
    DoorKept p g (applyPart p g) := by
  intro hflag
  have hunset : ¬ p.modificationFlags &&& modFlagOpenParticipation ≠ 0 := not_not.mpr hflag
  show (if p.modificationFlags &&& modFlagOpenParticipation ≠ 0 then p.openParticipation
    else g.session.openParticipation) = _
  rw [if_neg hunset]

theorem withinLimit_applyPart (p : UpdateMatchmakeSessionParam) (hlimit : WithinLimit g) :
    WithinLimit (applyPart p g) ↔ p.maxParticipants = 0 ∨
      g.participants.length + GoMap.len g.reservations ≤ p.maxParticipants.toNat := by
  show g.participants.length + GoMap.len g.reservations ≤
    (if p.maxParticipants ≠ 0 then p.maxParticipants else g.session.maxParticipants).toNat ↔ _
  by_cases hmax : p.maxParticipants = 0
  · rw [if_neg (not_not.mpr hmax)]
    exact iff_of_true hlimit (.inl hmax)
  · rw [if_pos hmax, or_iff_right hmax]

/-- **Partial updates and the limit.**  For every store, every live gathering within its limit and every
update, `applySessionPart` leaves the gathering within its limit, and its door alone where the flag is not
set, just when the update is for another gathering, or names no limit, or one that the seats fit. -/
theorem session_part_fits_iff (m : Store) (gid : UInt32) (g : GatheringEntry)
    (hg : m.gatherings.lookup gid = some g) (hlimit : WithinLimit g) (p : UpdateMatchmakeSessionParam) :
    (∃ g', (applySessionPart p m).gatherings.lookup gid = some g' ∧ WithinLimit g' ∧ DoorKept p g g') ↔
      (p.gid = gid → p.maxParticipants = 0 ∨
        g.participants.length + GoMap.len g.reservations ≤ p.maxParticipants.toNat) := by
  rw [lookup_applySessionPart p hg]
  by_cases hgid : p.gid = gid
  · rw [if_pos hgid]
    constructor
    · rintro ⟨g', heq, hwithin, -⟩ -
      obtain rfl := Option.some.inj heq
      exact (withinLimit_applyPart p hlimit).mp hwithin
    · intro hfits
      exact ⟨_, rfl, (withinLimit_applyPart p hlimit).mpr (hfits hgid), doorKept_applyPart p g⟩
  · rw [if_neg hgid]
    exact iff_of_true ⟨g, rfl, hlimit, fun _ => rfl⟩ (fun h => absurd h hgid)

/-- An update of the gathering 1 that sets its limit and its code word. -/
def limitUpdate (max : UInt16) : UpdateMatchmakeSessionParam where
  gid := 1
  modificationFlags := modFlagCodeword
  attributes := []
  openParticipation := false
  applicationBuffer := []
  progressScore := 0
  param := ∅
  startedTime := 0
  userPassword := []
  gameMode := 0
  description := []
  minParticipants := 0
  maxParticipants := max
  matchmakeSystem := 0
  participationPolicy := 0
  policyArgument := 0
  codeword := [65, 66]

/-- The switches of a server that stores partial updates. -/
def partOptions : Options := { plainOptions with sessionPartPersists := true }

/-- A player sends such an update. -/
def partEvent (pid : UInt64) (max : UInt16) : Event :=
  .request .extension ⟨pid, 3⟩
    (newRMCRequest protocolMatchmakeExtension Method.updateMatchmakeSessionPart 1
      ((limitUpdate max).write partOptions.settings [])) (quietEnv 2 [1])

theorem pair_within_limit : ∃ m g,
    run (step partOptions) newMatchmaking pairEvents = some m ∧ m.gatherings.lookup 1 = some g ∧
      g.participants.length + GoMap.len g.reservations = 2 ∧ WithinLimit g := by
  have heval : (run (step partOptions) newMatchmaking pairEvents).bind
      (fun m => (m.gatherings.lookup 1).map (fun g =>
        (g.participants.length + GoMap.len g.reservations, g.session.maxParticipants))) =
        some (2, 2) := by decide +kernel
  obtain ⟨m, g, hm, hg, hdata⟩ := exists_live heval
  obtain ⟨hseats, hmax⟩ := Prod.mk.inj hdata
  refine ⟨m, g, hm, hg, hseats, ?_⟩
  rw [WithinLimit, hseats, hmax]
  decide

/-- A limit of four for the room of two. -/
theorem session_part_fits_four : ∃ m g,
    run (step partOptions) newMatchmaking pairEvents = some m ∧ m.gatherings.lookup 1 = some g ∧
      WithinLimit g ∧ ∃ g', (applySessionPart (limitUpdate 4) m).gatherings.lookup 1 = some g' ∧
        WithinLimit g' ∧ DoorKept (limitUpdate 4) g g' := by
  obtain ⟨m, g, hm, hg, hseats, hlimit⟩ := pair_within_limit
  refine ⟨m, g, hm, hg, hlimit, (session_part_fits_iff m 1 g hg hlimit (limitUpdate 4)).mpr (fun _ => .inr ?_)⟩
  rw [hseats]
  decide

/-- A limit of one for the room of two is stored: the room holds more players than its limit.  The request
itself does the same. -/
theorem limit_below_seats : ∃ m g m',
    run (step partOptions) newMatchmaking pairEvents = some m ∧ m.gatherings.lookup 1 = some g ∧
      WithinLimit g ∧
      ¬ (∃ g', (applySessionPart (limitUpdate 1) m).gatherings.lookup 1 = some g' ∧
        WithinLimit g' ∧ DoorKept (limitUpdate 1) g g') ∧
      step partOptions m (partEvent 8 1) = some m' ∧
      (m'.gatherings.lookup 1).map (fun g => (g.participants, g.session.maxParticipants)) =
        some ([7, 8], 1) := by
  have hpart : (run (step partOptions) newMatchmaking (pairEvents ++ [partEvent 8 1])).map
      (fun m => (m.gatherings.lookup 1).map (fun g => (g.participants, g.session.maxParticipants))) =
        some (some ([7, 8], 1)) := by decide +kernel
  obtain ⟨m, g, hm, hg, hseats, hlimit⟩ := pair_within_limit
  obtain ⟨m', hm', hafter⟩ := Option.map_eq_some_iff.mp hpart
  obtain ⟨m₁, hm₁, hstep⟩ := run_snoc_some.mp hm'
  obtain rfl := Option.some.inj (hm.symm.trans hm₁)
  refine ⟨m, g, m', hm, hg, hlimit, ?_, hstep, hafter⟩
  rintro ⟨g', hg', hwithin, -⟩
  rw [lookup_applySessionPart _ hg] at hg'
  obtain rfl := Option.some.inj hg'
  rcases (withinLimit_applyPart _ hlimit).mp hwithin with hzero | hfits
  · exact absurd hzero (by decide)
  · rw [hseats] at hfits
    exact absurd hfits (by decide)

end NextendoMatchmaking.Matchmaking
