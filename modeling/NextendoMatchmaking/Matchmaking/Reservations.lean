import NextendoMatchmaking.Matchmaking.SeatCapacity

/-!
# What a reservation guarantees

A successful `ReserveJoin` at the time `t` writes a reservation that ends at `T = t + TTL`.  Until `T`,
nobody but its holder can take it away: every touch by another player keeps it, and the sweeps that expire
reservations run before its end.  So a join before `T` finds it and commits it: `reservation_guarantee`.

The holder can shorten its own reservation.  A second `ReserveJoin` replaces the end of the first by one
that is computed from the TTL then in force, and `SetJoinReservationTTL` may have lowered that in between:
`reservation_shortened`.
-/

namespace NextendoMatchmaking.Matchmaking

open NextendoMatchmaking.Runs Relation

/-- `pid` is seated, or a seat is reserved for it until `T` at least. -/
def Kept (pid : UInt64) (T : Int) (g : GatheringEntry) : Prop :=
  pid ∈ g.participants ∨ ∃ x, g.reservations.lookup pid = some x ∧ T ≤ x

/-- The event is no cancel, leave or disconnect by which `pid` gives up its place in `gid`. -/
def Stays (gid : UInt32) (pid : UInt64) : Event → Prop
  | .cancelJoinReservation gid' pid' => ¬ (gid' = gid ∧ pid' = pid)
  | .removePlayer pid' _ => pid' ≠ pid
  | .request service conn req _ =>
    ¬ (service = .matchMakingExt ∧ req.method = Method.endParticipation ∧ conn.pid = pid ∧
      readGID req = gid)
  | _ => True

/-- The clock does not advance by a whole reservation time inside one handler. -/
def Swift (ttl : Int) : Event → Prop
  | .request _ _ _ env => env.commitNow < env.reserveNow + ttl
  | _ => True

/-- The gathering `gid` is not deleted, nor replaced by a new one after a wrap of `nextGID`. -/
def Survives (o : Options) (gid : UInt32) (m : Store) (e : Event) : Prop :=
  ∀ m', step o m e = some m' → (m'.gatherings.lookup gid).isSome ∧ (m.nextGID = gid → m'.nextGID = gid)

/-- What must not happen to a reservation of `pid` in `gid`. -/
structure Undisturbed (o : Options) (gid : UInt32) (pid : UInt64) (m : Store) (e : Event) : Prop where
  stays : Stays gid pid e
  swift : Swift m.reservationTTL e
  survives : Survives o gid m e

/-- A further `ReserveJoin` of `pid` in `gid` does not end before `T`. -/
def Renews (gid : UInt32) (pid : UInt64) (T : Int) (m : Store) (e : Event) : Prop :=
  ∀ now, e = .reserveJoin gid pid now → T ≤ now + m.reservationTTL

variable {o : Options} {e : Event} {m m' : Store} {gid : UInt32} {g g' : GatheringEntry} {ttl T : Int}
  {pid : UInt64}

/-! ### Touches -/

theorem lookup_release (g : GatheringEntry) (pid p : UInt64) :
    (releaseReservation g pid).reservations.lookup p =
      if p = pid then none else g.reservations.lookup p :=
  GoMap.lookup_erase_eq _ _ _

/-- Another player's reservation goes, or that of a participant. -/
theorem kept_release {p : UInt64} (h : Kept pid T g) (hp : p = pid → pid ∈ g.participants) :
    Kept pid T (releaseReservation g p) := by
  rcases h with hmem | ⟨x, hx, hT⟩
  · exact .inl hmem
  · by_cases hpid : p = pid
    · exact .inl (hp hpid)
    · exact .inr ⟨x, by rw [lookup_release, if_neg (Ne.symm hpid), hx], hT⟩

theorem kept_without {p : UInt64} (h : Kept pid T g) (hp : p ≠ pid) : Kept pid T (without g p) := by
  rcases h with hmem | ⟨x, hx, hT⟩
  · exact .inl (mem_removePID.mpr ⟨hmem, Ne.symm hp⟩)
  · exact .inr ⟨x, by
      show (releaseReservation g p).reservations.lookup pid = some x
      rw [lookup_release, if_neg (Ne.symm hp), hx], hT⟩

theorem kept_seated {p : UInt64} (h : Kept pid T g) : Kept pid T (seated g p) := by
  by_cases hp : p = pid
  · exact .inl (List.mem_append_right _ (List.mem_singleton.mpr hp.symm))
  · rcases h with hmem | ⟨x, hx, hT⟩
    · exact .inl (List.mem_append_left _ hmem)
    · exact .inr ⟨x, by
        show (releaseReservation g p).reservations.lookup pid = some x
        rw [lookup_release, if_neg (Ne.symm hp), hx], hT⟩

/-- **No touch takes the place away**, as long as the clock is before `T`. -/
theorem touch_kept (h : Kept pid T g) (t : Touch o ttl gid e g g') (hstays : Stays gid pid e)
    (hswift : Swift ttl e) (hrenews : ∀ now, e = .reserveJoin gid pid now → T ≤ now + ttl)
    (hclock : ∀ now ∈ e.readings, now < T) : Kept pid T g' := by
  cases t with
  | @expire _ _ now hnow =>
    rcases h with hmem | ⟨x, hx, hT⟩
    · exact .inl hmem
    · have hlive : now < x := lt_of_lt_of_le (hclock now hnow) hT
      exact .inr ⟨x, GoMap.lookup_deleteWhere_kept hx (by simpa using hlive), hT⟩
  | @hold p now _ _ _ =>
    by_cases hp : p = pid
    · subst hp
      exact .inr ⟨now + ttl, Finmap.lookup_insert _, hrenews now rfl⟩
    · rcases h with hmem | ⟨x, hx, hT⟩
      · exact .inl hmem
      · exact .inr ⟨x, (Finmap.lookup_insert_of_ne _ (Ne.symm hp)).trans hx, hT⟩
  | holdSeated hmem => exact kept_release h (fun hp => hp ▸ hmem)
  | cancel => exact kept_release h (fun hp => absurd ⟨rfl, hp⟩ hstays)
  | join _ _ _ _ _ => exact kept_seated h
  | lapse _ _ hlate =>
    have hearly : _ < _ := hswift
    omega
  | rejoin hmem =>
    have hkept : Kept pid T (releaseReservation g _) := kept_release h (fun hp => hp ▸ hmem)
    exact hkept
  | refresh => exact h
  | edit _ => exact h
  | part _ _ _ => exact h
  | migrate candidates _ =>
    rcases h with hmem | hres
    · exact .inl ((migrate_perm candidates g.participants).mem_iff.mpr hmem)
    · exact .inr hres
  | leave hmethod hgid _ =>
    have hkept := kept_without h (fun hp => hstays ⟨rfl, hmethod, hp, hgid⟩)
    exact hkept
  | disconnect _ _ _ =>
    have hkept := kept_without h hstays
    exact hkept
  | disconnectOther _ _ => exact kept_without h hstays

/-! ### Runs -/

/-- The gathering `gid` is there and keeps a place for `pid`. -/
def KeptIn (gid : UInt32) (pid : UInt64) (T : Int) (m : Store) : Prop :=
  ∃ g, m.gatherings.lookup gid = some g ∧ Kept pid T g

theorem keptIn_step (h : KeptIn gid pid T m) (hu : Undisturbed o gid pid m e) (hr : Renews gid pid T m e)
    (hclock : ∀ now ∈ e.readings, now < T) (hstep : step o m e = some m') : KeptIn gid pid T m' := by
  obtain ⟨g, hg, hkept⟩ := h
  obtain ⟨hlive, hsame⟩ := hu.survives m' hstep
  cases (step_described hstep).change gid with
  | kept h₀ h' t _ =>
    obtain rfl := Option.some.inj (hg.symm.trans h₀)
    refine ⟨_, h', touches_keep (P := Kept pid T) ?_ hkept t⟩
    intro g g' hk ht
    exact touch_kept hk ht hu.stays hu.swift hr hclock
  | gone h' _ =>
    rw [h'] at hlive
    cases hlive
  | fresh _ _ hgid hnext _ _ =>
    have heq := hsame hgid.symm
    rw [hnext, ← hgid] at heq
    simp at heq

theorem keptIn_run {es : List Event} (h : KeptIn gid pid T m)
    (hsteps : Steps (step o) (fun m e => Undisturbed o gid pid m e ∧ Renews gid pid T m e) m es)
    (hclock : ∀ now ∈ es.flatMap Event.readings, now < T) (hrun : run (step o) m es = some m') :
    KeptIn gid pid T m' := by
  induction es generalizing m with
  | nil =>
    rw [run_nil, Option.some.injEq] at hrun
    exact hrun ▸ h
  | cons e es ih =>
    obtain ⟨m₁, hstep, hrest⟩ := run_cons_some.mp hrun
    obtain ⟨⟨hu, hr⟩, htail⟩ := hsteps
    rw [List.flatMap_cons] at hclock
    have hstep' : KeptIn gid pid T m₁ :=
      keptIn_step h hu hr (fun now hnow => hclock now (List.mem_append_left _ hnow)) hstep
    exact ih hstep' (htail m₁ hstep)
      (fun now hnow => hclock now (List.mem_append_right _ hnow)) hrest

/-- A successful `ReserveJoin` keeps a place until the end of its reservation. -/
theorem keptIn_reserve {now : Int} (h : (reserveJoinOp gid pid now m).1 = true) :
    KeptIn gid pid (now + m.reservationTTL) (reserveJoinOp gid pid now m).2 := by
  unfold reserveJoinOp at h ⊢
  split
  · rename_i hzero
    rw [if_pos hzero] at h
    cases h
  · rename_i hpid
    rw [if_neg hpid] at h
    cases hg : m.gatherings.lookup gid with
    | none =>
      rw [hg] at h
      cases h
    | some g =>
      rw [hg] at h
      have hresult := reserveResult m.reservationTTL now g pid
      dsimp only at h ⊢
      revert h hresult
      generalize reserveJoin m.reservationTTL now g pid = result
      intro h hresult
      refine ⟨result.2, by rw [lookup_put, if_pos rfl], ?_⟩
      cases hresult with
      | seated hmem => exact .inl hmem
      | held _ _ => exact .inr ⟨_, Finmap.lookup_insert _, le_refl _⟩
      | full _ _ => cases h

/-! ### The join -/

section Join

variable {conn : Caller} {req : RMCMessage} {env : Env}

/-- A join that succeeded: the answer, and the place of the caller afterwards. -/
def JoinSucceeds (conn : Caller) (req : RMCMessage) (gid : UInt32) (result : Store × Reply) : Prop :=
  ∃ g body, result.2.response =
      some (newRMCSuccess protocolMatchmakeExtension req.method req.callID body) ∧
    result.1.gatherings.lookup gid = some g ∧ g.participants.count conn.pid = 1 ∧
    g.reservations.lookup conn.pid = none

theorem joinSucceeds_answerJoin (existing : ℕ) (joined : Bool) (hcount : g.participants.count conn.pid = 1)
    (hres : g.reservations.lookup conn.pid = none) :
    JoinSucceeds conn req gid (answerJoin o env conn req gid existing joined g m) :=
  ⟨refreshNumParticipants g, _, rfl, by
    show (m.put gid (refreshNumParticipants g)).gatherings.lookup gid = _
    rw [lookup_put, if_pos rfl], hcount, hres⟩

/-- The join of a player with a place that is still kept. -/
theorem joinGathering_kept {S : Seats UInt64} (hg : m.gatherings.lookup gid = some g) (hS : Refines g S)
    (hkept : Kept conn.pid T g) (htime : env.reserveNow < T)
    (hswift : env.commitNow < env.reserveNow + m.reservationTTL) :
    JoinSucceeds conn req gid (joinGathering o env conn req m gid) := by
  unfold joinGathering
  rw [hg]
  dsimp only
  by_cases hmem : conn.pid ∈ g.participants
  · rw [if_pos (containsPID_iff.mpr hmem)]
    apply joinSucceeds_answerJoin
    · exact List.count_eq_one_of_mem hS.nodup hmem
    · by_contra hres
      exact Finset.disjoint_left.mp S.disjoint (hS.mem_members.mpr hmem)
        (hS.mem_holds.mpr (Option.isSome_iff_ne_none.mpr hres))
  · rw [if_neg (fun h => hmem (containsPID_iff.mp h))]
    obtain ⟨x, hx, hT⟩ := hkept.resolve_left hmem
    -- The sweep of the join comes before the end of the reservation, so there is room.
    have hlive : (expireJoinReservations g env.reserveNow).reservations.lookup conn.pid = some x :=
      GoMap.lookup_deleteWhere_kept hx (by simpa using lt_of_lt_of_le htime hT)
    have hroom : Room (expireJoinReservations g env.reserveNow) conn.pid := .inl (by rw [hlive]; rfl)
    have hresult := reserveResult m.reservationTTL env.reserveNow g conn.pid
    revert hresult
    generalize reserveJoin m.reservationTTL env.reserveNow g conn.pid = result
    intro hresult
    cases hresult with
    | seated h => exact absurd h hmem
    | full _ hfull => exact absurd hroom hfull
    | held _ _ =>
      have hmem' : conn.pid ∉ (expireJoinReservations g env.reserveNow).participants := hmem
      dsimp only
      rw [commit_put _ _ hmem', if_pos hswift]
      apply joinSucceeds_answerJoin
      · show (g.participants ++ [conn.pid]).count conn.pid = 1
        rw [List.count_append, List.count_eq_zero.mpr hmem, List.count_singleton_self]
      · show (releaseReservation _ conn.pid).reservations.lookup conn.pid = none
        rw [lookup_release, if_pos rfl]

theorem handle_join (hmethod : req.method = Method.joinMatchmakeSessionWithParam) :
    handle o env .extension conn req m = some (joinGathering o env conn req m (readJoinGID req)) := by
  simp only [handle, extensionHandler, hmethod]
  rfl

end Join

/-- **Reservation guarantee.**  In every run of a store without partial updates, let `ReserveJoin` of `pid`
in `gid` have succeeded at `t`, with a reservation time that ends at `T`.  If then the gathering is not
deleted, `pid` does not cancel, leave or disconnect, and its own further `ReserveJoin`s do not end before
`T`, whatever else happens, then a join of `gid` by `pid` before `T` succeeds, and afterwards `pid` is a
participant once and holds no reservation. -/
theorem reservation_guarantee (o : Options) (ho : o.sessionPartPersists = false) (es₀ es : List Event)
    (m₀ m : Store) (gid : UInt32) (pid : UInt64) (t : Int)
    (h₀ : run (step o) newMatchmaking es₀ = some m₀)
    (hreserved : (reserveJoinOp gid pid t m₀).1 = true)
    (hrun : run (step o) (reserveJoinOp gid pid t m₀).2 es = some m)
    (hsteps : Steps (step o)
      (fun m e => Undisturbed o gid pid m e ∧ Renews gid pid (t + m₀.reservationTTL) m e)
      (reserveJoinOp gid pid t m₀).2 es)
    (conn : Caller) (hconn : conn.pid = pid) (req : RMCMessage)
    (hmethod : req.method = Method.joinMatchmakeSessionWithParam) (hgid : readJoinGID req = gid)
    (env : Env) (hclock : (es.flatMap Event.readings ++ [env.reserveNow]).Pairwise (· ≤ ·))
    (htime : env.reserveNow < t + m₀.reservationTTL)
    (hswift : env.commitNow < env.reserveNow + m.reservationTTL) :
    ∃ result, handle o env .extension conn req m = some result ∧ JoinSucceeds conn req gid result := by
  subst hconn hgid
  have hbefore : ∀ now ∈ es.flatMap Event.readings, now < t + m₀.reservationTTL := by
    intro now hnow
    exact lt_of_le_of_lt ((List.pairwise_append.mp hclock).2.2 now hnow _ (List.mem_singleton_self _)) htime
  obtain ⟨g, hg, hkept⟩ := keptIn_run (keptIn_reserve hreserved) hsteps hbefore hrun
  have hreach : Reachable (step o) newMatchmaking m :=
    ⟨es₀ ++ .reserveJoin (readJoinGID req) conn.pid t :: es,
      run_append_some.mpr ⟨m₀, h₀, run_cons_some.mpr ⟨_, rfl, hrun⟩⟩⟩
  obtain ⟨S, hS⟩ := live_refines ho hreach hg
  exact ⟨_, handle_join hmethod, joinGathering_kept hg hS hkept htime hswift⟩

/-- The session of two seats that the following runs start with. -/
def openedStore : Store :=
  (run (step plainOptions) newMatchmaking [createEvent 7 2 0 []]).getD newMatchmaking

/-- A contender is refused while the second seat is reserved, and the holder joins. -/
theorem reservation_guarantee_contender : ∃ m result,
    run (step plainOptions) (reserveJoinOp 1 8 0 openedStore).2 [.reserveJoin 1 9 1] = some m ∧
      handle plainOptions (quietEnv 3 [1]) .extension ⟨8, 2⟩ (joinRequest 1) m = some result ∧
      JoinSucceeds ⟨8, 2⟩ (joinRequest 1) 1 result := by
  have hsteps : Steps (step plainOptions) (fun m e => Undisturbed plainOptions 1 8 m e ∧
      Renews 1 8 (0 + openedStore.reservationTTL) m e) (reserveJoinOp 1 8 0 openedStore).2
      [.reserveJoin 1 9 1] := by
    refine ⟨⟨⟨trivial, trivial, ?_⟩, ?_⟩, fun m₁ h₁ => trivial⟩
    · intro m' h
      cases h
      exact ⟨rfl, fun h => h⟩
    · intro now h
      cases h
  obtain ⟨result, hresult, hjoin⟩ := reservation_guarantee plainOptions rfl [createEvent 7 2 0 []]
    [.reserveJoin 1 9 1] openedStore _ 1 8 0 rfl rfl rfl hsteps ⟨8, 2⟩ rfl (joinRequest 1) rfl rfl
    (quietEnv 3 [1]) (by decide) (by decide) (by decide)
  exact ⟨_, result, rfl, hresult, hjoin⟩

/-! ### The holder shortens its own reservation -/

/-- The reservation time is lowered, the player reserves again, and another player joins. -/
def shortening : List Event := [.setJoinReservationTTL 1, .reserveJoin 1 8 0, joinEvent 9 1 2 [1]]

theorem undisturbed_shortening : Steps (step plainOptions) (Undisturbed plainOptions 1 8)
    (reserveJoinOp 1 8 0 openedStore).2 shortening := by
  refine ⟨⟨trivial, trivial, ?_⟩, fun m₁ h₁ => ⟨⟨trivial, trivial, ?_⟩, fun m₂ h₂ => ⟨⟨?_, ?_, ?_⟩, ?_⟩⟩⟩
  · intro m' h
    cases h
    exact ⟨rfl, fun h => h⟩
  · intro m' h
    cases h₁
    cases h
    exact ⟨rfl, fun h => h⟩
  · intro hex
    obtain ⟨hservice, -⟩ := hex
    cases hservice
  · cases h₁
    cases h₂
    show (2 : Int) < 2 + 1
    decide
  · intro m' h
    cases h₁
    cases h₂
    cases h
    exact ⟨rfl, fun h => h⟩
  · intro m₃ h₃
    trivial

/-- **A reservation can end early.**  Its holder reserves again after the reservation time was lowered.
Nobody cancels, leaves or disconnects, the session stays, and yet the join is refused at the time 3, long
before the end of the first reservation. -/
theorem reservation_shortened : ∃ m result,
    run (step plainOptions) newMatchmaking [createEvent 7 2 0 []] = some openedStore ∧
      (reserveJoinOp 1 8 0 openedStore).1 = true ∧
      Steps (step plainOptions) (Undisturbed plainOptions 1 8) (reserveJoinOp 1 8 0 openedStore).2
        shortening ∧
      run (step plainOptions) (reserveJoinOp 1 8 0 openedStore).2 shortening = some m ∧
      (shortening.flatMap Event.readings ++ [3]).Pairwise (· ≤ ·) ∧
      3 < 0 + openedStore.reservationTTL ∧ 3 < 3 + m.reservationTTL ∧
      handle plainOptions (quietEnv 3 [1]) .extension ⟨8, 2⟩ (joinRequest 1) m = some result ∧
      result.2.response =
        some (newRMCError protocolMatchmakeExtension 1 resultRendezVousSessionFull) :=
  ⟨_, _, rfl, rfl, undisturbed_shortening, rfl, by decide, by decide, by decide, rfl, rfl⟩

end NextendoMatchmaking.Matchmaking
