import NextendoMatchmaking.Matchmaking.Seating

/-!
# NAT-aware matching

`autoMatchmake` puts a player only into a lobby whose members it can all reach.  Reachability is symmetric,
and nobody else enters a lobby behind its members' backs as long as nobody joins directly.  So the members of
a gathering can reach each other in every state of such a run (`compatible_step`).

The search is also complete: whatever order it visits the gatherings in, and although the seat that it finds
is reserved by a second test, a gathering is opened only when none is eligible (`matched_autoMatchmake`).
-/

namespace NextendoMatchmaking.Matchmaking

open NextendoMatchmaking.Runs

/-- Every player has one connection, of the NAT class `nat`, when the request is carried out. -/
structure ClassesAre (nat : UInt64 → NATClass) (env : Env) (conn : Caller) : Prop where
  caller : classifyNAT env.natBehaviour.1 env.natBehaviour.2 = nat conn.pid
  others : ∀ pid, pidNATClass env pid = nat pid

/-- A create, an auto-match or a leave while the NAT classes are `nat`, or a disconnect. -/
def Matching (nat : UInt64 → NATClass) : Event → Prop
  | .request service conn req env =>
    (service = .extension ∧ (req.method = Method.createMatchmakeSessionWithParam ∨
        req.method = Method.autoMatchmakeWithParamPostpone) ∨
      service = .matchMakingExt ∧ req.method = Method.endParticipation) ∧ ClassesAre nat env conn
  | .removePlayer _ _ => True
  | _ => False

/-- Any two participants of a gathering can reach each other. -/
def Compatible (nat : UInt64 → NATClass) (m : Store) : Prop :=
  ∀ gid a b, SitsIn m a gid → SitsIn m b gid → a ≠ b → natCompatible (nat a) (nat b) = true

/-- The lobbies into which `autoMatchmake` may put the caller. -/
structure Eligible (env : Env) (conn : Caller) (src : MatchmakeSession) (g : GatheringEntry) : Prop where
  gameMode : g.session.gameMode = src.gameMode
  opened : g.session.openParticipation = true
  noPassword : g.session.userPasswordEnabled = false
  seat : (occupiedSeats g env.selectNow).1 < g.session.maxParticipants.toNat
  reachable : ∀ p ∈ g.participants, p ≠ conn.pid →
    natCompatible (classifyNAT env.natBehaviour.1 env.natBehaviour.2) (pidNATClass env p) = true

/-- What `autoMatchmake` does: the caller is a participant of an eligible gathering afterwards, or none is
eligible and the caller has a new one. -/
inductive Matched (env : Env) (conn : Caller) (src : MatchmakeSession) (m m' : Store) : Prop
  | joins {gid : UInt32} {g : GatheringEntry} (hg : m.gatherings.lookup gid = some g)
      (heligible : Eligible env conn src g)
      (hmembers : ∀ gid', m'.members gid' = if gid' = gid then
        some (if conn.pid ∈ g.participants then g.participants else g.participants ++ [conn.pid])
        else m.members gid')
  | opens (hnone : ∀ gid g, m.gatherings.lookup gid = some g → ¬ Eligible env conn src g)
      (hmembers : ∀ gid, m'.members gid = if gid = m.nextGID then some [conn.pid] else m.members gid)

variable {o : Options} {m m' : Store} {gid : UInt32} {g : GatheringEntry} {conn : Caller}
  {req : RMCMessage} {env : Env} {src : MatchmakeSession} {nat : UInt64 → NATClass} {e : Event}

/-! ### The candidate test -/

theorem natCompatible_comm (a b : NATClass) : natCompatible a b = natCompatible b a := by
  cases a <;> cases b <;> rfl

theorem gatheringNATCompatible_iff {joiner : NATClass} {members : List UInt64} {pid : UInt64} :
    gatheringNATCompatible env joiner members pid = true ↔
      ∀ p ∈ members, p ≠ pid → natCompatible joiner (pidNATClass env p) = true := by
  unfold gatheringNATCompatible
  rw [List.all_eq_true]
  refine forall₂_congr (fun p _ => ?_)
  rw [Bool.or_eq_true, beq_iff_eq, or_iff_not_imp_left]

/-- The candidate test decides eligibility: the seats are counted in 16 bits, and fit. -/
theorem suits_iff_eligible (hrep : Represented gid g) : Suits env conn src g ↔ Eligible env conn src g := by
  have hswept : GoMap.len (expireJoinReservations g env.selectNow).reservations ≤
      GoMap.len g.reservations := GoMap.len_deleteWhere_le _ _
  have hbound := hrep.bound
  have hseats : (occupiedSeats g env.selectNow).1 < 2 ^ 16 := by
    show g.participants.length + GoMap.len (expireJoinReservations g env.selectNow).reservations < 2 ^ 16
    omega
  have hcount : UInt16.ofNat (occupiedSeats g env.selectNow).1 < g.session.maxParticipants ↔
      (occupiedSeats g env.selectNow).1 < g.session.maxParticipants.toNat := by
    rw [UInt16.lt_iff_toNat_lt, UInt16.toNat_ofNat_of_lt' hseats]
  unfold Suits admissible qualifies
  simp only [Bool.and_eq_true, beq_iff_eq, Bool.not_eq_true', decide_eq_true_eq, hcount,
    gatheringNATCompatible_iff]
  constructor
  · rintro ⟨⟨⟨hmode, hopen⟩, hpassword⟩, hseat, hreach⟩
    exact ⟨hmode, hopen, hpassword, hseat, hreach⟩
  · intro h
    exact ⟨⟨⟨h.gameMode, h.opened⟩, h.noPassword⟩, h.seat, h.reachable⟩

/-! ### Soundness -/

/-- A player that the search seats can reach everybody who sits there. -/
theorem compatible_of_suits (hclasses : ClassesAre nat env conn) (hsuits : Suits env conn src g)
    {p : UInt64} (hp : p ∈ g.participants) (hne : p ≠ conn.pid) :
    natCompatible (nat conn.pid) (nat p) = true := by
  have hqualifies := hsuits.2
  unfold qualifies at hqualifies
  rw [Bool.and_eq_true, gatheringNATCompatible_iff] at hqualifies
  have hreach := hqualifies.2 p hp hne
  rwa [hclasses.caller, hclasses.others] at hreach

theorem compatible_request (hrep : m.Represented)
    (hmethod : req.method = Method.createMatchmakeSessionWithParam ∨
      req.method = Method.autoMatchmakeWithParamPostpone) (hclasses : ClassesAre nat env conn)
    (hm : Compatible nat m) (h : step o m (.request .extension conn req env) = some m') :
    Compatible nat m' := by
  have hjoin : Joins .extension req := ⟨rfl, hmethod.elim (.inr ∘ .inl) .inl⟩
  obtain ⟨reply, hseating⟩ := seating_step hrep hjoin h
  intro gid a b ha hb hne
  obtain ⟨ps, hps, ha⟩ := sitsIn_iff_members.mp ha
  obtain ⟨ps', hps', hb⟩ := sitsIn_iff_members.mp hb
  obtain rfl := Option.some.inj (hps.symm.trans hps')
  cases hseating with
  | opens _ hmembers _ =>
    rw [hmembers] at hps
    split at hps
    · cases hps
      rw [List.mem_singleton] at ha hb
      exact absurd (ha.trans hb.symm) hne
    · exact hm gid a b (sitsIn_of_members hps ha) (sitsIn_of_members hps hb) hne
  | same hmembers _ =>
    have hold : m.members gid = some ps := (hmembers gid).symm.trans hps
    exact hm gid a b (sitsIn_of_members hold ha) (sitsIn_of_members hold hb) hne
  | @joins gid₀ g hg hnot hfinds _ hmembers _ =>
    rw [hmembers] at hps
    split at hps
    · rename_i hgid
      subst hgid
      cases hps
      obtain ⟨src, hfound⟩ : ∃ src, (selectGathering env conn src env.order m.gatherings).1 = some gid := by
        cases hfinds with
        | search _ _ _ hfound => exact ⟨_, hfound⟩
        | direct hdirect _ _ =>
          rcases hmethod with hmethod | hmethod <;> rw [hmethod] at hdirect <;>
            exact absurd hdirect (by decide)
      obtain ⟨g', hg', hsuits⟩ := suits_of_found (enumerates_of_step h).1 hfound
      obtain rfl := Option.some.inj (hg.symm.trans hg')
      -- The pair is an old one, or the new player with an old one.
      rw [List.mem_append, List.mem_singleton] at ha hb
      rcases ha with ha | rfl
      · rcases hb with hb | rfl
        · exact hm gid a b ⟨_, hg, ha⟩ ⟨_, hg, hb⟩ hne
        · rw [natCompatible_comm]
          exact compatible_of_suits hclasses hsuits ha hne
      · rcases hb with hb | rfl
        · exact compatible_of_suits hclasses hsuits hb (Ne.symm hne)
        · exact absurd rfl hne
    · exact hm gid a b (sitsIn_of_members hps ha) (sitsIn_of_members hps hb) hne

theorem compatible_step (hrep : m.Represented)
    (he : Matching nat e) (hm : Compatible nat m) (h : step o m e = some m') : Compatible nat m' := by
  have hsmaller : (∀ service conn req env, e = .request service conn req env → ¬ Joins service req) →
      Compatible nat m' := fun hnot gid a b ha hb =>
    hm gid a b (sitsIn_of_not_joins h hnot ha) (sitsIn_of_not_joins h hnot hb)
  cases e with
  | request service conn req env =>
    obtain ⟨⟨rfl, hmethod⟩ | ⟨rfl, -⟩, hclasses⟩ := he
    · exact compatible_request hrep hmethod hclasses hm h
    · refine hsmaller (fun service conn' req' env' heq hjoin => ?_)
      cases heq
      cases hjoin.1
  | removePlayer pid order => exact hsmaller nofun
  | reserveJoin _ _ _ => exact absurd he id
  | cancelJoinReservation _ _ => exact absurd he id
  | setJoinReservationTTL _ => exact absurd he id

/-! ### Completeness -/

/-- Where a lobby suits the caller, the search ends at one. -/
theorem exists_found (horder : GoMap.Enumerates env.order m.gatherings) (hlobby : ¬ NoLobby env conn src m) :
    ∃ gid g, (selectGathering env conn src env.order m.gatherings).1 = some gid ∧
      m.gatherings.lookup gid = some g ∧ Suits env conn src g := by
  have hresult := searchResult env conn src horder.1 m.gatherings
  revert hresult
  generalize selectGathering env conn src env.order m.gatherings = found
  intro hresult
  cases hresult with
  | found hg hsuits _ _ => exact ⟨_, _, rfl, hg, hsuits⟩
  | nothing hall =>
    refine absurd (fun gid g hg => ?_) hlobby
    exact hall gid ((horder.2 gid).mpr (Finmap.mem_of_lookup_eq_some hg)) g hg

theorem matched_autoMatchmake (hrep : m.Represented) (horder : GoMap.Enumerates env.order m.gatherings)
    (hmethod : req.method = Method.autoMatchmakeWithParamPostpone)
    (hsrc : StreamIn.run (readAutoMatchmakeParam o.settings) req.body = (src, false))
    (hsolo : env.isSoloPID conn.pid ≠ true) (hswift : env.commitNow < env.reserveNow + m.reservationTTL) :
    Matched env conn src m (autoMatchmake o env conn req m).1 := by
  have hnone : NoLobby env conn src m →
      ∀ gid g, m.gatherings.lookup gid = some g → ¬ Eligible env conn src g := fun hno gid g hg heligible =>
    hno gid g hg ((suits_iff_eligible (hrep gid g hg)).mpr heligible)
  have hseating : Seating o env conn req m (autoMatchmake o env conn req m) :=
    seating_autoMatchmake hrep horder hmethod
  cases hseating with
  | opens hopens hmembers _ =>
    refine .opens (hnone ?_) hmembers
    cases hopens with
    | create hcreate _ =>
      rw [hmethod] at hcreate
      exact absurd hcreate (by decide)
    | auto _ hsrc' hown =>
      obtain rfl := (Prod.mk.inj (hsrc.symm.trans hsrc')).1
      exact hown.resolve_left hsolo
  | @joins gid g hg hnot hfinds _ hmembers _ =>
    cases hfinds with
    | search _ hsrc' _ hfound =>
      obtain rfl := (Prod.mk.inj (hsrc.symm.trans hsrc')).1
      obtain ⟨g', hg', hsuits⟩ := suits_of_found horder.1 hfound
      obtain rfl := Option.some.inj (hg.symm.trans hg')
      refine .joins hg ((suits_iff_eligible (hrep gid g hg)).mp hsuits) ?_
      rw [if_neg hnot]
      exact hmembers
    | direct hdirect _ _ =>
      rw [hmethod] at hdirect
      exact absurd hdirect (by decide)
  | same hmembers huntaken =>
    -- The search found a gathering that the caller is in.
    have hlobby : ¬ NoLobby env conn src m := fun hno =>
      huntaken m.nextGID (.opens (.auto hmethod hsrc (.inr hno)))
    obtain ⟨gid, g, hfound, hg, hsuits⟩ := exists_found horder hlobby
    have hin : conn.pid ∈ g.participants := by
      by_contra hnot
      exact huntaken gid (.joins hg hnot (.search hmethod hsrc hsolo hfound) hswift)
    refine .joins hg ((suits_iff_eligible (hrep gid g hg)).mp hsuits) (fun gid' => ?_)
    rw [if_pos hin, hmembers]
    split
    · rename_i hgid
      rw [hgid, members_of_lookup hg]
    · rfl

/-- **NAT-aware matching.**  In every run of creates, auto-matches, leaves and disconnects in which the NAT
class of a player's connection does not change, any two participants of a gathering are compatible.  And in
every reachable state, for every order of the search, an auto-match of a player that is not to play alone
makes it a participant of an eligible gathering, or opens a new one, the latter only when none is
eligible. -/
theorem nat_aware_matching (o : Options) :
    (∀ (nat : UInt64 → NATClass) (es : List Event) (m : Store), run (step o) newMatchmaking es = some m →
      (∀ e ∈ es, Matching nat e) → ∀ gid g, m.gatherings.lookup gid = some g →
        ∀ a ∈ g.participants, ∀ b ∈ g.participants, a ≠ b → natCompatible (nat a) (nat b) = true) ∧
    ∀ (m : Store), Reachable (step o) newMatchmaking m → ∀ (env : Env) (conn : Caller) (req : RMCMessage)
      (src : MatchmakeSession), GoMap.Enumerates env.order m.gatherings →
      req.method = Method.autoMatchmakeWithParamPostpone →
      StreamIn.run (readAutoMatchmakeParam o.settings) req.body = (src, false) →
      env.isSoloPID conn.pid = false → env.commitNow < env.reserveNow + m.reservationTTL →
      ∃ r, handle o env .extension conn req m = some r ∧ Matched env conn src m r.1 := by
  constructor
  · intro nat es m hrun hes gid g hg a ha b hb hne
    have hsteps : Steps (step o) (fun _ e => Matching nat e) newMatchmaking es :=
      steps_of_splits (fun es₁ e es₂ _ heq _ => hes e (heq ▸ List.mem_append_right _ List.mem_cons_self))
    have hstart : Compatible nat newMatchmaking := by
      intro gid a b ha
      obtain ⟨ps, hps, -⟩ := ha
      simp [newMatchmaking] at hps
    have hcompatible : Compatible nat m :=
      run_represented hstart (fun _ _ _ hrep he hm hstep => compatible_step hrep he hm hstep) hsteps hrun
    exact hcompatible gid a b ⟨_, hg, ha⟩ ⟨_, hg, hb⟩ hne
  · intro m hreach env conn req src horder hmethod hsrc hsolo hswift
    have hrep := represented_of_reachable hreach
    refine ⟨_, handle_autoMatchmake hmethod, ?_⟩
    exact matched_autoMatchmake hrep horder hmethod hsrc (by rw [hsolo]; decide) hswift

/-- The player 7 is behind a moderate NAT, 8 behind a strict one, the others behind open ones. -/
def reported (pid : UInt64) : UInt32 × UInt32 := if pid = 7 then (1, 2) else if pid = 8 then (2, 2) else (1, 1)

/-- A call of `pid` among connections with these NATs, on a server whose lobbies are open. -/
def natEnv (pid : UInt64) (order : List UInt32) : Env :=
  { quietEnv 0 order with
    creation := ⟨[], 0, true⟩
    natBehaviour := reported pid
    natOf := fun p => some (reported p) }

/-- An auto-match for a session with four seats. -/
def natRequest : RMCMessage :=
  { createRequest 4 with method := Method.autoMatchmakeWithParamPostpone }

def natEvent (pid : UInt64) (order : List UInt32) : Event :=
  .request .extension ⟨pid, 3⟩ natRequest (natEnv pid order)

/-- Three auto-matches: the second player is put into the lobby of the first, the third cannot reach it. -/
def natEvents : List Event := [natEvent 7 [], natEvent 9 [1], natEvent 8 [1]]

/-- The players of such a run, and the auto-match of the third. -/
theorem nat_aware_matching_strict : ∃ m₂ m₃,
    run (step plainOptions) newMatchmaking [natEvent 7 [], natEvent 9 [1]] = some m₂ ∧
      run (step plainOptions) newMatchmaking natEvents = some m₃ ∧
      m₃.members 1 = some [7, 9] ∧ m₃.members 2 = some [8] ∧
      natCompatible (classifyNAT 1 2) (classifyNAT 1 1) = true ∧
      ∃ src r, handle plainOptions (natEnv 8 [1]) .extension ⟨8, 3⟩ natRequest m₂ = some r ∧
        Matched (natEnv 8 [1]) ⟨8, 3⟩ src m₂ r.1 := by
  have heval : (run (step plainOptions) newMatchmaking natEvents).map
      (fun m => (m.members 1, m.members 2)) = some (some [7, 9], some [8]) := by decide +kernel
  have heval₂ : (run (step plainOptions) newMatchmaking [natEvent 7 [], natEvent 9 [1]]).map
      (fun m => (decide (GoMap.Enumerates [1] m.gatherings), decide ((0 : Int) < 0 + m.reservationTTL))) =
      some (true, true) := by decide +kernel
  obtain ⟨m₃, hm₃, hmembers⟩ := Option.map_eq_some_iff.mp heval
  obtain ⟨m₂, hm₂, hfacts⟩ := Option.map_eq_some_iff.mp heval₂
  simp only [Prod.mk.injEq, decide_eq_true_eq] at hmembers hfacts
  obtain ⟨g, hg, hps⟩ := exists_of_members hmembers.1
  obtain ⟨hsound, hcomplete⟩ := nat_aware_matching plainOptions
  have hmatching : ∀ e ∈ natEvents, Matching (fun pid => classifyNAT (reported pid).1 (reported pid).2) e := by
    intro e he
    simp only [natEvents, List.mem_cons, List.not_mem_nil, or_false] at he
    rcases he with rfl | rfl | rfl <;> exact ⟨.inl ⟨rfl, .inr rfl⟩, rfl, fun _ => rfl⟩
  have hpair := hsound _ natEvents m₃ hm₃ hmatching 1 g hg 7 (by rw [hps]; decide) 9 (by rw [hps]; decide)
    (by decide)
  obtain ⟨r, hr, hmatched⟩ := hcomplete m₂ ⟨_, hm₂⟩ (natEnv 8 [1]) ⟨8, 3⟩ natRequest
    (StreamIn.run (readAutoMatchmakeParam plainOptions.settings) natRequest.body).1 hfacts.1 rfl
    (by decide +kernel) rfl hfacts.2
  exact ⟨m₂, m₃, hm₂, hm₃, hmembers.1, hmembers.2, hpair, _, r, hr, hmatched⟩

end NextendoMatchmaking.Matchmaking
