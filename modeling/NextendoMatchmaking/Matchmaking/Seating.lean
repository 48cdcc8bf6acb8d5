import NextendoMatchmaking.Matchmaking.Opening

/-!
# Who sits where

The three requests that seat their caller, `autoMatchmake`, `createSession` and `joinSession`, seen at the
participants alone: a request takes a seat in one gathering (`TakesSeat`), or it leaves all participants as
they are.  `seating` says which, and whom the request then notifies.  All other operations only take
participants away (`sitsIn_of_not_joins`).
-/

namespace NextendoMatchmaking.Matchmaking

open NextendoMatchmaking.Runs Relation

/-- The participants of the gathering under `gid`, if it is live. -/
def Store.members (m : Store) (gid : UInt32) : Option (List UInt64) :=
  (m.gatherings.lookup gid).map (fun g => g.participants)

/-- The request turns to the gathering `g` under `gid`: the search of `autoMatchmake` ends there, or
`joinSession` names it and it has room. -/
inductive FindsSeat (o : Options) (env : Env) (conn : Caller) (req : RMCMessage) (m : Store) (gid : UInt32)
    (g : GatheringEntry) : Prop
  | search {src : MatchmakeSession} (hmethod : req.method = Method.autoMatchmakeWithParamPostpone)
      (hsrc : StreamIn.run (readAutoMatchmakeParam o.settings) req.body = (src, false))
      (hsolo : env.isSoloPID conn.pid ≠ true)
      (hfound : (selectGathering env conn src env.order m.gatherings).1 = some gid)
  | direct (hmethod : req.method = Method.joinMatchmakeSessionWithParam) (hgid : readJoinGID req = gid)
      (hroom : Room (expireJoinReservations g env.reserveNow) conn.pid)

/-- The request seats its caller in the gathering under `gid`: a gathering that it opens, or one that it
finds and where the caller does not sit yet, unless the reservation ends before it is committed. -/
inductive TakesSeat (o : Options) (env : Env) (conn : Caller) (req : RMCMessage) (m : Store) : UInt32 → Prop
  | opens (h : Opens o env conn req m) : TakesSeat o env conn req m m.nextGID
  | joins {gid : UInt32} {g : GatheringEntry} (hg : m.gatherings.lookup gid = some g)
      (hnot : conn.pid ∉ g.participants) (hfinds : FindsSeat o env conn req m gid g)
      (hswift : env.commitNow < env.reserveNow + m.reservationTTL) : TakesSeat o env conn req m gid

variable {o : Options} {m m' : Store} {gid : UInt32} {g : GatheringEntry} {service : Service}
  {conn : Caller} {req : RMCMessage} {env : Env} {src : MatchmakeSession} {ttl now commit : Int}
  {pid : UInt64} {e : Event} {r : Store × Reply}

/-! ### Participants -/

theorem members_of_lookup (h : m.gatherings.lookup gid = some g) : m.members gid = some g.participants := by
  unfold Store.members
  rw [h, Option.map_some]

theorem exists_of_members {ps : List UInt64} (h : m.members gid = some ps) :
    ∃ g, m.gatherings.lookup gid = some g ∧ g.participants = ps :=
  Option.map_eq_some_iff.mp h

theorem sitsIn_iff_members : SitsIn m pid gid ↔ ∃ ps, m.members gid = some ps ∧ pid ∈ ps := by
  constructor
  · rintro ⟨g, hg, hpid⟩
    exact ⟨g.participants, members_of_lookup hg, hpid⟩
  · rintro ⟨ps, hps, hpid⟩
    obtain ⟨g, hg, rfl⟩ := exists_of_members hps
    exact ⟨g, hg, hpid⟩

theorem sitsIn_of_members {ps : List UInt64} (h : m.members gid = some ps) (hpid : pid ∈ ps) : SitsIn m pid gid :=
  sitsIn_iff_members.mpr ⟨ps, h, hpid⟩

theorem members_put (m : Store) (gid gid' : UInt32) (g : GatheringEntry) :
    (m.put gid g).members gid' = if gid' = gid then some g.participants else m.members gid' := by
  unfold Store.members
  rw [lookup_put]
  split <;> rfl

/-- A gathering that is written with the participants it has. -/
theorem members_put_same {g' : GatheringEntry} (hg : m.gatherings.lookup gid = some g)
    (hps : g'.participants = g.participants) (gid' : UInt32) :
    (m.put gid g').members gid' = m.members gid' := by
  rw [members_put]
  split
  · rename_i hgid
    rw [hgid, members_of_lookup hg, hps]
  · rfl

/-- The search changes no participants. -/
theorem members_of_searched {gs : GoMap UInt32 GatheringEntry} (h : Searched env m.gatherings gs gid) :
    Store.members { m with gatherings := gs } gid = m.members gid := by
  unfold Store.members
  rcases h with hsame | ⟨g, hg, hexp⟩
  · exact congrArg _ hsame
  · dsimp only
    rw [hexp, hg]
    rfl

/-! ### A reservation and its commit -/

/-- What the commit of a fresh reservation gives, seen at the participants. -/
inductive Committed (ttl now commit : Int) (g : GatheringEntry) (pid : UInt64) : Bool × GatheringEntry → Prop
  | again {g'} (hpid : pid ∈ g.participants) (hps : g'.participants = g.participants)
      (hid : g'.session.id = g.session.id) : Committed ttl now commit g pid (false, g')
  | seated {g'} (hpid : pid ∉ g.participants) (hroom : Room (expireJoinReservations g now) pid)
      (hswift : commit < now + ttl) (hps : g'.participants = g.participants ++ [pid])
      (hid : g'.session.id = g.session.id) : Committed ttl now commit g pid (true, g')
  | lapsed {g'} (hpid : pid ∉ g.participants) (hslow : ¬ commit < now + ttl)
      (hps : g'.participants = g.participants) (hid : g'.session.id = g.session.id) :
      Committed ttl now commit g pid (false, g')

theorem committed (commit : Int) (h : (reserveJoin ttl now g pid).1 = true) :
    Committed ttl now commit g pid (commitReservedJoin commit (reserveJoin ttl now g pid).2 pid) := by
  have hresult := reserveResult ttl now g pid
  revert h hresult
  generalize reserveJoin ttl now g pid = result
  intro h hresult
  cases hresult with
  | seated hpid =>
    have hcontains : containsPID (releaseReservation g pid).participants pid = true :=
      containsPID_iff.mpr hpid
    unfold commitReservedJoin
    rw [if_pos hcontains]
    exact .again hpid rfl rfl
  | held hpid hroom =>
    have hpid' : pid ∉ (expireJoinReservations g now).participants := hpid
    dsimp only
    rw [commit_put _ _ hpid']
    split
    · rename_i hswift
      exact .seated hpid hroom hswift rfl rfl
    · rename_i hslow
      exact .lapsed hpid hslow rfl rfl
  | full _ _ => cases h

/-! ### The spec of the three requests -/

/-- What a request to join or to open does to the participants, and whom it notifies. -/
inductive Seating (o : Options) (env : Env) (conn : Caller) (req : RMCMessage) (m : Store)
    (r : Store × Reply) : Prop
  | opens (hopens : Opens o env conn req m)
      (hmembers : ∀ gid, r.1.members gid = if gid = m.nextGID then some [conn.pid] else m.members gid)
      (hpushes : r.2.pushes = notifyParticipation env conn [conn.pid] m.nextGID)
  | joins {gid : UInt32} {g : GatheringEntry} (hg : m.gatherings.lookup gid = some g)
      (hnot : conn.pid ∉ g.participants) (hfinds : FindsSeat o env conn req m gid g)
      (hswift : env.commitNow < env.reserveNow + m.reservationTTL)
      (hmembers : ∀ gid', r.1.members gid' =
        if gid' = gid then some (g.participants ++ [conn.pid]) else m.members gid')
      (hpushes : r.2.pushes = notifyParticipation env conn (g.participants ++ [conn.pid]) gid)
  | same (hmembers : ∀ gid, r.1.members gid = m.members gid)
      (hnone : ∀ gid, ¬ TakesSeat o env conn req m gid)

theorem members_createGathering (env : CreationEnv) (conn : Caller) (src : MatchmakeSession) (m : Store)
    (gid : UInt32) : (createGathering env conn src m).2.members gid =
      if gid = m.nextGID then some [conn.pid] else m.members gid :=
  members_put m m.nextGID gid (newGathering env conn m.nextGID src)

theorem participants_ownGathering (env : Env) (conn : Caller) (gid : UInt32) (src : MatchmakeSession) :
    (ownGathering env conn gid src).participants = [conn.pid] ∧
      (ownGathering env conn gid src).session.id = gid := by
  have hnew := (represented_newGathering env.creation conn gid src).id
  unfold ownGathering
  dsimp only
  split <;> exact ⟨rfl, hnew⟩

theorem members_openOwn (o : Options) (env : Env) (conn : Caller) (req : RMCMessage)
    (src : MatchmakeSession) (m : Store) (gid : UInt32) :
    (openOwn o env conn req src m).1.members gid =
      if gid = m.nextGID then some [conn.pid] else m.members gid := by
  show ((createGathering env.creation conn src m).2.put m.nextGID _).members gid = _
  rw [members_put, members_createGathering]
  split
  · exact congrArg some (participants_ownGathering env conn m.nextGID src).1
  · rfl

theorem pushes_openOwn (o : Options) (env : Env) (conn : Caller) (req : RMCMessage)
    (src : MatchmakeSession) (m : Store) :
    (openOwn o env conn req src m).2.pushes = notifyParticipation env conn [conn.pid] m.nextGID := by
  obtain ⟨hps, hid⟩ := participants_ownGathering env conn m.nextGID src
  show notifyParticipation env conn (ownGathering env conn m.nextGID src).participants
    (ownGathering env conn m.nextGID src).session.id = _
  rw [hps, hid]

/-- The request can be told by its method. -/
theorem not_takesSeat_of_unread (hmethod : req.method ≠ Method.joinMatchmakeSessionWithParam)
    (herr : (StreamIn.run (readAutoMatchmakeParam o.settings) req.body).2 = true) (gid : UInt32) :
    ¬ TakesSeat o env conn req m gid := by
  have hread : ∀ src, StreamIn.run (readAutoMatchmakeParam o.settings) req.body ≠ (src, false) := by
    intro src hsrc
    rw [hsrc] at herr
    cases herr
  intro h
  cases h with
  | opens hopens =>
    cases hopens with
    | create _ hsrc => exact hread _ hsrc
    | auto _ hsrc _ => exact hread _ hsrc
  | joins _ _ hfinds _ =>
    cases hfinds with
    | search _ hsrc _ _ => exact hread _ hsrc
    | direct hjoin _ _ => exact hmethod hjoin

theorem seating_createSession (hmethod : req.method = Method.createMatchmakeSessionWithParam) :
    Seating o env conn req m (createSession o env conn req m) := by
  cases hread : StreamIn.run (readAutoMatchmakeParam o.settings) req.body with
  | mk src err =>
    unfold createSession
    rw [hread]
    cases err with
    | true =>
      refine .same (fun _ => rfl) (not_takesSeat_of_unread ?_ (by rw [hread]))
      rw [hmethod]
      decide
    | false => exact .opens (.create hmethod hread) (members_createGathering _ _ _ _) rfl

/-- A seat that an automatic search finds is the one that its parameter selects. -/
theorem select_of_findsSeat {gid : UInt32} {g : GatheringEntry}
    (hmethod : req.method = Method.autoMatchmakeWithParamPostpone)
    (hsrc : StreamIn.run (readAutoMatchmakeParam o.settings) req.body = (src, false))
    (h : FindsSeat o env conn req m gid g) :
    (selectGathering env conn src env.order m.gatherings).1 = some gid := by
  cases h with
  | search _ hsrc' _ hfound =>
    obtain rfl : src = _ := (Prod.mk.inj (hsrc.symm.trans hsrc')).1
    exact hfound
  | direct hjoin _ _ =>
    rw [hmethod] at hjoin
    exact absurd hjoin (by decide)

/-- An automatic search opens no gathering where there is a lobby for it. -/
theorem not_opens_of_lobby (hmethod : req.method = Method.autoMatchmakeWithParamPostpone)
    (hsrc : StreamIn.run (readAutoMatchmakeParam o.settings) req.body = (src, false))
    (hsolo : env.isSoloPID conn.pid ≠ true) (hlobby : ¬ NoLobby env conn src m) :
    ¬ Opens o env conn req m := by
  intro h
  cases h with
  | create hcreate _ =>
    rw [hmethod] at hcreate
    exact absurd hcreate (by decide)
  | auto _ hsrc' hown =>
    obtain rfl : src = _ := (Prod.mk.inj (hsrc.symm.trans hsrc')).1
    exact hown.elim hsolo hlobby

/-- **`autoMatchmake` where the search finds a gathering**: it reserves a seat there, commits it and announces
what this gives. -/
theorem autoMatchmakeWith_found (hrep : m.Represented)
    (horder : GoMap.Enumerates env.order m.gatherings) (hsolo : env.isSoloPID conn.pid ≠ true)
    (hlobby : ¬ NoLobby env conn src m) :
    ∃ gid g gs, m.gatherings.lookup gid = some g ∧
      (selectGathering env conn src env.order m.gatherings).1 = some gid ∧
      gs.lookup gid = some (expireJoinReservations g env.selectNow) ∧
      (∀ gid', Searched env m.gatherings gs gid') ∧
      (reserveJoin m.reservationTTL env.reserveNow (expireJoinReservations g env.selectNow) conn.pid).1 = true ∧
      autoMatchmakeWith o env conn req m src =
        announce o env conn req gid (commitReservedJoin env.commitNow (reserveJoin m.reservationTTL
            env.reserveNow (expireJoinReservations g env.selectNow) conn.pid).2 conn.pid).2
          (Store.put { m with gatherings := gs } gid (reserveJoin m.reservationTTL env.reserveNow
            (expireJoinReservations g env.selectNow) conn.pid).2) := by
  have hresult := searchResult env conn src horder.1 m.gatherings
  have hsearched := selectGathering_searched env conn src env.order m.gatherings
  unfold autoMatchmakeWith
  rw [if_neg hsolo]
  revert hresult hsearched
  generalize selectGathering env conn src env.order m.gatherings = found
  intro hresult hsearched
  cases hresult with
  | nothing hall =>
    refine absurd (fun gid g hg => ?_) hlobby
    exact hall gid ((horder.2 gid).mpr (Finmap.mem_of_lookup_eq_some hg)) g hg
  | @found gid g gs hg hsuits hg' _ =>
    have hreserved := reserved_of_suits (hrep gid g hg) hsuits m.reservationTTL env.reserveNow conn.pid
    refine ⟨gid, g, gs, hg, rfl, hg', hsearched, hreserved, ?_⟩
    dsimp only [Option.bind_some]
    rw [hg']
    dsimp only [Option.map_some]
    rw [if_pos hreserved]

theorem seating_found (hrep : m.Represented) (horder : GoMap.Enumerates env.order m.gatherings)
    (hmethod : req.method = Method.autoMatchmakeWithParamPostpone)
    (hsrc : StreamIn.run (readAutoMatchmakeParam o.settings) req.body = (src, false))
    (hsolo : env.isSoloPID conn.pid ≠ true) (hlobby : ¬ NoLobby env conn src m) :
    Seating o env conn req m (autoMatchmakeWith o env conn req m src) := by
  obtain ⟨gid, g, gs, hg, hselected, hg', hsearched, hreserved, hanswer⟩ :=
    autoMatchmakeWith_found (o := o) hrep horder hsolo hlobby
  have hcommit := committed env.commitNow hreserved
  rw [hanswer]
  revert hcommit
  generalize commitReservedJoin env.commitNow _ conn.pid = result
  intro hcommit
  have hid : (expireJoinReservations g env.selectNow).session.id = gid := (hrep gid g hg).id
  -- Whatever the commit gives is announced under `gid`; no other gathering is written.
  have hput : ∀ g₁ g₂ gid', (((Store.put { m with gatherings := gs } gid g₁).put gid
      (refreshNumParticipants g₂)).members gid') =
      if gid' = gid then some g₂.participants else m.members gid' := by
    intro g₁ g₂ gid'
    rw [put_put, members_put, members_of_searched (hsearched gid')]
    rfl
  have hkept : ∀ g₁ g₂ : GatheringEntry, g₂.participants = g.participants → ∀ gid',
      ((Store.put { m with gatherings := gs } gid g₁).put gid (refreshNumParticipants g₂)).members gid' =
        m.members gid' := by
    intro g₁ g₂ hps gid'
    have hps' : (refreshNumParticipants g₂).participants = g.participants := hps
    rw [put_put]
    exact (members_put_same (m := { m with gatherings := gs }) hg' hps' gid').trans
      (members_of_searched (hsearched gid'))
  have hunseated : conn.pid ∈ g.participants ∨ ¬ env.commitNow < env.reserveNow + m.reservationTTL →
      ∀ gid', ¬ TakesSeat o env conn req m gid' := by
    intro hwhy gid' h
    cases h with
    | opens h => exact not_opens_of_lobby hmethod hsrc hsolo hlobby h
    | joins hg'' hnot h hswift =>
      obtain rfl := Option.some.inj (hselected.symm.trans (select_of_findsSeat hmethod hsrc h))
      obtain rfl := Option.some.inj (hg.symm.trans hg'')
      exact hwhy.elim hnot (fun hslow => hslow hswift)
  cases hcommit with
  | @again g₂ hpid hps _ =>
    exact .same (hkept _ g₂ hps) (hunseated (.inl hpid))
  | @lapsed g₂ _ hslow hps _ =>
    exact .same (hkept _ g₂ hps) (hunseated (.inr hslow))
  | @seated g₂ hpid _ hswift hps hid₂ =>
    refine .joins hg hpid (.search hmethod hsrc hsolo hselected) hswift (fun gid' => ?_) ?_
    · refine (hput _ _ gid').trans ?_
      rw [hps]
      rfl
    · show notifyParticipation env conn g₂.participants g₂.session.id = _
      rw [hps, hid₂, hid]
      rfl

theorem seating_autoMatchmake (hrep : m.Represented) (horder : GoMap.Enumerates env.order m.gatherings)
    (hmethod : req.method = Method.autoMatchmakeWithParamPostpone) :
    Seating o env conn req m (autoMatchmake o env conn req m) := by
  cases hread : StreamIn.run (readAutoMatchmakeParam o.settings) req.body with
  | mk src err =>
    unfold autoMatchmake
    rw [hread]
    cases err with
    | true =>
      refine .same (fun _ => rfl) (not_takesSeat_of_unread ?_ (by rw [hread]))
      rw [hmethod]
      decide
    | false =>
      show Seating o env conn req m (autoMatchmakeWith o env conn req m src)
      by_cases hown : env.isSoloPID conn.pid = true ∨ NoLobby env conn src m
      · obtain ⟨gs, hsearched, heq⟩ := autoMatchmakeWith_opens o req horder hown
        rw [heq]
        refine .opens (.auto hmethod hread hown) (fun gid => ?_) (pushes_openOwn ..)
        rw [members_openOwn, members_of_searched (hsearched gid)]
      · rw [not_or] at hown
        exact seating_found hrep horder hmethod hread hown.1 hown.2

/-- A seat that a direct join takes is in the gathering it names. -/
theorem takesSeat_direct (hmethod : req.method = Method.joinMatchmakeSessionWithParam)
    (h : TakesSeat o env conn req m gid) : ∃ g, m.gatherings.lookup (readJoinGID req) = some g ∧
      conn.pid ∉ g.participants ∧ Room (expireJoinReservations g env.reserveNow) conn.pid ∧
      env.commitNow < env.reserveNow + m.reservationTTL := by
  cases h with
  | opens h =>
    cases h with
    | create hcreate _ =>
      rw [hmethod] at hcreate
      exact absurd hcreate (by decide)
    | auto hauto _ _ =>
      rw [hmethod] at hauto
      exact absurd hauto (by decide)
  | joins hg hnot h hswift =>
    cases h with
    | search hauto _ _ _ =>
      rw [hmethod] at hauto
      exact absurd hauto (by decide)
    | direct _ hgid hroom => exact ⟨_, hgid ▸ hg, hnot, hroom, hswift⟩

theorem seating_joinSession (hmethod : req.method = Method.joinMatchmakeSessionWithParam) :
    Seating o env conn req m (joinGathering o env conn req m (readJoinGID req)) := by
  unfold joinGathering
  cases hg : m.gatherings.lookup (readJoinGID req) with
  | none =>
    refine .same (fun _ => rfl) (fun gid h => ?_)
    obtain ⟨g, hg', -⟩ := takesSeat_direct hmethod h
    rw [hg] at hg'
    cases hg'
  | some g =>
    have hunseated : (conn.pid ∉ g.participants → Room (expireJoinReservations g env.reserveNow) conn.pid →
        ¬ env.commitNow < env.reserveNow + m.reservationTTL) → ∀ gid, ¬ TakesSeat o env conn req m gid := by
      intro hwhy gid h
      obtain ⟨g', hg', hnot, hroom, hswift⟩ := takesSeat_direct hmethod h
      obtain rfl := Option.some.inj (hg.symm.trans hg')
      exact hwhy hnot hroom hswift
    dsimp only
    split
    · rename_i hcontains
      exact .same (members_put_same hg rfl) (hunseated (fun hnot => absurd (containsPID_iff.mp hcontains) hnot))
    · have hresult := reserveResult m.reservationTTL env.reserveNow g conn.pid
      cases hreserved : (reserveJoin m.reservationTTL env.reserveNow g conn.pid).1 with
      | false =>
        revert hresult hreserved
        generalize reserveJoin m.reservationTTL env.reserveNow g conn.pid = result
        intro hresult hreserved
        cases hresult with
        | seated _ => cases hreserved
        | held _ _ => cases hreserved
        | full _ hfull =>
          exact .same (members_put_same hg rfl) (hunseated (fun _ hroom => absurd hroom hfull))
      | true =>
        have hcommit := committed env.commitNow hreserved
        rw [if_pos rfl]
        revert hcommit
        generalize commitReservedJoin env.commitNow _ conn.pid = result
        intro hcommit
        cases hcommit with
        | @again g₂ hpid hps _ =>
          exact .same (members_put_same hg hps) (hunseated (fun hnot => absurd hpid hnot))
        | @lapsed g₂ _ hslow hps _ => exact .same (members_put_same hg hps) (hunseated (fun _ _ => hslow))
        | @seated g₂ hpid hroom hswift hps hid₂ =>
          refine .joins hg hpid (.direct hmethod rfl hroom) hswift (fun gid' => ?_) ?_
          · show (m.put (readJoinGID req) (refreshNumParticipants g₂)).members gid' = _
            rw [members_put, ← hps]
            rfl
          · show notifyParticipation env conn g₂.participants (readJoinGID req) = _
            rw [hps]

/-- **Spec of the requests that seat their caller.** -/
theorem seating (hrep : m.Represented)
    (horder : GoMap.Enumerates env.order m.gatherings) (hjoin : Joins .extension req)
    (h : handle o env .extension conn req m = some r) : Seating o env conn req m r := by
  rcases hjoin.2 with hmethod | hmethod | hmethod
  · rw [handle_autoMatchmake hmethod, Option.some.injEq] at h
    exact h ▸ seating_autoMatchmake hrep horder hmethod
  · rw [handle_createSession hmethod, Option.some.injEq] at h
    exact h ▸ seating_createSession hmethod
  · rw [handle_join hmethod, Option.some.injEq] at h
    exact h ▸ seating_joinSession hmethod

theorem seating_step (hrep : m.Represented)
    (hjoin : Joins .extension req) (h : step o m (.request .extension conn req env) = some m') :
    ∃ reply, Seating o env conn req m (m', reply) := by
  simp only [step] at h
  split at h
  · rename_i horder
    obtain ⟨r, hr, rfl⟩ := Option.map_eq_some_iff.mp h
    exact ⟨r.2, seating hrep horder hjoin hr⟩
  · cases h

/-- The gathering at which the search ends suits the caller. -/
theorem suits_of_found (horder : env.order.Nodup)
    (hfound : (selectGathering env conn src env.order m.gatherings).1 = some gid) :
    ∃ g, m.gatherings.lookup gid = some g ∧ Suits env conn src g := by
  have hresult := searchResult env conn src horder m.gatherings
  revert hresult hfound
  generalize selectGathering env conn src env.order m.gatherings = found
  intro hfound hresult
  cases hresult with
  | found hg hsuits _ _ =>
    obtain rfl := Option.some.inj hfound
    exact ⟨_, hg, hsuits⟩
  | nothing _ => cases hfound

/-- A request that opens a gathering finds none. -/
theorem not_findsSeat_of_opens (horder : env.order.Nodup) (hopens : Opens o env conn req m) :
    ¬ FindsSeat o env conn req m gid g := by
  intro hfinds
  cases hfinds with
  | search hmethod hsrc hsolo hfound =>
    cases hopens with
    | create hcreate _ =>
      rw [hmethod] at hcreate
      exact absurd hcreate (by decide)
    | auto _ hsrc' hown =>
      obtain rfl := (Prod.mk.inj (hsrc.symm.trans hsrc')).1
      obtain ⟨g', hg', hsuits⟩ := suits_of_found horder hfound
      exact hown.resolve_left hsolo gid g' hg' hsuits
  | direct hmethod _ _ =>
    cases hopens with
    | create hcreate _ =>
      rw [hmethod] at hcreate
      exact absurd hcreate (by decide)
    | auto hauto _ _ =>
      rw [hmethod] at hauto
      exact absurd hauto (by decide)

/-- A request finds one gathering. -/
theorem findsSeat_unique {gid' : UInt32} {g' : GatheringEntry} (h : FindsSeat o env conn req m gid g)
    (h' : FindsSeat o env conn req m gid' g') : gid = gid' := by
  cases h with
  | search hmethod hsrc _ hfound =>
    cases h' with
    | search _ hsrc' _ hfound' =>
      obtain rfl := (Prod.mk.inj (hsrc.symm.trans hsrc')).1
      exact Option.some.inj (hfound.symm.trans hfound')
    | direct hmethod' _ _ =>
      rw [hmethod] at hmethod'
      exact absurd hmethod' (by decide)
  | direct hmethod hgid _ =>
    cases h' with
    | search hmethod' _ _ _ =>
      rw [hmethod] at hmethod'
      exact absurd hmethod' (by decide)
    | direct _ hgid' _ => exact hgid.symm.trans hgid'

theorem takesSeat_unique {gid' : UInt32} (horder : env.order.Nodup) (h : TakesSeat o env conn req m gid)
    (h' : TakesSeat o env conn req m gid') : gid = gid' := by
  cases h with
  | opens hopens =>
    cases h' with
    | opens _ => rfl
    | joins _ _ hfinds _ => exact absurd hfinds (not_findsSeat_of_opens horder hopens)
  | joins _ _ hfinds _ =>
    cases h' with
    | opens hopens => exact absurd hfinds (not_findsSeat_of_opens horder hopens)
    | joins _ _ hfinds' _ => exact findsSeat_unique hfinds hfinds'

/-- The order of a request that is carried out visits each gathering once. -/
theorem enumerates_of_step (h : step o m (.request service conn req env) = some m') :
    GoMap.Enumerates env.order m.gatherings := by
  simp only [step] at h
  split at h
  · assumption
  · cases h

/-- **Who sits where after a request to join or to open.** -/
theorem sitsIn_step (hrep : m.Represented)
    (hjoin : Joins .extension req) (h : step o m (.request .extension conn req env) = some m') :
    (∀ gid, TakesSeat o env conn req m gid → SitsIn m' conn.pid gid) ∧
      (∀ gid pid, SitsIn m' pid gid → SitsIn m pid gid ∨ pid = conn.pid ∧ TakesSeat o env conn req m gid) ∧
      (∀ gid pid, SitsIn m pid gid → ¬ TakesSeat o env conn req m gid → SitsIn m' pid gid) := by
  have horder := (enumerates_of_step h).1
  obtain ⟨reply, hseating⟩ := seating_step hrep hjoin h
  simp only [sitsIn_iff_members]
  cases hseating with
  | opens hopens hmembers _ =>
    refine ⟨fun gid htakes => ?_, fun gid pid hsits => ?_, fun gid pid hsits hnot => ?_⟩
    · obtain rfl := takesSeat_unique horder htakes (.opens hopens)
      exact ⟨[conn.pid], by rw [hmembers, if_pos rfl], List.mem_singleton_self _⟩
    · obtain ⟨ps, hps, hpid⟩ := hsits
      rw [hmembers] at hps
      split at hps
      · rename_i hgid
        subst hgid
        cases hps
        exact .inr ⟨List.mem_singleton.mp hpid, .opens hopens⟩
      · exact .inl ⟨ps, hps, hpid⟩
    · obtain ⟨ps, hps, hpid⟩ := hsits
      have hgid : gid ≠ m.nextGID := fun heq => hnot (heq ▸ .opens hopens)
      exact ⟨ps, by rw [hmembers, if_neg hgid, hps], hpid⟩
  | @joins gid₀ g hg hnot hfinds hswift hmembers _ =>
    have htakes₀ : TakesSeat o env conn req m gid₀ := .joins hg hnot hfinds hswift
    refine ⟨fun gid htakes => ?_, fun gid pid hsits => ?_, fun gid pid hsits hnot' => ?_⟩
    · obtain rfl := takesSeat_unique horder htakes htakes₀
      exact ⟨_, by rw [hmembers, if_pos rfl], List.mem_append_right _ (List.mem_singleton_self _)⟩
    · obtain ⟨ps, hps, hpid⟩ := hsits
      rw [hmembers] at hps
      split at hps
      · rename_i hgid
        subst hgid
        cases hps
        rcases List.mem_append.mp hpid with hold | hnew
        · exact .inl ⟨_, members_of_lookup hg, hold⟩
        · exact .inr ⟨List.mem_singleton.mp hnew, htakes₀⟩
      · exact .inl ⟨ps, hps, hpid⟩
    · obtain ⟨ps, hps, hpid⟩ := hsits
      have hgid : gid ≠ gid₀ := fun heq => hnot' (heq ▸ htakes₀)
      exact ⟨ps, by rw [hmembers, if_neg hgid, hps], hpid⟩
  | same hmembers hnone =>
    refine ⟨fun gid htakes => absurd htakes (hnone gid), fun gid pid hsits => .inl ?_,
      fun gid pid hsits _ => ?_⟩
    · obtain ⟨ps, hps, hpid⟩ := hsits
      exact ⟨ps, (hmembers gid).symm.trans hps, hpid⟩
    · obtain ⟨ps, hps, hpid⟩ := hsits
      exact ⟨ps, (hmembers gid).trans hps, hpid⟩

/-! ### The other operations -/

/-- A touch that is no join seats nobody. -/
theorem participants_touch {g' : GatheringEntry} (t : Touch o ttl gid e g g')
    (hjoin : ∀ service conn req env, e = .request service conn req env → ¬ Joins service req) :
    ∀ p ∈ g'.participants, p ∈ g.participants := by
  intro p hp
  rcases mem_touch t hp with hp | ⟨service, conn, req, env, he, hjoins, -, -⟩
  · exact hp
  · exact absurd hjoins (hjoin service conn req env he)

/-- All other operations seat nobody. -/
theorem sitsIn_of_not_joins (h : step o m e = some m')
    (hjoin : ∀ service conn req env, e = .request service conn req env → ¬ Joins service req)
    (hsits : SitsIn m' pid gid) : SitsIn m pid gid := by
  obtain ⟨g', hg', hpid⟩ := hsits
  cases (step_described h).change gid with
  | @kept g g'' hg h' t _ =>
    obtain rfl := Option.some.inj (hg'.symm.trans h')
    have hkept : pid ∈ g'.participants → pid ∈ g.participants :=
      touches_keep (P := fun g' => pid ∈ g'.participants → pid ∈ g.participants)
        (fun ih t hp => ih (participants_touch t hjoin pid hp)) (fun hp => hp) t
    exact ⟨g, hg, hkept hpid⟩
  | gone h' _ =>
    rw [h'] at hg'
    cases hg'
  | fresh he h _ _ _ _ => exact absurd h (hjoin _ _ _ _ he)

/-- **Run rule for the store.**  Along a run whose steps all meet `C`, a step may use that the gatherings are
represented. -/
theorem run_represented {C : Store → Event → Prop} {P : Store → Prop} (hstart : P newMatchmaking)
    (hstep : ∀ m e m', m.Represented → C m e → P m → step o m e = some m' → P m')
    {es : List Event} {m : Store} (hC : Steps (step o) C newMatchmaking es)
    (hrun : run (step o) newMatchmaking es = some m) : P m := by
  have hinv : m.Represented ∧ P m := by
    refine run_invariant_of_steps (P := fun m => m.Represented ∧ P m) ?_ hC ⟨?_, hstart⟩ hrun
    · intro m e m' he hm hnext
      exact ⟨represented_step hm.1 hnext, hstep m e m' hm.1 he hm.2 hnext⟩
    · intro gid g hg
      simp [newMatchmaking] at hg
  exact hinv.2

end NextendoMatchmaking.Matchmaking
