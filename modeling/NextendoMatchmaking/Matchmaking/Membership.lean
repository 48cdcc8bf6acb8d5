import NextendoMatchmaking.Matchmaking.Seating
import NextendoMatchmaking.Wire.RoundTrip

/-!
# Coming and going

What the answer to a join promises, and what is left of a player that is gone.

`autoMatchmake` and `joinSession` reserve a seat and then commit it, with two readings of the clock.  When a
whole reservation time lies between them the commit fails, but the answer is the same as after a success:
`success_is_membership_iff` says exactly when an answer with a session means that the caller sits in it.

`RemovePlayer` goes over all gatherings and has a different outcome for each; `removePlayer_cleans_up` says
that nothing of the player stays, and nothing of the others goes.
-/

namespace NextendoMatchmaking.Matchmaking

open NextendoMatchmaking.Runs

variable {o : Options} {m m' : Store} {gid : UInt32} {g g' : GatheringEntry} {conn : Caller}
  {req : RMCMessage} {env : Env} {src : MatchmakeSession} {pid : UInt64} {r : Store × Reply}

/-! ### Answers with a session -/

/-- The request is answered with success and a session of the id `gid`. -/
def AnswersSession (o : Options) (env : Env) (req : RMCMessage) (reply : Reply) (gid : UInt32) : Prop :=
  ∃ session : MatchmakeSession, session.id = gid ∧
    reply.response = some (newRMCSuccess protocolMatchmakeExtension req.method req.callID
      (sessionBody o env session))

/-- The id comes first in an encoded session, behind the header of its level if there is one. -/
theorem id_of_write (s : Settings) (order : List Bytes) (session : MatchmakeSession) :
    ((session.write s order).drop (if s.structHeader then 5 else 0)).take 4 = StreamOut.u32 session.id := by
  obtain ⟨rest, hrest⟩ : ∃ rest, Gathering.save s session.toGathering = StreamOut.u32 session.id ++ rest := by
    simp only [Gathering.save, List.append_assoc]
    exact ⟨_, rfl⟩
  have hfront : ∀ more : Bytes, (StreamOut.u32 session.id ++ more).take 4 = StreamOut.u32 session.id :=
    fun more => List.take_left' (length_leBytes 4 _)
  unfold MatchmakeSession.write writeLevel
  rw [hrest]
  cases s.structHeader with
  | true =>
    rw [if_pos rfl, if_pos rfl, StreamOut.buffer, List.append_assoc, List.append_assoc, List.append_assoc]
    exact hfront _
  | false =>
    rw [if_neg Bool.false_ne_true, if_neg Bool.false_ne_true, List.append_assoc]
    exact hfront _

theorem u32_injective {a b : UInt32} (h : StreamOut.u32 a = StreamOut.u32 b) : a = b := by
  have hnat := congrArg leNat h
  rw [StreamOut.u32, StreamOut.u32, leNat_leBytes 4 _ a.toNat_lt, leNat_leBytes 4 _ b.toNat_lt] at hnat
  exact UInt32.toNat_inj.mp hnat

/-- The answer with a session is an answer with its id and no other. -/
theorem answersSession_iff {reply : Reply} {session : MatchmakeSession}
    (h : reply.response = some (newRMCSuccess protocolMatchmakeExtension req.method req.callID
      (sessionBody o env session))) : AnswersSession o env req reply gid ↔ gid = session.id := by
  constructor
  · rintro ⟨session', rfl, h'⟩
    have hbody : sessionBody o env session' = sessionBody o env session :=
      congrArg RMCMessage.body (Option.some.inj (h'.symm.trans h))
    apply u32_injective
    rw [← id_of_write o.settings (env.paramOrder 0), ← id_of_write o.settings (env.paramOrder 0)]
    exact congrArg (fun bytes : Bytes => (bytes.drop (if o.settings.structHeader then 5 else 0)).take 4) hbody
  · rintro rfl
    exact ⟨session, rfl, h⟩

theorem not_answersSession_failure (code gid : UInt32) : ¬ AnswersSession o env req (failure req code) gid := by
  rintro ⟨session, -, h⟩
  have hflag := congrArg RMCMessage.isError (Option.some.inj h)
  exact Bool.false_ne_true hflag.symm

/-! ### The seat that a request finds -/

/-- The first gathering in the order of the iteration that suits the caller. -/
def firstToSuit (env : Env) (conn : Caller) (src : MatchmakeSession) (m : Store) : Option UInt32 :=
  env.order.find? (fun gid => (m.gatherings.lookup gid).any (fun g =>
    admissible src g && qualifies env conn g (occupiedSeats g env.selectNow).1))

/-- The search of `autoMatchmake` ends there: what it expires on its way does not matter. -/
theorem selectGathering_first {gs₀ gs : GoMap UInt32 GatheringEntry} {order : List UInt32}
    (horder : order.Nodup) (hsame : ∀ gid ∈ order, gs.lookup gid = gs₀.lookup gid) :
    (selectGathering env conn src order gs).1 =
      order.find? (fun gid => (gs₀.lookup gid).any (fun g =>
        admissible src g && qualifies env conn g (occupiedSeats g env.selectNow).1)) := by
  induction order generalizing gs with
  | nil => rfl
  | cons gid rest ih =>
    obtain ⟨hnot, hrest⟩ := List.nodup_cons.mp horder
    have hsame' : ∀ gid' ∈ rest, gs.lookup gid' = gs₀.lookup gid' := fun gid' hgid' =>
      hsame gid' (List.mem_cons_of_mem _ hgid')
    have hins : ∀ g, ∀ gid' ∈ rest, (gs.insert gid g).lookup gid' = gs₀.lookup gid' := by
      intro g gid' hgid'
      have hne : gid' ≠ gid := fun heq => hnot (heq ▸ hgid')
      rw [Finmap.lookup_insert_of_ne gs hne]
      exact hsame' gid' hgid'
    unfold selectGathering
    rw [List.find?_cons, ← hsame gid List.mem_cons_self]
    cases gs.lookup gid with
    | none => exact ih hrest hsame'
    | some cand =>
      dsimp only [Option.any_some]
      cases admissible src cand with
      | false => exact ih hrest hsame'
      | true =>
        rw [if_pos rfl, Bool.true_and]
        cases qualifies env conn cand (occupiedSeats cand env.selectNow).1 with
        | false => exact ih hrest (hins _)
        | true => rfl

/-- The caller would take a seat where it does not sit yet, but a whole reservation time passes between the
two readings of the clock. -/
inductive Lapses (o : Options) (env : Env) (conn : Caller) (req : RMCMessage) (m : Store) : Prop
  | search {src : MatchmakeSession} {gid : UInt32} {g : GatheringEntry}
      (hmethod : req.method = Method.autoMatchmakeWithParamPostpone)
      (hsrc : StreamIn.run (readAutoMatchmakeParam o.settings) req.body = (src, false))
      (hsolo : env.isSoloPID conn.pid ≠ true) (hfirst : firstToSuit env conn src m = some gid)
      (hg : m.gatherings.lookup gid = some g) (hnot : conn.pid ∉ g.participants)
      (hslow : env.reserveNow + m.reservationTTL ≤ env.commitNow)
  | direct {g : GatheringEntry} (hmethod : req.method = Method.joinMatchmakeSessionWithParam)
      (hg : m.gatherings.lookup (readJoinGID req) = some g) (hnot : conn.pid ∉ g.participants)
      (hroom : Room (expireJoinReservations g env.reserveNow) conn.pid)
      (hslow : env.reserveNow + m.reservationTTL ≤ env.commitNow)

theorem lapses_iff (horder : env.order.Nodup) : Lapses o env conn req m ↔
    ∃ gid g, m.gatherings.lookup gid = some g ∧ conn.pid ∉ g.participants ∧
      FindsSeat o env conn req m gid g ∧ env.reserveNow + m.reservationTTL ≤ env.commitNow := by
  have hselect : ∀ src, (selectGathering env conn src env.order m.gatherings).1 =
      firstToSuit env conn src m := fun src => selectGathering_first horder (fun _ _ => rfl)
  constructor
  · intro h
    cases h with
    | search hmethod hsrc hsolo hfirst hg hnot hslow =>
      exact ⟨_, _, hg, hnot, .search hmethod hsrc hsolo ((hselect _).trans hfirst), hslow⟩
    | direct hmethod hg hnot hroom hslow => exact ⟨_, _, hg, hnot, .direct hmethod rfl hroom, hslow⟩
  · rintro ⟨gid, g, hg, hnot, hfinds, hslow⟩
    cases hfinds with
    | search hmethod hsrc hsolo hfound =>
      exact .search hmethod hsrc hsolo ((hselect _).symm.trans hfound) hg hnot hslow
    | direct hmethod hgid hroom => exact .direct hmethod (hgid ▸ hg) hnot hroom hslow

/-! ### What a join comes to -/

/-- The caller sits in the gathering `gid`, once, and of the others only reservations have expired. -/
structure Membership (env : Env) (conn : Caller) (m m' : Store) (gid : UInt32) : Prop where
  once : ∃ g, m'.gatherings.lookup gid = some g ∧ g.participants.count conn.pid = 1
  others : ∀ gid' ≠ gid, Searched env m.gatherings m'.gatherings gid'

/-- The outcomes of a request to be matched or to join. -/
inductive JoinOutcome (o : Options) (env : Env) (conn : Caller) (req : RMCMessage) (m : Store)
    (r : Store × Reply) : Prop
  | refused (hanswer : ∀ gid, ¬ AnswersSession o env req r.2 gid) (hlapses : ¬ Lapses o env conn req m)
  | seated (gid : UInt32) (hanswer : ∀ gid', AnswersSession o env req r.2 gid' ↔ gid' = gid)
      (hmember : Membership env conn m r.1 gid) (hlapses : ¬ Lapses o env conn req m)
  | lapsed (gid : UInt32) (g : GatheringEntry)
      (hanswer : ∀ gid', AnswersSession o env req r.2 gid' ↔ gid' = gid)
      (hg : r.1.gatherings.lookup gid = some g) (hnot : conn.pid ∉ g.participants)
      (hlapses : Lapses o env conn req m)

/-- An answer with a session means membership, unless the seat lapses. -/
theorem JoinOutcome.membership_iff (h : JoinOutcome o env conn req m r) :
    (∀ gid, AnswersSession o env req r.2 gid → Membership env conn m r.1 gid) ↔
      ¬ Lapses o env conn req m := by
  cases h with
  | refused hanswer hlapses => exact iff_of_true (fun gid h => absurd h (hanswer gid)) hlapses
  | seated gid₀ hanswer hmember hlapses =>
    refine iff_of_true (fun gid h => ?_) hlapses
    rw [(hanswer gid).mp h]
    exact hmember
  | lapsed gid g hanswer hg hnot hlapses =>
    refine iff_of_false (fun hall => ?_) (not_not.mpr hlapses)
    obtain ⟨g', hg', hcount⟩ := (hall gid ((hanswer gid).mpr rfl)).once
    obtain rfl := Option.some.inj (hg.symm.trans hg')
    rw [List.count_eq_zero.mpr hnot] at hcount
    exact absurd hcount (by decide)

/-- A reservation that is committed gives the caller its one seat, or it lapses. -/
theorem Committed.seat_or_lapse {ttl now commit : Int} {result : Bool × GatheringEntry}
    (h : Committed ttl now commit g pid result) (hnodup : g.participants.Nodup) :
    result.2.session.id = g.session.id ∧ (result.2.participants.count pid = 1 ∧
        (pid ∈ g.participants ∨ commit < now + ttl) ∨
      result.2.participants = g.participants ∧ pid ∉ g.participants ∧ now + ttl ≤ commit) := by
  cases h with
  | again hpid hps hid =>
    refine ⟨hid, .inl ⟨?_, .inl hpid⟩⟩
    rw [hps]
    exact List.count_eq_one_of_mem hnodup hpid
  | seated hpid _ hswift hps hid =>
    refine ⟨hid, .inl ⟨?_, .inr hswift⟩⟩
    rw [hps, List.count_append, List.count_eq_zero.mpr hpid, List.count_singleton_self]
  | lapsed hpid hslow hps hid => exact ⟨hid, .inr ⟨hps, hpid, Int.not_lt.mp hslow⟩⟩

/-- A write of the gathering that the caller sits in, after a search. -/
theorem membership_put {m₁ : Store} (hsearched : ∀ gid', Searched env m.gatherings m₁.gatherings gid')
    (hcount : g.participants.count conn.pid = 1) : Membership env conn m (m₁.put gid g) gid where
  once := ⟨g, by rw [lookup_put, if_pos rfl], hcount⟩
  others := by
    intro gid' hne
    have hlookup : (m₁.put gid g).gatherings.lookup gid' = m₁.gatherings.lookup gid' := by
      rw [lookup_put, if_neg hne]
    rw [Searched, hlookup]
    exact hsearched gid'

theorem answersSession_announce (g : GatheringEntry) (m : Store) (gid gid' : UInt32) :
    AnswersSession o env req (announce o env conn req gid g m).2 gid' ↔ gid' = g.session.id := by
  show _ ↔ gid' = (refreshNumParticipants g).session.id
  exact answersSession_iff rfl

theorem answersSession_answerJoin (existing : ℕ) (joined : Bool) (g : GatheringEntry) (m : Store)
    (gid gid' : UInt32) :
    AnswersSession o env req (answerJoin o env conn req gid existing joined g m).2 gid' ↔
      gid' = g.session.id := by
  have hid : (if o.joinRespExistingCount && joined then
      { (refreshNumParticipants g).session with numParticipants := UInt32.ofNat existing }
      else (refreshNumParticipants g).session).id = g.session.id := by split <;> rfl
  rw [← hid]
  exact answersSession_iff rfl

/-- **A committed reservation**, whose gathering is stored and answered with: the caller has its seat, or the
seat has lapsed. -/
theorem outcome_committed {m₁ : Store} {result : Bool × GatheringEntry}
    (hcommitted : Committed m.reservationTTL env.reserveNow env.commitNow g conn.pid result)
    (hnodup : g.participants.Nodup) (hid : g.session.id = gid)
    (hsearched : ∀ gid', Searched env m.gatherings m₁.gatherings gid')
    (hstore : r.1 = m₁.put gid (refreshNumParticipants result.2))
    (hanswer : ∀ gid', AnswersSession o env req r.2 gid' ↔ gid' = result.2.session.id)
    (hlapses : Lapses o env conn req m ↔
      conn.pid ∉ g.participants ∧ env.reserveNow + m.reservationTTL ≤ env.commitNow) :
    JoinOutcome o env conn req m r := by
  obtain ⟨hid', hseat⟩ := hcommitted.seat_or_lapse hnodup
  have hgid : ∀ gid', AnswersSession o env req r.2 gid' ↔ gid' = gid := by
    intro gid'
    rw [hanswer, hid', hid]
  rcases hseat with ⟨hcount, hwhy⟩ | ⟨hps, hnot, hslow⟩
  · refine .seated gid hgid ?_ ?_
    · rw [hstore]
      exact membership_put hsearched hcount
    · rw [hlapses]
      rintro ⟨hnot, hslow⟩
      exact hwhy.elim hnot (Int.not_lt.mpr hslow)
  · refine .lapsed gid (refreshNumParticipants result.2) hgid ?_ ?_ (hlapses.mpr ⟨hnot, hslow⟩)
    · rw [hstore, lookup_put, if_pos rfl]
    · show conn.pid ∉ result.2.participants
      rw [hps]
      exact hnot

/-! ### `joinSession` -/

theorem lapses_direct (hmethod : req.method = Method.joinMatchmakeSessionWithParam)
    (h : Lapses o env conn req m) : ∃ g, m.gatherings.lookup (readJoinGID req) = some g ∧
      conn.pid ∉ g.participants ∧ Room (expireJoinReservations g env.reserveNow) conn.pid ∧
      env.reserveNow + m.reservationTTL ≤ env.commitNow := by
  cases h with
  | search hauto _ _ _ _ _ _ =>
    rw [hmethod] at hauto
    exact absurd hauto (by decide)
  | direct _ hg hnot hroom hslow => exact ⟨_, hg, hnot, hroom, hslow⟩

/-- Somebody who does not sit there yet is let in just when there is room. -/
theorem reserved_iff_room (ttl now : Int) (hnot : pid ∉ g.participants) :
    (reserveJoin ttl now g pid).1 = true ↔ Room (expireJoinReservations g now) pid := by
  have hresult := reserveResult ttl now g pid
  revert hresult
  generalize reserveJoin ttl now g pid = result
  intro hresult
  cases hresult with
  | seated hpid => exact absurd hpid hnot
  | held _ hroom => exact iff_of_true rfl hroom
  | full _ hfull => exact iff_of_false Bool.false_ne_true hfull

theorem outcome_joinSession (hrep : m.Represented)
    (hmethod : req.method = Method.joinMatchmakeSessionWithParam) :
    JoinOutcome o env conn req m (joinGathering o env conn req m (readJoinGID req)) := by
  unfold joinGathering
  cases hg : m.gatherings.lookup (readJoinGID req) with
  | none =>
    refine .refused (not_answersSession_failure _) (fun h => ?_)
    obtain ⟨g, hg', -⟩ := lapses_direct hmethod h
    rw [hg] at hg'
    cases hg'
  | some g =>
    have hid := (hrep _ g hg).id
    have hnodup := (hrep _ g hg).nodup
    have hlapses : Lapses o env conn req m ↔ conn.pid ∉ g.participants ∧
        Room (expireJoinReservations g env.reserveNow) conn.pid ∧
        env.reserveNow + m.reservationTTL ≤ env.commitNow := by
      constructor
      · intro h
        obtain ⟨g', hg', hlapse⟩ := lapses_direct hmethod h
        obtain rfl := Option.some.inj (hg.symm.trans hg')
        exact hlapse
      · rintro ⟨hnot, hroom, hslow⟩
        exact .direct hmethod hg hnot hroom hslow
    dsimp only
    by_cases hmem : conn.pid ∈ g.participants
    · rw [if_pos (containsPID_iff.mpr hmem)]
      refine .seated (readJoinGID req) (fun gid' => ?_) ?_ (fun h => (hlapses.mp h).1 hmem)
      · rw [answersSession_answerJoin, hid]
      · exact membership_put (searched_refl env m.gatherings) (List.count_eq_one_of_mem hnodup hmem)
    · rw [if_neg (fun hcontains => hmem (containsPID_iff.mp hcontains))]
      by_cases hroom : Room (expireJoinReservations g env.reserveNow) conn.pid
      · have hreserved := (reserved_iff_room m.reservationTTL env.reserveNow hmem).mpr hroom
        rw [if_pos hreserved]
        refine outcome_committed (committed env.commitNow hreserved) hnodup hid
          (searched_refl env m.gatherings) rfl (fun gid' => answersSession_answerJoin _ _ _ _ _ _) ?_
        rw [hlapses]
        exact ⟨fun h => ⟨h.1, h.2.2⟩, fun h => ⟨h.1, hroom, h.2⟩⟩
      · rw [if_neg (fun hreserved => hroom ((reserved_iff_room _ _ hmem).mp hreserved))]
        exact .refused (not_answersSession_failure _) (fun h => hroom (hlapses.mp h).2.1)

/-! ### `autoMatchmake` -/

/-- `autoMatchmake` opens a gathering of its own. -/
theorem outcome_openOwn {gs : GoMap UInt32 GatheringEntry} (horder : env.order.Nodup)
    (hopens : Opens o env conn req m) (hsearched : ∀ gid, Searched env m.gatherings gs gid) :
    JoinOutcome o env conn req m (openOwn o env conn req src { m with gatherings := gs }) := by
  obtain ⟨hps, hid⟩ := participants_ownGathering env conn m.nextGID src
  refine .seated m.nextGID (fun gid' => ?_) ?_ ?_
  · show AnswersSession o env req (announce o env conn req m.nextGID
      (ownGathering env conn m.nextGID src) _).2 gid' ↔ _
    rw [answersSession_announce, hid]
  · refine ⟨⟨refreshNumParticipants (ownGathering env conn m.nextGID src), ?_, ?_⟩, ?_⟩
    · show (Store.put _ m.nextGID _).gatherings.lookup m.nextGID = _
      rw [lookup_put, if_pos rfl]
    · show (ownGathering env conn m.nextGID src).participants.count conn.pid = 1
      rw [hps, List.count_singleton_self]
    · intro gid' hne
      have hlookup : (openOwn o env conn req src { m with gatherings := gs }).1.gatherings.lookup gid' =
          gs.lookup gid' := by
        show ((Store.put { m with gatherings := gs } m.nextGID _).put m.nextGID _).gatherings.lookup gid' = _
        rw [lookup_put, if_neg hne, lookup_put, if_neg hne]
      rw [Searched, hlookup]
      exact hsearched gid'
  · rw [lapses_iff horder]
    rintro ⟨gid, g, -, -, hfinds, -⟩
    exact not_findsSeat_of_opens horder hopens hfinds

/-- `autoMatchmake` where the search finds a gathering. -/
theorem outcome_found (hrep : m.Represented) (horder : GoMap.Enumerates env.order m.gatherings)
    (hmethod : req.method = Method.autoMatchmakeWithParamPostpone)
    (hsrc : StreamIn.run (readAutoMatchmakeParam o.settings) req.body = (src, false))
    (hsolo : env.isSoloPID conn.pid ≠ true) (hlobby : ¬ NoLobby env conn src m) :
    JoinOutcome o env conn req m (autoMatchmakeWith o env conn req m src) := by
  obtain ⟨gid, g, gs, hg, hselected, -, hsearched, hreserved, hanswer⟩ :=
    autoMatchmakeWith_found (o := o) hrep horder hsolo hlobby
  have hfinds : FindsSeat o env conn req m gid g := .search hmethod hsrc hsolo hselected
  have hnodup : (expireJoinReservations g env.selectNow).participants.Nodup := (hrep gid g hg).nodup
  have hid : (expireJoinReservations g env.selectNow).session.id = gid := (hrep gid g hg).id
  rw [hanswer]
  refine outcome_committed (committed env.commitNow hreserved) hnodup hid hsearched (put_put _ _ _ _)
    (fun gid' => answersSession_announce _ _ _ _) ?_
  rw [lapses_iff horder.1]
  constructor
  · rintro ⟨gid', g', hg', hnot, hfinds', hslow⟩
    obtain rfl := findsSeat_unique hfinds hfinds'
    obtain rfl := Option.some.inj (hg.symm.trans hg')
    exact ⟨hnot, hslow⟩
  · rintro ⟨hnot, hslow⟩
    exact ⟨gid, g, hg, hnot, hfinds, hslow⟩

theorem outcome_autoMatchmake (hrep : m.Represented) (horder : GoMap.Enumerates env.order m.gatherings)
    (hmethod : req.method = Method.autoMatchmakeWithParamPostpone) :
    JoinOutcome o env conn req m (autoMatchmake o env conn req m) := by
  cases hread : StreamIn.run (readAutoMatchmakeParam o.settings) req.body with
  | mk src err =>
    unfold autoMatchmake
    rw [hread]
    cases err with
    | true =>
      refine .refused (not_answersSession_failure _) (fun h => ?_)
      cases h with
      | search _ hsrc _ _ _ _ _ =>
        rw [hread] at hsrc
        cases hsrc
      | direct hjoin _ _ _ _ =>
        rw [hmethod] at hjoin
        exact absurd hjoin (by decide)
    | false =>
      show JoinOutcome o env conn req m (autoMatchmakeWith o env conn req m src)
      by_cases hown : env.isSoloPID conn.pid = true ∨ NoLobby env conn src m
      · obtain ⟨gs, hsearched, heq⟩ := autoMatchmakeWith_opens o req horder hown
        rw [heq]
        exact outcome_openOwn horder.1 (.auto hmethod hread hown) hsearched
      · rw [not_or] at hown
        exact outcome_found hrep horder hmethod hread hown.1 hown.2

/-- **A successful join is a membership, unless the seat lapsed.**  In every state of every run, whatever the
clock says, an answer of `autoMatchmake` or `joinSession` with a session always means that the caller sits in
the live gathering of its id, once, and that the others have lost expired reservations at most, just when
the caller does not come to a new seat with a whole reservation time between the two readings. -/
theorem success_is_membership_iff (o : Options) (m : Store) (h : Reachable (step o) newMatchmaking m)
    (env : Env) (conn : Caller) (req : RMCMessage) (horder : GoMap.Enumerates env.order m.gatherings)
    (hmethod : req.method = Method.autoMatchmakeWithParamPostpone ∨
      req.method = Method.joinMatchmakeSessionWithParam) :
    (∃ r, handle o env .extension conn req m = some r ∧
        ∀ gid, AnswersSession o env req r.2 gid → Membership env conn m r.1 gid) ↔
      ¬ Lapses o env conn req m := by
  have hrep := represented_of_reachable h
  rcases hmethod with hauto | hjoin
  · rw [handle_autoMatchmake hauto, ← (outcome_autoMatchmake hrep horder hauto).membership_iff]
    simp only [Option.some.injEq, exists_eq_left']
  · rw [handle_join hjoin, ← (outcome_joinSession hrep hjoin).membership_iff]
    simp only [Option.some.injEq, exists_eq_left']

/-- A join in time. -/
theorem success_is_membership_swift : ∃ m r,
    run (step plainOptions) newMatchmaking [createEvent 7 2 0 []] = some m ∧
      handle plainOptions (quietEnv 1 [1]) .extension ⟨8, 2⟩ (joinRequest 1) m = some r ∧
      ∀ gid, AnswersSession plainOptions (quietEnv 1 [1]) (joinRequest 1) r.2 gid →
        Membership (quietEnv 1 [1]) ⟨8, 2⟩ m r.1 gid := by
  have heval : (run (step plainOptions) newMatchmaking [createEvent 7 2 0 []]).map
      (fun m => (decide (GoMap.Enumerates [1] m.gatherings), m.reservationTTL)) =
        some (true, 8000000000) := by decide +kernel
  obtain ⟨m, hm, hfacts⟩ := Option.map_eq_some_iff.mp heval
  obtain ⟨horder, httl⟩ := Prod.mk.inj hfacts
  have hswift : ¬ Lapses plainOptions (quietEnv 1 [1]) ⟨8, 2⟩ (joinRequest 1) m := by
    intro h
    obtain ⟨-, -, -, -, hslow⟩ := lapses_direct rfl h
    rw [httl] at hslow
    exact absurd hslow (by decide)
  obtain ⟨r, hr, hmember⟩ := (success_is_membership_iff plainOptions m ⟨_, hm⟩ (quietEnv 1 [1]) ⟨8, 2⟩
    (joinRequest 1) (of_decide_eq_true horder) (.inr rfl)).mpr hswift
  exact ⟨m, r, hm, hr, hmember⟩

/-- A call in which eight seconds pass between the reservation and its commit. -/
def slowEnv : Env := { quietEnv 1 [1] with commitNow := 1 + defaultJoinReservationTTL }

/-- Such a join is answered with the session, but the player is not in it. -/
theorem late_join_answered : ∃ m r gid g,
    run (step plainOptions) newMatchmaking [createEvent 7 2 0 []] = some m ∧
      slowEnv.selectNow ≤ slowEnv.reserveNow ∧ slowEnv.reserveNow ≤ slowEnv.commitNow ∧
      handle plainOptions slowEnv .extension ⟨8, 2⟩ (joinRequest 1) m = some r ∧
      AnswersSession plainOptions slowEnv (joinRequest 1) r.2 gid ∧
      r.1.gatherings.lookup gid = some g ∧ 8 ∉ g.participants := by
  have heval : (run (step plainOptions) newMatchmaking [createEvent 7 2 0 []]).bind
      (fun m => (m.gatherings.lookup 1).map (fun g => (m.reservationTTL, g.participants,
        GoMap.len (expireJoinReservations g 1).reservations, g.session.maxParticipants))) =
        some (8000000000, [7], 0, 2) := by decide +kernel
  obtain ⟨m, g, hm, hg, hdata⟩ := exists_live heval
  obtain ⟨httl, hps, hres, hmax⟩ := by simpa only [Prod.mk.injEq] using hdata
  have hrep := represented_of_reachable ⟨_, hm⟩
  have hlapses : Lapses plainOptions slowEnv ⟨8, 2⟩ (joinRequest 1) m := by
    refine .direct rfl hg (by rw [hps]; decide) (.inr (fun hfull => ?_)) (by rw [httl]; decide)
    have hle : g.session.maxParticipants.toNat ≤
        g.participants.length + GoMap.len (expireJoinReservations g 1).reservations := hfull.2
    rw [hmax, hps, hres] at hle
    exact absurd hle (by decide)
  have houtcome : JoinOutcome plainOptions slowEnv ⟨8, 2⟩ (joinRequest 1) m _ := outcome_joinSession hrep rfl
  cases houtcome with
  | refused _ hkept => exact absurd hlapses hkept
  | seated _ _ _ hkept => exact absurd hlapses hkept
  | lapsed gid g' hanswer hg' hnot _ =>
    exact ⟨m, _, gid, g', hm, by decide, by decide, handle_join rfl, (hanswer gid).mpr rfl, hg', hnot⟩

/-! ### Disconnects -/

/-- The player `pid` is gone from the store, and nothing else. -/
structure CleanedUp (pid : UInt64) (m m' : Store) : Prop where
  nowhere : ∀ gid g', m'.gatherings.lookup gid = some g' →
    pid ∉ g'.participants ∧ g'.reservations.lookup pid = none
  silent : m'.notif.lookup pid = none
  deleted : ∀ gid g, m.gatherings.lookup gid = some g → (m'.gatherings.lookup gid = none ↔
    pid ∈ g.participants ∧ (g.session.ownerPID = pid ∨ g.participants = [pid]))
  noneNew : ∀ gid, m.gatherings.lookup gid = none → m'.gatherings.lookup gid = none
  kept : ∀ gid g g', m.gatherings.lookup gid = some g → m'.gatherings.lookup gid = some g' →
    g' = { g with
      participants := g.participants.filter (· != pid)
      reservations := g.reservations.erase pid
      session := { g.session with numParticipants := g'.session.numParticipants } } ∧
    g'.session.numParticipants.toNat = g'.participants.length
  others : ∀ p ≠ pid, m'.notif.lookup p = m.notif.lookup p

theorem length_removePID_eq {list : List UInt64} : (removePID list pid).length = list.length ↔ pid ∉ list := by
  constructor
  · intro hlen hmem
    have hall := List.length_filter_eq_length_iff.mp hlen pid hmem
    simp at hall
  · intro hnot
    apply List.length_filter_eq_length_iff.mpr
    intro p hp
    exact bne_iff_ne.mpr (fun heq => hnot (heq ▸ hp))

theorem removePID_eq_nil {list : List UInt64} (hnodup : list.Nodup) (hmem : pid ∈ list) :
    removePID list pid = [] ↔ list = [pid] := by
  constructor
  · intro hnil
    have hall : ∀ p ∈ list, p = pid := by
      intro p hp
      by_contra hne
      have hkept : p ∈ removePID list pid := mem_removePID.mpr ⟨hp, hne⟩
      rw [hnil] at hkept
      exact List.not_mem_nil hkept
    cases list with
    | nil => exact absurd hmem List.not_mem_nil
    | cons p rest =>
      obtain rfl := hall p List.mem_cons_self
      cases rest with
      | nil => rfl
      | cons q rest =>
        obtain rfl := hall q (List.mem_cons_of_mem _ List.mem_cons_self)
        exact absurd List.mem_cons_self (List.nodup_cons.mp hnodup).1
  · rintro rfl
    simp [removePID]

/-- **One gathering in the loop of `RemovePlayer`.**  It goes, or only the player goes. -/
theorem removePlayerFrom_eq (hrep : Represented gid g) :
    removePlayerFrom pid g =
      if pid ∈ g.participants ∧ (g.session.ownerPID = pid ∨ g.participants = [pid]) then none
      else some (refreshNumParticipants (without g pid)) := by
  unfold removePlayerFrom
  dsimp only
  by_cases hmem : pid ∈ g.participants
  · have hlen : ¬ (without g pid).participants.length = g.participants.length :=
      fun h => length_removePID_eq.mp h hmem
    have hnil : (without g pid).participants = [] ↔ g.participants = [pid] :=
      removePID_eq_nil hrep.nodup hmem
    rw [if_neg hlen]
    by_cases hgoes : g.session.ownerPID = pid ∨ g.participants = [pid]
    · rw [if_pos (by rw [hnil]; exact hgoes.symm), if_pos ⟨hmem, hgoes⟩]
    · rw [if_neg (by rw [hnil]; exact fun h => hgoes h.symm), if_neg (fun h => hgoes h.2)]
  · have hlen : (without g pid).participants.length = g.participants.length := length_removePID_eq.mpr hmem
    -- The count was right before, so refreshing it changes nothing.
    have hcount : refreshNumParticipants (without g pid) = without g pid := by
      have hnum : UInt32.ofNat (without g pid).participants.length = g.session.numParticipants := by
        rw [hlen, ← hrep.count, UInt32.ofNat_toNat]
      unfold refreshNumParticipants
      rw [hnum]
      rfl
    rw [if_pos hlen, if_neg (fun h => hmem h.1), hcount]

theorem notif_foldl_removePlayerAt (order : List UInt32) (m : Store) :
    (order.foldl (removePlayerAt pid) m).notif = m.notif := by
  induction order generalizing m with
  | nil => rfl
  | cons gid order ih =>
    rw [List.foldl_cons, ih]
    unfold removePlayerAt
    cases m.gatherings.lookup gid with
    | none => rfl
    | some g =>
      dsimp only
      cases removePlayerFrom pid g with
      | none => rfl
      | some g' => rfl

section Removal

variable {order : List UInt32} (hpid : pid ≠ 0) (horder : GoMap.Enumerates order m.gatherings)

include hpid

theorem notif_removePlayer : (removePlayer pid order m).notif = m.notif.erase pid := by
  unfold removePlayer
  rw [if_neg hpid, notif_foldl_removePlayerAt]

include horder

theorem lookup_removePlayer_none (hg : m.gatherings.lookup gid = none) :
    (removePlayer pid order m).gatherings.lookup gid = none := by
  rw [lookup_removePlayer hpid horder, hg, Option.bind_none]

theorem lookup_removePlayer_some (hrep : Represented gid g) (hg : m.gatherings.lookup gid = some g) :
    (removePlayer pid order m).gatherings.lookup gid =
      if pid ∈ g.participants ∧ (g.session.ownerPID = pid ∨ g.participants = [pid]) then none
      else some (refreshNumParticipants (without g pid)) := by
  rw [lookup_removePlayer hpid horder, hg, Option.bind_some, removePlayerFrom_eq hrep]

/-- A gathering that is left has only lost the player. -/
theorem eq_of_lookup_removePlayer (hrep : Represented gid g) (hg : m.gatherings.lookup gid = some g)
    (hg' : (removePlayer pid order m).gatherings.lookup gid = some g') :
    g' = refreshNumParticipants (without g pid) := by
  rw [lookup_removePlayer_some hpid horder hrep hg] at hg'
  split at hg'
  · cases hg'
  · exact (Option.some.inj hg').symm

end Removal

/-- **Disconnect cleanup is complete and local**, in every state of every run and whatever the order in
which the gatherings are visited. -/
theorem removePlayer_cleans_up (o : Options) (m : Store) (h : Reachable (step o) newMatchmaking m)
    (pid : UInt64) (hpid : pid ≠ 0) (order : List UInt32) (horder : GoMap.Enumerates order m.gatherings) :
    CleanedUp pid m (removePlayer pid order m) := by
  have hrep := represented_of_reachable h
  have hnotif : (removePlayer pid order m).notif = m.notif.erase pid := notif_removePlayer hpid
  refine ⟨?_, ?_, ?_, fun gid hg => lookup_removePlayer_none hpid horder hg, ?_, ?_⟩
  · intro gid g' hg'
    cases hg : m.gatherings.lookup gid with
    | none =>
      rw [lookup_removePlayer_none hpid horder hg] at hg'
      cases hg'
    | some g =>
      rw [eq_of_lookup_removePlayer hpid horder (hrep gid g hg) hg hg']
      refine ⟨fun hmem => (mem_removePID.mp hmem).2 rfl, ?_⟩
      exact Finmap.lookup_erase pid _
  · rw [hnotif]
    exact Finmap.lookup_erase pid _
  · intro gid g hg
    rw [lookup_removePlayer_some hpid horder (hrep gid g hg) hg]
    split
    · rename_i hgoes
      exact iff_of_true rfl hgoes
    · rename_i hstays
      exact iff_of_false (Option.some_ne_none _) hstays
  · intro gid g g' hg hg'
    obtain rfl := eq_of_lookup_removePlayer hpid horder (hrep gid g hg) hg hg'
    refine ⟨rfl, count_refresh ?_⟩
    have hle := length_removePID_le g.participants pid
    have hbound := (hrep gid g hg).bound
    show (removePID g.participants pid).length < 2 ^ 16
    omega
  · intro p hne
    rw [hnotif]
    exact Finmap.lookup_erase_ne hne

/-- A player that sits in a room of its own and in that of another one. -/
theorem removePlayer_cleans_up_two : ∃ m,
    run (step plainOptions) newMatchmaking [createEvent 7 2 0 [], joinEvent 8 1 1 [1], createEvent 8 2 2 [1]] =
        some m ∧
      m.members 1 = some [7, 8] ∧ m.members 2 = some [8] ∧ CleanedUp 8 m (removePlayer 8 [2, 1] m) := by
  have heval : (run (step plainOptions) newMatchmaking
      [createEvent 7 2 0 [], joinEvent 8 1 1 [1], createEvent 8 2 2 [1]]).map
      (fun m => (m.members 1, m.members 2, decide (GoMap.Enumerates [2, 1] m.gatherings))) =
        some (some [7, 8], some [8], true) := by decide +kernel
  obtain ⟨m, hm, hfacts⟩ := Option.map_eq_some_iff.mp heval
  obtain ⟨hfirst, hsecond, horder⟩ := by simpa only [Prod.mk.injEq] using hfacts
  exact ⟨m, hm, hfirst, hsecond, removePlayer_cleans_up plainOptions m ⟨_, hm⟩ 8 (by decide) [2, 1]
    (of_decide_eq_true horder)⟩

end NextendoMatchmaking.Matchmaking
