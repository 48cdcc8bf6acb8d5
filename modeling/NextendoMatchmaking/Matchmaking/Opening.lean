import NextendoMatchmaking.Matchmaking.Representation
import NextendoMatchmaking.Matchmaking.Reservations

/-!
# When a request opens a gathering

`createSession` opens a gathering whenever its body can be read.  `autoMatchmake` does so when no live
gathering suits the caller, or when the caller plays alone.  The search visits the gatherings in an
arbitrary order and expires reservations as it goes, and the seat it finds is then reserved by a second
test; neither changes the outcome: the search finds a gathering exactly when one suits
(`searchResult`), and the reservation of a seat that was found never fails (`reserved_of_suits`).
-/

namespace NextendoMatchmaking.Matchmaking

open NextendoMatchmaking.Runs

variable {o : Options} {m m' : Store} {gid : UInt32} {g : GatheringEntry} {service : Service}
  {conn : Caller} {req : RMCMessage} {env : Env} {src : MatchmakeSession}

/-- The candidate test of `autoMatchmake` accepts `g`. -/
def Suits (env : Env) (conn : Caller) (src : MatchmakeSession) (g : GatheringEntry) : Prop :=
  admissible src g = true ∧ qualifies env conn g (occupiedSeats g env.selectNow).1 = true

/-- No live gathering suits the caller. -/
def NoLobby (env : Env) (conn : Caller) (src : MatchmakeSession) (m : Store) : Prop :=
  ∀ gid g, m.gatherings.lookup gid = some g → ¬ Suits env conn src g

/-- The request opens a gathering. -/
inductive Opens (o : Options) (env : Env) (conn : Caller) (req : RMCMessage) (m : Store) : Prop
  | create {src : MatchmakeSession} (hmethod : req.method = Method.createMatchmakeSessionWithParam)
      (hsrc : StreamIn.run (readAutoMatchmakeParam o.settings) req.body = (src, false))
  | auto {src : MatchmakeSession} (hmethod : req.method = Method.autoMatchmakeWithParamPostpone)
      (hsrc : StreamIn.run (readAutoMatchmakeParam o.settings) req.body = (src, false))
      (hown : env.isSoloPID conn.pid = true ∨ NoLobby env conn src m)

/-! ### The search -/

/-- The outcomes of the search: a gathering that suits, with its reservations expired, or nothing where no
gathering it visits suits. -/
inductive SearchResult (env : Env) (conn : Caller) (src : MatchmakeSession) (order : List UInt32)
    (gs : GoMap UInt32 GatheringEntry) : Option UInt32 × GoMap UInt32 GatheringEntry → Prop
  | found {gid g gs'} (hg : gs.lookup gid = some g) (hsuits : Suits env conn src g)
      (hg' : gs'.lookup gid = some (expireJoinReservations g env.selectNow)) (hmem : gid ∈ order) :
      SearchResult env conn src order gs (some gid, gs')
  | nothing {gs'} (hall : ∀ gid ∈ order, ∀ g, gs.lookup gid = some g → ¬ Suits env conn src g) :
      SearchResult env conn src order gs (none, gs')

/-- The search goes on behind a gathering that does not suit. -/
theorem SearchResult.skip {order : List UInt32} {gs gs' : GoMap UInt32 GatheringEntry}
    {r : Option UInt32 × GoMap UInt32 GatheringEntry} (h : SearchResult env conn src order gs' r)
    (hnot : gid ∉ order) (hsame : ∀ gid', gid' ≠ gid → gs'.lookup gid' = gs.lookup gid')
    (hgid : ∀ g, gs.lookup gid = some g → ¬ Suits env conn src g) :
    SearchResult env conn src (gid :: order) gs r := by
  have hrest : ∀ gid' ∈ order, gs'.lookup gid' = gs.lookup gid' := fun gid' hmem =>
    hsame gid' (fun heq => hnot (heq ▸ hmem))
  cases h with
  | found hg hsuits hg' hmem =>
    exact .found (hrest _ hmem ▸ hg) hsuits hg' (List.mem_cons_of_mem _ hmem)
  | nothing hall =>
    refine .nothing (fun gid' hmem g hg => ?_)
    rcases List.mem_cons.mp hmem with rfl | hmem
    · exact hgid g hg
    · exact hall gid' hmem g ((hrest gid' hmem).trans hg)

/-- **Spec of the search.** -/
theorem searchResult (env : Env) (conn : Caller) (src : MatchmakeSession) {order : List UInt32}
    (horder : order.Nodup) (gs : GoMap UInt32 GatheringEntry) :
    SearchResult env conn src order gs (selectGathering env conn src order gs) := by
  induction order generalizing gs with
  | nil => exact .nothing (fun gid hgid => absurd hgid List.not_mem_nil)
  | cons gid rest ih =>
    obtain ⟨hnot, hrest⟩ := List.nodup_cons.mp horder
    unfold selectGathering
    split
    · rename_i hnone
      refine (ih hrest gs).skip hnot (fun _ _ => rfl) (fun g hg => ?_)
      rw [hnone] at hg
      cases hg
    · rename_i cand hcand
      have hcand_eq : ∀ g, gs.lookup gid = some g → g = cand := fun g hg =>
        Option.some.inj (hg.symm.trans hcand)
      split
      · rename_i hadm
        dsimp only
        split
        · rename_i hq
          exact .found hcand ⟨hadm, hq⟩ (Finmap.lookup_insert gs) List.mem_cons_self
        · rename_i hq
          refine (ih hrest _).skip hnot (fun gid' hne => Finmap.lookup_insert_of_ne gs hne) ?_
          intro g hg hsuits
          exact hq (hcand_eq g hg ▸ hsuits.2)
      · rename_i hadm
        refine (ih hrest gs).skip hnot (fun _ _ => rfl) (fun g hg hsuits => ?_)
        exact hadm (hcand_eq g hg ▸ hsuits.1)

/-! ### The seat that was found -/

/-- The seats of a gathering that suits are not all taken, also after another sweep. -/
theorem room_of_suits (hrep : Represented gid g) (h : Suits env conn src g) (now : Int) (pid : UInt64) :
    Room (expireJoinReservations (expireJoinReservations g env.selectNow) now) pid := by
  have hless := h.2
  simp only [qualifies, Bool.and_eq_true, decide_eq_true_eq] at hless
  have hlt := UInt16.lt_iff_toNat_lt.mp hless.1
  have hswept : GoMap.len (expireJoinReservations g env.selectNow).reservations ≤
      GoMap.len g.reservations := GoMap.len_deleteWhere_le _ _
  have hswept' : GoMap.len (expireJoinReservations (expireJoinReservations g env.selectNow) now).reservations ≤
      GoMap.len (expireJoinReservations g env.selectNow).reservations := GoMap.len_deleteWhere_le _ _
  have hbound := hrep.bound
  have hseats : (occupiedSeats g env.selectNow).1 =
      g.participants.length + GoMap.len (expireJoinReservations g env.selectNow).reservations := rfl
  rw [UInt16.toNat_ofNat_of_lt' (by rw [hseats]; show _ < 2 ^ 16; omega), hseats] at hlt
  refine .inr (fun hfull => ?_)
  have hle : g.session.maxParticipants.toNat ≤ g.participants.length +
      GoMap.len (expireJoinReservations (expireJoinReservations g env.selectNow) now).reservations := hfull.2
  omega

theorem reserved_of_suits (hrep : Represented gid g) (h : Suits env conn src g) (ttl now : Int)
    (pid : UInt64) : (reserveJoin ttl now (expireJoinReservations g env.selectNow) pid).1 = true := by
  have hresult := reserveResult ttl now (expireJoinReservations g env.selectNow) pid
  revert hresult
  generalize reserveJoin ttl now (expireJoinReservations g env.selectNow) pid = result
  intro hresult
  cases hresult with
  | seated _ => rfl
  | held _ _ => rfl
  | full _ hfull => exact absurd (room_of_suits hrep h now pid) hfull

/-! ### `autoMatchmake` -/

/-- With a lobby for the caller, `autoMatchmake` opens none. -/
theorem nextGID_autoMatchmakeWith (hrep : m.Represented)
    (horder : GoMap.Enumerates env.order m.gatherings) (hsolo : env.isSoloPID conn.pid ≠ true)
    (hlobby : ¬ NoLobby env conn src m) :
    (autoMatchmakeWith o env conn req m src).1.nextGID = m.nextGID := by
  have hresult := searchResult env conn src horder.1 m.gatherings
  unfold autoMatchmakeWith
  rw [if_neg hsolo]
  revert hresult
  generalize selectGathering env conn src env.order m.gatherings = found
  intro hresult
  cases hresult with
  | @found gid g gs hg hsuits hg' _ =>
    dsimp only [Option.bind_some]
    rw [hg']
    dsimp only [Option.map_some]
    have hreserved := reserved_of_suits (hrep gid g hg) hsuits m.reservationTTL env.reserveNow conn.pid
    rw [if_pos hreserved]
    rfl
  | nothing hall =>
    refine absurd (fun gid g hg => ?_) hlobby
    exact hall gid ((horder.2 gid).mpr (Finmap.mem_of_lookup_eq_some hg)) g hg

/-- Without one, or for a solo player, it does, after a search. -/
theorem autoMatchmakeWith_opens (o : Options) (req : RMCMessage) (horder : GoMap.Enumerates env.order m.gatherings)
    (hown : env.isSoloPID conn.pid = true ∨ NoLobby env conn src m) : ∃ gs,
      (∀ gid, Searched env m.gatherings gs gid) ∧
      autoMatchmakeWith o env conn req m src = openOwn o env conn req src { m with gatherings := gs } := by
  unfold autoMatchmakeWith
  by_cases hsolo : env.isSoloPID conn.pid = true
  · exact ⟨m.gatherings, searched_refl env m.gatherings, by rw [if_pos hsolo]⟩
  · have hresult := searchResult env conn src horder.1 m.gatherings
    have hsearched := selectGathering_searched env conn src env.order m.gatherings
    rw [if_neg hsolo]
    revert hresult hsearched
    generalize selectGathering env conn src env.order m.gatherings = found
    intro hresult hsearched
    cases hresult with
    | found hg hsuits _ _ => exact absurd hsuits (hown.resolve_left hsolo _ _ hg)
    | @nothing gs _ => exact ⟨gs, hsearched, rfl⟩

theorem owner_newGathering (env : CreationEnv) (conn : Caller) (gid : UInt32) (src : MatchmakeSession) :
    (newGathering env conn gid src).session.ownerPID = conn.pid := by
  simp only [newGathering, finalizeCreatedSession]
  split <;> rfl

/-- The gathering that `autoMatchmake` opens belongs to the caller. -/
theorem lookup_openOwn (o : Options) (env : Env) (conn : Caller) (req : RMCMessage)
    (src : MatchmakeSession) (m : Store) :
    ∃ g, (openOwn o env conn req src m).1.gatherings.lookup m.nextGID = some g ∧
      g.session.ownerPID = conn.pid := by
  refine ⟨refreshNumParticipants (ownGathering env conn m.nextGID src), ?_, ?_⟩
  · show ((createGathering env.creation conn src m).2.put m.nextGID _).gatherings.lookup m.nextGID = _
    rw [lookup_put, if_pos rfl]
  · show (ownGathering env conn m.nextGID src).session.ownerPID = conn.pid
    simp only [ownGathering]
    split <;> exact owner_newGathering env.creation conn m.nextGID src

/-! ### Requests -/

theorem handle_autoMatchmake (hmethod : req.method = Method.autoMatchmakeWithParamPostpone) :
    handle o env .extension conn req m = some (autoMatchmake o env conn req m) := by
  simp only [handle, extensionHandler, hmethod]
  rfl

theorem handle_createSession (hmethod : req.method = Method.createMatchmakeSessionWithParam) :
    handle o env .extension conn req m = some (createSession o env conn req m) := by
  simp only [handle, extensionHandler, hmethod]
  rfl

theorem nextGID_joinGathering (gid : UInt32) : (joinGathering o env conn req m gid).1.nextGID = m.nextGID := by
  unfold joinGathering
  split
  · rfl
  · rename_i g hg
    dsimp only
    split
    · rfl
    · cases reserveJoin m.reservationTTL env.reserveNow g conn.pid with
      | mk reserved g₁ => cases reserved <;> rfl

/-- A request that opens a gathering puts it under `nextGID`, whatever is there. -/
theorem step_of_opens (horder : GoMap.Enumerates env.order m.gatherings) (h : Opens o env conn req m) :
    ∃ m' g, step o m (.request .extension conn req env) = some m' ∧
      m'.gatherings.lookup m.nextGID = some g ∧ g.session.ownerPID = conn.pid := by
  simp only [step, if_pos horder]
  cases h with
  | @create src hmethod hsrc =>
    refine ⟨(createSession o env conn req m).1, newGathering env.creation conn m.nextGID src, ?_, ?_,
      owner_newGathering _ _ _ _⟩
    · rw [handle_createSession hmethod]
      rfl
    · simp only [createSession, hsrc]
      exact Finmap.lookup_insert _
  | @auto src hmethod hsrc hown =>
    obtain ⟨gs, -, heq⟩ := autoMatchmakeWith_opens o req horder hown
    obtain ⟨g, hg, howner⟩ := lookup_openOwn o env conn req src { m with gatherings := gs }
    refine ⟨(openOwn o env conn req src { m with gatherings := gs }).1, g, ?_, hg, howner⟩
    rw [handle_autoMatchmake hmethod, ← heq]
    simp only [autoMatchmake, hsrc]
    rfl

/-- Only such a request counts `nextGID` up. -/
theorem opens_of_nextGID (hrep : m.Represented)
    (hjoin : Joins service req) (h : step o m (.request service conn req env) = some m')
    (hnext : m'.nextGID ≠ m.nextGID) : Opens o env conn req m := by
  obtain ⟨rfl, hmethod⟩ := hjoin
  simp only [step] at h
  split at h
  · rename_i horder
    obtain ⟨r, hr, rfl⟩ := Option.map_eq_some_iff.mp h
    rcases hmethod with hmethod | hmethod | hmethod
    · rw [handle_autoMatchmake hmethod, Option.some.injEq] at hr
      subst hr
      simp only [autoMatchmake] at hnext
      split at hnext
      · exact absurd rfl hnext
      · rename_i herr
        refine .auto hmethod (Prod.ext rfl (Bool.eq_false_of_not_eq_true herr)) ?_
        by_contra hlobby
        rw [not_or] at hlobby
        exact hnext (nextGID_autoMatchmakeWith hrep horder hlobby.1 hlobby.2)
    · rw [handle_createSession hmethod, Option.some.injEq] at hr
      subst hr
      simp only [createSession] at hnext
      split at hnext
      · exact absurd rfl hnext
      · rename_i herr
        exact .create hmethod (Prod.ext rfl (Bool.eq_false_of_not_eq_true herr))
    · rw [handle_join hmethod, Option.some.injEq] at hr
      subst hr
      exact absurd (nextGID_joinGathering _) hnext
  · cases h

end NextendoMatchmaking.Matchmaking
