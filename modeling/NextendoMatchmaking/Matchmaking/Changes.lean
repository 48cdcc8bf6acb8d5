import Mathlib.Data.List.GetD
import Mathlib.Logic.Relation
import NextendoMatchmaking.Matchmaking.System

/-!
# What an operation does to a gathering

Every operation of the store is described once, gathering by gathering: a gathering is changed by a few
small `Touch`es, or it is removed, or it is created.  Invariants of the store are then proved for the
touches and for new gatherings (`live_invariant`), and no proof has to look into the handlers again.

* `Touch` — one change to one gathering, with the condition under which the code makes it;
* `Change` — what an operation does to the gathering under an id, `Described` — to all of them;
* `step_described` — every operation is so described;
* `live_invariant` — the rule for properties of single gatherings.
-/

namespace NextendoMatchmaking.Matchmaking

open NextendoMatchmaking.Runs Relation

/-- `pid` sits in the gathering under `gid`. -/
def SitsIn (m : Store) (pid : UInt64) (gid : UInt32) : Prop :=
  ∃ g, m.gatherings.lookup gid = some g ∧ pid ∈ g.participants

/-- There is a seat for `pid`: one is reserved, or the capacity test of `reserveJoinLocked` passes. -/
def Room (g : GatheringEntry) (pid : UInt64) : Prop :=
  (g.reservations.lookup pid).isSome ∨ ¬ (0 < g.session.maxParticipants ∧
    g.session.maxParticipants.toNat ≤ g.participants.length + GoMap.len g.reservations)

/-- The gathering after `pid` has taken its seat. -/
def seated (g : GatheringEntry) (pid : UInt64) : GatheringEntry :=
  refreshNumParticipants { releaseReservation g pid with participants := g.participants ++ [pid] }

/-- The requests that can seat their caller: `ExtensionHandler` answers them by `autoMatchmake`,
`createSession` and `joinSession`. -/
def Joins (service : Service) (req : RMCMessage) : Prop :=
  service = .extension ∧ (req.method = Method.autoMatchmakeWithParamPostpone ∨
    req.method = Method.createMatchmakeSessionWithParam ∨
    req.method = Method.joinMatchmakeSessionWithParam)

/-! ### The requests that write to a gathering they name -/

/-- A `JoinMatchmakeSessionWithParam` of `gid`. -/
def JoinsDirectly (req : RMCMessage) (gid : UInt32) : Prop :=
  req.method = Method.joinMatchmakeSessionWithParam ∧ readJoinGID req = gid

/-- An `OpenParticipation` or a `CloseParticipation` of `gid`. -/
def SetsParticipation (opening : Bool) (service : Service) (req : RMCMessage) (gid : UInt32) : Prop :=
  service = .extension ∧
    req.method = (if opening then Method.openParticipation else Method.closeParticipation) ∧
    readGID req = gid

/-- A request for a room code. -/
def MakesCode (service : Service) (req : RMCMessage) : Prop :=
  service = .extension ∧
    (req.method = Method.customPrivateRoomCreate ∨ req.method = Method.ssbuArenaCode)

/-- An `UpdateMatchmakeSessionPart` that is carried out, with the update it carries. -/
structure UpdatesPart (o : Options) (service : Service) (req : RMCMessage)
    (p : UpdateMatchmakeSessionParam) : Prop where
  service : service = .extension
  method : req.method = Method.updateMatchmakeSessionPart
  persists : o.sessionPartPersists = true
  decoded : StreamIn.run (UpdateMatchmakeSessionParam.read o.settings) req.body = (p, false)

/-- The gathering and the candidates of a hand-over. -/
def readMigration (o : Options) (req : RMCMessage) (hasParticipantsOnly : Bool) : UInt32 × List UInt64 :=
  (StreamIn.run (do
    let gid ← StreamIn.u32
    let candidates ← StreamIn.list (StreamIn.pid o.settings)
    if hasParticipantsOnly then
      let _ ← StreamIn.bool
    return (gid, candidates)) req.body).1

/-- A `MigrateGatheringOwnership` of `gid`, in one of its two versions. -/
def Migrates (o : Options) (service : Service) (req : RMCMessage) (gid : UInt32)
    (candidates : List UInt64) : Prop :=
  service = .matchMaking ∧
    ((req.method = Method.migrateGatheringOwnership ∧ readMigration o req true = (gid, candidates)) ∨
      (req.method = Method.migrateGatheringOwnershipV1 ∧ readMigration o req false = (gid, candidates)))

/-! ### Touches -/

/-- The writes of a request to the session or the room code that touch nothing else, with who may make
them. -/
inductive Edit (gid : UInt32) (service : Service) (conn : Caller) (req : RMCMessage) (g : GatheringEntry) :
    MatchmakeSession → Bytes → Prop
  /-- A solo player needs no second participant. -/
  | solo : Edit gid service conn req g { g.session with minParticipants := 1 } g.code
  | participation {opening} (h : SetsParticipation opening service req gid) :
      Edit gid service conn req g { g.session with openParticipation := opening } g.code
  | code {code} (h : MakesCode service req) (hgid : readGID req = gid) :
      Edit gid service conn req g g.session code
  | applicationData {buf} (hfirst : g.participants.headD 0 = conn.pid) :
      Edit gid service conn req g { g.session with applicationData := buf } g.code
  | attribs {attribs} (hfirst : g.participants.head? = some conn.pid) :
      Edit gid service conn req g { g.session with attribs } g.code

/-- What an edit leaves alone. -/
structure SameFrame (session session' : MatchmakeSession) : Prop where
  id : session'.id = session.id
  owner : session'.ownerPID = session.ownerPID
  host : session'.hostPID = session.hostPID
  max : session'.maxParticipants = session.maxParticipants
  num : session'.numParticipants = session.numParticipants

theorem Edit.frame {gid : UInt32} {service : Service} {conn : Caller} {req : RMCMessage}
    {g : GatheringEntry} {session : MatchmakeSession} {code : Bytes}
    (h : Edit gid service conn req g session code) : SameFrame g.session session := by
  cases h <;> exact ⟨rfl, rfl, rfl, rfl, rfl⟩

/-- One change that an operation can make to the gathering under `gid`, with the reservation time `ttl` in
force. -/
inductive Touch (o : Options) (ttl : Int) (gid : UInt32) : Event → GatheringEntry → GatheringEntry → Prop
  /-- Reservations expire at a reading of the clock. -/
  | expire {e g now} (hnow : now ∈ e.readings) : Touch o ttl gid e g (expireJoinReservations g now)
  /-- `ReserveJoin` reserves or renews a seat. -/
  | hold {pid now g} (hpid : pid ∉ g.participants) (hroom : Room g pid) :
      Touch o ttl gid (.reserveJoin gid pid now) g (putReservation g pid (now + ttl))
  /-- `ReserveJoin` of a participant. -/
  | holdSeated {pid now g} (hpid : pid ∈ g.participants) :
      Touch o ttl gid (.reserveJoin gid pid now) g (releaseReservation g pid)
  | cancel {pid g} : Touch o ttl gid (.cancelJoinReservation gid pid) g (releaseReservation g pid)
  /-- The caller joins: it has asked for this gathering, or found it open. -/
  | join {service conn req env g} (hjoin : Joins service req)
      (hway : g.session.openParticipation = true ∨ JoinsDirectly req gid)
      (hpid : conn.pid ∉ g.participants) (hroom : Room g conn.pid)
      (hnow : env.commitNow < env.reserveNow + ttl) :
      Touch o ttl gid (.request service conn req env) g (seated g conn.pid)
  /-- The caller was to join, but its reservation expired before the commit. -/
  | lapse {service conn req env g} (hpid : conn.pid ∉ g.participants) (hroom : Room g conn.pid)
      (hnow : env.reserveNow + ttl ≤ env.commitNow) :
      Touch o ttl gid (.request service conn req env) g
        (refreshNumParticipants (releaseReservation g conn.pid))
  /-- The caller joins a gathering it is in. -/
  | rejoin {service conn req env g} (hpid : conn.pid ∈ g.participants) :
      Touch o ttl gid (.request service conn req env) g
        (refreshNumParticipants (releaseReservation g conn.pid))
  | refresh {e g} : Touch o ttl gid e g (refreshNumParticipants g)
  | edit {service conn req env g session code} (h : Edit gid service conn req g session code) :
      Touch o ttl gid (.request service conn req env) g { g with session, code }
  /-- A partial update of the session, where the title has them written. -/
  | part {service conn req env g} (p : UpdateMatchmakeSessionParam) (h : UpdatesPart o service req p)
      (hgid : p.gid = gid) : Touch o ttl gid (.request service conn req env) g (applyPart p g)
  | migrate {service conn req env g} (candidates : List UInt64)
      (h : Migrates o service req gid candidates) :
      Touch o ttl gid (.request service conn req env) g
        { g with participants := migrate candidates g.participants }
  /-- The caller leaves and others stay. -/
  | leave {conn req env g} (hmethod : req.method = Method.endParticipation) (hgid : readGID req = gid)
      (hrest : removePID g.participants conn.pid ≠ []) :
      Touch o ttl gid (.request .matchMakingExt conn req env) g (refreshNumParticipants (without g conn.pid))
  /-- A player disconnects from a gathering of somebody else. -/
  | disconnect {pid order g} (hpid : pid ≠ 0) (hrest : removePID g.participants pid ≠ [])
      (howner : g.session.ownerPID ≠ pid) :
      Touch o ttl gid (.removePlayer pid order) g (refreshNumParticipants (without g pid))
  /-- A player disconnects that has at most a reservation here. -/
  | disconnectOther {pid order g} (hpid : pid ≠ 0) (hnot : pid ∉ g.participants) :
      Touch o ttl gid (.removePlayer pid order) g (without g pid)

/-- The ways in which the gathering `g` under `gid` goes. -/
inductive Removal (gid : UInt32) (g : GatheringEntry) : Event → Prop
  | unregister {conn req env} (hmethod : req.method = Method.unregisterGathering)
      (hgid : readGID req = gid) (howner : g.session.ownerPID = conn.pid) :
      Removal gid g (.request .matchMaking conn req env)
  | leave {conn req env} (hmethod : req.method = Method.endParticipation) (hgid : readGID req = gid)
      (hlast : removePID g.participants conn.pid = []) :
      Removal gid g (.request .matchMakingExt conn req env)
  | disconnect {pid order} (hpid : pid ≠ 0) : Removal gid g (.removePlayer pid order)

/-- The operations that put several touches of a gathering together; all others make at most one. -/
def Combines : Event → Prop
  | .request service _ req _ => Joins service req
  | .reserveJoin _ _ _ => True
  | _ => False

/-- What the operation `e` that leads from `m` to `m'` does to the gathering under `gid`. -/
inductive Change (o : Options) (e : Event) (m m' : Store) (gid : UInt32) : Prop
  | kept {g g'} (h : m.gatherings.lookup gid = some g) (h' : m'.gatherings.lookup gid = some g')
      (t : ReflTransGen (Touch o m.reservationTTL gid e) g g')
      (hone : Combines e ∨ g' = g ∨ Touch o m.reservationTTL gid e g g')
  | gone (h' : m'.gatherings.lookup gid = none)
      (hgone : ∀ g, m.gatherings.lookup gid = some g → Removal gid g e)
  | fresh {service conn req env src g'} (he : e = .request service conn req env)
      (hjoin : Joins service req) (hgid : gid = m.nextGID) (hnext : m'.nextGID = m.nextGID + 1)
      (h' : m'.gatherings.lookup gid = some g')
      (t : ReflTransGen (Touch o m.reservationTTL gid e) (newGathering env.creation conn gid src) g')

/-- The operations that write to the index of room codes. -/
inductive WritesIndex (o : Options) : Event → Prop
  | code {service conn req env} (h : MakesCode service req) : WritesIndex o (.request service conn req env)
  | part {service conn req env p} (h : UpdatesPart o service req p) :
      WritesIndex o (.request service conn req env)
  | disconnect {pid order} : WritesIndex o (.removePlayer pid order)

variable {g' : GatheringEntry} {pid : UInt64} {gs : GoMap UInt32 GatheringEntry} {order : List UInt32}
  {P : UInt32 → GatheringEntry → Prop}

/-- The operation `e` can lead from `m` to `m'`. -/
structure Described (o : Options) (e : Event) (m m' : Store) : Prop where
  nextGID : m'.nextGID = m.nextGID ∨ m'.nextGID = m.nextGID + 1
  byCode : m'.byCode = m.byCode ∨ WritesIndex o e
  change : ∀ gid, Change o e m m' gid

variable {o : Options} {e : Event} {m m' : Store} {gid : UInt32} {g : GatheringEntry} {ttl : Int}

/-! ### Writes to the store -/

theorem lookup_put (m : Store) (gid gid' : UInt32) (g : GatheringEntry) :
    (m.put gid g).gatherings.lookup gid' = if gid' = gid then some g else m.gatherings.lookup gid' :=
  GoMap.lookup_insert_eq m.gatherings gid gid' g

theorem lookup_remove (m : Store) (gid gid' : UInt32) :
    (m.remove gid).gatherings.lookup gid' = if gid' = gid then none else m.gatherings.lookup gid' :=
  GoMap.lookup_erase_eq m.gatherings gid gid'

/-- Nothing happens to a gathering that is looked up with the same result. -/
theorem change_of_lookup_eq (h : m'.gatherings.lookup gid = m.gatherings.lookup gid) : Change o e m m' gid := by
  cases hg : m.gatherings.lookup gid with
  | none => exact .gone (h.trans hg) (by rw [hg]; exact nofun)
  | some g => exact .kept hg (h.trans hg) .refl (.inr (.inl rfl))

/-- An operation that leaves the gatherings alone. -/
theorem described_same (hg : m'.gatherings = m.gatherings) (hn : m'.nextGID = m.nextGID)
    (hc : m'.byCode = m.byCode) : Described o e m m' :=
  ⟨.inl hn, .inl hc, fun gid => change_of_lookup_eq (by rw [hg])⟩

/-- An operation that writes to the index besides. -/
theorem described_of_writesIndex {m₁ : Store} (h : Described o e m m₁) (hw : WritesIndex o e)
    (hg : m'.gatherings = m₁.gatherings) (hn : m'.nextGID = m₁.nextGID) : Described o e m m' := by
  refine ⟨hn ▸ h.nextGID, .inr hw, fun gid => ?_⟩
  cases h.change gid with
  | kept hm h' t hone => exact .kept hm (hg ▸ h') t hone
  | gone h' hgone => exact .gone (hg ▸ h') hgone
  | fresh he hjoin hgid hnext h' t => exact .fresh he hjoin hgid (hn.trans hnext) (hg ▸ h') t

/-- An operation that writes one gathering. -/
theorem described_put (h : m.gatherings.lookup gid = some g) (t : ReflTransGen (Touch o m.reservationTTL gid e) g g')
    (hone : Combines e ∨ g' = g ∨ Touch o m.reservationTTL gid e g g') :
    Described o e m (m.put gid g') := by
  refine ⟨.inl rfl, .inl rfl, fun gid' => ?_⟩
  by_cases hgid : gid' = gid
  · subst hgid
    exact .kept h (by rw [lookup_put, if_pos rfl]) t hone
  · exact change_of_lookup_eq (by rw [lookup_put, if_neg hgid])

/-- An operation that touches one gathering once. -/
theorem described_touch (h : m.gatherings.lookup gid = some g) (t : Touch o m.reservationTTL gid e g g') :
    Described o e m (m.put gid g') :=
  described_put h (.single t) (.inr (.inr t))

theorem put_put (m : Store) (gid : UInt32) (g g' : GatheringEntry) :
    (m.put gid g).put gid g' = m.put gid g' := by
  unfold Store.put
  rw [Finmap.insert_insert]

/-- An operation that removes one gathering. -/
theorem described_remove (h : m.gatherings.lookup gid = some g) (hr : Removal gid g e) :
    Described o e m (m.remove gid) := by
  refine ⟨.inl rfl, .inl rfl, fun gid' => ?_⟩
  by_cases hgid : gid' = gid
  · subst hgid
    refine .gone (by rw [lookup_remove, if_pos rfl]) (fun g' hg' => ?_)
    obtain rfl := Option.some.inj (h.symm.trans hg')
    exact hr
  · exact change_of_lookup_eq (by rw [lookup_remove, if_neg hgid])

/-! ### Reserving and committing -/

/-- The three outcomes of `reserveJoinLocked`. -/
inductive ReserveResult (ttl now : Int) (g : GatheringEntry) (pid : UInt64) : Bool × GatheringEntry → Prop
  | seated (hpid : pid ∈ g.participants) : ReserveResult ttl now g pid (true, releaseReservation g pid)
  | held (hpid : pid ∉ g.participants) (hroom : Room (expireJoinReservations g now) pid) :
      ReserveResult ttl now g pid (true, putReservation (expireJoinReservations g now) pid (now + ttl))
  | full (hpid : pid ∉ g.participants) (hroom : ¬ Room (expireJoinReservations g now) pid) :
      ReserveResult ttl now g pid (false, expireJoinReservations g now)

theorem reserveResult (ttl now : Int) (g : GatheringEntry) (pid : UInt64) :
    ReserveResult ttl now g pid (reserveJoin ttl now g pid) := by
  unfold reserveJoin
  split
  · rename_i hpid
    exact .seated (containsPID_iff.mp hpid)
  · rename_i hpid
    rw [containsPID_iff] at hpid
    dsimp only
    split
    · rename_i hres
      exact .held hpid (.inl hres)
    · rename_i hres
      split
      · rename_i hfull
        exact .full hpid (fun hroom => hroom.elim hres (fun h => h hfull))
      · rename_i hfree
        exact .held hpid (.inr hfree)

/-- Releasing undoes a write of the same reservation. -/
theorem release_put (g : GatheringEntry) (pid : UInt64) (x : Int) :
    releaseReservation (putReservation g pid x) pid = releaseReservation g pid := by
  have hres : (g.reservations.insert pid x).erase pid = g.reservations.erase pid := by
    apply Finmap.ext_lookup
    intro k
    rw [GoMap.lookup_erase_eq, GoMap.lookup_erase_eq]
    split
    · rfl
    · rename_i hk
      rw [GoMap.lookup_insert_eq, if_neg hk]
  unfold releaseReservation putReservation
  rw [hres]

theorem release_release (g : GatheringEntry) (pid : UInt64) :
    releaseReservation (releaseReservation g pid) pid = releaseReservation g pid := by
  have hres : (g.reservations.erase pid).erase pid = g.reservations.erase pid :=
    GoMap.erase_eq_self (Finmap.lookup_erase pid _)
  unfold releaseReservation
  rw [hres]

/-- The commit of a reservation that has just been written. -/
theorem commit_put {g : GatheringEntry} (now x : Int) (hpid : pid ∉ g.participants) :
    commitReservedJoin now (putReservation g pid x) pid =
      if now < x then (true, { releaseReservation g pid with participants := g.participants ++ [pid] })
      else (false, releaseReservation g pid) := by
  unfold commitReservedJoin
  have hcontains : containsPID (putReservation g pid x).participants pid = false := by
    rw [← Bool.not_eq_true, containsPID_iff]
    exact hpid
  have hlookup : (putReservation g pid x).reservations.lookup pid = some x :=
    Finmap.lookup_insert _
  rw [hcontains, hlookup, release_put]
  rfl

section Request

variable {service : Service} {conn : Caller} {req : RMCMessage} {env : Env}

/-- A reservation of the caller that succeeds, its commit, and the refresh of the count. -/
theorem touch_reserve_commit {reserved : GatheringEntry} (hjoin : Joins service req)
    (hway : g.session.openParticipation = true ∨ JoinsDirectly req gid)
    (h : reserveJoin ttl env.reserveNow g conn.pid = (true, reserved)) :
    ReflTransGen (Touch o ttl gid (.request service conn req env)) g
      (refreshNumParticipants (commitReservedJoin env.commitNow reserved conn.pid).2) := by
  have hresult := reserveResult ttl env.reserveNow g conn.pid
  rw [h] at hresult
  cases hresult with
  | seated hpid =>
    have hcommit : commitReservedJoin env.commitNow (releaseReservation g conn.pid) conn.pid =
        (false, releaseReservation g conn.pid) := by
      have hcontains : containsPID (releaseReservation g conn.pid).participants conn.pid = true :=
        containsPID_iff.mpr hpid
      unfold commitReservedJoin
      rw [if_pos hcontains, release_release]
    rw [hcommit]
    exact .single (.rejoin hpid)
  | held hpid hroom =>
    have hpid' : conn.pid ∉ (expireJoinReservations g env.reserveNow).participants := hpid
    have hexpire : Touch o ttl gid (.request service conn req env) g
        (expireJoinReservations g env.reserveNow) := .expire (by simp [Event.readings])
    refine .head hexpire ?_
    rw [commit_put _ _ hpid']
    split
    · rename_i hnow
      exact .single (.join hjoin hway hpid' hroom hnow)
    · rename_i hnow
      exact .single (.lapse hpid' hroom (by omega))

/-- A reservation of the caller that is refused. -/
theorem touch_reserve_full (h : reserveJoin ttl env.reserveNow g conn.pid = (false, g')) :
    ReflTransGen (Touch o ttl gid (.request service conn req env)) g g' := by
  have hresult := reserveResult ttl env.reserveNow g conn.pid
  rw [h] at hresult
  cases hresult with
  | full _ _ => exact .single (.expire (by simp [Event.readings]))

/-! ### The search of `autoMatchmake` -/

/-- What the search does to the gathering under `gid`: at most its reservations expire. -/
def Searched (env : Env) (gs gs' : GoMap UInt32 GatheringEntry) (gid : UInt32) : Prop :=
  gs'.lookup gid = gs.lookup gid ∨
    ∃ g, gs.lookup gid = some g ∧ gs'.lookup gid = some (expireJoinReservations g env.selectNow)

theorem searched_refl (env : Env) (gs : GoMap UInt32 GatheringEntry) (gid : UInt32) :
    Searched env gs gs gid := .inl rfl

theorem expire_expire (g : GatheringEntry) (now : Int) :
    expireJoinReservations (expireJoinReservations g now) now = expireJoinReservations g now := by
  have hres : GoMap.deleteWhere (fun _ expires => !decide (now < expires))
      (GoMap.deleteWhere (fun _ expires => !decide (now < expires)) g.reservations) =
      GoMap.deleteWhere (fun _ expires => !decide (now < expires)) g.reservations := by
    apply Finmap.ext_lookup
    intro k
    rw [GoMap.lookup_deleteWhere, GoMap.lookup_deleteWhere, Option.filter_filter]
    simp
  unfold expireJoinReservations
  rw [hres]

theorem searched_trans {gs₁ gs₂ gs₃ : GoMap UInt32 GatheringEntry} (h₁ : Searched env gs₁ gs₂ gid)
    (h₂ : Searched env gs₂ gs₃ gid) : Searched env gs₁ gs₃ gid := by
  rcases h₁ with h₁ | ⟨g₁, hg₁, hg₁'⟩
  · rcases h₂ with h₂ | ⟨g₂, hg₂, hg₂'⟩
    · exact .inl (h₂.trans h₁)
    · exact .inr ⟨g₂, h₁ ▸ hg₂, hg₂'⟩
  · rcases h₂ with h₂ | ⟨g₂, hg₂, hg₂'⟩
    · exact .inr ⟨g₁, hg₁, h₂.trans hg₁'⟩
    · rw [hg₁', Option.some.injEq] at hg₂
      subst hg₂
      exact .inr ⟨g₁, hg₁, by rw [hg₂', expire_expire]⟩

theorem searched_insert {cand : GatheringEntry} {gid₀ : UInt32} (h : gs.lookup gid₀ = some cand) (gid : UInt32) :
    Searched env gs (gs.insert gid₀ (expireJoinReservations cand env.selectNow)) gid := by
  by_cases hgid : gid = gid₀
  · subst hgid
    exact .inr ⟨cand, h, Finmap.lookup_insert gs⟩
  · exact .inl (Finmap.lookup_insert_of_ne gs hgid)

theorem selectGathering_searched (env : Env) (conn : Caller) (src : MatchmakeSession)
    (order : List UInt32) (gs : GoMap UInt32 GatheringEntry) (gid : UInt32) :
    Searched env gs (selectGathering env conn src order gs).2 gid := by
  induction order generalizing gs with
  | nil => exact searched_refl env gs gid
  | cons gid₀ rest ih =>
    unfold selectGathering
    split
    · exact ih gs
    · rename_i cand hcand
      split
      · have hins : Searched env gs (gs.insert gid₀ (expireJoinReservations cand env.selectNow)) gid :=
          searched_insert hcand gid
        dsimp only
        split
        · exact hins
        · exact searched_trans hins (ih _)
      · exact ih gs

/-- A request to join or to open a gathering removes none. -/
theorem not_removal (hjoin : Joins service req) : ¬ Removal gid g (.request service conn req env) := by
  intro hr
  cases hr with
  | unregister _ _ _ => exact Service.noConfusion hjoin.1
  | leave _ _ _ => exact Service.noConfusion hjoin.1

/-- Such a request that writes one gathering and then goes on. -/
theorem described_after_put (hjoin : Joins service req) (h : m.gatherings.lookup gid = some g)
    (t : ReflTransGen (Touch o m.reservationTTL gid (.request service conn req env)) g g')
    (hd : Described o (.request service conn req env) (m.put gid g') m') :
    Described o (.request service conn req env) m m' := by
  refine ⟨hd.nextGID, hd.byCode, fun gid' => ?_⟩
  cases hd.change gid' with
  | @kept g₁ g₂ hg₁ h' t' _ =>
    rw [lookup_put] at hg₁
    split at hg₁
    · rename_i hgid
      subst hgid
      obtain rfl := Option.some.inj hg₁
      exact .kept h h' (t.trans t') (.inl hjoin)
    · exact .kept hg₁ h' t' (.inl hjoin)
  | gone h' hgone =>
    refine .gone h' (fun g₀ hg₀ => ?_)
    by_cases hgid : gid' = gid
    · exact absurd (hgone g' (by rw [lookup_put, if_pos hgid])) (not_removal hjoin)
    · exact hgone g₀ (by rw [lookup_put, if_neg hgid]; exact hg₀)
  | fresh he hjoin hgid hnext h' t' => exact .fresh he hjoin hgid hnext h' t'

/-- Such a request that first searches and then does what is described. -/
theorem described_searched (hjoin : Joins service req) (hs : ∀ gid, Searched env m.gatherings gs gid)
    (h : Described o (.request service conn req env) { m with gatherings := gs } m') :
    Described o (.request service conn req env) m m' := by
  refine ⟨h.nextGID, h.byCode, fun gid => ?_⟩
  cases h.change gid with
  | @kept g g' hg h' t _ =>
    rcases hs gid with hsame | ⟨g₀, hg₀, hexp⟩
    · exact .kept (hsame ▸ hg) h' t (.inl hjoin)
    · obtain rfl : expireJoinReservations g₀ env.selectNow = g := Option.some.inj (hexp.symm.trans hg)
      exact .kept hg₀ h' (.head (.expire (by simp [Event.readings])) t) (.inl hjoin)
  | gone h' hgone =>
    refine .gone h' (fun g hg => ?_)
    rcases hs gid with hsame | ⟨g₀, _, hexp⟩
    · exact hgone g (hsame.trans hg)
    · exact absurd (hgone _ hexp) (not_removal hjoin)
  | fresh he hjoin hgid hnext h' t => exact .fresh he hjoin hgid hnext h' t

/-- The search ends at a gathering that is open. -/
theorem selectGathering_open {src : MatchmakeSession} {gs' : GoMap UInt32 GatheringEntry}
    (h : selectGathering env conn src order gs = (some gid, gs')) :
    ∃ g, gs'.lookup gid = some g ∧ g.session.openParticipation = true := by
  induction order generalizing gs with
  | nil => cases h
  | cons gid₀ rest ih =>
    unfold selectGathering at h
    split at h
    · exact ih h
    · rename_i cand hcand
      split at h
      · rename_i hadm
        dsimp only at h
        split at h
        · cases h
          simp only [admissible, Bool.and_eq_true] at hadm
          exact ⟨_, Finmap.lookup_insert gs, hadm.1.2⟩
        · exact ih h
      · exact ih h

/-! ### Creation -/

/-- A new gathering under `nextGID`, perhaps edited before the lock is released. -/
theorem described_create (hjoin : Joins service req) (src : MatchmakeSession)
    (t : ReflTransGen (Touch o m.reservationTTL m.nextGID (.request service conn req env))
      (newGathering env.creation conn m.nextGID src) g')
    (hg : ∀ gid, m'.gatherings.lookup gid = if gid = m.nextGID then some g' else m.gatherings.lookup gid)
    (hn : m'.nextGID = m.nextGID + 1) (hc : m'.byCode = m.byCode) :
    Described o (.request service conn req env) m m' := by
  refine ⟨.inr hn, .inl hc, fun gid => ?_⟩
  by_cases hgid : gid = m.nextGID
  · subst hgid
    exact .fresh rfl hjoin rfl hn (by rw [hg, if_pos rfl]) t
  · exact change_of_lookup_eq (by rw [hg, if_neg hgid])

theorem touch_ownGathering (gid : UInt32) (src : MatchmakeSession) :
    ReflTransGen (Touch o ttl gid (.request service conn req env))
      (newGathering env.creation conn gid src) (ownGathering env conn gid src) := by
  simp only [ownGathering]
  split
  · have hedit : Touch o ttl gid (.request service conn req env) (newGathering env.creation conn gid src)
        { newGathering env.creation conn gid src with
          session := { (newGathering env.creation conn gid src).session with minParticipants := 1 } } :=
      .edit .solo
    exact .single hedit
  · exact .refl

theorem described_openOwn (hjoin : Joins service req) (src : MatchmakeSession) :
    Described o (.request service conn req env) m (openOwn o env conn req src m).1 := by
  apply described_create hjoin src ((touch_ownGathering m.nextGID src).tail .refresh)
  · intro gid
    show ((createGathering env.creation conn src m).2.put m.nextGID _).gatherings.lookup gid = _
    rw [lookup_put]
    split
    · rfl
    · rename_i hgid
      exact Finmap.lookup_insert_of_ne _ hgid
  · rfl
  · rfl

theorem described_autoMatchmake (hjoin : Joins service req) :
    Described o (.request service conn req env) m (autoMatchmake o env conn req m).1 := by
  simp only [autoMatchmake]
  split
  · exact described_same rfl rfl rfl
  · unfold autoMatchmakeWith
    split
    · exact described_openOwn hjoin _
    · dsimp only
      apply described_searched hjoin (selectGathering_searched env conn _ env.order m.gatherings)
      split
      · exact described_openOwn hjoin _
      · rename_i gid g hsel
        obtain ⟨gid', hfound, hmap⟩ := Option.bind_eq_some_iff.mp hsel
        obtain ⟨g', hg', heq⟩ := Option.map_eq_some_iff.mp hmap
        obtain ⟨rfl, rfl⟩ := Prod.mk.inj heq
        have hopen : g'.session.openParticipation = true := by
          obtain ⟨g₀, hg₀, hopen⟩ := selectGathering_open (Prod.ext hfound rfl)
          obtain rfl := Option.some.inj (hg₀.symm.trans hg')
          exact hopen
        cases hres : reserveJoin m.reservationTTL env.reserveNow g' conn.pid with
        | mk reserved g₁ =>
          cases reserved with
          | true =>
            show Described o _ _ (((Store.put _ gid' g₁).put gid' _))
            rw [put_put]
            exact described_put hg' (touch_reserve_commit hjoin (.inl hopen) hres) (.inl hjoin)
          | false =>
            exact described_after_put hjoin hg' (touch_reserve_full hres) (described_openOwn hjoin _)

theorem described_createSession (hjoin : Joins service req) :
    Described o (.request service conn req env) m (createSession o env conn req m).1 := by
  simp only [createSession]
  split
  · exact described_same rfl rfl rfl
  · exact described_create hjoin _ .refl (fun gid => GoMap.lookup_insert_eq _ _ _ _) rfl rfl

theorem described_joinSession (hs : service = .extension)
    (hmethod : req.method = Method.joinMatchmakeSessionWithParam) :
    Described o (.request service conn req env) m (joinSession o env conn req m).1 := by
  have hjoin : Joins service req := ⟨hs, .inr (.inr hmethod)⟩
  unfold joinSession joinGathering
  split
  · exact described_same rfl rfl rfl
  · rename_i g hg
    dsimp only
    split
    · exact described_touch hg .refresh
    · cases hres : reserveJoin m.reservationTTL env.reserveNow g conn.pid with
      | mk reserved g₁ =>
        cases reserved with
        | true =>
          exact described_put hg (touch_reserve_commit hjoin (.inr ⟨hmethod, rfl⟩) hres) (.inl hjoin)
        | false => exact described_put hg (touch_reserve_full hres) (.inl hjoin)

/-! ### Changes to one gathering -/

theorem described_setParticipation {opening : Bool} (hs : service = .extension)
    (hmethod : req.method = if opening then Method.openParticipation else Method.closeParticipation) :
    Described o (.request service conn req env) m (setParticipation req m opening).1 := by
  simp only [setParticipation]
  split
  · exact described_same rfl rfl rfl
  · rename_i g hg
    exact described_touch hg (.edit (.participation ⟨hs, hmethod, rfl⟩))

theorem described_privateRoomCreate (h : MakesCode service req) :
    Described o (.request service conn req env) m (privateRoomCreate req m).1 := by
  simp only [privateRoomCreate, makeCode, GoMap.modify]
  split
  · rename_i g hg
    have hcode : ∀ code, Touch o m.reservationTTL (readGID req) (.request service conn req env) g
        { g with code := code } := fun code => .edit (.code h rfl)
    exact described_of_writesIndex (described_touch hg (hcode _)) (.code h) rfl rfl
  · exact described_of_writesIndex (described_same rfl rfl rfl) (.code h) rfl rfl

theorem described_unregister (hmethod : req.method = Method.unregisterGathering) :
    Described o (.request .matchMaking conn req env) m (unregister conn req m).1 := by
  simp only [unregister]
  split
  · exact described_same rfl rfl rfl
  · rename_i g hg
    split
    · rename_i howner
      exact described_remove hg (.unregister hmethod rfl howner)
    · exact described_same rfl rfl rfl

theorem described_updateApplicationBuffer :
    Described o (.request service conn req env) m (updateApplicationBuffer conn req m).1 := by
  simp only [updateApplicationBuffer]
  split
  · exact described_same rfl rfl rfl
  · rename_i g hg
    split
    · rename_i hfirst
      exact described_touch hg (.edit (.applicationData hfirst))
    · exact described_same rfl rfl rfl

theorem described_modifyCurrentGameAttribute {r : Store × Reply}
    (h : modifyCurrentGameAttribute conn req m = some r) :
    Described o (.request service conn req env) m r.1 := by
  simp only [modifyCurrentGameAttribute] at h
  split at h
  · cases h
    exact described_same rfl rfl rfl
  · rename_i g hg
    split at h
    · rename_i hfirst
      split at h
      · cases h
      · cases h
        exact described_touch hg (.edit (.attribs hfirst))
    · cases h
      exact described_same rfl rfl rfl

/-- A hand-over only reorders the participants. -/
theorem migrate_perm (candidates participants : List UInt64) :
    (migrate candidates participants).Perm participants := by
  unfold migrate
  split
  · exact .refl _
  · rename_i c hc
    have hmem : c ∈ participants := containsPID_iff.mp (List.find?_some hc)
    have hidx : participants.idxOf c < participants.length := List.idxOf_lt_length_iff.mpr hmem
    have hzero : 0 < participants.length := by omega
    unfold swapFront
    rw [List.getD_eq_getElem _ _ hidx, List.getD_eq_getElem _ _ hzero]
    exact List.set_set_perm hzero hidx

/-- Whoever is in a gathering after a change was there before, or is the caller of a join. -/
theorem mem_touch (t : Touch o ttl gid e g g') {p : UInt64} (hp : p ∈ g'.participants) :
    p ∈ g.participants ∨ ∃ service conn req env, e = .request service conn req env ∧ Joins service req ∧
      (g.session.openParticipation = true ∨ JoinsDirectly req gid) ∧ p = conn.pid := by
  cases t with
  | join hjoin hway _ _ _ =>
    rcases List.mem_append.mp hp with hp | hp
    · exact .inl hp
    · exact .inr ⟨_, _, _, _, rfl, hjoin, hway, List.mem_singleton.mp hp⟩
  | migrate candidates _ => exact .inl ((migrate_perm candidates g.participants).mem_iff.mp hp)
  | leave _ _ _ => exact .inl (mem_removePID.mp hp).1
  | disconnect _ _ _ => exact .inl (mem_removePID.mp hp).1
  | disconnectOther _ _ => exact .inl (mem_removePID.mp hp).1
  | _ => exact .inl hp

theorem described_migrateGatheringOwnership {hasParticipantsOnly : Bool}
    (h : ∀ gid candidates, readMigration o req hasParticipantsOnly = (gid, candidates) →
      Migrates o service req gid candidates) :
    Described o (.request service conn req env) m
      (migrateGatheringOwnership o env conn req m hasParticipantsOnly).1 := by
  simp only [migrateGatheringOwnership]
  split
  · exact described_same rfl rfl rfl
  · rename_i g hg
    split
    · exact described_same rfl rfl rfl
    · exact described_touch hg (.migrate _ (h _ _ rfl))

theorem described_endParticipation (hmethod : req.method = Method.endParticipation) :
    Described o (.request .matchMakingExt conn req env) m (endParticipation conn req m).1 := by
  simp only [endParticipation]
  split
  · exact described_same rfl rfl rfl
  · rename_i g hg
    split
    · rename_i hlast
      exact described_remove hg (.leave hmethod rfl hlast)
    · rename_i hrest
      exact described_touch hg (.leave hmethod rfl hrest)

theorem described_updateSessionPart (hs : service = .extension)
    (hmethod : req.method = Method.updateMatchmakeSessionPart) :
    Described o (.request service conn req env) m (updateSessionPart o req m).1 := by
  simp only [updateSessionPart, applySessionPart]
  split
  · rename_i ho
    split
    · exact described_same rfl rfl rfl
    · rename_i herr
      have hpart : UpdatesPart o service req
          (StreamIn.run (UpdateMatchmakeSessionParam.read o.settings) req.body).1 :=
        ⟨hs, hmethod, ho, Prod.ext rfl (Bool.eq_false_of_not_eq_true herr)⟩
      dsimp only
      split
      · exact described_same rfl rfl rfl
      · rename_i g hg
        exact described_of_writesIndex (described_touch hg (.part _ hpart rfl)) (.part hpart) rfl rfl
  · exact described_same rfl rfl rfl

theorem described_updateNotificationData :
    Described o (.request service conn req env) m (updateNotificationData o env conn req m).1 := by
  simp only [updateNotificationData]
  split <;> exact described_same rfl rfl rfl

/-! ### The handlers -/

/-- What a handler gives, if it gives anything, is described. -/
def DescribedResult (o : Options) (e : Event) (m : Store) (result : Option (Store × Reply)) : Prop :=
  ∀ r, result = some r → Described o e m r.1

theorem described_some {r : Store × Reply} (h : Described o e m r.1) : DescribedResult o e m (some r) := by
  intro r' hr
  cases hr
  exact h

theorem described_reply (reply : Reply) : DescribedResult o e m (some (m, reply)) :=
  described_some (described_same rfl rfl rfl)

theorem described_of_pos {c : Prop} [Decidable c] {a b : Option (Store × Reply)} (ha : c → DescribedResult o e m a)
    (hb : DescribedResult o e m b) : DescribedResult o e m (if c then a else b) := by
  split
  · rename_i hc
    exact ha hc
  · exact hb

theorem described_ite {c : Prop} [Decidable c] {a b : Option (Store × Reply)} (ha : DescribedResult o e m a)
    (hb : DescribedResult o e m b) : DescribedResult o e m (if c then a else b) :=
  described_of_pos (fun _ => ha) hb

theorem described_extensionHandler :
    DescribedResult o (.request .extension conn req env) m (extensionHandler o env conn req m) := by
  unfold extensionHandler
  exact
    described_of_pos (fun h => described_some (described_setParticipation rfl h)) <|
    described_of_pos (fun h => described_some (described_setParticipation rfl h)) <|
    described_of_pos (fun h => described_some (described_autoMatchmake ⟨rfl, .inl h⟩)) <|
    described_of_pos (fun h => described_some (described_createSession ⟨rfl, .inr (.inl h)⟩)) <|
    described_of_pos (fun h => described_some (described_joinSession rfl h)) <|
    described_ite (described_reply _) <|
    described_of_pos (fun h => described_some (described_privateRoomCreate ⟨rfl, .inl h⟩)) <|
    described_ite (described_reply _) <|
    described_ite (described_reply _) <|
    described_ite (described_ite (described_reply _) (described_reply _)) <|
    described_ite (described_reply _) <|
    described_ite (described_some described_updateNotificationData) <|
    described_ite (described_reply _) <|
    described_ite (described_reply _) <|
    described_of_pos (fun h => described_some (described_updateSessionPart rfl h)) <|
    described_ite (described_some described_updateApplicationBuffer) <|
    described_ite (fun _ => described_modifyCurrentGameAttribute) <|
    described_of_pos (fun h => described_some (described_privateRoomCreate ⟨rfl, .inr h⟩)) <|
    described_ite (described_reply _) <|
    described_ite (described_reply _) <|
    described_ite (described_reply _) <|
    described_ite (described_ite (described_reply _) (described_reply _)) <|
    described_ite (described_reply _) <|
    described_ite (described_reply _) (described_reply _)

theorem described_matchMakingHandler :
    Described o (.request .matchMaking conn req env) m (matchMakingHandler o env conn req m).1 := by
  simp only [matchMakingHandler]
  split
  · exact described_same rfl rfl rfl
  split
  · rename_i hmethod
    exact described_unregister hmethod
  split
  · exact described_same rfl rfl rfl
  split
  · exact described_same rfl rfl rfl
  split
  · rename_i hmethod
    exact described_migrateGatheringOwnership (fun _ _ h => ⟨rfl, .inl ⟨hmethod, h⟩⟩)
  split
  · rename_i hmethod
    exact described_migrateGatheringOwnership (fun _ _ h => ⟨rfl, .inr ⟨hmethod, h⟩⟩)
  split
  · exact described_same rfl rfl rfl
  split <;> exact described_same rfl rfl rfl

theorem described_matchMakingExtHandler :
    Described o (.request .matchMakingExt conn req env) m (matchMakingExtHandler conn req m).1 := by
  unfold matchMakingExtHandler
  split
  · rename_i hmethod
    exact described_endParticipation hmethod
  · exact described_same rfl rfl rfl

theorem described_handle :
    DescribedResult o (.request service conn req env) m (handle o env service conn req m) := by
  cases service with
  | extension => exact described_extensionHandler
  | matchMaking => exact described_some described_matchMakingHandler
  | matchMakingExt => exact described_some described_matchMakingExtHandler

end Request

/-! ### The other operations -/

theorem described_reserveJoinOp (gid : UInt32) (pid : UInt64) (now : Int) :
    Described o (.reserveJoin gid pid now) m (reserveJoinOp gid pid now m).2 := by
  unfold reserveJoinOp
  split
  · exact described_same rfl rfl rfl
  · split
    · exact described_same rfl rfl rfl
    · rename_i g hg
      have hexpire : Touch o m.reservationTTL gid (.reserveJoin gid pid now) g
          (expireJoinReservations g now) := .expire (by simp [Event.readings])
      have hresult := reserveResult m.reservationTTL now g pid
      dsimp only
      cases hres : reserveJoin m.reservationTTL now g pid with
      | mk reserved g₁ =>
        rw [hres] at hresult
        cases hresult with
        | seated hpid => exact described_touch hg (.holdSeated hpid)
        | held hpid hroom => exact described_put hg (.head hexpire (.single (.hold hpid hroom))) (.inl trivial)
        | full _ _ => exact described_touch hg hexpire

theorem described_cancelJoinReservation (gid : UInt32) (pid : UInt64) :
    Described o (.cancelJoinReservation gid pid) m (cancelJoinReservation gid pid m) := by
  unfold cancelJoinReservation
  split
  · exact described_same rfl rfl rfl
  · rename_i g hg
    exact described_touch hg .cancel

/-! ### `RemovePlayer` -/

/-- One round of the loop, seen at the gatherings. -/
theorem gatherings_removePlayerAt (pid : UInt64) (m : Store) (gid : UInt32) :
    (removePlayerAt pid m gid).gatherings =
      GoMap.updateAt (fun _ g => removePlayerFrom pid g) gid m.gatherings := by
  unfold removePlayerAt GoMap.updateAt
  cases m.gatherings.lookup gid with
  | none => rfl
  | some g =>
    dsimp only
    cases removePlayerFrom pid g with
    | none => rfl
    | some g' => rfl

theorem nextGID_removePlayerAt (pid : UInt64) (m : Store) (gid : UInt32) :
    (removePlayerAt pid m gid).nextGID = m.nextGID := by
  unfold removePlayerAt
  cases m.gatherings.lookup gid with
  | none => rfl
  | some g =>
    dsimp only
    cases removePlayerFrom pid g with
    | none => rfl
    | some g' => rfl

/-- The whole loop. -/
theorem foldl_removePlayerAt (pid : UInt64) (order : List UInt32) (m : Store) :
    (order.foldl (removePlayerAt pid) m).gatherings =
        GoMap.rangeUpdate (fun _ g => removePlayerFrom pid g) order m.gatherings ∧
      (order.foldl (removePlayerAt pid) m).nextGID = m.nextGID := by
  induction order generalizing m with
  | nil => exact ⟨rfl, rfl⟩
  | cons gid order ih =>
    obtain ⟨hg, hn⟩ := ih (removePlayerAt pid m gid)
    rw [gatherings_removePlayerAt] at hg
    rw [nextGID_removePlayerAt] at hn
    exact ⟨hg, hn⟩

/-- **Spec of `RemovePlayer`.**  Each gathering loses the player, or goes. -/
theorem lookup_removePlayer (hpid : pid ≠ 0) (horder : GoMap.Enumerates order m.gatherings) (gid : UInt32) :
    (removePlayer pid order m).gatherings.lookup gid =
      (m.gatherings.lookup gid).bind (removePlayerFrom pid) := by
  unfold removePlayer
  rw [if_neg hpid, (foldl_removePlayerAt pid order _).1]
  exact GoMap.lookup_rangeUpdate horder gid

theorem participants_removePlayerFrom (h : removePlayerFrom pid g = some g') :
    g'.participants = removePID g.participants pid := by
  simp only [removePlayerFrom] at h
  split at h
  · cases h
    rfl
  · split at h
    · cases h
    · cases h
      rfl

/-- Who takes part after `RemovePlayer` did so before, and is somebody else. -/
theorem mem_removePlayer {p : UInt64} (hpid : pid ≠ 0) (horder : GoMap.Enumerates order m.gatherings)
    (h : (removePlayer pid order m).gatherings.lookup gid = some g') (hp : p ∈ g'.participants) :
    p ≠ pid ∧ ∃ g, m.gatherings.lookup gid = some g ∧ p ∈ g.participants := by
  rw [lookup_removePlayer hpid horder] at h
  obtain ⟨g, hg, hrem⟩ := Option.bind_eq_some_iff.mp h
  rw [participants_removePlayerFrom hrem, mem_removePID] at hp
  exact ⟨hp.2, g, hg, hp.1⟩

theorem touch_removePlayerFrom (hpid : pid ≠ 0) (h : removePlayerFrom pid g = some g') :
    Touch o ttl gid (.removePlayer pid order) g g' := by
  simp only [removePlayerFrom] at h
  split at h
  · rename_i hlen
    cases h
    refine .disconnectOther hpid (fun hmem => ?_)
    have hall := List.length_filter_eq_length_iff.mp hlen pid hmem
    simp at hall
  · split at h
    · cases h
    · rename_i hrest
      cases h
      exact .disconnect hpid (fun hempty => hrest (.inl hempty)) (fun howner => hrest (.inr howner))

theorem described_removePlayer (horder : GoMap.Enumerates order m.gatherings) :
    Described o (.removePlayer pid order) m (removePlayer pid order m) := by
  by_cases hpid : pid = 0
  · unfold removePlayer
    rw [if_pos hpid]
    exact described_same rfl rfl rfl
  · refine ⟨.inl ?_, .inr .disconnect, fun gid => ?_⟩
    · unfold removePlayer
      rw [if_neg hpid, (foldl_removePlayerAt pid order _).2]
    · have hlookup := lookup_removePlayer hpid horder gid
      cases hg : m.gatherings.lookup gid with
      | none =>
        exact .gone (by rw [hlookup, hg, Option.bind_none]) (by rw [hg]; exact nofun)
      | some g =>
        rw [hg, Option.bind_some] at hlookup
        cases hrem : removePlayerFrom pid g with
        | none => exact .gone (hlookup.trans hrem) (fun _ _ => .disconnect hpid)
        | some g' =>
          have t : Touch o m.reservationTTL gid (.removePlayer pid order) g g' :=
            touch_removePlayerFrom hpid hrem
          exact .kept hg (hlookup.trans hrem) (.single t) (.inr (.inr t))

/-! ### Gatherings before and after a touch -/

theorem maxParticipants_newGathering (env : CreationEnv) (conn : Caller) (gid : UInt32)
    (src : MatchmakeSession) : 0 < (newGathering env conn gid src).session.maxParticipants := by
  apply UInt16.pos_iff_ne_zero.mpr
  simp only [newGathering, finalizeCreatedSession]
  split <;> split <;> simp_all

theorem nodup_append_pid {participants : List UInt64} (h : participants.Nodup) (hpid : pid ∉ participants) :
    (participants ++ [pid]).Nodup := by
  rw [List.nodup_append]
  refine ⟨h, List.nodup_singleton _, ?_⟩
  intro p hp q hq heq
  subst heq
  exact hpid (List.mem_singleton.mp hq ▸ hp)

/-- Nobody is removed who is not there. -/
theorem without_of_notMem (h : pid ∉ g.participants) : without g pid = releaseReservation g pid := by
  have hsame : removePID g.participants pid = g.participants := by
    apply List.filter_eq_self.mpr
    intro p hp
    exact bne_iff_ne.mpr (fun heq => h (heq ▸ hp))
  unfold without
  rw [hsame]
  rfl

/-! ### Every operation is described -/

theorem step_described (h : step o m e = some m') : Described o e m m' := by
  cases e with
  | request service conn req env =>
    simp only [step] at h
    split at h
    · obtain ⟨r, hr, rfl⟩ := Option.map_eq_some_iff.mp h
      exact described_handle r hr
    · cases h
  | reserveJoin gid pid now =>
    cases h
    exact described_reserveJoinOp gid pid now
  | cancelJoinReservation gid pid =>
    cases h
    exact described_cancelJoinReservation gid pid
  | setJoinReservationTTL ttl =>
    cases h
    exact described_same rfl rfl rfl
  | removePlayer pid order =>
    simp only [step] at h
    split at h
    · rename_i horder
      cases h
      exact described_removePlayer horder
    · cases h

theorem touches_keep {P : GatheringEntry → Prop} (htouch : ∀ {g g'}, P g → Touch o ttl gid e g g' → P g')
    {g : GatheringEntry} (hg : P g) (t : ReflTransGen (Touch o ttl gid e) g g') : P g' := by
  induction t with
  | refl => exact hg
  | tail _ t ih => exact htouch ih t

/-- A property of single gatherings that new ones have and that touches keep, as long as the operation
meets `C`, holds of what an operation leaves.  The condition is asked of the gathering before the operation;
where several touches come together it must not depend on the gathering. -/
theorem step_live_of {C : UInt32 → GatheringEntry → Prop}
    (hnew : ∀ env conn gid src, P gid (newGathering env conn gid src))
    (htouch : ∀ {ttl gid g g'}, P gid g → C gid g → Touch o ttl gid e g g' → P gid g')
    (hcombine : Combines e → ∀ gid g, C gid g) (hC : ∀ gid g, m.gatherings.lookup gid = some g → C gid g)
    (hm : ∀ gid g, m.gatherings.lookup gid = some g → P gid g) (h : step o m e = some m') :
    ∀ gid g, m'.gatherings.lookup gid = some g → P gid g := by
  intro gid g hg
  cases (step_described h).change gid with
  | kept h₀ h' t hone =>
    obtain rfl := Option.some.inj (hg.symm.trans h')
    rcases hone with hc | rfl | t₁
    · exact touches_keep (fun hP t => htouch hP (hcombine hc _ _) t) (hm _ _ h₀) t
    · exact hm _ _ h₀
    · exact htouch (hm _ _ h₀) (hC _ _ h₀) t₁
  | gone h' _ =>
    rw [h'] at hg
    cases hg
  | fresh he hjoin _ _ h' t =>
    obtain rfl := Option.some.inj (hg.symm.trans h')
    have hc : Combines e := he ▸ hjoin
    exact touches_keep (fun hP t => htouch hP (hcombine hc _ _) t) (hnew _ _ _ _) t

/-- A property of single gatherings that new ones have and touches keep holds of what an operation
leaves. -/
theorem step_live (hnew : ∀ env conn gid src, P gid (newGathering env conn gid src))
    (htouch : ∀ {e ttl gid g g'}, P gid g → Touch o ttl gid e g g' → P gid g')
    (hm : ∀ gid g, m.gatherings.lookup gid = some g → P gid g) (h : step o m e = some m') :
    ∀ gid g, m'.gatherings.lookup gid = some g → P gid g :=
  step_live_of (C := fun _ _ => True) hnew (fun hP _ t => htouch hP t) (fun _ _ _ => trivial)
    (fun _ _ _ => trivial) hm h

/-- **Rule for properties of single gatherings.**  They hold of every live gathering of every state that
a run reaches. -/
theorem live_invariant (hnew : ∀ env conn gid src, P gid (newGathering env conn gid src))
    (htouch : ∀ {e ttl gid g g'}, P gid g → Touch o ttl gid e g g' → P gid g')
    (h : Reachable (step o) newMatchmaking m) :
    ∀ gid g, m.gatherings.lookup gid = some g → P gid g := by
  apply reachable_invariant (P := fun m => ∀ gid g, m.gatherings.lookup gid = some g → P gid g) _ _ h
  · intro s l s' hs hstep
    exact step_live hnew htouch hs hstep
  · intro gid g hg
    simp [newMatchmaking] at hg

end NextendoMatchmaking.Matchmaking
