import NextendoMatchmaking.Matchmaking.Opening
import NextendoMatchmaking.Matchmaking.Ownership

/-!
# What an outsider can do to a gathering

An outsider is a caller that is neither the owner of a gathering nor its first participant.  Some methods
check this (`UnregisterGathering` by the owner, `UpdateApplicationBuffer` and `ModifyCurrentGameAttribute` by
the first participant), others do not.  `outsider_reconfigures` lists exactly the requests by which an
outsider changes what the owner decides about a gathering (`Reconfigures`): opening and closing it, handing
it over, updating a part of its session, and opening a gathering of its own after the counter of the ids has
come round to a live one.
-/

namespace NextendoMatchmaking.Matchmaking

open NextendoMatchmaking.Runs Relation

variable {o : Options} {m m' : Store} {gid : UInt32} {g g' : GatheringEntry} {ttl : Int}
  {service : Service} {conn : Caller} {req : RMCMessage} {env : Env}
variable {p : UpdateMatchmakeSessionParam}

/-- What the owner decides about a gathering is the same. -/
structure SameLobby (g g' : GatheringEntry) : Prop where
  openParticipation : g'.session.openParticipation = g.session.openParticipation
  attribs : g'.session.attribs = g.session.attribs
  applicationData : g'.session.applicationData = g.session.applicationData
  maxParticipants : g'.session.maxParticipants = g.session.maxParticipants
  codeword : g'.session.codeword = g.session.codeword
  owner : g'.session.ownerPID = g.session.ownerPID
  first : g'.participants.head? = g.participants.head?

/-- The gathering is live in `m'`, with what its owner has decided. -/
def Unchanged (gid : UInt32) (g : GatheringEntry) (m' : Store) : Prop :=
  ∃ g', m'.gatherings.lookup gid = some g' ∧ SameLobby g g'

/-- The update carries a value for one of the fields that `g` does not have. -/
def Alters (p : UpdateMatchmakeSessionParam) (g : GatheringEntry) : Prop :=
  ((p.modificationFlags &&& modFlagCodeword ≠ 0 ∨ p.codeword ≠ []) ∧ p.codeword ≠ g.session.codeword) ∨
    (p.attributes ≠ [] ∧ p.attributes ≠ g.session.attribs) ∨
    (p.applicationBuffer ≠ [] ∧ p.applicationBuffer ≠ g.session.applicationData) ∨
    (p.maxParticipants ≠ 0 ∧ p.maxParticipants ≠ g.session.maxParticipants) ∨
    (p.modificationFlags &&& modFlagOpenParticipation ≠ 0 ∧
      p.openParticipation ≠ g.session.openParticipation)

/-- The request names the gathering `g` under `gid` and writes something else to it than it has. -/
inductive Rewrites (o : Options) (service : Service) (req : RMCMessage) (gid : UInt32)
    (g : GatheringEntry) : Prop
  | participation {opening : Bool} (h : SetsParticipation opening service req gid)
      (hne : g.session.openParticipation ≠ opening)
  | migrate {candidates : List UInt64} {c : UInt64} (h : Migrates o service req gid candidates)
      (hc : candidates.find? (containsPID g.participants) = some c) (hne : g.participants.head? ≠ some c)
  | part {p : UpdateMatchmakeSessionParam} (h : UpdatesPart o service req p) (hgid : p.gid = gid)
      (halters : Alters p g)

/-- The requests by which an outsider changes the gathering `g` under `gid`. -/
inductive Reconfigures (o : Options) (env : Env) (service : Service) (conn : Caller) (req : RMCMessage)
    (m : Store) (gid : UInt32) (g : GatheringEntry) : Prop
  | rewrites (h : Rewrites o service req gid g)
  | replaces (hs : service = .extension) (h : Opens o env conn req m) (hgid : m.nextGID = gid)

/-! ### Touches by an outsider -/

theorem sameLobby_refl (g : GatheringEntry) : SameLobby g g := ⟨rfl, rfl, rfl, rfl, rfl, rfl, rfl⟩

theorem SameLobby.trans {g₁ g₂ g₃ : GatheringEntry} (h : SameLobby g₁ g₂) (h' : SameLobby g₂ g₃) :
    SameLobby g₁ g₃ :=
  ⟨h'.openParticipation.trans h.openParticipation, h'.attribs.trans h.attribs,
    h'.applicationData.trans h.applicationData, h'.maxParticipants.trans h.maxParticipants,
    h'.codeword.trans h.codeword, h'.owner.trans h.owner, h'.first.trans h.first⟩

/-- A field of a partial update: what the gathering has, or nothing to write. -/
theorem ite_eq_of_not_alters {α : Type} {c : Prop} [Decidable c] {a b : α} (h : ¬ (c ∧ a ≠ b)) :
    (if c then a else b) = b := by
  split
  · rename_i hc
    by_contra hne
    exact h ⟨hc, hne⟩
  · rfl

theorem sameLobby_applyPart (h : ¬ Alters p g) : SameLobby g (applyPart p g) := by
  simp only [Alters, not_or] at h
  obtain ⟨hcode, hattribs, hbuffer, hmax, hopen⟩ := h
  exact ⟨ite_eq_of_not_alters hopen, ite_eq_of_not_alters hattribs, ite_eq_of_not_alters hbuffer,
    ite_eq_of_not_alters hmax, ite_eq_of_not_alters hcode, rfl, rfl⟩

/-- A touch by an outsider that rewrites nothing. -/
theorem touch_sameLobby {p : UInt64} (hfirst : g.participants.head? = some p) (hout : p ≠ conn.pid)
    (hsafe : ¬ Rewrites o service req gid g) (t : Touch o ttl gid (.request service conn req env) g g') :
    SameLobby g g' := by
  cases t with
  | join _ _ _ _ _ =>
    refine ⟨rfl, rfl, rfl, rfl, rfl, rfl, ?_⟩
    rw [hfirst]
    exact head_append hfirst
  | edit hedit =>
    cases hedit with
    | solo => exact ⟨rfl, rfl, rfl, rfl, rfl, rfl, rfl⟩
    | @participation opening h =>
      refine ⟨?_, rfl, rfl, rfl, rfl, rfl, rfl⟩
      by_contra hne
      exact hsafe (.participation h (fun heq => hne heq.symm))
    | code _ _ => exact ⟨rfl, rfl, rfl, rfl, rfl, rfl, rfl⟩
    | applicationData hhead =>
      rw [List.headD_eq_head?_getD, hfirst] at hhead
      exact absurd hhead hout
    | attribs hhead =>
      rw [hfirst] at hhead
      exact absurd (Option.some.inj hhead) hout
  | part q hpart hgid => exact sameLobby_applyPart (fun halters => hsafe (.part hpart hgid halters))
  | migrate candidates hmig =>
    have hsame : migrate candidates g.participants = g.participants := by
      apply migrate_of_first hfirst
      intro c hc
      by_contra hne
      refine hsafe (.migrate hmig hc ?_)
      rw [hfirst]
      exact fun heq => hne (Option.some.inj heq).symm
    refine ⟨rfl, rfl, rfl, rfl, rfl, rfl, ?_⟩
    show (migrate candidates g.participants).head? = _
    rw [hsame]
  | leave _ _ _ =>
    refine ⟨rfl, rfl, rfl, rfl, rfl, rfl, ?_⟩
    rw [hfirst]
    exact head_removePID hfirst hout
  | _ => exact ⟨rfl, rfl, rfl, rfl, rfl, rfl, rfl⟩

/-- A request to join or to open a gathering rewrites none. -/
theorem not_rewrites_of_joins (hjoin : Joins service req) (gid : UInt32) (g : GatheringEntry) :
    ¬ Rewrites o service req gid g := by
  obtain ⟨rfl, hmethod⟩ := hjoin
  intro hr
  cases hr with
  | @participation opening h _ =>
    rw [h.2.1] at hmethod
    cases opening <;> revert hmethod <;> decide
  | migrate h _ _ => exact Service.noConfusion h.1
  | part h _ _ =>
    rw [h.method] at hmethod
    revert hmethod
    decide

/-- What is left of the gathering after a request of an outsider that rewrites nothing. -/
theorem sameLobby_of_touches {p : UInt64} (hfirst : g.participants.head? = some p) (hout : p ≠ conn.pid)
    (hsafe : ¬ Rewrites o service req gid g)
    (t : ReflTransGen (Touch o ttl gid (.request service conn req env)) g g')
    (hone : Combines (.request service conn req env) ∨ g' = g ∨
      Touch o ttl gid (.request service conn req env) g g') : SameLobby g g' := by
  rcases hone with hjoin | rfl | t₁
  · refine touches_keep (P := SameLobby g) ?_ (sameLobby_refl g) t
    intro g₁ g₂ h₁ t₂
    have hfirst₁ : g₁.participants.head? = some p := h₁.first.trans hfirst
    exact h₁.trans (touch_sameLobby hfirst₁ hout (not_rewrites_of_joins hjoin gid g₁) t₂)
  · exact sameLobby_refl _
  · exact touch_sameLobby hfirst hout hsafe t₁

/-- An outsider removes no gathering. -/
theorem not_removal_of_outsider {p : UInt64} (hfirst : g.participants.head? = some p)
    (hout : p ≠ conn.pid) (howner : g.session.ownerPID ≠ conn.pid) :
    ¬ Removal gid g (.request service conn req env) := by
  intro hr
  cases hr with
  | unregister _ _ hmine => exact howner hmine
  | leave _ _ hlast =>
    have hstays := head_removePID hfirst hout
    rw [hlast] at hstays
    cases hstays

/-! ### The requests that rewrite -/

theorem handle_setParticipation {opening : Bool} (h : SetsParticipation opening service req gid) :
    handle o env service conn req m = some (setParticipation req m opening) := by
  obtain ⟨rfl, hmethod, -⟩ := h
  cases opening
  · simp only [handle, extensionHandler, hmethod]
    rfl
  · simp only [handle, extensionHandler, hmethod]
    rfl

theorem handle_updatesPart (h : UpdatesPart o service req p) :
    (handle o env service conn req m).map Prod.fst = some (applySessionPart p m) := by
  obtain ⟨rfl, hmethod, hpersists, hdecoded⟩ := h
  have hhandle : handle o env .extension conn req m = some (updateSessionPart o req m) := by
    simp only [handle, extensionHandler, hmethod]
    rfl
  rw [hhandle]
  simp only [updateSessionPart, hpersists, hdecoded]
  rfl

/-- The gathering after a hand-over. -/
theorem handle_migrates {candidates : List UInt64} (h : Migrates o service req gid candidates)
    (hg : m.gatherings.lookup gid = some g) (hne : g.participants ≠ []) :
    (handle o env service conn req m).map Prod.fst =
      some (m.put gid { g with participants := migrate candidates g.participants }) := by
  have hresult : ∀ b, readMigration o req b = (gid, candidates) →
      (migrateGatheringOwnership o env conn req m b).1 =
        m.put gid { g with participants := migrate candidates g.participants } := by
    intro b hread
    simp only [migrateGatheringOwnership]
    split
    · rename_i hnone
      have hlookup : m.gatherings.lookup (readMigration o req b).1 = none := hnone
      rw [hread, hg] at hlookup
      cases hlookup
    · rename_i g₀ hg₀
      have hlookup : m.gatherings.lookup (readMigration o req b).1 = some g₀ := hg₀
      rw [hread] at hlookup
      obtain rfl := Option.some.inj (hg.symm.trans hlookup)
      rw [if_neg hne]
      show m.put (readMigration o req b).1
        { g with participants := migrate (readMigration o req b).2 g.participants } = _
      rw [hread]
  obtain ⟨rfl, ⟨hmethod, hread⟩ | ⟨hmethod, hread⟩⟩ := h
  · have hhandle : handle o env .matchMaking conn req m =
        some (migrateGatheringOwnership o env conn req m true) := by
      simp only [handle, matchMakingHandler, hmethod]
      rfl
    rw [hhandle, Option.map_some, hresult true hread]
  · have hhandle : handle o env .matchMaking conn req m =
        some (migrateGatheringOwnership o env conn req m false) := by
      simp only [handle, matchMakingHandler, hmethod]
      rfl
    rw [hhandle, Option.map_some, hresult false hread]

/-- A hand-over makes the candidate it finds the first participant. -/
theorem head_migrate {candidates list : List UInt64} {c : UInt64}
    (hc : candidates.find? (containsPID list) = some c) : (migrate candidates list).head? = some c := by
  have hmem : c ∈ list := containsPID_iff.mp (List.find?_some hc)
  have hidx : list.idxOf c < list.length := List.idxOf_lt_length_iff.mpr hmem
  have hget : list.getD (list.idxOf c) 0 = c := by
    rw [List.getD_eq_getElem _ _ hidx, List.getElem_idxOf]
  unfold migrate
  rw [hc]
  show ((list.set 0 (list.getD (list.idxOf c) 0)).set (list.idxOf c) (list.getD 0 0)).head? = some c
  rw [hget]
  cases list with
  | nil => cases hmem
  | cons p rest =>
    by_cases heq : p = c
    · subst heq
      rw [List.idxOf_cons_self]
      rfl
    · rw [List.idxOf_cons_ne rest heq]
      rfl

theorem ite_ne_of_alters {α : Type} {c : Prop} [Decidable c] {a b : α} (h : c ∧ a ≠ b) :
    (if c then a else b) ≠ b := by
  rw [if_pos h.1]
  exact h.2

theorem not_sameLobby_applyPart (h : Alters p g) : ¬ SameLobby g (applyPart p g) := by
  intro hsame
  rcases h with h | h | h | h | h
  · exact ite_ne_of_alters h hsame.codeword
  · exact ite_ne_of_alters h hsame.attribs
  · exact ite_ne_of_alters h hsame.applicationData
  · exact ite_ne_of_alters h hsame.maxParticipants
  · exact ite_ne_of_alters h hsame.openParticipation

/-- A request that rewrites the gathering leaves it changed. -/
theorem changed_of_rewrites (env : Env) (conn : Caller) (hne : g.participants ≠ [])
    (hg : m.gatherings.lookup gid = some g) (h : Rewrites o service req gid g) :
    ∃ m' g', (handle o env service conn req m).map Prod.fst = some m' ∧
      m'.gatherings.lookup gid = some g' ∧ ¬ SameLobby g g' := by
  cases h with
  | @participation opening h hdiff =>
    refine ⟨(setParticipation req m opening).1, { g with session := { g.session with
      openParticipation := opening } }, ?_, ?_, fun hsame => hdiff hsame.openParticipation.symm⟩
    · rw [handle_setParticipation h]
      rfl
    · obtain ⟨-, -, rfl⟩ := h
      simp only [setParticipation, hg]
      rw [lookup_put, if_pos rfl]
  | migrate h hc hdiff =>
    refine ⟨_, _, handle_migrates h hg hne, by rw [lookup_put, if_pos rfl], fun hsame => ?_⟩
    have hhead : (migrate _ g.participants).head? = g.participants.head? := hsame.first
    rw [head_migrate hc] at hhead
    exact hdiff hhead.symm
  | @part p h hgid halters =>
    subst hgid
    refine ⟨_, applyPart p g, handle_updatesPart h, ?_, not_sameLobby_applyPart halters⟩
    simp only [applySessionPart, hg]
    exact Finmap.lookup_insert _

/-! ### Every request of an outsider -/

/-- **Outsiders.**  In every reachable state, a request by a caller that is neither the owner nor the first
participant of a live gathering leaves the gathering live, with its owner, its first participant, whether it
is open, its attributes, its application data, its capacity and its codeword, exactly when it is none of the
requests in `Reconfigures`. -/
theorem outsider_reconfigures (o : Options) (m : Store) (hreach : Reachable (step o) newMatchmaking m)
    (gid : UInt32) (g : GatheringEntry) (hg : m.gatherings.lookup gid = some g)
    (service : Service) (conn : Caller) (req : RMCMessage) (env : Env)
    (horder : GoMap.Enumerates env.order m.gatherings) (howner : conn.pid ≠ g.session.ownerPID)
    (hfirst : g.participants.head? ≠ some conn.pid) :
    (∀ m', step o m (.request service conn req env) = some m' → Unchanged gid g m') ↔
      ¬ Reconfigures o env service conn req m gid g := by
  have hrep := represented_of_reachable hreach
  have hne := (hrep gid g hg).nonempty
  constructor
  · intro hkept hrec
    cases hrec with
    | rewrites h =>
      obtain ⟨m', g', hstep, hg', hdiff⟩ := changed_of_rewrites env conn hne hg h
      obtain ⟨g₁, hg₁, hsame⟩ := hkept m' (by rw [step, if_pos horder, hstep])
      obtain rfl := Option.some.inj (hg'.symm.trans hg₁)
      exact hdiff hsame
    | replaces hs h hgid =>
      subst hs hgid
      obtain ⟨m', g', hstep, hg', howner'⟩ := step_of_opens horder h
      obtain ⟨g₁, hg₁, hsame⟩ := hkept m' hstep
      obtain rfl := Option.some.inj (hg'.symm.trans hg₁)
      exact howner (howner'.symm.trans hsame.owner)
  · intro hrec m' hstep
    obtain ⟨p, hp⟩ : ∃ p, g.participants.head? = some p := by
      cases hhead : g.participants.head? with
      | none => exact absurd (List.head?_eq_none_iff.mp hhead) hne
      | some p => exact ⟨p, rfl⟩
    have hout : p ≠ conn.pid := fun heq => hfirst (heq ▸ hp)
    cases (step_described hstep).change gid with
    | kept h₀ h' t hone =>
      obtain rfl := Option.some.inj (hg.symm.trans h₀)
      exact ⟨_, h', sameLobby_of_touches hp hout (fun h => hrec (.rewrites h)) t hone⟩
    | gone _ hgone =>
      exact absurd (hgone g hg) (not_removal_of_outsider hp hout (fun heq => howner heq.symm))
    | fresh he hjoin hgid hnext _ _ =>
      cases he
      refine absurd (.replaces hjoin.1 (opens_of_nextGID hrep hjoin hstep ?_) hgid.symm) hrec
      rw [hnext]
      intro heq
      simp at heq

/-- `pid` opens or closes `gid`. -/
def participationEvent (opening : Bool) (pid : UInt64) (gid : UInt32) (order : List UInt32) : Event :=
  .request .extension ⟨pid, 2⟩
    (newRMCRequest protocolMatchmakeExtension
      (if opening then Method.openParticipation else Method.closeParticipation) 1 (StreamOut.u32 gid))
    (quietEnv 0 order)

/-- `pid` writes the application data of `gid`. -/
def bufferRequest (gid : UInt32) (data : Bytes) : RMCMessage :=
  newRMCRequest protocolMatchmakeExtension Method.updateApplicationBuffer 1
    (StreamOut.u32 gid ++ StreamOut.buffer data)

/-- PID 9 tries to write the application data of a session of PID 7. -/
theorem outsider_reconfigures_buffer : ∃ m g,
    run (step plainOptions) newMatchmaking [createEvent 7 2 0 []] = some m ∧
      m.gatherings.lookup 1 = some g ∧
      ∀ m', step plainOptions m
        (.request .extension ⟨9, 2⟩ (bufferRequest 1 [1, 2, 3]) (quietEnv 0 [1])) = some m' →
          Unchanged 1 g m' := by
  have heval : ((run (step plainOptions) newMatchmaking [createEvent 7 2 0 []]).bind
      (fun m => (m.gatherings.lookup 1).map (fun g => (decide (GoMap.Enumerates [1] m.gatherings),
        g.session.ownerPID, g.participants)))) = some (true, 7, [7]) := by decide +kernel
  obtain ⟨m, g, hm, hg, heq⟩ := exists_live heval
  simp only [Prod.mk.injEq, decide_eq_true_eq] at heq
  obtain ⟨horder, howner, hparts⟩ := heq
  refine ⟨m, g, hm, hg, (outsider_reconfigures plainOptions m ⟨_, hm⟩ 1 g hg .extension ⟨9, 2⟩
    (bufferRequest 1 [1, 2, 3]) (quietEnv 0 [1]) horder ?_ ?_).mpr ?_⟩
  · rw [howner]
    decide
  · rw [hparts]
    decide
  · -- the method is none of those that rewrite or open a gathering
    intro hrec
    cases hrec with
    | rewrites h =>
      cases h with
      | @participation opening h _ => cases opening <;> exact absurd h.2.1 (by decide)
      | migrate h _ _ => exact Service.noConfusion h.1
      | part h _ _ => exact absurd h.method (by decide)
    | replaces _ h _ =>
      cases h with
      | create hmethod _ => exact absurd hmethod (by decide)
      | auto hmethod _ _ => exact absurd hmethod (by decide)

/-- PID 9, which has no part in it, opens a session of PID 7 that is closed, and hands it over to PID 8. -/
theorem outsider_takes_over : ∃ m g m₁ g₁ m₂ g₂,
    run (step plainOptions) newMatchmaking [createEvent 7 2 0 [], joinEvent 8 1 1 [1]] = some m ∧
      m.gatherings.lookup 1 = some g ∧ g.session.ownerPID = 7 ∧ g.participants = [7, 8] ∧
      g.session.openParticipation = false ∧
    step plainOptions m (participationEvent true 9 1 [1]) = some m₁ ∧
      m₁.gatherings.lookup 1 = some g₁ ∧ g₁.session.openParticipation = true ∧
    step plainOptions m (migrateEvent 9 1 8 [1]) = some m₂ ∧
      m₂.gatherings.lookup 1 = some g₂ ∧ g₂.participants = [8, 7] := by
  have hbefore : ((run (step plainOptions) newMatchmaking [createEvent 7 2 0 [], joinEvent 8 1 1 [1]]).bind
      (fun m => (m.gatherings.lookup 1).map (fun g => (g.session.ownerPID, g.participants,
        g.session.openParticipation,
        (step plainOptions m (participationEvent true 9 1 [1])).bind (fun m₁ =>
          (m₁.gatherings.lookup 1).map (fun g => g.session.openParticipation)),
        (step plainOptions m (migrateEvent 9 1 8 [1])).bind (fun m₂ =>
          (m₂.gatherings.lookup 1).map (fun g => g.participants)))))) =
      some (7, [7, 8], false, some true, some [8, 7]) := rfl
  obtain ⟨m, g, hm, hg, heq⟩ := exists_live hbefore
  simp only [Prod.mk.injEq] at heq
  obtain ⟨howner, hparts, hclosed, hopened, hmigrated⟩ := heq
  obtain ⟨m₁, g₁, hm₁, hg₁, hopen⟩ := exists_live hopened
  obtain ⟨m₂, g₂, hm₂, hg₂, hparts₂⟩ := exists_live hmigrated
  exact ⟨m, g, m₁, g₁, m₂, g₂, hm, hg, howner, hparts, hclosed, hm₁, hg₁, hopen, hm₂, hg₂, hparts₂⟩

end NextendoMatchmaking.Matchmaking
