import NextendoMatchmaking.Matchmaking.Representation

/-!
# The owner of a gathering

The store keeps the owner of a gathering three times: `OwnerPID`, which `UnregisterGathering` and
`RemovePlayer` ask, `HostPID`, and the first participant, which `UpdateApplicationBuffer` and
`ModifyCurrentGameAttribute` ask.  They start equal.  A hand-over (`MigrateGatheringOwnership`) moves
another participant to the front and leaves the two PIDs, and an owner that ends its participation leaves
them to a gathering of others; nothing else takes them apart (`owner_agreement`).
-/

namespace NextendoMatchmaking.Matchmaking

open NextendoMatchmaking.Runs Relation

variable {o : Options} {e : Event} {m m' : Store} {gid : UInt32} {g g' : GatheringEntry} {ttl : Int}

/-- The three copies of the owner agree. -/
structure Agreed (g : GatheringEntry) : Prop where
  host : g.session.hostPID = g.session.ownerPID
  first : g.participants.head? = some g.session.ownerPID

/-- The operation gives the gathering `g` under `gid` another first participant: a hand-over to a
participant that is not the first one, or the first participant leaves and others stay. -/
inductive HandsOver (o : Options) (gid : UInt32) (g : GatheringEntry) : Event → Prop
  | migrate {service conn req env candidates c} (h : Migrates o service req gid candidates)
      (hc : candidates.find? (containsPID g.participants) = some c) (hne : g.participants.head? ≠ some c) :
      HandsOver o gid g (.request service conn req env)
  | leave {conn req env} (hmethod : req.method = Method.endParticipation) (hgid : readGID req = gid)
      (hfirst : g.participants.head? = some conn.pid) (hrest : removePID g.participants conn.pid ≠ []) :
      HandsOver o gid g (.request .matchMakingExt conn req env)

/-! ### The first participant -/

theorem head_append {p q : UInt64} {list : List UInt64} (h : list.head? = some p) :
    (list ++ [q]).head? = some p := by
  rw [List.head?_append, h]
  rfl

/-- The first participant stays where somebody else is removed. -/
theorem head_removePID {p pid : UInt64} {list : List UInt64} (h : list.head? = some p) (hne : p ≠ pid) :
    (removePID list pid).head? = some p := by
  obtain ⟨rest, rfl⟩ := List.head?_eq_some_iff.mp h
  have hkept : removePID (p :: rest) pid = p :: removePID rest pid :=
    List.filter_cons_of_pos (bne_iff_ne.mpr hne)
  rw [hkept]
  rfl

/-- A hand-over to the first participant changes nothing. -/
theorem swapFront_zero (list : List UInt64) : swapFront list 0 = list := by
  cases list with
  | nil => rfl
  | cons p rest => rfl

theorem migrate_of_first {candidates list : List UInt64} {p : UInt64} (h : list.head? = some p)
    (hc : ∀ c, candidates.find? (containsPID list) = some c → c = p) : migrate candidates list = list := by
  unfold migrate
  split
  · rfl
  · rename_i c hfind
    obtain ⟨rest, rfl⟩ := List.head?_eq_some_iff.mp h
    rw [hc c hfind, List.idxOf_cons_self, swapFront_zero]

/-! ### Touches -/

theorem agreed_newGathering (env : CreationEnv) (conn : Caller) (gid : UInt32) (src : MatchmakeSession) :
    Agreed (newGathering env conn gid src) := by
  have hpids : (newGathering env conn gid src).session.ownerPID = conn.pid ∧
      (newGathering env conn gid src).session.hostPID = conn.pid := by
    simp only [newGathering, finalizeCreatedSession]
    split <;> exact ⟨rfl, rfl⟩
  exact ⟨hpids.2.trans hpids.1.symm, by rw [hpids.1]; rfl⟩

/-- **A touch keeps the agreement**, unless it gives the gathering another first participant. -/
theorem touch_agreed (h : Agreed g) (hstay : ¬ HandsOver o gid g e) (t : Touch o ttl gid e g g') :
    Agreed g' := by
  cases t with
  | join _ _ _ _ _ => exact ⟨h.host, head_append h.first⟩
  | edit hedit =>
    have hframe := hedit.frame
    refine ⟨?_, ?_⟩
    · rw [hframe.host, hframe.owner]
      exact h.host
    · rw [hframe.owner]
      exact h.first
  | migrate candidates hmig =>
    have hsame : migrate candidates g.participants = g.participants := by
      apply migrate_of_first h.first
      intro c hc
      by_contra hne
      refine hstay (.migrate hmig hc ?_)
      rw [h.first]
      exact fun heq => hne (Option.some.inj heq).symm
    refine ⟨h.host, ?_⟩
    show (migrate candidates g.participants).head? = _
    rw [hsame]
    exact h.first
  | @leave conn _ _ _ hmethod hgid hrest =>
    have hne : g.session.ownerPID ≠ conn.pid := fun heq =>
      hstay (.leave hmethod hgid (heq ▸ h.first) hrest)
    exact ⟨h.host, head_removePID h.first hne⟩
  | disconnect _ _ howner => exact ⟨h.host, head_removePID h.first howner⟩
  | disconnectOther _ hnot =>
    refine ⟨h.host, head_removePID h.first (fun heq => hnot ?_)⟩
    exact heq ▸ List.mem_of_head? h.first
  | _ => exact ⟨h.host, h.first⟩

/-- A request to join and a reservation hand nothing over. -/
theorem not_handsOver_of_combines (hc : Combines e) (gid : UInt32) (g : GatheringEntry) :
    ¬ HandsOver o gid g e := by
  intro hover
  cases hover with
  | migrate h _ _ => exact Service.noConfusion (h.1.symm.trans hc.1)
  | leave _ _ _ _ => exact Service.noConfusion hc.1

/-! ### Runs -/

/-- **Owner agreement.**  In every state of every run in which no step gives a live gathering another first
participant, the owner, the host and the first participant of every live gathering are the same PID. -/
theorem owner_agreement (o : Options) (es : List Event) (m : Store)
    (h : run (step o) newMatchmaking es = some m)
    (hstay : Steps (step o) (fun m e => ∀ gid g, m.gatherings.lookup gid = some g → ¬ HandsOver o gid g e)
      newMatchmaking es)
    (gid : UInt32) (g : GatheringEntry) (hg : m.gatherings.lookup gid = some g) :
    g.session.hostPID = g.session.ownerPID ∧ g.participants.head? = some g.session.ownerPID := by
  have hlive : ∀ gid g, m.gatherings.lookup gid = some g → Agreed g := by
    refine run_invariant_of_steps (P := fun m => ∀ gid g, m.gatherings.lookup gid = some g → Agreed g)
      ?_ hstay ?_ h
    · intro m e m' hC hm hstep
      exact step_live_of (C := fun gid g => ¬ HandsOver o gid g e) agreed_newGathering
        (fun hP hC t => touch_agreed hP hC t) not_handsOver_of_combines hC hm hstep
    · intro gid g hg
      simp [newMatchmaking] at hg
  exact ⟨(hlive gid g hg).host, (hlive gid g hg).first⟩

/-- `pid` ends its participation in `gid`. -/
def leaveEvent (pid : UInt64) (gid : UInt32) (order : List UInt32) : Event :=
  .request .matchMakingExt ⟨pid, 2⟩
    (newRMCRequest protocolMatchMakingExt Method.endParticipation 1 (StreamOut.u32 gid)) (quietEnv 0 order)

/-- `pid` hands `gid` over to `candidate`. -/
def migrateEvent (pid : UInt64) (gid : UInt32) (candidate : UInt64) (order : List UInt32) : Event :=
  .request .matchMaking ⟨pid, 2⟩
    (newRMCRequest protocolMatchMaking Method.migrateGatheringOwnershipV1 1
      (StreamOut.u32 gid ++ StreamOut.list (StreamOut.pid plainOptions.settings) [candidate]))
    (quietEnv 0 order)

/-- The second participant leaves again. -/
theorem owner_agreement_leave : ∃ m g,
    run (step plainOptions) newMatchmaking
        [createEvent 7 2 0 [], joinEvent 8 1 1 [1], leaveEvent 8 1 [1]] = some m ∧
      m.gatherings.lookup 1 = some g ∧ g.session.ownerPID = 7 ∧ g.session.hostPID = g.session.ownerPID ∧
      g.participants.head? = some g.session.ownerPID := by
  have heval : ((run (step plainOptions) newMatchmaking
      [createEvent 7 2 0 [], joinEvent 8 1 1 [1], leaveEvent 8 1 [1]]).bind
      (fun m => (m.gatherings.lookup 1).map (fun g => g.session.ownerPID))) = some 7 := rfl
  obtain ⟨m, g, hm, hg, howner⟩ := exists_live heval
  have hsteps : Steps (step plainOptions)
      (fun m e => ∀ gid g, m.gatherings.lookup gid = some g → ¬ HandsOver plainOptions gid g e)
      newMatchmaking [createEvent 7 2 0 [], joinEvent 8 1 1 [1], leaveEvent 8 1 [1]] := by
    have hcreate : Combines (createEvent 7 2 0 []) := show Joins _ _ from ⟨rfl, .inr (.inl rfl)⟩
    have hjoin : Combines (joinEvent 8 1 1 [1]) := show Joins _ _ from ⟨rfl, .inr (.inr rfl)⟩
    refine ⟨fun gid g _ => not_handsOver_of_combines hcreate gid g, fun m₁ h₁ =>
      ⟨fun gid g _ => not_handsOver_of_combines hjoin gid g, fun m₂ h₂ =>
        ⟨fun gid g hg hover => ?_, fun _ _ => trivial⟩⟩⟩
    have hfirst : (m₂.gatherings.lookup 1).bind (fun g => g.participants.head?) = some 7 := by
      have hrun : ((step plainOptions newMatchmaking (createEvent 7 2 0 [])).bind
          (fun m => (step plainOptions m (joinEvent 8 1 1 [1])).bind
            (fun m => (m.gatherings.lookup 1).bind (fun g => g.participants.head?)))) = some 7 := rfl
      rw [h₁, Option.bind_some, h₂, Option.bind_some] at hrun
      exact hrun
    cases hover with
    | migrate h _ _ => exact Service.noConfusion h.1
    | leave _ hgid hhead _ =>
      have hone : readGID (newRMCRequest protocolMatchMakingExt Method.endParticipation 1
          (StreamOut.u32 1)) = 1 := rfl
      rw [← hgid, hone] at hg
      rw [hg, Option.bind_some, hhead] at hfirst
      exact absurd hfirst (by decide)
  obtain ⟨hhost, hhead⟩ := owner_agreement plainOptions _ m hm hsteps 1 g hg
  exact ⟨m, g, hm, hg, howner, hhost, hhead⟩

/-- PID 7 opens a session and PID 8 joins.  Then PID 7 leaves, or hands the session over: PID 8 is the first
participant, and PID 7 is still the owner and the host. -/
theorem owner_split : ∃ m₁ g₁ m₂ g₂,
    run (step plainOptions) newMatchmaking
        [createEvent 7 2 0 [], joinEvent 8 1 1 [1], leaveEvent 7 1 [1]] = some m₁ ∧
      m₁.gatherings.lookup 1 = some g₁ ∧ g₁.session.ownerPID = 7 ∧ g₁.session.hostPID = 7 ∧
      g₁.participants = [8] ∧
    run (step plainOptions) newMatchmaking
        [createEvent 7 2 0 [], joinEvent 8 1 1 [1], migrateEvent 7 1 8 [1]] = some m₂ ∧
      m₂.gatherings.lookup 1 = some g₂ ∧ g₂.session.ownerPID = 7 ∧ g₂.session.hostPID = 7 ∧
      g₂.participants = [8, 7] := by
  have hleft : ((run (step plainOptions) newMatchmaking
      [createEvent 7 2 0 [], joinEvent 8 1 1 [1], leaveEvent 7 1 [1]]).bind
      (fun m => (m.gatherings.lookup 1).map
        (fun g => (g.session.ownerPID, g.session.hostPID, g.participants)))) = some (7, 7, [8]) := rfl
  have hmigrated : ((run (step plainOptions) newMatchmaking
      [createEvent 7 2 0 [], joinEvent 8 1 1 [1], migrateEvent 7 1 8 [1]]).bind
      (fun m => (m.gatherings.lookup 1).map
        (fun g => (g.session.ownerPID, g.session.hostPID, g.participants)))) = some (7, 7, [8, 7]) := rfl
  obtain ⟨m₁, g₁, hm₁, hg₁, heq₁⟩ := exists_live hleft
  obtain ⟨m₂, g₂, hm₂, hg₂, heq₂⟩ := exists_live hmigrated
  simp only [Prod.mk.injEq] at heq₁ heq₂
  exact ⟨m₁, g₁, m₂, g₂, hm₁, hg₁, heq₁.1, heq₁.2.1, heq₁.2.2, hm₂, hg₂, heq₂.1, heq₂.2.1, heq₂.2.2⟩

end NextendoMatchmaking.Matchmaking
