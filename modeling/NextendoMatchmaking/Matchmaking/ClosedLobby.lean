import NextendoMatchmaking.Matchmaking.Outsiders

/-!
# A closed lobby

`CloseParticipation` clears `OpenParticipation`, and of the paths by which a player enters a gathering only
the search of `autoMatchmake` looks at it.  `closed_lobby` says what the close is good for: until the
gathering is opened again nobody enters it, as long as nobody asks for it directly
(`JoinMatchmakeSessionWithParam` seats the caller of a closed gathering as well) and no new gathering gets
its id.
-/

namespace NextendoMatchmaking.Matchmaking

open NextendoMatchmaking.Runs Relation

variable {o : Options} {e : Event} {m m' : Store} {gid : UInt32} {g g' : GatheringEntry} {ttl : Int}

/-- The request opens the gathering again, or is a session-part update that says whether it is open. -/
inductive Reopens (o : Options) (gid : UInt32) : Event → Prop
  | participation {service conn req env} (h : SetsParticipation true service req gid) :
      Reopens o gid (.request service conn req env)
  | part {service conn req env p} (h : UpdatesPart o service req p) (hgid : p.gid = gid)
      (hflag : p.modificationFlags &&& modFlagOpenParticipation ≠ 0) :
      Reopens o gid (.request service conn req env)

/-- The request leads past the close: a direct join by somebody who is not in, or a new gathering under the
same id. -/
inductive Bypasses (o : Options) (gid : UInt32) (m : Store) : Event → Prop
  | join {conn req env g} (h : JoinsDirectly req gid) (hg : m.gatherings.lookup gid = some g)
      (hpid : conn.pid ∉ g.participants) : Bypasses o gid m (.request .extension conn req env)
  | opens {conn req env} (h : Opens o env conn req m) (hgid : m.nextGID = gid) :
      Bypasses o gid m (.request .extension conn req env)

/-! ### Touches of a closed gathering -/

/-- Who asks for the gathering directly is already in it. -/
def OnlyInside (gid : UInt32) (e : Event) (g : GatheringEntry) : Prop :=
  ∀ conn req env, e = .request .extension conn req env → JoinsDirectly req gid → conn.pid ∈ g.participants

theorem touch_closed (hlocked : ¬ Reopens o gid e) (h : g.session.openParticipation = false)
    (t : Touch o ttl gid e g g') : g'.session.openParticipation = false := by
  cases t with
  | edit hedit =>
    cases hedit with
    | @participation opening hsets =>
      cases opening with
      | false => rfl
      | true => exact absurd (.participation hsets) hlocked
    | _ => exact h
  | part p hpart hgid =>
    show (if p.modificationFlags &&& modFlagOpenParticipation ≠ 0 then p.openParticipation
      else g.session.openParticipation) = false
    split
    · rename_i hflag
      exact absurd (.part hpart hgid hflag) hlocked
    · exact h
  | _ => exact h

/-- Nobody joins a closed gathering but by asking for it. -/
theorem not_join (h : g.session.openParticipation = false) (hinside : OnlyInside gid e g)
    {service : Service} {conn : Caller} {req : RMCMessage} {env : Env}
    (he : e = .request service conn req env) (hjoin : Joins service req)
    (hway : g.session.openParticipation = true ∨ JoinsDirectly req gid) : conn.pid ∈ g.participants := by
  obtain ⟨rfl, -⟩ := hjoin
  rcases hway with hopen | hdirect
  · rw [h] at hopen
    cases hopen
  · exact hinside conn req env he hdirect

theorem members_touch (h : g.session.openParticipation = false) (hinside : OnlyInside gid e g)
    (t : Touch o ttl gid e g g') : ∀ p ∈ g'.participants, p ∈ g.participants := by
  intro p hp
  rcases mem_touch t hp with hp | ⟨service, conn, req, env, he, hjoin, hway, hpid⟩
  · exact hp
  · rw [hpid]
    exact not_join h hinside he hjoin hway

/-- Where touches come together, only a join could change the participants. -/
theorem participants_combined (hc : Combines e) (h : g.session.openParticipation = false)
    (hinside : OnlyInside gid e g) (t : Touch o ttl gid e g g') : g'.participants = g.participants := by
  cases t with
  | join hjoin hway hpid _ _ => exact absurd (not_join h hinside rfl hjoin hway) hpid
  | migrate _ hmig => exact Service.noConfusion (hmig.1.symm.trans hc.1)
  | leave _ _ _ => exact Service.noConfusion hc.1
  | disconnect _ _ _ => exact hc.elim
  | disconnectOther _ _ => exact hc.elim
  | _ => rfl

/-- All that one operation does to a closed gathering. -/
theorem touches_closed (hlocked : ¬ Reopens o gid e) (h : g.session.openParticipation = false)
    (hinside : OnlyInside gid e g) (t : ReflTransGen (Touch o ttl gid e) g g')
    (hone : Combines e ∨ g' = g ∨ Touch o ttl gid e g g') :
    g'.session.openParticipation = false ∧ ∀ p ∈ g'.participants, p ∈ g.participants := by
  rcases hone with hc | rfl | t₁
  · have hsame : g'.session.openParticipation = false ∧ g'.participants = g.participants := by
      refine touches_keep (P := fun g' => g'.session.openParticipation = false ∧
        g'.participants = g.participants) ?_ ⟨h, rfl⟩ t
      intro g₁ g₂ h₁ t₂
      have hinside₁ : OnlyInside gid e g₁ := by
        intro conn req env he hdirect
        rw [h₁.2]
        exact hinside conn req env he hdirect
      exact ⟨touch_closed hlocked h₁.1 t₂, (participants_combined hc h₁.1 hinside₁ t₂).trans h₁.2⟩
    exact ⟨hsame.1, fun p hp => hsame.2 ▸ hp⟩
  · exact ⟨h, fun p hp => hp⟩
  · exact ⟨touch_closed hlocked h t₁, members_touch h hinside t₁⟩

/-! ### Runs -/

/-- The gathering under `gid`, if there is one, is closed. -/
def Closed (gid : UInt32) (m : Store) : Prop :=
  ∀ g, m.gatherings.lookup gid = some g → g.session.openParticipation = false

theorem closed_of_close {service : Service} {conn : Caller} {req : RMCMessage} {env : Env}
    (hclose : SetsParticipation false service req gid)
    (h : step o m (.request service conn req env) = some m') : Closed gid m' := by
  simp only [step] at h
  split at h
  · rw [handle_setParticipation hclose, Option.map_some, Option.some.injEq] at h
    subst h
    obtain ⟨-, -, rfl⟩ := hclose
    intro g hg
    simp only [setParticipation] at hg
    split at hg
    · rename_i hnone
      rw [hnone] at hg
      cases hg
    · rw [lookup_put, if_pos rfl] at hg
      cases hg
      rfl
  · cases h

/-- One step of the window: the gathering stays closed and nobody enters it. -/
theorem closed_step (hreach : Reachable (step o) newMatchmaking m) (hclosed : Closed gid m)
    (hlocked : ¬ Reopens o gid e) (hpast : ¬ Bypasses o gid m e) (h : step o m e = some m') :
    Closed gid m' ∧ ∀ pid, SitsIn m' pid gid → SitsIn m pid gid := by
  have hrep := represented_of_reachable hreach
  cases (step_described h).change gid with
  | @kept g g' h₀ h' t hone =>
    have hinside : OnlyInside gid e g := by
      intro conn req env he hdirect
      by_contra hpid
      exact hpast (he ▸ .join hdirect h₀ hpid)
    obtain ⟨hclosed', hmem⟩ := touches_closed hlocked (hclosed g h₀) hinside t hone
    refine ⟨fun g₁ hg₁ => ?_, fun pid hpid => ?_⟩
    · obtain rfl := Option.some.inj (h'.symm.trans hg₁)
      exact hclosed'
    · obtain ⟨g₁, hg₁, hin⟩ := hpid
      obtain rfl := Option.some.inj (h'.symm.trans hg₁)
      exact ⟨g, h₀, hmem pid hin⟩
  | gone h' _ =>
    refine ⟨fun g₁ hg₁ => ?_, fun pid hpid => ?_⟩
    · rw [h'] at hg₁
      cases hg₁
    · obtain ⟨g₁, hg₁, -⟩ := hpid
      rw [h'] at hg₁
      cases hg₁
  | @fresh service conn req env src g' he hjoin hgid hnext _ _ =>
    subst he
    have hopens : Opens o env conn req m := by
      refine opens_of_nextGID hrep hjoin h ?_
      rw [hnext]
      intro heq
      simp at heq
    obtain ⟨rfl, -⟩ := hjoin
    exact absurd (.opens hopens hgid.symm) hpast

/-- **A closed lobby.**  After a `CloseParticipation` of `gid` in any run, let `es` and then `e` follow, with
nothing among them that opens the gathering again.  If no step of this window leads past the close, then `e`
brings nobody into the gathering who was not in it. -/
theorem closed_lobby (o : Options) (es₀ es : List Event) (m₀ m₁ m m' : Store) (gid : UInt32)
    (h₀ : run (step o) newMatchmaking es₀ = some m₀) (conn : Caller) (req : RMCMessage) (env : Env)
    (hclose : SetsParticipation false .extension req gid)
    (h₁ : step o m₀ (.request .extension conn req env) = some m₁) (hrun : run (step o) m₁ es = some m)
    (e : Event) (hstep : step o m e = some m') (hlocked : ∀ e' ∈ es ++ [e], ¬ Reopens o gid e')
    (hpast : Steps (step o) (fun m e => ¬ Bypasses o gid m e) m₁ (es ++ [e])) :
    ∀ pid, SitsIn m' pid gid → SitsIn m pid gid := by
  have hreach₁ : Reachable (step o) newMatchmaking m₁ := reachable_step ⟨es₀, h₀⟩ h₁
  obtain ⟨hbefore, hlast⟩ := steps_append hpast hrun
  have hconds := steps_and_forall hbefore (fun e' he' => hlocked e' (List.mem_append_left _ he'))
  -- the gathering is closed all along the window
  have hwindow : Reachable (step o) newMatchmaking m ∧ Closed gid m := by
    refine run_invariant_of_steps
      (P := fun m => Reachable (step o) newMatchmaking m ∧ Closed gid m) ?_ hconds
      ⟨hreach₁, closed_of_close hclose h₁⟩ hrun
    intro m₂ e' m₃ hC hm₂ hstep₂
    exact ⟨reachable_step hm₂.1 hstep₂, (closed_step hm₂.1 hm₂.2 hC.2 hC.1 hstep₂).1⟩
  exact (closed_step hwindow.1 hwindow.2 (hlocked e (List.mem_append_right _ List.mem_cons_self)) hlast.1
    hstep).2

/-- `pid` asks for any session, or one with `max` seats of its own. -/
def autoEvent (pid : UInt64) (max : UInt16) (now : Int) (order : List UInt32) : Event :=
  .request .extension ⟨pid, 2⟩
    { createRequest max with method := Method.autoMatchmakeWithParamPostpone } (quietEnv now order)

/-- PID 7 opens a session of two seats and closes it, and PID 8 looks for a session. -/
theorem closed_lobby_search : ∃ m₀ m₁ m',
    run (step plainOptions) newMatchmaking [createEvent 7 2 0 []] = some m₀ ∧
      step plainOptions m₀ (participationEvent false 7 1 [1]) = some m₁ ∧
      step plainOptions m₁ (autoEvent 8 2 1 [1]) = some m' ∧
      ∀ pid, SitsIn m' pid 1 → SitsIn m₁ pid 1 := by
  have heval : ((run (step plainOptions) newMatchmaking [createEvent 7 2 0 []]).bind (fun m₀ =>
      (step plainOptions m₀ (participationEvent false 7 1 [1])).bind (fun m₁ =>
        (step plainOptions m₁ (autoEvent 8 2 1 [1])).map (fun _ => m₁.nextGID)))) = some 2 := rfl
  obtain ⟨m₀, hm₀, h₁⟩ := Option.bind_eq_some_iff.mp heval
  obtain ⟨m₁, hm₁, h'⟩ := Option.bind_eq_some_iff.mp h₁
  obtain ⟨m', hm', hnext⟩ := Option.map_eq_some_iff.mp h'
  refine ⟨m₀, m₁, m', hm₀, hm₁, hm', closed_lobby plainOptions [createEvent 7 2 0 []] [] m₀ m₁ m₁ m' 1 hm₀
    ⟨7, 2⟩ _ (quietEnv 0 [1]) ⟨rfl, rfl, rfl⟩ hm₁ rfl (autoEvent 8 2 1 [1]) hm' ?_ ⟨?_, fun _ _ => trivial⟩⟩
  · intro e' he' hopens
    rw [List.nil_append, List.mem_singleton] at he'
    subst he'
    cases hopens with
    | participation h => exact absurd h.2.1 (by decide)
    | part h _ _ => exact absurd h.method (by decide)
  · intro hpast
    cases hpast with
    | join h _ _ => exact absurd h.1 (by decide)
    | opens _ hgid =>
      rw [hnext] at hgid
      exact absurd hgid (by decide)

/-- PID 7 opens a session of two seats and closes it, and PID 8 joins it all the same. -/
theorem closed_lobby_joined : ∃ m₁ g₁ m' g',
    run (step plainOptions) newMatchmaking [createEvent 7 2 0 [], participationEvent false 7 1 [1]] =
        some m₁ ∧
      m₁.gatherings.lookup 1 = some g₁ ∧ g₁.session.openParticipation = false ∧ g₁.participants = [7] ∧
    step plainOptions m₁ (joinEvent 8 1 1 [1]) = some m' ∧
      m'.gatherings.lookup 1 = some g' ∧ g'.session.openParticipation = false ∧
      g'.participants = [7, 8] := by
  have heval : ((run (step plainOptions) newMatchmaking
      [createEvent 7 2 0 [], participationEvent false 7 1 [1]]).bind (fun m₁ =>
        (m₁.gatherings.lookup 1).bind (fun g₁ =>
          (step plainOptions m₁ (joinEvent 8 1 1 [1])).bind (fun m' =>
            (m'.gatherings.lookup 1).map (fun g' => (g₁.session.openParticipation, g₁.participants,
              g'.session.openParticipation, g'.participants)))))) = some (false, [7], false, [7, 8]) := rfl
  obtain ⟨m₁, hm₁, h₁⟩ := Option.bind_eq_some_iff.mp heval
  obtain ⟨g₁, hg₁, h₂⟩ := Option.bind_eq_some_iff.mp h₁
  obtain ⟨m', g', hm', hg', heq⟩ := exists_live h₂
  simp only [Prod.mk.injEq] at heq
  exact ⟨m₁, g₁, m', g', hm₁, hg₁, heq.1, heq.2.1, hm', hg', heq.2.2.1, heq.2.2.2⟩

end NextendoMatchmaking.Matchmaking
