import NextendoMatchmaking.Matchmaking.ClosedLobby
import NextendoMatchmaking.Matchmaking.Membership

/-!
# How a player comes to a seat and loses it

`autoMatchmake`, `createSession` and `joinSession` seat their caller; `endParticipation`, `unregister` and
`RemovePlayer` take seats away.  Here the seats are followed through whole runs: nobody is seated by somebody
else's request, and nobody loses a seat but by leaving, by disconnecting, or because the owner ends the gathering.

* `Asks`, `Vacates` — the operations that can bring a seat and those that take it;
* `member_iff_history` — a player sits in a gathering just if it has asked for the seat, got it, and nothing has
  vacated it since.
-/

namespace NextendoMatchmaking.Matchmaking

open NextendoMatchmaking.Runs Relation

/-- A request of `pid` itself that can seat it under `gid`: it names the gathering, finds it open, or opens it. -/
def Asks (pid : UInt64) (gid : UInt32) (m : Store) (e : Event) : Prop :=
  ∃ conn req env, e = .request .extension conn req env ∧ conn.pid = pid ∧ Joins .extension req ∧
    (JoinsDirectly req gid ∨ gid = m.nextGID ∨
      ∃ g, m.gatherings.lookup gid = some g ∧ g.session.openParticipation = true)

/-- The operations that take the seat of `pid` under `gid`. -/
inductive Vacates (pid : UInt64) (gid : UInt32) (m : Store) : Event → Prop
  | leave {conn req env} (hpid : conn.pid = pid) (hmethod : req.method = Method.endParticipation)
      (hgid : readGID req = gid) : Vacates pid gid m (.request .matchMakingExt conn req env)
  | disconnect {order} (hpid : pid ≠ 0) : Vacates pid gid m (.removePlayer pid order)
  /-- The owner ends the gathering. -/
  | unregister {conn req env g} (hg : m.gatherings.lookup gid = some g)
      (hmethod : req.method = Method.unregisterGathering) (hgid : readGID req = gid)
      (howner : g.session.ownerPID = conn.pid) : Vacates pid gid m (.request .matchMaking conn req env)
  /-- The owner disconnects out of the gathering. -/
  | ownerGone {g owner order} (hg : m.gatherings.lookup gid = some g) (howner : g.session.ownerPID = owner)
      (hzero : owner ≠ 0) (hmem : owner ∈ g.participants) : Vacates pid gid m (.removePlayer owner order)

variable {o : Options} {e : Event} {m m' : Store} {gid : UInt32} {g g' : GatheringEntry} {ttl : Int}
  {pid : UInt64}

/-! ### One step -/

/-- A touch takes only the seat of the player that leaves or disconnects. -/
theorem mem_touch_of_not_vacates (hstay : ¬ Vacates pid gid m e) (hpid : pid ∈ g.participants)
    (t : Touch o ttl gid e g g') : pid ∈ g'.participants := by
  cases t with
  | join _ _ _ _ _ => exact List.mem_append_left _ hpid
  | migrate candidates _ => exact (migrate_perm candidates g.participants).mem_iff.mpr hpid
  | leave hmethod hgid _ =>
    refine mem_removePID.mpr ⟨hpid, ?_⟩
    rintro rfl
    exact hstay (.leave rfl hmethod hgid)
  | disconnect hzero _ _ =>
    refine mem_removePID.mpr ⟨hpid, ?_⟩
    rintro rfl
    exact hstay (.disconnect hzero)
  | disconnectOther hzero _ =>
    refine mem_removePID.mpr ⟨hpid, ?_⟩
    rintro rfl
    exact hstay (.disconnect hzero)
  | _ => exact hpid

theorem step_removePlayer {p : UInt64} {order : List UInt32} (h : step o m (.removePlayer p order) = some m') :
    GoMap.Enumerates order m.gatherings ∧ m' = removePlayer p order m := by
  obtain ⟨horder, heq⟩ := Option.ite_none_right_eq_some.mp h
  exact ⟨horder, (Option.some.inj heq).symm⟩

/-- A gathering that goes takes only seats that are vacated. -/
theorem vacates_of_removal (hrep : Represented gid g) (hg : m.gatherings.lookup gid = some g)
    (hpid : pid ∈ g.participants) (hgone : m'.gatherings.lookup gid = none) (hr : Removal gid g e)
    (h : step o m e = some m') : Vacates pid gid m e := by
  cases hr with
  | unregister hmethod hgid howner => exact .unregister hg hmethod hgid howner
  | @leave conn req env hmethod hgid hlast =>
    refine .leave ?_ hmethod hgid
    by_contra hne
    have hkept : pid ∈ removePID g.participants conn.pid := mem_removePID.mpr ⟨hpid, Ne.symm hne⟩
    rw [hlast] at hkept
    exact List.not_mem_nil hkept
  | @disconnect p order hzero =>
    obtain ⟨horder, rfl⟩ := step_removePlayer h
    rw [lookup_removePlayer_some hzero horder hrep hg] at hgone
    split at hgone
    · next hgoes =>
      obtain ⟨hmem, howner | honly⟩ := hgoes
      · exact .ownerGone hg howner hzero hmem
      · rw [honly, List.mem_singleton] at hpid
        subst hpid
        exact .disconnect hzero
    · cases hgone

theorem lookup_endParticipation (conn : Caller) (req : RMCMessage) (m : Store) :
    (endParticipation conn req m).1.gatherings.lookup (readGID req) =
      (m.gatherings.lookup (readGID req)).bind (fun g =>
        if (without g conn.pid).participants = [] then none
        else some (refreshNumParticipants (without g conn.pid))) := by
  unfold endParticipation
  dsimp only
  cases hg : m.gatherings.lookup (readGID req) with
  | none => exact hg
  | some g =>
    rw [Option.bind_some]
    dsimp only
    by_cases hlast : (without g conn.pid).participants = []
    · rw [if_pos hlast, if_pos hlast, lookup_remove, if_pos rfl]
    · rw [if_neg hlast, if_neg hlast, lookup_put, if_pos rfl]

theorem lookup_unregister {conn : Caller} {req : RMCMessage} (hg : m.gatherings.lookup (readGID req) = some g)
    (howner : g.session.ownerPID = conn.pid) :
    (unregister conn req m).1.gatherings.lookup (readGID req) = none := by
  unfold unregister
  dsimp only
  rw [hg]
  dsimp only
  rw [if_pos howner, lookup_remove, if_pos rfl]

theorem not_member_of_vacates (hrep : m.Represented)
    (hv : Vacates pid gid m e) (h : step o m e = some m') : ¬ SitsIn m' pid gid := by
  rintro ⟨g', hg', hmem⟩
  cases hv with
  | @leave conn req env hpid hmethod hgid =>
    obtain ⟨-, heq⟩ := Option.ite_none_right_eq_some.mp h
    have hm' : (endParticipation conn req m).1 = m' := by
      rw [handle, matchMakingExtHandler, if_pos hmethod] at heq
      exact Option.some.inj heq
    subst hgid hpid hm'
    rw [lookup_endParticipation] at hg'
    obtain ⟨g, -, hleft⟩ := Option.bind_eq_some_iff.mp hg'
    obtain ⟨-, hleft⟩ := Option.ite_none_left_eq_some.mp hleft
    obtain rfl := Option.some.inj hleft
    exact (mem_removePID.mp hmem).2 rfl
  | @disconnect order hzero =>
    obtain ⟨horder, rfl⟩ := step_removePlayer h
    cases hg : m.gatherings.lookup gid with
    | none =>
      rw [lookup_removePlayer_none hzero horder hg] at hg'
      cases hg'
    | some g =>
      rw [eq_of_lookup_removePlayer hzero horder (hrep gid g hg) hg hg'] at hmem
      exact (mem_removePID.mp hmem).2 rfl
  | @unregister conn req env g hg hmethod hgid howner =>
    obtain ⟨-, heq⟩ := Option.ite_none_right_eq_some.mp h
    have hm' : (Matchmaking.unregister conn req m).1 = m' := by
      rw [handle, matchMakingHandler, hmethod] at heq
      exact Option.some.inj heq
    subst hgid hm'
    rw [lookup_unregister hg howner] at hg'
    cases hg'
  | @ownerGone g owner order hg howner hzero hin =>
    obtain ⟨horder, rfl⟩ := step_removePlayer h
    rw [lookup_removePlayer_some hzero horder (hrep gid g hg) hg, if_pos ⟨hin, .inl howner⟩] at hg'
    cases hg'

/-- A request that seats its caller leaves the gatherings as open as they were. -/
theorem open_touch {service : Service} {conn : Caller} {req : RMCMessage} {env : Env} (hjoin : Joins service req)
    (t : Touch o ttl gid (.request service conn req env) g g') :
    g'.session.openParticipation = g.session.openParticipation := by
  cases t with
  | edit hedit =>
    cases hedit with
    | @participation opening hsets =>
      obtain ⟨-, hmethod, -⟩ := hsets
      rcases hjoin.2 with h | h | h <;> rw [h] at hmethod <;> cases opening <;> exact absurd hmethod (by decide)
    | _ => rfl
  | part p hpart _ =>
    rcases hjoin.2 with h | h | h <;> exact absurd (h.symm.trans hpart.method) (by decide)
  | _ => rfl

/-- Whoever is in a gathering after the touches of an operation was there before, or has asked for it. -/
theorem mem_touches (hg : m.gatherings.lookup gid = some g) (hnot : pid ∉ g.participants)
    (t : ReflTransGen (Touch o ttl gid e) g g') (hmem : pid ∈ g'.participants) : Asks pid gid m e := by
  have hopen : ∀ g₁, ReflTransGen (Touch o ttl gid e) g g₁ → ∀ service conn req env,
      e = .request service conn req env → Joins service req →
      g₁.session.openParticipation = g.session.openParticipation := by
    rintro g₁ t₁ service conn req env rfl hjoin
    exact touches_keep (P := fun g₁ => g₁.session.openParticipation = g.session.openParticipation)
      (fun h t => (open_touch hjoin t).trans h) rfl t₁
  induction t with
  | refl => exact absurd hmem hnot
  | @tail g₁ g₂ t₁ t₂ ih =>
    rcases mem_touch t₂ hmem with hbefore | ⟨service, conn, req, env, he, hjoin, hway, rfl⟩
    · exact ih hbefore
    · have hsame := hopen g₁ t₁ service conn req env he hjoin
      obtain rfl : service = .extension := hjoin.1
      refine ⟨conn, req, env, he, rfl, hjoin, ?_⟩
      rcases hway with hway | hway
      · exact .inr (.inr ⟨g, hg, hsame ▸ hway⟩)
      · exact .inl hway

theorem asks_of_member (hnot : ¬ SitsIn m pid gid) (h : step o m e = some m') (hmem : SitsIn m' pid gid) :
    Asks pid gid m e := by
  obtain ⟨g', hg', hpid⟩ := hmem
  cases (step_described h).change gid with
  | @kept g g₁ h₀ h' t _ =>
    obtain rfl := Option.some.inj (h'.symm.trans hg')
    exact mem_touches h₀ (fun hold => hnot ⟨g, h₀, hold⟩) t hpid
  | gone h' _ =>
    rw [h'] at hg'
    cases hg'
  | @fresh service conn req env src g₁ he hjoin hgid _ h' t =>
    obtain rfl := Option.some.inj (h'.symm.trans hg')
    obtain rfl : service = .extension := hjoin.1
    have hcaller : pid = conn.pid := by
      refine touches_keep (P := fun g => ∀ p ∈ g.participants, p = conn.pid) ?_ ?_ t pid hpid
      · intro g₂ g₃ hall t₂ p hp
        rcases mem_touch t₂ hp with hp | ⟨service, conn', req', env', he', -, -, rfl⟩
        · exact hall p hp
        · rw [he] at he'
          cases he'
          rfl
      · intro p hp
        exact List.mem_singleton.mp hp
    exact ⟨conn, req, env, he, hcaller.symm, hjoin, .inr (.inl hgid)⟩

theorem member_step_iff (hrep : m.Represented)
    (hfree : m.gatherings.lookup m.nextGID = none) (hmem : SitsIn m pid gid) (h : step o m e = some m') :
    SitsIn m' pid gid ↔ ¬ Vacates pid gid m e := by
  refine ⟨fun hmem' hv => not_member_of_vacates hrep hv h hmem', fun hstay => ?_⟩
  obtain ⟨g, hg, hpid⟩ := hmem
  cases (step_described h).change gid with
  | @kept g₀ g' h₀ h' t _ =>
    obtain rfl := Option.some.inj (h₀.symm.trans hg)
    exact ⟨g', h', touches_keep (P := fun g => pid ∈ g.participants)
      (fun hin t => mem_touch_of_not_vacates hstay hin t) hpid t⟩
  | gone h' hgone => exact absurd (vacates_of_removal (hrep gid g hg) hg hpid h' (hgone g hg) h) hstay
  | fresh _ _ hgid _ _ _ =>
    rw [hgid, hfree] at hg
    cases hg

/-! ### Runs -/

theorem created_le_append {es₁ es₂ : List Event} (h : run (step o) m es₁ = some m') :
    created o m es₁ ≤ created o m (es₁ ++ es₂) := by
  induction es₁ generalizing m with
  | nil => exact Nat.zero_le _
  | cons e es ih =>
    obtain ⟨m₁, hstep, hrun⟩ := run_cons_some.mp h
    have hrest := ih hrun
    simp only [List.cons_append, created, hstep]
    omega

/-- As long as the ids have not run out, the next one is free. -/
theorem nextGID_free {es₁ es₂ : List Event} (h : run (step o) newMatchmaking es₁ = some m)
    (hcreated : created o newMatchmaking (es₁ ++ es₂) < 2 ^ 32 - 1) :
    m.gatherings.lookup m.nextGID = none := by
  have hle : created o newMatchmaking es₁ ≤ created o newMatchmaking (es₁ ++ es₂) := created_le_append h
  have hinit : IdsBelow newMatchmaking := by
    intro gid g hg
    simp [newMatchmaking] at hg
  have hone : newMatchmaking.nextGID.toNat = 1 := rfl
  have hbelow : IdsBelow m := idsBelow_run hinit h (by omega)
  rw [Option.eq_none_iff_forall_ne_some]
  intro g hg
  exact absurd (hbelow _ g hg) (UInt32.lt_irrefl _)

/-- **Seats along a run.**  A player sits in a gathering just if it has asked for the seat itself and got it, and
since then it has neither left nor disconnected, nor has the owner ended the gathering.  The ids of the gatherings
must not have run out. -/
theorem member_iff_history (o : Options) (es : List Event) (m : Store)
    (h : run (step o) newMatchmaking es = some m) (hcreated : created o newMatchmaking es < 2 ^ 32 - 1)
    (gid : UInt32) (pid : UInt64) :
    SitsIn m pid gid ↔ ∃ before e after m₁ m₂, es = before ++ e :: after ∧
      run (step o) newMatchmaking before = some m₁ ∧ step o m₁ e = some m₂ ∧ Asks pid gid m₁ e ∧
      SitsIn m₂ pid gid ∧ Steps (step o) (fun m e => ¬ Vacates pid gid m e) m₂ after := by
  have hstart : ¬ SitsIn newMatchmaking pid gid := by
    rintro ⟨g, hg, -⟩
    simp [newMatchmaking] at hg
  have hconds : Steps (step o) (fun m _ => m.Represented ∧ m.gatherings.lookup m.nextGID = none)
      newMatchmaking es := by
    refine steps_of_splits (fun before e after m₁ hes hm₁ => ⟨?_, ?_⟩)
    · exact represented_of_reachable ⟨before, hm₁⟩
    · rw [hes] at hcreated
      exact nextGID_free hm₁ hcreated
  refine since_iff (G := Asks pid gid) (L := Vacates pid gid) (P := fun m => SitsIn m pid gid) ?_ ?_ hconds
    hstart h
  · intro m e m' _ hnot hstep hmem
    exact asks_of_member hnot hstep hmem
  · intro m e m' hm hmem hstep
    exact member_step_iff hm.1 hm.2 hmem hstep

/-- PID 8 joins the session of PID 7, which then leaves it. -/
theorem member_iff_history_joined : ∃ m,
    run (step plainOptions) newMatchmaking [createEvent 7 2 0 [], joinEvent 8 1 1 [1], leaveEvent 7 1 [1]] =
      some m ∧ SitsIn m 8 1 ∧ ¬ SitsIn m 7 1 ∧
    ∃ before e after m₁ m₂,
      [createEvent 7 2 0 [], joinEvent 8 1 1 [1], leaveEvent 7 1 [1]] = before ++ e :: after ∧
      run (step plainOptions) newMatchmaking before = some m₁ ∧ step plainOptions m₁ e = some m₂ ∧
      Asks 8 1 m₁ e ∧ SitsIn m₂ 8 1 ∧ Steps (step plainOptions) (fun m e => ¬ Vacates 8 1 m e) m₂ after := by
  have heval : ((run (step plainOptions) newMatchmaking
      [createEvent 7 2 0 [], joinEvent 8 1 1 [1], leaveEvent 7 1 [1]]).bind
      (fun m => (m.gatherings.lookup 1).map (fun g => g.participants))) = some [8] := by decide +kernel
  obtain ⟨m, g, hm, hg, hp⟩ := exists_live heval
  have hmember : SitsIn m 8 1 := ⟨g, hg, by rw [hp]; exact List.mem_singleton_self 8⟩
  have hleft : ¬ SitsIn m 7 1 := by
    rintro ⟨g', hg', hmem⟩
    obtain rfl := Option.some.inj (hg.symm.trans hg')
    rw [hp] at hmem
    exact absurd hmem (by decide)
  exact ⟨m, hm, hmember, hleft,
    (member_iff_history plainOptions _ m hm (by decide +kernel) 1 8).mp hmember⟩

end NextendoMatchmaking.Matchmaking
