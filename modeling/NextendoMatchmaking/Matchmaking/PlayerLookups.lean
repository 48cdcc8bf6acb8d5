import NextendoMatchmaking.Matchmaking.Seating

/-!
# Lookups of a player's gathering

`GatheringIDByPID`, `SessionByPID` and `playingSession` answer with the first gathering they meet that the
player sits in, `sessionOfParticipant` with the one that was started last.  The runtime visits a map in any
order, so the four agree when the player sits in one gathering at most, and only then (`agree_iff`).

Nothing keeps a player from a second seat: a create, an auto-match and a join look at the gathering they
seat the caller in, not at the others.  `lookups_agree` follows the lookups along a run: they agree in all
of its states exactly when no request seats a player that sits in another gathering.
-/

namespace NextendoMatchmaking.Matchmaking

open NextendoMatchmaking.Runs

/-! ### The lookups -/

section Lookups

variable (m : Store) (pid : UInt64) (order : List UInt32)

/-- `GatheringIDByPID`, with the order in which it visits the gatherings. -/
def gatheringIDByPID : Option UInt32 := (firstWith m pid order).map (fun (_, g) => g.session.id)

/-- `SessionByPID`. -/
def sessionByPID : Option (List UInt64) := (firstWith m pid order).map (fun (_, g) => g.participants)

/-- The entry of `playingSession` for a gathering of `pid`. -/
def playing (found : UInt32 × GatheringEntry) : SimplePlayingSession :=
  ⟨pid, found.1, found.2.session.gameMode, found.2.session.attribs.headD 0⟩

/-- The entry that `playingSession` produces for `pid`. -/
def playingEntry : Option SimplePlayingSession := (firstWith m pid order).map (playing pid)

end Lookups

/-- `playingSession` answers with these entries. -/
theorem playingSession_eq (o : Options) (env : Env) (conn : Caller) (req : RMCMessage) (m : Store) :
    playingSession o env conn req m =
      (let ((pids, includeSelf), _) := StreamIn.run (do
        let pids ← StreamIn.list (StreamIn.pid o.settings)
        let includeSelf ← StreamIn.bool
        return (pids, includeSelf)) req.body
      success req protocolMatchmakeExtension (StreamOut.list (SimplePlayingSession.write o.settings)
        (pids.zipIdx.filterMap (fun (pid, i) =>
          if pid = conn.pid ∧ !includeSelf then none else playingEntry m pid (env.orders i))))) :=
  rfl

/-- The four lookups of `pid` designate the live gathering `found`, or all none, in whatever order each of
them visits the gatherings. -/
structure Designate (m : Store) (pid : UInt64) (found : Option (UInt32 × GatheringEntry)) : Prop where
  live : ∀ gid g, found = some (gid, g) → m.gatherings.lookup gid = some g
  gatheringID : ∀ order, GoMap.Enumerates order m.gatherings →
    gatheringIDByPID m pid order = found.map Prod.fst
  session : ∀ order, GoMap.Enumerates order m.gatherings →
    sessionByPID m pid order = found.map (fun f => f.2.participants)
  playing : ∀ order, GoMap.Enumerates order m.gatherings →
    playingEntry m pid order = found.map (playing pid)
  participant : ∀ order, GoMap.Enumerates order m.gatherings →
    sessionOfParticipant m pid order = found.map Prod.snd

/-- The lookups of `pid` agree. -/
def Agree (m : Store) (pid : UInt64) : Prop := ∃ found, Designate m pid found

/-- `pid` sits in one gathering at most. -/
def OneSeat (m : Store) (pid : UInt64) : Prop :=
  ∀ gid gid', SitsIn m pid gid → SitsIn m pid gid' → gid = gid'

/-- The operation seats nobody that sits in another gathering. -/
def KeepsOneSeat (o : Options) (m : Store) : Event → Prop
  | .request service conn req env =>
    Joins service req → ∀ gid, TakesSeat o env conn req m gid → ∀ gid', SitsIn m conn.pid gid' → gid' = gid
  | _ => True

variable {o : Options} {m m' : Store} {gid : UInt32} {g : GatheringEntry} {pid : UInt64} {e : Event}
  {order : List UInt32}

/-! ### What the searches find -/

/-- What the body of the search says at one gathering. -/
theorem firstWith_cons (hg : m.gatherings.lookup gid = some g) (hpid : pid ∈ g.participants) :
    firstWith m pid (gid :: order) = some (gid, g) := by
  unfold firstWith
  rw [List.findSome?_cons, hg]
  dsimp only
  rw [if_pos (containsPID_iff.mpr hpid)]

theorem firstWith_cons_of_not (h : ¬ SitsIn m pid gid) :
    firstWith m pid (gid :: order) = firstWith m pid order := by
  unfold firstWith
  rw [List.findSome?_cons]
  cases hg : m.gatherings.lookup gid with
  | none => rfl
  | some g =>
    have hnot : ¬ containsPID g.participants pid = true := fun hpid =>
      h ⟨_, hg, containsPID_iff.mp hpid⟩
    dsimp only
    rw [if_neg hnot]

theorem firstWith_of_oneSeat (hone : OneSeat m pid) (hg : m.gatherings.lookup gid = some g)
    (hpid : pid ∈ g.participants) (hmem : gid ∈ order) : firstWith m pid order = some (gid, g) := by
  induction order with
  | nil => cases hmem
  | cons gid' order ih =>
    by_cases hsits : SitsIn m pid gid'
    · obtain rfl := hone gid' gid hsits ⟨_, hg, hpid⟩
      exact firstWith_cons hg hpid
    · rw [firstWith_cons_of_not hsits]
      rcases List.mem_cons.mp hmem with rfl | hmem
      · exact absurd ⟨_, hg, hpid⟩ hsits
      · exact ih hmem

theorem firstWith_of_none (h : ∀ gid, ¬ SitsIn m pid gid) (order : List UInt32) :
    firstWith m pid order = none := by
  induction order with
  | nil => rfl
  | cons gid order ih => rw [firstWith_cons_of_not (h gid), ih]

theorem latestWith_of_not (h : ¬ SitsIn m pid gid) (best : Option GatheringEntry) :
    latestWith m pid best gid = best := by
  unfold latestWith
  cases hg : m.gatherings.lookup gid with
  | none => rfl
  | some g =>
    have hnot : ¬ containsPID g.participants pid = true := fun hpid =>
      h ⟨_, hg, containsPID_iff.mp hpid⟩
    dsimp only
    rw [if_neg hnot]

theorem foldl_latestWith_of_not (order : List UInt32) (h : ∀ gid ∈ order, ¬ SitsIn m pid gid)
    (best : Option GatheringEntry) : order.foldl (latestWith m pid) best = best := by
  induction order generalizing best with
  | nil => rfl
  | cons gid order ih =>
    rw [List.foldl_cons, latestWith_of_not (h gid List.mem_cons_self)]
    exact ih (fun gid' hmem => h gid' (List.mem_cons_of_mem _ hmem)) best

theorem sessionOfParticipant_of_oneSeat (hone : OneSeat m pid) (hg : m.gatherings.lookup gid = some g)
    (hpid : pid ∈ g.participants) (horder : order.Nodup) (hmem : gid ∈ order) :
    sessionOfParticipant m pid order = some g := by
  -- Around the gathering the loop meets none that counts.
  obtain ⟨before, after, rfl⟩ := List.append_of_mem hmem
  have hothers : ∀ gid', gid' ≠ gid → ¬ SitsIn m pid gid' := fun gid' hne hsits =>
    hne (hone gid' gid hsits ⟨_, hg, hpid⟩)
  have hnodup := List.nodup_middle.mp horder
  have hnot : gid ∉ before ++ after := (List.nodup_cons.mp hnodup).1
  rw [List.mem_append, not_or] at hnot
  have hbefore : ∀ gid' ∈ before, ¬ SitsIn m pid gid' := fun gid' h =>
    hothers gid' (fun heq => hnot.1 (heq ▸ h))
  have hafter : ∀ gid' ∈ after, ¬ SitsIn m pid gid' := fun gid' h =>
    hothers gid' (fun heq => hnot.2 (heq ▸ h))
  have hhere : latestWith m pid none gid = some g := by
    unfold latestWith
    rw [hg]
    dsimp only
    rw [if_pos (containsPID_iff.mpr hpid)]
  rw [sessionOfParticipant, List.foldl_append, foldl_latestWith_of_not before hbefore, List.foldl_cons,
    hhere, foldl_latestWith_of_not after hafter]

/-! ### Agreement in one state -/

theorem agree_of_oneSeat (hrep : m.Represented) (hone : OneSeat m pid) : Agree m pid := by
  by_cases hsits : ∃ gid, SitsIn m pid gid
  · obtain ⟨gid, hgid⟩ := hsits
    obtain ⟨g, hg, hpid⟩ := hgid
    have hmem : ∀ order, GoMap.Enumerates order m.gatherings → gid ∈ order := fun order horder =>
      (horder.2 gid).mpr (Finmap.mem_of_lookup_eq_some hg)
    have hfirst : ∀ order, GoMap.Enumerates order m.gatherings → firstWith m pid order = some (gid, g) :=
      fun order horder => firstWith_of_oneSeat hone hg hpid (hmem order horder)
    refine ⟨some (gid, g), ?_, fun order h => ?_, fun order h => ?_, fun order h => ?_, fun order h => ?_⟩
    · intro gid' g' heq
      cases heq
      exact hg
    · unfold gatheringIDByPID
      rw [hfirst order h]
      exact congrArg some (hrep gid g hg).id
    · unfold sessionByPID
      rw [hfirst order h]
    · unfold playingEntry
      rw [hfirst order h]
    · exact sessionOfParticipant_of_oneSeat hone hg hpid h.1 (hmem order h)
  · rw [not_exists] at hsits
    have hfirst := firstWith_of_none hsits
    refine ⟨none, ?_, fun order _ => ?_, fun order _ => ?_, fun order _ => ?_, fun order _ => ?_⟩
    · intro gid' g' heq
      cases heq
    · unfold gatheringIDByPID
      rw [hfirst]
      rfl
    · unfold sessionByPID
      rw [hfirst]
    · unfold playingEntry
      rw [hfirst]
    · exact foldl_latestWith_of_not order (fun gid _ => hsits gid) none

/-- A gathering of the player is the answer when the search begins with it. -/
theorem gatheringIDByPID_front (hrep : m.Represented) (h : SitsIn m pid gid) :
    ∃ order, GoMap.Enumerates order m.gatherings ∧ gatheringIDByPID m pid order = some gid := by
  obtain ⟨g, hg, hpid⟩ := h
  obtain ⟨order, horder⟩ := GoMap.exists_enumerates m.gatherings
  have hmem : gid ∈ order := (horder.2 gid).mpr (Finmap.mem_of_lookup_eq_some hg)
  refine ⟨gid :: order.erase gid, horder.of_perm (List.perm_cons_erase hmem), ?_⟩
  unfold gatheringIDByPID
  rw [firstWith_cons hg hpid]
  exact congrArg some (hrep gid g hg).id

/-- **The lookups of a player agree exactly when it sits in one gathering at most.** -/
theorem agree_iff (hrep : m.Represented) : Agree m pid ↔ OneSeat m pid := by
  constructor
  · rintro ⟨found, hfound⟩ gid gid' hgid hgid'
    obtain ⟨order, horder, hfirst⟩ := gatheringIDByPID_front hrep hgid
    obtain ⟨order', horder', hfirst'⟩ := gatheringIDByPID_front hrep hgid'
    rw [hfound.gatheringID order horder] at hfirst
    rw [hfound.gatheringID order' horder'] at hfirst'
    exact Option.some.inj (hfirst.symm.trans hfirst')
  · exact agree_of_oneSeat hrep

/-! ### Runs -/

/-- A step that seats nobody a second time keeps everybody in one gathering at most. -/
theorem oneSeat_step (hrep : m.Represented)
    (hkeeps : KeepsOneSeat o m e) (hone : ∀ pid, OneSeat m pid) (h : step o m e = some m') :
    ∀ pid, OneSeat m' pid := by
  intro pid gid gid' hgid hgid'
  by_cases hjoin : ∃ service conn req env, e = .request service conn req env ∧ Joins service req
  · obtain ⟨service, conn, req, env, rfl, hjoin⟩ := hjoin
    obtain rfl : service = .extension := hjoin.1
    obtain ⟨-, hafter, -⟩ := sitsIn_step hrep hjoin h
    have horder := (enumerates_of_step h).1
    rcases hafter gid pid hgid with hold | ⟨rfl, htakes⟩
    · rcases hafter gid' pid hgid' with hold' | ⟨rfl, htakes'⟩
      · exact hone pid gid gid' hold hold'
      · exact hkeeps hjoin gid' htakes' gid hold
    · rcases hafter gid' conn.pid hgid' with hold' | ⟨-, htakes'⟩
      · exact (hkeeps hjoin gid htakes gid' hold').symm
      · exact takesSeat_unique horder htakes htakes'
  · have hnot : ∀ service conn req env, e = .request service conn req env → ¬ Joins service req :=
      fun service conn req env he h => hjoin ⟨service, conn, req, env, he, h⟩
    exact hone pid gid gid' (sitsIn_of_not_joins h hnot hgid) (sitsIn_of_not_joins h hnot hgid')

/-- A step that leaves everybody in one gathering at most has seated nobody a second time. -/
theorem keepsOneSeat_of_oneSeat (hrep : m.Represented)
    (hone : ∀ pid, OneSeat m' pid) (h : step o m e = some m') : KeepsOneSeat o m e := by
  cases e with
  | request service conn req env =>
    intro hjoin gid htakes gid' hsits
    obtain rfl : service = .extension := hjoin.1
    obtain ⟨hseated, -, hstays⟩ := sitsIn_step hrep hjoin h
    by_contra hne
    have hnot : ¬ TakesSeat o env conn req m gid' := fun htakes' =>
      hne (takesSeat_unique (enumerates_of_step h).1 htakes' htakes)
    exact hne (hone conn.pid gid' gid (hstays gid' conn.pid hsits hnot) (hseated gid htakes))
  | reserveJoin _ _ _ => trivial
  | cancelJoinReservation _ _ => trivial
  | setJoinReservationTTL _ => trivial
  | removePlayer _ _ => trivial

theorem oneSeat_newMatchmaking (pid : UInt64) : OneSeat newMatchmaking pid := by
  intro gid gid' hgid
  obtain ⟨g, hg, -⟩ := hgid
  simp [newMatchmaking] at hg

/-- **Lookups of a player's gathering.**  In every run, `GatheringIDByPID`, `SessionByPID`, the entries of
`playingSession` and `sessionOfParticipant` agree for every player, in all states of the run and whatever
the orders in which they visit the gatherings, exactly when no request of the run seats a player that sits
in another gathering. -/
theorem lookups_agree (o : Options) (es : List Event) (m : Store)
    (h : run (step o) newMatchmaking es = some m) :
    (∀ es₁ es₂ m₁, es = es₁ ++ es₂ → run (step o) newMatchmaking es₁ = some m₁ → ∀ pid, Agree m₁ pid) ↔
      Steps (step o) (KeepsOneSeat o) newMatchmaking es := by
  have hrep : ∀ {es m}, run (step o) newMatchmaking es = some m → m.Represented :=
    fun hrun => represented_of_reachable ⟨_, hrun⟩
  constructor
  · intro hagree
    refine steps_of_splits (fun es₁ e es₂ m₁ heq hrun => ?_)
    -- The step is enabled, and the lookups agree behind it too.
    obtain ⟨m₁', hrun', htail⟩ := run_append_some.mp (heq ▸ h)
    obtain rfl := Option.some.inj (hrun.symm.trans hrun')
    obtain ⟨m₂, hstep, -⟩ := run_cons_some.mp htail
    have hrun₂ : run (step o) newMatchmaking (es₁ ++ [e]) = some m₂ := run_snoc_some.mpr ⟨m₁, hrun, hstep⟩
    have hone : ∀ pid, OneSeat m₂ pid := fun pid =>
      (agree_iff (hrep hrun₂)).mp (hagree (es₁ ++ [e]) es₂ m₂ (by simp [heq]) hrun₂ pid)
    exact keepsOneSeat_of_oneSeat (hrep hrun) hone hstep
  · intro hsteps es₁ es₂ m₁ heq hrun pid
    subst heq
    have hsteps₁ := (steps_append hsteps hrun).1
    have hone : ∀ pid, OneSeat m₁ pid :=
      run_represented oneSeat_newMatchmaking
        (fun _ _ _ hrep hkeeps hm hstep => oneSeat_step hrep hkeeps hm hstep) hsteps₁ hrun
    exact (agree_iff (hrep hrun)).mpr (hone pid)

/-- One player creates a session and another joins it. -/
theorem lookups_agree_joined : ∃ m,
    run (step plainOptions) newMatchmaking [createEvent 7 2 0 [], joinEvent 8 1 1 [1]] = some m ∧
      SitsIn m 8 1 ∧ ∀ pid, Agree m pid := by
  have heval : (run (step plainOptions) newMatchmaking [createEvent 7 2 0 [], joinEvent 8 1 1 [1]]).map
      (fun m => m.members 1) = some (some [7, 8]) := by decide +kernel
  obtain ⟨m, hm, hmembers⟩ := Option.map_eq_some_iff.mp heval
  have hopened : (step plainOptions newMatchmaking (createEvent 7 2 0 [])).map
      (fun m => (m.gatherings.keys, m.members 1)) = some ({1}, some [7]) := by decide +kernel
  have hsteps : Steps (step plainOptions) (KeepsOneSeat plainOptions) newMatchmaking
      [createEvent 7 2 0 [], joinEvent 8 1 1 [1]] := by
    refine ⟨fun _ gid _ gid' hsits => ?_, fun m₁ h₁ => ⟨fun _ gid _ gid' hsits => ?_, fun _ _ => trivial⟩⟩
    · obtain ⟨g, hg, -⟩ := hsits
      simp [newMatchmaking] at hg
    · rw [h₁, Option.map_some, Option.some.injEq, Prod.mk.injEq] at hopened
      obtain ⟨ps, hps, hpid⟩ := sitsIn_iff_members.mp hsits
      obtain ⟨g, hg, -⟩ := exists_of_members hps
      have hkey : gid' ∈ m₁.gatherings.keys := Finmap.mem_keys.mpr (Finmap.mem_of_lookup_eq_some hg)
      rw [hopened.1, Finset.mem_singleton] at hkey
      rw [hkey, hopened.2, Option.some.injEq] at hps
      rw [← hps] at hpid
      exact absurd hpid (by decide)
  have hagree := (lookups_agree plainOptions _ m hm).mpr hsteps
  exact ⟨m, hm, sitsIn_of_members hmembers (by decide), hagree _ [] m (by simp) hm⟩

/-- **Two gatherings of one player.**  A player creates a session and then another.  `GatheringIDByPID`
answers with the one or the other, as the iteration has it. -/
theorem lookups_disagree : ∃ m,
    run (step plainOptions) newMatchmaking [createEvent 7 2 0 [], createEvent 7 2 0 [1]] = some m ∧
      GoMap.Enumerates [1, 2] m.gatherings ∧ GoMap.Enumerates [2, 1] m.gatherings ∧
      gatheringIDByPID m 7 [1, 2] = some 1 ∧ gatheringIDByPID m 7 [2, 1] = some 2 ∧ ¬ Agree m 7 := by
  have heval : (run (step plainOptions) newMatchmaking [createEvent 7 2 0 [], createEvent 7 2 0 [1]]).map
      (fun m => (decide (GoMap.Enumerates [1, 2] m.gatherings), decide (GoMap.Enumerates [2, 1] m.gatherings),
        gatheringIDByPID m 7 [1, 2], gatheringIDByPID m 7 [2, 1])) =
      some (true, true, some 1, some 2) := by decide +kernel
  obtain ⟨m, hm, hfacts⟩ := Option.map_eq_some_iff.mp heval
  simp only [Prod.mk.injEq, decide_eq_true_eq] at hfacts
  obtain ⟨h₁₂, h₂₁, hfirst, hsecond⟩ := hfacts
  refine ⟨m, hm, h₁₂, h₂₁, hfirst, hsecond, ?_⟩
  rintro ⟨found, hfound⟩
  rw [hfound.gatheringID _ h₁₂] at hfirst
  rw [hfound.gatheringID _ h₂₁, hfirst] at hsecond
  cases hsecond

end NextendoMatchmaking.Matchmaking
