import NextendoMatchmaking.Matchmaking.Changes

/-!
# The representation of the gathering store

What the store keeps twice, it keeps consistently: the id of a gathering is its key, `NumParticipants` is
the number of its participants, and a live gathering has participants, each once (`Represented`).  Every
touch keeps this, partial updates of the session included, because the capacity never exceeds 16 bits and
so the length of the participants never exceeds the 32 bits of `NumParticipants`.

That ids stay below `nextGID` is a property of runs: it holds as long as the counter has not wrapped, so
`store_representation` counts the gatherings that a run creates.
-/

namespace NextendoMatchmaking.Matchmaking

open NextendoMatchmaking.Runs Relation

/-- A gathering is well represented under its id. -/
structure Represented (gid : UInt32) (g : GatheringEntry) : Prop where
  id : g.session.id = gid
  nonempty : g.participants ≠ []
  nodup : g.participants.Nodup
  count : g.session.numParticipants.toNat = g.participants.length
  maxPos : 0 < g.session.maxParticipants
  bound : g.participants.length + GoMap.len g.reservations < 2 ^ 16

/-- Every gathering of the store is well represented. -/
def Store.Represented (m : Store) : Prop :=
  ∀ gid g, m.gatherings.lookup gid = some g → Matchmaking.Represented gid g

variable {o : Options} {e : Event} {m m' : Store} {gid : UInt32} {g g' : GatheringEntry} {ttl : Int}
  {pid : UInt64}

/-! ### Single gatherings -/

theorem represented_newGathering (env : CreationEnv) (conn : Caller) (gid : UInt32)
    (src : MatchmakeSession) : Represented gid (newGathering env conn gid src) where
  id := by
    simp only [newGathering, finalizeCreatedSession]
    split <;> rfl
  nonempty := List.cons_ne_nil _ _
  nodup := List.nodup_singleton _
  count := by
    simp only [newGathering, finalizeCreatedSession]
    split <;> rfl
  maxPos := maxParticipants_newGathering env conn gid src
  bound := by
    show 1 + GoMap.len ∅ < 2 ^ 16
    rw [GoMap.len_empty]
    decide

/-- The count after a refresh is the length, since that fits. -/
theorem count_refresh (h : g.participants.length < 2 ^ 16) :
    (refreshNumParticipants g).session.numParticipants.toNat = g.participants.length := by
  show (UInt32.ofNat g.participants.length).toNat = g.participants.length
  exact UInt32.toNat_ofNat_of_lt' (Nat.lt_trans h (by decide))

/-- A refresh repairs the count, whatever it was. -/
theorem represented_refresh (hid : g.session.id = gid) (hne : g.participants ≠ [])
    (hnodup : g.participants.Nodup) (hmax : 0 < g.session.maxParticipants)
    (hbound : g.participants.length + GoMap.len g.reservations < 2 ^ 16) :
    Represented gid (refreshNumParticipants g) :=
  ⟨hid, hne, hnodup, count_refresh (by omega), hmax, hbound⟩

theorem represented_refreshed (h : Represented gid g) : Represented gid (refreshNumParticipants g) :=
  represented_refresh h.id h.nonempty h.nodup h.maxPos h.bound

theorem represented_release (h : Represented gid g) (pid : UInt64) :
    Represented gid (releaseReservation g pid) := by
  have hlen : GoMap.len (g.reservations.erase pid) ≤ GoMap.len g.reservations :=
    GoMap.len_erase_le _ _
  have hbound := h.bound
  exact ⟨h.id, h.nonempty, h.nodup, h.count, h.maxPos, by
    show g.participants.length + GoMap.len (g.reservations.erase pid) < 2 ^ 16
    omega⟩

/-- A gathering that loses a player and keeps others. -/
theorem represented_without (h : Represented gid g) (hrest : removePID g.participants pid ≠ []) :
    Represented gid (refreshNumParticipants (without g pid)) := by
  have hlen := length_removePID_le g.participants pid
  have hbound := (represented_release h pid).bound
  refine represented_refresh h.id hrest (nodup_removePID pid h.nodup) h.maxPos ?_
  show (removePID g.participants pid).length + GoMap.len (g.reservations.erase pid) < 2 ^ 16
  change g.participants.length + GoMap.len (g.reservations.erase pid) < 2 ^ 16 at hbound
  omega

/-- A new reservation fits into 16 bits, since it fits into the capacity. -/
theorem bound_of_room (h : Represented gid g) (hroom : Room g pid) :
    g.participants.length + GoMap.len (g.reservations.erase pid) + 1 < 2 ^ 16 := by
  have hbound := h.bound
  have hle := GoMap.len_erase_le g.reservations pid
  rcases hroom with hres | hfree
  · obtain ⟨x, hx⟩ := Option.isSome_iff_exists.mp hres
    have hlen := GoMap.len_erase_of_mem hx
    omega
  · have hmax := g.session.maxParticipants.toNat_lt
    by_contra hfull
    exact hfree ⟨h.maxPos, by omega⟩

theorem represented_hold (h : Represented gid g) (hroom : Room g pid) (x : Int) :
    Represented gid (putReservation g pid x) := by
  refine ⟨h.id, h.nonempty, h.nodup, h.count, h.maxPos, ?_⟩
  have hbound := bound_of_room h hroom
  show g.participants.length + GoMap.len (g.reservations.insert pid x) < 2 ^ 16
  cases hres : g.reservations.lookup pid with
  | none =>
    rw [GoMap.len_insert_of_notMem x hres]
    rw [GoMap.erase_eq_self hres] at hbound
    omega
  | some y =>
    rw [GoMap.len_insert_of_mem x hres]
    exact h.bound

theorem represented_seated (h : Represented gid g) (hpid : pid ∉ g.participants) (hroom : Room g pid) :
    Represented gid (seated g pid) := by
  have hbound := bound_of_room h hroom
  refine represented_refresh h.id ?_ ?_ h.maxPos ?_
  · simp
  · exact nodup_append_pid h.nodup hpid
  · show (g.participants ++ [pid]).length + GoMap.len (g.reservations.erase pid) < 2 ^ 16
    rw [List.length_append, List.length_singleton]
    omega

/-- **Every touch keeps the representation.** -/
theorem touch_represented (h : Represented gid g) (t : Touch o ttl gid e g g') : Represented gid g' := by
  cases t with
  | @expire _ _ now _ =>
    have hlen := GoMap.len_deleteWhere_le (fun _ expires => !decide (now < expires)) g.reservations
    have hbound := h.bound
    refine ⟨h.id, h.nonempty, h.nodup, h.count, h.maxPos, ?_⟩
    show g.participants.length + GoMap.len (GoMap.deleteWhere _ g.reservations) < 2 ^ 16
    omega
  | hold _ hroom => exact represented_hold h hroom _
  | holdSeated _ => exact represented_release h _
  | cancel => exact represented_release h _
  | join _ _ hpid hroom _ => exact represented_seated h hpid hroom
  | lapse _ _ _ => exact represented_refreshed (represented_release h _)
  | rejoin _ => exact represented_refreshed (represented_release h _)
  | refresh => exact represented_refreshed h
  | edit hedit =>
    have hframe := hedit.frame
    exact ⟨hframe.id.trans h.id, h.nonempty, h.nodup, by rw [hframe.num]; exact h.count,
      by rw [hframe.max]; exact h.maxPos, h.bound⟩
  | part p _ _ =>
    refine ⟨h.id, h.nonempty, h.nodup, h.count, ?_, h.bound⟩
    show 0 < if p.maxParticipants ≠ 0 then p.maxParticipants else g.session.maxParticipants
    split
    · rename_i hp
      exact UInt16.pos_iff_ne_zero.mpr hp
    · exact h.maxPos
  | migrate candidates _ =>
    have hperm := migrate_perm candidates g.participants
    refine ⟨h.id, ?_, hperm.nodup_iff.mpr h.nodup, h.count.trans hperm.length_eq.symm, h.maxPos, ?_⟩
    · intro hnil
      exact h.nonempty (List.perm_nil.mp (hnil ▸ hperm.symm))
    · show (migrate candidates g.participants).length + GoMap.len g.reservations < 2 ^ 16
      rw [hperm.length_eq]
      exact h.bound
  | leave _ _ hrest => exact represented_without h hrest
  | disconnect _ hrest _ => exact represented_without h hrest
  | disconnectOther _ hnot =>
    have hsame : without g _ = releaseReservation g _ := without_of_notMem hnot
    rw [hsame]
    exact represented_release h _

theorem represented_step (h : m.Represented) (hstep : step o m e = some m') : m'.Represented :=
  step_live represented_newGathering touch_represented h hstep

theorem represented_of_reachable (h : Reachable (step o) newMatchmaking m) : m.Represented :=
  live_invariant represented_newGathering touch_represented h

/-! ### Ids and the counter -/

/-- The number of gatherings that the run `es` creates from `m`.  `createGathering` counts `nextGID` up,
and nothing else writes it. -/
def created (o : Options) : Store → List Event → ℕ
  | _, [] => 0
  | m, e :: es =>
    match step o m e with
    | none => 0
    | some m' => (if m'.nextGID = m.nextGID then 0 else 1) + created o m' es

/-- Every live id has been given out. -/
def IdsBelow (m : Store) : Prop := ∀ gid g, m.gatherings.lookup gid = some g → gid < m.nextGID

theorem toNat_nextGID_step (h : step o m e = some m')
    (hwrap : m.nextGID.toNat + (if m'.nextGID = m.nextGID then 0 else 1) < 2 ^ 32) :
    m'.nextGID.toNat = m.nextGID.toNat + if m'.nextGID = m.nextGID then 0 else 1 := by
  rcases (step_described h).nextGID with hsame | hnext
  · rw [if_pos hsame, hsame, Nat.add_zero]
  · have hne : m'.nextGID ≠ m.nextGID := by
      rw [hnext]
      intro heq
      simp at heq
    rw [if_neg hne] at hwrap ⊢
    rw [hnext, UInt32.toNat_add, UInt32.toNat_one, Nat.mod_eq_of_lt hwrap]

theorem idsBelow_step (h : step o m e = some m') (hle : m.nextGID ≤ m'.nextGID) (hm : IdsBelow m) :
    IdsBelow m' := by
  intro gid g hg
  cases (step_described h).change gid with
  | kept h₀ _ _ _ => exact UInt32.lt_of_lt_of_le (hm gid _ h₀) hle
  | gone h' _ =>
    rw [h'] at hg
    cases hg
  | fresh _ _ hgid hnext _ _ =>
    subst hgid
    apply UInt32.lt_of_le_of_ne hle
    rw [hnext]
    intro heq
    simp at heq

theorem idsBelow_run {es : List Event} (hm : IdsBelow m) (h : run (step o) m es = some m')
    (hwrap : m.nextGID.toNat + created o m es < 2 ^ 32) : IdsBelow m' := by
  induction es generalizing m with
  | nil =>
    rw [run_nil, Option.some.injEq] at h
    exact h ▸ hm
  | cons e es ih =>
    obtain ⟨m₁, hstep, hrun⟩ := run_cons_some.mp h
    have hcreated : created o m (e :: es) =
        (if m₁.nextGID = m.nextGID then 0 else 1) + created o m₁ es := by
      rw [created, hstep]
    rw [hcreated] at hwrap
    have hnext := toNat_nextGID_step hstep (by omega)
    have hle : m.nextGID ≤ m₁.nextGID := by
      rw [UInt32.le_iff_toNat_le, hnext]
      exact Nat.le_add_right _ _
    exact ih (idsBelow_step hstep hle hm) hrun (by omega)

/-- **Representation of the store.**  In every state of every run that creates fewer than `2 ^ 32 - 1`
gatherings, each live gathering carries its key as its id, the id has been given out, there are
participants, each once, and `NumParticipants` is their number. -/
theorem store_representation (o : Options) (es : List Event) (m : Store)
    (h : run (step o) newMatchmaking es = some m)
    (hcreated : created o newMatchmaking es < 2 ^ 32 - 1) (gid : UInt32) (g : GatheringEntry)
    (hg : m.gatherings.lookup gid = some g) :
    g.session.id = gid ∧ gid < m.nextGID ∧ g.participants ≠ [] ∧ g.participants.Nodup ∧
      g.session.numParticipants.toNat = g.participants.length := by
  have hrep := represented_of_reachable ⟨es, h⟩ gid g hg
  have hinit : IdsBelow newMatchmaking := by
    intro gid g hg
    simp [newMatchmaking] at hg
  have hone : newMatchmaking.nextGID.toNat = 1 := rfl
  have hbelow : IdsBelow m := idsBelow_run hinit h (by omega)
  exact ⟨hrep.id, hbelow gid g hg, hrep.nonempty, hrep.nodup, hrep.count⟩

/-- A session with a second participant. -/
theorem store_representation_joined : ∃ m g,
    run (step plainOptions) newMatchmaking [createEvent 7 2 0 [], joinEvent 8 1 1 [1]] = some m ∧
      m.gatherings.lookup 1 = some g ∧ g.participants = [7, 8] ∧
      g.session.numParticipants.toNat = g.participants.length := by
  have heval : ((run (step plainOptions) newMatchmaking [createEvent 7 2 0 [], joinEvent 8 1 1 [1]]).bind
      (fun m => (m.gatherings.lookup 1).map (fun g => g.participants))) = some [7, 8] := rfl
  obtain ⟨m, g, hm, hg, hp⟩ := exists_live heval
  obtain ⟨-, -, -, -, hcount⟩ := store_representation plainOptions _ m hm (by decide +kernel) 1 g hg
  exact ⟨m, g, hm, hg, hp, hcount⟩

end NextendoMatchmaking.Matchmaking
