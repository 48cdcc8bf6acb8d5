import NextendoMatchmaking.Library.Seats
import NextendoMatchmaking.Matchmaking.Changes

/-!
# Seats and reservations fit the capacity

A gathering is a room with held seats: its participants are seated, its reservations are holds, and
`MaxParticipants` is the capacity.  Every touch of a gathering is a sequence of steps of the room
(`touch_refines`), as long as no partial update rewrites the capacity.  What the room carries as its
well-formedness then holds of every live gathering of every run: `seat_capacity`.
-/

namespace NextendoMatchmaking.Matchmaking

open NextendoMatchmaking.Runs Relation

/-- The gathering `g` is the room `S`. -/
structure Refines (g : GatheringEntry) (S : Seats UInt64) : Prop where
  nodup : g.participants.Nodup
  members : S.members = g.participants.toFinset
  holds : S.holds = g.reservations.keys
  capacity : S.capacity = g.session.maxParticipants.toNat

variable {o : Options} {e : Event} {m : Store} {gid : UInt32} {g g' : GatheringEntry} {ttl : Int}
  {S : Seats UInt64} {pid : UInt64}

/-! ### Reading the room off the gathering -/

theorem Refines.mem_members (h : Refines g S) : pid ∈ S.members ↔ pid ∈ g.participants := by
  rw [h.members, List.mem_toFinset]

theorem Refines.mem_holds (h : Refines g S) : pid ∈ S.holds ↔ (g.reservations.lookup pid).isSome := by
  rw [h.holds, Finmap.mem_keys, Finmap.lookup_isSome]

theorem Refines.card (h : Refines g S) :
    S.members.card + S.holds.card = g.participants.length + GoMap.len g.reservations := by
  rw [h.members, h.holds, List.toFinset_card_of_nodup h.nodup]
  rfl

/-- The capacity test of `reserveJoinLocked` finds a free seat of the room. -/
theorem Refines.room (h : Refines g S) (hroom : Room g pid) :
    pid ∈ S.holds ∨ S.members.card + S.holds.card < S.capacity := by
  rcases hroom with hres | hfree
  · exact .inl (h.mem_holds.mpr hres)
  · right
    have hpos := S.capacity_pos
    rw [h.capacity] at hpos
    rw [h.card, h.capacity]
    by_contra hfull
    exact hfree ⟨UInt16.lt_iff_toNat_lt.mpr hpos, by omega⟩

/-! ### Touches are steps of the room -/

theorem refines_newGathering (env : CreationEnv) (conn : Caller) (gid : UInt32) (src : MatchmakeSession) :
    ∃ S, Refines (newGathering env conn gid src) S := by
  have hpos : 0 < (newGathering env conn gid src).session.maxParticipants.toNat :=
    UInt16.lt_iff_toNat_lt.mp (maxParticipants_newGathering env conn gid src)
  exact ⟨.opened conn.pid _ hpos, ⟨List.nodup_singleton _, rfl, rfl, rfl⟩⟩

/-- Reservations that go are holds that are dropped. -/
theorem refines_drop (h : Refines g S) (hp : g'.participants = g.participants)
    (hmax : g'.session.maxParticipants = g.session.maxParticipants)
    (hres : g'.reservations.keys ⊆ g.reservations.keys) :
    ∃ S', Refines g' S' ∧ ReflTransGen Seats.Step S S' := by
  have hkeep : g'.reservations.keys ⊆ S.holds := h.holds ▸ hres
  refine ⟨S.drop _ hkeep, ⟨hp ▸ h.nodup, ?_, rfl, ?_⟩, .single (.drop _ hkeep)⟩
  · rw [hp]
    exact h.members
  · rw [hmax]
    exact h.capacity

theorem refines_leave (h : Refines g S) (pid : UInt64) :
    ∃ S', Refines (without g pid) S' ∧ ReflTransGen Seats.Step S S' := by
  refine ⟨S.leave pid, ⟨nodup_removePID pid h.nodup, ?_, ?_, h.capacity⟩, .single (.leave pid)⟩
  · ext p
    simp [Seats.leave, without, h.mem_members, and_comm]
  · show S.holds.erase pid = (g.reservations.erase pid).keys
    rw [Finmap.keys_erase, h.holds]

theorem refines_hold (h : Refines g S) (hpid : pid ∉ g.participants) (hroom : Room g pid) (x : Int) :
    ∃ S', Refines (putReservation g pid x) S' ∧ ReflTransGen Seats.Step S S' := by
  have hnot : pid ∉ S.members := fun hm => hpid (h.mem_members.mp hm)
  refine ⟨S.hold pid hnot (h.room hroom), ⟨h.nodup, h.members, ?_, h.capacity⟩,
    .single (.hold pid hnot (h.room hroom))⟩
  show insert pid S.holds = (g.reservations.insert pid x).keys
  rw [GoMap.keys_insert, h.holds]

/-- A join takes a seat that is held for the moment of the join. -/
theorem refines_seated (h : Refines g S) (hpid : pid ∉ g.participants) (hroom : Room g pid) :
    ∃ S', Refines (seated g pid) S' ∧ ReflTransGen Seats.Step S S' := by
  have hnot : pid ∉ S.members := fun hm => hpid (h.mem_members.mp hm)
  have hheld : pid ∈ (S.hold pid hnot (h.room hroom)).holds := Finset.mem_insert_self pid S.holds
  refine ⟨(S.hold pid hnot (h.room hroom)).seat pid hheld, ⟨?_, ?_, ?_, h.capacity⟩,
    .head (.hold pid hnot (h.room hroom)) (.single (.seat pid hheld))⟩
  · exact nodup_append_pid h.nodup hpid
  · ext p
    simp [Seats.seat, Seats.hold, seated, refreshNumParticipants, h.mem_members]
  · show (insert pid S.holds).erase pid = (g.reservations.erase pid).keys
    rw [Finmap.keys_erase, h.holds]
    ext p
    simp only [Finset.mem_erase, Finset.mem_insert]
    tauto

/-- **Every touch is a sequence of steps of the room.** -/
theorem touch_refines (ho : o.sessionPartPersists = false) (h : Refines g S)
    (t : Touch o ttl gid e g g') : ∃ S', Refines g' S' ∧ ReflTransGen Seats.Step S S' := by
  have hrelease : ∀ pid, (g.reservations.erase pid).keys ⊆ g.reservations.keys := by
    intro pid
    rw [Finmap.keys_erase]
    exact Finset.erase_subset _ _
  cases t with
  | @expire _ _ now _ => exact refines_drop h rfl rfl (GoMap.keys_deleteWhere_subset _ _)
  | hold hpid hroom => exact refines_hold h hpid hroom _
  | holdSeated _ => exact refines_drop h rfl rfl (hrelease _)
  | cancel => exact refines_drop h rfl rfl (hrelease _)
  | join _ _ hpid hroom _ => exact refines_seated h hpid hroom
  | lapse _ _ _ => exact refines_drop h rfl rfl (hrelease _)
  | rejoin _ => exact refines_drop h rfl rfl (hrelease _)
  | refresh => exact ⟨S, ⟨h.nodup, h.members, h.holds, h.capacity⟩, .refl⟩
  | edit hedit =>
    exact ⟨S, ⟨h.nodup, h.members, h.holds, hedit.frame.max ▸ h.capacity⟩, .refl⟩
  | part p hpart _ =>
    have hpersists := hpart.persists
    rw [ho] at hpersists
    cases hpersists
  | migrate candidates _ =>
    have hperm := migrate_perm candidates g.participants
    exact ⟨S, ⟨hperm.nodup_iff.mpr h.nodup, h.members.trans (List.toFinset_eq_of_perm _ _ hperm.symm),
      h.holds, h.capacity⟩, .refl⟩
  | leave _ _ _ =>
    obtain ⟨S', h', hstep⟩ := refines_leave h _
    exact ⟨S', ⟨h'.nodup, h'.members, h'.holds, h'.capacity⟩, hstep⟩
  | disconnect _ _ _ =>
    obtain ⟨S', h', hstep⟩ := refines_leave h _
    exact ⟨S', ⟨h'.nodup, h'.members, h'.holds, h'.capacity⟩, hstep⟩
  | disconnectOther _ _ => exact refines_leave h _

/-! ### The capacity of every live gathering -/

/-- Every live gathering of a run is a room. -/
theorem live_refines (ho : o.sessionPartPersists = false) (h : Reachable (step o) newMatchmaking m)
    (hg : m.gatherings.lookup gid = some g) : ∃ S, Refines g S := by
  refine live_invariant (P := fun _ g => ∃ S, Refines g S) refines_newGathering ?_ h gid g hg
  intro e ttl gid g g' hex t
  obtain ⟨S, hS⟩ := hex
  obtain ⟨S', hS', -⟩ := touch_refines ho hS t
  exact ⟨S', hS'⟩

/-- **Seat capacity.**  In every state of every run of a store without partial updates, participants and
reservations of a live gathering fit its capacity, the capacity is positive, and nobody both is a
participant and holds a reservation. -/
theorem seat_capacity (o : Options) (ho : o.sessionPartPersists = false) (m : Store)
    (h : Reachable (step o) newMatchmaking m) (gid : UInt32) (g : GatheringEntry)
    (hg : m.gatherings.lookup gid = some g) :
    g.participants.length + GoMap.len g.reservations ≤ g.session.maxParticipants.toNat ∧
      1 ≤ g.session.maxParticipants.toNat ∧
      ∀ pid, ¬ (pid ∈ g.participants ∧ (g.reservations.lookup pid).isSome) := by
  obtain ⟨S, hS⟩ := live_refines ho h hg
  refine ⟨?_, ?_, ?_⟩
  · rw [← hS.card, ← hS.capacity]
    exact S.fits
  · rw [← hS.capacity]
    exact S.capacity_pos
  · intro pid hex
    obtain ⟨hmem, hres⟩ := hex
    exact Finset.disjoint_left.mp S.disjoint (hS.mem_members.mpr hmem) (hS.mem_holds.mpr hres)

/-- A session of two seats, one taken and one reserved. -/
theorem seat_capacity_reserved : ∃ m g,
    run (step plainOptions) newMatchmaking [createEvent 7 2 0 [], .reserveJoin 1 8 0] = some m ∧
      m.gatherings.lookup 1 = some g ∧ g.participants = [7] ∧ g.reservations.lookup 8 = some 8000000000 ∧
      g.participants.length + GoMap.len g.reservations ≤ g.session.maxParticipants.toNat := by
  have heval : ((run (step plainOptions) newMatchmaking [createEvent 7 2 0 [], .reserveJoin 1 8 0]).bind
      (fun m => (m.gatherings.lookup 1).map (fun g => (g.participants, g.reservations.lookup 8)))) =
      some ([7], some 8000000000) := rfl
  obtain ⟨m, g, hm, hg, heq⟩ := exists_live heval
  obtain ⟨hp, hr⟩ := Prod.mk.inj heq
  exact ⟨m, g, hm, hg, hp, hr, (seat_capacity plainOptions rfl m ⟨_, hm⟩ 1 g hg).1⟩

end NextendoMatchmaking.Matchmaking
