import NextendoMatchmaking.Matchmaking.Seating

/-!
# The mesh of a gathering

The consoles of a gathering connect to each other as the server announces them: every participant has to
hear of every other.  A call takes its snapshot of the participants under the lock of the store and sends the
notifications after it has released it, so the notifications of several calls interleave.

The system here has the store, the registry of the connections, and for every call the notifications that it
has still to send; a notification looks its receiver up when it is sent.  What carries the result is that
every ordered pair of participants is announced or due at all times (`MeshInv.covered`): a new participant is
in the snapshot of its own call, and that call announces it to all and all to it.
-/

namespace NextendoMatchmaking.Matchmaking

open NextendoMatchmaking.Runs

variable {id : UInt32} {order : List UInt32} {i : ℕ} {push : Push} {rest : List Push}

/-! ### The system -/

/-- The body of the loop of `FindConnectionByPID`, which keeps the newest connection of `pid` so far. -/
def newest (connections : GoMap UInt32 UInt64) (pid : UInt64) (best : Option UInt32) (id : UInt32) :
    Option UInt32 :=
  if connections.lookup id = some pid then
    match best with
    | none => some id
    | some best => if best < id then some id else some best
  else
    best

/-- `FindConnectionByPID` on the PIDs under the connection ids, with the order in which the loop visits
them. -/
def findConnectionByPID (connections : GoMap UInt32 UInt64) (pid : UInt64) (order : List UInt32) :
    Option UInt32 :=
  order.foldl (newest connections pid) none

/-- A call after its locked step: who called, and the notifications it has still to send. -/
structure Call where
  conn : Caller
  pushes : List Push

/-- The store, the registry, the calls, and the notifications that the connections have been sent. -/
structure Mesh where
  store : Store
  connections : GoMap UInt32 UInt64
  calls : List Call
  sent : List (UInt32 × NotificationEvent)

inductive MeshLabel
  /-- A connection is registered. -/
  | connect (conn : Caller)
  /-- The locked step of a call. -/
  | call (conn : Caller) (req : RMCMessage) (env : Env)
  /-- The `i`-th call sends its next notification. -/
  | notify (i : ℕ) (order : List UInt32)

/-- The connection that a notification goes to, if there is one. -/
def receiver (connections : GoMap UInt32 UInt64) (order : List UInt32) (conn : Caller) :
    Target → Option UInt32
  | .pid p => findConnectionByPID connections p order
  | .caller => some conn.id

/-- The `i`-th call sends `push` and has `rest` left.  Without a receiver the notification is dropped. -/
def Mesh.send (s : Mesh) (i : ℕ) (order : List UInt32) (conn : Caller) (push : Push) (rest : List Push) :
    Mesh :=
  { s with
    calls := s.calls.set i ⟨conn, rest⟩
    sent := s.sent ++ ((receiver s.connections order conn push.target).map
      (fun id => (id, push.event))).toList }

/-- A call takes its snapshot before it finds out who is online. -/
def everybody (env : Env) : Env := { env with online := fun _ => true }

def meshStep (o : Options) (s : Mesh) : MeshLabel → Option Mesh
  | .connect conn =>
    if (s.connections.lookup conn.id).isSome then none
    else some { s with connections := s.connections.insert conn.id conn.pid }
  | .call conn req env =>
    if GoMap.Enumerates env.order s.store.gatherings then
      (handle o (everybody env) .extension conn req s.store).map (fun r =>
        { s with store := r.1, calls := s.calls ++ [⟨conn, r.2.pushes⟩] })
    else
      none
  | .notify i order =>
    match s.calls[i]? with
    | some ⟨conn, push :: rest⟩ =>
      if GoMap.Enumerates order s.connections then
        some (s.send i order conn push rest)
      else
        none
    | _ => none

/-- The state before the first call. -/
def Mesh.start (m : Store) : Mesh := ⟨m, ∅, [], []⟩

/-- Every PID has one connection at most, and whoever creates, auto-matches or joins has one. -/
def OneConnection (s : Mesh) : MeshLabel → Prop
  | .connect conn => ∀ id, s.connections.lookup id ≠ some conn.pid
  | .call conn req _ => s.connections.lookup conn.id = some conn.pid ∧ Joins .extension req
  | .notify _ _ => True

/-! ### Announced and due -/

/-- The event announces `b` as a participant of `gid`. -/
def Announces (gid : UInt32) (b : UInt64) (event : NotificationEvent) : Prop :=
  event.type = notificationParticipate ∧ event.param1 = gid.toUInt64 ∧ event.param2 = b

/-- The connection of `a` has been sent the announcement of `b`. -/
def Announced (s : Mesh) (gid : UInt32) (a b : UInt64) : Prop :=
  ∃ id event, s.connections.lookup id = some a ∧ (id, event) ∈ s.sent ∧ Announces gid b event

/-- A notification of `conn` with this target goes to `a`. -/
def Addressed (conn : Caller) (a : UInt64) : Target → Prop
  | .pid p => p = a
  | .caller => conn.pid = a

/-- A call has still to announce `b` to `a`. -/
def Due (s : Mesh) (gid : UInt32) (a b : UInt64) : Prop :=
  ∃ call ∈ s.calls, ∃ push ∈ call.pushes, Addressed call.conn a push.target ∧ Announces gid b push.event

structure MeshInv (s : Mesh) : Prop where
  represented : ∀ gid g, s.store.gatherings.lookup gid = some g → Represented gid g
  oneEach : ∀ id id' pid, s.connections.lookup id = some pid → s.connections.lookup id' = some pid → id = id'
  registered : ∀ gid pid, SitsIn s.store pid gid → ∃ id, s.connections.lookup id = some pid
  callers : ∀ call ∈ s.calls, s.connections.lookup call.conn.id = some call.conn.pid
  covered : ∀ gid a b, SitsIn s.store a gid → SitsIn s.store b gid → a ≠ b →
    Announced s gid a b ∨ Due s gid a b

variable {o : Options} {s s' : Mesh} {gid : UInt32} {a b pid : UInt64} {conn : Caller} {req : RMCMessage}
  {env : Env}

/-! ### The registry -/

/-- The loop ends with the only connection of `pid`. -/
theorem findConnectionByPID_eq {connections : GoMap UInt32 UInt64} (hid : connections.lookup id = some pid)
    (hone : ∀ id', connections.lookup id' = some pid → id' = id) (horder : GoMap.Enumerates order connections) :
    findConnectionByPID connections pid order = some id := by
  have hhere : ∀ best, best = none ∨ best = some id → newest connections pid best id = some id := by
    rintro best (rfl | rfl)
    · unfold newest
      rw [if_pos hid]
    · unfold newest
      rw [if_pos hid]
      dsimp only
      split <;> rfl
  have helse : ∀ best id', id' ≠ id → newest connections pid best id' = best := by
    intro best id' hne
    unfold newest
    rw [if_neg (fun hid' => hne (hone id' hid'))]
  -- The loop carries nothing or `id`, and `id` once it has met it.
  have hloop : ∀ (ids : List UInt32) (best : Option UInt32), best = none ∨ best = some id →
      id ∈ ids ∨ best = some id → ids.foldl (newest connections pid) best = some id := by
    intro ids
    induction ids with
    | nil =>
      intro best _ hmem
      exact hmem.resolve_left List.not_mem_nil
    | cons id' ids ih =>
      intro best hbest hmem
      rw [List.foldl_cons]
      by_cases hid' : id' = id
      · rw [hid', hhere best hbest]
        exact ih _ (.inr rfl) (.inr rfl)
      · rw [helse best id' hid']
        refine ih best hbest (hmem.imp_left (fun h => ?_))
        exact (List.mem_cons.mp h).resolve_left (fun heq => hid' heq.symm)
  exact hloop order none (.inl rfl) (.inl ((horder.2 id).mpr (Finmap.mem_of_lookup_eq_some hid)))

/-- A notification goes to the connection of the player it is addressed to. -/
theorem receiver_eq (hs : MeshInv s) (horder : GoMap.Enumerates order s.connections)
    (hid : s.connections.lookup id = some a) (hconn : s.connections.lookup conn.id = some conn.pid) {target : Target}
    (h : Addressed conn a target) : receiver s.connections order conn target = some id := by
  cases target with
  | pid p =>
    obtain rfl : p = a := h
    exact findConnectionByPID_eq hid (fun id' hid' => hs.oneEach id' id p hid' hid) horder
  | caller =>
    obtain rfl : conn.pid = a := h
    exact congrArg some (hs.oneEach conn.id id _ hconn hid)

/-! ### Snapshots -/

/-- The call announces the caller to everybody in the snapshot. -/
theorem caller_announced {ps : List UInt64} (honline : ∀ p, env.online p = true) (ha : a ∈ ps) :
    ∃ push ∈ notifyParticipation env conn ps gid,
      Addressed conn a push.target ∧ Announces gid conn.pid push.event := by
  refine ⟨⟨.pid a, participateEvent conn gid conn.pid ps.length⟩, ?_, rfl, rfl, rfl, rfl⟩
  refine List.mem_append_left _ (List.mem_map.mpr ⟨a, ?_, rfl⟩)
  exact List.mem_filter.mpr ⟨ha, honline a⟩

/-- The call announces everybody in the snapshot to the caller. -/
theorem others_announced {ps : List UInt64} (hb : b ∈ ps) (hne : b ≠ conn.pid) :
    ∃ push ∈ notifyParticipation env conn ps gid,
      Addressed conn conn.pid push.target ∧ Announces gid b push.event := by
  refine ⟨⟨.caller, participateEvent conn gid b ps.length⟩, ?_, rfl, rfl, rfl, rfl⟩
  refine List.mem_append_right _ (List.mem_map.mpr ⟨b, ?_, rfl⟩)
  exact List.mem_filter.mpr ⟨hb, bne_iff_ne.mpr hne⟩

/-! ### Steps -/

theorem meshInv_start {m : Store} (hm : m.gatherings = ∅) : MeshInv (Mesh.start m) := by
  have hnone : ∀ gid pid, ¬ SitsIn m pid gid := by
    rintro gid pid ⟨g, hg, -⟩
    simp [hm] at hg
  refine ⟨fun gid g hg => ?_, fun id id' pid h => ?_, fun gid pid h => absurd h (hnone gid pid),
    fun call h => absurd h List.not_mem_nil, fun gid a b h => absurd h (hnone gid a)⟩
  · simp [Mesh.start, hm] at hg
  · simp [Mesh.start] at h

theorem meshInv_connect (hs : MeshInv s) (hone : OneConnection s (.connect conn))
    (h : meshStep o s (.connect conn) = some s') : MeshInv s' := by
  simp only [meshStep] at h
  split at h
  · cases h
  · rename_i hfree
    cases h
    rw [Bool.not_eq_true, Option.isSome_eq_false_iff, Option.isNone_iff_eq_none] at hfree
    -- A registered connection stays, since the id is free.
    have hkept : ∀ {id pid}, s.connections.lookup id = some pid →
        (s.connections.insert conn.id conn.pid).lookup id = some pid := by
      intro id pid hid
      have hne : id ≠ conn.id := by
        rintro rfl
        rw [hfree] at hid
        cases hid
      rw [GoMap.lookup_insert_eq, if_neg hne, hid]
    refine ⟨hs.represented, fun id id' pid hid hid' => ?_, fun gid pid hsits => ?_, fun call hcall => ?_,
      fun gid a b ha hb hne => ?_⟩
    · rw [GoMap.lookup_insert_eq] at hid hid'
      split at hid
      · rename_i heq
        split at hid'
        · rename_i heq'
          exact heq.trans heq'.symm
        · cases hid
          exact absurd hid' (hone id')
      · split at hid'
        · cases hid'
          exact absurd hid (hone id)
        · exact hs.oneEach id id' pid hid hid'
    · obtain ⟨id, hid⟩ := hs.registered gid pid hsits
      exact ⟨id, hkept hid⟩
    · exact hkept (hs.callers call hcall)
    · rcases hs.covered gid a b ha hb hne with ⟨id, event, hid, hsent, hev⟩ | hdue
      · exact .inl ⟨id, event, hkept hid, hsent, hev⟩
      · exact .inr hdue

/-- What was announced or due before a call is so after it. -/
theorem covered_call {store : Store} {call : Call}
    (h : Announced s gid a b ∨ Due s gid a b) :
    Announced { s with store := store, calls := s.calls ++ [call] } gid a b ∨
      Due { s with store := store, calls := s.calls ++ [call] } gid a b := by
  rcases h with hann | ⟨call', hcall', hpush⟩
  · exact .inl hann
  · exact .inr ⟨call', List.mem_append_left _ hcall', hpush⟩

/-- What the locked step of a call does. -/
theorem call_cases (h : meshStep o s (.call conn req env) = some s') :
    ∃ r, GoMap.Enumerates (everybody env).order s.store.gatherings ∧
      handle o (everybody env) .extension conn req s.store = some r ∧
      s' = { s with store := r.1, calls := s.calls ++ [⟨conn, r.2.pushes⟩] } := by
  unfold meshStep at h
  dsimp only at h
  split at h
  · rename_i horder
    obtain ⟨r, hr, rfl⟩ := Option.map_eq_some_iff.mp h
    exact ⟨r, horder, hr, rfl⟩
  · cases h

theorem meshInv_call (hs : MeshInv s) (hone : OneConnection s (.call conn req env))
    (h : meshStep o s (.call conn req env) = some s') : MeshInv s' := by
  obtain ⟨hconn, hjoin⟩ := hone
  obtain ⟨⟨store, reply⟩, horder, hr, rfl⟩ := call_cases h
  have hseating := seating hs.represented horder hjoin hr
  have hstep : step o s.store (.request .extension conn req (everybody env)) = some store := by
    unfold step
    dsimp only
    rw [if_pos horder, hr, Option.map_some]
  have hdue : ∀ gid a b, (∃ push ∈ reply.pushes, Addressed conn a push.target ∧
      Announces gid b push.event) →
      Due { s with store := store, calls := s.calls ++ [⟨conn, reply.pushes⟩] } gid a b :=
    fun gid a b hpush => ⟨_, List.mem_append_right _ (List.mem_singleton_self _), hpush⟩
  refine ⟨represented_step hs.represented hstep, hs.oneEach,
    fun gid pid hsits => ?_, fun call hcall => ?_, fun gid a b ha hb hne => ?_⟩
  · rcases (sitsIn_step hs.represented hjoin hstep).2.1 gid pid hsits with hold | ⟨rfl, -⟩
    · exact hs.registered gid pid hold
    · exact ⟨conn.id, hconn⟩
  · rcases List.mem_append.mp hcall with hold | hnew
    · exact hs.callers call hold
    · rw [List.mem_singleton.mp hnew]
      exact hconn
  · obtain ⟨ps, hps, ha⟩ := sitsIn_iff_members.mp ha
    obtain ⟨ps', hps', hb⟩ := sitsIn_iff_members.mp hb
    obtain rfl := Option.some.inj (hps.symm.trans hps')
    dsimp only at hps
    cases hseating with
    | same hmembers _ =>
      have hold : s.store.members gid = some ps := (hmembers gid).symm.trans hps
      exact covered_call (hs.covered gid a b (sitsIn_of_members hold ha) (sitsIn_of_members hold hb) hne)
    | opens _ hmembers _ =>
      rw [hmembers] at hps
      split at hps
      · cases hps
        rw [List.mem_singleton] at ha hb
        exact absurd (ha.trans hb.symm) hne
      · exact covered_call (hs.covered gid a b (sitsIn_of_members hps ha) (sitsIn_of_members hps hb) hne)
    | @joins gid₀ g hg hnot _ _ hmembers hpushes =>
      rw [hmembers] at hps
      split at hps
      · rename_i hgid
        subst hgid
        cases hps
        by_cases hbnew : b = conn.pid
        · subst hbnew
          refine .inr (hdue gid a conn.pid ?_)
          rw [hpushes]
          exact caller_announced (fun _ => rfl) ha
        · by_cases hanew : a = conn.pid
          · subst hanew
            refine .inr (hdue gid conn.pid b ?_)
            rw [hpushes]
            exact others_announced hb hbnew
          · have hold : ∀ p, p ∈ g.participants ++ [conn.pid] → p ≠ conn.pid → SitsIn s.store p gid :=
              fun p hp hpnew => ⟨g, hg,
                (List.mem_append.mp hp).resolve_right (fun h => hpnew (List.mem_singleton.mp h))⟩
            exact covered_call (hs.covered gid a b (hold a ha hanew) (hold b hb hbnew) hne)
      · exact covered_call (hs.covered gid a b (sitsIn_of_members hps ha) (sitsIn_of_members hps hb) hne)

/-- What a notification step does. -/
theorem notify_cases (h : meshStep o s (.notify i order) = some s') :
    ∃ conn push rest, s.calls[i]? = some ⟨conn, push :: rest⟩ ∧ GoMap.Enumerates order s.connections ∧
      s' = s.send i order conn push rest := by
  unfold meshStep at h
  dsimp only at h
  split at h
  · rename_i conn push rest hcall
    split at h
    · rename_i horder
      cases h
      exact ⟨conn, push, rest, hcall, horder, rfl⟩
    · cases h
  · cases h

/-- The other calls, and the rest of this one, are still there. -/
theorem mem_calls_send {call : Call} (hi : s.calls[i]? = some ⟨conn, push :: rest⟩) (hcall : call ∈ s.calls) :
    call ∈ (s.send i order conn push rest).calls ∨ call = ⟨conn, push :: rest⟩ := by
  obtain ⟨j, hj⟩ := List.mem_iff_getElem?.mp hcall
  by_cases hij : i = j
  · subst hij
    exact .inr (Option.some.inj (hj.symm.trans hi))
  · refine .inl (List.mem_iff_getElem?.mpr ⟨j, ?_⟩)
    show (s.calls.set i ⟨conn, rest⟩)[j]? = some call
    rw [List.getElem?_set_ne hij, hj]

theorem rest_mem_send (hi : s.calls[i]? = some ⟨conn, push :: rest⟩) :
    (⟨conn, rest⟩ : Call) ∈ (s.send i order conn push rest).calls :=
  List.mem_set (List.getElem?_eq_some_iff.mp hi).1 _

/-- A notification that is sent turns what was due into something announced. -/
theorem covered_send (hs : MeshInv s) (hi : s.calls[i]? = some ⟨conn, push :: rest⟩)
    (horder : GoMap.Enumerates order s.connections) (hid : s.connections.lookup id = some a)
    (h : Announced s gid a b ∨ Due s gid a b) :
    Announced (s.send i order conn push rest) gid a b ∨ Due (s.send i order conn push rest) gid a b := by
  rcases h with ⟨id', event, hid', hsent, hev⟩ | ⟨call, hcall, push', hpush, haddr, hev⟩
  · exact .inl ⟨id', event, hid', List.mem_append_left _ hsent, hev⟩
  · rcases mem_calls_send hi hcall with hother | rfl
    · exact .inr ⟨call, hother, push', hpush, haddr, hev⟩
    · rcases List.mem_cons.mp hpush with rfl | hrest
      · have hconn : s.connections.lookup conn.id = some conn.pid := hs.callers _ hcall
        refine .inl ⟨id, push'.event, hid, List.mem_append_right _ ?_, hev⟩
        rw [receiver_eq hs horder hid hconn haddr]
        exact List.mem_singleton_self _
      · exact .inr ⟨_, rest_mem_send hi, push', hrest, haddr, hev⟩

theorem meshInv_notify (hs : MeshInv s) (h : meshStep o s (.notify i order) = some s') : MeshInv s' := by
  obtain ⟨conn, push, rest, hi, horder, rfl⟩ := notify_cases h
  refine ⟨hs.represented, hs.oneEach, hs.registered, fun call hcall => ?_, fun gid a b ha hb hne => ?_⟩
  · rcases List.mem_or_eq_of_mem_set hcall with hold | rfl
    · exact hs.callers call hold
    · have hcaller := hs.callers ⟨conn, push :: rest⟩ (List.mem_iff_getElem?.mpr ⟨i, hi⟩)
      exact hcaller
  · obtain ⟨id, hid⟩ := hs.registered gid a ha
    exact covered_send hs hi horder hid (hs.covered gid a b ha hb hne)

theorem meshInv_step {l : MeshLabel} (hs : MeshInv s) (hone : OneConnection s l)
    (h : meshStep o s l = some s') : MeshInv s' := by
  cases l with
  | connect conn => exact meshInv_connect hs hone h
  | call conn req env => exact meshInv_call hs hone h
  | notify i order => exact meshInv_notify hs h

/-- **Mesh completeness.**  In every interleaving of auto-matches, creates and joins, with one registered
connection per PID, once all calls have sent their notifications: for every gathering and every two of its
participants `a` and `b`, the connection of `a` has been sent the announcement of `b`. -/
theorem mesh_complete (o : Options) (m : Store) (hm : m.gatherings = ∅) (ls : List MeshLabel) (s : Mesh)
    (hrun : run (meshStep o) (Mesh.start m) ls = some s)
    (hone : Steps (meshStep o) OneConnection (Mesh.start m) ls) (hdone : ∀ call ∈ s.calls, call.pushes = [])
    (gid : UInt32) (g : GatheringEntry) (hg : s.store.gatherings.lookup gid = some g) (a b : UInt64)
    (ha : a ∈ g.participants) (hb : b ∈ g.participants) (hne : a ≠ b) :
    ∃ id event, s.connections.lookup id = some a ∧ (id, event) ∈ s.sent ∧
      event.type = notificationParticipate ∧ event.param1 = gid.toUInt64 ∧ event.param2 = b := by
  have hinv : MeshInv s := run_invariant_of_steps (P := MeshInv)
    (fun _ _ _ hone hs h => meshInv_step hs hone h) hone (meshInv_start hm) hrun
  rcases hinv.covered gid a b ⟨_, hg, ha⟩ ⟨_, hg, hb⟩ hne with hann | hdue
  · exact hann
  · obtain ⟨call, hcall, push, hpush, -⟩ := hdue
    rw [hdone call hcall] at hpush
    exact absurd hpush List.not_mem_nil

/-- A create and a join whose notifications interleave. -/
def meshLabels : List MeshLabel :=
  [.connect ⟨7, 1⟩, .connect ⟨8, 2⟩, .call ⟨7, 1⟩ (createRequest 2) (quietEnv 0 []),
    .call ⟨8, 2⟩ (joinRequest 1) (quietEnv 0 [1]), .notify 1 [1, 2], .notify 0 [2, 1], .notify 1 [1, 2],
    .notify 1 [1, 2]]

theorem oneConnection_meshLabels :
    Steps (meshStep plainOptions) OneConnection (Mesh.start newMatchmaking) meshLabels := by
  refine ⟨fun id => ?_, fun s₁ h₁ => ⟨fun id => ?_, fun s₂ h₂ => ⟨⟨?_, rfl, .inr (.inl rfl)⟩, fun s₃ h₃ =>
    ⟨⟨?_, rfl, .inr (.inr rfl)⟩, fun _ _ => ⟨trivial, fun _ _ => ⟨trivial, fun _ _ => ⟨trivial, fun _ _ =>
      ⟨trivial, fun _ _ => trivial⟩⟩⟩⟩⟩⟩⟩⟩
  · simp [Mesh.start]
  · cases h₁
    show Finmap.lookup id (Finmap.insert 1 7 ∅) ≠ some 8
    rw [GoMap.lookup_insert_eq]
    split
    · decide
    · simp
  · cases h₁
    cases h₂
    rfl
  · cases h₁
    cases h₂
    obtain ⟨r, -, -, rfl⟩ := call_cases h₃
    rfl

/-- Both participants hear of each other. -/
theorem mesh_complete_pair : ∃ s,
    run (meshStep plainOptions) (Mesh.start newMatchmaking) meshLabels = some s ∧
      (∃ event, (1, event) ∈ s.sent ∧ event.param1 = 1 ∧ event.param2 = 8) ∧
      ∃ id event, s.connections.lookup id = some 8 ∧ (id, event) ∈ s.sent ∧
        event.type = notificationParticipate ∧ event.param1 = (1 : UInt32).toUInt64 ∧ event.param2 = 7 := by
  have heval : (run (meshStep plainOptions) (Mesh.start newMatchmaking) meshLabels).map (fun s =>
      (s.calls.all (fun call => call.pushes = []),
        (s.store.gatherings.lookup 1).map (fun g => g.participants),
        s.sent.any (fun (id, event) => id = 1 ∧ event.param1 = 1 ∧ event.param2 = 8))) =
      some (true, some [7, 8], true) := by decide +kernel
  obtain ⟨s, hs, hfacts⟩ := Option.map_eq_some_iff.mp heval
  simp only [Prod.mk.injEq, List.all_eq_true, decide_eq_true_eq, List.any_eq_true, Option.map_eq_some_iff]
    at hfacts
  obtain ⟨hdone, ⟨g, hg, hps⟩, ⟨⟨id, event⟩, hsent, rfl, hevent⟩⟩ := hfacts
  have hpair := mesh_complete plainOptions newMatchmaking rfl meshLabels s hs oneConnection_meshLabels hdone 1 g
    hg 8 7 (by rw [hps]; decide) (by rw [hps]; decide) (by decide)
  exact ⟨s, hs, ⟨event, hsent, hevent⟩, hpair⟩

end NextendoMatchmaking.Matchmaking
