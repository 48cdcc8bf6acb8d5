import NextendoMatchmaking.Endpoint.StationURL
import NextendoMatchmaking.Wire.RoundTrip
import NextendoMatchmaking.Wire.Structures

/-!
# The call ids of requests from the server

The server sends two kinds of requests of its own: notifications (`SendNotification` of `notification.go`) and
probes (`pushInitiateProbe` of `nattraversal.go`).  A notification is numbered by a counter of the process,
`0xFFFE0000` plus its value; a probe has the call id of the request that caused it plus `0xFFFF0000`.  Both
sums are numbers of 32 bits, the counter has no bound and the call id is chosen by the client, so the two
ranges run into each other and past the end.  `call_ids_distinct_iff` says exactly when they do not.
-/

namespace NextendoMatchmaking.Endpoint

def protocolNATTraversal : UInt16 := 0x03
def methodInitiateProbe : UInt32 := 0x2
def methodRequestProbeInitiationExt : UInt32 := 0x3

def protocolNotifications : UInt16 := 0x0E
def methodProcessNotificationEvent : UInt32 := 0x1

/-! ### Notifications -/

/-- The request that `SendNotification` sends after the counter has got the value `count`. -/
def notificationRequest (s : Settings) (count : UInt32) (event : NotificationEvent) : RMCMessage :=
  newRMCRequest protocolNotifications methodProcessNotificationEvent (0xFFFE0000 + count) (event.write s)

/-! ### Probes -/

/-- What `pushInitiateProbe` finds outside: the address to which the station is repointed, with the port that
was observed for it if there is one (`none` where repointing is off or the address is private), and whether
the `i`-th lookup of a target finds its connection. -/
structure ProbeEnv where
  repoint : Option (Bytes × Option Int)
  found : ℕ → UInt32 → Bool

/-- The key `port`. -/
def portKey : Bytes := [112, 111, 114, 116]

/-- The station that is pushed. -/
def ProbeEnv.station (env : ProbeEnv) (stationToProbe : Bytes) : Bytes :=
  match env.repoint with
  | none => stationToProbe
  | some (host, port) =>
    let u := parseStationURL stationToProbe
    let u := if u.address ≠ host then u.set addressKey host else u
    match port with
    | none => u.render
    | some p => (u.setInt portKey p).render

/-- The connection id in a target; `uint32` keeps its low bits. -/
def targetID (raw : Bytes) : UInt32 := UInt32.ofNat (((parseStationURL raw).getInt rvcidKey) % 2 ^ 32).toNat

/-- The targets and the station of a request. -/
def readProbe : Reader (List Bytes × Bytes) := do
  let targetList ← StreamIn.list NextendoMatchmaking.StreamIn.string
  let stationToProbe ← NextendoMatchmaking.StreamIn.string
  return (targetList, stationToProbe)

/-- `pushInitiateProbe`: the connections that get a probe, and the requests they get. -/
def pushInitiateProbe (env : ProbeEnv) (req : RMCMessage) : List (UInt32 × RMCMessage) :=
  let ((targetList, stationToProbe), err) := StreamIn.run readProbe req.body
  if err then
    []
  else
    let probeBody := StreamOut.string (parseStationURL (env.station stationToProbe)).render
    targetList.zipIdx.filterMap (fun (raw, i) =>
      let rvcid := targetID raw
      if rvcid ≠ 0 ∧ env.found i rvcid then
        some (rvcid, newRMCRequest protocolNATTraversal methodInitiateProbe (0xFFFF0000 + req.callID) probeBody)
      else
        none)

/-- The body of the request is well-formed and names a target that is connected. -/
def ReachesTarget (env : ProbeEnv) (req : RMCMessage) : Prop :=
  ∃ targetList stationToProbe, StreamIn.run readProbe req.body = ((targetList, stationToProbe), false) ∧
    ∃ i raw, targetList[i]? = some raw ∧ targetID raw ≠ 0 ∧ env.found i (targetID raw) = true

theorem callID_of_mem_probe {env : ProbeEnv} {req : RMCMessage} {x : UInt32 × RMCMessage}
    (h : x ∈ pushInitiateProbe env req) : x.2.callID = 0xFFFF0000 + req.callID ∧ ReachesTarget env req := by
  unfold pushInitiateProbe at h
  cases hrun : StreamIn.run readProbe req.body with
  | mk read err =>
    rw [hrun] at h
    cases err with
    | true => cases h
    | false =>
      obtain ⟨⟨raw, i⟩, hmem, hsome⟩ := List.mem_filterMap.mp h
      dsimp only at hsome
      split at hsome
      · rename_i htarget
        cases hsome
        exact ⟨rfl, _, _, hrun, i, raw, List.mem_zipIdx_iff_getElem?.mp hmem, htarget⟩
      · cases hsome

theorem exists_mem_probe {env : ProbeEnv} {req : RMCMessage} (h : ReachesTarget env req) :
    ∃ x, x ∈ pushInitiateProbe env req := by
  obtain ⟨targetList, stationToProbe, hrun, i, raw, hget, htarget⟩ := h
  unfold pushInitiateProbe
  rw [hrun]
  exact ⟨_, List.mem_filterMap.mpr ⟨(raw, i), List.mem_zipIdx_iff_getElem?.mpr hget, if_pos htarget⟩⟩

/-! ### Runs -/

/-- `notifCallCounter`, and the requests that have been sent. -/
structure Pushed where
  counter : UInt32
  notifications : List (UInt32 × RMCMessage)
  probes : List (UInt32 × RMCMessage)

inductive PushLabel
  /-- `SendNotification` to a connection. -/
  | notify (target : UInt32) (event : NotificationEvent)
  /-- A `RequestProbeInitiationExt`. -/
  | probe (env : ProbeEnv) (req : RMCMessage)

def pushStep (s : Settings) (p : Pushed) : PushLabel → Pushed
  | .notify target event =>
    { p with
      counter := p.counter + 1
      notifications := p.notifications ++ [(target, notificationRequest s (p.counter + 1) event)] }
  | .probe env req => { p with probes := p.probes ++ pushInitiateProbe env req }

/-- What a run has sent. -/
def pushRun (s : Settings) (ls : List PushLabel) : Pushed := ls.foldl (pushStep s) ⟨0, [], []⟩

/-- How many notifications a run sends. -/
def notified : List PushLabel → ℕ
  | [] => 0
  | .notify _ _ :: ls => notified ls + 1
  | .probe _ _ :: ls => notified ls

/-- No notification has the call id of a probe, and all call ids are at least `0xFFFE0000`. -/
structure Pushed.Distinct (p : Pushed) : Prop where
  disjoint : ∀ a ∈ p.notifications, ∀ b ∈ p.probes, a.2.callID ≠ b.2.callID
  notification_range : ∀ a ∈ p.notifications, 0xFFFE0000 ≤ a.2.callID
  probe_range : ∀ b ∈ p.probes, 0xFFFE0000 ≤ b.2.callID

variable {s : Settings}

theorem notified_append (ls ls' : List PushLabel) : notified (ls ++ ls') = notified ls + notified ls' := by
  induction ls with
  | nil => exact (Nat.zero_add _).symm
  | cons l ls ih =>
    cases l with
    | notify target event =>
      show notified (ls ++ ls') + 1 = notified ls + 1 + notified ls'
      omega
    | probe env req => exact ih

theorem pushRun_snoc (s : Settings) (ls : List PushLabel) (l : PushLabel) :
    pushRun s (ls ++ [l]) = pushStep s (pushRun s ls) l := by
  unfold pushRun
  rw [List.foldl_append]
  rfl

theorem counter_pushRun (s : Settings) (ls : List PushLabel) :
    (pushRun s ls).counter = UInt32.ofNat (notified ls) := by
  induction ls using List.reverseRecOn with
  | nil => rfl
  | append_singleton ls l ih =>
    rw [pushRun_snoc, notified_append]
    cases l with
    | notify target event =>
      show (pushRun s ls).counter + 1 = UInt32.ofNat (notified ls + 1)
      rw [ih, UInt32.ofNat_add]
      rfl
    | probe env req => exact ih

/-- The notifications are numbered from 1. -/
theorem notification_ids (s : Settings) (ls : List PushLabel) (id : UInt32) :
    (∃ a ∈ (pushRun s ls).notifications, a.2.callID = id) ↔
      ∃ k, 1 ≤ k ∧ k ≤ notified ls ∧ id = UInt32.ofNat (0xFFFE0000 + k) := by
  induction ls using List.reverseRecOn with
  | nil =>
    constructor
    · rintro ⟨a, ha, -⟩
      cases ha
    · rintro ⟨k, hpos, hle, -⟩
      exact absurd (hpos.trans hle) (by decide)
  | append_singleton ls l ih =>
    rw [pushRun_snoc, notified_append]
    cases l with
    | probe env req => exact ih
    | notify target event =>
      have hnew : (notificationRequest s ((pushRun s ls).counter + 1) event).callID =
          UInt32.ofNat (0xFFFE0000 + (notified ls + 1)) := by
        show 0xFFFE0000 + ((pushRun s ls).counter + 1) = _
        rw [counter_pushRun, UInt32.ofNat_add, UInt32.ofNat_add]
        rfl
      constructor
      · rintro ⟨a, ha, rfl⟩
        rcases List.mem_append.mp ha with ha | ha
        · obtain ⟨k, hpos, hle, hid⟩ := ih.mp ⟨a, ha, rfl⟩
          exact ⟨k, hpos, hle.trans (Nat.le_add_right _ _), hid⟩
        · rw [List.mem_singleton.mp ha]
          exact ⟨notified ls + 1, Nat.le_add_left _ _, le_rfl, hnew⟩
      · rintro ⟨k, hpos, hle, rfl⟩
        by_cases hk : k ≤ notified ls
        · obtain ⟨a, ha, hid⟩ := ih.mpr ⟨k, hpos, hk, rfl⟩
          exact ⟨a, List.mem_append_left _ ha, hid⟩
        · have hlast : k = notified ls + 1 := Nat.le_antisymm hle (Nat.lt_of_not_le hk)
          exact ⟨_, List.mem_append_right _ (List.mem_singleton_self _), hlast ▸ hnew⟩

theorem probe_ids (s : Settings) (ls : List PushLabel) (id : UInt32) :
    (∃ b ∈ (pushRun s ls).probes, b.2.callID = id) ↔
      ∃ env req, .probe env req ∈ ls ∧ ReachesTarget env req ∧ id = 0xFFFF0000 + req.callID := by
  induction ls using List.reverseRecOn with
  | nil =>
    constructor
    · rintro ⟨b, hb, -⟩
      cases hb
    · rintro ⟨env, req, hmem, -⟩
      cases hmem
  | append_singleton ls l ih =>
    rw [pushRun_snoc]
    constructor
    · rintro ⟨b, hb, rfl⟩
      have hold : b ∈ (pushRun s ls).probes → ∃ env req, PushLabel.probe env req ∈ ls ++ [l] ∧
          ReachesTarget env req ∧ b.2.callID = 0xFFFF0000 + req.callID := by
        intro hb
        obtain ⟨env, req, hmem, hreach, hid⟩ := ih.mp ⟨b, hb, rfl⟩
        exact ⟨env, req, List.mem_append_left _ hmem, hreach, hid⟩
      cases l with
      | notify target event => exact hold hb
      | probe env req =>
        rcases List.mem_append.mp hb with hb | hb
        · exact hold hb
        · obtain ⟨hid, hreach⟩ := callID_of_mem_probe hb
          exact ⟨env, req, List.mem_append_right _ (List.mem_singleton_self _), hreach, hid⟩
    · rintro ⟨env, req, hmem, hreach, rfl⟩
      rcases List.mem_append.mp hmem with hmem | hmem
      · obtain ⟨b, hb, hid⟩ := ih.mpr ⟨env, req, hmem, hreach, rfl⟩
        refine ⟨b, ?_, hid⟩
        cases l with
        | notify target event => exact hb
        | probe env' req' => exact List.mem_append_left _ hb
      · rw [← List.mem_singleton.mp hmem]
        obtain ⟨b, hb⟩ := exists_mem_probe hreach
        exact ⟨b, List.mem_append_right _ hb, (callID_of_mem_probe hb).1⟩

/-! ### The two ranges -/

/-- How far the probe of a request with the call id `c` is behind `0xFFFE0000`. -/
def probeDistance (c : UInt32) : ℕ := (c.toNat + 0x10000) % 2 ^ 32

theorem range_notification_iff {k : ℕ} (hk : k < 2 ^ 32) :
    0xFFFE0000 ≤ UInt32.ofNat (0xFFFE0000 + k) ↔ k < 0x20000 := by
  rw [UInt32.le_iff_toNat_le, UInt32.toNat_ofNat']
  show 4294836224 ≤ _ ↔ _
  omega

theorem toNat_probe (c : UInt32) : (0xFFFF0000 + c).toNat = (0xFFFE0000 + probeDistance c) % 2 ^ 32 := by
  rw [UInt32.toNat_add, probeDistance]
  show (4294901760 + c.toNat) % 2 ^ 32 = _
  omega

theorem range_probe_iff (c : UInt32) : 0xFFFE0000 ≤ 0xFFFF0000 + c ↔ probeDistance c < 0x20000 := by
  have hlt : probeDistance c < 2 ^ 32 := Nat.mod_lt _ (by decide)
  rw [UInt32.le_iff_toNat_le, toNat_probe]
  show 4294836224 ≤ _ ↔ _
  omega

theorem collide_iff {k : ℕ} (hk : k < 0x20000) {c : UInt32} :
    UInt32.ofNat (0xFFFE0000 + k) = 0xFFFF0000 + c ↔ k = probeDistance c := by
  have hlt : probeDistance c < 2 ^ 32 := Nat.mod_lt _ (by decide)
  rw [← UInt32.toNat_inj, toNat_probe, UInt32.toNat_ofNat']
  omega

/-- **The call ids of requests from the server.**  In a run with `n` notifications the two kinds of call ids are
distinct and in their range just when `n` is below `0x20000` and the probe of every request that reaches a
target is in the range, at its very beginning or behind the notifications. -/
theorem call_ids_distinct_iff (s : Settings) (ls : List PushLabel) :
    (pushRun s ls).Distinct ↔
      notified ls < 0x20000 ∧ ∀ env req, .probe env req ∈ ls → ReachesTarget env req →
        probeDistance req.callID < 0x20000 ∧
          (probeDistance req.callID = 0 ∨ notified ls < probeDistance req.callID) := by
  constructor
  · intro hdistinct
    have hcount : notified ls < 0x20000 := by
      by_contra hmany
      obtain ⟨a, ha, hid⟩ := (notification_ids s ls _).mpr ⟨0x20000, by decide, by omega, rfl⟩
      have hrange := hdistinct.notification_range a ha
      rw [hid, range_notification_iff (by decide)] at hrange
      exact absurd hrange (by decide)
    refine ⟨hcount, fun env req hmem hreach => ?_⟩
    obtain ⟨b, hb, hid⟩ := (probe_ids s ls _).mpr ⟨env, req, hmem, hreach, rfl⟩
    have hrange := hdistinct.probe_range b hb
    rw [hid, range_probe_iff] at hrange
    refine ⟨hrange, ?_⟩
    -- otherwise the notification with this number has the same call id
    by_contra hnot
    obtain ⟨hpos, hle⟩ := not_or.mp hnot
    obtain ⟨a, ha, haid⟩ := (notification_ids s ls _).mpr
      ⟨probeDistance req.callID, Nat.pos_of_ne_zero hpos, Nat.le_of_not_lt hle, rfl⟩
    exact hdistinct.disjoint a ha b hb (by rw [haid, hid, collide_iff hrange])
  · intro hcond
    obtain ⟨hcount, hprobes⟩ := hcond
    have hnotification : ∀ a ∈ (pushRun s ls).notifications, ∃ k, 1 ≤ k ∧ k ≤ notified ls ∧
        a.2.callID = UInt32.ofNat (0xFFFE0000 + k) :=
      fun a ha => (notification_ids s ls _).mp ⟨a, ha, rfl⟩
    have hprobe : ∀ b ∈ (pushRun s ls).probes, ∃ c, b.2.callID = 0xFFFF0000 + c ∧
        probeDistance c < 0x20000 ∧ (probeDistance c = 0 ∨ notified ls < probeDistance c) := by
      intro b hb
      obtain ⟨env, req, hmem, hreach, hid⟩ := (probe_ids s ls _).mp ⟨b, hb, rfl⟩
      exact ⟨req.callID, hid, hprobes env req hmem hreach⟩
    refine ⟨fun a ha b hb heq => ?_, fun a ha => ?_, fun b hb => ?_⟩
    · obtain ⟨k, hpos, hle, hid⟩ := hnotification a ha
      obtain ⟨c, hc, -, hapart⟩ := hprobe b hb
      rw [hid, hc, collide_iff (by omega)] at heq
      omega
    · obtain ⟨k, -, hle, hid⟩ := hnotification a ha
      rw [hid, range_notification_iff (by omega)]
      omega
    · obtain ⟨c, hc, hlt, -⟩ := hprobe b hb
      rw [hc, range_probe_iff]
      exact hlt

/-- A request for a probe of the connection 5, `prudp:/RVCID=5`. -/
def probeRequest (callID : UInt32) : RMCMessage :=
  newRMCRequest protocolNATTraversal methodRequestProbeInitiationExt callID
    (StreamOut.list StreamOut.string [[112, 114, 117, 100, 112, 58, 47, 82, 86, 67, 73, 68, 61, 53]] ++
      StreamOut.string [])

/-- A connection sends a request with the call id `0xFFFF0001` after the first notification, or one with the
call id `0x10000`: the probe has the call id of the notification, or the call id 0. -/
theorem call_ids_collide :
    ¬ (pushRun (newSwitchSettings [] 40000)
        [.notify 5 ⟨7, 3001, 1, 7, [], 1⟩, .probe ⟨none, fun _ _ => true⟩ (probeRequest 0xFFFF0001)]).Distinct ∧
      ((pushRun (newSwitchSettings [] 40000)
        [.probe ⟨none, fun _ _ => true⟩ (probeRequest 0x10000)]).probes.map (fun b => b.2.callID)) = [0] := by
  refine ⟨fun hdistinct => ?_, by decide +kernel⟩
  have hnotifications : ((pushRun (newSwitchSettings [] 40000) [.notify 5 ⟨7, 3001, 1, 7, [], 1⟩,
      .probe ⟨none, fun _ _ => true⟩ (probeRequest 0xFFFF0001)]).notifications.map (fun a => a.2.callID)) =
        [0xFFFE0001] := by decide +kernel
  have hprobes : ((pushRun (newSwitchSettings [] 40000) [.notify 5 ⟨7, 3001, 1, 7, [], 1⟩,
      .probe ⟨none, fun _ _ => true⟩ (probeRequest 0xFFFF0001)]).probes.map (fun b => b.2.callID)) =
        [0xFFFE0001] := by decide +kernel
  obtain ⟨a, ha, haid⟩ := List.mem_map.mp (hnotifications ▸ List.mem_singleton_self _)
  obtain ⟨b, hb, hbid⟩ := List.mem_map.mp (hprobes ▸ List.mem_singleton_self _)
  exact hdistinct.disjoint a ha b hb (haid.trans hbid.symm)

end NextendoMatchmaking.Endpoint
