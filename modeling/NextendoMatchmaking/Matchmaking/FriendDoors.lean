import NextendoMatchmaking.Matchmaking.Membership

/-!
# What friends see of each other

A player publishes notification data (`updateNotificationData` of `matchmaking_notifdata.go`), and its friends
ask for them (`getFriendNotificationData`); a game server can publish too (`PublishNotification`), and a
disconnect forgets.  The data stand in a map of maps that lives beside the gatherings.

* `lastPublished` — what a history of operations has published last, looking back to the last disconnect;
* `friend_notifications_of_history` — the answer to a friend, in terms of that history alone.
-/

namespace NextendoMatchmaking.Matchmaking

open NextendoMatchmaking.Runs

/-- `PublishNotification`. -/
def publishNotification (pid : UInt64) (typ : UInt32) (ev : Option NotificationEvent) (m : Store) : Store :=
  match ev with
  | none => m
  | some ev => putNotification pid typ ev m

/-- An operation of the store, or a publication by the game server. -/
inductive DoorEvent
  | store (e : Event)
  | publish (pid : UInt64) (typ : UInt32) (ev : Option NotificationEvent)

def doorStep (o : Options) (m : Store) : DoorEvent → Option Store
  | .store e => step o m e
  | .publish pid typ ev => some (publishNotification pid typ ev m)

/-- The data in an `UpdateNotificationData`, if it can be read. -/
def readNotification (o : Options) (pid : UInt64) (req : RMCMessage) : Option NotificationEvent :=
  let (ev, err) := StreamIn.run (do
    let typ ← StreamIn.u32
    let p1 ← StreamIn.pid o.settings
    let p2 ← StreamIn.pid o.settings
    let str ← StreamIn.string
    return ({ pidSource := pid, type := typ, param1 := p1, param2 := p2, strParam := str } :
      NotificationEvent)) req.body
  if err then none else some ev

/-- What an operation publishes for `pid` under `typ`. -/
def publishes (o : Options) (pid : UInt64) (typ : UInt32) : DoorEvent → Option NotificationEvent
  | .store (.request .extension conn req _) =>
    if req.method = Method.updateNotificationData ∧ conn.pid = pid then
      (readNotification o pid req).filter (fun ev => ev.type = typ)
    else none
  | .publish p t ev => if p = pid ∧ t = typ then ev else none
  | _ => none

/-- A disconnect of `pid`. -/
def forgets (pid : UInt64) : DoorEvent → Bool
  | .store (.removePlayer p _) => p = pid ∧ p ≠ 0
  | _ => false

/-- The last publication for `pid` under `typ` since its last disconnect. -/
def lastPublished (o : Options) (ls : List DoorEvent) (pid : UInt64) (typ : UInt32) :
    Option NotificationEvent :=
  (ls.reverse.takeWhile (fun l => !forgets pid l)).findSome? (publishes o pid typ)

variable {o : Options} {env : Env} {conn : Caller} {req : RMCMessage} {m m' : Store} {pid : UInt64}
  {typ : UInt32}

/-! ### The operations that leave the data alone -/

/-- A handler that gives a store gives one with the same data. -/
def KeepsData (m : Store) (result : Option (Store × Reply)) : Prop :=
  ∀ r, result = some r → r.1.notif = m.notif

theorem keepsData_some {r : Store × Reply} (h : r.1.notif = m.notif) : KeepsData m (some r) := by
  intro r' hr
  cases hr
  exact h

theorem keepsData_of_pos {c : Prop} [Decidable c] {a b : Option (Store × Reply)} (ha : c → KeepsData m a)
    (hb : KeepsData m b) : KeepsData m (if c then a else b) := by
  split
  · next hc => exact ha hc
  · exact hb

theorem keepsData_ite {c : Prop} [Decidable c] {a b : Option (Store × Reply)} (ha : KeepsData m a)
    (hb : KeepsData m b) : KeepsData m (if c then a else b) :=
  keepsData_of_pos (fun _ => ha) hb

theorem keepsData_reply (reply : Reply) : KeepsData m (some (m, reply)) := keepsData_some rfl

theorem notif_setParticipation (opening : Bool) : (setParticipation req m opening).1.notif = m.notif := by
  unfold setParticipation
  dsimp only
  split <;> rfl

theorem notif_autoMatchmake : (autoMatchmake o env conn req m).1.notif = m.notif := by
  unfold autoMatchmake
  dsimp only
  split
  · rfl
  unfold autoMatchmakeWith
  split
  · rfl
  dsimp only
  split
  · rfl
  · split <;> rfl

theorem notif_createSession : (createSession o env conn req m).1.notif = m.notif := by
  unfold createSession
  dsimp only
  split <;> rfl

theorem notif_joinSession : (joinSession o env conn req m).1.notif = m.notif := by
  unfold joinSession joinGathering
  split
  · rfl
  dsimp only
  split
  · rfl
  · split <;> rfl

theorem notif_privateRoomCreate : (privateRoomCreate req m).1.notif = m.notif := rfl

theorem notif_updateSessionPart : (updateSessionPart o req m).1.notif = m.notif := by
  unfold updateSessionPart applySessionPart
  dsimp only
  split
  · split
    · rfl
    · dsimp only
      split <;> rfl
  · rfl

theorem notif_updateApplicationBuffer : (updateApplicationBuffer conn req m).1.notif = m.notif := by
  unfold updateApplicationBuffer
  dsimp only
  split
  · rfl
  · split <;> rfl

theorem keepsData_modifyCurrentGameAttribute : KeepsData m (modifyCurrentGameAttribute conn req m) := by
  unfold modifyCurrentGameAttribute
  dsimp only
  split
  · exact keepsData_some rfl
  · refine keepsData_ite ?_ (keepsData_some rfl)
    split
    · exact nofun
    · exact keepsData_some rfl

theorem notif_matchMakingHandler : (matchMakingHandler o env conn req m).1.notif = m.notif := by
  have hunregister : (unregister conn req m).1.notif = m.notif := by
    unfold unregister
    dsimp only
    split
    · rfl
    · split <;> rfl
  have hmigrate : ∀ only, (migrateGatheringOwnership o env conn req m only).1.notif = m.notif := by
    intro only
    unfold migrateGatheringOwnership
    dsimp only
    split
    · rfl
    · split <;> rfl
  unfold matchMakingHandler
  dsimp only
  repeat' split
  all_goals first | rfl | exact hunregister | exact hmigrate _

theorem notif_matchMakingExtHandler : (matchMakingExtHandler conn req m).1.notif = m.notif := by
  unfold matchMakingExtHandler endParticipation
  split
  · dsimp only
    split
    · rfl
    · split <;> rfl
  · rfl

theorem keepsData_extensionHandler (hmethod : req.method ≠ Method.updateNotificationData) :
    KeepsData m (extensionHandler o env conn req m) := by
  unfold extensionHandler
  exact
    keepsData_ite (keepsData_some (notif_setParticipation false)) <|
    keepsData_ite (keepsData_some (notif_setParticipation true)) <|
    keepsData_ite (keepsData_some notif_autoMatchmake) <|
    keepsData_ite (keepsData_some notif_createSession) <|
    keepsData_ite (keepsData_some notif_joinSession) <|
    keepsData_ite (keepsData_reply _) <|
    keepsData_ite (keepsData_some notif_privateRoomCreate) <|
    keepsData_ite (keepsData_reply _) <|
    keepsData_ite (keepsData_reply _) <|
    keepsData_ite (keepsData_ite (keepsData_reply _) (keepsData_reply _)) <|
    keepsData_ite (keepsData_reply _) <|
    keepsData_of_pos (fun h => absurd h hmethod) <|
    keepsData_ite (keepsData_reply _) <|
    keepsData_ite (keepsData_reply _) <|
    keepsData_ite (keepsData_some notif_updateSessionPart) <|
    keepsData_ite (keepsData_some notif_updateApplicationBuffer) <|
    keepsData_ite keepsData_modifyCurrentGameAttribute <|
    keepsData_ite (keepsData_some notif_privateRoomCreate) <|
    keepsData_ite (keepsData_reply _) <|
    keepsData_ite (keepsData_reply _) <|
    keepsData_ite (keepsData_reply _) <|
    keepsData_ite (keepsData_ite (keepsData_reply _) (keepsData_reply _)) <|
    keepsData_ite (keepsData_reply _) <|
    keepsData_ite (keepsData_reply _) (keepsData_reply _)

/-! ### One operation -/

theorem getNotification_of_notif (h : m'.notif = m.notif) :
    getNotification m' pid typ = getNotification m pid typ := by
  unfold getNotification
  rw [h]

theorem getNotification_put (p : UInt64) (t : UInt32) (ev : NotificationEvent) :
    getNotification (putNotification p t ev m) pid typ =
      if p = pid ∧ t = typ then some ev else getNotification m pid typ := by
  unfold getNotification putNotification
  dsimp only
  by_cases hpid : p = pid
  · subst hpid
    rw [Finmap.lookup_insert, Option.bind_some]
    by_cases htyp : t = typ
    · subst htyp
      rw [if_pos ⟨rfl, rfl⟩, Finmap.lookup_insert]
    · rw [if_neg (fun h => htyp h.2), Finmap.lookup_insert_of_ne _ (Ne.symm htyp)]
      cases m.notif.lookup p with
      | none => rfl
      | some byType => rfl
  · rw [if_neg (fun h => hpid h.1), Finmap.lookup_insert_of_ne _ (Ne.symm hpid)]

theorem updateNotificationData_eq : (updateNotificationData o env conn req m).1 =
    (readNotification o conn.pid req).elim m (fun ev => putNotification conn.pid ev.type ev m) := by
  unfold updateNotificationData readNotification
  dsimp only
  split <;> rfl

/-- A request publishes its data, and nothing else. -/
theorem getNotification_request {service : Service}
    (h : step o m (.request service conn req env) = some m') :
    getNotification m' pid typ =
      (publishes o pid typ (.store (.request service conn req env))).or (getNotification m pid typ) := by
  obtain ⟨-, hmap⟩ := Option.ite_none_right_eq_some.mp h
  obtain ⟨r, hr, rfl⟩ := Option.map_eq_some_iff.mp hmap
  cases service with
  | matchMaking =>
    obtain rfl := Option.some.inj hr
    exact getNotification_of_notif notif_matchMakingHandler
  | matchMakingExt =>
    obtain rfl := Option.some.inj hr
    exact getNotification_of_notif notif_matchMakingExtHandler
  | extension =>
    show _ = Option.or (if req.method = Method.updateNotificationData ∧ conn.pid = pid then
      (readNotification o pid req).filter (fun ev => ev.type = typ) else none) _
    by_cases hmethod : req.method = Method.updateNotificationData
    · have hupdate : extensionHandler o env conn req m = some (updateNotificationData o env conn req m) := by
        unfold extensionHandler
        rw [hmethod]
        rfl
      obtain rfl := Option.some.inj (hupdate.symm.trans hr)
      rw [updateNotificationData_eq]
      by_cases hpid : conn.pid = pid
      · subst hpid
        rw [if_pos ⟨hmethod, rfl⟩]
        cases readNotification o conn.pid req with
        | none => rfl
        | some ev =>
          show getNotification (putNotification conn.pid ev.type ev m) conn.pid typ = _
          rw [getNotification_put, Option.filter_some]
          by_cases htyp : ev.type = typ
          · rw [if_pos ⟨rfl, htyp⟩, if_pos (decide_eq_true htyp)]
            rfl
          · rw [if_neg (fun h => htyp h.2), if_neg (fun h => htyp (of_decide_eq_true h))]
            rfl
      · rw [if_neg (fun h => hpid h.2)]
        cases readNotification o conn.pid req with
        | none => rfl
        | some ev =>
          show getNotification (putNotification conn.pid ev.type ev m) pid typ = _
          rw [getNotification_put, if_neg (fun h => hpid h.1)]
          rfl
    · rw [if_neg (fun h => hmethod h.1)]
      exact getNotification_of_notif (keepsData_extensionHandler hmethod r hr)

theorem getNotification_removePlayer {p : UInt64} {order : List UInt32} :
    getNotification (removePlayer p order m) pid typ =
      if p = pid ∧ p ≠ 0 then none else getNotification m pid typ := by
  by_cases hzero : p = 0
  · rw [if_neg (fun h => h.2 hzero), removePlayer, if_pos hzero]
  · unfold getNotification
    rw [notif_removePlayer hzero]
    by_cases hpid : p = pid
    · subst hpid
      rw [if_pos ⟨rfl, hzero⟩, Finmap.lookup_erase]
      rfl
    · rw [if_neg (fun h => hpid h.1), Finmap.lookup_erase_ne (Ne.symm hpid)]

theorem getNotification_step {l : DoorEvent} (h : doorStep o m l = some m') :
    getNotification m' pid typ =
      if forgets pid l then none else (publishes o pid typ l).or (getNotification m pid typ) := by
  cases l with
  | publish p t ev =>
    obtain rfl := Option.some.inj h
    simp only [forgets, publishes, Bool.false_eq_true, if_false]
    cases ev with
    | none =>
      rw [ite_self]
      rfl
    | some ev =>
      show getNotification (putNotification p t ev m) pid typ = _
      rw [getNotification_put]
      split <;> rfl
  | store e =>
    cases e with
    | request service conn req env => exact getNotification_request h
    | reserveJoin gid p now =>
      obtain rfl := Option.some.inj h
      refine getNotification_of_notif ?_
      unfold reserveJoinOp
      split
      · rfl
      · split <;> rfl
    | cancelJoinReservation gid p =>
      obtain rfl := Option.some.inj h
      refine getNotification_of_notif ?_
      unfold cancelJoinReservation
      split <;> rfl
    | setJoinReservationTTL ttl =>
      obtain rfl := Option.some.inj h
      exact getNotification_of_notif rfl
    | removePlayer p order =>
      obtain ⟨-, heq⟩ := Option.ite_none_right_eq_some.mp h
      obtain rfl := Option.some.inj heq
      rw [getNotification_removePlayer]
      simp only [forgets, publishes, decide_eq_true_eq, Option.none_or]

/-! ### Runs -/

theorem lastPublished_snoc (ls : List DoorEvent) (l : DoorEvent) :
    lastPublished o (ls ++ [l]) pid typ =
      if forgets pid l then none else (publishes o pid typ l).or (lastPublished o ls pid typ) := by
  unfold lastPublished
  rw [List.reverse_append, List.reverse_singleton, List.singleton_append, List.takeWhile_cons]
  cases hforgets : forgets pid l with
  | true => rfl
  | false =>
    show List.findSome? _ (l :: _) = _
    rw [List.findSome?_cons]
    cases publishes o pid typ l <;> rfl

/-- The data that the store keeps are the last publication since the last disconnect. -/
theorem getNotification_of_run {ls : List DoorEvent} (h : run (doorStep o) newMatchmaking ls = some m) :
    getNotification m pid typ = lastPublished o ls pid typ := by
  refine run_history (P := fun ls m => getNotification m pid typ = lastPublished o ls pid typ) rfl ?_ h
  intro ls m l m' hm hstep
  rw [getNotification_step hstep, lastPublished_snoc, hm]

/-- The types in a request of a friend: one, or a list of them. -/
def readTypes (list : Bool) : Reader (List UInt32) :=
  if list then StreamIn.list StreamIn.u32 else do return [← StreamIn.u32]

/-- The method that a friend calls for one type, or for a list of them. -/
def friendDataMethod (list : Bool) : UInt32 :=
  if list then Method.getFriendNotificationDataList else Method.getFriendNotificationData

/-- What the friends of `pid` have published with an open door, friend by friend and type by type. -/
def openDoors (o : Options) (ls : List DoorEvent) (friends : List UInt64) (types : List UInt32) :
    List NotificationEvent :=
  friends.flatMap (fun friend => types.filterMap (fun typ =>
    (lastPublished o ls friend typ).filter (fun ev => ev.param2 != 0)))

/-- **What friends see.**  After any run of the store among publications by the game server, a player that asks
for the data of its friends gets, friend by friend and type by type, the last publication since the friend's last
disconnect, unless that says the door is closed; and the same data are pushed to it.  No other operation on the
store has any part in it. -/
theorem friend_notifications_of_history {ls : List DoorEvent} (h : run (doorStep o) newMatchmaking ls = some m)
    (env : Env) (conn : Caller) {friends : UInt64 → List UInt64} (hfriends : o.friendPIDs = some friends)
    {list : Bool} {req : RMCMessage} (hmethod : req.method = friendDataMethod list) {types : List UInt32}
    (htypes : StreamIn.run (readTypes list) req.body = (types, false)) :
    let events := openDoors o ls (friends conn.pid) types
    handle o env .extension conn req m = some (m,
      ⟨some (newRMCSuccess protocolMatchmakeExtension req.method req.callID
          (StreamOut.list (NotificationEvent.write o.settings) events)),
        events.map (fun ev => ⟨.caller, presenceEvent ev⟩)⟩) := by
  intro events
  have hevents : friendNotificationsFor o conn m types = events := by
    unfold friendNotificationsFor
    rw [hfriends]
    refine List.flatMap_congr (fun friend _ => ?_)
    rw [List.filter_filterMap]
    refine List.filterMap_congr (fun typ _ => ?_)
    rw [getNotification_of_run h]
  have hhandle : handle o env .extension conn req m =
      some (m, getFriendNotificationData o conn req m list) := by
    unfold handle extensionHandler
    rw [hmethod]
    cases list <;> rfl
  rw [hhandle]
  unfold readTypes at htypes
  unfold getFriendNotificationData
  rw [htypes]
  dsimp only
  rw [if_neg Bool.false_ne_true, hevents]
  rfl

/-- Everybody has the friend 7. -/
def friendlyOptions : Options := { plainOptions with friendPIDs := some (fun _ => [7]) }

/-- PID 7 says that its door is open. -/
def doorRequest : RMCMessage :=
  newRMCRequest protocolMatchmakeExtension Method.updateNotificationData 1
    (StreamOut.u32 101 ++ StreamOut.u64 5 ++ StreamOut.u64 1 ++ StreamOut.string [])

/-- PID 7 disconnects, comes back and opens its door, and the game server publishes something of PID 8. -/
def doorRun : List DoorEvent :=
  [.store (.removePlayer 7 []), .store (.request .extension ⟨7, 1⟩ doorRequest (quietEnv 0 [])),
    .publish 8 101 (some { pidSource := 8, type := 101, param1 := 0, param2 := 1, strParam := [] })]

/-- PID 9 asks for the data of the type 101. -/
def friendRequest : RMCMessage :=
  newRMCRequest protocolMatchmakeExtension Method.getFriendNotificationData 2 (StreamOut.u32 101)

theorem friend_notifications_of_history_door : ∃ m reply,
    run (doorStep friendlyOptions) newMatchmaking doorRun = some m ∧
    handle friendlyOptions (quietEnv 0 []) .extension ⟨9, 2⟩ friendRequest m = some (m, reply) ∧
    reply.pushes.map (fun p => p.event) =
      [presenceEvent { pidSource := 7, type := 101, param1 := 5, param2 := 1, strParam := [] }] := by
  have hruns : (run (doorStep friendlyOptions) newMatchmaking doorRun).isSome = true := by decide +kernel
  obtain ⟨m, hm⟩ := Option.isSome_iff_exists.mp hruns
  have hmethod : friendRequest.method = friendDataMethod false := rfl
  have htypes : StreamIn.run (readTypes false) friendRequest.body = ([101], false) := by decide +kernel
  have hanswer := friend_notifications_of_history hm (quietEnv 0 []) ⟨9, 2⟩ rfl hmethod htypes
  refine ⟨m, _, hm, hanswer, ?_⟩
  rw [List.map_map]
  decide +kernel

end NextendoMatchmaking.Matchmaking
