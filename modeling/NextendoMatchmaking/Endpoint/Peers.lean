import NextendoMatchmaking.Endpoint.CallIDs
import NextendoMatchmaking.Endpoint.NatBridge
import NextendoMatchmaking.Wire.DateTime

/-!
# What a console reports of itself

A console tells the server where it can be reached and how its router behaves: the secure connection protocol
(`SecureConnectionHandler` of `secureconnection.go`) stores its stations, NAT traversal
(`NATTraversalHandler` of `nattraversal.go`) its mapping and filtering.  `NATBehaviour` of `endpoint.go`, which
the matchmaker asks, prefers the one source and falls back to the other.

* `peerAfter` — a connection after a history of requests to the two protocols;
* `natBehaviour_of_history` — what the matchmaker is told, in terms of that history.
-/

namespace NextendoMatchmaking.Endpoint

/-- What a connection keeps of these reports: `stationURLs`, `natMapV` and `natFilterV`. -/
structure Peer where
  stations : List StationURL := []
  natMap : UInt32 := 0
  natFilter : UInt32 := 0

/-- `notImplemented`. -/
def notImplementedResponse (protocol : UInt16) (req : RMCMessage) : RMCMessage :=
  newRMCError protocol req.callID resultCoreNotImplemented

/-! ### Secure connection -/

def methodRegister : UInt32 := 0x1
def methodRegisterEx : UInt32 := 0x4

/-- `SecureConnectionHandlerWithConfig`. -/
def secureConnectionHandler (private6 : Bytes → Bool) (cfg : SecureConnectionConfig) (conn : Registrant)
    (req : RMCMessage) (peer : Peer) : Peer × RMCMessage :=
  if req.method = methodRegister ∨ req.method = methodRegisterEx then
    let (stations, resp) := handleRegister private6 cfg conn req
    ({ peer with stations }, resp)
  else if req.method = methodReplaceURL then
    let (stations, resp) := handleReplaceURL conn.pid peer.stations req
    ({ peer with stations }, resp)
  else (peer, notImplementedResponse protocolSecureConnection req)

/-! ### NAT traversal -/

def methodRequestProbeInitiation : UInt32 := 0x1
def methodReportNATTraversalResult : UInt32 := 0x4
def methodReportNATProperties : UInt32 := 0x5
def methodGetRelaySignatureKey : UInt32 := 0x6
def methodReportNATTraversalResultDetail : UInt32 := 0x7

/-- `natAck`. -/
def natAck (req : RMCMessage) : RMCMessage := newRMCSuccess protocolNATTraversal req.method req.callID []

/-- `relaySignatureKey` at the time `now`: there is no relay. -/
def relaySignatureKey (now : DateTime) (req : RMCMessage) : RMCMessage :=
  newRMCSuccess protocolNATTraversal req.method req.callID
    (StreamOut.u32 0 ++ StreamOut.u64 now ++ StreamOut.string [] ++ StreamOut.u16 0 ++ StreamOut.u32 0 ++
      StreamOut.u32 0)

/-- The mapping, the filtering and the round trip time of a report. -/
def readNATProperties : Reader (UInt32 × UInt32 × UInt32) := do
  let natMap ← NextendoMatchmaking.StreamIn.u32
  let natFilter ← NextendoMatchmaking.StreamIn.u32
  let rtt ← NextendoMatchmaking.StreamIn.u32
  return (natMap, natFilter, rtt)

/-- What a report says, if it can be read. -/
def reportedNAT (req : RMCMessage) : Option (UInt32 × UInt32) :=
  let ((natMap, natFilter, _), err) := NextendoMatchmaking.StreamIn.run readNATProperties req.body
  if err then none else some (natMap, natFilter)

/-- `noteNATProperties`; what it tells the dashboard is not here. -/
def noteNATProperties (req : RMCMessage) (peer : Peer) : Peer :=
  match reportedNAT req with
  | none => peer
  | some (natMap, natFilter) => { peer with natMap, natFilter }

/-- `NATTraversalHandler`: the connection, the answer, and the probes that are pushed to others.  The verdict on
a hole-punch, `logNATResult`, is only logged. -/
def natTraversalHandler (now : DateTime) (env : ProbeEnv) (req : RMCMessage) (peer : Peer) :
    Peer × RMCMessage × List (UInt32 × RMCMessage) :=
  if req.method = methodRequestProbeInitiationExt then (peer, natAck req, pushInitiateProbe env req)
  else if req.method = methodReportNATTraversalResult ∨ req.method = methodReportNATTraversalResultDetail then
    (peer, natAck req, [])
  else if req.method = methodReportNATProperties then (noteNATProperties req peer, natAck req, [])
  else if req.method = methodGetRelaySignatureKey then (peer, relaySignatureKey now req, [])
  else if req.method = methodRequestProbeInitiation ∨ req.method = methodInitiateProbe then
    (peer, natAck req, [])
  else (peer, notImplementedResponse protocolNATTraversal req, [])

/-! ### The behaviour that the matchmaker sees -/

/-- The keys `natm` and `natf`. -/
def natmKey : Bytes := [110, 97, 116, 109]
def natfKey : Bytes := [110, 97, 116, 102]

/-- The conversion `uint32(v)`. -/
def uint32OfInt (v : Int) : UInt32 := UInt32.ofNat (v % 2 ^ 32).toNat

/-- The loop of `NATBehaviour`: the first station that says anything. -/
def stationsNAT : List StationURL → UInt32 × UInt32
  | [] => (0, 0)
  | u :: rest =>
    if u.getInt natmKey ≠ 0 ∨ u.getInt natfKey ≠ 0 then
      (uint32OfInt (u.getInt natmKey), uint32OfInt (u.getInt natfKey))
    else stationsNAT rest

/-- `NATBehaviour`. -/
def natBehaviour (peer : Peer) : UInt32 × UInt32 :=
  if peer.natMap ≠ 0 then (peer.natMap, peer.natFilter)
  else if peer.natFilter ≠ 0 then (0, peer.natFilter)
  else stationsNAT peer.stations

/-- The two branches for reported values are one. -/
theorem natBehaviour_eq (peer : Peer) :
    natBehaviour peer =
      if (peer.natMap, peer.natFilter) ≠ (0, 0) then (peer.natMap, peer.natFilter)
      else stationsNAT peer.stations := by
  unfold natBehaviour
  by_cases hmap : peer.natMap = 0
  · by_cases hfilter : peer.natFilter = 0
    · simp [hmap, hfilter]
    · simp [hmap, hfilter]
  · simp [hmap]

/-! ### Histories -/

/-- A connection after one request to either protocol; the others leave it alone. -/
def Peer.receive (private6 : Bytes → Bool) (cfg : SecureConnectionConfig) (conn : Registrant) (peer : Peer)
    (req : RMCMessage) : Peer :=
  if req.protocol = protocolSecureConnection then (secureConnectionHandler private6 cfg conn req peer).1
  else if req.protocol = protocolNATTraversal then
    -- neither the time nor the connections of others reach the state of this one
    (natTraversalHandler 0 ⟨none, fun _ _ => false⟩ req peer).1
  else peer

/-- A connection after its requests. -/
def peerAfter (private6 : Bytes → Bool) (cfg : SecureConnectionConfig) (conn : Registrant)
    (history : List RMCMessage) : Peer :=
  history.foldl (Peer.receive private6 cfg conn) {}

/-- The report that a request makes, if it makes one. -/
def natReport (req : RMCMessage) : Option (UInt32 × UInt32) :=
  if req.protocol = protocolNATTraversal ∧ req.method = methodReportNATProperties then reportedNAT req else none

/-- The last report of a history; zeros if there is none. -/
def lastReport (history : List RMCMessage) : UInt32 × UInt32 :=
  (history.reverse.findSome? natReport).getD (0, 0)

/-- A registration. -/
def isRegister (req : RMCMessage) : Bool :=
  req.protocol = protocolSecureConnection ∧ (req.method = methodRegister ∨ req.method = methodRegisterEx)

/-- A station that is reported again. -/
def isReplaceURL (req : RMCMessage) : Bool :=
  req.protocol = protocolSecureConnection ∧ req.method = methodReplaceURL

/-- The stations that the last registration of a history gave; none before there is one. -/
def registeredStations (private6 : Bytes → Bool) (cfg : SecureConnectionConfig) (conn : Registrant)
    (history : List RMCMessage) : List StationURL :=
  ((history.reverse.find? isRegister).map (fun req => (handleRegister private6 cfg conn req).1)).getD []

/-- The requests since then; all of them before there is one. -/
def sinceRegister (history : List RMCMessage) : List RMCMessage :=
  (history.reverse.takeWhile (fun req => !isRegister req)).reverse

section Histories

variable {private6 : Bytes → Bool} {cfg : SecureConnectionConfig} {conn : Registrant} {peer : Peer}
  {req : RMCMessage} {history : List RMCMessage}

theorem secureConnectionHandler_nat :
    (secureConnectionHandler private6 cfg conn req peer).1.natMap = peer.natMap ∧
      (secureConnectionHandler private6 cfg conn req peer).1.natFilter = peer.natFilter := by
  unfold secureConnectionHandler
  split
  · exact ⟨rfl, rfl⟩
  · split <;> exact ⟨rfl, rfl⟩

theorem natTraversalHandler_peer (now : DateTime) (env : ProbeEnv) :
    (natTraversalHandler now env req peer).1 =
      if req.method = methodReportNATProperties then noteNATProperties req peer else peer := by
  unfold natTraversalHandler
  by_cases hreport : req.method = methodReportNATProperties
  · rw [hreport]
    rfl
  · rw [if_neg hreport, if_neg hreport]
    split
    · rfl
    split
    · rfl
    split
    · rfl
    split <;> rfl

/-- One request and the reported behaviour. -/
theorem receive_nat : ((Peer.receive private6 cfg conn peer req).natMap,
      (Peer.receive private6 cfg conn peer req).natFilter) =
    (natReport req).getD (peer.natMap, peer.natFilter) := by
  unfold Peer.receive natReport
  by_cases hsecure : req.protocol = protocolSecureConnection
  · rw [if_pos hsecure, if_neg (fun h => absurd (hsecure.symm.trans h.1) (by decide)),
      secureConnectionHandler_nat.1, secureConnectionHandler_nat.2]
    rfl
  rw [if_neg hsecure]
  by_cases hnat : req.protocol = protocolNATTraversal
  · rw [if_pos hnat, natTraversalHandler_peer]
    by_cases hreport : req.method = methodReportNATProperties
    · rw [if_pos hreport, if_pos ⟨hnat, hreport⟩, noteNATProperties]
      cases reportedNAT req <;> rfl
    · rw [if_neg hreport, if_neg (fun h => hreport h.2)]
      rfl
  · rw [if_neg hnat, if_neg (fun h => hnat h.1)]
    rfl

/-- One request and the stations. -/
theorem receive_stations : (Peer.receive private6 cfg conn peer req).stations =
    if isRegister req then (handleRegister private6 cfg conn req).1
    else if isReplaceURL req then (handleReplaceURL conn.pid peer.stations req).1
    else peer.stations := by
  unfold Peer.receive isRegister isReplaceURL
  by_cases hsecure : req.protocol = protocolSecureConnection
  · simp only [hsecure, secureConnectionHandler, true_and, if_true, decide_eq_true_eq]
    split
    · rfl
    · split <;> rfl
  · simp only [hsecure, if_false, false_and, decide_false, Bool.false_eq_true]
    split
    · rw [natTraversalHandler_peer]
      split
      · unfold noteNATProperties
        split <;> rfl
      · rfl
    · rfl

theorem peerAfter_snoc : peerAfter private6 cfg conn (history ++ [req]) =
    Peer.receive private6 cfg conn (peerAfter private6 cfg conn history) req := by
  unfold peerAfter
  rw [List.foldl_append]
  rfl

theorem lastReport_snoc : lastReport (history ++ [req]) = (natReport req).getD (lastReport history) := by
  unfold lastReport
  rw [List.reverse_append, List.reverse_singleton, List.singleton_append, List.findSome?_cons]
  cases natReport req <;> rfl

/-- The reported behaviour is the last report. -/
theorem peerAfter_nat : ((peerAfter private6 cfg conn history).natMap,
    (peerAfter private6 cfg conn history).natFilter) = lastReport history := by
  induction history using List.reverseRecOn with
  | nil => rfl
  | append_singleton history req ih =>
    rw [peerAfter_snoc, receive_nat, ih, lastReport_snoc]

theorem sinceRegister_snoc : sinceRegister (history ++ [req]) =
    if isRegister req then [] else sinceRegister history ++ [req] := by
  unfold sinceRegister
  rw [List.reverse_append, List.reverse_singleton, List.singleton_append, List.takeWhile_cons]
  cases isRegister req
  · exact List.reverse_cons
  · rfl

theorem registeredStations_snoc : registeredStations private6 cfg conn (history ++ [req]) =
    if isRegister req then (handleRegister private6 cfg conn req).1
    else registeredStations private6 cfg conn history := by
  unfold registeredStations
  rw [List.reverse_append, List.reverse_singleton, List.singleton_append, List.find?_cons]
  cases isRegister req <;> rfl

/-- The stations are those of the last registration, with what was reported again since. -/
theorem peerAfter_stations : (peerAfter private6 cfg conn history).stations =
    stationsAfter conn.pid (registeredStations private6 cfg conn history)
      ((sinceRegister history).filter isReplaceURL) := by
  induction history using List.reverseRecOn with
  | nil => rfl
  | append_singleton history req ih =>
    rw [peerAfter_snoc, receive_stations, sinceRegister_snoc, registeredStations_snoc]
    by_cases hregister : isRegister req = true
    · rw [if_pos hregister, if_pos hregister, if_pos hregister]
      rfl
    · rw [if_neg hregister, if_neg hregister, if_neg hregister, ih, List.filter_append]
      by_cases hreplace : isReplaceURL req = true
      · rw [if_pos hreplace, List.filter_cons_of_pos hreplace, stationsAfter, stationsAfter, List.foldl_append]
        rfl
      · rw [if_neg hreplace, List.filter_cons_of_neg hreplace, List.filter_nil, List.append_nil]

end Histories

/-- **What the matchmaker is told of a console.**  After any history of requests it is the last report of the
console if that says anything.  Otherwise it is what the first station says that says anything, of the stations that
the console registered last and has replaced since, or has reported without a registration. -/
theorem natBehaviour_of_history (private6 : Bytes → Bool) (cfg : SecureConnectionConfig) (conn : Registrant)
    (history : List RMCMessage) :
    natBehaviour (peerAfter private6 cfg conn history) =
      if lastReport history ≠ (0, 0) then lastReport history
      else stationsNAT (stationsAfter conn.pid (registeredStations private6 cfg conn history)
        ((sinceRegister history).filter isReplaceURL)) := by
  rw [natBehaviour_eq, peerAfter_nat, peerAfter_stations]

/-- A console that reported `(2, 3)`, registered `prudp:/address=10.0.0.1;natm=1;natf=2` and then reported zeros. -/
theorem natBehaviour_of_history_zeros :
    let conn : Registrant := ⟨7, 1, [49, 57, 56, 46, 53, 49, 46, 49, 48, 48, 46, 55, 58, 53]⟩
    let station : Bytes := [112, 114, 117, 100, 112, 58, 47, 97, 100, 100, 114, 101, 115, 115, 61, 49, 48, 46, 48,
      46, 48, 46, 49, 59, 110, 97, 116, 109, 61, 49, 59, 110, 97, 116, 102, 61, 50]
    let register := newRMCRequest protocolSecureConnection methodRegister 2
      (StreamOut.u32 1 ++ StreamOut.string station)
    let report (natMap natFilter : UInt32) := newRMCRequest protocolNATTraversal methodReportNATProperties 1
      (StreamOut.u32 natMap ++ StreamOut.u32 natFilter ++ StreamOut.u32 20)
    natBehaviour (peerAfter (fun _ => false) switchPia519Config conn ([report 2 3] ++ register :: [report 0 0])) =
      (1, 2) := by
  intro conn station register report
  rw [natBehaviour_of_history]
  decide +kernel

end NextendoMatchmaking.Endpoint
