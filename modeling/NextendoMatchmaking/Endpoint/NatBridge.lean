import NextendoMatchmaking.Endpoint.CallIDs
import NextendoMatchmaking.Login.Recall
import NextendoMatchmaking.Login.TicketGranting

/-!
# The stations that a joiner gets

A console registers its stations (`handleRegister` of `nextendo-nex/secureconnection.go`) and reports its LAN
station again after the NAT handshake (`handleReplaceURL`).  `natBridgeStations` of `natbridge.go` makes the two
candidates of a joiner from them: the LAN station and the public one, with the UDP port that was observed.

The stations are kept by address, in the order in which the addresses came first, and the bridge takes the first
private address.  So the LAN candidate is the one that was reported last just when its address was the first
private one (`lan_candidate_fresh_iff`).

`net.ParseIP` is modelled for IPv4; `private6` says which IPv6 texts are private.  The observations of the nncs
responder are a map, without the file in which they stand.
-/

namespace NextendoMatchmaking.Endpoint

open NextendoMatchmaking.Ordered

/-- The keys `type`, `Pa` and `CID`. -/
def typeKey : Bytes := [116, 121, 112, 101]
def paKey : Bytes := [80, 97]
def cidKey : Bytes := [67, 73, 68]

namespace StationURL

/-- `NewStationURL("prudp")`. -/
def prudp : StationURL := ⟨[112, 114, 117, 100, 112], [], List.nodup_nil⟩

/-- `Has`. -/
def has (u : StationURL) (k : Bytes) : Bool := (u.params.lookup k).isSome

/-- `Remove`. -/
def remove (u : StationURL) (k : Bytes) : StationURL :=
  ⟨u.scheme, u.params.filter (fun e => e.1 ≠ k), u.nodup.sublist (List.filter_sublist.map Prod.fst)⟩

theorem lookup_set (u : StationURL) (k k' v : Bytes) :
    (u.set k v).params.lookup k' = if k' = k then some v else u.params.lookup k' :=
  lookup_put_eq k k' v u.params

theorem lookup_remove (u : StationURL) (k k' : Bytes) :
    (u.remove k).params.lookup k' = if k' = k then none else u.params.lookup k' :=
  lookup_filter_ne k k' u.params

theorem get_set_of_ne (u : StationURL) {k k' : Bytes} (h : k' ≠ k) (v : Bytes) :
    (u.set k v).get k' = u.get k' := by
  simp only [get, lookup_set, if_neg h]

theorem get_remove_of_ne (u : StationURL) {k k' : Bytes} (h : k' ≠ k) : (u.remove k).get k' = u.get k' := by
  simp only [get, lookup_remove, if_neg h]

end StationURL

/-! ### Private addresses -/

/-- A decimal number up to 255, without a leading zero. -/
def octet (s : Bytes) : Option ℕ :=
  if s = [] ∨ (s.head? = some 48 ∧ 1 < s.length) then none else (Login.parseDigits s).filter (fun n => n ≤ 255)

/-- `net.ParseIP` of four numbers with points between them. -/
def parseIPv4 (addr : Bytes) : Option (ℕ × ℕ × ℕ × ℕ) :=
  match (addr.splitOn 46).map octet with
  | [some a, some b, some c, some d] => some (a, b, c, d)
  | _ => none

/-- `isPrivateIP`: the private ranges, loopback, link-local and `cgnatRange`.  A text is IPv6 when `:` is the
first of its marks. -/
def isPrivateIP (private6 : Bytes → Bool) (addr : Bytes) : Bool :=
  if addr.find? (fun b => b = 46 ∨ b = 58 ∨ b = 37) = some 58 then private6 addr
  else
    match parseIPv4 addr with
    | none => false
    | some (a, b, _, _) =>
      a = 10 ∨ (a = 172 ∧ 16 ≤ b ∧ b < 32) ∨ (a = 192 ∧ b = 168) ∨ a = 127 ∨ (a = 169 ∧ b = 254) ∨
        (a = 100 ∧ 64 ≤ b ∧ b < 128)

def stationURLFlagPublic : UInt8 := 0x02

/-- `selectStations`: the local and the public station, each with its index, which stands for the pointer. -/
def selectStations (private6 : Bytes → Bool) (urls : List StationURL) :
    Option (StationURL × ℕ) × Option (StationURL × ℕ) :=
  let byAddress := urls.zipIdx.find? (fun p => p.1.address ≠ [] ∧ isPrivateIP private6 p.1.address)
  let byType := urls.zipIdx.find? (fun p => UInt8.ofInt (p.1.getInt typeKey) &&& stationURLFlagPublic = 0)
  ((byAddress.or byType).or urls.zipIdx.head?,
    urls.zipIdx.find? (fun p => p.1.address ≠ [] ∧ ¬ isPrivateIP private6 p.1.address))

/-! ### Register -/

/-- What `handleRegister` reads of a `SecureConnectionConfig`. -/
structure SecureConnectionConfig where
  publicStationType : UInt8
  setPa : Bool

/-- `SwitchPia519Config`. -/
def switchPia519Config : SecureConnectionConfig := ⟨0x0B, true⟩

/-- What `handleRegister` reads of a connection. -/
structure Registrant where
  pid : UInt64
  id : UInt32
  remoteAddr : Bytes

/-- `net.SplitHostPort`: the port follows the last `:`. -/
def splitHostPort (addr : Bytes) : Option (Bytes × Bytes) :=
  (Login.splitHost addr).map (fun host => (host, (addr.reverse.takeWhile (fun b => b ≠ 58)).reverse))

/-- The station with the `PID` and the `RVCID` of the connection. -/
def identify (conn : Registrant) (u : StationURL) : StationURL :=
  (u.setInt pidKey (intOfUInt64 conn.pid)).setInt rvcidKey conn.id.toNat

/-- The public station of a console that reported none. -/
def derivePublic (conn : Registrant) (localStation : StationURL) : StationURL :=
  match splitHostPort conn.remoteAddr with
  | some (host, port) => (localStation.set addressKey host).set portKey port
  | none => localStation

/-- `handleRegister`: the stations that are stored, and the answer. -/
def handleRegister (private6 : Bytes → Bool) (cfg : SecureConnectionConfig) (conn : Registrant)
    (req : RMCMessage) : List StationURL × RMCMessage :=
  let (urls, _) := NextendoMatchmaking.StreamIn.run
    (NextendoMatchmaking.StreamIn.list StreamIn.stationURL) req.body
  let (selected, reported) := selectStations private6 urls
  let localStation := (selected.map Prod.fst).getD .prudp
  let publicStation := (reported.map Prod.fst).getD (derivePublic conn localStation)
  let pa := if reported.isNone then publicStation.address else localStation.address
  let typed := (identify conn publicStation).setInt typeKey cfg.publicStationType.toNat
  let public' := if cfg.setPa ∧ pa ≠ [] then typed.set paKey pa else typed
  -- One station can be selected as both, and then there is one object with all the changes.
  let local' :=
    if reported.isSome ∧ selected.map Prod.snd = reported.map Prod.snd then public'
    else identify conn localStation
  ([local', public'], newRMCSuccess protocolSecureConnection req.method req.callID
    (StreamOut.u32 Login.resultCoreUnknown ++ StreamOut.u32 conn.id ++ StreamOut.string public'.render))

/-! ### The bridge -/

/-- `bridgeStatus`. -/
inductive BridgeStatus
  | ok
  | noStations
  | noObservation
  | noRVCID
  deriving DecidableEq

/-- `natPortForIP`. -/
def natPortForIP (natCache : GoMap Bytes ℕ) (ip : Bytes) : Option ℕ :=
  if ip = [] then none else natCache.lookup ip

/-- The LAN candidate. -/
def lanCandidate (udpPort : ℕ) (u : StationURL) : StationURL :=
  ((u.setInt portKey udpPort).remove typeKey).remove paKey

/-- The public candidate; its type is `BehindNAT|Public|Switch`. -/
def publicCandidate (udpPort : ℕ) (pa : Bytes) (u : StationURL) : StationURL :=
  ((u.setInt portKey udpPort).setInt typeKey 0x0B).set paKey pa

/-- The order of the candidates. -/
def candidates (publicFirst : Bool) (lan pub : StationURL) : List StationURL :=
  if publicFirst then [pub, lan] else [lan, pub]

/-- `natBridgeStations`. -/
def natBridgeStations (private6 : Bytes → Bool) (natCache : GoMap Bytes ℕ) (urls : List StationURL)
    (publicFirst : Bool) : List StationURL × BridgeStatus :=
  match selectStations private6 urls with
  | (some (localStation, _), some (publicStation, _)) =>
    let publicAddr := publicStation.address
    let privateAddr := localStation.address
    if publicAddr = [] ∨ privateAddr = [] ∨ publicAddr = privateAddr then (urls, .noStations)
    else
      match natPortForIP natCache publicAddr with
      | none => (urls, .noObservation)
      | some udpPort =>
        if localStation.getInt rvcidKey = 0 then (urls, .noRVCID)
        else
          let pa := if publicFirst then publicAddr else privateAddr
          (candidates publicFirst (lanCandidate udpPort localStation)
            (publicCandidate udpPort pa publicStation), .ok)
  | _ => (urls, .noStations)

variable {private6 : Bytes → Bool} {natCache : GoMap Bytes ℕ} {urls stored : List StationURL}
  {u pub : StationURL} {port : ℕ} {a k : Bytes}

theorem get_lanCandidate (port : ℕ) (u : StationURL) (hport : k ≠ portKey) (htype : k ≠ typeKey)
    (hpa : k ≠ paKey) : (lanCandidate port u).get k = u.get k := by
  unfold lanCandidate StationURL.setInt
  rw [StationURL.get_remove_of_ne _ hpa, StationURL.get_remove_of_ne _ htype, StationURL.get_set_of_ne _ hport]

theorem port_lanCandidate (port : ℕ) (u : StationURL) : (lanCandidate port u).get portKey = itoa port := by
  unfold lanCandidate StationURL.setInt
  rw [StationURL.get_remove_of_ne _ (by decide), StationURL.get_remove_of_ne _ (by decide), StationURL.get,
    StationURL.lookup_set, if_pos rfl]
  rfl

theorem has_lanCandidate (port : ℕ) (u : StationURL) (h : k = typeKey ∨ k = paKey) :
    (lanCandidate port u).has k = false := by
  simp only [lanCandidate, StationURL.has, StationURL.lookup_remove]
  rcases h with rfl | rfl
  · rw [if_neg (by decide), if_pos rfl]
    rfl
  · rw [if_pos rfl]
    rfl

theorem address_publicCandidate (port : ℕ) (pa : Bytes) (u : StationURL) :
    (publicCandidate port pa u).address = u.address := by
  unfold publicCandidate StationURL.setInt StationURL.address
  rw [StationURL.get_set_of_ne _ (by decide), StationURL.get_set_of_ne _ (by decide),
    StationURL.get_set_of_ne _ (by decide)]

theorem candidates_inj {publicFirst : Bool} {lan lan' pub pub' : StationURL}
    (h : candidates publicFirst lan pub = candidates publicFirst lan' pub') : lan = lan' ∧ pub = pub' := by
  cases publicFirst <;> simp_all [candidates]

/-! ### Selection -/

theorem exists_find?_zipIdx {p : StationURL → Bool} (h : urls.find? p = some u) :
    ∃ i, urls.zipIdx.find? (fun q => p q.1) = some (u, i) := by
  rw [← List.zipIdx_map_fst 0 urls, List.find?_map] at h
  obtain ⟨⟨u', i⟩, hfind, rfl⟩ := Option.map_eq_some_iff.mp h
  exact ⟨i, hfind⟩

/-- An empty address is not private. -/
theorem address_ne_nil (h : isPrivateIP private6 a = true) : a ≠ [] := by
  rintro rfl
  exact Bool.false_ne_true h

theorem private_eq (private6 : Bytes → Bool) :
    (fun u : StationURL => decide (u.address ≠ [] ∧ isPrivateIP private6 u.address = true)) =
      fun u => isPrivateIP private6 u.address := by
  funext u
  rw [Bool.eq_iff_iff, decide_eq_true_eq]
  exact ⟨fun h => h.2, fun h => ⟨address_ne_nil h, h⟩⟩

/-- An address at which the host can be reached from outside. -/
def isPublicAddr (private6 : Bytes → Bool) (addr : Bytes) : Bool := addr ≠ [] ∧ ¬ isPrivateIP private6 addr

/-- **Spec of the bridge** where both stations are found by their addresses. -/
theorem natBridgeStations_eq (hlocal : urls.find? (fun u => isPrivateIP private6 u.address) = some u)
    (hpublic : urls.find? (fun u => isPublicAddr private6 u.address) = some pub)
    (hport : natPortForIP natCache pub.address = some port) (publicFirst : Bool) :
    natBridgeStations private6 natCache urls publicFirst =
      if u.getInt rvcidKey = 0 then (urls, .noRVCID)
      else
        (candidates publicFirst (lanCandidate port u)
          (publicCandidate port (if publicFirst then pub.address else u.address) pub), .ok) := by
  have hprivate := List.find?_some hlocal
  have hfound := List.find?_some hpublic
  obtain ⟨hnonempty, hseen⟩ := of_decide_eq_true hfound
  rw [← private_eq] at hlocal
  obtain ⟨i, hi⟩ := exists_find?_zipIdx hlocal
  obtain ⟨j, hj⟩ := exists_find?_zipIdx hpublic
  have hselected : selectStations private6 urls = (some (u, i), some (pub, j)) := by
    unfold selectStations
    exact congrArg₂ Prod.mk (by rw [hi]; rfl) hj
  have hpair : ¬ (pub.address = [] ∨ u.address = [] ∨ pub.address = u.address) := by
    rintro (hnil | hnil | heq)
    · exact hnonempty hnil
    · exact address_ne_nil hprivate hnil
    · exact hseen (heq ▸ hprivate)
  unfold natBridgeStations
  rw [hselected]
  dsimp only
  rw [if_neg hpair, hport]

/-! ### Stations that were reported again -/

/-- The station of a `ReplaceURL`, as it is stored. -/
def replacement (pid : UInt64) (req : RMCMessage) : StationURL :=
  (NextendoMatchmaking.StreamIn.run (do
    let _ ← StreamIn.stationURL
    StreamIn.stationURL) req.body).1.setInt pidKey (intOfUInt64 pid)

/-- The stations of a connection after some `ReplaceURL`s. -/
def stationsAfter (pid : UInt64) (stored : List StationURL) (reqs : List RMCMessage) : List StationURL :=
  reqs.foldl (fun stations req => (handleReplaceURL pid stations req).1) stored

/-- The stations are collected by address, whatever the number of requests. -/
theorem stationsAfter_eq (pid : UInt64) (stored : List StationURL) (reqs : List RMCMessage) (req : RMCMessage) :
    stationsAfter pid stored (reqs ++ [req]) =
      (collect StationURL.address
        (stored ++ reqs.map (replacement pid) ++ [replacement pid req])).map Prod.snd := by
  have hstep : ∀ reqs req, stationsAfter pid stored (reqs ++ [req]) =
      replaceStations (stationsAfter pid stored reqs) (replacement pid req) := fun reqs req => by
    simp only [stationsAfter, List.foldl_append, List.foldl_cons, List.foldl_nil]
    rfl
  induction reqs using List.reverseRecOn generalizing req with
  | nil =>
    rw [hstep, List.map_nil, List.append_nil]
    rfl
  | append_singleton reqs req' ih =>
    rw [hstep, ih, replaceStations, collect_snoc, collect_values, ← collect_snoc]
    simp only [List.map_append, List.map_cons, List.map_nil, List.append_assoc]

/-- The first station with a property of addresses is the last report for the first such address. -/
theorem find?_stationsAfter {pid : UInt64} {reqs : List RMCMessage} {last : RMCMessage} {p : Bytes → Bool}
    (h : ((stored ++ (reqs ++ [last]).map (replacement pid)).map StationURL.address).find? p = some a) :
    ∃ u, u.address = a ∧ (stationsAfter pid stored (reqs ++ [last])).find? (fun u => p u.address) = some u ∧
      (a = (replacement pid last).address → u = replacement pid last) := by
  have hreports : stored ++ (reqs ++ [last]).map (replacement pid) =
      stored ++ reqs.map (replacement pid) ++ [replacement pid last] := by
    rw [List.map_append, ← List.append_assoc]
    rfl
  rw [hreports] at h
  obtain ⟨u, hu, hfind⟩ := find?_collect StationURL.address p h
  rw [← stationsAfter_eq] at hfind
  refine ⟨u, hu, hfind, fun hlast => ?_⟩
  have hmem := List.mem_of_find?_eq_some hfind
  rw [stationsAfter_eq] at hmem
  exact eq_last_of_mem_collect StationURL.address hmem (hu.trans hlast)

/-! ### The freshest LAN station -/

/-- What a joiner should get from a host that reported `last` last: a LAN candidate with its address, its ids
and everything else of it, with the port that was observed and without the marks of a public station; and a
public candidate that none of the reports has superseded. -/
structure FreshCandidates (last : StationURL) (reports : List StationURL) (port : ℕ) (lan pub : StationURL) :
    Prop where
  address : lan.address = last.address
  rvcid : lan.get rvcidKey = last.get rvcidKey
  cid : lan.get cidKey = last.get cidKey
  rest : ∀ k, k ≠ portKey → k ≠ typeKey → k ≠ paKey → lan.get k = last.get k
  port : lan.get portKey = itoa port
  noType : lan.has typeKey = false
  noPa : lan.has paKey = false
  current : ∀ r ∈ reports, r.address ≠ pub.address

/-- What is made from the last report is fresh. -/
theorem freshCandidates_lanCandidate {reports : List StationURL} (last : StationURL) (port : ℕ) (pa : Bytes)
    (hreports : ∀ r ∈ reports, isPrivateIP private6 r.address = true)
    (hpub : isPublicAddr private6 pub.address = true) :
    FreshCandidates last reports port (lanCandidate port last) (publicCandidate port pa pub) where
  address := get_lanCandidate port last (by decide) (by decide) (by decide)
  rvcid := get_lanCandidate port last (by decide) (by decide) (by decide)
  cid := get_lanCandidate port last (by decide) (by decide) (by decide)
  rest _ := get_lanCandidate port last
  port := port_lanCandidate port last
  noType := has_lanCandidate port last (.inl rfl)
  noPa := has_lanCandidate port last (.inr rfl)
  current r hr heq := by
    -- The reports are private, and the public candidate is not.
    rw [address_publicCandidate] at heq
    exact (of_decide_eq_true hpub).2 (heq ▸ hreports r hr)

/-- **The LAN candidate of a joiner.**  For all stations that a registration has stored and all later
`ReplaceURL`s with private addresses and a `RVCID`, with an observation for the public address of the host: the
bridge hands out the LAN station that was reported last just when its address is the first private one of all
that the host has reported. -/
theorem lan_candidate_fresh_iff (private6 : Bytes → Bool) (natCache : GoMap Bytes ℕ)
    (cfg : SecureConnectionConfig) (conn : Registrant) (register : RMCMessage) (reqs : List RMCMessage)
    (last : RMCMessage)
    (hreqs : ∀ req ∈ reqs ++ [last], isPrivateIP private6 (replacement conn.pid req).address = true ∧
      (replacement conn.pid req).getInt rvcidKey ≠ 0)
    (a : Bytes) (port : ℕ) (hport : natPortForIP natCache a = some port)
    (hpublic : ((handleRegister private6 cfg conn register).1.map StationURL.address).find?
      (isPublicAddr private6) = some a) (publicFirst : Bool) :
    (∃ lan pub, natBridgeStations private6 natCache
          (stationsAfter conn.pid (handleRegister private6 cfg conn register).1 (reqs ++ [last])) publicFirst =
        (candidates publicFirst lan pub, .ok) ∧
        FreshCandidates (replacement conn.pid last) ((reqs ++ [last]).map (replacement conn.pid)) port
          lan pub) ↔
      (((handleRegister private6 cfg conn register).1 ++ (reqs ++ [last]).map (replacement conn.pid)).map
        StationURL.address).find? (isPrivateIP private6) = some (replacement conn.pid last).address := by
  generalize (handleRegister private6 cfg conn register).1 = stored at hpublic ⊢
  have hlast := hreqs last (List.mem_append_right _ (List.mem_singleton_self _))
  have hpublic' : ((stored ++ (reqs ++ [last]).map (replacement conn.pid)).map StationURL.address).find?
      (isPublicAddr private6) = some a := by
    rw [List.map_append, List.find?_append, hpublic]
    rfl
  obtain ⟨b, hb⟩ : ∃ b, ((stored ++ (reqs ++ [last]).map (replacement conn.pid)).map StationURL.address).find?
      (isPrivateIP private6) = some b := by
    rw [← Option.isSome_iff_exists, List.find?_isSome]
    refine ⟨_, List.mem_map_of_mem (List.mem_append_right _ (List.mem_map_of_mem ?_)), hlast.1⟩
    exact List.mem_append_right _ (List.mem_singleton_self _)
  obtain ⟨u, hu, hlocal, hfresh⟩ := find?_stationsAfter hb
  obtain ⟨p, rfl, hpub, -⟩ := find?_stationsAfter hpublic'
  rw [natBridgeStations_eq hlocal hpub hport, hb]
  constructor
  · rintro ⟨lan, pub, hanswer, hcandidates⟩
    split at hanswer
    · have hstatus : BridgeStatus.noRVCID = .ok := congrArg Prod.snd hanswer
      cases hstatus
    · -- The LAN candidate has the address of the station from which it was made.
      obtain ⟨rfl, -⟩ := candidates_inj (congrArg Prod.fst hanswer)
      have haddress := hcandidates.address
      rw [StationURL.address, get_lanCandidate port u (by decide) (by decide) (by decide)] at haddress
      rw [← hu, ← haddress]
      rfl
  · intro hfirst
    obtain rfl := hfresh (Option.some.inj hfirst)
    have hseen := List.find?_some hpub
    rw [if_neg hlast.2]
    refine ⟨_, _, rfl, freshCandidates_lanCandidate _ port _ (fun r hr => ?_) hseen⟩
    obtain ⟨req, hreq, rfl⟩ := List.mem_map.mp hr
    exact (hreqs req hreq).1

/-- The addresses `192.168.1.4`, `192.168.1.5` and `8.8.8.8`. -/
def lanAddress : Bytes := [49, 57, 50, 46, 49, 54, 56, 46, 49, 46, 52]
def otherLanAddress : Bytes := [49, 57, 50, 46, 49, 54, 56, 46, 49, 46, 53]
def wanAddress : Bytes := [56, 46, 56, 46, 56, 46, 56]

/-- A console that registers with a LAN station and a public one. -/
def console : Registrant := ⟨1000, 3, wanAddress ++ [58, 57]⟩

def registerRequest : RMCMessage :=
  newRMCRequest protocolSecureConnection 0x4 1 (StreamOut.list (fun u => StreamOut.string u.render)
    [StationURL.prudp.set addressKey lanAddress, StationURL.prudp.set addressKey wanAddress])

/-- A `ReplaceURL` with an address, the `RVCID` 7 and the `CID` 9. -/
def replaceRequest (address : Bytes) : RMCMessage :=
  newRMCRequest protocolSecureConnection methodReplaceURL 2 (StreamOut.string [] ++
    StreamOut.string (((StationURL.prudp.set addressKey address).setInt rvcidKey 7).setInt cidKey 9).render)

def observations : GoMap Bytes ℕ := (∅ : GoMap Bytes ℕ).insert wanAddress 40822

/-- What a joiner gets after the console has registered and reported its LAN station again. -/
def answerAfter (address : Bytes) : List StationURL × BridgeStatus :=
  natBridgeStations (fun _ => false) observations (stationsAfter console.pid
    (handleRegister (fun _ => false) switchPia519Config console registerRequest).1
    [replaceRequest address]) false

theorem lan_candidate_fresh_same :
    ∃ lan pub, answerAfter lanAddress = (candidates false lan pub, .ok) ∧
      FreshCandidates (replacement console.pid (replaceRequest lanAddress))
        [replacement console.pid (replaceRequest lanAddress)] 40822 lan pub := by
  refine (lan_candidate_fresh_iff _ _ _ _ _ [] _ ?_ wanAddress 40822 ?_ ?_ false).mpr ?_
  · intro req hreq
    obtain rfl := List.mem_singleton.mp hreq
    decide +kernel
  · decide +kernel
  · decide +kernel
  · decide +kernel

/-- The host has moved to another LAN address.  The joiner still gets the old one, with the id of the
registration and without the `CID`. -/
theorem lan_candidate_stale :
    (isPrivateIP (fun _ => false) (replacement console.pid (replaceRequest otherLanAddress)).address = true ∧
      (replacement console.pid (replaceRequest otherLanAddress)).getInt rvcidKey = 7) ∧
      (answerAfter otherLanAddress).1.map (fun u => (u.address, u.getInt rvcidKey, u.has cidKey)) =
        [(lanAddress, 3, false), (wanAddress, 3, false)] ∧
      ¬ ∃ lan pub, answerAfter otherLanAddress = (candidates false lan pub, .ok) ∧
        FreshCandidates (replacement console.pid (replaceRequest otherLanAddress))
          [replacement console.pid (replaceRequest otherLanAddress)] 40822 lan pub := by
  have hstale : (answerAfter otherLanAddress).1.map (fun u => (u.address, u.getInt rvcidKey, u.has cidKey)) =
      [(lanAddress, 3, false), (wanAddress, 3, false)] := by decide +kernel
  have hnew : (replacement console.pid (replaceRequest otherLanAddress)).address = otherLanAddress := by
    decide +kernel
  refine ⟨by decide +kernel, hstale, ?_⟩
  rintro ⟨lan, pub, hanswer, hfresh⟩
  rw [hanswer] at hstale
  have hlan : lan.address = lanAddress := congrArg (fun l => (l.head?.map Prod.fst).getD []) hstale
  exact absurd (hlan.symm.trans (hfresh.address.trans hnew)) (by decide)

end NextendoMatchmaking.Endpoint
