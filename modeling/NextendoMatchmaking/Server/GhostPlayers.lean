import NextendoMatchmaking.Endpoint.Registry
import NextendoMatchmaking.Server.Eviction

/-!
# No ghost players

The reaper is there because consoles crash without a word: their connections stayed in the registry for ever, and
their players in the lobbies.  Here its loop (`Eviction`), the registry (`Registry`) and the hook that removes the
player of a closed connection (`PhantomLobby`) are put together.  As long as the two ways to leave a lobby behind
are not taken, every participant of every gathering is connected and has been heard of within `maxIdle`, one sleep
and twice the lateness of the loop (`no_ghost_players`).
-/

namespace NextendoMatchmaking.Server.Reaper

open NextendoMatchmaking.Endpoint NextendoMatchmaking.Matchmaking NextendoMatchmaking.Runs

variable {crypto : Crypto} {e : Config} {o : Options} {t : Timing} {w w' : Watch} {ls : List WatchLabel}
  {late clock reservationTTL : Int}

/-- No `CONNECT` is accepted on a connected connection, or for the id 0. -/
def Unrepeated (crypto : Crypto) (e : Config) (s : State) (l : Label) : Prop :=
  ∀ l' order, l = .endpoint l' order → FreshConnect crypto e s.endpoint (deferred l')

/-- What is asked of the steps of the server. -/
def Orderly (crypto : Crypto) (e : Config) (s : State) (l : Label) : Prop :=
  Attended crypto e s l ∧ Unrepeated crypto e s l

/-- A condition on the steps of the server, as one on the steps beside the loop. -/
def OnServer (C : State → Label → Prop) (w : Watch) : WatchLabel → Prop
  | .server l => C w.server l
  | _ => True

theorem freshConnect_close (crypto : Crypto) (e : Config) (s : Endpoint.State) (c : Sock) :
    FreshConnect crypto e s (.close c) := nofun

theorem orderly_close (s : State) (c : Sock) (order : Sock → List UInt32) :
    Orderly crypto e s (.endpoint (.close c) order) := by
  refine ⟨⟨fun i env call conn hl => ?_, fun c' p env order' conn conn' ack hl => ?_⟩, fun l' order' hl => ?_⟩
  · cases hl
  · cases hl
  · cases hl
    exact freshConnect_close crypto e s.endpoint c

/-- The registry under the steps of the server: a response that is sent changes neither id nor state. -/
theorem registry_step {s s' : State} {l : Label} (hC : Unrepeated crypto e s l)
    (hi : ∃ log, RegistryInv s.endpoint log) (h : step crypto e o s l = some s') :
    ∃ log, RegistryInv s'.endpoint log := by
  obtain ⟨log, hi⟩ := hi
  cases l with
  | endpoint l order =>
    obtain ⟨r, hr, hmap⟩ := Option.bind_eq_some_iff.mp h
    obtain ⟨work, -, rfl⟩ := Option.map_eq_some_iff.mp hmap
    exact ⟨_, moves_keep (registryInv_move (hC l order rfl)) hi (exec_moves hr)⟩
  | handle i env =>
    simp only [step] at h
    split at h
    · cases h
    · split at h
      · cases h
      · split at h
        · cases h
        · obtain ⟨store, -, rfl⟩ := Option.map_eq_some_iff.mp h
          exact ⟨log, hi⟩
  | finish i response =>
    simp only [step] at h
    split at h
    · cases h
    next call _ =>
      split at h
      · cases h
      next conn hconn =>
        cases h
        exact ⟨log ++ [], registryInv_move (freshConnect_close crypto e s.endpoint call.c) hi
          (.touch hconn (sameIdentity_respond e call.c conn response) (by simp))⟩

/-- Seats and the registry. -/
structure LobbyWatch (w : Watch) : Prop where
  lobby : LobbyInv w.server.endpoint w.server.store
  registry : ∃ log, RegistryInv w.server.endpoint log

theorem LobbyWatch.server {s : State} {l : Label} (h : LobbyWatch w) (hC : Orderly crypto e w.server l)
    (hstep : step crypto e o w.server l = some s) : LobbyWatch { w with server := s } :=
  ⟨lobbyInv_step hC.1 h.lobby hstep, registry_step hC.2 h.registry hstep⟩

theorem LobbyWatch.step {x : WatchLabel} (hx : OnServer (Orderly crypto e) w x) (h : LobbyWatch w)
    (hstep : watchStep crypto e o t w x = some w') : LobbyWatch w' := by
  cases watched_of_step hstep with
  | server _ hserver => exact h.server hx hserver
  | @evict c _ order _ _ hclose =>
    have hclosed := h.server (orderly_close w.server c order) hclose
    exact ⟨hclosed.lobby, hclosed.registry⟩
  | _ => exact ⟨h.lobby, h.registry⟩

/-- **No ghost players.**  In every run of the server with its reaper that is never late by more than `late`, in which
sections that seat their caller run while it is online and no `CONNECT` is repeated or takes a seat's last connection
away: every participant of every gathering has a registered and connected connection whose last packet came within
`maxIdle`, one sleep and twice `late`. -/
theorem no_ghost_players {idleVar everyVar : Bytes}
    (hreaper : startReaper idleVar everyVar = some t) (hclock : 0 < clock) (hlate : 0 ≤ late)
    (hrun : run (watchStep crypto e o t) (watchStart t reservationTTL clock) ls = some w)
    (hontime : Steps (watchStep crypto e o t) (OnTime late) (watchStart t reservationTTL clock) ls)
    (horderly : Steps (watchStep crypto e o t) (OnServer (Orderly crypto e)) (watchStart t reservationTTL clock) ls) :
    ∀ gid g p, w.server.store.gatherings.lookup gid = some g → p ∈ g.participants →
      ∃ id c conn heard, w.server.endpoint.connections.lookup id = some c ∧
        w.server.endpoint.sockets.lookup c = some conn ∧ conn.pid = p ∧ conn.state = .connected ∧
        lastPacket c ls = some heard ∧ w.clock ≤ heard + t.maxIdle + t.sleep + 2 * late := by
  intro gid g p hg hp
  have hstart : LobbyWatch (watchStart t reservationTTL clock) :=
    ⟨lobbyInv_start reservationTTL, [], registryInv_start⟩
  have hwatch : LobbyWatch w :=
    run_invariant_of_steps (fun w x w' hx h hstep => h.step hx hstep) horderly hstart hrun
  obtain ⟨-, id, c, conn, hid, hconn, hpid⟩ := hwatch.lobby.present p ⟨gid, g, hg, hp⟩
  obtain ⟨log, hregistry⟩ := hwatch.registry
  obtain ⟨-, conn', hconn', -, hstate⟩ := hregistry.registered id c hid
  obtain rfl := Option.some.inj (hconn.symm.trans hconn')
  obtain ⟨heard, hlast, hle⟩ := heard_of_run hreaper hclock hlate hrun hontime hid hconn (by rw [hstate]; decide)
  exact ⟨id, c, conn, heard, hid, hconn, hpid, hstate, hlast, hle⟩

/-- A run of the server alone meets a condition also beside the loop. -/
theorem steps_onServer {C : State → Label → Prop} {ls : List Label} {s : State} {due : Int} {phase : Phase}
    (h : Steps (step crypto e o) C s ls) :
    Steps (watchStep crypto e o t) (OnServer C) ⟨s, clock, due, phase⟩ (ls.map WatchLabel.server) := by
  induction ls generalizing s with
  | nil => trivial
  | cons l ls ih =>
    refine ⟨h.1, fun w' hw' => ?_⟩
    cases watched_of_step hw' with
    | server _ hserver => exact ih (h.2 _ hserver)

theorem unrepeated_lobbySteps : Steps (step plainCrypto plainEndpoint plainOptions)
    (Unrepeated plainCrypto plainEndpoint) (start 8) lobbySteps := by
  refine ⟨?_, fun s₁ h₁ => ⟨?_, fun s₂ h₂ => ⟨?_, fun s₃ h₃ => ⟨?_, fun s₄ h₄ => ⟨?_, fun _ _ => trivial⟩⟩⟩⟩⟩
  · intro l' order hl
    cases hl
    exact nofun
  · intro l' order hl c p env conn hpacket _ hconn _
    cases h₁
    cases hl
    cases hpacket
    cases hconn
    exact ⟨by decide, by decide⟩
  · intro l' order hl c p env conn hpacket hasks
    cases hl
    cases hpacket
    cases hasks.1
  · exact nofun
  · exact nofun

theorem no_ghost_players_lobby : ∃ w,
    run (watchStep plainCrypto plainEndpoint plainOptions impatient) (watchStart impatient 8 1) silentTrace =
        some w ∧
      ∃ id c conn heard, w.server.endpoint.connections.lookup id = some c ∧
        w.server.endpoint.sockets.lookup c = some conn ∧ conn.pid = 7 ∧ conn.state = .connected ∧
        lastPacket c silentTrace = some heard ∧ w.clock ≤ heard + 2000000000 := by
  have hreaper : startReaper [49] [49] = some impatient := by decide
  have hontime : Steps (watchStep plainCrypto plainEndpoint plainOptions impatient) (OnTime 0)
      (watchStart impatient 8 1) silentTrace := by decide +kernel
  have hrun : ∃ w g, run (watchStep plainCrypto plainEndpoint plainOptions impatient) (watchStart impatient 8 1)
      silentTrace = some w ∧ w.server.store.gatherings.lookup 1 = some g ∧ g.participants = [7] :=
    ⟨_, _, rfl, rfl, rfl⟩
  obtain ⟨w, g, hrun, hg, hparticipants⟩ := hrun
  have hserver : Steps (watchStep plainCrypto plainEndpoint plainOptions impatient)
      (OnServer (Orderly plainCrypto plainEndpoint)) (watchStart impatient 8 1)
      (lobbySteps.map WatchLabel.server) := steps_onServer (steps_and attended_lobbySteps unrepeated_lobbySteps)
  have hlobby : ∃ w, run (watchStep plainCrypto plainEndpoint plainOptions impatient) (watchStart impatient 8 1)
      (lobbySteps.map WatchLabel.server) = some w := ⟨_, rfl⟩
  obtain ⟨w₁, hlobby⟩ := hlobby
  have horderly : Steps (watchStep plainCrypto plainEndpoint plainOptions impatient)
      (OnServer (Orderly plainCrypto plainEndpoint)) (watchStart impatient 8 1) silentTrace :=
    steps_concat hserver hlobby ⟨trivial, fun _ _ => ⟨trivial, fun _ _ => ⟨trivial, fun _ _ => trivial⟩⟩⟩
  obtain ⟨id, c, conn, heard, hid, hconn, hpid, hstate, hlast, hle⟩ := no_ghost_players hreaper (by decide)
    (le_refl 0) hrun hontime horderly 1 g 7 hg (hparticipants ▸ List.mem_singleton.mpr rfl)
  have hsum : impatient.maxIdle + impatient.sleep = 2000000000 := rfl
  exact ⟨w, hrun, id, c, conn, heard, hid, hconn, hpid, hstate, hlast, by omega⟩

end NextendoMatchmaking.Server.Reaper
