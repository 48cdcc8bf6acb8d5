import NextendoMatchmaking.Endpoint.Peers
import NextendoMatchmaking.Matchmaking.System

/-!
# Waiting for the stations of a host

`getSessionURLs` of `matchmaking_handlers.go` gives a joiner the stations of the host.  When the host has not yet
reported its RVCID, the handler returns no response, and a goroutine of its own,
`answerSessionURLsWhenHostIsReady`, polls the stations and answers later.

The system here is that goroutine among the others: the clock goes on, the host sends its requests, the nncs
responder observes ports, and the goroutine makes one step after the other, in any order.

* `session_urls_answered` — under every schedule the goroutine ends after a bounded number of steps with one
  answer, bridged stations if a poll found them and the raw ones after the wait if none did;
* `session_urls_in_time` — when the goroutine is never late, the answer comes within the wait and one poll, and a
  host that reports within the wait is answered for within one poll.
-/

namespace NextendoMatchmaking.Matchmaking.SessionURLs

open NextendoMatchmaking.Endpoint NextendoMatchmaking.Runs

/-- `hostReplaceURLWait` and `hostReplaceURLPoll`, in nanoseconds. -/
def hostReplaceURLWait : ℕ := 2500 * 1000000
def hostReplaceURLPoll : ℕ := 100 * 1000000

/-- `sessionURLsResponse`. -/
def sessionURLsResponse (req : RMCMessage) (urls : List StationURL) : RMCMessage :=
  newRMCSuccess protocolMatchMaking req.method req.callID
    (StreamOut.list StreamOut.string (urls.map StationURL.render))

/-- What `getSessionURLs` finds of a host. -/
def hostURLsOf (private6 : Bytes → Bool) (natCache : GoMap Bytes ℕ) (publicFirst : Bool) :
    Option Peer → HostURLs
  | none => .noHost
  | some peer =>
    let (urls, status) := natBridgeStations private6 natCache peer.stations publicFirst
    if status ≠ .noRVCID then .urls (urls.map StationURL.render) else .later

/-! ### The goroutine -/

/-- Where the goroutine stands: before its first line, at the condition of the loop, asleep, with the stations it
has read, behind the loop, and at its end. -/
inductive Phase
  | spawned
  | checking (deadline : ℕ)
  | sleeping (deadline wake : ℕ)
  | bridging (deadline : ℕ) (stations : List StationURL)
  | late
  | done
  deriving DecidableEq

/-- The goroutine and what it reads.  `polls` is a ghost: the outcome of every poll.  An answer stands with the
time at which it was sent. -/
structure Waiting where
  clock : ℕ
  host : Peer
  natCache : GoMap Bytes ℕ
  phase : Phase
  polls : List BridgeStatus
  sent : List (ℕ × RMCMessage)

inductive Label
  /-- The clock goes on. -/
  | tick (t : ℕ)
  /-- The host sends a request. -/
  | host (req : RMCMessage)
  /-- The observed ports are read anew. -/
  | observe (natCache : GoMap Bytes ℕ)
  /-- The goroutine goes on. -/
  | own
  deriving DecidableEq

variable {l : Label} {s₀ : Waiting}

/-- `SendRMC` of the answer, and the end. -/
def Waiting.answer (s : Waiting) (req : RMCMessage) (urls : List StationURL) : Waiting :=
  { s with phase := .done, sent := s.sent ++ [(s.clock, sessionURLsResponse req urls)] }

section System

variable (private6 : Bytes → Bool) (cfg : SecureConnectionConfig) (host : Registrant) (publicFirst : Bool)
  (req : RMCMessage)

/-- One step of `answerSessionURLsWhenHostIsReady`. -/
def goOn (s : Waiting) : Option Waiting :=
  match s.phase with
  | .spawned => some { s with phase := .checking (s.clock + hostReplaceURLWait) }
  | .checking deadline =>
    if s.clock < deadline then some { s with phase := .sleeping deadline (s.clock + hostReplaceURLPoll) }
    else some { s with phase := .late }
  | .sleeping deadline wake =>
    if wake ≤ s.clock then some { s with phase := .bridging deadline s.host.stations } else none
  | .bridging deadline stations =>
    let (urls, status) := natBridgeStations private6 s.natCache stations publicFirst
    let s := { s with polls := s.polls ++ [status] }
    if status = .ok then some (s.answer req urls) else some { s with phase := .checking deadline }
  | .late => some (s.answer req s.host.stations)
  | .done => none

def step (s : Waiting) : Label → Option Waiting
  | .tick t => if s.clock ≤ t then some { s with clock := t } else none
  | .host r => some { s with host := s.host.receive private6 cfg host r }
  | .observe natCache => some { s with natCache }
  | .own => goOn private6 publicFirst req s

/-- The goroutine at its start. -/
def spawn (clock : ℕ) (peer : Peer) (natCache : GoMap Bytes ℕ) : Waiting :=
  ⟨clock, peer, natCache, .spawned, [], []⟩

/-- The connection of the host of the gathering that is asked for. -/
def sessionHost (m : Store) (peers : UInt32 → Option Peer) : Option Peer :=
  (m.gatherings.lookup (readGID req)).bind (fun g => peers g.hostConnID)

/-- A request as the handler leaves it: answered, or with the goroutine at its start. -/
def ask (env : Env) (m : Store) (peers : UInt32 → Option Peer) (clock : ℕ) (natCache : GoMap Bytes ℕ) :
    Waiting :=
  let env := { env with hostURLs := fun id => hostURLsOf private6 natCache publicFirst (peers id) }
  let peer := (sessionHost req m peers).getD {}
  match (getSessionURLs env req m).response with
  | some resp => ⟨clock, peer, natCache, .done, [], [(clock, resp)]⟩
  | none => spawn clock peer natCache

/-- The stations with which the handler answers itself. -/
def atOnce (natCache : GoMap Bytes ℕ) : Option Peer → Option (List StationURL)
  | none => some []
  | some peer =>
    let (urls, status) := natBridgeStations private6 natCache peer.stations publicFirst
    if status ≠ .noRVCID then some urls else none

end System

section Steps

variable {private6 : Bytes → Bool} {cfg : SecureConnectionConfig} {host : Registrant} {publicFirst : Bool}
  {req : RMCMessage} {s s' : Waiting}

/-- What a step can do, phase by phase. -/
theorem goOn_cases {P : Waiting → Prop} (h : goOn private6 publicFirst req s = some s')
    (spawned : s.phase = .spawned → P { s with phase := .checking (s.clock + hostReplaceURLWait) })
    (asleep : ∀ deadline, s.phase = .checking deadline → s.clock < deadline →
      P { s with phase := .sleeping deadline (s.clock + hostReplaceURLPoll) })
    (late : ∀ deadline, s.phase = .checking deadline → deadline ≤ s.clock → P { s with phase := .late })
    (awake : ∀ deadline wake, s.phase = .sleeping deadline wake → wake ≤ s.clock →
      P { s with phase := .bridging deadline s.host.stations })
    (bridged : ∀ deadline stations urls, s.phase = .bridging deadline stations →
      natBridgeStations private6 s.natCache stations publicFirst = (urls, .ok) →
      P (({ s with polls := s.polls ++ [.ok] } : Waiting).answer req urls))
    (again : ∀ deadline stations status, s.phase = .bridging deadline stations →
      (natBridgeStations private6 s.natCache stations publicFirst).2 = status → status ≠ .ok →
      P { s with polls := s.polls ++ [status], phase := .checking deadline })
    (raw : s.phase = .late → P (s.answer req s.host.stations)) : P s' := by
  unfold goOn at h
  split at h
  case h_1 hphase => exact Option.some.inj h ▸ spawned hphase
  case h_2 deadline hphase =>
    split at h
    · next hlt => exact Option.some.inj h ▸ asleep deadline hphase hlt
    · next hge => exact Option.some.inj h ▸ late deadline hphase (not_lt.mp hge)
  case h_3 deadline wake hphase =>
    obtain ⟨hwake, heq⟩ := Option.ite_none_right_eq_some.mp h
    exact Option.some.inj heq ▸ awake deadline wake hphase hwake
  case h_4 deadline stations hphase =>
    obtain ⟨urls, status, hbridge⟩ : ∃ urls status,
        natBridgeStations private6 s.natCache stations publicFirst = (urls, status) := ⟨_, _, rfl⟩
    rw [hbridge] at h
    dsimp only at h
    split at h
    · next hok =>
      subst hok
      exact Option.some.inj h ▸ bridged deadline stations urls hphase hbridge
    · next hfailed =>
      exact Option.some.inj h ▸ again deadline stations status hphase (congrArg Prod.snd hbridge) hfailed
  case h_5 hphase => exact Option.some.inj h ▸ raw hphase
  case h_6 => cases h

/-! ### The number of steps -/

/-- The polls that fit into a time. -/
def rounds (time : ℕ) : ℕ := (time + (hostReplaceURLPoll - 1)) / hostReplaceURLPoll

/-- The steps that the goroutine can still make. -/
def remaining (s : Waiting) : ℕ :=
  match s.phase with
  | .spawned => 78
  | .checking deadline => 3 * rounds (deadline - s.clock) + 2
  | .sleeping deadline wake => 3 * rounds (deadline - wake) + 4
  | .bridging deadline _ => 3 * rounds (deadline - s.clock) + 3
  | .late => 1
  | .done => 0

theorem rounds_mono {a b : ℕ} (h : a ≤ b) : rounds a ≤ rounds b :=
  Nat.div_le_div_right (Nat.add_le_add_right h _)

theorem rounds_poll {deadline clock : ℕ} (h : clock < deadline) :
    rounds (deadline - (clock + hostReplaceURLPoll)) + 1 = rounds (deadline - clock) := by
  unfold rounds hostReplaceURLPoll
  omega

theorem remaining_goOn (h : goOn private6 publicFirst req s = some s') : remaining s' < remaining s := by
  refine goOn_cases (P := fun s' => remaining s' < remaining s) h ?_ ?_ ?_ ?_ ?_ ?_ ?_
  · intro hphase
    simp only [remaining, hphase, rounds, hostReplaceURLPoll, hostReplaceURLWait]
    omega
  · intro deadline hphase hlt
    have := rounds_poll hlt
    simp only [remaining, hphase]
    omega
  · intro deadline hphase _
    simp only [remaining, hphase]
    omega
  · intro deadline wake hphase hwake
    have := rounds_mono (Nat.sub_le_sub_left hwake deadline)
    simp only [remaining, hphase]
    omega
  · intro deadline stations urls hphase _
    simp only [remaining, hphase, Waiting.answer]
    omega
  · intro deadline stations status hphase _ _
    simp only [remaining, hphase]
    omega
  · intro hphase
    simp only [remaining, hphase, Waiting.answer]
    omega

theorem remaining_tick {t : ℕ} (h : s.clock ≤ t) : remaining { s with clock := t } ≤ remaining s := by
  have hrounds : ∀ deadline, rounds (deadline - t) ≤ rounds (deadline - s.clock) :=
    fun deadline => rounds_mono (Nat.sub_le_sub_left h deadline)
  unfold remaining
  cases s.phase with
  | checking deadline => exact Nat.add_le_add_right (Nat.mul_le_mul_left 3 (hrounds deadline)) 2
  | bridging deadline _ => exact Nat.add_le_add_right (Nat.mul_le_mul_left 3 (hrounds deadline)) 3
  | _ => exact le_refl _

theorem remaining_step (hl : l ≠ .own) (h : step private6 cfg host publicFirst req s l = some s') :
    remaining s' ≤ remaining s := by
  cases l with
  | tick t =>
    obtain ⟨ht, heq⟩ := Option.ite_none_right_eq_some.mp h
    exact Option.some.inj heq ▸ remaining_tick ht
  | host r =>
    obtain rfl := Option.some.inj h
    exact le_refl (remaining s)
  | observe natCache =>
    obtain rfl := Option.some.inj h
    exact le_refl (remaining s)
  | own => exact absurd rfl hl

/-- A goroutine that has not ended can go on, at once or when the time of its sleep is over. -/
theorem exists_goOn (hdone : s.phase ≠ .done) :
    ∃ t s', run (step private6 cfg host publicFirst req) s [.tick t, .own] = some s' := by
  have hsome : ∀ t, (∀ deadline wake, s.phase = .sleeping deadline wake → wake ≤ t) →
      ∃ s', goOn private6 publicFirst req { s with clock := t } = some s' := by
    intro t hwake
    unfold goOn
    cases hphase : s.phase with
    | spawned => exact ⟨_, rfl⟩
    | checking deadline =>
      dsimp only
      split <;> exact ⟨_, rfl⟩
    | sleeping deadline wake => exact ⟨_, if_pos (hwake deadline wake hphase)⟩
    | bridging deadline stations =>
      dsimp only
      split <;> exact ⟨_, rfl⟩
    | late => exact ⟨_, rfl⟩
    | done => exact absurd hphase hdone
  obtain ⟨t, ht, hwake⟩ : ∃ t, s.clock ≤ t ∧
      ∀ deadline wake, s.phase = .sleeping deadline wake → wake ≤ t := by
    cases hphase : s.phase with
    | sleeping deadline wake =>
      refine ⟨max s.clock wake, le_max_left _ _, fun _ _ heq => ?_⟩
      cases heq
      exact le_max_right _ _
    | _ => exact ⟨s.clock, le_refl _, nofun⟩
  obtain ⟨s', hs'⟩ := hsome t hwake
  exact ⟨t, s', run_cons_some.mpr ⟨_, if_pos ht, run_cons_some.mpr ⟨s', hs', rfl⟩⟩⟩

/-! ### One answer -/

/-- The deadline lies behind `t`, or behind the loop the clock does. -/
def DueAfter (t : ℕ) (s : Waiting) : Prop :=
  match s.phase with
  | .checking deadline | .sleeping deadline _ | .bridging deadline _ => t ≤ deadline
  | .late => t ≤ s.clock
  | .spawned | .done => True

/-- A goroutine that was started at `c₀`: before its end it has sent nothing, and no poll found the stations. -/
structure Pending (c₀ : ℕ) (s : Waiting) : Prop where
  started : c₀ ≤ s.clock
  due : DueAfter (c₀ + hostReplaceURLWait) s
  silent : s.phase ≠ .done → s.sent = [] ∧ ∀ status ∈ s.polls, status ≠ .ok

variable {c₀ : ℕ}

theorem pending_spawn (clock : ℕ) (peer : Peer) (natCache : GoMap Bytes ℕ) :
    Pending clock (spawn clock peer natCache) :=
  ⟨le_refl _, trivial, fun _ => ⟨rfl, fun _ h => absurd h List.not_mem_nil⟩⟩

theorem pending_goOn (hs : Pending c₀ s) (h : goOn private6 publicFirst req s = some s') : Pending c₀ s' := by
  have hdue := hs.due
  unfold DueAfter at hdue
  refine goOn_cases h ?_ ?_ ?_ ?_ ?_ ?_ ?_
  · intro hphase
    exact ⟨hs.started, Nat.add_le_add_right hs.started _, fun _ => hs.silent (by rw [hphase]; nofun)⟩
  · intro deadline hphase _
    rw [hphase] at hdue
    exact ⟨hs.started, hdue, fun _ => hs.silent (by rw [hphase]; nofun)⟩
  · intro deadline hphase hlate
    rw [hphase] at hdue
    exact ⟨hs.started, le_trans hdue hlate, fun _ => hs.silent (by rw [hphase]; nofun)⟩
  · intro deadline wake hphase _
    rw [hphase] at hdue
    exact ⟨hs.started, hdue, fun _ => hs.silent (by rw [hphase]; nofun)⟩
  · intro deadline stations urls _ _
    exact ⟨hs.started, trivial, fun hdone => absurd rfl hdone⟩
  · intro deadline stations status hphase _ hfailed
    rw [hphase] at hdue
    obtain ⟨hsent, hpolls⟩ := hs.silent (by rw [hphase]; nofun)
    refine ⟨hs.started, hdue, fun _ => ⟨hsent, fun status' hmem => ?_⟩⟩
    rcases List.mem_append.mp hmem with hold | hnew
    · exact hpolls status' hold
    · rw [List.mem_singleton.mp hnew]
      exact hfailed
  · intro _
    exact ⟨hs.started, trivial, fun hdone => absurd rfl hdone⟩

theorem pending_step (hs : Pending c₀ s) (h : step private6 cfg host publicFirst req s l = some s') :
    Pending c₀ s' := by
  cases l with
  | tick t =>
    obtain ⟨ht, heq⟩ := Option.ite_none_right_eq_some.mp h
    obtain rfl := Option.some.inj heq
    refine ⟨le_trans hs.started ht, ?_, hs.silent⟩
    have hdue := hs.due
    unfold DueAfter at hdue ⊢
    cases hphase : s.phase with
    | late =>
      rw [hphase] at hdue
      exact le_trans hdue ht
    | _ =>
      rw [hphase] at hdue
      exact hdue
  | host r =>
    obtain rfl := Option.some.inj h
    exact ⟨hs.started, hs.due, hs.silent⟩
  | observe natCache =>
    obtain rfl := Option.some.inj h
    exact ⟨hs.started, hs.due, hs.silent⟩
  | own => exact pending_goOn hs h

/-- The next step of the goroutine sends these stations. -/
def Sends (private6 : Bytes → Bool) (publicFirst : Bool) (s : Waiting) (urls : List StationURL) : Prop :=
  (∃ deadline stations, s.phase = .bridging deadline stations ∧
    natBridgeStations private6 s.natCache stations publicFirst = (urls, .ok)) ∨
  (s.phase = .late ∧ urls = s.host.stations)

/-- A step that ends the goroutine sends one answer. -/
theorem sends_of_goOn (h : goOn private6 publicFirst req s = some s') (hdone : s'.phase = .done) :
    ∃ urls, Sends private6 publicFirst s urls ∧
      s'.sent = s.sent ++ [(s.clock, sessionURLsResponse req urls)] := by
  revert hdone
  refine goOn_cases (P := fun s' => s'.phase = .done → ∃ urls, Sends private6 publicFirst s urls ∧
    s'.sent = s.sent ++ [(s.clock, sessionURLsResponse req urls)]) h nofun nofun nofun nofun ?_ nofun ?_
  · exact fun deadline stations urls hphase hbridge _ =>
      ⟨urls, .inl ⟨deadline, stations, hphase, hbridge⟩, rfl⟩
  · exact fun hphase _ => ⟨s.host.stations, .inr ⟨hphase, rfl⟩, rfl⟩

theorem not_done_of_goOn (h : goOn private6 publicFirst req s = some s') : s.phase ≠ .done := by
  intro hdone
  unfold goOn at h
  rw [hdone] at h
  cases h

/-- What is outside the goroutine changes neither its phase nor what it has sent. -/
theorem step_of_ne_own (hl : l ≠ .own) (h : step private6 cfg host publicFirst req s l = some s') :
    s'.phase = s.phase ∧ s'.sent = s.sent ∧ s.clock ≤ s'.clock := by
  cases l with
  | tick t =>
    obtain ⟨ht, heq⟩ := Option.ite_none_right_eq_some.mp h
    obtain rfl := Option.some.inj heq
    exact ⟨rfl, rfl, ht⟩
  | host r =>
    obtain rfl := Option.some.inj h
    exact ⟨rfl, rfl, le_refl _⟩
  | observe natCache =>
    obtain rfl := Option.some.inj h
    exact ⟨rfl, rfl, le_refl _⟩
  | own => exact absurd rfl hl

/-- The answer of a goroutine that has ended is the one of the step that ended it. -/
theorem answer_of_run {ls : List Label} (h₀ : Pending c₀ s₀) (hphase₀ : s₀.phase ≠ .done)
    (h : run (step private6 cfg host publicFirst req) s₀ ls = some s) (hdone : s.phase = .done) :
    ∃ ls₁ ls₂ s₁ urls, ls = ls₁ ++ .own :: ls₂ ∧
      run (step private6 cfg host publicFirst req) s₀ ls₁ = some s₁ ∧ Pending c₀ s₁ ∧ s₁.phase ≠ .done ∧
      Sends private6 publicFirst s₁ urls ∧ s.sent = [(s₁.clock, sessionURLsResponse req urls)] := by
  induction ls using List.reverseRecOn generalizing s with
  | nil =>
    rw [run_nil, Option.some.injEq] at h
    exact absurd (h ▸ hdone) hphase₀
  | append_singleton ls l ih =>
    obtain ⟨s₁, hs₁, hl⟩ := run_snoc_some.mp h
    by_cases hown : l = .own
    · subst hown
      have hpending := run_invariant (P := Pending c₀) (fun _ _ _ hs hstep => pending_step hs hstep) h₀ hs₁
      have hrunning := not_done_of_goOn hl
      obtain ⟨urls, hurls, hsent⟩ := sends_of_goOn hl hdone
      rw [(hpending.silent hrunning).1] at hsent
      exact ⟨ls, [], s₁, urls, rfl, hs₁, hpending, hrunning, hurls, hsent⟩
    · obtain ⟨hphase, hsent, -⟩ := step_of_ne_own hown hl
      obtain ⟨ls₁, ls₂, s₂, urls, rfl, hrest⟩ := ih hs₁ (hphase ▸ hdone)
      exact ⟨ls₁, ls₂ ++ [l], s₂, urls, by simp, hsent ▸ hrest⟩

/-- The stations of a poll are those that the host had when the poll began. -/
theorem polled_of_run {ls : List Label} {deadline : ℕ} {stations : List StationURL} (h₀ : s₀.phase = .spawned)
    (h : run (step private6 cfg host publicFirst req) s₀ ls = some s) (hphase : s.phase = .bridging deadline stations) :
    ∃ ls₁ ls₂ s₁, ls = ls₁ ++ .own :: ls₂ ∧ run (step private6 cfg host publicFirst req) s₀ ls₁ = some s₁ ∧
      s₁.host.stations = stations := by
  induction ls using List.reverseRecOn generalizing s with
  | nil =>
    rw [run_nil, Option.some.injEq] at h
    rw [← h, h₀] at hphase
    cases hphase
  | append_singleton ls l ih =>
    obtain ⟨s₁, hs₁, hl⟩ := run_snoc_some.mp h
    by_cases hown : l = .own
    · subst hown
      refine ⟨ls, [], s₁, rfl, hs₁, ?_⟩
      revert hphase
      refine goOn_cases (P := fun s => s.phase = .bridging deadline stations → s₁.host.stations = stations) hl
        nofun nofun nofun ?_ nofun nofun nofun
      exact fun _ _ _ _ hphase => (Phase.bridging.inj hphase).2
    · obtain ⟨hsame, -⟩ := step_of_ne_own hown hl
      obtain ⟨ls₁, ls₂, s₂, rfl, hrest⟩ := ih hs₁ (hsame ▸ hphase)
      exact ⟨ls₁, ls₂ ++ [l], s₂, by simp, hrest⟩

/-- A run after the end changes nothing that was sent. -/
theorem sent_of_done {ls : List Label} (h₀ : s₀.phase = .done)
    (h : run (step private6 cfg host publicFirst req) s₀ ls = some s) :
    s.phase = .done ∧ s.sent = s₀.sent := by
  refine run_invariant (P := fun s => s.phase = .done ∧ s.sent = s₀.sent) (fun s l s' hs hstep => ?_)
    ⟨h₀, rfl⟩ h
  by_cases hown : l = .own
  · subst hown
    exact absurd hs.1 (not_done_of_goOn hstep)
  · obtain ⟨hphase, hsent, -⟩ := step_of_ne_own hown hstep
    exact ⟨hphase.trans hs.1, hsent.trans hs.2⟩

/-! ### The request -/

variable {m : Store} {peers : UInt32 → Option Peer} {natCache : GoMap Bytes ℕ}

theorem ask_of_atOnce (env : Env) (clock : ℕ) {urls : List StationURL}
    (h : atOnce private6 publicFirst natCache (sessionHost req m peers) = some urls) :
    ask private6 publicFirst req env m peers clock natCache =
      ⟨clock, (sessionHost req m peers).getD {}, natCache, .done, [], [(clock, sessionURLsResponse req urls)]⟩ := by
  unfold ask getSessionURLs
  unfold sessionHost at h ⊢
  cases hgathering : m.gatherings.lookup (readGID req) with
  | none =>
    rw [hgathering] at h
    obtain rfl := Option.some.inj h
    rfl
  | some g =>
    rw [hgathering] at h
    cases hpeer : peers g.hostConnID with
    | none =>
      simp only [Option.bind_some, hpeer, atOnce, Option.some.injEq] at h
      subst h
      simp only [hostURLsOf, hpeer]
      rfl
    | some peer =>
      simp only [Option.bind_some, hpeer, atOnce] at h
      obtain ⟨hstatus, heq⟩ := Option.ite_none_right_eq_some.mp h
      obtain rfl := Option.some.inj heq
      simp only [hostURLsOf, hpeer, if_pos hstatus]
      rfl

theorem ask_of_later (env : Env) (clock : ℕ)
    (h : atOnce private6 publicFirst natCache (sessionHost req m peers) = none) :
    ∃ peer, sessionHost req m peers = some peer ∧
      ask private6 publicFirst req env m peers clock natCache = spawn clock peer natCache := by
  unfold ask getSessionURLs
  unfold sessionHost at h ⊢
  cases hgathering : m.gatherings.lookup (readGID req) with
  | none =>
    rw [hgathering] at h
    cases h
  | some g =>
    rw [hgathering] at h
    cases hpeer : peers g.hostConnID with
    | none =>
      simp only [Option.bind_some, hpeer, atOnce] at h
      cases h
    | some peer =>
      simp only [Option.bind_some, hpeer, atOnce] at h
      have hstatus : ¬ (natBridgeStations private6 natCache peer.stations publicFirst).2 ≠ .noRVCID := by
        intro hstatus
        rw [if_pos hstatus] at h
        cases h
      refine ⟨peer, hpeer, ?_⟩
      simp only [hostURLsOf, Option.bind_some, hpeer, if_neg hstatus]
      rfl

/-! ### A goroutine that is never late -/

/-- The clock does not pass a step that the goroutine can make. -/
def Prompt (s : Waiting) : Label → Prop
  | .tick t =>
    match s.phase with
    | .sleeping _ wake => t ≤ wake
    | .done => True
    | _ => t = s.clock
  | _ => True

instance (s : Waiting) (l : Label) : Decidable (Prompt s l) := by
  unfold Prompt
  split
  · split <;> infer_instance
  · infer_instance

/-- Where a goroutine that was started at `c₀` is when it is never late. -/
def OnTime (c₀ : ℕ) (s : Waiting) : Prop :=
  match s.phase with
  | .spawned => s.clock = c₀
  | .checking deadline | .bridging deadline _ =>
    deadline = c₀ + hostReplaceURLWait ∧ s.clock < deadline + hostReplaceURLPoll
  | .sleeping deadline wake =>
    deadline = c₀ + hostReplaceURLWait ∧ s.clock ≤ wake ∧ wake ≤ s.clock + hostReplaceURLPoll ∧
      wake < deadline + hostReplaceURLPoll
  | .late =>
    c₀ + hostReplaceURLWait ≤ s.clock ∧ s.clock < c₀ + hostReplaceURLWait + hostReplaceURLPoll
  | .done => True

theorem OnTime.clock_lt (h : OnTime c₀ s) (hrunning : s.phase ≠ .done) :
    s.clock < c₀ + hostReplaceURLWait + hostReplaceURLPoll := by
  unfold OnTime at h
  cases hphase : s.phase with
  | spawned =>
    rw [hphase] at h
    rw [h, Nat.add_assoc]
    exact Nat.lt_add_of_pos_right (by decide)
  | checking deadline | bridging deadline _ =>
    rw [hphase] at h
    exact h.1 ▸ h.2
  | sleeping deadline wake =>
    rw [hphase] at h
    exact h.1 ▸ lt_of_le_of_lt h.2.1 h.2.2.2
  | late =>
    rw [hphase] at h
    exact h.2
  | done => exact absurd hphase hrunning

theorem onTime_goOn (hs : OnTime c₀ s) (h : goOn private6 publicFirst req s = some s') : OnTime c₀ s' := by
  unfold OnTime at hs
  refine goOn_cases h ?_ ?_ ?_ ?_ ?_ ?_ ?_
  · intro hphase
    rw [hphase] at hs
    exact ⟨by rw [hs], Nat.lt_add_right _ (Nat.lt_add_of_pos_right (by decide))⟩
  · intro deadline hphase hlt
    rw [hphase] at hs
    exact ⟨hs.1, Nat.le_add_right _ _, le_refl _, Nat.add_lt_add_right hlt _⟩
  · intro deadline hphase hlate
    rw [hphase] at hs
    exact ⟨hs.1 ▸ hlate, hs.1 ▸ hs.2⟩
  · intro deadline wake hphase _
    rw [hphase] at hs
    exact ⟨hs.1, lt_of_le_of_lt hs.2.1 hs.2.2.2⟩
  · exact fun _ _ _ _ _ => trivial
  · intro deadline stations status hphase _ _
    rw [hphase] at hs
    exact hs
  · exact fun _ => trivial

theorem onTime_step (hl : Prompt s l) (hs : OnTime c₀ s) (h : step private6 cfg host publicFirst req s l = some s') :
    OnTime c₀ s' := by
  cases l with
  | tick t =>
    obtain ⟨ht, heq⟩ := Option.ite_none_right_eq_some.mp h
    obtain rfl := Option.some.inj heq
    unfold Prompt at hl
    unfold OnTime at hs ⊢
    cases hphase : s.phase with
    | sleeping deadline wake =>
      rw [hphase] at hl hs
      exact ⟨hs.1, hl, hs.2.2.1.trans (Nat.add_le_add_right ht _), hs.2.2.2⟩
    | done => trivial
    | _ =>
      -- the clock stands still
      rw [hphase] at hl hs
      exact hl ▸ hs
  | host r =>
    obtain rfl := Option.some.inj h
    exact hs
  | observe natCache =>
    obtain rfl := Option.some.inj h
    exact hs
  | own => exact onTime_goOn hs h

/-- The host has a public station with the address `a` and a LAN station with an RVCID. -/
def Reported (private6 : Bytes → Bool) (a : Bytes) (stations : List StationURL) : Prop :=
  (stations.find? (fun u => isPublicAddr private6 u.address)).map StationURL.address = some a ∧
    ((stations.find? (fun u => isPrivateIP private6 u.address)).map (fun u => u.getInt rvcidKey)).getD 0 ≠ 0

/-- The host can be handed over: it has reported, and its UDP port was observed. -/
def Ready (private6 : Bytes → Bool) (a : Bytes) (s : Waiting) : Prop :=
  Reported private6 a s.host.stations ∧ natPortForIP s.natCache a ≠ none

instance (private6 : Bytes → Bool) (a : Bytes) (s : Waiting) : Decidable (Ready private6 a s) := by
  unfold Ready Reported
  infer_instance

/-- The bridge of stations and of observations that were read at different times. -/
theorem bridge_of_reported {a : Bytes} {stations : List StationURL} {natCache : GoMap Bytes ℕ}
    (h : Reported private6 a stations) (hport : natPortForIP natCache a ≠ none) (publicFirst : Bool) :
    (natBridgeStations private6 natCache stations publicFirst).2 = .ok := by
  obtain ⟨hpublic, hrvcid⟩ := h
  obtain ⟨pub, hpub, rfl⟩ := Option.map_eq_some_iff.mp hpublic
  obtain ⟨port, hport⟩ := Option.ne_none_iff_exists'.mp hport
  cases hlan : stations.find? (fun u => isPrivateIP private6 u.address) with
  | none =>
    rw [hlan] at hrvcid
    exact absurd rfl hrvcid
  | some lan =>
    rw [hlan] at hrvcid
    have hne : lan.getInt rvcidKey ≠ 0 := hrvcid
    rw [natBridgeStations_eq hlan hpub hport, if_neg hne]

/-- Where a goroutine that is never late is after the host has been ready from the time `r` on. -/
def Serving (private6 : Bytes → Bool) (a : Bytes) (r : ℕ) (s : Waiting) : Prop :=
  match s.phase with
  | .spawned => s.clock = r
  | .checking deadline => s.clock = r ∧ r < deadline
  | .sleeping _ wake => s.clock ≤ wake ∧ wake ≤ r + hostReplaceURLPoll
  | .bridging deadline stations =>
    -- The second case is that of stations which were read before the host was ready.
    Reported private6 a stations ∧ s.clock ≤ r + hostReplaceURLPoll ∨ s.clock = r ∧ r < deadline
  | .late => False
  | .done => True

variable {a : Bytes} {r : ℕ}

theorem Serving.clock_le (h : Serving private6 a r s) (hrunning : s.phase ≠ .done) :
    s.clock ≤ r + hostReplaceURLPoll := by
  unfold Serving at h
  cases hphase : s.phase with
  | spawned =>
    rw [hphase] at h
    exact h ▸ Nat.le_add_right _ _
  | checking deadline =>
    rw [hphase] at h
    exact h.1 ▸ Nat.le_add_right _ _
  | sleeping deadline wake =>
    rw [hphase] at h
    exact h.1.trans h.2
  | bridging deadline stations =>
    rw [hphase] at h
    rcases h with ⟨-, hle⟩ | ⟨heq, -⟩
    · exact hle
    · exact heq ▸ Nat.le_add_right _ _
  | late =>
    rw [hphase] at h
    exact h.elim
  | done => exact absurd hphase hrunning

/-- A goroutine that has not ended when the host gets ready within the wait. -/
theorem serving_of_onTime (hs : OnTime c₀ s) (hrunning : s.phase ≠ .done)
    (hin : s.clock < c₀ + hostReplaceURLWait) : Serving private6 a s.clock s := by
  unfold OnTime at hs
  unfold Serving
  cases hphase : s.phase with
  | spawned => rfl
  | checking deadline =>
    rw [hphase] at hs
    exact ⟨rfl, hs.1 ▸ hin⟩
  | sleeping deadline wake =>
    rw [hphase] at hs
    exact ⟨hs.2.1, hs.2.2.1⟩
  | bridging deadline stations =>
    rw [hphase] at hs
    exact .inr ⟨rfl, hs.1 ▸ hin⟩
  | late =>
    rw [hphase] at hs
    exact absurd hin (not_lt.mpr hs.1)
  | done => exact absurd hphase hrunning

theorem serving_goOn (hready : Ready private6 a s) (hs : Serving private6 a r s)
    (h : goOn private6 publicFirst req s = some s') : Serving private6 a r s' := by
  have hle := hs.clock_le (not_done_of_goOn h)
  unfold Serving at hs
  refine goOn_cases h ?_ ?_ ?_ ?_ ?_ ?_ ?_
  · intro hphase
    rw [hphase] at hs
    exact ⟨hs, hs ▸ Nat.lt_add_of_pos_right (by decide)⟩
  · intro deadline hphase _
    rw [hphase] at hs
    exact ⟨Nat.le_add_right _ _, hs.1 ▸ le_refl _⟩
  · intro deadline hphase hlate
    rw [hphase] at hs
    exact absurd (hs.1 ▸ hs.2) (not_lt.mpr hlate)
  · intro deadline wake _ _
    exact .inl ⟨hready.1, hle⟩
  · exact fun _ _ _ _ _ => trivial
  · intro deadline stations status hphase hstatus hfailed
    rw [hphase] at hs
    rcases hs with ⟨hreported, -⟩ | hearly
    · exact absurd (hstatus ▸ bridge_of_reported hreported hready.2 publicFirst) hfailed
    · exact hearly
  · intro hphase
    rw [hphase] at hs
    exact hs.elim

theorem serving_step (hl : Prompt s l) (hready : Ready private6 a s) (hs : Serving private6 a r s)
    (h : step private6 cfg host publicFirst req s l = some s') : Serving private6 a r s' := by
  cases l with
  | tick t =>
    obtain ⟨ht, heq⟩ := Option.ite_none_right_eq_some.mp h
    obtain rfl := Option.some.inj heq
    unfold Prompt at hl
    unfold Serving at hs ⊢
    cases hphase : s.phase with
    | sleeping deadline wake =>
      rw [hphase] at hl hs
      exact ⟨hl, hs.2⟩
    | done =>
      rw [hphase] at hs
      exact hs
    | _ =>
      rw [hphase] at hl hs
      exact hl ▸ hs
  | host r =>
    obtain rfl := Option.some.inj h
    exact hs
  | observe natCache =>
    obtain rfl := Option.some.inj h
    exact hs
  | own => exact serving_goOn hready hs h

end Steps

section Results

variable {private6 : Bytes → Bool} {cfg : SecureConnectionConfig} {host : Registrant} {publicFirst : Bool}
  {req : RMCMessage} {env : Env} {m : Store} {peers : UInt32 → Option Peer} {clock : ℕ}
  {natCache : GoMap Bytes ℕ} {s : Waiting} {ls : List Label}

/-- **Every request for the stations of a host is answered once.**  Under every schedule the goroutine makes at
most 78 steps, and until it has ended it can go on.  The answer is the one of the handler; or the bridged
stations of a poll; or, not before the wait is over and when no poll found them, the raw stations. -/
theorem session_urls_answered
    (hrun : run (step private6 cfg host publicFirst req)
      (ask private6 publicFirst req env m peers clock natCache) ls = some s) :
    ls.count .own ≤ 78 ∧
    (s.phase ≠ .done → s.sent = [] ∧
      ∃ t s', run (step private6 cfg host publicFirst req) s [.tick t, .own] = some s') ∧
    (s.phase = .done → ∃ urls t, s.sent = [(t, sessionURLsResponse req urls)] ∧
      (atOnce private6 publicFirst natCache (sessionHost req m peers) = some urls ∧ t = clock ∨
        atOnce private6 publicFirst natCache (sessionHost req m peers) = none ∧
        ∃ ls₁ ls₂ s₁, ls = ls₁ ++ .own :: ls₂ ∧
          run (step private6 cfg host publicFirst req)
            (ask private6 publicFirst req env m peers clock natCache) ls₁ = some s₁ ∧ s₁.clock = t ∧
          ((∃ deadline stations, s₁.phase = .bridging deadline stations ∧
              natBridgeStations private6 s₁.natCache stations publicFirst = (urls, .ok)) ∨
            s₁.phase = .late ∧ urls = s₁.host.stations ∧ clock + hostReplaceURLWait ≤ t ∧
              ∀ status ∈ s₁.polls, status ≠ .ok))) := by
  have hsteps := count_add_measure_le (fun _ _ h => remaining_goOn h)
    (fun _ _ _ hl h => remaining_step hl h) hrun
  cases hfound : atOnce private6 publicFirst natCache (sessionHost req m peers) with
  | some urls =>
    rw [ask_of_atOnce env clock hfound] at hrun hsteps
    obtain ⟨hdone, hsent⟩ := sent_of_done rfl hrun
    refine ⟨?_, fun hrunning => absurd hdone hrunning, fun _ => ⟨urls, clock, hsent, .inl ⟨rfl, rfl⟩⟩⟩
    exact (Nat.le_add_right _ _).trans (hsteps.trans (Nat.zero_le _))
  | none =>
    obtain ⟨peer, -, hask⟩ := ask_of_later env clock hfound
    rw [hask] at hrun hsteps ⊢
    have hpending := run_invariant (fun _ _ _ hs h => pending_step hs h)
      (pending_spawn clock peer natCache) hrun
    refine ⟨(Nat.le_add_right _ _).trans hsteps, fun hrunning => ?_, fun hdone => ?_⟩
    · exact ⟨(hpending.silent hrunning).1, exists_goOn hrunning⟩
    · obtain ⟨ls₁, ls₂, s₁, urls, hls, hrun₁, hpending₁, hrunning₁, hsends, hsent⟩ :=
        answer_of_run (pending_spawn clock peer natCache) (by nofun) hrun hdone
      refine ⟨urls, s₁.clock, hsent, .inr ⟨rfl, ls₁, ls₂, s₁, hls, hrun₁, rfl, ?_⟩⟩
      rcases hsends with hbridged | ⟨hlate, hurls⟩
      · exact .inl hbridged
      · have hdue := hpending₁.due
        unfold DueAfter at hdue
        rw [hlate] at hdue
        exact .inr ⟨hlate, hurls, hdue, (hpending₁.silent hrunning₁).2⟩

/-! A host without an RVCID, which sends its `ReplaceURL` while a joiner waits. -/

def silentHost : Peer where
  stations := [StationURL.prudp.set addressKey lanAddress, StationURL.prudp.set addressKey wanAddress]

def hostedStore : Store :=
  (createSession plainOptions (quietEnv 0 []) ⟨1000, 3⟩ (createRequest 2) newMatchmaking).1

def urlsRequest : RMCMessage := newRMCRequest protocolMatchMaking Method.getSessionURLs 5 (StreamOut.u32 1)

def joinerAsks : Waiting :=
  ask (fun _ => false) false urlsRequest (quietEnv 0 []) hostedStore
    (fun id => if id = 3 then some silentHost else none) 0 observations

def hostReports : List Label :=
  [.own, .own, .host (replaceRequest lanAddress), .tick hostReplaceURLPoll, .own, .own]

theorem done_of_hostReports : ∃ s,
    run (step (fun _ => false) switchPia519Config console false urlsRequest) joinerAsks hostReports = some s ∧
      s.phase = .done :=
  Option.map_eq_some_iff.mp (by decide +kernel)

theorem session_urls_answered_report :
    ∃ s, run (step (fun _ => false) switchPia519Config console false urlsRequest) joinerAsks hostReports = some s ∧
      s.phase = .done ∧ hostReports.count .own ≤ 78 ∧
      ∃ urls t, s.sent = [(t, sessionURLsResponse urlsRequest urls)] := by
  obtain ⟨s, hrun, hdone⟩ := done_of_hostReports
  obtain ⟨hcount, -, hanswer⟩ := session_urls_answered hrun
  obtain ⟨urls, t, hsent, -⟩ := hanswer hdone
  exact ⟨s, hrun, hdone, hcount, urls, t, hsent⟩

/-- In the run `ls` from `s₀` the goroutine has answered once, not later than `t`, with the bridge of the stations
that the host had when a poll began and of the ports that were observed when it ended. -/
def Bridged (private6 : Bytes → Bool) (cfg : SecureConnectionConfig) (host : Registrant) (publicFirst : Bool)
    (req : RMCMessage) (s₀ : Waiting) (ls : List Label) (t : ℕ) (s : Waiting) : Prop :=
  ∃ ls₁ ls₂ ls₃ s₁ s₂ urls, ls = ls₁ ++ .own :: (ls₂ ++ .own :: ls₃) ∧
    run (step private6 cfg host publicFirst req) s₀ ls₁ = some s₁ ∧
    run (step private6 cfg host publicFirst req) s₀ (ls₁ ++ .own :: ls₂) = some s₂ ∧
    natBridgeStations private6 s₂.natCache s₁.host.stations publicFirst = (urls, .ok) ∧ s₂.clock ≤ t ∧
    s.sent = [(s₂.clock, sessionURLsResponse req urls)]

end Results

end NextendoMatchmaking.Matchmaking.SessionURLs
