import NextendoMatchmaking.Matchmaking.Tournaments
import NextendoMatchmaking.Ranking.History
import NextendoMatchmaking.Ranking.Profiles

/-!
# The ranking protocol

`RankingHandler` of `nextendo-nex/ranking.go` puts four things behind one protocol: the profiles of the players,
the boards of the tournaments, the raw submissions, which are only kept, and a short list of the tournaments.

* `rankingHandler` — the dispatch, over the stores it writes to;
* `ranking_of_requests` — after any requests, each store tells its file and the history of its own requests, and
  this is what the lookups answer from.
-/

namespace NextendoMatchmaking.Ranking

open NextendoMatchmaking.Matchmaking (TournamentEnv TournamentStore Tournament allTournaments)

/-! ### Submissions -/

/-- `scoresStore`; the pair stands for the text `pid/method` of a key. -/
abbrev Scores := GoMap (UInt64 × UInt32) Bytes

/-- `keepSubmittedScore`. -/
def keepSubmittedScore (pid : UInt64) (method : UInt32) (body : Bytes) (scores : Scores) : Scores :=
  if body.length = 0 ∨ commonDataMaxLen < body.length then scores else scores.insert (pid, method) body

/-- `SubmittedScore`. -/
def submittedScore (pid : UInt64) (method : UInt32) (scores : Scores) : Bytes :=
  (scores.lookup (pid, method)).getD []

/-! ### The list of the tournaments -/

/-- An entry of `TournamentSummaries`. -/
def writeSummary (t : Tournament) : Bytes :=
  [1] ++ StreamOut.u32 28 ++ StreamOut.u32 t.id ++ StreamOut.u32 (UInt32.ofNat t.participants.length) ++
    StreamOut.u32 4 ++ StreamOut.u32 0 ++ StreamOut.u32 0 ++ StreamOut.u32 0 ++ StreamOut.u32 0

/-- `TournamentSummaries`. -/
def tournamentSummaries (env : TournamentEnv) (t : TournamentStore) : TournamentStore × Bytes :=
  let (t, list) := allTournaments env t
  (t, StreamOut.u32 (UInt32.ofNat list.length) ++ list.flatMap writeSummary)

/-! ### Dispatch -/

def methodUploadCommonData : UInt32 := 0x4
def methodRankingCompetitionRanking : UInt32 := 0x10
def methodRankingSubmitScore : UInt32 := 0x11
def methodRankingGetCompetitionInfo : UInt32 := 0x12
def methodRankingSubmitTime : UInt32 := 0x13
def methodRankingCommonDataByPIDs : UInt32 := 0x16

/-- What the protocol writes to. -/
structure RankingStores where
  profiles : CommonData
  boards : BoardStore
  scores : Scores

/-- What a request finds outside: the file of the boards, the instant of a score, the orders of the iterations over
the boards, and the tournaments. -/
structure RankingEnv where
  boardFile : Option (List BoardPersisted)
  now : Int
  visits : Visits
  tournaments : TournamentEnv

/-- `RankingHandler`. -/
def rankingHandler (s : Settings) (env : RankingEnv) (pid : UInt64) (req : RMCMessage) (t : TournamentStore)
    (r : RankingStores) : TournamentStore × RankingStores × RMCMessage :=
  if req.method = methodUploadCommonData then
    let (profiles, resp) := uploadCommonData pid req r.profiles
    (t, { r with profiles }, resp)
  else if req.method = methodRankingCommonDataByPIDs then (t, r, commonDataByPIDs s req r.profiles)
  else if req.method = methodRankingGetCompetitionInfo then
    let (t, body) := tournamentSummaries env.tournaments t
    (t, r, newRMCSuccess protocolRanking req.method req.callID body)
  else if req.method = methodRankingCompetitionRanking then
    let (boards, resp) := competitionRanking env.boardFile env.visits req r.boards
    (t, { r with boards }, resp)
  else if req.method = methodRankingSubmitScore ∨ req.method = methodRankingSubmitTime then
    -- both kinds are kept, and a score also counts for its board
    let scores := keepSubmittedScore pid req.method req.body r.scores
    let boards :=
      if req.method = methodRankingSubmitScore then (recordScore env.boardFile env.now pid req.body r.boards).1
      else r.boards
    (t, { r with scores, boards }, newRMCSuccess protocolRanking req.method req.callID [0])
  else (t, r, newRMCError protocolRanking req.callID resultCoreNotImplemented)

/-! ### Histories -/

/-- A request to the protocol, with what it finds. -/
structure RankingCall where
  pid : UInt64
  req : RMCMessage
  env : RankingEnv
  tournaments : TournamentStore

/-- The stores of a server with these files after some requests.  All that touches the profiles reads their file
first, and a request that comes before it sees no difference. -/
def rankingAfter (s : Settings) (profileFile : Option CommonData) (boardFile : Option (List BoardPersisted))
    (history : List RankingCall) : RankingStores :=
  history.foldl (fun r c => (rankingHandler s { c.env with boardFile } c.pid c.req c.tournaments r).2.1)
    ⟨loadCommonData profileFile, newBoardStore, ∅⟩

/-- The uploads of a history. -/
def uploads (history : List RankingCall) : List (UInt64 × RMCMessage) :=
  (history.filter (fun c => c.req.method = methodUploadCommonData)).map (fun c => (c.pid, c.req))

/-- The scores of a history. -/
def submissions (history : List RankingCall) : List Submission :=
  (history.filter (fun c => c.req.method = methodRankingSubmitScore)).map (fun c => ⟨c.pid, c.req.body, c.env.now⟩)

/-- A request that makes the server read the file of the boards. -/
def RankingCall.opensBoards (c : RankingCall) : Bool :=
  c.req.method = methodRankingSubmitScore ∨
    c.req.method = methodRankingCompetitionRanking ∧ 13 ≤ c.req.body.length

/-- The boards of a history: empty until a request opens them, then those of the file with the scores. -/
def boardsOver (file : Option (List BoardPersisted)) (history : List RankingCall) : BoardStore :=
  if history.any RankingCall.opensBoards then ⟨boardsFrom (loadedBoards file) (submissions history), true, nofun⟩
  else newBoardStore

/-- What is kept of a request under a player and a method. -/
def keptFrom (pid : UInt64) (method : UInt32) (c : RankingCall) : Option Bytes :=
  if c.pid = pid ∧ c.req.method = method ∧
      (method = methodRankingSubmitScore ∨ method = methodRankingSubmitTime) ∧ Takes c.req.body then
    some c.req.body
  else none

/-- The last submission of a player under a method that is not empty and not too long. -/
def lastSubmission (history : List RankingCall) (pid : UInt64) (method : UInt32) : Option Bytes :=
  (history.filterMap (keptFrom pid method)).getLast?

section Histories

variable {s : Settings} {profileFile : Option CommonData} {boardFile : Option (List BoardPersisted)}
  {history : List RankingCall} {c : RankingCall}

theorem rankingAfter_snoc : rankingAfter s profileFile boardFile (history ++ [c]) =
    (rankingHandler s { c.env with boardFile } c.pid c.req c.tournaments
      (rankingAfter s profileFile boardFile history)).2.1 := by
  unfold rankingAfter
  rw [List.foldl_append]
  rfl

/-- Every request writes to the stores that it is for. -/
theorem rankingHandler_stores (t : TournamentStore) (r : RankingStores) :
    (rankingHandler s { c.env with boardFile } c.pid c.req t r).2.1 =
      { profiles := if c.req.method = methodUploadCommonData then (uploadCommonData c.pid c.req r.profiles).1
          else r.profiles
        boards := if c.req.method = methodRankingSubmitScore then
            (recordScore boardFile c.env.now c.pid c.req.body r.boards).1
          else if c.req.method = methodRankingCompetitionRanking then
            (competitionRanking boardFile c.env.visits c.req r.boards).1
          else r.boards
        scores := if c.req.method = methodRankingSubmitScore ∨ c.req.method = methodRankingSubmitTime then
            keepSubmittedScore c.pid c.req.method c.req.body r.scores else r.scores } := by
  unfold rankingHandler
  split
  · rename_i h
    rw [h]
    rfl
  split
  · rename_i h
    rw [h]
    rfl
  split
  · rename_i h
    rw [h]
    rfl
  split
  · rename_i h
    rw [h]
    rfl
  split
  · rfl
  · rename_i hsubmit
    rw [if_neg (fun hscore => hsubmit (.inl hscore))]

theorem uploads_snoc : uploads (history ++ [c]) =
    uploads history ++ if c.req.method = methodUploadCommonData then [(c.pid, c.req)] else [] := by
  unfold uploads
  rw [List.filter_append, List.map_append]
  by_cases h : c.req.method = methodUploadCommonData <;> simp [h]

theorem submissions_snoc : submissions (history ++ [c]) =
    submissions history ++
      if c.req.method = methodRankingSubmitScore then [⟨c.pid, c.req.body, c.env.now⟩] else [] := by
  unfold submissions
  rw [List.filter_append, List.map_append]
  by_cases h : c.req.method = methodRankingSubmitScore <;> simp [h]

theorem lastSubmission_snoc (pid : UInt64) (method : UInt32) : lastSubmission (history ++ [c]) pid method =
    (keptFrom pid method c).or (lastSubmission history pid method) := by
  unfold lastSubmission
  rw [List.filterMap_append, List.getLast?_append, List.filterMap_cons, List.filterMap_nil]
  cases keptFrom pid method c <;> rfl

theorem profiles_rankingAfter :
    (rankingAfter s profileFile boardFile history).profiles = profilesAfter profileFile (uploads history) := by
  induction history using List.reverseRecOn with
  | nil => rfl
  | append_singleton history c ih =>
    rw [rankingAfter_snoc, rankingHandler_stores, uploads_snoc]
    dsimp only
    split
    · rw [ih, profilesAfter, profilesAfter, List.foldl_append]
      rfl
    · rw [ih, List.append_nil]

/-- Boards that no request has opened have no scores. -/
theorem submissions_of_unopened (h : history.any RankingCall.opensBoards = false) : submissions history = [] := by
  rw [submissions, List.map_eq_nil_iff, List.filter_eq_nil_iff]
  intro c hc hscore
  rw [List.any_eq_false] at h
  exact h c hc (decide_eq_true (.inl (of_decide_eq_true hscore)))

theorem boardInit_boardsOver : boardInit boardFile (boardsOver boardFile history) =
    ⟨boardsFrom (loadedBoards boardFile) (submissions history), true, nofun⟩ := by
  cases hopen : history.any RankingCall.opensBoards with
  | true =>
    rw [boardsOver, if_pos hopen]
    rfl
  | false =>
    have hunopened : boardsOver boardFile history = newBoardStore := by
      rw [boardsOver, if_neg (by rw [hopen]; exact Bool.false_ne_true)]
    rw [hunopened, boardInit_of_not_once rfl]
    simp only [submissions_of_unopened hopen]
    rfl

theorem boardsOver_of_opens (h : c.opensBoards = true) : boardsOver boardFile (history ++ [c]) =
    ⟨boardsFrom (loadedBoards boardFile) (submissions (history ++ [c])), true, nofun⟩ := by
  unfold boardsOver
  rw [if_pos]
  rw [List.any_append, List.any_cons, h, Bool.true_or, Bool.or_true]

theorem boardsOver_of_not_opens (h : c.opensBoards = false) :
    boardsOver boardFile (history ++ [c]) = boardsOver boardFile history := by
  have hscore : ¬ c.req.method = methodRankingSubmitScore := fun hscore =>
    of_decide_eq_false h (.inl hscore)
  have hany : (history ++ [c]).any RankingCall.opensBoards = history.any RankingCall.opensBoards := by
    rw [List.any_append, List.any_cons, h, List.any_nil, Bool.or_self, Bool.or_false]
  unfold boardsOver
  rw [hany]
  simp only [submissions_snoc, if_neg hscore, List.append_nil]

theorem boards_rankingAfter :
    (rankingAfter s profileFile boardFile history).boards = boardsOver boardFile history := by
  induction history using List.reverseRecOn with
  | nil => rfl
  | append_singleton history c ih =>
    rw [rankingAfter_snoc, rankingHandler_stores]
    dsimp only
    rw [ih]
    split
    · rename_i hscore
      rw [boardsOver_of_opens (decide_eq_true (.inl hscore)), recordScore, boardInit_boardsOver]
      simp only [submissions_snoc, if_pos hscore, boardsFrom_snoc]
    · rename_i hscore
      split
      · rename_i hranking
        by_cases hbody : 13 ≤ c.req.body.length
        · rw [boardsOver_of_opens (decide_eq_true (.inr ⟨hranking, hbody⟩)), competitionRanking_store _ hbody,
            boardInit_boardsOver]
          simp only [submissions_snoc, if_neg hscore, List.append_nil]
        · rw [boardsOver_of_not_opens (decide_eq_false (fun h => h.elim hscore (fun h => hbody h.2))),
            competitionRanking, if_pos (not_le.mp hbody)]
      · rename_i hranking
        rw [boardsOver_of_not_opens (decide_eq_false (fun h => h.elim hscore (fun h => hranking h.1)))]

theorem lookup_keepSubmittedScore (pid pid' : UInt64) (method method' : UInt32) (body : Bytes) (scores : Scores) :
    (keepSubmittedScore pid' method' body scores).lookup (pid, method) =
      if pid' = pid ∧ method' = method ∧ Takes body then some body else scores.lookup (pid, method) := by
  unfold keepSubmittedScore
  by_cases htakes : Takes body
  · have hlen : ¬ (body.length = 0 ∨ commonDataMaxLen < body.length) := by
      unfold Takes at htakes
      omega
    rw [if_neg hlen, GoMap.lookup_insert_eq]
    simp only [Prod.mk.injEq, htakes, and_true, eq_comm]
  · have hlen : body.length = 0 ∨ commonDataMaxLen < body.length := by
      unfold Takes at htakes
      omega
    rw [if_pos hlen, if_neg (fun h => htakes h.2.2)]

theorem lookup_scores_rankingAfter (pid : UInt64) (method : UInt32) :
    (rankingAfter s profileFile boardFile history).scores.lookup (pid, method) = lastSubmission history pid method := by
  induction history using List.reverseRecOn with
  | nil => rfl
  | append_singleton history c ih =>
    rw [rankingAfter_snoc, rankingHandler_stores, lastSubmission_snoc, ← ih, keptFrom]
    dsimp only
    by_cases hsubmit : c.req.method = methodRankingSubmitScore ∨ c.req.method = methodRankingSubmitTime
    · rw [if_pos hsubmit, lookup_keepSubmittedScore]
      by_cases hkept : c.pid = pid ∧ c.req.method = method ∧ Takes c.req.body
      · rw [if_pos hkept, if_pos ⟨hkept.1, hkept.2.1, hkept.2.1 ▸ hsubmit, hkept.2.2⟩]
        rfl
      · rw [if_neg hkept, if_neg (fun h => hkept ⟨h.1, h.2.1, h.2.2.2⟩)]
        rfl
    · rw [if_neg hsubmit, if_neg]
      · rfl
      · rintro ⟨-, rfl, hmethod, -⟩
        exact hsubmit hmethod

end Histories

/-- **The stores do not mix.**  For every file of profiles and every file of boards, after any requests of any
players: a lookup of profiles is answered from the file of profiles and the uploads, a ranking from boards that are
empty until a score or a ranking is asked for and then are those on their file, each entry improved by the accepted
scores of its own player, and the submission that is kept for a player and a method is the last acceptable one. -/
theorem ranking_of_requests (s : Settings) (profileFile : Option CommonData)
    (boardFile : Option (List BoardPersisted)) (history : List RankingCall) (env : RankingEnv)
    (pid : UInt64) (req : RMCMessage) (t : TournamentStore) :
    (req.method = methodRankingCommonDataByPIDs →
      (rankingHandler s { env with boardFile } pid req t (rankingAfter s profileFile boardFile history)).2.2 =
        commonDataByPIDs s req (profilesAfter profileFile (uploads history))) ∧
    (req.method = methodRankingCompetitionRanking →
      (rankingHandler s { env with boardFile } pid req t (rankingAfter s profileFile boardFile history)).2.2 =
        (competitionRanking boardFile env.visits req (boardsOver boardFile history)).2) ∧
    (∀ q, (boardInit boardFile (boardsOver boardFile history)).boards.lookup q =
      bestFrom ((loadedBoards boardFile).lookup q) (attemptsAt q (submissions history))) ∧
    ∀ pid method, submittedScore pid method (rankingAfter s profileFile boardFile history).scores =
      (lastSubmission history pid method).getD [] := by
  refine ⟨fun h => ?_, fun h => ?_, fun q => ?_, fun pid method => ?_⟩
  · rw [← profiles_rankingAfter (s := s)]
    unfold rankingHandler
    rw [h]
    rfl
  · have hboards : (rankingAfter s profileFile boardFile history).boards = boardsOver boardFile history :=
      boards_rankingAfter
    rw [← hboards]
    unfold rankingHandler
    rw [h]
    rfl
  · rw [boardInit_boardsOver]
    exact lookup_boardsFrom _ _ q
  · rw [submittedScore, lookup_scores_rankingAfter]

/-- A request for the ranking of the tournament 7. -/
def rankingCall : RankingCall :=
  ⟨1, rankingRequest 7, ⟨none, 0, ⟨[], [], []⟩, ⟨none, fun _ => 0, fun _ => 0, 0, []⟩⟩,
    Matchmaking.newTournamentStore⟩

/-- A ranking that is asked for twice after a restart: the first request answers from boards that have not been
read, the second from those on the file. -/
theorem ranking_of_requests_restart :
    ((boardsOver (some twoOnFile) []).once = false ∧
      (rankingHandler (newSwitchSettings [] 0) { rankingCall.env with boardFile := some twoOnFile } 1
          rankingCall.req rankingCall.tournaments
          (rankingAfter (newSwitchSettings [] 0) none (some twoOnFile) [])).2.2 =
        (competitionRanking (some twoOnFile) rankingCall.env.visits rankingCall.req
          (boardsOver (some twoOnFile) [])).2) ∧
    (boardsOver (some twoOnFile) [rankingCall]).once = true ∧
      (rankingHandler (newSwitchSettings [] 0) { rankingCall.env with boardFile := some twoOnFile } 1
          rankingCall.req rankingCall.tournaments
          (rankingAfter (newSwitchSettings [] 0) none (some twoOnFile) [rankingCall])).2.2 =
        (competitionRanking (some twoOnFile) rankingCall.env.visits rankingCall.req
          (boardsOver (some twoOnFile) [rankingCall])).2 :=
  ⟨⟨rfl, (ranking_of_requests _ none (some twoOnFile) [] _ 1 _ _).2.1 rfl⟩, rfl,
    (ranking_of_requests _ none (some twoOnFile) [rankingCall] _ 1 _ _).2.1 rfl⟩

end NextendoMatchmaking.Ranking
