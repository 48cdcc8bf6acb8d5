import NextendoMatchmaking.Ranking.Competition

/-!
# Rankings and the submissions behind them

The boards after a sequence of submissions (`storeAfter`).  The entry of a player on a board depends on the
player's own accepted submissions for it alone (`lookup_boardsFrom`), and it is their best score, the time of
the first that reached it and the profile of the last (`standing_bestOf`).  From this, what a ranking says about
the whole sequence (`ranking_of_history`).
-/

namespace NextendoMatchmaking.Ranking

open NextendoMatchmaking.TopList

/-- The boards after some submissions. -/
def boardsFrom (boards : Boards) (subs : List Submission) : Boards :=
  subs.foldl (fun boards e => (keepBest e.now e.pid e.body boards).1) boards

/-- Those of a server without a file. -/
def boardsAfter (subs : List Submission) : Boards := boardsFrom ∅ subs

/-- The store of a process with the file `file` after some submissions. -/
def storeAfter (file : Option (List BoardPersisted)) (subs : List Submission) : BoardStore :=
  subs.foldl (fun b e => (recordScore file e.now e.pid e.body b).1) newBoardStore

/-- An accepted submission: who brought what, and when. -/
structure Attempt where
  pid : UInt64
  read : ScoreSubmission
  now : Int
  deriving DecidableEq

def Attempt.board (t : Attempt) : BoardKey := ⟨t.read.tournament, t.read.category⟩

def Submission.attempt (e : Submission) : Option Attempt :=
  (parseScoreSubmission e.body).map (fun x => ⟨e.pid, x, e.now⟩)

/-- The accepted ones of the submissions. -/
def attempts (subs : List Submission) : List Attempt := subs.filterMap Submission.attempt

/-- Those of one player on one board. -/
def attemptsAt (q : BoardKey × UInt64) (subs : List Submission) : List Attempt :=
  (attempts subs).filter (fun t => (t.board, t.pid) = q)

/-- Those of one player in one tournament. -/
def attemptsFor (tour : UInt32) (pid : UInt64) (subs : List Submission) : List Attempt :=
  (attempts subs).filter (fun t => t.read.tournament = tour ∧ t.pid = pid)

/-- The players with an accepted submission for the tournament. -/
def players (tour : UInt32) (subs : List Submission) : Finset UInt64 :=
  (((attempts subs).filter (fun t => t.read.tournament = tour)).map Attempt.pid).toFinset

/-! ### One player on one board -/

/-- `e` is what a ranking should say after these attempts of one player: the best score, the time of the first
attempt that reached it, the profile of the last attempt. -/
structure Standing (history : List Attempt) (e : BoardEntry) : Prop where
  best : ∀ t ∈ history, t.read.score ≤ e.score
  reached : (history.find? (fun t => t.read.score = e.score)).map Attempt.now = some e.instant
  profile : history.getLast?.map (fun t => t.read.profile) = some e.profile

/-- The entry that an attempt leaves where `prev` was. -/
def improve (t : Attempt) : Option BoardEntry → BoardEntry
  | none => ⟨t.pid, t.read.score, t.read.profile, t.now⟩
  | some prev =>
    if t.read.score ≤ prev.score then { prev with profile := t.read.profile }
    else ⟨t.pid, t.read.score, t.read.profile, t.now⟩

/-- The entry that all attempts leave where `prev` was. -/
def bestFrom (prev : Option BoardEntry) (history : List Attempt) : Option BoardEntry :=
  history.foldl (fun prev t => some (improve t prev)) prev

/-- The entry after all attempts. -/
def bestOf (history : List Attempt) : Option BoardEntry := bestFrom none history

variable {e : BoardEntry} {t : Attempt} {history : List Attempt} {sub : Submission} {subs : List Submission}
  {boards : Boards} {q : BoardKey × UInt64} {k : BoardKey} {pid : UInt64} {tour : UInt32}

theorem bestFrom_snoc (prev : Option BoardEntry) (history : List Attempt) (t : Attempt) :
    bestFrom prev (history ++ [t]) = some (improve t (bestFrom prev history)) := by
  simp only [bestFrom, List.foldl_append, List.foldl_cons, List.foldl_nil]

/-- The best score was brought by one of the attempts, at the time of the entry. -/
theorem Standing.exists_attempt (h : Standing history e) :
    ∃ t ∈ history, t.read.score = e.score ∧ t.now = e.instant := by
  obtain ⟨t, hfind, hnow⟩ := Option.map_eq_some_iff.mp h.reached
  have hscore := List.find?_some hfind
  exact ⟨t, List.mem_of_find?_eq_some hfind, of_decide_eq_true hscore, hnow⟩

theorem standing_singleton (t : Attempt) : Standing [t] ⟨t.pid, t.read.score, t.read.profile, t.now⟩ where
  best t' ht' := by
    rw [List.mem_singleton.mp ht']
    exact UInt32.le_refl _
  reached := by simp
  profile := rfl

/-- An attempt that is not better leaves score and time. -/
theorem Standing.snoc_of_le (h : Standing history e) (hle : t.read.score ≤ e.score) :
    Standing (history ++ [t]) { e with profile := t.read.profile } where
  best t' ht' := by
    rcases List.mem_append.mp ht' with hold | hnew
    · exact h.best t' hold
    · rw [List.mem_singleton.mp hnew]
      exact hle
  reached := by
    obtain ⟨t', hfind, hnow⟩ := Option.map_eq_some_iff.mp h.reached
    simp only [List.find?_append, hfind, Option.some_or, Option.map_some, hnow]
  profile := by simp

/-- A better attempt is a standing of its own. -/
theorem Standing.snoc_of_lt (h : Standing history e) (hlt : e.score < t.read.score) :
    Standing (history ++ [t]) ⟨t.pid, t.read.score, t.read.profile, t.now⟩ where
  best t' ht' := by
    rcases List.mem_append.mp ht' with hold | hnew
    · exact UInt32.le_of_lt (UInt32.lt_of_le_of_lt (h.best t' hold) hlt)
    · rw [List.mem_singleton.mp hnew]
      exact UInt32.le_refl _
  reached := by
    have hnone : history.find? (fun t' => t'.read.score = t.read.score) = none := by
      rw [List.find?_eq_none]
      intro t' ht' heq
      have hle := h.best t' ht'
      rw [of_decide_eq_true heq] at hle
      exact UInt32.not_le.mpr hlt hle
    simp [List.find?_append, hnone]
  profile := by simp

/-- **Spec of `bestOf`.**  The induction is on the history from its end: the last attempt decides. -/
theorem standing_bestOf (hsome : history ≠ []) : ∃ e, bestOf history = some e ∧ Standing history e := by
  induction history using List.reverseRecOn with
  | nil => exact absurd rfl hsome
  | append_singleton history t ih =>
    rw [bestOf, bestFrom_snoc]
    by_cases hnil : history = []
    · subst hnil
      exact ⟨_, rfl, standing_singleton t⟩
    · obtain ⟨e, he, hstanding⟩ := ih hnil
      rw [bestOf] at he
      rw [he]
      simp only [improve]
      split
      · rename_i hle
        exact ⟨_, rfl, hstanding.snoc_of_le hle⟩
      · rename_i hlt
        exact ⟨_, rfl, hstanding.snoc_of_lt (UInt32.not_le.mp hlt)⟩

/-! ### All players -/

theorem keepBest_of_attempt_none (h : sub.attempt = none) :
    (keepBest sub.now sub.pid sub.body boards).1 = boards := by
  have hparse : parseScoreSubmission sub.body = none := Option.map_eq_none_iff.mp h
  simp only [keepBest, hparse]

/-- **Spec of `recordScore`** behind `boardInit`, for an accepted submission. -/
theorem keepBest_of_attempt (h : sub.attempt = some t) :
    (keepBest sub.now sub.pid sub.body boards).1 =
      boards.insert (t.board, t.pid) (improve t (boards.lookup (t.board, t.pid))) := by
  obtain ⟨x, hparse, rfl⟩ := Option.map_eq_some_iff.mp h
  simp only [keepBest, hparse, Attempt.board]
  cases boards.lookup (⟨x.tournament, x.category⟩, sub.pid) with
  | none => rfl
  | some prev =>
    simp only [improve]
    split <;> rfl

theorem boardsFrom_snoc (boards : Boards) (subs : List Submission) (sub : Submission) :
    boardsFrom boards (subs ++ [sub]) = (keepBest sub.now sub.pid sub.body (boardsFrom boards subs)).1 := by
  simp only [boardsFrom, List.foldl_append, List.foldl_cons, List.foldl_nil]

/-- The first submission of a process makes it read its file, whatever becomes of the submission. -/
theorem storeAfter_eq (file : Option (List BoardPersisted)) (hsome : subs ≠ []) :
    storeAfter file subs = ⟨boardsFrom (loadedBoards file) subs, true, nofun⟩ := by
  induction subs using List.reverseRecOn with
  | nil => exact absurd rfl hsome
  | append_singleton subs sub ih =>
    have hread : (boardInit file (storeAfter file subs)).boards = boardsFrom (loadedBoards file) subs := by
      by_cases hnil : subs = []
      · subst hnil
        rfl
      · rw [ih hnil]
        rfl
    have hsnoc : storeAfter file (subs ++ [sub]) =
        (recordScore file sub.now sub.pid sub.body (storeAfter file subs)).1 := by
      simp only [storeAfter, List.foldl_append, List.foldl_cons, List.foldl_nil]
    rw [hsnoc]
    unfold recordScore
    simp only [hread, boardsFrom_snoc]

theorem storeAfter_none (hsome : subs ≠ []) : storeAfter none subs = ⟨boardsAfter subs, true, nofun⟩ :=
  storeAfter_eq none hsome

theorem attempts_snoc (subs : List Submission) (sub : Submission) :
    attempts (subs ++ [sub]) = attempts subs ++ sub.attempt.toList := by
  cases h : sub.attempt <;> simp [attempts, h]

/-- **Each player for themselves.**  An entry depends on the attempts of its player on its board alone. -/
theorem lookup_boardsFrom (boards : Boards) (subs : List Submission) (q : BoardKey × UInt64) :
    (boardsFrom boards subs).lookup q = bestFrom (boards.lookup q) (attemptsAt q subs) := by
  induction subs using List.reverseRecOn with
  | nil => rfl
  | append_singleton subs sub ih =>
    simp only [boardsFrom_snoc, attemptsAt, attempts_snoc, List.filter_append] at ih ⊢
    cases h : sub.attempt with
    | none => simp [keepBest_of_attempt_none h, ih]
    | some t =>
      rw [keepBest_of_attempt h, GoMap.lookup_insert_eq]
      by_cases hq : q = (t.board, t.pid)
      · subst hq
        rw [if_pos rfl, ih]
        simp [bestFrom_snoc]
      · rw [if_neg hq, ih]
        simp [Ne.symm hq]

theorem lookup_boardsAfter (subs : List Submission) (q : BoardKey × UInt64) :
    (boardsAfter subs).lookup q = bestOf (attemptsAt q subs) := lookup_boardsFrom ∅ subs q

theorem storable_boardsAfter (subs : List Submission) : Storable (boardsAfter subs) := by
  induction subs using List.reverseRecOn with
  | nil => exact nofun
  | append_singleton subs sub ih =>
    rw [boardsAfter, boardsFrom_snoc]
    exact storable_keepBest ih _ _ _

/-- What is refused has no effect. -/
theorem boardsAfter_filter (subs : List Submission) :
    boardsAfter (subs.filter (fun sub => (parseScoreSubmission sub.body).isSome)) = boardsAfter subs := by
  unfold boardsAfter
  induction subs using List.reverseRecOn with
  | nil => rfl
  | append_singleton subs sub ih =>
    rw [List.filter_append, boardsFrom_snoc]
    cases h : parseScoreSubmission sub.body with
    | none => simp [h, keepBest, ih]
    | some x => simp [h, boardsFrom_snoc, ih]

theorem standing_of_lookup (h : (boardsAfter subs).lookup q = some e) : Standing (attemptsAt q subs) e := by
  rw [lookup_boardsAfter] at h
  have hsome : attemptsAt q subs ≠ [] := by
    intro hnil
    rw [hnil] at h
    cases h
  obtain ⟨e', he', hstanding⟩ := standing_bestOf hsome
  rw [he'] at h
  cases h
  exact hstanding

theorem mem_boardsAfter : q ∈ boardsAfter subs ↔ ∃ t ∈ attempts subs, (t.board, t.pid) = q := by
  rw [mem_boards, lookup_boardsAfter]
  constructor
  · rintro ⟨e, he⟩
    obtain ⟨t, ht, -⟩ := (standing_of_lookup ((lookup_boardsAfter subs q).trans he)).exists_attempt
    obtain ⟨hmem, hq⟩ := List.mem_filter.mp ht
    exact ⟨t, hmem, of_decide_eq_true hq⟩
  · rintro ⟨t, hmem, hq⟩
    have ht : t ∈ attemptsAt q subs := List.mem_filter.mpr ⟨hmem, decide_eq_true hq⟩
    obtain ⟨e, he, -⟩ := standing_bestOf (List.ne_nil_of_mem ht)
    exact ⟨e, he⟩

/-! ### The ranking of a history -/

/-- Every tournament has one category. -/
def OneCategoryEach (subs : List Submission) : Prop :=
  ∀ t ∈ attempts subs, ∀ t' ∈ attempts subs, t.read.tournament = t'.read.tournament →
    t.read.category = t'.read.category

/-- The submissions came one after the other. -/
def InTime (subs : List Submission) : Prop := subs.Pairwise (fun a b => a.now < b.now)

/-- `entries` is the ranking of the tournament after the submissions. -/
structure RankingOf (tour : UInt32) (subs : List Submission) (entries : List BoardEntry) : Prop where
  count : entries.length = min (players tour subs).card scoreMaxPerBoard
  distinct : (entries.map (fun e => e.pid)).Nodup
  listed : ∀ e ∈ entries, e.pid ∈ players tour subs ∧ Standing (attemptsFor tour e.pid subs) e
  ordered : entries.Pairwise (fun a b => b.score < a.score ∨ a.score = b.score ∧ a.instant < b.instant)
  omitted : ∀ pid ∈ players tour subs, pid ∉ entries.map (fun e => e.pid) →
    ∃ b, b.pid = pid ∧ Standing (attemptsFor tour pid subs) b ∧
      ∀ a ∈ entries, b.score < a.score ∨ a.score = b.score ∧ a.instant < b.instant

theorem now_injective (htime : InTime subs) {t' : Attempt} (ht : t ∈ attempts subs) (ht' : t' ∈ attempts subs)
    (hnow : t.now = t'.now) : t = t' := by
  have hincreasing : (attempts subs).Pairwise (fun a b => a.now < b.now) := by
    refine List.Pairwise.filterMap _ ?_ htime
    intro a b hab t ht t' ht'
    obtain ⟨x, -, rfl⟩ := Option.map_eq_some_iff.mp ht
    obtain ⟨x', -, rfl⟩ := Option.map_eq_some_iff.mp ht'
    exact hab
  have hnodup : ((attempts subs).map Attempt.now).Nodup :=
    List.pairwise_map.mpr (hincreasing.imp (fun hlt => ne_of_lt hlt))
  exact List.inj_on_of_nodup_map hnodup ht ht' hnow

/-- The scores of different entries came at different times. -/
theorem distinctInstants_boardsAfter (htime : InTime subs) : DistinctInstants (boardsAfter subs) := by
  intro q q' e e' he he' hinstant
  obtain ⟨t, ht, -, hnow⟩ := (standing_of_lookup he).exists_attempt
  obtain ⟨t', ht', -, hnow'⟩ := (standing_of_lookup he').exists_attempt
  obtain ⟨hmem, hq⟩ := List.mem_filter.mp ht
  obtain ⟨hmem', hq'⟩ := List.mem_filter.mp ht'
  obtain rfl := now_injective htime hmem hmem' (hnow.trans (hinstant.trans hnow'.symm))
  exact (of_decide_eq_true hq).symm.trans (of_decide_eq_true hq')

section OneCategory

variable {cat : UInt32} (hcat : ∀ t ∈ attempts subs, t.read.tournament = tour → t.read.category = cat)

include hcat

theorem board_eq_iff (ht : t ∈ attempts subs) : t.board = ⟨tour, cat⟩ ↔ t.read.tournament = tour := by
  simp only [Attempt.board, BoardKey.mk.injEq]
  exact ⟨fun h => h.1, fun h => ⟨h, hcat t ht h⟩⟩

theorem attemptsFor_eq (pid : UInt64) : attemptsFor tour pid subs = attemptsAt (⟨tour, cat⟩, pid) subs := by
  refine List.filter_congr (fun t ht => ?_)
  simp only [Prod.mk.injEq, board_eq_iff hcat ht]

theorem mem_players : pid ∈ players tour subs ↔ (⟨tour, cat⟩, pid) ∈ boardsAfter subs := by
  rw [mem_boardsAfter]
  simp only [players, List.mem_toFinset, List.mem_map, List.mem_filter, decide_eq_true_eq, Prod.mk.injEq]
  constructor
  · rintro ⟨t, ⟨ht, htour⟩, hpid⟩
    exact ⟨t, ht, (board_eq_iff hcat ht).mpr htour, hpid⟩
  · rintro ⟨t, ht, hboard, hpid⟩
    exact ⟨t, ⟨ht, (board_eq_iff hcat ht).mp hboard⟩, hpid⟩

theorem card_players {pids : List UInt64} (hpids : ListsPlayers pids ⟨tour, cat⟩ (boardsAfter subs)) :
    (players tour subs).card = pids.length := by
  have hset : players tour subs = pids.toFinset := by
    ext pid
    rw [mem_players hcat, List.mem_toFinset, hpids.2 pid]
  rw [hset, List.toFinset_card_of_nodup hpids.1]

/-- The category is found, if there is an attempt at all. -/
theorem boardCategoryFor_boardsAfter {keys : List BoardKey} (hkeys : ListsBoards keys (boardsAfter subs))
    (ht : t ∈ attempts subs) (htour : t.read.tournament = tour) : boardCategoryFor keys tour = cat := by
  have hlive : LiveBoard t.board (boardsAfter subs) := ⟨t.pid, mem_boardsAfter.mpr ⟨t, ht, rfl⟩⟩
  obtain ⟨pid, hmem⟩ := liveBoard_boardCategoryFor hkeys hlive htour
  obtain ⟨t', ht', hq⟩ := mem_boardsAfter.mp hmem
  have hboard : t'.board = ⟨tour, boardCategoryFor keys tour⟩ := congrArg Prod.fst hq
  have htour' : t'.read.tournament = tour := congrArg BoardKey.tournament hboard
  exact (congrArg BoardKey.category hboard).symm.trans (hcat t' ht' htour')

/-- **What `boardFor` lists is the ranking.** -/
theorem rankingOf_topEntries (htime : InTime subs) {pids : List UInt64}
    (hpids : ListsPlayers pids ⟨tour, cat⟩ (boardsAfter subs)) :
    RankingOf tour subs (topEntries pids tour cat (boardsAfter subs)) := by
  have hkeyed : Keyed (boardsAfter subs) := (storable_boardsAfter subs).keyed
  obtain ⟨l, hl, hshown⟩ := topEntries_lists hkeyed hpids hpids
  have hlookup : ∀ e ∈ l, (boardsAfter subs).lookup (⟨tour, cat⟩, e.pid) = some e := fun e he =>
    (mem_boardEntries hkeyed hpids).mp (hl.perm.mem_iff.mp he)
  have hpidsl : (l.map (fun e => e.pid)).Perm pids := by
    rw [← map_pid_boardEntries hkeyed hpids]
    exact hl.perm.map _
  have hnodup : (l.map (fun e => e.pid)).Nodup := hpidsl.nodup_iff.mpr hpids.1
  -- Of two entries that are listed in this order, the first comes before.
  have hbefore : ∀ a ∈ l, ∀ b ∈ l, a.place ≤ b.place → a ≠ b →
      b.score < a.score ∨ a.score = b.score ∧ a.instant < b.instant := by
    intro a ha b hb hle hne
    refine place_lt_place.mp (lt_of_le_of_ne hle (fun hplace => hne ?_))
    exact place_inj (distinctInstants_boardsAfter htime) (hlookup a ha) (hlookup b hb) hplace
  rw [hshown]
  constructor
  · rw [List.length_take, card_players hcat hpids, ← hpidsl.length_eq, List.length_map, min_comm]
  · rw [List.map_take]
    exact (List.take_sublist _ _).nodup hnodup
  · intro e he
    have hentry := hlookup e (List.mem_of_mem_take he)
    rw [mem_players hcat, attemptsFor_eq hcat]
    exact ⟨mem_boards.mpr ⟨e, hentry⟩, standing_of_lookup hentry⟩
  · have hpairs := (hl.sorted.and hnodup.of_map).imp_of_mem (fun ha hb h => hbefore _ ha _ hb h.1 h.2)
    exact hpairs.sublist (List.take_sublist _ _)
  · intro pid hpid hnot
    rw [mem_players hcat] at hpid
    obtain ⟨b, hb⟩ := mem_boards.mp hpid
    have hbpid : b.pid = pid := hkeyed _ b hb
    subst hbpid
    have hbl : b ∈ l.take scoreMaxPerBoard ++ l.drop scoreMaxPerBoard := by
      rw [List.take_append_drop]
      exact hl.perm.mem_iff.mpr ((mem_boardEntries hkeyed hpids).mpr hb)
    have hbnot : b ∉ l.take scoreMaxPerBoard := fun hmem => hnot (List.mem_map_of_mem hmem)
    have hbdrop := (List.mem_append.mp hbl).resolve_left hbnot
    refine ⟨b, rfl, ?_, fun a ha => ?_⟩
    · rw [attemptsFor_eq hcat]
      exact standing_of_lookup hb
    · refine hbefore a (List.mem_of_mem_take ha) b (List.mem_of_mem_drop hbdrop) (hl.key_le ha hbdrop) ?_
      rintro rfl
      exact hbnot ha

end OneCategory

/-- The row of an entry, as it should be. -/
def fullRow (i : ℕ) (e : BoardEntry) : RankingRow :=
  ⟨UInt32.ofNat (i + 1), e.pid, e.score, nexDateTime e.instant, e.profile⟩

theorem rowOf_eq_fullRow (h : e.profile.length = scoreProfileLen) (i : ℕ) : rowOf i e = fullRow i e := by
  unfold rowOf fullRow fixProfile
  rw [if_neg (not_not.mpr h)]

/-- A submission of a score, with a profile of one byte over and over. -/
def scoreBody (tour cat score : UInt32) (fill : UInt8) : Bytes :=
  StreamOut.u8 0 ++ StreamOut.u32 156 ++ StreamOut.u32 tour ++ StreamOut.u32 cat ++ StreamOut.u32 0 ++
    StreamOut.u32 score ++ List.replicate 6 0 ++ StreamOut.u16 132 ++ List.replicate 132 fill

/-- Two players; the last score of the first is not better, and one body is cut. -/
def sampleSubs : List Submission :=
  [⟨1, scoreBody 7 393 40 1, 10⟩, ⟨2, scoreBody 7 393 60 2, 20⟩, ⟨1, (scoreBody 7 393 90 3).take 100, 30⟩,
    ⟨1, scoreBody 7 393 30 4, 40⟩]

end NextendoMatchmaking.Ranking
