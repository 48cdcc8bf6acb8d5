import Mathlib.Data.Prod.Lex
import NextendoMatchmaking.Library.TopList
import NextendoMatchmaking.Ranking.Board
import NextendoMatchmaking.Wire.Rmc
import NextendoMatchmaking.Wire.RoundTrip

/-!
# The ranking of a tournament

`competitionRanking` of `nextendo-nex/ranking_board.go`: the entries of a board by score (`boardFor`), the
first hundred of them as a page (`writeBoard`), under the category that the server finds for the tournament
(`boardCategoryFor`).  The page is read back by the layout that the head of the source file documents
(`readRanking`), and what comes out is what went in (`readRanking_writeBoard`).

The category is looked up before `boardFor` calls `boardInit`: the first request after a start looks for it in
boards that are still empty.

The loops go over maps, in an order that is new each time (`Visits`).  `sort.Slice` leaves open how equal
entries stand to each other; the orders of the loop cover this, because a sorted list stays as it is.
-/

namespace NextendoMatchmaking.Ranking

open NextendoMatchmaking.TopList

def protocolRanking : UInt16 := 0x70

/-- `scoreEntryBody`: the length that a row announces. -/
def scoreEntryBody : UInt32 := 159

def scoreMaxPerBoard : ℕ := 100

/-! ### Boards in order -/

/-- The comparison of `boardFor`: the higher score, and of equal ones the earlier. -/
def BoardEntry.before (a b : BoardEntry) : Bool :=
  if a.score ≠ b.score then b.score < a.score else a.instant < b.instant

/-- The entries of a board, as the loop of `boardFor` visits the players. -/
def boardEntries (pids : List UInt64) (k : BoardKey) (boards : Boards) : List BoardEntry :=
  pids.filterMap (fun pid => boards.lookup (k, pid))

/-- What `boardFor` lists of the boards behind `boardInit`, with the order of its loop. -/
def topEntries (pids : List UInt64) (tour cat : UInt32) (boards : Boards) : List BoardEntry :=
  ((boardEntries pids ⟨tour, cat⟩ boards).insertionSort (fun a b => !b.before a)).take scoreMaxPerBoard

/-- `boardFor`. -/
def boardFor (file : Option (List BoardPersisted)) (pids : List UInt64) (tour cat : UInt32) (b : BoardStore) :
    BoardStore × List BoardEntry :=
  let b := boardInit file b
  (b, topEntries pids tour cat b.boards)

/-- `boardCategoryFor`, with the order of its loop over the boards. -/
def boardCategoryFor (keys : List BoardKey) (tour : UInt32) : UInt32 :=
  ((keys.find? (fun k => k.tournament = tour)).map (fun k => k.category)).getD 0

/-! ### The page -/

/-- The year, the month and the day of a day after 1970-01-01, as Go's `Time.Date` gives them.  The years are
counted from March, in eras of 400. -/
def civil (day : Int) : Int × Int × Int :=
  let era := (day + 719468) / 146097
  let inEra := (day + 719468) % 146097
  let year := (inEra - inEra / 1460 + inEra / 36524 - inEra / 146096) / 365
  let inYear := inEra - (365 * year + year / 4 - year / 100)
  let month := (5 * inYear + 2) / 153
  (year + era * 400 + (if month < 10 then 0 else 1), if month < 10 then month + 3 else month - 9,
    inYear - (153 * month + 2) / 5 + 1)

/-- `nexDateTime` of an instant in nanoseconds. -/
def nexDateTime (instant : Int) : UInt64 :=
  let seconds := instant / nanoseconds
  let (year, month, day) := civil (seconds / 86400)
  UInt64.ofInt (seconds % 60) ||| (UInt64.ofInt (seconds / 60 % 60) <<< 6) |||
    (UInt64.ofInt (seconds / 3600 % 24) <<< 12) ||| (UInt64.ofInt day <<< 17) |||
    (UInt64.ofInt month <<< 22) ||| (UInt64.ofInt year <<< 26)

example : civil 0 = (1970, 1, 1) ∧ civil 11016 = (2000, 2, 29) ∧ civil 20677 = (2026, 8, 12) := by decide

/-- The profile of a row: cut or filled up to its length. -/
def fixProfile (profile : Bytes) : Bytes :=
  if profile.length ≠ scoreProfileLen then (profile ++ List.replicate scoreProfileLen 0).take scoreProfileLen
  else profile

/-- One row of `writeBoard`. -/
def writeRow (i : ℕ) (e : BoardEntry) : Bytes :=
  StreamOut.u8 0 ++ StreamOut.u32 scoreEntryBody ++ StreamOut.u32 (UInt32.ofNat (i + 1)) ++
    StreamOut.u64 e.pid ++ StreamOut.u32 e.score ++ StreamOut.u64 (nexDateTime e.instant) ++
    StreamOut.u8 0xff ++ StreamOut.u16 (UInt16.ofNat scoreProfileLen) ++ fixProfile e.profile

/-- The page of `writeBoard`: the header, the rows, the footer. -/
def writePage (cat : UInt32) (entries : List BoardEntry) : Bytes :=
  StreamOut.u32 cat ++ StreamOut.u32 (UInt32.ofNat entries.length) ++
    entries.zipIdx.flatMap (fun p => writeRow p.2 p.1) ++
    (StreamOut.u32 (UInt32.ofNat entries.length) ++ StreamOut.u32 4 ++ List.replicate 16 0)

/-- `writeBoard`. -/
def writeBoard (cat : UInt32) (entries : List BoardEntry) : Bytes :=
  StreamOut.u32 1 ++ StreamOut.u8 0 ++ StreamOut.u32 (UInt32.ofNat (writePage cat entries).length) ++
    writePage cat entries

/-- The orders in which a request visits the boards for the category of the entries, the players of that
board, and the boards again for the category of the header. -/
structure Visits where
  keys : List BoardKey
  pids : List UInt64
  keys' : List BoardKey

/-- `competitionRanking`. -/
def competitionRanking (file : Option (List BoardPersisted)) (v : Visits) (req : RMCMessage) (b : BoardStore) :
    BoardStore × RMCMessage :=
  let empty := newRMCSuccess protocolRanking req.method req.callID (StreamOut.u32 0)
  if req.body.length < 13 then (b, empty)
  else
    let tour := le32At req.body 5
    -- the argument, and so the category, comes before the call
    let cat := boardCategoryFor v.keys tour
    let (b, entries) := boardFor file v.pids tour cat b
    if entries.length = 0 then (b, empty)
    else (b, newRMCSuccess protocolRanking req.method req.callID
      (writeBoard (boardCategoryFor v.keys' tour) entries))

/-! ### The documented layout -/

/-- A row, without its constants. -/
structure RankingRow where
  rank : UInt32
  pid : UInt64
  score : UInt32
  date : UInt64
  profile : Bytes
  deriving DecidableEq

structure RankingPage where
  category : UInt32
  rows : List RankingRow
  total : UInt32
  deriving DecidableEq

/-- The number of 64 bits at `offset`. -/
def le64At (body : Bytes) (offset : ℕ) : UInt64 := UInt64.ofNat (leNat ((body.drop offset).take 8))

/-- A row of 164 bytes: `u8 0`, `u32 159`, rank, PID, score, date, `u8 0xff`, `u16 132`, profile. -/
def readRow (row : Bytes) : Option RankingRow :=
  if row.length = 164 ∧ row.head? = some 0 ∧ le32At row 1 = 159 ∧ (row.drop 29).head? = some 0xff ∧
      leNat ((row.drop 30).take 2) = 132 then
    some ⟨le32At row 5, le64At row 9, le32At row 17, le64At row 21, row.drop 32⟩
  else none

/-- `n` rows, and nothing behind them. -/
def readRows : ℕ → Bytes → Option (List RankingRow)
  | 0, rows => if rows = [] then some [] else none
  | n + 1, rows =>
    match readRow (rows.take 164), readRows n (rows.drop 164) with
    | some row, some more => some (row :: more)
    | _, _ => none

/-- A page: a header of 8 bytes, the rows that it announces, a footer of 24 bytes. -/
def readPage (page : Bytes) : Option RankingPage :=
  let count := (le32At page 4).toNat
  let footer := (page.drop 8).drop (164 * count)
  if footer.length = 24 ∧ le32At footer 4 = 4 ∧ footer.drop 8 = List.replicate 16 0 then
    (readRows count ((page.drop 8).take (164 * count))).map (fun rows =>
      ⟨le32At page 0, rows, le32At footer 0⟩)
  else none

/-- The answer to a request: one page, behind its version and its length. -/
def readRanking (body : Bytes) : Option RankingPage :=
  if le32At body 0 = 1 ∧ (body.drop 4).head? = some 0 ∧ (le32At body 5).toNat = (body.drop 9).length then
    readPage (body.drop 9)
  else none

/-- The row of the entry at the place `i`. -/
def rowOf (i : ℕ) (e : BoardEntry) : RankingRow :=
  ⟨UInt32.ofNat (i + 1), e.pid, e.score, nexDateTime e.instant, fixProfile e.profile⟩

theorem length_fixProfile (profile : Bytes) : (fixProfile profile).length = 132 := by
  unfold fixProfile scoreProfileLen
  split
  · rw [List.length_take, List.length_append, List.length_replicate]
    omega
  · rename_i hlength
    exact not_not.mp hlength

theorem ofNat_leNat_u32 (v : UInt32) : UInt32.ofNat (leNat (StreamOut.u32 v)) = v := by
  rw [StreamOut.u32, leNat_leBytes 4 _ v.toNat_lt]
  exact UInt32.ofNat_toNat

theorem ofNat_leNat_u64 (v : UInt64) : UInt64.ofNat (leNat (StreamOut.u64 v)) = v := by
  rw [StreamOut.u64, leNat_leBytes 8 _ v.toNat_lt]
  exact UInt64.ofNat_toNat

theorem length_writeRow (i : ℕ) (e : BoardEntry) : (writeRow i e).length = 164 := by
  simp only [writeRow, StreamOut.u8, StreamOut.u16, StreamOut.u32, StreamOut.u64, List.length_append,
    length_leBytes, List.length_singleton, length_fixProfile]

theorem readRow_writeRow (i : ℕ) (e : BoardEntry) : readRow (writeRow i e) = some (rowOf i e) := by
  have hrank : le32At (writeRow i e) 5 = UInt32.ofNat (i + 1) := ofNat_leNat_u32 _
  have hpid : le64At (writeRow i e) 9 = e.pid := ofNat_leNat_u64 _
  have hscore : le32At (writeRow i e) 17 = e.score := ofNat_leNat_u32 _
  have hdate : le64At (writeRow i e) 21 = nexDateTime e.instant := ofNat_leNat_u64 _
  have hprofile : (writeRow i e).drop 32 = fixProfile e.profile := rfl
  unfold readRow
  rw [if_pos ⟨length_writeRow i e, rfl, ofNat_leNat_u32 _, rfl, rfl⟩, hrank, hpid, hscore, hdate, hprofile]
  rfl

/-- The rows of a page, from the place `n` on. -/
theorem readRows_writeRows (entries : List BoardEntry) (n : ℕ) :
    readRows entries.length ((entries.zipIdx n).flatMap (fun p => writeRow p.2 p.1)) =
      some ((entries.zipIdx n).map (fun p => rowOf p.2 p.1)) := by
  induction entries generalizing n with
  | nil => rfl
  | cons e entries ih =>
    rw [List.zipIdx_cons, List.flatMap_cons, List.map_cons, List.length_cons, readRows,
      List.take_left' (length_writeRow n e), List.drop_left' (length_writeRow n e), readRow_writeRow,
      ih (n + 1)]

theorem length_writeRows (entries : List BoardEntry) (n : ℕ) :
    ((entries.zipIdx n).flatMap (fun p => writeRow p.2 p.1)).length = 164 * entries.length := by
  induction entries generalizing n with
  | nil => rfl
  | cons e entries ih =>
    rw [List.zipIdx_cons, List.flatMap_cons, List.length_append, ih (n + 1), length_writeRow, List.length_cons]
    omega

theorem length_writePage (cat : UInt32) (entries : List BoardEntry) :
    (writePage cat entries).length = 164 * entries.length + 32 := by
  simp only [writePage, StreamOut.u32, List.length_append, length_leBytes, length_writeRows,
    List.length_replicate]
  omega

theorem readPage_writePage (cat : UInt32) {entries : List BoardEntry} (hfew : entries.length < 2 ^ 32) :
    readPage (writePage cat entries) =
      some ⟨cat, entries.zipIdx.map (fun p => rowOf p.2 p.1), UInt32.ofNat entries.length⟩ := by
  have hcount : (le32At (writePage cat entries) 4).toNat = entries.length := by
    have hword : le32At (writePage cat entries) 4 = UInt32.ofNat entries.length := ofNat_leNat_u32 _
    rw [hword]
    exact UInt32.toNat_ofNat_of_lt' hfew
  have hcat : le32At (writePage cat entries) 0 = cat := ofNat_leNat_u32 _
  have hbody : (writePage cat entries).drop 8 = entries.zipIdx.flatMap (fun p => writeRow p.2 p.1) ++
      (StreamOut.u32 (UInt32.ofNat entries.length) ++ StreamOut.u32 4 ++ List.replicate 16 0) := rfl
  have hrows := length_writeRows entries 0
  unfold readPage
  dsimp only
  rw [hcount, hcat, hbody, List.drop_left' hrows, List.take_left' hrows, readRows_writeRows]
  have htotal : le32At (StreamOut.u32 (UInt32.ofNat entries.length) ++ StreamOut.u32 4 ++
      List.replicate 16 0) 0 = UInt32.ofNat entries.length := ofNat_leNat_u32 _
  rw [if_pos ⟨rfl, ofNat_leNat_u32 _, rfl⟩, htotal]
  rfl

/-- **The page is read back**, when its length fits its field. -/
theorem readRanking_writeBoard (cat : UInt32) {entries : List BoardEntry}
    (hfew : entries.length ≤ scoreMaxPerBoard) :
    readRanking (writeBoard cat entries) =
      some ⟨cat, entries.zipIdx.map (fun p => rowOf p.2 p.1), UInt32.ofNat entries.length⟩ := by
  have hmax : scoreMaxPerBoard = 100 := rfl
  have hpage : (writeBoard cat entries).drop 9 = writePage cat entries := rfl
  have hsize : (le32At (writeBoard cat entries) 5).toNat = (writePage cat entries).length := by
    have hword : le32At (writeBoard cat entries) 5 = UInt32.ofNat (writePage cat entries).length :=
      ofNat_leNat_u32 _
    rw [hword]
    refine UInt32.toNat_ofNat_of_lt' ?_
    rw [length_writePage]
    show _ < 2 ^ 32
    omega
  unfold readRanking
  rw [hpage, if_pos ⟨ofNat_leNat_u32 _, rfl, hsize⟩, readPage_writePage cat (by omega)]

/-! ### The order of the entries -/

/-- The place of an entry: the key by which boards are listed. -/
def BoardEntry.place (e : BoardEntry) : Lex (Int × Int) := toLex (-(e.score.toNat : Int), e.instant)

variable {a b e : BoardEntry} {boards : Boards} {k : BoardKey} {pid : UInt64} {pids pids' : List UInt64}
  {tour cat : UInt32} {keys keys' : List BoardKey} {v v' : Visits} {req : RMCMessage}
  {file : Option (List BoardPersisted)} {store : BoardStore}

theorem place_lt_place : a.place < b.place ↔ b.score < a.score ∨ a.score = b.score ∧ a.instant < b.instant := by
  rw [BoardEntry.place, BoardEntry.place, Prod.Lex.toLex_lt_toLex, UInt32.lt_iff_toNat_lt,
    ← UInt32.toNat_inj]
  dsimp only
  omega

theorem place_eq_place : a.place = b.place ↔ a.score = b.score ∧ a.instant = b.instant := by
  rw [BoardEntry.place, BoardEntry.place, toLex_inj, Prod.mk.injEq, ← UInt32.toNat_inj]
  omega

theorem before_iff : a.before b = true ↔ a.place < b.place := by
  rw [place_lt_place]
  unfold BoardEntry.before
  split
  · rename_i hne
    rw [decide_eq_true_eq]
    exact ⟨.inl, fun h => h.resolve_right (fun heq => hne heq.1)⟩
  · rename_i heq
    rw [not_not] at heq
    rw [decide_eq_true_eq, heq]
    exact ⟨fun h => .inr ⟨rfl, h⟩, fun h => (h.resolve_left (UInt32.lt_irrefl _)).2⟩

theorem not_before_iff (a b : BoardEntry) : (!b.before a) = true ↔ a.place ≤ b.place := by
  rw [Bool.not_eq_true', ← Bool.not_eq_true, before_iff, not_lt]

/-! ### Visiting the boards -/

/-- `pids` lists the players of the board `k`. -/
def ListsPlayers (pids : List UInt64) (k : BoardKey) (boards : Boards) : Prop :=
  pids.Nodup ∧ ∀ pid, pid ∈ pids ↔ (k, pid) ∈ boards

/-- `keys` lists the boards. -/
def ListsBoards (keys : List BoardKey) (boards : Boards) : Prop :=
  keys.Nodup ∧ ∀ k, k ∈ keys ↔ ∃ pid, (k, pid) ∈ boards

theorem listsPlayers_iff : ListsPlayers pids k boards ↔
    pids.Nodup ∧ pids.toFinset = (boards.keys.filter (fun q => q.1 = k)).image Prod.snd := by
  unfold ListsPlayers
  rw [Finset.ext_iff]
  simp [Finmap.mem_keys]

theorem listsBoards_iff : ListsBoards keys boards ↔ keys.Nodup ∧ keys.toFinset = boards.keys.image Prod.fst := by
  unfold ListsBoards
  rw [Finset.ext_iff]
  simp [Finmap.mem_keys]

instance : Decidable (ListsPlayers pids k boards) := decidable_of_iff _ listsPlayers_iff.symm

instance : Decidable (ListsBoards keys boards) := decidable_of_iff _ listsBoards_iff.symm

/-- The orders of a request for the tournament `tour`. -/
structure Visits.Valid (v : Visits) (tour : UInt32) (file : Option (List BoardPersisted)) (b : BoardStore) :
    Prop where
  keys : ListsBoards v.keys b.boards
  pids : ListsPlayers v.pids ⟨tour, boardCategoryFor v.keys tour⟩ (boardInit file b).boards
  keys' : ListsBoards v.keys' (boardInit file b).boards

/-- Every entry is stored under its player. -/
def Keyed (boards : Boards) : Prop := ∀ k e, boards.lookup k = some e → e.pid = k.2

theorem Storable.keyed (h : Storable boards) : Keyed boards := fun k e hlookup => (h k e hlookup).pid

/-- No two entries were reached at one instant. -/
def DistinctInstants (boards : Boards) : Prop :=
  ∀ q q' e e', boards.lookup q = some e → boards.lookup q' = some e' → e.instant = e'.instant → q = q'

/-- Then the entries of a board have different places. -/
theorem place_inj (hdistinct : DistinctInstants boards) (ha : boards.lookup (k, a.pid) = some a)
    (hb : boards.lookup (k, b.pid) = some b) (hplace : a.place = b.place) : a = b := by
  have hq := hdistinct _ _ a b ha hb (place_eq_place.mp hplace).2
  rw [hq, hb] at ha
  exact (Option.some.inj ha).symm

theorem mem_boards {q : BoardKey × UInt64} : q ∈ boards ↔ ∃ e, boards.lookup q = some e := by
  rw [← Finmap.lookup_isSome, Option.isSome_iff_exists]

theorem mem_boardEntries (hkeyed : Keyed boards) (hpids : ListsPlayers pids k boards) :
    e ∈ boardEntries pids k boards ↔ boards.lookup (k, e.pid) = some e := by
  unfold boardEntries
  rw [List.mem_filterMap]
  constructor
  · rintro ⟨pid, -, hlookup⟩
    have hpid : e.pid = pid := hkeyed _ e hlookup
    rw [hpid]
    exact hlookup
  · intro hlookup
    exact ⟨e.pid, (hpids.2 e.pid).mpr (mem_boards.mpr ⟨e, hlookup⟩), hlookup⟩

/-- The entries belong to the players, in the order in which they are visited. -/
theorem map_pid_boardEntries (hkeyed : Keyed boards) (hpids : ListsPlayers pids k boards) :
    (boardEntries pids k boards).map (fun e => e.pid) = pids := by
  have hlive : ∀ pid ∈ pids, ∃ e, boards.lookup (k, pid) = some e := fun pid hpid =>
    mem_boards.mp ((hpids.2 pid).mp hpid)
  clear hpids
  unfold boardEntries
  induction pids with
  | nil => rfl
  | cons pid pids ih =>
    obtain ⟨e, he⟩ := hlive pid List.mem_cons_self
    have hpid : e.pid = pid := hkeyed _ e he
    have hhead : (pid :: pids).filterMap (fun pid => boards.lookup (k, pid)) =
        e :: pids.filterMap (fun pid => boards.lookup (k, pid)) := List.filterMap_cons_some he
    rw [hhead, List.map_cons, hpid, ih (fun pid' hpid' => hlive pid' (List.mem_cons_of_mem _ hpid'))]

theorem nodup_boardEntries (hkeyed : Keyed boards) (hpids : ListsPlayers pids k boards) :
    (boardEntries pids k boards).Nodup := by
  have hnodup := hpids.1
  rw [← map_pid_boardEntries hkeyed hpids] at hnodup
  exact hnodup.of_map

/-- Two visits of one board meet the same entries. -/
theorem perm_boardEntries (hkeyed : Keyed boards) (hpids : ListsPlayers pids k boards)
    (hpids' : ListsPlayers pids' k boards) :
    (boardEntries pids' k boards).Perm (boardEntries pids k boards) := by
  rw [List.perm_ext_iff_of_nodup (nodup_boardEntries hkeyed hpids') (nodup_boardEntries hkeyed hpids)]
  intro e
  rw [mem_boardEntries hkeyed hpids', mem_boardEntries hkeyed hpids]

/-- **Spec of `topEntries`.**  It shows the first places of a listing of the entries. -/
theorem topEntries_lists (hkeyed : Keyed boards) (hpids : ListsPlayers pids ⟨tour, cat⟩ boards)
    (hpids' : ListsPlayers pids' ⟨tour, cat⟩ boards) :
    ∃ l, Lists BoardEntry.place (boardEntries pids ⟨tour, cat⟩ boards) l ∧
      topEntries pids' tour cat boards = l.take scoreMaxPerBoard :=
  ⟨_, (lists_insertionSort not_before_iff _).of_perm (perm_boardEntries hkeyed hpids hpids'), rfl⟩

/-- Every listing is shown, for some order of the loop. -/
theorem exists_topEntries (hkeyed : Keyed boards) (hpids : ListsPlayers pids ⟨tour, cat⟩ boards)
    {l : List BoardEntry} (hl : Lists BoardEntry.place (boardEntries pids ⟨tour, cat⟩ boards) l) :
    ∃ pids', ListsPlayers pids' ⟨tour, cat⟩ boards ∧
      topEntries pids' tour cat boards = l.take scoreMaxPerBoard := by
  have hmem : ∀ e ∈ l, boards.lookup (⟨tour, cat⟩, e.pid) = some e := fun e he =>
    (mem_boardEntries hkeyed hpids).mp (hl.perm.mem_iff.mp he)
  have hperm : (l.map (fun e => e.pid)).Perm pids := by
    rw [← map_pid_boardEntries hkeyed hpids]
    exact hl.perm.map _
  have hsame : boardEntries (l.map (fun e => e.pid)) ⟨tour, cat⟩ boards = l := by
    unfold boardEntries
    rw [List.filterMap_map]
    refine (List.filterMap_congr (fun e he => hmem e he)).trans ?_
    exact List.filterMap_some
  refine ⟨l.map (fun e => e.pid), ⟨hperm.nodup_iff.mpr hpids.1, fun pid => ?_⟩, ?_⟩
  · rw [hperm.mem_iff]
    exact hpids.2 pid
  · unfold topEntries
    rw [hsame, insertionSort_of_lists not_before_iff hl]

/-! ### The category of a page -/

/-- The board `k` has entries. -/
def LiveBoard (k : BoardKey) (boards : Boards) : Prop := ∃ pid, (k, pid) ∈ boards

theorem exists_listsBoards (boards : Boards) : ∃ keys, ListsBoards keys boards :=
  ⟨_, listsBoards_iff.mpr ⟨Finset.nodup_toList _, Finset.toList_toFinset _⟩⟩

theorem exists_listsPlayers (k : BoardKey) (boards : Boards) : ∃ pids, ListsPlayers pids k boards :=
  ⟨_, listsPlayers_iff.mpr ⟨Finset.nodup_toList _, Finset.toList_toFinset _⟩⟩

/-- A live board can be visited first. -/
theorem exists_boardCategoryFor (hlive : LiveBoard k boards) :
    ∃ keys, ListsBoards keys boards ∧ boardCategoryFor keys k.tournament = k.category := by
  obtain ⟨keys, hnodup, hmem⟩ := exists_listsBoards boards
  have hk : k ∈ keys := (hmem k).mpr hlive
  refine ⟨k :: keys.erase k, ⟨?_, fun k' => ?_⟩, ?_⟩
  · exact (List.perm_cons_erase hk).nodup_iff.mp hnodup
  · rw [← (List.perm_cons_erase hk).mem_iff]
    exact hmem k'
  · have hfirst : (k :: keys.erase k).find? (fun k' => k'.tournament = k.tournament) = some k :=
      List.find?_cons_of_pos (decide_eq_true rfl)
    unfold boardCategoryFor
    rw [hfirst]
    rfl

/-- The category that is found for a tournament with entries is one of its own. -/
theorem liveBoard_boardCategoryFor (hkeys : ListsBoards keys boards) (hlive : LiveBoard k boards)
    (htour : k.tournament = tour) : LiveBoard ⟨tour, boardCategoryFor keys tour⟩ boards := by
  unfold boardCategoryFor
  cases hfind : keys.find? (fun k => k.tournament = tour) with
  | none =>
    have hnone := List.find?_eq_none.mp hfind k ((hkeys.2 k).mpr hlive)
    exact absurd (decide_eq_true htour) hnone
  | some k' =>
    have hfound := List.find?_some hfind
    have htour' : k'.tournament = tour := of_decide_eq_true hfound
    have hlive' : LiveBoard k' boards := (hkeys.2 k').mp (List.mem_of_find?_eq_some hfind)
    rw [← htour']
    exact hlive'

/-- The entries that an answer lists, by the keys under which they were recorded. -/
def listedKeys (v : Visits) (tour : UInt32) (file : Option (List BoardPersisted)) (b : BoardStore) :
    List (BoardKey × UInt64) :=
  (boardFor file v.pids tour (boardCategoryFor v.keys tour) b).2.map (fun e =>
    (⟨tour, boardCategoryFor v.keys tour⟩, e.pid))

/-- The category in the header of an answer is that of the entries which it lists. -/
def Labelled (v : Visits) (req : RMCMessage) (file : Option (List BoardPersisted)) (b : BoardStore) : Prop :=
  ∀ page, readRanking (competitionRanking file v req b).2.body = some page →
    ∀ q ∈ listedKeys v (le32At req.body 5) file b, q.1.category = page.category

theorem length_boardFor_le (pids : List UInt64) (tour cat : UInt32) :
    (boardFor file pids tour cat store).2.length ≤ scoreMaxPerBoard := List.length_take_le _ _

/-- A request of full length leaves the boards read. -/
theorem competitionRanking_store (v : Visits) (hbody : 13 ≤ req.body.length) :
    (competitionRanking file v req store).1 = boardInit file store := by
  unfold competitionRanking
  rw [if_neg (by omega)]
  dsimp only
  split <;> rfl

/-- An answer with entries is their page. -/
theorem readRanking_competitionRanking (hbody : 13 ≤ req.body.length) (htour : le32At req.body 5 = tour)
    (hentries : (boardFor file v.pids tour (boardCategoryFor v.keys tour) store).2 ≠ []) :
    readRanking (competitionRanking file v req store).2.body =
      some ⟨boardCategoryFor v.keys' tour,
        (boardFor file v.pids tour (boardCategoryFor v.keys tour) store).2.zipIdx.map (fun p => rowOf p.2 p.1),
        UInt32.ofNat (boardFor file v.pids tour (boardCategoryFor v.keys tour) store).2.length⟩ := by
  subst htour
  rw [← readRanking_writeBoard _ (length_boardFor_le _ _ _)]
  unfold competitionRanking
  rw [if_neg (by omega)]
  dsimp only
  rw [if_neg (fun hlength => hentries (List.length_eq_zero_iff.mp hlength))]
  rfl

theorem labelled_iff (v : Visits) (hbody : 13 ≤ req.body.length) (htour : le32At req.body 5 = tour)
    (hentries : (boardFor file v.pids tour (boardCategoryFor v.keys tour) store).2 ≠ []) :
    Labelled v req file store ↔ boardCategoryFor v.keys tour = boardCategoryFor v.keys' tour := by
  unfold Labelled
  rw [readRanking_competitionRanking hbody htour hentries, htour]
  constructor
  · intro h
    obtain ⟨e, rest, heq⟩ := List.exists_cons_of_ne_nil hentries
    refine h _ rfl (⟨tour, boardCategoryFor v.keys tour⟩, e.pid) ?_
    exact List.mem_map.mpr ⟨e, by rw [heq]; exact List.mem_cons_self, rfl⟩
  · intro heq page hpage q hq
    obtain ⟨e, -, rfl⟩ := List.mem_map.mp hq
    rw [← Option.some.inj hpage]
    exact heq

theorem labelled_of_nil (hentries : (boardFor file v.pids (le32At req.body 5)
    (boardCategoryFor v.keys (le32At req.body 5)) store).2 = []) : Labelled v req file store := by
  intro page _ q hq
  unfold listedKeys at hq
  rw [hentries] at hq
  exact absurd hq List.not_mem_nil

/-- Where the board has an entry, one is listed. -/
theorem topEntries_ne_nil (hpids : ListsPlayers pids ⟨tour, cat⟩ boards) (hlive : LiveBoard ⟨tour, cat⟩ boards) :
    topEntries pids tour cat boards ≠ [] := by
  obtain ⟨pid, hmem⟩ := hlive
  obtain ⟨e, he⟩ := mem_boards.mp hmem
  have hentry : e ∈ (boardEntries pids ⟨tour, cat⟩ boards).insertionSort (fun a b => !b.before a) := by
    rw [List.mem_insertionSort]
    exact List.mem_filterMap.mpr ⟨pid, (hpids.2 pid).mpr hmem, he⟩
  intro hnil
  rcases List.take_eq_nil_iff.mp hnil with hzero | hnone
  · exact absurd hzero (by decide)
  · rw [hnone] at hentry
    exact List.not_mem_nil hentry

/-- A group of entries with one score and one instant straddles the hundredth place of the board `k`. -/
def TieAtLimit (k : BoardKey) (boards : Boards) : Prop :=
  ∃ pids e, ListsPlayers pids k boards ∧
    Straddles BoardEntry.place (boardEntries pids k boards) scoreMaxPerBoard e

/-- All entries of the tournament are of one category. -/
def OneCategory (tour : UInt32) (boards : Boards) : Prop :=
  ∀ k k', LiveBoard k boards → LiveBoard k' boards → k.tournament = tour → k'.tournament = tour → k = k'

/-- For a tournament without entries, the category 0 is found. -/
theorem boardCategoryFor_of_not_live (hkeys : ListsBoards keys boards)
    (hnone : ¬ ∃ k, LiveBoard k boards ∧ k.tournament = tour) : boardCategoryFor keys tour = 0 := by
  have hfind : keys.find? (fun k => k.tournament = tour) = none := by
    rw [List.find?_eq_none]
    intro k hk htour
    exact hnone ⟨k, (hkeys.2 k).mp hk, of_decide_eq_true htour⟩
  unfold boardCategoryFor
  rw [hfind]
  rfl

/-- With one category, it is found whatever board comes first. -/
theorem boardCategoryFor_eq (hone : OneCategory tour boards) (hkeys : ListsBoards keys boards)
    (hkeys' : ListsBoards keys' boards) : boardCategoryFor keys tour = boardCategoryFor keys' tour := by
  by_cases hlive : ∃ k, LiveBoard k boards ∧ k.tournament = tour
  · obtain ⟨k, hlive, htour⟩ := hlive
    exact congrArg BoardKey.category (hone _ _ (liveBoard_boardCategoryFor hkeys hlive htour)
      (liveBoard_boardCategoryFor hkeys' hlive htour) rfl rfl)
  · rw [boardCategoryFor_of_not_live hkeys hlive, boardCategoryFor_of_not_live hkeys' hlive]

/-- A tie at the limit lets another order of the loop list an entry that was not listed. -/
theorem exists_other_topEntries (hkeyed : Keyed boards) (htie : TieAtLimit ⟨tour, cat⟩ boards) :
    ∃ pids pids' b, ListsPlayers pids ⟨tour, cat⟩ boards ∧ ListsPlayers pids' ⟨tour, cat⟩ boards ∧
      b ∈ topEntries pids' tour cat boards ∧ b ∉ topEntries pids tour cat boards := by
  obtain ⟨pids, e, hpids, hstraddles⟩ := htie
  obtain ⟨l, hl, hshown⟩ := topEntries_lists hkeyed hpids hpids
  obtain ⟨l', b, hl', hb, hnot⟩ := exists_other_take (nodup_boardEntries hkeyed hpids) hl hstraddles
  obtain ⟨pids', hpids', hshown'⟩ := exists_topEntries hkeyed hpids hl'
  refine ⟨pids, pids', b, hpids, hpids', ?_, ?_⟩
  · rw [hshown']
    exact hb
  · rw [hshown]
    exact hnot

theorem lookup_of_mem_topEntries (hkeyed : Keyed boards) (hpids : ListsPlayers pids ⟨tour, cat⟩ boards)
    (he : e ∈ topEntries pids tour cat boards) : boards.lookup (⟨tour, cat⟩, e.pid) = some e := by
  have hsorted := List.mem_of_mem_take he
  rw [List.mem_insertionSort] at hsorted
  exact (mem_boardEntries hkeyed hpids).mp hsorted

theorem liveBoard_of_tieAtLimit (htie : TieAtLimit k boards) : LiveBoard k boards := by
  obtain ⟨pids, e, hpids, -, hmany⟩ := htie
  have hsome : 0 < (boardEntries pids k boards).countP (fun x => x.place ≤ e.place) := by omega
  obtain ⟨x, hx, -⟩ := List.countP_pos_iff.mp hsome
  obtain ⟨pid, hpid, -⟩ := List.mem_filterMap.mp hx
  exact ⟨pid, (hpids.2 pid).mp hpid⟩

/-! ### Two requests -/

/-- The boards have been read, or the file has nothing for the tournament outside the category 0. -/
def Ready (tour : UInt32) (file : Option (List BoardPersisted)) (b : BoardStore) : Prop :=
  b.once = true ∨ ∀ k, LiveBoard k (boardInit file b).boards → k.tournament = tour → k.category = 0

theorem keyed_boardInit (hkeyed : Keyed store.boards) (file : Option (List BoardPersisted)) :
    Keyed (boardInit file store).boards := by
  unfold boardInit
  split
  · exact hkeyed
  · exact (storable_loadedBoards file).keyed

theorem not_live_unread (honce : store.once = false) : ¬ LiveBoard k store.boards := by
  rintro ⟨pid, hmem⟩
  rw [store.unread honce] at hmem
  exact Finmap.notMem_empty hmem

theorem listsBoards_unread (honce : store.once = false) : ListsBoards [] store.boards :=
  ⟨List.nodup_nil, fun _ => ⟨fun hk => absurd hk List.not_mem_nil, fun hlive => absurd hlive (not_live_unread honce)⟩⟩

/-- The orders of a request that finds the boards read. -/
theorem valid_of_once (honce : store.once = true) (hkeys : ListsBoards keys store.boards)
    (hcat : boardCategoryFor keys tour = cat) (hpids : ListsPlayers pids ⟨tour, cat⟩ store.boards) :
    (Visits.mk keys pids keys).Valid tour file store := by
  refine ⟨hkeys, ?_, ?_⟩
  · rw [boardInit_of_once honce, hcat]
    exact hpids
  · rw [boardInit_of_once honce]
    exact hkeys

theorem listedKeys_boardInit (v : Visits) (tour : UInt32) :
    listedKeys v tour file (boardInit file store) = listedKeys v tour file store := by
  have hsame : boardInit file (boardInit file store) = boardInit file store :=
    boardInit_of_once (once_boardInit file store) file
  unfold listedKeys boardFor
  rw [hsame]

/-- When the store is ready and has one category, the category that is looked up before the load is the one that
is found behind it. -/
theorem boardCategoryFor_boardInit (hready : Ready tour file store)
    (hone : OneCategory tour (boardInit file store).boards) (hkeys : ListsBoards keys store.boards)
    (hkeys' : ListsBoards keys' (boardInit file store).boards) :
    boardCategoryFor keys tour = boardCategoryFor keys' tour := by
  cases honce : store.once with
  | true =>
    rw [boardInit_of_once honce] at hone hkeys'
    exact boardCategoryFor_eq hone hkeys hkeys'
  | false =>
    have hzero := hready.resolve_left (by rw [honce]; exact Bool.false_ne_true)
    rw [boardCategoryFor_of_not_live hkeys (fun ⟨_, hlive, _⟩ => not_live_unread honce hlive)]
    by_cases hlive : ∃ k, LiveBoard k (boardInit file store).boards ∧ k.tournament = tour
    · obtain ⟨k, hlive, htour⟩ := hlive
      exact (hzero _ (liveBoard_boardCategoryFor hkeys' hlive htour) rfl).symm
    · exact (boardCategoryFor_of_not_live hkeys' hlive).symm

section Successive

-- Two requests, one after the other, list the same entries.
variable (hperm : ∀ v v', v.Valid tour file store → v'.Valid tour file (boardInit file store) →
  (listedKeys v' tour file store).Perm (listedKeys v tour file store))

include hperm

/-- The first request finds boards that are still empty, looks under the category 0, and the second must list the
same. -/
theorem category_eq_zero (honce : store.once = false) (hlive : LiveBoard k (boardInit file store).boards)
    (htour : k.tournament = tour) : k.category = 0 := by
  subst htour
  obtain ⟨keys, hkeys, hcat⟩ := exists_boardCategoryFor hlive
  obtain ⟨pids, hpids⟩ := exists_listsPlayers k (boardInit file store).boards
  obtain ⟨pids₀, hpids₀⟩ := exists_listsPlayers ⟨k.tournament, 0⟩ (boardInit file store).boards
  have hfirst : (Visits.mk [] pids₀ keys).Valid k.tournament file store :=
    ⟨listsBoards_unread honce, hpids₀, hkeys⟩
  have hlisted := hperm _ _ hfirst (valid_of_once (once_boardInit _ _) hkeys hcat hpids)
  obtain ⟨e, rest, hentries⟩ := List.exists_cons_of_ne_nil (topEntries_ne_nil hpids hlive)
  have hentry : e ∈ topEntries pids k.tournament k.category (boardInit file store).boards := by
    rw [hentries]
    exact List.mem_cons_self
  have hmem : (⟨k.tournament, k.category⟩, e.pid) ∈ listedKeys ⟨keys, pids, keys⟩ k.tournament file store := by
    unfold listedKeys
    rw [hcat]
    exact List.mem_map.mpr ⟨e, hentry, rfl⟩
  obtain ⟨e', -, hsame⟩ := List.mem_map.mp (hlisted.mem_iff.mp hmem)
  exact (congrArg (fun q => q.1.category) hsame).symm

theorem ready_of_perm : Ready tour file store := by
  cases honce : store.once with
  | true => exact .inl honce
  | false => exact .inr (fun k hlive htour => category_eq_zero hperm honce hlive htour)

/-- Every board of the tournament can be the one that the first request lists. -/
theorem exists_first (hlive : LiveBoard k (boardInit file store).boards) (htour : k.tournament = tour) :
    ∃ keys, ListsBoards keys store.boards ∧ boardCategoryFor keys tour = k.category := by
  cases honce : store.once with
  | true =>
    rw [boardInit_of_once honce] at hlive
    rw [← htour]
    exact exists_boardCategoryFor hlive
  | false => exact ⟨[], listsBoards_unread honce, (category_eq_zero hperm honce hlive htour).symm⟩

/-- Labels are right for all orders only if there is one category: the entries could be looked up under the one
board and the header under the other. -/
theorem oneCategory_of_labelled (hbody : 13 ≤ req.body.length) (htour : le32At req.body 5 = tour)
    (hlabel : ∀ v, v.Valid tour file store → Labelled v req file store) :
    OneCategory tour (boardInit file store).boards := by
  rintro ⟨tour₁, cat⟩ ⟨tour₂, cat'⟩ hlive hlive' rfl htour₂
  obtain rfl : tour₂ = tour₁ := htour₂
  obtain ⟨keys, hkeys, hcat⟩ := exists_first hperm hlive rfl
  obtain ⟨keys', hkeys', hcat'⟩ := exists_boardCategoryFor hlive'
  obtain ⟨pids, hpids⟩ := exists_listsPlayers ⟨tour₂, cat⟩ (boardInit file store).boards
  dsimp only at hcat hcat' htour hlabel
  have hvalid : (Visits.mk keys pids keys').Valid tour₂ file store := ⟨hkeys, by rw [hcat]; exact hpids, hkeys'⟩
  have hentries : (boardFor file pids tour₂ (boardCategoryFor keys tour₂) store).2 ≠ [] := by
    rw [hcat]
    exact topEntries_ne_nil hpids hlive
  have hsame := (labelled_iff ⟨keys, pids, keys'⟩ hbody htour hentries).mp (hlabel _ hvalid)
  rw [hcat, hcat'] at hsame
  rw [hsame]

/-- Two requests list the same entries for all orders only if no tie is at the limit. -/
theorem not_tieAtLimit_of_perm (hkeyed : Keyed (boardInit file store).boards) :
    ¬ TieAtLimit ⟨tour, cat⟩ (boardInit file store).boards := by
  intro htie
  have hlive := liveBoard_of_tieAtLimit htie
  obtain ⟨keys, hkeys, hcat⟩ := exists_first hperm hlive rfl
  obtain ⟨keys', hkeys', hcat'⟩ := exists_boardCategoryFor hlive
  obtain ⟨pids, pids', b, hpids, hpids', hb, hnot⟩ := exists_other_topEntries hkeyed htie
  dsimp only at hcat hcat'
  have hfirst : (Visits.mk keys pids keys').Valid tour file store := ⟨hkeys, by rw [hcat]; exact hpids, hkeys'⟩
  have hlisted := hperm _ _ hfirst (valid_of_once (once_boardInit _ _) hkeys' hcat' hpids')
  unfold listedKeys boardFor at hlisted
  dsimp only at hlisted
  rw [hcat, hcat'] at hlisted
  obtain ⟨e, he, hsame⟩ := List.mem_map.mp (hlisted.mem_iff.mp (List.mem_map_of_mem hb))
  have hpid : e.pid = b.pid := congrArg Prod.snd hsame
  have hlookup := lookup_of_mem_topEntries hkeyed hpids he
  rw [hpid, lookup_of_mem_topEntries hkeyed hpids' hb] at hlookup
  obtain rfl : b = e := Option.some.inj hlookup
  exact hnot he

end Successive

/-- With one category, found before the load, and no tie at the limit, two requests list the same entries. -/
theorem listedKeys_perm (hkeyed : Keyed (boardInit file store).boards)
    (hties : ∀ cat, ¬ TieAtLimit ⟨tour, cat⟩ (boardInit file store).boards) (hv : v.Valid tour file store)
    (hv' : v'.Valid tour file (boardInit file store))
    (hcat : boardCategoryFor v.keys tour = boardCategoryFor v'.keys tour) :
    (listedKeys v' tour file store).Perm (listedKeys v tour file store) := by
  have hpids' := hv'.pids
  rw [boardInit_of_once (once_boardInit file store), ← hcat] at hpids'
  unfold listedKeys boardFor
  rw [← hcat]
  obtain ⟨l, hl, hshown⟩ := topEntries_lists hkeyed hv.pids hv.pids
  obtain ⟨l', hl', hshown'⟩ := topEntries_lists hkeyed hv.pids hpids'
  dsimp only
  rw [hshown, hshown']
  refine (hl.take_perm (nodup_boardEntries hkeyed hv.pids) hl' ?_).map _
  exact fun e _ hstraddles => hties _ ⟨v.pids, e, hv.pids, hstraddles⟩

/-- **Pages under their own category.**  For every content of the boards and of their file, and every request for a
tournament: whatever the orders of the loops, the page is labelled with the category of its entries and the next
request lists the same entries, just when the boards have been read (or the file has nothing for the tournament
outside the category 0), all entries of the tournament are of one category and no tie straddles the hundredth
place. -/
theorem ranking_labelled_iff (file : Option (List BoardPersisted)) (b : BoardStore) (hkeyed : Keyed b.boards)
    (req : RMCMessage) (hbody : 13 ≤ req.body.length) (tour : UInt32) (htour : le32At req.body 5 = tour) :
    (∀ v v', v.Valid tour file b → v'.Valid tour file (competitionRanking file v req b).1 →
        Labelled v req file b ∧
        (listedKeys v' tour file (competitionRanking file v req b).1).Perm (listedKeys v tour file b)) ↔
      Ready tour file b ∧ OneCategory tour (boardInit file b).boards ∧
        ∀ k, k.tournament = tour → ¬ TieAtLimit k (boardInit file b).boards := by
  have hloaded := keyed_boardInit hkeyed file
  simp only [competitionRanking_store _ hbody, listedKeys_boardInit]
  constructor
  · intro h
    have hperm := fun v v' hv hv' => (h v v' hv hv').2
    have hready := ready_of_perm hperm
    have hlabel : ∀ v, v.Valid tour file b → Labelled v req file b := by
      intro v hv
      obtain ⟨keys, hkeys⟩ := exists_listsBoards (boardInit file b).boards
      obtain ⟨pids, hpids⟩ := exists_listsPlayers ⟨tour, boardCategoryFor keys tour⟩ (boardInit file b).boards
      exact (h v _ hv (valid_of_once (once_boardInit _ _) hkeys rfl hpids)).1
    refine ⟨hready, oneCategory_of_labelled hperm hbody htour hlabel, ?_⟩
    rintro ⟨tour₁, cat⟩ rfl
    exact not_tieAtLimit_of_perm hperm hloaded
  · rintro ⟨hready, hone, hties⟩ v v' hv hv'
    refine ⟨?_, listedKeys_perm hloaded (fun cat => hties _ rfl) hv hv'
      (boardCategoryFor_boardInit hready hone hv.keys hv'.keys)⟩
    by_cases hentries : (boardFor file v.pids tour (boardCategoryFor v.keys tour) b).2 = []
    · subst htour
      exact labelled_of_nil hentries
    · exact (labelled_iff v hbody htour hentries).mpr (boardCategoryFor_boardInit hready hone hv.keys hv.keys')

/-- The boards with some entries. -/
def boardsOf (entries : List (BoardKey × BoardEntry)) : Boards :=
  (entries.map (fun p => ((p.1, p.2.pid), p.2))).foldl (fun m p => m.insert p.1 p.2) ∅

theorem exists_of_lookup_boardsOf {entries : List (BoardKey × BoardEntry)} {q : BoardKey × UInt64}
    (h : (boardsOf entries).lookup q = some e) : ∃ p ∈ entries, q = (p.1, p.2.pid) ∧ e = p.2 := by
  rcases GoMap.mem_of_lookup_foldl_insert _ _ h with hmem | hempty
  · obtain ⟨p, hp, heq⟩ := List.mem_map.mp hmem
    cases heq
    exact ⟨p, hp, rfl, rfl⟩
  · rw [Finmap.lookup_empty] at hempty
    cases hempty

theorem keyed_boardsOf (entries : List (BoardKey × BoardEntry)) : Keyed (boardsOf entries) := by
  intro q e hlookup
  obtain ⟨p, -, rfl, rfl⟩ := exists_of_lookup_boardsOf hlookup
  rfl

theorem mem_boardsOf {entries : List (BoardKey × BoardEntry)} :
    (k, pid) ∈ boardsOf entries ↔ (k, pid) ∈ entries.map (fun p => (p.1, p.2.pid)) := by
  unfold boardsOf
  rw [← Finmap.mem_keys, GoMap.keys_foldl_insert, Finmap.keys_empty, Finset.union_empty, List.mem_toFinset,
    List.map_map]
  rfl

/-- A request for the ranking of a tournament. -/
def rankingRequest (tour : UInt32) : RMCMessage :=
  newRMCRequest protocolRanking 0x10 1
    (StreamOut.u8 0 ++ StreamOut.u32 8 ++ StreamOut.u32 tour ++ StreamOut.u32 0)

/-- An entry with a blank profile. -/
def blankEntry (pid : UInt64) (score : UInt32) (instant : Int) : BoardEntry :=
  ⟨pid, score, List.replicate scoreProfileLen 0, instant⟩

/-- A file with two players in one category. -/
def twoOnFile : List BoardPersisted :=
  [⟨7, 393, 1, 40, List.replicate scoreProfileLen 0, 0⟩, ⟨7, 393, 2, 60, List.replicate scoreProfileLen 0, 1⟩]

theorem boardInit_two : (boardInit (some twoOnFile) newBoardStore).boards =
    boardsOf [(⟨7, 393⟩, blankEntry 1 40 0), (⟨7, 393⟩, blankEntry 2 60 1000000000)] := by
  have hread : twoOnFile.filterMap restoreEntry =
      [((⟨7, 393⟩, 1), blankEntry 1 40 0), ((⟨7, 393⟩, 2), blankEntry 2 60 1000000000)] := by
    simp [twoOnFile, restoreEntry, blankEntry, nanoseconds]
  rw [boardInit_of_not_once rfl]
  dsimp only
  rw [loadedBoards, Option.getD_some, hread]
  rfl

/-- After a restart, once a request has made the server read its file. -/
theorem ranking_labelled_two :
    ∃ b, b = boardInit (some twoOnFile) newBoardStore ∧ Keyed b.boards ∧ 13 ≤ (rankingRequest 7).body.length ∧
      (∃ q, q ∈ b.boards) ∧
      ∀ v v', v.Valid 7 (some twoOnFile) b →
        v'.Valid 7 (some twoOnFile) (competitionRanking (some twoOnFile) v (rankingRequest 7) b).1 →
        Labelled v (rankingRequest 7) (some twoOnFile) b ∧
          (listedKeys v' 7 (some twoOnFile) (competitionRanking (some twoOnFile) v (rankingRequest 7) b).1).Perm
            (listedKeys v 7 (some twoOnFile) b) := by
  have hboards := boardInit_two
  have honce := once_boardInit (some twoOnFile) newBoardStore
  generalize boardInit (some twoOnFile) newBoardStore = b at hboards honce
  have hmem : ∀ k pid, (k, pid) ∈ b.boards → k = ⟨7, 393⟩ ∧ pid ∈ [(1 : UInt64), 2] := by
    intro k pid hmem
    rw [hboards] at hmem
    rcases List.mem_cons.mp (mem_boardsOf.mp hmem) with heq | hmem
    · cases heq
      decide
    · cases List.mem_singleton.mp hmem
      decide
  have hkeyed : Keyed b.boards := by
    rw [hboards]
    exact keyed_boardsOf _
  have hlive : (⟨7, 393⟩, 1) ∈ b.boards := by
    rw [hboards]
    exact mem_boardsOf.mpr List.mem_cons_self
  refine ⟨b, rfl, hkeyed, by decide, ⟨_, hlive⟩, ?_⟩
  refine (ranking_labelled_iff (some twoOnFile) b hkeyed (rankingRequest 7) (by decide) 7 (by decide)).mpr
    ⟨.inl honce, ?_⟩
  rw [boardInit_of_once honce]
  constructor
  · rintro k k' ⟨pid, hk⟩ ⟨pid', hk'⟩ - -
    exact (hmem k pid hk).1.trans (hmem k' pid' hk').1.symm
  · -- Two entries cannot straddle the hundredth place.
    rintro k - ⟨pids, e, hpids, -, hmany⟩
    have hfew : pids.length ≤ 2 := by
      have hsub : pids ⊆ [1, 2] := fun pid hpid => (hmem k pid ((hpids.2 pid).mp hpid)).2
      exact (List.subperm_of_subset hpids.1 hsub).length_le
    have hentries : (boardEntries pids k b.boards).length ≤ pids.length := List.length_filterMap_le _ _
    have hcount := List.countP_le_length (p := fun x => decide (x.place ≤ e.place))
      (l := boardEntries pids k b.boards)
    have hmax : scoreMaxPerBoard = 100 := rfl
    omega

/-- The boards after a submission in each of two categories. -/
def twoCategories : BoardStore :=
  ⟨boardsOf [(⟨7, 393⟩, blankEntry 1 40 0), (⟨7, 394⟩, blankEntry 2 60 1)], true, nofun⟩

/-- Two categories of one tournament: the page of the one can carry the number of the other, and the next
request can list other entries.  And with one category: the first request after a restart lists nobody, the next
one the players on the file. -/
theorem ranking_mislabelled :
    (∃ v v' : Visits, v.Valid 7 none twoCategories ∧
      v'.Valid 7 none (competitionRanking none v (rankingRequest 7) twoCategories).1 ∧
      ¬ Labelled v (rankingRequest 7) none twoCategories ∧
      ¬ (listedKeys v' 7 none (competitionRanking none v (rankingRequest 7) twoCategories).1).Perm
        (listedKeys v 7 none twoCategories)) ∧
    ∃ v v' : Visits, v.Valid 7 (some twoOnFile) newBoardStore ∧
      v'.Valid 7 (some twoOnFile)
        (competitionRanking (some twoOnFile) v (rankingRequest 7) newBoardStore).1 ∧
      listedKeys v 7 (some twoOnFile) newBoardStore = [] ∧
      listedKeys v' 7 (some twoOnFile)
        (competitionRanking (some twoOnFile) v (rankingRequest 7) newBoardStore).1 =
          [(⟨7, 393⟩, 2), (⟨7, 393⟩, 1)] := by
  constructor
  · have hlist : ListsBoards [⟨7, 393⟩, ⟨7, 394⟩] twoCategories.boards := by decide
    have hlist' : ListsBoards [⟨7, 394⟩, ⟨7, 393⟩] twoCategories.boards := by decide
    have hpids : ListsPlayers [1] ⟨7, 393⟩ twoCategories.boards := by decide
    have hpids' : ListsPlayers [2] ⟨7, 394⟩ twoCategories.boards := by decide
    have hcat : boardCategoryFor [⟨7, 393⟩, ⟨7, 394⟩] 7 = 393 := by decide
    have hcat' : boardCategoryFor [⟨7, 394⟩, ⟨7, 393⟩] 7 = 394 := by decide
    have hentries : (boardFor none [1] 7 (boardCategoryFor [⟨7, 393⟩, ⟨7, 394⟩] 7) twoCategories).2 ≠ [] := by
      rw [hcat]
      exact topEntries_ne_nil hpids ⟨1, (hpids.2 1).mp List.mem_cons_self⟩
    refine ⟨⟨_, [1], _⟩, ⟨[⟨7, 394⟩, ⟨7, 393⟩], [2], [⟨7, 394⟩, ⟨7, 393⟩]⟩,
      ⟨hlist, by rw [hcat]; exact hpids, hlist'⟩, ?_, ?_, ?_⟩
    · rw [competitionRanking_store _ (by decide)]
      exact valid_of_once (once_boardInit _ _) hlist' hcat' hpids'
    · rw [labelled_iff _ (by decide) (by decide) hentries]
      decide
    · intro hperm
      have hshown : listedKeys ⟨[⟨7, 393⟩, ⟨7, 394⟩], [1], [⟨7, 394⟩, ⟨7, 393⟩]⟩ 7 none twoCategories =
          [(⟨7, 393⟩, 1)] := by decide
      have hshown' : listedKeys ⟨[⟨7, 394⟩, ⟨7, 393⟩], [2], [⟨7, 394⟩, ⟨7, 393⟩]⟩ 7 none twoCategories =
          [(⟨7, 394⟩, 2)] := by decide
      rw [competitionRanking_store _ (by decide), listedKeys_boardInit, hshown, hshown',
        List.singleton_perm_singleton] at hperm
      exact absurd hperm (by decide)
  · have hlist : ListsBoards [⟨7, 393⟩] (boardInit (some twoOnFile) newBoardStore).boards := by
      rw [boardInit_two]
      decide
    have hpids : ListsPlayers [1, 2] ⟨7, 393⟩ (boardInit (some twoOnFile) newBoardStore).boards := by
      rw [boardInit_two]
      decide
    have hnobody : ListsPlayers [] ⟨7, 0⟩ (boardInit (some twoOnFile) newBoardStore).boards := by
      rw [boardInit_two]
      decide
    refine ⟨⟨[], [], _⟩, ⟨[⟨7, 393⟩], [1, 2], [⟨7, 393⟩]⟩, ⟨listsBoards_unread rfl, hnobody, hlist⟩, ?_, rfl, ?_⟩
    · rw [competitionRanking_store _ (by decide)]
      exact valid_of_once (once_boardInit _ _) hlist (by decide) hpids
    · rw [competitionRanking_store _ (by decide), listedKeys_boardInit]
      unfold listedKeys boardFor
      dsimp only
      rw [boardInit_two]
      decide

end NextendoMatchmaking.Ranking
