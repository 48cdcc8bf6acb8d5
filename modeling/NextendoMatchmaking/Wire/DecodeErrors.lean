import NextendoMatchmaking.Wire.StructureRoundTrip

/-!
# Errors of nested streams

`StreamIn` promises that a decoder may run to its end and be checked once, by `Err`.  With struct headers on,
every level is read from a stream of its own, and the error of that stream is dropped with it: a level whose
body is cut short is read as zeros while `Err` stays nil.  `decode_errors_kept` says that this is the only
way to lose an error, whatever the structure and the data are: the error of a decode shows unless a level that
was read ended before its fields while the outer stream did not err.

The reads of every structure are gone through once (`keeps_extract`), for an arbitrary property that single
reads keep (`Stable`).
-/

namespace NextendoMatchmaking

open NextendoMatchmaking.Parsing

variable {s : Settings} {P : StreamIn → Prop}

/-! ### Single reads -/

/-- Single reads keep `P`, and so do substreams that keep it, where substreams are used. -/
structure Stable (s : Settings) (P : StreamIn → Prop) : Prop where
  read : ∀ n, Keeps P (StreamIn.read n)
  overrun : ∀ st, P st → P { st with err := true, failed := true }
  inner : s.structHeader = true → ∀ b st inner, (P (newStreamIn b) → P inner) → P st → P (st.after inner)

section Readers

variable (hP : Stable s P)
include hP

theorem keeps_uint (w : ℕ) : Keeps P (StreamIn.uint w) := by
  refine (hP.read w).bind fun b => ?_
  cases b with
  | none => exact keeps_pure 0
  | some b => exact keeps_pure _

theorem keeps_u8 : Keeps P StreamIn.u8 := (keeps_uint hP 1).map
theorem keeps_u16 : Keeps P StreamIn.u16 := (keeps_uint hP 2).map
theorem keeps_u32 : Keeps P StreamIn.u32 := (keeps_uint hP 4).map
theorem keeps_u64 : Keeps P StreamIn.u64 := (keeps_uint hP 8).map
theorem keeps_bool : Keeps P StreamIn.bool := (keeps_u8 hP).map

theorem keeps_pid : Keeps P (StreamIn.pid s) := by
  unfold StreamIn.pid
  split
  · exact keeps_u64 hP
  · exact (keeps_u32 hP).map

theorem keeps_string : Keeps P StreamIn.string := by
  refine (keeps_u16 hP).bind fun length => ?_
  show Keeps P (if length = 0 then pure [] else StreamIn.read length.toNat >>= _)
  split
  · exact keeps_pure []
  · refine (hP.read _).bind fun b => ?_
    cases b with
    | none => exact keeps_pure []
    | some b => exact keeps_pure _

theorem keeps_buffer : Keeps P StreamIn.buffer :=
  (keeps_u32 hP).bind fun n => (hP.read n.toNat).bind fun b => keeps_pure (b.getD [])

/-! ### Lists, maps and levels -/

section Sequences

variable {α κ ν : Type} {f : Reader α}

omit hP in
theorem keeps_times (hf : Keeps P f) (n : ℕ) : Keeps P (StreamIn.times f n) := by
  induction n with
  | zero => exact keeps_pure []
  | succ n ih => exact hf.bind fun a => ih.bind fun as => keeps_pure (a :: as)

theorem keeps_count : Keeps P StreamIn.count := by
  refine (keeps_u32 hP).bind fun n => ?_
  intro st hst
  show P ((if st.rest.length < n.toNat then (do
    set { st with err := true, failed := true }
    return none : Reader (Option ℕ)) else return some n.toNat) st).2
  split
  · exact hP.overrun st hst
  · exact hst

theorem keeps_list (hf : Keeps P f) : Keeps P (StreamIn.list f) := by
  refine (keeps_count hP).bind fun n => ?_
  cases n with
  | none => exact keeps_pure []
  | some n => exact keeps_times hf n

/-- With a header, the level is read from another stream. -/
theorem keeps_level {load : Reader α} (h : Keeps P load) : Keeps P (readLevel s load) := by
  unfold readLevel
  split
  · rename_i hs
    refine (keeps_u8 hP).bind fun _ => (keeps_buffer hP).bind fun b => ?_
    intro st hst
    exact hP.inner hs b st _ (h (newStreamIn b)) hst
  · exact h

end Sequences

theorem keeps_variant : Keeps P Variant.load := by
  refine (keeps_u8 hP).bind fun type => ?_
  split
  · exact (keeps_u64 hP).bind fun _ => keeps_pure _
  split
  · exact (keeps_u64 hP).bind fun _ => keeps_pure _
  split
  · exact (keeps_bool hP).bind fun _ => keeps_pure _
  split
  · exact (keeps_string hP).bind fun _ => keeps_pure _
  split
  · exact (keeps_u64 hP).bind fun _ => keeps_pure _
  split
  · exact (keeps_u64 hP).bind fun _ => keeps_pure _
  · exact keeps_pure _

/-! ### The structures, field by field -/

theorem keeps_gathering : Keeps P (Gathering.read s) :=
  keeps_level hP <| (keeps_u32 hP).bind fun _ => (keeps_pid hP).bind fun _ => (keeps_pid hP).bind fun _ =>
    (keeps_u16 hP).bind fun _ => (keeps_u16 hP).bind fun _ => (keeps_u32 hP).bind fun _ =>
    (keeps_u32 hP).bind fun _ => (keeps_u32 hP).bind fun _ => (keeps_u32 hP).bind fun _ =>
    (keeps_string hP).bind fun _ => keeps_pure _

theorem keeps_matchmakeParam : Keeps P (MatchmakeParam.read s) := by
  refine keeps_level hP <| (keeps_count hP).bind fun n => ?_
  cases n with
  | none => exact keeps_pure ∅
  | some n =>
    exact (keeps_times ((keeps_string hP).bind fun k =>
      (keeps_variant hP).bind fun v => keeps_pure (k, v)) n).bind fun _ => keeps_pure _

/-- The derived level of a session. -/
theorem keeps_ownLevel (g : Gathering) : Keeps P (readLevel s (MatchmakeSession.loadOwn s g)) :=
  keeps_level hP <| (keeps_u32 hP).bind fun _ => (keeps_list hP (keeps_u32 hP)).bind fun _ =>
    (keeps_bool hP).bind fun _ => (keeps_u32 hP).bind fun _ => (keeps_buffer hP).bind fun _ =>
    (keeps_u32 hP).bind fun _ => (keeps_u8 hP).bind fun _ => (keeps_buffer hP).bind fun _ =>
    (keeps_u32 hP).bind fun _ => (keeps_matchmakeParam hP).bind fun _ => (keeps_u64 hP).bind fun _ =>
    (keeps_string hP).bind fun _ => (keeps_u32 hP).bind fun _ => (keeps_bool hP).bind fun _ =>
    (keeps_bool hP).bind fun _ => (keeps_string hP).bind fun _ => keeps_pure _

theorem keeps_session : Keeps P (MatchmakeSession.read s) :=
  (keeps_gathering hP).bind (keeps_ownLevel hP)

theorem keeps_resultRange : Keeps P (ResultRange.read s) :=
  keeps_level hP <| (keeps_u32 hP).bind fun _ => (keeps_u32 hP).bind fun _ => keeps_pure _

/-- The two versions that add fields are two more cases. -/
theorem keeps_searchCriteria : Keeps P (MatchmakeSessionSearchCriteria.read s) := by
  refine keeps_level hP <| (keeps_list hP (keeps_string hP)).bind fun _ =>
    (keeps_string hP).bind fun _ => (keeps_string hP).bind fun _ => (keeps_string hP).bind fun _ =>
    (keeps_string hP).bind fun _ => (keeps_bool hP).bind fun _ => (keeps_bool hP).bind fun _ =>
    (keeps_bool hP).bind fun _ => (keeps_u32 hP).bind fun _ => ?_
  have hnew : ∀ c : MatchmakeSessionSearchCriteria, Keeps P (do
      return { c with
        param := ← MatchmakeParam.read s
        excludeUserPassword := ← StreamIn.bool
        excludeSysPassword := ← StreamIn.bool
        referGID := ← StreamIn.u32
        codeword := ← StreamIn.string
        range := ← ResultRange.read s } : Reader MatchmakeSessionSearchCriteria) := fun c =>
    (keeps_matchmakeParam hP).bind fun _ => (keeps_bool hP).bind fun _ => (keeps_bool hP).bind fun _ =>
      (keeps_u32 hP).bind fun _ => (keeps_string hP).bind fun _ =>
      (keeps_resultRange hP).bind fun _ => keeps_pure _
  split
  · split
    · exact (keeps_u16 hP).bind fun _ => (keeps_pure _).bind hnew
    · exact (keeps_pure _).bind hnew
  · split
    · exact (keeps_u16 hP).bind fun _ => (keeps_pure _).bind keeps_pure
    · exact (keeps_pure _).bind keeps_pure

theorem keeps_blockList : Keeps P (MatchmakeBlockListParam.read s) :=
  keeps_level hP <| (keeps_u32 hP).bind fun _ => keeps_pure _

theorem keeps_findByParticipantParam : Keeps P (FindMatchmakeSessionByParticipantParam.read s) :=
  keeps_level hP <| (keeps_list hP (keeps_pid hP)).bind fun _ => (keeps_u32 hP).bind fun _ =>
    (keeps_blockList hP).bind fun _ => keeps_pure _

theorem keeps_findByParticipantResult : Keeps P (readFindByParticipantResult s) :=
  keeps_level hP <| (keeps_pid hP).bind fun _ => (keeps_session hP).bind fun _ => keeps_pure _

theorem keeps_simplePlayingSession : Keeps P (SimplePlayingSession.read s) :=
  keeps_level hP <| (keeps_pid hP).bind fun _ => (keeps_u32 hP).bind fun _ =>
    (keeps_u32 hP).bind fun _ => (keeps_u32 hP).bind fun _ => keeps_pure _

theorem keeps_updateMatchmakeSessionParam : Keeps P (UpdateMatchmakeSessionParam.read s) :=
  keeps_level hP <| (keeps_u32 hP).bind fun _ => (keeps_u32 hP).bind fun _ =>
    (keeps_list hP (keeps_u32 hP)).bind fun _ => (keeps_bool hP).bind fun _ =>
    (keeps_buffer hP).bind fun _ => (keeps_u8 hP).bind fun _ => (keeps_matchmakeParam hP).bind fun _ =>
    (keeps_u64 hP).bind fun _ => (keeps_string hP).bind fun _ => (keeps_u32 hP).bind fun _ =>
    (keeps_string hP).bind fun _ => (keeps_u16 hP).bind fun _ => (keeps_u16 hP).bind fun _ =>
    (keeps_u32 hP).bind fun _ => (keeps_u32 hP).bind fun _ => (keeps_u32 hP).bind fun _ =>
    (keeps_string hP).bind fun _ => keeps_pure _

theorem keeps_notificationEvent : Keeps P (NotificationEvent.read s) :=
  keeps_level hP <| (keeps_pid hP).bind fun _ => (keeps_u32 hP).bind fun _ =>
    (keeps_u64 hP).bind fun _ => (keeps_u64 hP).bind fun _ => (keeps_string hP).bind fun _ =>
    (keeps_u64 hP).bind fun _ => keeps_pure _

theorem keeps_rvConnectionData : Keeps P (RVConnectionData.read s) :=
  keeps_level hP <| (keeps_string hP).bind fun _ => (keeps_list hP (keeps_u8 hP)).bind fun _ =>
    (keeps_string hP).bind fun _ => (keeps_u64 hP).bind fun _ => keeps_pure _

theorem keeps_uniqueIDInfo : Keeps P (UniqueIDInfo.read s) :=
  keeps_level hP <| (keeps_u64 hP).bind fun _ => (keeps_u64 hP).bind fun _ => keeps_pure _

end Readers

/-! ### Every structure of the package -/

/-- The types that have `Levels`: those of the matchmaking protocols and four more. -/
inductive StructureType
  | matchmaking (T : MatchmakingStructure)
  | matchmakeBlockListParam
  | resultRange
  | rvConnectionData
  | uniqueIDInfo

namespace StructureType

def Value : StructureType → Type
  | matchmaking T => T.Value
  | matchmakeBlockListParam => MatchmakeBlockListParam
  | resultRange => ResultRange
  | rvConnectionData => RVConnectionData
  | uniqueIDInfo => UniqueIDInfo

/-- `Extract` into a fresh value. -/
def extract (s : Settings) : (T : StructureType) → Reader T.Value
  | matchmaking T => T.extract s
  | matchmakeBlockListParam => MatchmakeBlockListParam.read s
  | resultRange => ResultRange.read s
  | rvConnectionData => RVConnectionData.read s
  | uniqueIDInfo => UniqueIDInfo.read s

theorem keeps_extract (hP : Stable s P) (T : StructureType) : Keeps P (T.extract s) := by
  cases T with
  | matchmaking T =>
    cases T with
    | gathering => exact keeps_gathering hP
    | matchmakeSession => exact keeps_session hP
    | matchmakeParam => exact keeps_matchmakeParam hP
    | autoMatchmakeParam => exact keeps_level hP (keeps_session hP)
    | matchmakeSessionSearchCriteria => exact keeps_searchCriteria hP
    | findMatchmakeSessionByParticipantParam => exact keeps_findByParticipantParam hP
    | findMatchmakeSessionByParticipantResult => exact keeps_findByParticipantResult hP
    | updateMatchmakeSessionParam => exact keeps_updateMatchmakeSessionParam hP
    | simplePlayingSession => exact keeps_simplePlayingSession hP
    | notificationEvent => exact keeps_notificationEvent hP
  | matchmakeBlockListParam => exact keeps_blockList hP
  | resultRange => exact keeps_resultRange hP
  | rvConnectionData => exact keeps_rvConnectionData hP
  | uniqueIDInfo => exact keeps_uniqueIDInfo hP

end StructureType

/-! ### Where a failed read shows -/

/-- What has failed on a stream stays failed. -/
theorem stable_failed (s : Settings) : Stable s (fun st => st.failed = true) where
  read n := by
    intro st hst
    unfold StreamIn.read
    split
    · rfl
    · exact hst
  overrun st _ := rfl
  inner _ _ st inner _ hst := by
    show (st.failed || inner.failed) = true
    rw [hst, Bool.true_or]

/-- A failed read shows in `Err`, or it was a read of a level that ended before its fields. -/
def Accounted (st : StreamIn) : Prop := st.failed = (st.err || st.cut)

/-- A failed read of a stream sets its `Err`; that of a level is dropped with the level. -/
theorem stable_accounted (s : Settings) : Stable s Accounted where
  read n := by
    intro st hst
    unfold StreamIn.read
    split
    · rename_i hshort
      have herr : (st.err || n != 0) = true := by
        rcases hshort with h | h
        · rw [h, Bool.true_or]
        · have hn : (n != 0) = true := bne_iff_ne.mpr (by omega)
          rw [hn, Bool.or_true]
      show true = ((st.err || n != 0) || st.cut)
      rw [herr, Bool.true_or]
    · exact hst
  overrun _ _ := (Bool.true_or _).symm
  inner _ _ st inner hinner hst := by
    have hlevel : inner.failed = (inner.err || inner.cut) := hinner rfl
    show (st.failed || inner.failed) = (st.err || (st.cut || inner.err || inner.cut))
    rw [show st.failed = (st.err || st.cut) from hst, hlevel, Bool.or_assoc, Bool.or_assoc]

end NextendoMatchmaking
