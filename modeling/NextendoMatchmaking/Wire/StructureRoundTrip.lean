import NextendoMatchmaking.Wire.RoundTrip

/-!
# Structures come back

`Extract` undoes `Add` for the structures of matchmaking (`extract_add`): with struct headers or without, for
both sizes of a PID and for every NEX version, whatever follows and whatever order the parameter map was
written in.  The value is the one that was written, except for what the format does not carry: the fields of
a `Variant` that its tag does not select, and the fields of the search criteria that the version leaves out.

What the format can carry is said for each structure by its `Fits`.
-/

namespace NextendoMatchmaking

open NextendoMatchmaking.Parsing

variable {s : Settings} {order : List Bytes}
variable {m : MatchmakeSession}

/-! ### Variants and parameters -/

/-- The value without the fields that its tag does not select. -/
def Variant.selected (v : Variant) : Variant where
  type := v.type
  int := if v.type = int64Tag then v.int else 0
  double := if v.type = doubleTag then v.double else 0
  bool := if v.type = boolTag then v.bool else false
  string := if v.type = stringTag then v.string else []
  date := if v.type = dateTimeTag then v.date else 0
  uint := if v.type = uint64Tag then v.uint else 0

theorem reads_variant {v : Variant} (h : v.type = Variant.stringTag → StringFits v.string) :
    Reads Variant.load v.save v.selected := by
  obtain ⟨type, int, double, bool, string, date, uint⟩ := v
  refine (reads_u8 type).bind ?_
  -- One case for each tag; in the last one there is nothing behind the tag.
  by_cases hint : type = Variant.int64Tag
  · subst hint
    have hread := (reads_u64 int.toUInt64).last (k := fun x => ({ type := 1, int := x.toInt64 } : Variant))
    rw [Int64.toInt64_toUInt64] at hread
    exact hread
  by_cases hdouble : type = Variant.doubleTag
  · subst hdouble
    exact (reads_u64 double).last (k := fun x => ({ type := 2, double := x } : Variant))
  by_cases hbool : type = Variant.boolTag
  · subst hbool
    exact (reads_bool bool).last (k := fun x => ({ type := 3, bool := x } : Variant))
  by_cases hstring : type = Variant.stringTag
  · subst hstring
    exact (reads_string (h rfl)).last (k := fun x => ({ type := 4, string := x } : Variant))
  by_cases hdate : type = Variant.dateTimeTag
  · subst hdate
    exact (reads_u64 date).last (k := fun x => ({ type := 5, date := x } : Variant))
  by_cases huint : type = Variant.uint64Tag
  · subst huint
    exact (reads_u64 uint).last (k := fun x => ({ type := 6, uint := x } : Variant))
  simp only [Variant.selected, hint, hdouble, hbool, hstring, hdate, huint, if_false]
  exact parses_pure _

namespace MatchmakeParam

/-- The parameters without what the tags do not select. -/
def selected (p : MatchmakeParam) : MatchmakeParam := GoMap.mapValues Variant.selected p

/-- The format can carry the parameters, visited in the order `order`. -/
structure Fits (s : Settings) (order : List Bytes) (p : MatchmakeParam) : Prop where
  visits : GoMap.Enumerates order p
  len : GoMap.len p < 2 ^ 32
  keys : ∀ k v, p.lookup k = some v → StringFits k
  strings : ∀ k v, p.lookup k = some v → v.type = Variant.stringTag → StringFits v.string
  body : BufferFits (StreamOut.map StreamOut.string Variant.save order p)

theorem reads {p : MatchmakeParam} (h : Fits s order p) : Reads (read s) (write s order p) (selected p) := by
  apply reads_level h.body
  apply reads_map h.visits h.len
  · intro k v hv
    refine ⟨reads_string (h.keys k v hv), ?_⟩
    show 1 ≤ (StreamOut.u16 _ ++ (k ++ [0])).length
    rw [List.length_append, List.length_append, List.length_singleton]
    omega
  · intro k v hv
    exact reads_variant (h.strings k v hv)

end MatchmakeParam

/-! ### Sessions -/

namespace Gathering

structure Fits (s : Settings) (g : Gathering) : Prop where
  ownerPID : PIDFits s g.ownerPID
  hostPID : PIDFits s g.hostPID
  description : StringFits g.description
  body : BufferFits (g.save s)

theorem reads_load {g : Gathering} (h : g.Fits s) : Reads (load s) (g.save s) g := by
  simp only [save, List.append_assoc]
  exact (reads_u32 _).bind <| (reads_pid h.ownerPID).bind <| (reads_pid h.hostPID).bind <|
    (reads_u16 _).bind <| (reads_u16 _).bind <| (reads_u32 _).bind <| (reads_u32 _).bind <|
    (reads_u32 _).bind <| (reads_u32 _).bind <| (reads_string h.description).last

theorem reads {g : Gathering} (h : g.Fits s) : Reads (read s) (g.write s) g :=
  reads_level h.body (reads_load h)

end Gathering

theorem reads_u32s {l : List UInt32} (h : l.length < 2 ^ 32) :
    Reads (StreamIn.list StreamIn.u32) (StreamOut.list StreamOut.u32 l) l := by
  apply reads_list h
  · intro x _
    exact reads_u32 x
  · intro x _
    show 1 ≤ (leBytes 4 x.toNat).length
    rw [length_leBytes]
    decide

namespace MatchmakeSession

/-- The session without what the tags of its parameters do not select. -/
def selected (m : MatchmakeSession) : MatchmakeSession := { m with param := m.param.selected }

structure Fits (s : Settings) (order : List Bytes) (m : MatchmakeSession) : Prop where
  gathering : m.toGathering.Fits s
  attribs : m.attribs.length < 2 ^ 32
  applicationData : BufferFits m.applicationData
  sessionKey : BufferFits m.sessionKey
  param : m.param.Fits s order
  userPassword : StringFits m.userPassword
  codeword : StringFits m.codeword
  body : BufferFits (m.saveOwn s order)

theorem reads_loadOwn (h : m.Fits s order) :
    Reads (loadOwn s m.toGathering) (m.saveOwn s order) m.selected := by
  refine .of_eq ?_ <| (reads_u32 m.gameMode).bind <| (reads_u32s h.attribs).bind <|
    (reads_bool m.openParticipation).bind <| (reads_u32 m.matchmakeSystem).bind <|
    (reads_buffer h.applicationData).bind <| (reads_u32 m.numParticipants).bind <|
    (reads_u8 m.progressScore).bind <| (reads_buffer h.sessionKey).bind <| (reads_u32 m.option).bind <|
    (MatchmakeParam.reads h.param).bind <| (reads_u64 m.startedTime).bind <|
    (reads_string h.userPassword).bind <| (reads_u32 m.referGID).bind <|
    (reads_bool m.userPasswordEnabled).bind <| (reads_bool m.systemPasswordEnabled).bind <|
    (reads_string h.codeword).last
  unfold saveOwn StreamOut.dateTime
  simp only [List.append_assoc]

theorem reads (h : m.Fits s order) : Reads (read s) (m.write s order) m.selected :=
  (reads_level h.gathering.body (Gathering.reads_load h.gathering)).bind
    (reads_level h.body (reads_loadOwn h))

end MatchmakeSession

theorem reads_autoMatchmakeParam (h : m.Fits s order) (hbody : BufferFits (m.write s order)) :
    Reads (readAutoMatchmakeParam s) (writeAutoMatchmakeParam s order m) m.selected :=
  reads_level hbody (MatchmakeSession.reads h)

/-! ### Searches -/

theorem ResultRange.reads (r : ResultRange) : Reads (read s) (r.write s) r := by
  refine reads_level ?_ ((reads_u32 _).bind (reads_u32 _).last)
  show (leBytes 4 _ ++ leBytes 4 _).length < 2 ^ 32
  rw [List.length_append, length_leBytes, length_leBytes]
  decide

namespace MatchmakeSessionSearchCriteria

/-- The criteria with the fields that the version leaves out set back, and without what the tags of the
parameters do not select. -/
def carried (s : Settings) (c : MatchmakeSessionSearchCriteria) : MatchmakeSessionSearchCriteria :=
  let base := { c with
    vacantParticipants := if s.nexVersion ≥ 30500 then c.vacantParticipants else 0 }
  if s.nexVersion ≥ 40000 then { base with param := c.param.selected }
  else { base with
    param := ∅
    excludeUserPassword := false
    excludeSysPassword := false
    referGID := 0
    codeword := []
    range := ⟨0, 0⟩ }

structure Fits (s : Settings) (order : List Bytes) (c : MatchmakeSessionSearchCriteria) : Prop where
  attribs : c.attribs.length < 2 ^ 32
  attrib : ∀ a ∈ c.attribs, StringFits a
  gameMode : StringFits c.gameMode
  minParticipants : StringFits c.minParticipants
  maxParticipants : StringFits c.maxParticipants
  matchmakeSystem : StringFits c.matchmakeSystem
  param : c.param.Fits s order
  codeword : StringFits c.codeword
  body : BufferFits (c.save s order)

theorem reads_load {c : MatchmakeSessionSearchCriteria} (h : c.Fits s order) :
    Reads (load s) (c.save s order) (c.carried s) := by
  have hattribs : Reads (StreamIn.list StreamIn.string) (StreamOut.list StreamOut.string c.attribs)
      c.attribs := by
    apply reads_list h.attribs
    · intro a ha
      exact reads_string (h.attrib a ha)
    · intro a _
      show 1 ≤ (StreamOut.u16 _ ++ (a ++ [0])).length
      rw [List.length_append, List.length_append, List.length_singleton]
      omega
  simp only [save, List.append_assoc]
  refine hattribs.bind <| (reads_string h.gameMode).bind <| (reads_string h.minParticipants).bind <|
    (reads_string h.maxParticipants).bind <| (reads_string h.matchmakeSystem).bind <|
    (reads_bool _).bind <| (reads_bool _).bind <| (reads_bool _).bind <| (reads_u32 _).bind ?_
  simp only [pure_bind, carried]
  by_cases h35 : s.nexVersion ≥ 30500
  · by_cases h40 : s.nexVersion ≥ 40000
    · simp only [h35, h40, if_true]
      exact (reads_u16 _).bind <| (MatchmakeParam.reads h.param).bind <| (reads_bool _).bind <|
        (reads_bool _).bind <| (reads_u32 _).bind <| (reads_string h.codeword).bind <|
        (ResultRange.reads _).last
    · simp only [h35, h40, if_true, if_false]
      exact (reads_u16 _).bind (parses_pure _)
  · have h40 : ¬ s.nexVersion ≥ 40000 := by omega
    simp only [h35, h40, if_false]
    exact parses_pure _

theorem reads {c : MatchmakeSessionSearchCriteria} (h : c.Fits s order) :
    Reads (read s) (c.write s order) (c.carried s) :=
  reads_level h.body (reads_load h)

end MatchmakeSessionSearchCriteria

theorem MatchmakeBlockListParam.reads (p : MatchmakeBlockListParam) : Reads (read s) (p.write s) p := by
  refine reads_level ?_ (reads_u32 _).last
  show (leBytes 4 _).length < 2 ^ 32
  rw [length_leBytes]
  decide

namespace FindMatchmakeSessionByParticipantParam

structure Fits (s : Settings) (p : FindMatchmakeSessionByParticipantParam) : Prop where
  principalIDs : p.principalIDs.length < 2 ^ 32
  principalID : ∀ pid ∈ p.principalIDs, PIDFits s pid
  body : BufferFits (StreamOut.list (StreamOut.pid s) p.principalIDs ++ StreamOut.u32 p.options ++
    p.blockList.write s)

theorem reads {p : FindMatchmakeSessionByParticipantParam} (h : p.Fits s) : Reads (read s) (p.write s) p := by
  have hpids : Reads (StreamIn.list (StreamIn.pid s)) (StreamOut.list (StreamOut.pid s) p.principalIDs)
      p.principalIDs := by
    apply reads_list h.principalIDs
    · intro pid hpid
      exact reads_pid (h.principalID pid hpid)
    · intro pid _
      unfold StreamOut.pid
      split
      · show 1 ≤ (leBytes 8 _).length
        rw [length_leBytes]
        decide
      · show 1 ≤ (leBytes 4 _).length
        rw [length_leBytes]
        decide
  apply reads_level h.body
  simp only [List.append_assoc]
  exact hpids.bind <| (reads_u32 _).bind <| (MatchmakeBlockListParam.reads _).last

end FindMatchmakeSessionByParticipantParam

theorem reads_findByParticipantResult {pid : UInt64} (hpid : PIDFits s pid) (h : m.Fits s order)
    (hbody : BufferFits (StreamOut.pid s pid ++ m.write s order)) :
    Reads (readFindByParticipantResult s) (writeFindByParticipantResult s order pid m)
      (pid, m.selected) :=
  reads_level hbody ((reads_pid hpid).bind (MatchmakeSession.reads h).last)

theorem SimplePlayingSession.reads {p : SimplePlayingSession} (h : PIDFits s p.principalID)
    (hbody : BufferFits (StreamOut.pid s p.principalID ++ StreamOut.u32 p.gatheringID ++
      StreamOut.u32 p.gameMode ++ StreamOut.u32 p.attribute0)) : Reads (read s) (p.write s) p := by
  apply reads_level hbody
  simp only [List.append_assoc]
  exact (reads_pid h).bind <| (reads_u32 _).bind <| (reads_u32 _).bind <| (reads_u32 _).last

/-! ### Updates and notifications -/

namespace UpdateMatchmakeSessionParam

/-- The update without what the tags of its parameters do not select. -/
def selected (p : UpdateMatchmakeSessionParam) : UpdateMatchmakeSessionParam :=
  { p with param := p.param.selected }

structure Fits (s : Settings) (order : List Bytes) (p : UpdateMatchmakeSessionParam) : Prop where
  attributes : p.attributes.length < 2 ^ 32
  applicationBuffer : BufferFits p.applicationBuffer
  param : p.param.Fits s order
  userPassword : StringFits p.userPassword
  description : StringFits p.description
  codeword : StringFits p.codeword
  body : BufferFits (p.save s order)

theorem reads {p : UpdateMatchmakeSessionParam} (h : p.Fits s order) :
    Reads (read s) (p.write s order) p.selected := by
  apply reads_level h.body
  refine .of_eq ?_ <| (reads_u32 p.gid).bind <| (reads_u32 p.modificationFlags).bind <|
    (reads_u32s h.attributes).bind <| (reads_bool p.openParticipation).bind <|
    (reads_buffer h.applicationBuffer).bind <| (reads_u8 p.progressScore).bind <|
    (MatchmakeParam.reads h.param).bind <| (reads_u64 p.startedTime).bind <|
    (reads_string h.userPassword).bind <| (reads_u32 p.gameMode).bind <|
    (reads_string h.description).bind <| (reads_u16 p.minParticipants).bind <|
    (reads_u16 p.maxParticipants).bind <| (reads_u32 p.matchmakeSystem).bind <|
    (reads_u32 p.participationPolicy).bind <| (reads_u32 p.policyArgument).bind <|
    (reads_string h.codeword).last
  unfold save StreamOut.dateTime
  simp only [List.append_assoc]

end UpdateMatchmakeSessionParam

namespace NotificationEvent

structure Fits (s : Settings) (n : NotificationEvent) : Prop where
  pidSource : PIDFits s n.pidSource
  strParam : StringFits n.strParam
  body : BufferFits (StreamOut.pid s n.pidSource ++ StreamOut.u32 n.type ++ StreamOut.u64 n.param1 ++
    StreamOut.u64 n.param2 ++ StreamOut.string n.strParam ++ StreamOut.u64 n.param3)

theorem reads {n : NotificationEvent} (h : n.Fits s) : Reads (read s) (n.write s) n := by
  apply reads_level h.body
  simp only [List.append_assoc]
  exact (reads_pid h.pidSource).bind <| (reads_u32 _).bind <| (reads_u64 _).bind <|
    (reads_u64 _).bind <| (reads_string h.strParam).bind <| (reads_u64 _).last

end NotificationEvent

/-! ### All structures of matchmaking -/

/-- The structures that the matchmaking handlers and their clients exchange. -/
inductive MatchmakingStructure
  | gathering
  | matchmakeSession
  | matchmakeParam
  | autoMatchmakeParam
  | matchmakeSessionSearchCriteria
  | findMatchmakeSessionByParticipantParam
  | findMatchmakeSessionByParticipantResult
  | updateMatchmakeSessionParam
  | simplePlayingSession
  | notificationEvent

namespace MatchmakingStructure

/-- The Go type of the structure; of `AutoMatchmakeParam` its only field. -/
def Value : MatchmakingStructure → Type
  | gathering => Gathering
  | matchmakeSession => MatchmakeSession
  | matchmakeParam => MatchmakeParam
  | autoMatchmakeParam => MatchmakeSession
  | matchmakeSessionSearchCriteria => MatchmakeSessionSearchCriteria
  | findMatchmakeSessionByParticipantParam => FindMatchmakeSessionByParticipantParam
  | findMatchmakeSessionByParticipantResult => UInt64 × MatchmakeSession
  | updateMatchmakeSessionParam => UpdateMatchmakeSessionParam
  | simplePlayingSession => SimplePlayingSession
  | notificationEvent => NotificationEvent

/-- `Add`, with the order in which the runtime iterates over the parameters. -/
def add (s : Settings) (order : List Bytes) : (T : MatchmakingStructure) → T.Value → Bytes
  | gathering => Gathering.write s
  | matchmakeSession => MatchmakeSession.write s order
  | matchmakeParam => MatchmakeParam.write s order
  | autoMatchmakeParam => writeAutoMatchmakeParam s order
  | matchmakeSessionSearchCriteria => MatchmakeSessionSearchCriteria.write s order
  | findMatchmakeSessionByParticipantParam => FindMatchmakeSessionByParticipantParam.write s
  | findMatchmakeSessionByParticipantResult => fun v => writeFindByParticipantResult s order v.1 v.2
  | updateMatchmakeSessionParam => UpdateMatchmakeSessionParam.write s order
  | simplePlayingSession => SimplePlayingSession.write s
  | notificationEvent => NotificationEvent.write s

/-- `Extract` into a fresh value. -/
def extract (s : Settings) : (T : MatchmakingStructure) → Reader T.Value
  | gathering => Gathering.read s
  | matchmakeSession => MatchmakeSession.read s
  | matchmakeParam => MatchmakeParam.read s
  | autoMatchmakeParam => readAutoMatchmakeParam s
  | matchmakeSessionSearchCriteria => MatchmakeSessionSearchCriteria.read s
  | findMatchmakeSessionByParticipantParam => FindMatchmakeSessionByParticipantParam.read s
  | findMatchmakeSessionByParticipantResult => readFindByParticipantResult s
  | updateMatchmakeSessionParam => UpdateMatchmakeSessionParam.read s
  | simplePlayingSession => SimplePlayingSession.read s
  | notificationEvent => NotificationEvent.read s

/-- Strings take at most 65534 bytes, buffers, lists, maps and the bodies of the levels fewer than `2 ^ 32`,
the PIDs have the size that the settings say, and `order` lists the parameters. -/
def Fits (s : Settings) (order : List Bytes) : (T : MatchmakingStructure) → T.Value → Prop
  | gathering => Gathering.Fits s
  | matchmakeSession => MatchmakeSession.Fits s order
  | matchmakeParam => MatchmakeParam.Fits s order
  | autoMatchmakeParam => fun m => MatchmakeSession.Fits s order m ∧ BufferFits (m.write s order)
  | matchmakeSessionSearchCriteria => MatchmakeSessionSearchCriteria.Fits s order
  | findMatchmakeSessionByParticipantParam => FindMatchmakeSessionByParticipantParam.Fits s
  | findMatchmakeSessionByParticipantResult => fun v => PIDFits s v.1 ∧
      MatchmakeSession.Fits s order v.2 ∧ BufferFits (StreamOut.pid s v.1 ++ v.2.write s order)
  | updateMatchmakeSessionParam => UpdateMatchmakeSessionParam.Fits s order
  | simplePlayingSession => fun p => PIDFits s p.principalID ∧ BufferFits (StreamOut.pid s p.principalID ++
      StreamOut.u32 p.gatheringID ++ StreamOut.u32 p.gameMode ++ StreamOut.u32 p.attribute0)
  | notificationEvent => NotificationEvent.Fits s

/-- What the format carries of a value. -/
def carried (s : Settings) : (T : MatchmakingStructure) → T.Value → T.Value
  | gathering => id
  | matchmakeSession => MatchmakeSession.selected
  | matchmakeParam => MatchmakeParam.selected
  | autoMatchmakeParam => MatchmakeSession.selected
  | matchmakeSessionSearchCriteria => MatchmakeSessionSearchCriteria.carried s
  | findMatchmakeSessionByParticipantParam => id
  | findMatchmakeSessionByParticipantResult => fun v => (v.1, v.2.selected)
  | updateMatchmakeSessionParam => UpdateMatchmakeSessionParam.selected
  | simplePlayingSession => id
  | notificationEvent => id

end MatchmakingStructure

/-- **Round trip of the structures.**  `Extract` on what `Add` wrote, whatever follows it, records no error,
leaves exactly what follows and gives the value back. -/
theorem extract_add (T : MatchmakingStructure) (s : Settings) (order : List Bytes) (v : T.Value)
    (h : T.Fits s order v) (suffix : Bytes) :
    T.extract s (newStreamIn (T.add s order v ++ suffix)) = (T.carried s v, newStreamIn suffix) := by
  have hreads : Reads (T.extract s) (T.add s order v) (T.carried s v) := by
    cases T with
    | gathering => exact Gathering.reads h
    | matchmakeSession => exact MatchmakeSession.reads h
    | matchmakeParam => exact MatchmakeParam.reads h
    | autoMatchmakeParam => exact reads_autoMatchmakeParam h.1 h.2
    | matchmakeSessionSearchCriteria => exact MatchmakeSessionSearchCriteria.reads h
    | findMatchmakeSessionByParticipantParam => exact FindMatchmakeSessionByParticipantParam.reads h
    | findMatchmakeSessionByParticipantResult => exact reads_findByParticipantResult h.1 h.2.1 h.2.2
    | updateMatchmakeSessionParam => exact UpdateMatchmakeSessionParam.reads h
    | simplePlayingSession => exact SimplePlayingSession.reads h.1 h.2
    | notificationEvent => exact NotificationEvent.reads h
  exact hreads suffix

/-- Two parameters, `@SR` and `@GIR`. -/
def sampleParam : MatchmakeParam :=
  ((∅ : MatchmakeParam).insert [0x40, 0x53, 0x52] { type := Variant.boolTag, bool := true }).insert
    [0x40, 0x47, 0x49, 0x52] { type := Variant.int64Tag, int := 3 }

/-- An order in which they may be visited. -/
def sampleOrder : List Bytes := [[0x40, 0x53, 0x52], [0x40, 0x47, 0x49, 0x52]]

theorem fits_sampleParam : MatchmakeParam.Fits (newSwitchSettings [] 40000) sampleOrder sampleParam := by
  have horder : GoMap.Enumerates sampleOrder sampleParam := by decide +kernel
  have hentry : ∀ k v, sampleParam.lookup k = some v → k.length ≤ 4 ∧ v.type ≠ Variant.stringTag := by
    intro k v hv
    rw [sampleParam, GoMap.lookup_insert_eq, GoMap.lookup_insert_eq] at hv
    split at hv
    · rename_i hk
      cases hv
      exact ⟨by rw [hk]; decide, by decide⟩
    · split at hv
      · rename_i hk
        cases hv
        exact ⟨by rw [hk]; decide, by decide⟩
      · cases hv
  refine ⟨horder, by decide +kernel, ?_, ?_, ?_⟩
  · intro k v hv
    have hlen := (hentry k v hv).1
    show k.length ≤ 65534
    omega
  · intro k v hv htype
    exact absurd htype (hentry k v hv).2
  · show _ < _
    decide +kernel

theorem extract_add_param :
    MatchmakingStructure.extract (newSwitchSettings [] 40000) .matchmakeParam
        (newStreamIn (MatchmakingStructure.add (newSwitchSettings [] 40000) sampleOrder .matchmakeParam
          sampleParam ++ [7])) =
      (sampleParam.selected, newStreamIn [7]) :=
  extract_add .matchmakeParam (newSwitchSettings [] 40000) sampleOrder sampleParam fits_sampleParam [7]

end NextendoMatchmaking
