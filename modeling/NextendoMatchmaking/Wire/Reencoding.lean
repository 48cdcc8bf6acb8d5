import NextendoMatchmaking.Wire.Echoes
import NextendoMatchmaking.Wire.Sizes

/-!
# Sessions that are decoded and written again

The decoder accepts more than the encoder writes: strings without a terminator, any tag of a variant, bytes
behind the last field.  What it gives is nearly always something that the encoder writes and the decoder
reads back.  The exception is a string of 65535 bytes, which arrives without a terminator: the encoder adds
one and writes the length 65536 as a `u16`, that is as 0.  A body that reaches 2^32 bytes when it is written
again loses its length in the same way.

`sessions_relayed_unchanged` says that these are the only exceptions.
-/

namespace NextendoMatchmaking

open NextendoMatchmaking.Parsing

variable {s : Settings}
variable {v : Variant} {α : Type} {p : MatchmakeParam} {before after : List Bytes} {m : MatchmakeSession}

/-! ### Variants -/

/-- What the encoder needs of a variant. -/
def Variant.StringFits (v : Variant) : Prop := v.type = stringTag → NextendoMatchmaking.StringFits v.string

theorem variant_wrapped (hlength : v.string.length ≤ 65535) (h : ¬ v.StringFits) (suffix : Bytes) :
    (Variant.load (newStreamIn (v.save ++ suffix))).1 ≠ v := by
  obtain ⟨htag, hnot⟩ := Classical.not_imp.mp h
  have hload : (Variant.load (newStreamIn (v.save ++ suffix))).1.string =
      (StreamIn.string (newStreamIn (StreamOut.string v.string ++ suffix))).1 := by
    unfold Variant.save
    rw [htag, Variant.load, bind_apply, List.append_assoc, reads_u8]
    rfl
  unfold NextendoMatchmaking.StringFits at hnot
  intro heq
  rw [heq, string_wrapped (by omega)] at hload
  rw [hload] at hnot
  exact hnot (Nat.zero_le _)

/-! ### Parameters

The runtime writes the entries of a map in any order, so the parameters survive when they survive every
order. -/

namespace MatchmakeParam

/-- The encoder can write every string of the parameters. -/
structure StringsFit (p : MatchmakeParam) : Prop where
  keys : ∀ k v, p.lookup k = some v → StringFits k
  values : ∀ k v, p.lookup k = some v → v.StringFits

/-- Elements that come back, and then others. -/
theorem times_append {ι : Type} {f : Reader α} {w : ι → Bytes} {k : ι → α} {l : List ι}
    (h : ∀ x ∈ l, Reads f (w x) (k x)) (n : ℕ) (rest : Bytes) :
    StreamIn.times f (l.length + n) (newStreamIn (l.flatMap w ++ rest)) =
      (l.map k ++ (StreamIn.times f n (newStreamIn rest)).1,
        (StreamIn.times f n (newStreamIn rest)).2) := by
  induction l with
  | nil =>
    rw [List.length_nil, Nat.zero_add]
    rfl
  | cons x l ih =>
    have htail := ih (fun y hy => h y (List.mem_cons_of_mem _ hy))
    rw [List.length_cons, show l.length + 1 + n = (l.length + n) + 1 by omega, StreamIn.times, bind_apply,
      List.flatMap_cons, List.append_assoc, h x List.mem_cons_self, bind_apply, htail]
    rfl

theorem length_string_pos (str : Bytes) : 1 ≤ (StreamOut.string str).length := by
  show 1 ≤ (StreamOut.u16 _ ++ (str ++ [0])).length
  rw [List.length_append, List.length_append, List.length_singleton]
  omega

theorem selected_eq (h : p.Decoded) : p.selected = p := by
  apply Finmap.ext_lookup
  intro k
  rw [selected, GoMap.lookup_mapValues]
  cases hv : p.lookup k with
  | none => rfl
  | some v => rw [Option.map_some, h.selected k v hv]

theorem reads_of_stringsFit {order : List Bytes} (h : p.Decoded) (horder : GoMap.Enumerates order p)
    (hfit : p.StringsFit) :
    Reads (StreamIn.map StreamIn.string Variant.load) (StreamOut.map StreamOut.string Variant.save order p)
      p := by
  have hread := reads_map (c := Variant.selected) horder h.len
    (fun k v hv => ⟨reads_string (hfit.keys k v hv), length_string_pos k⟩)
    (fun k v hv => reads_variant (hfit.values k v hv))
  rw [show GoMap.mapValues Variant.selected p = p from selected_eq h] at hread
  exact hread

theorem mem_times_succ (f : Reader α) (n : ℕ) (i : StreamIn) : (f i).1 ∈ (StreamIn.times f (n + 1) i).1 := by
  rw [StreamIn.times, bind_apply, bind_apply]
  exact List.mem_cons_self

/-- The bytes of an entry. -/
def entryBytes (e : Bytes × Variant) : Bytes := StreamOut.string e.1 ++ e.2.save

theorem entriesIn_split {k : Bytes} (hv : p.lookup k = some v) : GoMap.entriesIn (before ++ k :: after) p =
      GoMap.entriesIn before p ++ (k, v) :: GoMap.entriesIn after p := by
  unfold GoMap.entriesIn
  rw [List.filterMap_append, List.filterMap_cons_some (by rw [hv]; rfl)]

/-- What is read as the map when the entries `before` come back: those, and as many more as there are. -/
theorem map_read_before {k : Bytes} (h : p.Decoded) (horder : GoMap.Enumerates (before ++ k :: after) p)
    (hv : p.lookup k = some v)
    (hbefore : ∀ k' v', k' ∈ before → p.lookup k' = some v' → StringFits k' ∧ v'.StringFits) (suffix : Bytes) :
    (StreamIn.map StreamIn.string Variant.load (newStreamIn
      (StreamOut.map StreamOut.string Variant.save (before ++ k :: after) p ++ suffix))).1 =
      (GoMap.entriesIn before p ++
        (StreamIn.times readEntry ((GoMap.entriesIn after p).length + 1) (newStreamIn
          (entryBytes (k, v) ++ ((GoMap.entriesIn after p).flatMap entryBytes ++ suffix)))).1).foldl
        (fun m p => m.insert p.1 p.2) ∅ := by
  have hpos : ∀ e ∈ GoMap.entriesIn (before ++ k :: after) p, 1 ≤ (entryBytes e).length := by
    intro e _
    have hkey := length_string_pos e.1
    rw [entryBytes, List.length_append]
    omega
  have henough := length_le_flatMap hpos
  have hlength := GoMap.length_entriesIn horder
  have hcount : StreamIn.count (newStreamIn (StreamOut.u32 (UInt32.ofNat (GoMap.len p)) ++
      ((GoMap.entriesIn (before ++ k :: after) p).flatMap entryBytes ++ suffix))) =
      (some (GoMap.len p), _) :=
    count_eq h.len (by rw [List.length_append]; omega)
  have hreads : ∀ e ∈ GoMap.entriesIn before p, Reads readEntry (entryBytes e) e := by
    intro e he
    obtain ⟨hmem, he'⟩ := GoMap.mem_entriesIn.mp he
    obtain ⟨hkey, hvalue⟩ := hbefore _ _ hmem he'
    have hread := reads_variant hvalue
    rw [h.selected _ _ he'] at hread
    exact (reads_string hkey).bind (hread.last (k := fun v => (e.1, v)))
  have hlen : GoMap.len p = (GoMap.entriesIn before p).length + ((GoMap.entriesIn after p).length + 1) := by
    rw [← hlength, entriesIn_split hv, List.length_append, List.length_cons]
  -- the entries before come back, and then something else is read
  have hpairs : (StreamIn.times readEntry (GoMap.len p)
      (newStreamIn ((GoMap.entriesIn (before ++ k :: after) p).flatMap entryBytes ++ suffix))).1 =
      GoMap.entriesIn before p ++
        (StreamIn.times readEntry ((GoMap.entriesIn after p).length + 1) (newStreamIn
          (entryBytes (k, v) ++ ((GoMap.entriesIn after p).flatMap entryBytes ++ suffix)))).1 := by
    rw [entriesIn_split hv, hlen, List.flatMap_append, List.append_assoc, times_append (k := id) hreads,
      List.map_id, List.flatMap_cons, List.append_assoc]
  have hwritten : StreamOut.map StreamOut.string Variant.save (before ++ k :: after) p =
      StreamOut.u32 (UInt32.ofNat (GoMap.len p)) ++
        (GoMap.entriesIn (before ++ k :: after) p).flatMap entryBytes := map_eq_entries _ _
  rw [hwritten, List.append_assoc, StreamIn.map, bind_apply, hcount, ← hpairs]
  rfl

/-- The first entry that does not come back is read as something else, and there are only as many reads as
entries: the map that is read has a wrong value, or it lacks a key. -/
theorem misses_of_entry {k : Bytes} (h : p.Decoded) (horder : GoMap.Enumerates (before ++ k :: after) p)
    (hv : p.lookup k = some v)
    (hbefore : ∀ k' v', k' ∈ before → p.lookup k' = some v' → StringFits k' ∧ v'.StringFits)
    (hentry : ∀ rest, (readEntry (newStreamIn (StreamOut.string k ++ v.save ++ rest))).1.1 ∈ before ∨
      p.lookup (readEntry (newStreamIn (StreamOut.string k ++ v.save ++ rest))).1.1 ≠
        some (readEntry (newStreamIn (StreamOut.string k ++ v.save ++ rest))).1.2) :
    Misses newStreamIn Failed (StreamIn.map StreamIn.string Variant.load)
      (StreamOut.map StreamOut.string Variant.save (before ++ k :: after) p) p := by
  intro suffix
  right
  intro heq
  rw [map_read_before h horder hv hbefore suffix] at heq
  obtain ⟨hnodup, hall⟩ := GoMap.entries_of_foldl_insert heq (by
    rw [List.length_append, length_times, ← GoMap.length_entriesIn horder, entriesIn_split hv,
      List.length_append, List.length_cons])
  have hmem := mem_times_succ readEntry (GoMap.entriesIn after p).length
    (newStreamIn (entryBytes (k, v) ++ ((GoMap.entriesIn after p).flatMap entryBytes ++ suffix)))
  have hwrong := hentry ((GoMap.entriesIn after p).flatMap entryBytes ++ suffix)
  rw [← show entryBytes (k, v) = StreamOut.string k ++ v.save from rfl] at hwrong
  revert hmem hwrong
  generalize (readEntry (newStreamIn
    (entryBytes (k, v) ++ ((GoMap.entriesIn after p).flatMap entryBytes ++ suffix)))).1 = e
  intro hmem hwrong
  rcases hwrong with hdup | hne
  · -- a key that has been read already
    obtain ⟨w, hw⟩ := Option.isSome_iff_exists.mp (Finmap.lookup_isSome.mpr
      ((horder.2 _).mp (List.mem_append_left _ hdup)))
    have hfirst := List.mem_map_of_mem (f := Prod.fst) (GoMap.mem_entriesIn.mpr ⟨hdup, hw⟩)
    rw [List.map_append] at hnodup
    exact (List.nodup_append.mp hnodup).2.2 _ hfirst _ (List.mem_map_of_mem hmem) rfl
  · exact hne (hall _ (List.mem_append_right _ hmem))

/-- Written in this order, the parameters come back exactly when the encoder can write their strings. -/
abbrev Echoes (p : MatchmakeParam) (order : List Bytes) : Prop :=
  EchoesRead (StreamIn.map StreamIn.string Variant.load)
    (StreamOut.map StreamOut.string Variant.save order p) p p.StringsFit

/-- **Some order shows the loss.**  An entry whose value does not come back is written first; if there is
none, the keys that come back are written before those that do not. -/
theorem exists_echoes (h : p.Decoded) : ∃ order, GoMap.Enumerates order p ∧ p.Echoes order := by
  obtain ⟨order, horder⟩ := GoMap.exists_enumerates p
  by_cases hfit : p.StringsFit
  · exact ⟨order, horder, fun _ => reads_of_stringsFit h horder hfit, fun hnot => absurd hfit hnot⟩
  by_cases hvalue : ∃ k v, p.lookup k = some v ∧ StringFits k ∧ ¬ v.StringFits
  · obtain ⟨k, v, hv, hkey, hbad⟩ := hvalue
    have hmem : k ∈ order := (horder.2 k).mpr (Finmap.mem_of_lookup_eq_some hv)
    have horder' : GoMap.Enumerates ([] ++ k :: order.erase k) p :=
      horder.of_perm (List.perm_cons_erase hmem)
    refine ⟨_, horder', fun hall => absurd hall hfit, fun _ => misses_of_entry h horder' hv (by simp) ?_⟩
    intro rest
    right
    have hread : (readEntry (newStreamIn (StreamOut.string k ++ v.save ++ rest))).1 =
        (k, (Variant.load (newStreamIn (v.save ++ rest))).1) := by
      rw [readEntry, bind_apply, List.append_assoc, reads_string hkey]
      rfl
    rw [hread, hv]
    exact fun heq => variant_wrapped (h.strings k v hv) hbad rest (Option.some.inj heq).symm
  · have hgood : ∀ k v, p.lookup k = some v → StringFits k → v.StringFits := by
      intro k v hv hkey
      by_contra hbad
      exact hvalue ⟨k, v, hv, hkey, hbad⟩
    obtain ⟨k, v, hv, hbad⟩ : ∃ k v, p.lookup k = some v ∧ ¬ StringFits k := by
      by_contra hnone
      refine hfit ⟨fun k v hv => ?_, fun k v hv => hgood k v hv ?_⟩ <;>
        exact Classical.not_not.mp fun hbad => hnone ⟨k, v, hv, hbad⟩
    have hsplit := (List.filter_append_perm (fun k : Bytes => decide (k.length ≤ 65534)) order).symm
    have hmem : k ∈ order.filter (fun k : Bytes => !decide (k.length ≤ 65534)) :=
      List.mem_filter.mpr ⟨(horder.2 k).mpr (Finmap.mem_of_lookup_eq_some hv), by
        have hlong : ¬ k.length ≤ 65534 := hbad
        simp [hlong]⟩
    have horder' := horder.of_perm (hsplit.trans ((List.perm_cons_erase hmem).append_left _))
    refine ⟨_, horder', fun hall => absurd hall hfit, fun _ => misses_of_entry h horder' hv ?_ ?_⟩
    · intro k' v' hk' hv'
      have hkey : k'.length ≤ 65534 := of_decide_eq_true (List.mem_filter.mp hk').2
      exact ⟨hkey, hgood k' v' hv' hkey⟩
    · intro rest
      have hread : (readEntry (newStreamIn (StreamOut.string k ++ v.save ++ rest))).1.1 = [] := by
        have hlong : ¬ k.length ≤ 65534 := hbad
        have hlength : k.length = 65535 := by
          have := h.keys k v hv
          omega
        rw [List.append_assoc]
        exact string_wrapped hlength (v.save ++ rest)
      rw [hread]
      cases hempty : p.lookup [] with
      | none => exact .inr (by simp)
      | some w =>
        refine .inl (List.mem_filter.mpr ⟨(horder.2 []).mpr (Finmap.mem_of_lookup_eq_some hempty), rfl⟩)

end MatchmakeParam

/-! ### When a session comes back -/

/-- The encoder can write every string of the session. -/
structure MatchmakeSession.StringsFit (m : MatchmakeSession) : Prop where
  description : NextendoMatchmaking.StringFits m.description
  param : m.param.StringsFit
  userPassword : NextendoMatchmaking.StringFits m.userPassword
  codeword : NextendoMatchmaking.StringFits m.codeword

/-- The encoder can write every string of the update. -/
structure UpdateMatchmakeSessionParam.StringsFit (p : UpdateMatchmakeSessionParam) : Prop where
  param : p.param.StringsFit
  userPassword : NextendoMatchmaking.StringFits p.userPassword
  description : NextendoMatchmaking.StringFits p.description
  codeword : NextendoMatchmaking.StringFits p.codeword

theorem echoes_gathering {g : Gathering} (h : g.Decoded s) :
    EchoesRead (Gathering.load s) (g.save s) g (StringFits g.description) := by
  simp only [Gathering.save, List.append_assoc]
  exact (reads_u32 _).echoes <| (reads_pid h.ownerPID).echoes <| (reads_pid h.hostPID).echoes <|
    (reads_u16 _).echoes <| (reads_u16 _).echoes <| (reads_u32 _).echoes <| (reads_u32 _).echoes <|
    (reads_u32 _).echoes <| (reads_u32 _).echoes <|
    (echoes_string _).last Gathering.description fun _ => rfl

section Parameters

variable {order : List Bytes}

theorem echoes_ownLevel (hs : s.structHeader = true) (h : m.Decoded s) (hparam : m.param.Echoes order) :
    EchoesRead (MatchmakeSession.loadOwn s m.toGathering) (m.saveOwn s order) m
      ((m.param.StringsFit ∧ BufferFits (StreamOut.map StreamOut.string Variant.save order m.param)) ∧
        StringFits m.userPassword ∧ StringFits m.codeword) := by
  have hP := stable_failed s
  refine .of_eq ?_ <| (reads_u32 m.gameMode).echoes <| (reads_u32s h.attribs).echoes <|
    (reads_bool m.openParticipation).echoes <| (reads_u32 m.matchmakeSystem).echoes <|
    (reads_buffer h.applicationData).echoes <| (reads_u32 m.numParticipants).echoes <|
    (reads_u8 m.progressScore).echoes <| (reads_buffer h.sessionKey).echoes <|
    (reads_u32 m.option).echoes <|
    (echoes_level hs settles_param hparam).bind MatchmakeSession.param
      ((reads_u64 m.startedTime).echoes <|
        (echoes_string _).bind MatchmakeSession.userPassword
          ((reads_u32 m.referGID).echoes <| (reads_bool m.userPasswordEnabled).echoes <|
            (reads_bool m.systemPasswordEnabled).echoes <|
            (echoes_string _).last MatchmakeSession.codeword fun _ => rfl)
          (fun _ => (keeps_u32 hP).bind fun _ => (keeps_bool hP).bind fun _ => (keeps_bool hP).bind fun _ =>
            (keeps_string hP).bind fun _ => keeps_pure _)
          (fun _ _ => rfl) rfl)
      (fun _ => (keeps_u64 hP).bind fun _ => (keeps_string hP).bind fun _ => (keeps_u32 hP).bind fun _ =>
        (keeps_bool hP).bind fun _ => (keeps_bool hP).bind fun _ => (keeps_string hP).bind fun _ =>
        keeps_pure _)
      (fun _ _ => rfl) rfl
  unfold MatchmakeSession.saveOwn MatchmakeParam.write StreamOut.dateTime
  simp only [List.append_assoc]

theorem echoes_session (hs : s.structHeader = true) (h : m.Decoded s) (hparam : m.param.Echoes order) :
    EchoesRead (MatchmakeSession.read s) (m.write s order) m
      ((StringFits m.description ∧ BufferFits (m.toGathering.save s)) ∧
        ((m.param.StringsFit ∧ BufferFits (StreamOut.map StreamOut.string Variant.save order m.param)) ∧
          StringFits m.userPassword ∧ StringFits m.codeword) ∧ BufferFits (m.saveOwn s order)) :=
  (echoes_level hs settles_gathering (echoes_gathering h.gathering)).bind MatchmakeSession.toGathering
    (echoes_level hs (settles_ownLevel m.toGathering) (echoes_ownLevel hs h hparam))
    (fun g => (settles_level (settles_ownLevel g)).keeps)
    (fun g st => by
      obtain ⟨st', hst'⟩ := exists_level s (MatchmakeSession.loadOwn s g) st
      rw [hst']
      rfl)
    rfl

/-- The inner bodies fit when the outer one does. -/
theorem echoes_autoMatchmakeParam (hs : s.structHeader = true) (h : m.Decoded s)
    (horder : GoMap.Enumerates order m.param) (hparam : m.param.Echoes order) :
    EchoesRead (readAutoMatchmakeParam s) (writeAutoMatchmakeParam s order m) m
      (m.StringsFit ∧ m.size s < 2 ^ 32) := by
  refine .of_iff ?_ (echoes_level hs settles_session (echoes_session hs h hparam))
  unfold BufferFits
  rw [MatchmakeSession.length_write hs horder, MatchmakeSession.length_saveOwn hs horder,
    MatchmakeParam.length_map horder, Gathering.length_save]
  constructor
  · rintro ⟨hfit, hsize⟩
    unfold MatchmakeSession.size at hsize ⊢
    exact ⟨⟨⟨hfit.description, by omega⟩, ⟨⟨hfit.param, by omega⟩, hfit.userPassword, hfit.codeword⟩,
      by omega⟩, hsize⟩
  · rintro ⟨⟨⟨hdescription, -⟩, ⟨⟨hparams, -⟩, hpassword, hcodeword⟩, -⟩, hsize⟩
    exact ⟨⟨hdescription, hparams, hpassword, hcodeword⟩, hsize⟩

theorem echoes_updateMatchmakeSessionParam {p : UpdateMatchmakeSessionParam}
    (hs : s.structHeader = true) (h : p.Decoded) (horder : GoMap.Enumerates order p.param)
    (hparam : p.param.Echoes order) :
    EchoesRead (UpdateMatchmakeSessionParam.read s) (p.write s order) p
      (p.StringsFit ∧ p.size < 2 ^ 32) := by
  have hP := stable_failed s
  unfold UpdateMatchmakeSessionParam.read UpdateMatchmakeSessionParam.write
  refine .of_iff ?_ <| echoes_level hs ?_ <| .of_eq ?_ <| (reads_u32 p.gid).echoes <|
    (reads_u32 p.modificationFlags).echoes <| (reads_u32s h.attributes).echoes <|
    (reads_bool p.openParticipation).echoes <| (reads_buffer h.applicationBuffer).echoes <|
    (reads_u8 p.progressScore).echoes <|
    (echoes_level hs settles_param hparam).bind UpdateMatchmakeSessionParam.param
      ((reads_u64 p.startedTime).echoes <|
        (echoes_string _).bind UpdateMatchmakeSessionParam.userPassword
          ((reads_u32 p.gameMode).echoes <|
            (echoes_string _).bind UpdateMatchmakeSessionParam.description
              ((reads_u16 p.minParticipants).echoes <| (reads_u16 p.maxParticipants).echoes <|
                (reads_u32 p.matchmakeSystem).echoes <| (reads_u32 p.participationPolicy).echoes <|
                (reads_u32 p.policyArgument).echoes <|
                (echoes_string _).last UpdateMatchmakeSessionParam.codeword fun _ => rfl)
              (fun _ => (keeps_u16 hP).bind fun _ => (keeps_u16 hP).bind fun _ =>
                (keeps_u32 hP).bind fun _ => (keeps_u32 hP).bind fun _ => (keeps_u32 hP).bind fun _ =>
                (keeps_string hP).bind fun _ => keeps_pure _)
              (fun _ _ => rfl) rfl)
          (fun _ => (keeps_u32 hP).bind fun _ => (keeps_string hP).bind fun _ =>
            (keeps_u16 hP).bind fun _ => (keeps_u16 hP).bind fun _ => (keeps_u32 hP).bind fun _ =>
            (keeps_u32 hP).bind fun _ => (keeps_u32 hP).bind fun _ => (keeps_string hP).bind fun _ =>
            keeps_pure _)
          (fun _ _ => rfl) rfl)
      (fun _ => (keeps_u64 hP).bind fun _ => (keeps_string hP).bind fun _ => (keeps_u32 hP).bind fun _ =>
        (keeps_string hP).bind fun _ => (keeps_u16 hP).bind fun _ => (keeps_u16 hP).bind fun _ =>
        (keeps_u32 hP).bind fun _ => (keeps_u32 hP).bind fun _ => (keeps_u32 hP).bind fun _ =>
        (keeps_string hP).bind fun _ => keeps_pure _)
      (fun _ _ => rfl) rfl
  · unfold BufferFits
    rw [UpdateMatchmakeSessionParam.length_save hs horder, MatchmakeParam.length_map horder]
    constructor
    · rintro ⟨hfit, hsize⟩
      unfold UpdateMatchmakeSessionParam.size at hsize ⊢
      exact ⟨⟨⟨hfit.param, by omega⟩, hfit.userPassword, hfit.description, hfit.codeword⟩, hsize⟩
    · rintro ⟨⟨⟨hparams, -⟩, hpassword, hdescription, hcodeword⟩, hsize⟩
      exact ⟨⟨hparams, hpassword, hdescription, hcodeword⟩, hsize⟩
  · exact settles_u32.bind fun _ => settles_u32.bind fun _ => (settles_list settles_u32).bind fun _ =>
      settles_bool.bind fun _ => settles_buffer.bind fun _ => settles_u8.bind fun _ =>
      (settles_level settles_param).bind fun _ => settles_u64.bind fun _ => settles_string.bind fun _ =>
      settles_u32.bind fun _ => settles_string.bind fun _ => settles_u16.bind fun _ =>
      settles_u16.bind fun _ => settles_u32.bind fun _ => settles_u32.bind fun _ =>
      settles_u32.bind fun _ => settles_string.bind fun _ => settles_pure _
  · unfold UpdateMatchmakeSessionParam.save MatchmakeParam.write StreamOut.dateTime
    simp only [List.append_assoc]

end Parameters

/-! ### Relaying -/

/-- Written again, in whatever order the runtime visits the parameters `param`, the value `v` is read back
without a failed read. -/
def Relayed {α : Type} (read : Reader α) (write : List Bytes → Bytes) (param : MatchmakeParam) (v : α) :
    Prop :=
  ∀ order, GoMap.Enumerates order param →
    (read (newStreamIn (write order))).1 = v ∧ (read (newStreamIn (write order))).2.failed = false

/-- A condition that decides every order that decides the parameters. -/
theorem relayed_iff {read : Reader α} {write : List Bytes → Bytes} {param : MatchmakeParam} {v : α} {P : Prop}
    (hparam : param.Decoded) (hfit : P → param.StringsFit)
    (h : ∀ order, GoMap.Enumerates order param → param.Echoes order → EchoesRead read (write order) v P) :
    Relayed read write param v ↔ P := by
  constructor
  · intro hall
    obtain ⟨order, horder, hechoes⟩ := MatchmakeParam.exists_echoes hparam
    obtain ⟨hvalue, hfailed⟩ := hall order horder
    by_contra hnot
    have hmiss := (h order horder hechoes).misses hnot []
    rw [List.append_nil] at hmiss
    rcases hmiss with hlost | hne
    · exact absurd (show _ = true from hlost) (by rw [hfailed]; exact Bool.false_ne_true)
    · exact hne hvalue
  · intro hP order horder
    have hechoes : param.Echoes order :=
      ⟨MatchmakeParam.reads_of_stringsFit hparam horder, fun hnot => absurd (hfit hP) hnot⟩
    have hread := (h order horder hechoes).reads hP []
    rw [List.append_nil] at hread
    rw [hread]
    exact ⟨rfl, rfl⟩

theorem session_relayed_iff (hs : s.structHeader = true) (h : m.Decoded s) :
    Relayed (readAutoMatchmakeParam s) (fun order => writeAutoMatchmakeParam s order m) m.param m ↔
      m.StringsFit ∧ m.size s < 2 ^ 32 :=
  relayed_iff h.param (fun hP => hP.1.param) fun _ horder hparam =>
    echoes_autoMatchmakeParam hs h horder hparam

theorem update_relayed_iff {p : UpdateMatchmakeSessionParam} (hs : s.structHeader = true) (h : p.Decoded) :
    Relayed (UpdateMatchmakeSessionParam.read s) (fun order => p.write s order) p.param p ↔
      p.StringsFit ∧ p.size < 2 ^ 32 :=
  relayed_iff h.param (fun hP => hP.1.param) fun _ horder hparam =>
    echoes_updateMatchmakeSessionParam hs h horder hparam

/-- **Sessions and updates are relayed.**  With struct headers on, a session or an update that was decoded
without a failed read is written and decoded again to itself exactly when none of its strings takes 65535
bytes and its body stays below `2 ^ 32` bytes. -/
theorem sessions_relayed_unchanged (s : Settings) (hs : s.structHeader = true) (b : Bytes) :
    (∀ m st, readAutoMatchmakeParam s (newStreamIn b) = (m, st) → st.failed = false →
      (Relayed (readAutoMatchmakeParam s) (fun order => writeAutoMatchmakeParam s order m) m.param m ↔
        m.StringsFit ∧ m.size s < 2 ^ 32)) ∧
    (∀ p st, UpdateMatchmakeSessionParam.read s (newStreamIn b) = (p, st) → st.failed = false →
      (Relayed (UpdateMatchmakeSessionParam.read s) (fun order => p.write s order) p.param p ↔
        p.StringsFit ∧ p.size < 2 ^ 32)) := by
  constructor
  · intro m st hread _
    have hdecoded := @decoded_autoMatchmakeParam s (newStreamIn b)
    rw [hread] at hdecoded
    exact session_relayed_iff hs hdecoded
  · intro p st hread _
    have hdecoded := @UpdateMatchmakeSessionParam.decoded_read s (newStreamIn b)
    rw [hread] at hdecoded
    exact update_relayed_iff hs hdecoded

/-! ### Strings without a terminator -/

theorem reads_unterminated {str : Bytes} (hne : str ≠ []) (hlength : str.length ≤ 65535)
    (hlast : str.getLast? ≠ some 0) :
    Reads StreamIn.string (StreamOut.u16 (UInt16.ofNat str.length) ++ str) str := by
  have hnat : (UInt16.ofNat str.length).toNat = str.length :=
    UInt16.toNat_ofNat_of_lt' (by show str.length < 65536; omega)
  have hnonzero : UInt16.ofNat str.length ≠ 0 := by
    intro hzero
    rw [hzero] at hnat
    exact hne (List.length_eq_zero_iff.mp hnat.symm)
  refine (reads_u16 _).bind ?_
  show Reads (if UInt16.ofNat str.length = 0 then _ else _) _ _
  rw [if_neg hnonzero]
  have hread := reads_read str
  rw [← hnat] at hread
  refine hread.bind_nil ?_
  show Reads (pure (if str.getLast? = some 0 then str.dropLast else str)) [] str
  rw [if_neg hlast]
  exact parses_pure str

/-- A session without parameters and with a given description. -/
def describedSession (description : Bytes) : MatchmakeSession where
  id := 0
  ownerPID := 0
  hostPID := 0
  minParticipants := 0
  maxParticipants := 8
  participationPolicy := 0
  policyArgument := 0
  flags := 0
  state := 0
  description := description
  gameMode := 2
  attribs := []
  openParticipation := true
  matchmakeSystem := 0
  applicationData := []
  numParticipants := 0
  progressScore := 0
  sessionKey := []
  option := 0
  param := ∅
  startedTime := 0
  userPassword := []
  referGID := 0
  userPasswordEnabled := false
  systemPasswordEnabled := false
  codeword := []

theorem decoded_describedSession {description : Bytes} (h : description.length ≤ 65535) :
    (describedSession description).Decoded (newSwitchSettings [] 40000) where
  gathering := ⟨.inl rfl, .inl rfl, h⟩
  attribs := Nat.two_pow_pos 32
  applicationData := Nat.two_pow_pos 32
  sessionKey := Nat.two_pow_pos 32
  param := ⟨Nat.two_pow_pos 32, nofun, nofun, nofun⟩
  userPassword := Nat.zero_le _
  codeword := Nat.zero_le _

/-- The base level of that session in the bytes of a client that does not terminate the description. -/
def unterminatedGathering (s : Settings) (g : Gathering) : Bytes :=
  StreamOut.u32 g.id ++ StreamOut.pid s g.ownerPID ++ StreamOut.pid s g.hostPID ++
    StreamOut.u16 g.minParticipants ++ StreamOut.u16 g.maxParticipants ++
    StreamOut.u32 g.participationPolicy ++ StreamOut.u32 g.policyArgument ++ StreamOut.u32 g.flags ++
    StreamOut.u32 g.state ++ (StreamOut.u16 (UInt16.ofNat g.description.length) ++ g.description)

/-- The `AutoMatchmakeParam` of that client. -/
def unterminatedSession (s : Settings) (m : MatchmakeSession) : Bytes :=
  writeLevel s (writeLevel s (unterminatedGathering s m.toGathering) ++ writeLevel s (m.saveOwn s []))

theorem read_unterminatedSession {description : Bytes} (hne : description ≠ [])
    (hlength : description.length ≤ 65535) (hlast : description.getLast? ≠ some 0) :
    readAutoMatchmakeParam (newSwitchSettings [] 40000)
        (newStreamIn (unterminatedSession (newSwitchSettings [] 40000) (describedSession description))) =
      (describedSession description, newStreamIn []) := by
  have hdecoded := decoded_describedSession hlength
  have horder : GoMap.Enumerates [] (describedSession description).param := by
    show GoMap.Enumerates [] (∅ : MatchmakeParam)
    decide
  have hbase : (unterminatedGathering (newSwitchSettings [] 40000)
      (describedSession description).toGathering).length = description.length + 42 := by
    simp only [unterminatedGathering, List.length_append, length_u32, length_pid, length_u16]
    show _ + (_ + description.length) = _
    simp only [pidWidth, newSwitchSettings, if_true]
    omega
  have hown : ((describedSession description).saveOwn (newSwitchSettings [] 40000) []).length = 59 := by
    rw [MatchmakeSession.length_saveOwn rfl horder]
    rfl
  have hall : Reads (readAutoMatchmakeParam (newSwitchSettings [] 40000))
      (unterminatedSession (newSwitchSettings [] 40000) (describedSession description))
      (describedSession description) := by
    refine reads_level ?_ (Parses.bind (a := (describedSession description).toGathering)
      (reads_level ?_ ?_) (reads_level ?_ ?_))
    · unfold BufferFits
      rw [List.length_append, length_writeLevel rfl, length_writeLevel rfl, hbase, hown]
      omega
    · unfold BufferFits
      rw [hbase]
      omega
    · simp only [unterminatedGathering, List.append_assoc]
      exact (reads_u32 _).bind <| (reads_pid (.inl rfl)).bind <| (reads_pid (.inl rfl)).bind <|
        (reads_u16 _).bind <| (reads_u16 _).bind <| (reads_u32 _).bind <| (reads_u32 _).bind <|
        (reads_u32 _).bind <| (reads_u32 _).bind <| (reads_unterminated hne hlength hlast).last
    · unfold BufferFits
      rw [hown]
      omega
    · refine (echoes_ownLevel rfl hdecoded ⟨MatchmakeParam.reads_of_stringsFit hdecoded.param horder,
        fun h => absurd ⟨nofun, nofun⟩ h⟩).reads ⟨⟨⟨nofun, nofun⟩, ?_⟩, Nat.zero_le _, Nat.zero_le _⟩
      show BufferFits (StreamOut.map StreamOut.string Variant.save [] ∅)
      unfold BufferFits
      decide
  have hread := hall []
  rw [List.append_nil] at hread
  exact hread

/-- A description of one byte without its terminator is relayed. -/
theorem sessions_relayed_unchanged_short :
    Relayed (readAutoMatchmakeParam (newSwitchSettings [] 40000))
      (fun order => writeAutoMatchmakeParam (newSwitchSettings [] 40000) order (describedSession [65])) ∅
      (describedSession [65]) :=
  ((sessions_relayed_unchanged (newSwitchSettings [] 40000) rfl
    (unterminatedSession (newSwitchSettings [] 40000) (describedSession [65]))).1 (describedSession [65])
      (newStreamIn []) (read_unterminatedSession (by decide) (by decide) (by decide)) rfl).mpr
    ⟨⟨by show _ ≤ _; decide, ⟨nofun, nofun⟩, Nat.zero_le _, Nat.zero_le _⟩, by decide⟩

/-- A description of 65535 bytes without its terminator is decoded, and does not come back. -/
theorem long_description_lost :
    readAutoMatchmakeParam (newSwitchSettings [] 40000) (newStreamIn (unterminatedSession
        (newSwitchSettings [] 40000) (describedSession (List.replicate 65535 65)))) =
      (describedSession (List.replicate 65535 65), newStreamIn []) ∧
    ¬ Relayed (readAutoMatchmakeParam (newSwitchSettings [] 40000))
      (fun order => writeAutoMatchmakeParam (newSwitchSettings [] 40000) order
        (describedSession (List.replicate 65535 65))) ∅ (describedSession (List.replicate 65535 65)) := by
  have hlength : (List.replicate 65535 (65 : UInt8)).length = 65535 := List.length_replicate
  constructor
  · refine read_unterminatedSession ?_ (by rw [hlength]) ?_
    · intro hnil
      rw [hnil] at hlength
      cases hlength
    · rw [List.getLast?_replicate, if_neg (by omega)]
      decide
  · intro hrelayed
    have hfit := ((session_relayed_iff rfl (decoded_describedSession (by rw [hlength]))).mp hrelayed).1
    have hle : (List.replicate 65535 (65 : UInt8)).length ≤ 65534 := hfit.description
    rw [hlength] at hle
    omega

end NextendoMatchmaking
