import NextendoMatchmaking.Wire.DecodeErrors

/-!
# What the decoder gives

Two facts about every reader of `stream.go` and of the structures that are stored.  What is read without a
failed read does not depend on what follows in the stream, so a part that is cut off is noticed
(`SettlesRead`).  And the values that a reader gives, on any bytes, have the sizes that the format can carry,
up to the terminators of strings (`Decoded`).
-/

namespace NextendoMatchmaking

open NextendoMatchmaking.Parsing

variable {s : Settings}

/-! ### Reads settle

What a reader gives without a failed read does not depend on what follows in the stream. -/

/-- A read of the stream, or of one of its substreams, has failed. -/
def Failed (st : StreamIn) : Prop := st.failed = true

/-- `f` reads a part of the stream or fails. -/
abbrev SettlesRead {α : Type} (f : Reader α) : Prop := Settles newStreamIn Failed f

theorem not_failed_newStreamIn (data : Bytes) : ¬ Failed (newStreamIn data) := Bool.false_ne_true

theorem newStreamIn_injective : Function.Injective newStreamIn := by
  intro b b' h
  exact congrArg StreamIn.rest h

theorem settles_read (n : ℕ) : SettlesRead (StreamIn.read n) where
  keeps := (stable_failed (newSwitchSettings [] 0)).read n
  settles input := by
    by_cases hshort : input.length < n
    · left
      unfold StreamIn.read
      rw [if_pos (.inr hshort)]
      rfl
    · refine .inr ⟨some (input.take n), input.drop n, fun more => ?_⟩
      have henough : ¬ ((newStreamIn (input ++ more)).err = true ∨
          (newStreamIn (input ++ more)).rest.length < n) := by
        simp only [newStreamIn, List.length_append]
        simp only [Bool.false_eq_true, false_or]
        omega
      unfold StreamIn.read
      rw [if_neg henough]
      simp only [newStreamIn]
      rw [List.take_append_of_le_length (by omega), List.drop_append_of_le_length (by omega)]

theorem settles_uint (w : ℕ) : SettlesRead (StreamIn.uint w) := by
  refine (settles_read w).bind fun b => ?_
  cases b with
  | none => exact settles_pure 0
  | some b => exact settles_pure _

theorem settles_u8 : SettlesRead StreamIn.u8 := (settles_uint 1).map
theorem settles_u16 : SettlesRead StreamIn.u16 := (settles_uint 2).map
theorem settles_u32 : SettlesRead StreamIn.u32 := (settles_uint 4).map
theorem settles_u64 : SettlesRead StreamIn.u64 := (settles_uint 8).map
theorem settles_bool : SettlesRead StreamIn.bool := settles_u8.map

theorem settles_pid (s : Settings) : SettlesRead (StreamIn.pid s) := by
  unfold StreamIn.pid
  split
  · exact settles_u64
  · exact settles_u32.map

theorem settles_string : SettlesRead StreamIn.string := by
  refine settles_u16.bind fun length => ?_
  show SettlesRead (if length = 0 then pure [] else StreamIn.read length.toNat >>= _)
  split
  · exact settles_pure []
  · refine (settles_read _).bind fun b => ?_
    cases b with
    | none => exact settles_pure []
    | some b => exact settles_pure _

theorem settles_buffer : SettlesRead StreamIn.buffer :=
  settles_u32.bind fun n => (settles_read n.toNat).bind fun b => settles_pure (b.getD [])

section Sequences

variable {α κ ν : Type} {f : Reader α}

theorem settles_times (hf : SettlesRead f) (n : ℕ) : SettlesRead (StreamIn.times f n) := by
  induction n with
  | zero => exact settles_pure []
  | succ n ih => exact hf.bind fun a => ih.bind fun as => settles_pure (a :: as)

/-- The check of `ReadList` and `ReadMap` against the bytes that are left. -/
theorem settles_count : SettlesRead StreamIn.count := by
  refine settles_u32.bind fun n => ?_
  constructor
  · intro st hst
    show Failed ((if st.rest.length < n.toNat then (do
      set { st with err := true, failed := true }
      return none : Reader (Option ℕ)) else return some n.toNat) st).2
    split
    · rfl
    · exact hst
  · intro input
    by_cases hshort : input.length < n.toNat
    · left
      show Failed ((if input.length < n.toNat then (do
        set { newStreamIn input with err := true, failed := true }
        return none : Reader (Option ℕ)) else return some n.toNat) (newStreamIn input)).2
      rw [if_pos hshort]
      rfl
    · refine .inr ⟨some n.toNat, input, fun more => ?_⟩
      show (if (input ++ more).length < n.toNat then (do
        set { newStreamIn (input ++ more) with err := true, failed := true }
        return none : Reader (Option ℕ)) else return some n.toNat) (newStreamIn (input ++ more)) = _
      have hmore : ¬ (input ++ more).length < n.toNat := by
        rw [List.length_append]
        omega
      rw [if_neg hmore]
      rfl

theorem settles_list (hf : SettlesRead f) : SettlesRead (StreamIn.list f) := by
  refine settles_count.bind fun n => ?_
  cases n with
  | none => exact settles_pure []
  | some n => exact settles_times hf n

theorem settles_map [DecidableEq κ] {kf : Reader κ} {vf : Reader ν} (hk : SettlesRead kf)
    (hv : SettlesRead vf) : SettlesRead (StreamIn.map kf vf) := by
  rw [map_eq_list]
  exact (settles_list (hk.bind fun k => hv.bind fun v => settles_pure (k, v))).map

theorem settles_level {load : Reader α} (h : SettlesRead load) : SettlesRead (readLevel s load) := by
  unfold readLevel
  split
  · refine settles_u8.bind fun _ => settles_buffer.bind fun b => ?_
    -- the body has been read; what is left of the outer stream is not touched
    constructor
    · intro st hst
      show (st.failed || (load (newStreamIn b)).2.failed) = true
      rw [show st.failed = true from hst, Bool.true_or]
    · intro input
      obtain hinner | ⟨a, rest, hload⟩ := h.settles b
      · left
        show (false || (load (newStreamIn b)).2.failed) = true
        rw [Bool.false_or]
        exact hinner
      · have hbody : load (newStreamIn b) = (a, newStreamIn rest) := by
          have hload := hload []
          rwa [List.append_nil, List.append_nil] at hload
        refine .inr ⟨a, input, fun more => ?_⟩
        show ((load (newStreamIn b)).1, (newStreamIn (input ++ more)).after (load (newStreamIn b)).2) = _
        rw [hbody]
        rfl
  · exact h

end Sequences

theorem settles_variant : SettlesRead Variant.load := by
  refine settles_u8.bind fun type => ?_
  split
  · exact settles_u64.bind fun _ => settles_pure _
  split
  · exact settles_u64.bind fun _ => settles_pure _
  split
  · exact settles_bool.bind fun _ => settles_pure _
  split
  · exact settles_string.bind fun _ => settles_pure _
  split
  · exact settles_u64.bind fun _ => settles_pure _
  split
  · exact settles_u64.bind fun _ => settles_pure _
  · exact settles_pure _

theorem settles_param : SettlesRead (StreamIn.map StreamIn.string Variant.load) :=
  settles_map settles_string settles_variant

theorem settles_gathering : SettlesRead (Gathering.load s) :=
  settles_u32.bind fun _ => (settles_pid s).bind fun _ => (settles_pid s).bind fun _ =>
    settles_u16.bind fun _ => settles_u16.bind fun _ => settles_u32.bind fun _ =>
    settles_u32.bind fun _ => settles_u32.bind fun _ => settles_u32.bind fun _ =>
    settles_string.bind fun _ => settles_pure _

/-- The fields of the derived level behind its parameters. -/
theorem settles_ownLevel (g : Gathering) : SettlesRead (MatchmakeSession.loadOwn s g) :=
  settles_u32.bind fun _ => (settles_list settles_u32).bind fun _ => settles_bool.bind fun _ =>
    settles_u32.bind fun _ => settles_buffer.bind fun _ => settles_u32.bind fun _ =>
    settles_u8.bind fun _ => settles_buffer.bind fun _ => settles_u32.bind fun _ =>
    (settles_level settles_param).bind fun _ => settles_u64.bind fun _ => settles_string.bind fun _ =>
    settles_u32.bind fun _ => settles_bool.bind fun _ => settles_bool.bind fun _ =>
    settles_string.bind fun _ => settles_pure _

theorem settles_session : SettlesRead (MatchmakeSession.read s) :=
  (settles_level settles_gathering).bind fun g => settles_level (settles_ownLevel g)

/-! ### What the decoder gives

Whatever the bytes are, and whether or not a read fails, the values have the sizes that the format can
carry, up to the terminators of strings. -/

theorem length_read {n : ℕ} {st : StreamIn} {b : Bytes} (h : (StreamIn.read n st).1 = some b) :
    b.length = n := by
  unfold StreamIn.read at h
  split at h
  · cases h
  · rename_i henough
    rw [← Option.some.inj h, List.length_take]
    omega

theorem length_string_le (st : StreamIn) : (StreamIn.string st).1.length ≤ 65535 := by
  rw [StreamIn.string, bind_apply]
  generalize (StreamIn.u16 st).1 = length
  generalize (StreamIn.u16 st).2 = st'
  have hlt := length.toNat_lt
  split
  · exact Nat.zero_le _
  · rw [bind_apply]
    cases hread : (StreamIn.read length.toNat st').1 with
    | none => exact Nat.zero_le _
    | some b =>
      have hb := length_read hread
      show (if b.getLast? = some 0 then b.dropLast else b).length ≤ 65535
      split
      · rw [List.length_dropLast]
        omega
      · omega

theorem pidFits_pid (s : Settings) (st : StreamIn) : PIDFits s (StreamIn.pid s st).1 := by
  unfold StreamIn.pid PIDFits
  by_cases hsize : s.pidSize = 8
  · exact .inl hsize
  · rw [if_neg hsize]
    right
    show ((StreamIn.u32 st).1.toUInt64).toNat < 2 ^ 32
    rw [UInt32.toNat_toUInt64]
    exact (StreamIn.u32 st).1.toNat_lt

theorem bufferFits_buffer (st : StreamIn) : BufferFits (StreamIn.buffer st).1 := by
  rw [StreamIn.buffer, bind_apply, bind_apply]
  generalize (StreamIn.u32 st).1 = n
  generalize (StreamIn.u32 st).2 = st'
  have hlt := n.toNat_lt
  show ((StreamIn.read n.toNat st').1.getD []).length < 2 ^ 32
  cases hread : (StreamIn.read n.toNat st').1 with
  | none => exact Nat.two_pow_pos 32
  | some b => exact (length_read hread).trans_lt hlt

theorem count_lt {st : StreamIn} {n : ℕ} (h : (StreamIn.count st).1 = some n) : n < 2 ^ 32 := by
  rw [StreamIn.count, bind_apply] at h
  have hlt := (StreamIn.u32 st).1.toNat_lt
  generalize (StreamIn.u32 st).1 = m at h hlt
  generalize (StreamIn.u32 st).2 = st' at h
  change ((if st'.rest.length < m.toNat then (do
      set { st' with err := true, failed := true }
      return none : Reader (Option ℕ)) else return some m.toNat) st').1 = some n at h
  split at h
  · cases h
  · rw [← Option.some.inj h]
    exact hlt

theorem length_times {α : Type} (f : Reader α) (n : ℕ) (st : StreamIn) :
    (StreamIn.times f n st).1.length = n := by
  induction n generalizing st with
  | zero => rfl
  | succ n ih =>
    show (StreamIn.times f n (f st).2).1.length + 1 = n + 1
    rw [ih]

theorem length_list_lt {α : Type} (f : Reader α) (st : StreamIn) : (StreamIn.list f st).1.length < 2 ^ 32 := by
  rw [StreamIn.list, bind_apply]
  cases hcount : (StreamIn.count st).1 with
  | none => exact Nat.two_pow_pos 32
  | some n =>
    show (StreamIn.times f n (StreamIn.count st).2).1.length < 2 ^ 32
    rw [length_times]
    exact count_lt hcount

theorem mem_times {α : Type} {f : Reader α} {a : α} (n : ℕ) (st : StreamIn)
    (h : a ∈ (StreamIn.times f n st).1) : ∃ st', (f st').1 = a := by
  induction n generalizing st with
  | zero => cases h
  | succ n ih =>
    rcases List.mem_cons.mp (show a ∈ (f st).1 :: (StreamIn.times f n (f st).2).1 from h) with rfl | htail
    · exact ⟨st, rfl⟩
    · exact ih _ htail

theorem mem_list {α : Type} {f : Reader α} {a : α} (st : StreamIn) (h : a ∈ (StreamIn.list f st).1) :
    ∃ st', (f st').1 = a := by
  rw [StreamIn.list, bind_apply] at h
  cases hcount : (StreamIn.count st).1 with
  | none =>
    rw [hcount] at h
    cases h
  | some n =>
    rw [hcount] at h
    exact mem_times n _ h

/-- The decoder fills in only the field that the tag selects. -/
theorem variant_decoded (st : StreamIn) :
    (Variant.load st).1.selected = (Variant.load st).1 ∧ (Variant.load st).1.string.length ≤ 65535 := by
  rw [Variant.load, bind_apply]
  generalize (StreamIn.u8 st).1 = type
  generalize (StreamIn.u8 st).2 = st'
  by_cases hint : type = Variant.int64Tag
  · subst hint
    exact ⟨rfl, Nat.zero_le _⟩
  by_cases hdouble : type = Variant.doubleTag
  · subst hdouble
    exact ⟨rfl, Nat.zero_le _⟩
  by_cases hbool : type = Variant.boolTag
  · subst hbool
    exact ⟨rfl, Nat.zero_le _⟩
  by_cases hstring : type = Variant.stringTag
  · subst hstring
    exact ⟨rfl, length_string_le st'⟩
  by_cases hdate : type = Variant.dateTimeTag
  · subst hdate
    exact ⟨rfl, Nat.zero_le _⟩
  by_cases huint : type = Variant.uint64Tag
  · subst huint
    exact ⟨rfl, Nat.zero_le _⟩
  rw [if_neg hint, if_neg hdouble, if_neg hbool, if_neg hstring, if_neg hdate, if_neg huint]
  refine ⟨?_, Nat.zero_le _⟩
  show Variant.selected { type } = { type }
  simp [Variant.selected, hint, hdouble, hbool, hstring, hdate, huint]

/-- Parameters as the decoder gives them. -/
structure MatchmakeParam.Decoded (p : MatchmakeParam) : Prop where
  len : GoMap.len p < 2 ^ 32
  keys : ∀ k v, p.lookup k = some v → k.length ≤ 65535
  selected : ∀ k v, p.lookup k = some v → v.selected = v
  strings : ∀ k v, p.lookup k = some v → v.string.length ≤ 65535

/-- The reader of one entry. -/
def MatchmakeParam.readEntry : Reader (Bytes × Variant) := do
  let k ← StreamIn.string
  let v ← Variant.load
  return (k, v)

theorem MatchmakeParam.decoded_map (st : StreamIn) :
    MatchmakeParam.Decoded (StreamIn.map StreamIn.string Variant.load st).1 := by
  rw [map_eq_list]
  have hentry : ∀ k v, ((StreamIn.list MatchmakeParam.readEntry st).1.foldl
      (fun m p => m.insert p.1 p.2) (∅ : MatchmakeParam)).lookup k = some v →
      ∃ st', k = (StreamIn.string st').1 ∧ v = (Variant.load (StreamIn.string st').2).1 := by
    intro k v hv
    rcases GoMap.mem_of_lookup_foldl_insert _ _ hv with hmem | hempty
    · obtain ⟨st', hst'⟩ := mem_list st hmem
      exact ⟨st', (congrArg Prod.fst hst').symm, (congrArg Prod.snd hst').symm⟩
    · cases hempty
  constructor
  · exact (GoMap.len_foldl_insert_le _).trans_lt (length_list_lt MatchmakeParam.readEntry st)
  · intro k v hv
    obtain ⟨st', rfl, rfl⟩ := hentry k v hv
    exact length_string_le st'
  · intro k v hv
    obtain ⟨st', rfl, rfl⟩ := hentry k v hv
    exact (variant_decoded (StreamIn.string st').2).1
  · intro k v hv
    obtain ⟨st', rfl, rfl⟩ := hentry k v hv
    exact (variant_decoded (StreamIn.string st').2).2

/-- What is read from a level is what its body is read as. -/
theorem exists_level {α : Type} (s : Settings) (load : Reader α) (st : StreamIn) :
    ∃ st', (readLevel s load st).1 = (load st').1 := by
  unfold readLevel
  split
  · exact ⟨_, rfl⟩
  · exact ⟨st, rfl⟩

theorem MatchmakeParam.decoded_read (s : Settings) (st : StreamIn) :
    MatchmakeParam.Decoded (MatchmakeParam.read s st).1 := by
  obtain ⟨st', h⟩ := exists_level s (StreamIn.map StreamIn.string Variant.load) st
  rw [MatchmakeParam.read, h]
  exact MatchmakeParam.decoded_map st'

/-- A gathering as the decoder gives it. -/
structure Gathering.Decoded (s : Settings) (g : Gathering) : Prop where
  ownerPID : PIDFits s g.ownerPID
  hostPID : PIDFits s g.hostPID
  description : g.description.length ≤ 65535

theorem Gathering.decoded_load (st : StreamIn) : ((Gathering.load s st).1).Decoded s where
  ownerPID := pidFits_pid s _
  hostPID := pidFits_pid s _
  description := length_string_le _

/-- A session as the decoder gives it. -/
structure MatchmakeSession.Decoded (s : Settings) (m : MatchmakeSession) : Prop where
  gathering : m.toGathering.Decoded s
  attribs : m.attribs.length < 2 ^ 32
  applicationData : BufferFits m.applicationData
  sessionKey : BufferFits m.sessionKey
  param : m.param.Decoded
  userPassword : m.userPassword.length ≤ 65535
  codeword : m.codeword.length ≤ 65535

theorem MatchmakeSession.decoded_loadOwn {g : Gathering} (hg : g.Decoded s) (st : StreamIn) :
    ((MatchmakeSession.loadOwn s g st).1).Decoded s where
  gathering := hg
  attribs := length_list_lt _ _
  applicationData := bufferFits_buffer _
  sessionKey := bufferFits_buffer _
  param := MatchmakeParam.decoded_read s _
  userPassword := length_string_le _
  codeword := length_string_le _

theorem decoded_autoMatchmakeParam (st : StreamIn) : ((readAutoMatchmakeParam s st).1).Decoded s := by
  obtain ⟨outer, houter⟩ := exists_level s (MatchmakeSession.read s) st
  obtain ⟨base, hbase⟩ := exists_level s (Gathering.load s) outer
  obtain ⟨own, hown⟩ := exists_level s
    (MatchmakeSession.loadOwn s (readLevel s (Gathering.load s) outer).1)
    (readLevel s (Gathering.load s) outer).2
  rw [readAutoMatchmakeParam, houter, MatchmakeSession.read, bind_apply, hown, hbase]
  exact MatchmakeSession.decoded_loadOwn (Gathering.decoded_load base) own

/-- An update as the decoder gives it. -/
structure UpdateMatchmakeSessionParam.Decoded (p : UpdateMatchmakeSessionParam) : Prop where
  attributes : p.attributes.length < 2 ^ 32
  applicationBuffer : BufferFits p.applicationBuffer
  param : p.param.Decoded
  userPassword : p.userPassword.length ≤ 65535
  description : p.description.length ≤ 65535
  codeword : p.codeword.length ≤ 65535

theorem UpdateMatchmakeSessionParam.decoded_read (st : StreamIn) :
    ((UpdateMatchmakeSessionParam.read s st).1).Decoded := by
  unfold UpdateMatchmakeSessionParam.read
  obtain ⟨body, hbody⟩ := exists_level s _ st
  rw [hbody]
  exact {
    attributes := length_list_lt _ _
    applicationBuffer := bufferFits_buffer _
    param := MatchmakeParam.decoded_read s _
    userPassword := length_string_le _
    description := length_string_le _
    codeword := length_string_le _ }

end NextendoMatchmaking
