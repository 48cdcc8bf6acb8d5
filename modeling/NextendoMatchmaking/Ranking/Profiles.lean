import NextendoMatchmaking.Ranking.CommonData
import NextendoMatchmaking.Ranking.Competition
import NextendoMatchmaking.Wire.Sizes

/-!
# Profiles by PID

`uploadCommonData` and `commonDataByPIDs` of `nextendo-nex/ranking.go`.  A client asks for the profiles of
several players with one list of PIDs, and matches the answers to the PIDs by their positions only.
`profiles_by_position` says what is at each position after any history of uploads: the last profile of the
player that the server took, or an empty one.
-/

namespace NextendoMatchmaking.Ranking

variable {data : Bytes} {req : RMCMessage} {s : Settings} {blobs : List Bytes}

def commonDataMaxEntries : ℕ := 256

/-! ### The handlers -/

/-- The function `CommonData`: nil is empty. -/
def commonDataOf (m : CommonData) (pid : UInt64) : Bytes := (m.lookup pid).getD []

/-- `uploadCommonData` from a connection with this PID. -/
def uploadCommonData (pid : UInt64) (req : RMCMessage) (m : CommonData) : CommonData × RMCMessage :=
  let (blob, err) := StreamIn.run StreamIn.buffer req.body
  (if err then m else (putCommonData m pid blob).1, newRMCSuccess protocolRanking req.method req.callID [])

/-- The loop of `commonDataByPIDs`: what it writes, unless a read fails. -/
def writeProfiles (s : Settings) (m : CommonData) : ℕ → StreamIn → Option Bytes
  | 0, _ => some []
  | n + 1, st =>
    let (pid, st) := StreamIn.pid s st
    if st.err then none else (writeProfiles s m n st).map (StreamOut.qBuffer (commonDataOf m pid) ++ ·)

/-- `commonDataByPIDs`. -/
def commonDataByPIDs (s : Settings) (req : RMCMessage) (m : CommonData) : RMCMessage :=
  let empty := newRMCSuccess protocolRanking req.method req.callID (StreamOut.u32 0)
  if req.body.length < 4 then empty
  else
    let (count, st) := StreamIn.u32 (newStreamIn req.body)
    if st.err ∨ count = 0 ∨ commonDataMaxEntries < count.toNat then empty
    else
      match writeProfiles s m count.toNat st with
      | none => empty
      | some profiles =>
        let body := StreamOut.u32 count ++ profiles
        newRMCSuccess protocolRanking req.method req.callID
          (StreamOut.u8 0 ++ StreamOut.u32 (UInt32.ofNat body.length) ++ body)

/-! ### Histories -/

/-- The profile that a request carries, if it can be read. -/
def uploadedBlob (req : RMCMessage) : Option Bytes :=
  let (blob, err) := StreamIn.run StreamIn.buffer req.body
  if err then none else some blob

/-- The server takes a profile of 1 to 4096 bytes. -/
def Takes (blob : Bytes) : Prop := 1 ≤ blob.length ∧ blob.length ≤ commonDataMaxLen

instance (blob : Bytes) : Decidable (Takes blob) := inferInstanceAs (Decidable (_ ∧ _))

/-- What an upload changes for `pid`: a profile of 1 to 4096 bytes that `pid` itself sends. -/
def takenFrom (pid : UInt64) (e : UInt64 × RMCMessage) : Option Bytes :=
  if e.1 = pid then (uploadedBlob e.2).filter (fun blob => Takes blob) else none

/-- The last profile of 1 to 4096 bytes that `pid` has uploaded. -/
def lastUpload (history : List (UInt64 × RMCMessage)) (pid : UInt64) : Option Bytes :=
  (history.filterMap (takenFrom pid)).getLast?

/-- The table after these uploads, on a server that has read `file`. -/
def profilesAfter (file : Option CommonData) (history : List (UInt64 × RMCMessage)) : CommonData :=
  history.foldl (fun m e => (uploadCommonData e.1 e.2 m).1) (loadCommonData file)

/-- The profile of `pid` after these uploads: the last one that was taken, or that of the file, or none. -/
def profileOf (file : Option CommonData) (history : List (UInt64 × RMCMessage)) (pid : UInt64) : Bytes :=
  ((lastUpload history pid).or ((loadCommonData file).lookup pid)).getD []

/-! ### What is read -/

theorem read_newStreamIn (n : ℕ) (data : Bytes) : StreamIn.read n (newStreamIn data) =
    if data.length < n then (none, ⟨data, n != 0, true, false⟩)
    else (some (data.take n), newStreamIn (data.drop n)) := by
  by_cases hshort : data.length < n
  · simp [StreamIn.read, newStreamIn, hshort]
  · simp [StreamIn.read, newStreamIn, hshort]

/-- A number at the front of the data, or an error. -/
theorem uint_newStreamIn {w : ℕ} (hw : w ≠ 0) (data : Bytes) : StreamIn.uint w (newStreamIn data) =
    if data.length < w then (0, ⟨data, true, true, false⟩) else (leNat (data.take w), newStreamIn (data.drop w)) := by
  have hne : (w != 0) = true := bne_iff_ne.mpr hw
  rw [StreamIn.uint, Parsing.bind_apply, read_newStreamIn, hne]
  split <;> rfl

theorem u32_newStreamIn (data : Bytes) : StreamIn.u32 (newStreamIn data) =
    if data.length < 4 then (0, ⟨data, true, true, false⟩)
    else (UInt32.ofNat (leNat (data.take 4)), newStreamIn (data.drop 4)) := by
  show (UInt32.ofNat (StreamIn.uint 4 (newStreamIn data)).1, (StreamIn.uint 4 (newStreamIn data)).2) = _
  rw [uint_newStreamIn (by decide)]
  split <;> rfl

/-- Four bytes are a number of 32 bits. -/
theorem toNat_leNat_take (h : 4 ≤ data.length) :
    (UInt32.ofNat (leNat (data.take 4))).toNat = leNat (data.take 4) := by
  have hlt := leNat_lt (data.take 4)
  rw [List.length_take_of_le h] at hlt
  exact UInt32.toNat_ofNat_of_lt' hlt

/-- The four bytes of a number are written as they were read. -/
theorem u32_leNat_take (h : 4 ≤ data.length) :
    StreamOut.u32 (UInt32.ofNat (leNat (data.take 4))) = data.take 4 := by
  have hback := leBytes_leNat (data.take 4)
  rw [List.length_take_of_le h] at hback
  rw [StreamOut.u32, toNat_leNat_take h, hback]

/-- A buffer at the front of the data, or an error. -/
theorem run_buffer (data : Bytes) : StreamIn.run StreamIn.buffer data =
    if data.length < 4 then ([], true)
    else if data.length < 4 + leNat (data.take 4) then ([], true)
    else ((data.drop 4).take (leNat (data.take 4)), false) := by
  show ((StreamIn.read (StreamIn.u32 (newStreamIn data)).1.toNat (StreamIn.u32 (newStreamIn data)).2).1.getD [],
    (StreamIn.read (StreamIn.u32 (newStreamIn data)).1.toNat (StreamIn.u32 (newStreamIn data)).2).2.err) = _
  rw [u32_newStreamIn]
  split
  · rfl
  · rename_i hlong
    show ((StreamIn.read (UInt32.ofNat (leNat (data.take 4))).toNat (newStreamIn (data.drop 4))).1.getD [],
      (StreamIn.read (UInt32.ofNat (leNat (data.take 4))).toNat (newStreamIn (data.drop 4))).2.err) = _
    rw [toNat_leNat_take (Nat.le_of_not_lt hlong), read_newStreamIn, List.length_drop]
    by_cases hshort : data.length < 4 + leNat (data.take 4)
    · have hne : (leNat (data.take 4) != 0) = true := bne_iff_ne.mpr (by omega)
      rw [if_pos hshort, if_pos (by omega), hne]
      rfl
    · rw [if_neg hshort, if_neg (by omega)]
      rfl

theorem uploadedBlob_eq_some_iff {blob : Bytes} : uploadedBlob req = some blob ↔
    BufferFits blob ∧ ∃ rest, req.body = StreamOut.buffer blob ++ rest := by
  constructor
  · intro h
    rw [uploadedBlob, run_buffer] at h
    by_cases hshort : req.body.length < 4
    · rw [if_pos hshort] at h
      cases h
    · rw [if_neg hshort] at h
      by_cases hcut : req.body.length < 4 + leNat (req.body.take 4)
      · rw [if_pos hcut] at h
        cases h
      · rw [if_neg hcut] at h
        cases h
        have hlt : leNat (req.body.take 4) < 2 ^ 32 :=
          (toNat_leNat_take (by omega)).symm.trans_lt (UInt32.toNat_lt _)
        have hblob : ((req.body.drop 4).take (leNat (req.body.take 4))).length = leNat (req.body.take 4) :=
          List.length_take_of_le (by rw [List.length_drop]; omega)
        refine ⟨hblob.trans_lt hlt, (req.body.drop 4).drop (leNat (req.body.take 4)), ?_⟩
        rw [StreamOut.buffer, hblob, u32_leNat_take (by omega), List.append_assoc, List.take_append_drop,
          List.take_append_drop]
  · rintro ⟨hfits, rest, hbody⟩
    have hrun : StreamIn.run StreamIn.buffer req.body = (blob, false) := by
      rw [StreamIn.run, hbody, reads_buffer hfits]
      rfl
    rw [uploadedBlob, hrun]
    rfl

/-! ### The table after a history -/

/-- A profile of another length leaves the table as it is. -/
theorem lookup_putCommonData (m : CommonData) (pid pid' : UInt64) (blob : Bytes) :
    (putCommonData m pid' blob).1.lookup pid =
      (if pid' = pid then (some blob).filter (fun blob => Takes blob) else none).or (m.lookup pid) := by
  by_cases htakes : Takes blob
  · have hlen : ¬ (blob.length = 0 ∨ commonDataMaxLen < blob.length) := by
      unfold Takes at htakes
      omega
    have hkept : (some blob).filter (fun blob => decide (Takes blob)) = some blob :=
      Option.filter_some_pos (by simpa using htakes)
    rw [putCommonData, if_neg hlen, GoMap.lookup_insert_eq, hkept]
    by_cases hpid : pid = pid'
    · rw [if_pos hpid, if_pos hpid.symm, Option.some_or]
    · rw [if_neg hpid, if_neg (Ne.symm hpid), Option.none_or]
  · have hlen : blob.length = 0 ∨ commonDataMaxLen < blob.length := by
      unfold Takes at htakes
      omega
    have hdropped : (some blob).filter (fun blob => decide (Takes blob)) = none :=
      Option.filter_some_neg (by simpa using htakes)
    rw [putCommonData, if_pos hlen, hdropped, ite_self, Option.none_or]

theorem lookup_upload (pid pid' : UInt64) (req : RMCMessage) (m : CommonData) :
    (uploadCommonData pid' req m).1.lookup pid = (takenFrom pid (pid', req)).or (m.lookup pid) := by
  unfold uploadCommonData takenFrom uploadedBlob
  cases StreamIn.run StreamIn.buffer req.body with
  | mk blob err =>
    cases err with
    | true => simp
    | false => exact lookup_putCommonData m pid pid' blob

theorem lastUpload_snoc (history : List (UInt64 × RMCMessage)) (e : UInt64 × RMCMessage) (pid : UInt64) :
    lastUpload (history ++ [e]) pid = (takenFrom pid e).or (lastUpload history pid) := by
  unfold lastUpload
  rw [List.filterMap_append, List.getLast?_append, List.filterMap_cons, List.filterMap_nil]
  cases takenFrom pid e <;> rfl

theorem lookup_profilesAfter (file : Option CommonData) (history : List (UInt64 × RMCMessage)) (pid : UInt64) :
    (profilesAfter file history).lookup pid =
      (lastUpload history pid).or ((loadCommonData file).lookup pid) := by
  induction history using List.reverseRecOn with
  | nil => rfl
  | append_singleton history e ih =>
    have hafter : profilesAfter file (history ++ [e]) =
        (uploadCommonData e.1 e.2 (profilesAfter file history)).1 := by
      simp [profilesAfter]
    rw [hafter, lookup_upload, ih, lastUpload_snoc, Option.or_assoc]

theorem acceptable_profilesAfter (file : Option CommonData) (history : List (UInt64 × RMCMessage)) :
    Acceptable (profilesAfter file history) := by
  induction history using List.reverseRecOn with
  | nil => exact acceptable_load file
  | append_singleton history e ih =>
    unfold profilesAfter at ih ⊢
    rw [List.foldl_append, List.foldl_cons, List.foldl_nil]
    unfold uploadCommonData
    dsimp only
    split
    · exact ih
    · exact acceptable_put ih _ _

theorem length_commonDataOf_le {m : CommonData} (h : Acceptable m) (pid : UInt64) :
    (commonDataOf m pid).length ≤ commonDataMaxLen := by
  unfold commonDataOf
  cases hlookup : m.lookup pid with
  | none => exact Nat.zero_le _
  | some blob => exact (h pid blob hlookup).2

/-! ### The loop over the PIDs -/

theorem writeProfiles_pids (m : CommonData) {pids : List UInt64} (hfits : ∀ pid ∈ pids, PIDFits s pid) (rest : Bytes) :
    writeProfiles s m pids.length (newStreamIn (pids.flatMap (StreamOut.pid s) ++ rest)) =
      some (pids.flatMap (fun pid => StreamOut.qBuffer (commonDataOf m pid))) := by
  induction pids with
  | nil => rfl
  | cons pid pids ih =>
    have hread := reads_pid (hfits pid List.mem_cons_self) (pids.flatMap (StreamOut.pid s) ++ rest)
    rw [List.flatMap_cons, List.append_assoc, List.length_cons, writeProfiles, hread]
    dsimp only
    rw [if_neg (by simp [newStreamIn]), ih (fun pid' hpid' => hfits pid' (List.mem_cons_of_mem _ hpid'))]
    rfl

/-- A PID at the front of the data, or an error. -/
theorem snd_pid_newStreamIn (s : Settings) (data : Bytes) : (StreamIn.pid s (newStreamIn data)).2 =
    if data.length < pidWidth s then ⟨data, true, true, false⟩ else newStreamIn (data.drop (pidWidth s)) := by
  unfold StreamIn.pid pidWidth
  split
  · show (StreamIn.uint 8 (newStreamIn data)).2 = _
    rw [uint_newStreamIn (by decide)]
    split <;> rfl
  · show (StreamIn.uint 4 (newStreamIn data)).2 = _
    rw [uint_newStreamIn (by decide)]
    split <;> rfl

theorem writeProfiles_short (s : Settings) (m : CommonData) {n : ℕ} (h : data.length < n * pidWidth s) :
    writeProfiles s m n (newStreamIn data) = none := by
  induction n generalizing data with
  | zero => omega
  | succ n ih =>
    have hst := snd_pid_newStreamIn s data
    rw [writeProfiles]
    cases hread : StreamIn.pid s (newStreamIn data) with
    | mk pid st =>
      rw [hread] at hst
      by_cases hshort : data.length < pidWidth s
      · rw [if_pos hshort] at hst
        cases hst
        rfl
      · have hrest : (data.drop (pidWidth s)).length < n * pidWidth s := by
          rw [List.length_drop]
          rw [Nat.add_mul, Nat.one_mul] at h
          omega
        rw [if_neg hshort] at hst
        cases hst
        show (if false = true then none else (writeProfiles s m n (newStreamIn _)).map _) = none
        rw [ih hrest]
        rfl

/-! ### The response -/

/-- The profiles in a response: a version 0, the size of what follows, a count and that many profiles, with
nothing after them. -/
def decodeProfiles (body : Bytes) : Option (List Bytes) :=
  let (version, st) := StreamIn.u8 (newStreamIn body)
  let (size, st) := StreamIn.u32 st
  if st.err ∨ version ≠ 0 ∨ size.toNat ≠ st.rest.length then none
  else
    let (count, st) := StreamIn.u32 st
    let (blobs, st) := StreamIn.times StreamIn.qBuffer count.toNat st
    if st.err ∨ st.rest ≠ [] then none else some blobs

/-- The content of a response. -/
def profileList (blobs : List Bytes) : Bytes :=
  StreamOut.u32 (UInt32.ofNat blobs.length) ++ blobs.flatMap StreamOut.qBuffer

theorem length_profileList_le (h : ∀ b ∈ blobs, b.length ≤ commonDataMaxLen) :
    (profileList blobs).length ≤ 4 + blobs.length * (commonDataMaxLen + 2) := by
  have hsum : (blobs.flatMap StreamOut.qBuffer).length ≤ blobs.length * (commonDataMaxLen + 2) := by
    induction blobs with
    | nil => exact Nat.zero_le _
    | cons b blobs ih =>
      have hb := h b List.mem_cons_self
      have hrest := ih (fun b' hb' => h b' (List.mem_cons_of_mem _ hb'))
      rw [List.flatMap_cons, List.length_append, StreamOut.qBuffer, List.length_append, length_u16,
        List.length_cons, Nat.add_mul, Nat.one_mul]
      omega
  rw [profileList, List.length_append, length_u32]
  omega

/-- The size of a response fits into its field. -/
theorem toNat_length_profileList (hcount : blobs.length ≤ commonDataMaxEntries)
    (hlen : ∀ b ∈ blobs, b.length ≤ commonDataMaxLen) :
    (UInt32.ofNat (profileList blobs).length).toNat = (profileList blobs).length := by
  have hle : (profileList blobs).length ≤ 4 + commonDataMaxEntries * (commonDataMaxLen + 2) :=
    (length_profileList_le hlen).trans
      (Nat.add_le_add_left (Nat.mul_le_mul_right (commonDataMaxLen + 2) hcount) 4)
  exact UInt32.toNat_ofNat_of_lt' (hle.trans_lt (by decide))

theorem decode_profileList (hcount : blobs.length ≤ commonDataMaxEntries)
    (hlen : ∀ b ∈ blobs, b.length ≤ commonDataMaxLen) :
    decodeProfiles (StreamOut.u8 0 ++ StreamOut.u32 (UInt32.ofNat (profileList blobs).length) ++
      profileList blobs) = some blobs := by
  have hsize := toNat_length_profileList hcount hlen
  have hcount' : (UInt32.ofNat blobs.length).toNat = blobs.length :=
    UInt32.toNat_ofNat_of_lt' (hcount.trans_lt (by decide))
  have hblobs :
      Reads (StreamIn.times StreamIn.qBuffer blobs.length) (blobs.flatMap StreamOut.qBuffer) blobs := by
    have hread := reads_times (f := StreamIn.qBuffer) (w := StreamOut.qBuffer) (k := id) (l := blobs)
      (fun b hb => reads_qBuffer ((hlen b hb).trans_lt (by decide)))
    rwa [List.map_id] at hread
  have hend := hblobs []
  rw [List.append_nil] at hend
  unfold decodeProfiles
  rw [List.append_assoc, reads_u8]
  dsimp only
  rw [reads_u32]
  dsimp only
  rw [if_neg (by simp [newStreamIn, hsize]), profileList, reads_u32]
  dsimp only
  rw [hcount', hend]
  rfl

/-- The number of PIDs that a request announces. -/
def announced (body : Bytes) : ℕ := leNat (body.take 4)

/-- A request without a count, with a count of 0 or above 256, or with fewer PIDs than it announces. -/
def Malformed (s : Settings) (body : Bytes) : Prop :=
  body.length < 4 ∨ announced body = 0 ∨ commonDataMaxEntries < announced body ∨
    body.length < 4 + announced body * pidWidth s

/-- What `commonDataByPIDs` does after it has read the count. -/
theorem commonDataByPIDs_of_le (m : CommonData) (h : 4 ≤ req.body.length) :
    (commonDataByPIDs s req m).body =
      if announced req.body = 0 ∨ commonDataMaxEntries < announced req.body then StreamOut.u32 0
      else ((writeProfiles s m (announced req.body) (newStreamIn (req.body.drop 4))).map (fun profiles =>
        StreamOut.u8 0 ++ StreamOut.u32 (UInt32.ofNat (req.body.take 4 ++ profiles).length) ++
          (req.body.take 4 ++ profiles))).getD (StreamOut.u32 0) := by
  have hcount : (UInt32.ofNat (announced req.body)).toNat = announced req.body := toNat_leNat_take h
  have hzero : UInt32.ofNat (announced req.body) = 0 ↔ announced req.body = 0 := by
    rw [← UInt32.toNat_inj, hcount]
    rfl
  have hbytes : StreamOut.u32 (UInt32.ofNat (announced req.body)) = req.body.take 4 := u32_leNat_take h
  have hread : StreamIn.u32 (newStreamIn req.body) =
      (UInt32.ofNat (announced req.body), newStreamIn (req.body.drop 4)) := by
    rw [u32_newStreamIn, if_neg (Nat.not_lt.mpr h)]
    rfl
  unfold commonDataByPIDs
  rw [if_neg (Nat.not_lt.mpr h), hread]
  dsimp only
  rw [hcount, hbytes]
  by_cases hrefused : announced req.body = 0 ∨ commonDataMaxEntries < announced req.body
  · rw [if_pos hrefused, if_pos (.inr (hrefused.imp_left hzero.mpr))]
    rfl
  · rw [if_neg hrefused, if_neg (by simpa [newStreamIn, hzero] using hrefused)]
    cases writeProfiles s m (announced req.body) (newStreamIn (req.body.drop 4)) <;> rfl

theorem commonDataByPIDs_malformed (h : Malformed s req.body) (m : CommonData) :
    (commonDataByPIDs s req m).body = [0, 0, 0, 0] := by
  by_cases hshort : req.body.length < 4
  · rw [commonDataByPIDs, if_pos hshort]
    rfl
  · rw [commonDataByPIDs_of_le m (Nat.le_of_not_lt hshort)]
    split
    · rfl
    · rename_i hcount
      have hfew : (req.body.drop 4).length < announced req.body * pidWidth s := by
        rw [List.length_drop]
        unfold Malformed at h
        omega
      rw [writeProfiles_short s m hfew]
      rfl

theorem commonDataByPIDs_pids (m : CommonData) {pids : List UInt64} {rest : Bytes} (hone : 1 ≤ pids.length)
    (hmax : pids.length ≤ commonDataMaxEntries) (hfits : ∀ pid ∈ pids, PIDFits s pid)
    (hbody : req.body = StreamOut.u32 (UInt32.ofNat pids.length) ++ pids.flatMap (StreamOut.pid s) ++ rest) :
    (commonDataByPIDs s req m).body = StreamOut.u8 0 ++
      StreamOut.u32 (UInt32.ofNat (profileList (pids.map (commonDataOf m))).length) ++
      profileList (pids.map (commonDataOf m)) := by
  have htake : req.body.take 4 = StreamOut.u32 (UInt32.ofNat pids.length) := by
    rw [hbody, List.append_assoc]
    exact List.take_left' (length_u32 _)
  have hdrop : req.body.drop 4 = pids.flatMap (StreamOut.pid s) ++ rest := by
    rw [hbody, List.append_assoc]
    exact List.drop_left' (length_u32 _)
  have hcount : announced req.body = pids.length := by
    have hlt : pids.length < 2 ^ 32 := hmax.trans_lt (by decide)
    rw [announced, htake, StreamOut.u32, leNat_leBytes 4 _ (UInt32.toNat_lt _), UInt32.toNat_ofNat_of_lt' hlt]
  have hlen : 4 ≤ req.body.length := by
    rw [hbody, List.append_assoc, List.length_append, length_u32]
    omega
  have hlist : profileList (pids.map (commonDataOf m)) = StreamOut.u32 (UInt32.ofNat pids.length) ++
      pids.flatMap (fun pid => StreamOut.qBuffer (commonDataOf m pid)) := by
    rw [profileList, List.length_map, List.flatMap_map]
  rw [commonDataByPIDs_of_le m hlen, hcount, hdrop, htake, if_neg (by omega), writeProfiles_pids m hfits, hlist]
  rfl

/-- **Profiles by position.**  After any history of uploads, the response to a list of 1 to 256 PIDs decodes to
one profile for each PID, in their order: the last one of 1 to 4096 bytes that the player has uploaded, else the
one in the file that the server has read, else an empty one.  A malformed request gets the empty list.  What a
request uploads is the buffer at the front of its body. -/
theorem profiles_by_position (s : Settings) (file : Option CommonData) (history : List (UInt64 × RMCMessage)) :
    (∀ (req : RMCMessage) (pids : List UInt64) (rest : Bytes), 1 ≤ pids.length →
      pids.length ≤ commonDataMaxEntries → (∀ pid ∈ pids, PIDFits s pid) →
      req.body = StreamOut.u32 (UInt32.ofNat pids.length) ++ pids.flatMap (StreamOut.pid s) ++ rest →
      decodeProfiles (commonDataByPIDs s req (profilesAfter file history)).body =
        some (pids.map (profileOf file history))) ∧
    (∀ req, Malformed s req.body →
      (commonDataByPIDs s req (profilesAfter file history)).body = [0, 0, 0, 0]) ∧
    ∀ req blob, uploadedBlob req = some blob ↔
      BufferFits blob ∧ ∃ rest, req.body = StreamOut.buffer blob ++ rest := by
  refine ⟨fun req pids rest hone hmax hfits hbody => ?_, fun req hmalformed => ?_, fun req blob => ?_⟩
  · have hprofile : commonDataOf (profilesAfter file history) = profileOf file history := by
      funext pid
      rw [commonDataOf, lookup_profilesAfter]
      rfl
    rw [commonDataByPIDs_pids _ hone hmax hfits hbody, hprofile]
    refine decode_profileList (by rwa [List.length_map]) (fun b hb => ?_)
    obtain ⟨pid, _, rfl⟩ := List.mem_map.mp hb
    rw [← hprofile]
    exact length_commonDataOf_le (acceptable_profilesAfter file history) pid
  · exact commonDataByPIDs_malformed hmalformed _
  · exact uploadedBlob_eq_some_iff

/-- The player 7 has uploaded two bytes. -/
def sampleUploads : List (UInt64 × RMCMessage) :=
  [(7, newRMCRequest protocolRanking 0x4 1 (StreamOut.buffer [1, 2]))]

/-- The profiles of 7, 8 and 7 again, an answer to a request that is cut, and what the upload brings. -/
theorem profiles_by_position_three :
    decodeProfiles (commonDataByPIDs (newSwitchSettings [] 0)
      (newRMCRequest protocolRanking 0x16 2
        (StreamOut.u32 3 ++ StreamOut.u64 7 ++ StreamOut.u64 8 ++ StreamOut.u64 7))
      (profilesAfter none sampleUploads)).body = some [[1, 2], [], [1, 2]] ∧
    (commonDataByPIDs (newSwitchSettings [] 0)
      (newRMCRequest protocolRanking 0x16 3 (StreamOut.u32 3 ++ StreamOut.u64 7))
      (profilesAfter none sampleUploads)).body = [0, 0, 0, 0] ∧
    uploadedBlob (newRMCRequest protocolRanking 0x4 1 (StreamOut.buffer [1, 2])) = some [1, 2] := by
  obtain ⟨hlist, hmalformed, hupload⟩ := profiles_by_position (newSwitchSettings [] 0) none sampleUploads
  have hprofiles : [7, 8, 7].map (profileOf none sampleUploads) = [[1, 2], [], [1, 2]] := by decide +kernel
  refine ⟨?_, hmalformed _ ?_, (hupload _ _).mpr ⟨?_, [], ?_⟩⟩
  · rw [hlist _ [7, 8, 7] [] (by decide) (by decide) (fun _ _ => .inl rfl) rfl, hprofiles]
  · exact .inr (.inr (.inr (by decide)))
  · exact (by decide : (2 : ℕ) < 2 ^ 32)
  · rfl

end NextendoMatchmaking.Ranking
