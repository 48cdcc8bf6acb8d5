import NextendoMatchmaking.Library.Slices
import NextendoMatchmaking.Matchmaking.Stamping

/-!
# The tournament locator reads within bounds

The functions of `nextendo-nex/tournament.go` that look into the structure of a tournament, written once more
with every index and slice of the source as an operation that can fail (`Slices`).  The walk over the properties
moves by amounts that the client chooses, and its callers slice at the offset that it returns without another
check.  `locator_in_bounds` says that on no bytes does any of these operations fail and that the loops end:
each function gives what its model in `Tournaments` gives.
-/

namespace NextendoMatchmaking.Matchmaking

open NextendoMatchmaking.Slices

namespace Bounded

variable {b payload : Bytes} {i : ℕ}

/-! ### The functions with their reads -/

/-- `binary.LittleEndian.Uint16`: the second byte is read first. -/
def uint16 (b : Bytes) : Checked ℕ := do
  let b₁ ← index b 1
  let b₀ ← index b 0
  return leNat [b₀, b₁]

/-- `b[i] == 1 && b[i+1] == 0 && b[i+2] == 0` -/
def emptyCodeAt (b : Bytes) (i : ℕ) : Checked Bool := do
  let b₀ ← index b i
  if b₀ ≠ 1 then return false
  else do
    let b₁ ← index b ((i + 1 : ℕ) : Int)
    if b₁ ≠ 0 then return false
    else do
      let b₂ ← index b ((i + 2 : ℕ) : Int)
      return b₂ = 0

/-- The scan of `tournamentCodeOffset`, from `i` on. -/
def scan (b : Bytes) : ℕ → ℕ → Checked Int
  | 0, _ => .error .rounds
  | rounds + 1, i =>
    if ¬ i + 3 ≤ b.length then return -1
    else do
      let found ← emptyCodeAt b i
      if found then return i else scan b rounds (i + 1)

/-- The walk of `tournamentCodeOffset`, from `pos` on. -/
def walk (b : Bytes) : ℕ → ℕ → Checked Int
  | 0, _ => .error .rounds
  | rounds + 1, pos =>
    if ¬ pos < b.length then return -1
    else do
      let idByte ← index b pos
      if idByte = 0xFF then
        if pos + 5 + 3 ≤ b.length then return ((pos + 5 : ℕ) : Int) else return -1
      else if b.length < pos + 2 then return -1
      else do
        let typeByte ← index b ((pos + 1 : ℕ) : Int)
        if typeByte = 0x01 then walk b rounds (pos + 4)
        else if typeByte = 0x02 then walk b rounds (pos + 5)
        else if typeByte = 0x04 then walk b rounds (pos + 7)
        else scan b (rounds + 1) pos

/-- `tournamentCodeOffset`, each of whose loops may take so many rounds. -/
def tournamentCodeOffset (rounds : ℕ) (b : Bytes) : Checked Int :=
  if b.length < tournamentNameLengthOffset + 2 then return -1
  else do
    let field ← slice b tournamentNameLengthOffset b.length
    let nameLen ← uint16 field
    if nameLen < 2 ∨ nameLen % 2 ≠ 0 then return -1
    else
      let pos := tournamentNameLengthOffset + 2 + nameLen
      if b.length ≤ pos then return -1 else walk b rounds pos

/-- The loop of `validTournamentCode`.  It goes over the runes of the code; up to the first byte that is no
digit these are the bytes. -/
def allDigits (code : Bytes) : ℕ → ℕ → Checked Bool
  | 0, _ => .error .rounds
  | rounds + 1, i =>
    if ¬ i < code.length then return true
    else do
      let digit ← index code i
      if digit < 0x30 ∨ 0x39 < digit then return false else allDigits code rounds (i + 1)

/-- `validTournamentCode`. -/
def validTournamentCode (code : Bytes) : Checked Bool :=
  if code.length ≠ tournamentCodeLen then return false else allDigits code (code.length + 1) 0

/-- `tournamentCodeMatches`. -/
def tournamentCodeMatches (rounds : ℕ) (b code : Bytes) : Checked Bool := do
  let i ← tournamentCodeOffset rounds b
  if i < 0 then return false
  else do
    let valid ← validTournamentCode code
    if !valid then return false
    else if i + 2 > b.length then return false
    else do
      let field ← slice b i b.length
      let n ← uint16 field
      if n ≠ tournamentCodeLen + 1 then return false
      else if i + 2 + n > b.length then return false
      else do
        let last ← index b (i + 2 + n - 1)
        if last ≠ 0 then return false
        else do
          let found ← slice b (i + 2) (i + 2 + tournamentCodeLen)
          return found == code

/-- The id and the mark in the copy that `stampTournament` makes, for a structure of at least 12 bytes. -/
def stampHeader (payload : Bytes) (id : UInt32) (mark : Bytes) : Checked Bytes := do
  let out ← assign payload 0 (UInt8.ofNat id.toNat)
  let out ← assign out 1 (UInt8.ofNat (id.toNat / 256))
  let out ← assign out 2 (UInt8.ofNat (id.toNat / 65536))
  let out ← assign out 3 (UInt8.ofNat (id.toNat / 16777216))
  let field ← slice out 4 12
  return out.take 4 ++ copyInto field mark ++ out.drop 12

/-- `stampTournament`. -/
def stampTournament (rounds : ℕ) (payload : Bytes) (id : UInt32) (mark code : Bytes) : Checked Bytes :=
  if payload.length < 12 then return payload
  else do
    let out ← stampHeader payload id mark
    let i ← tournamentCodeOffset rounds out
    if i < 0 then return out
    else do
      let valid ← validTournamentCode code
      if !valid then return out
      else do
        let field ← slice out i (i + 3)
        if field ≠ [1, 0, 0] then return out
        else do
          let n := code.length + 1
          let str ← makeCap (2 + code.length + 1)
          let str := str ++ [UInt8.ofNat n, UInt8.ofNat (n / 256)] ++ code ++ [0]
          let res ← makeCap (out.length + str.length - 3)
          let before ← slice out 0 i
          let after ← slice out (i + 3) out.length
          return res ++ before ++ str ++ after

/-- The check of `CreateTournament` before it looks at its table: whether the structure is refused. -/
def refusesPayload (rounds : ℕ) (payload : Bytes) : Checked Bool := do
  let i ← tournamentCodeOffset rounds payload
  if payload.length = 0 then return true
  else if tournamentMaxBlob < payload.length then return true
  else if i < 0 then return true
  else do
    let field ← slice payload i (i + 3)
    return !(field == [1, 0, 0])

/-! ### Every read is within bounds -/

/-- An offset as the source has it. -/
def offset (o : Option ℕ) : Int := o.elim (-1) (fun i => (i : Int))

theorem offset_some (i : ℕ) : offset (some i) = i := rfl

theorem uint16_eq (h : 2 ≤ b.length) : uint16 b = .ok (leNat (b.take 2)) := by
  match b, h with
  | _ :: _ :: _, _ => rfl

theorem emptyCodeAt_eq (h : i + 3 ≤ b.length) : emptyCodeAt b i = .ok (Matchmaking.emptyCodeAt b i) := by
  have hget : ∀ k, b.getD (i + k) 0 = (b.drop i).getD k 0 := by
    intro k
    simp [List.getD_eq_getElem?_getD]
  have hlength : 3 ≤ (b.drop i).length := by
    rw [List.length_drop]
    omega
  unfold emptyCodeAt Matchmaking.emptyCodeAt
  rw [index_of_lt (show i < b.length by omega) 0, index_of_lt (show i + 1 < b.length by omega) 0,
    index_of_lt (show i + 2 < b.length by omega) 0, show b.getD i 0 = (b.drop i).getD 0 0 from hget 0, hget 1,
    hget 2]
  match b.drop i, hlength with
  | b₀ :: b₁ :: b₂ :: rest, _ =>
    simp only [ok_bind, List.getD_cons_zero, List.getD_cons_succ, List.take_succ_cons, List.take_zero]
    by_cases h₀ : b₀ = 1
    · by_cases h₁ : b₁ = 0
      · simp [h₀, h₁, pure, Except.pure]
        rfl
      · simp [h₀, h₁, pure, Except.pure]
    · simp [h₀, pure, Except.pure]

theorem scanEmptyCode_of_lt (h : i + 3 ≤ b.length) :
    scanEmptyCode b i = if Matchmaking.emptyCodeAt b i then some i else scanEmptyCode b (i + 1) := by
  have hcount : b.length - 2 - i = (b.length - 2 - (i + 1)) + 1 := by omega
  unfold scanEmptyCode
  rw [hcount, List.range'_succ, List.find?_cons]
  cases Matchmaking.emptyCodeAt b i <;> rfl

theorem scanEmptyCode_of_ge (h : b.length < i + 3) : scanEmptyCode b i = none := by
  have hcount : b.length - 2 - i = 0 := by omega
  rw [scanEmptyCode, hcount]
  rfl

theorem scan_eq (b : Bytes) (rounds i : ℕ) (h : b.length ≤ i + rounds) :
    scan b (rounds + 1) i = .ok (offset (scanEmptyCode b i)) := by
  induction rounds generalizing i with
  | zero =>
    rw [scan, if_pos (by omega), scanEmptyCode_of_ge (by omega)]
    rfl
  | succ rounds ih =>
    rw [scan]
    by_cases hend : i + 3 ≤ b.length
    · rw [if_neg (not_not_intro hend), emptyCodeAt_eq hend, ok_bind, scanEmptyCode_of_lt hend]
      cases Matchmaking.emptyCodeAt b i with
      | true => rfl
      | false => exact ih (i + 1) (by omega)
    · rw [if_pos hend, scanEmptyCode_of_ge (by omega)]
      rfl

/-- Every round of the walk moves on by at least one byte, and so does every round of the scan. -/
theorem walk_eq (b : Bytes) (rounds pos : ℕ) (h : b.length ≤ pos + rounds) :
    walk b (rounds + 1) pos = .ok (offset (walkProperties b rounds pos)) := by
  induction rounds generalizing pos with
  | zero =>
    rw [walk, if_pos (by omega)]
    rfl
  | succ rounds ih =>
    rw [walk, walkProperties]
    by_cases hpos : pos < b.length
    · rw [if_neg (not_not_intro hpos), if_neg (Nat.not_le.mpr hpos), index_of_lt hpos 0, ok_bind]
      by_cases hid : b.getD pos 0 = 0xFF
      · rw [if_pos hid, if_pos hid]
        split <;> rfl
      rw [if_neg hid, if_neg hid]
      by_cases hshort : b.length < pos + 2
      · rw [if_pos hshort, if_pos hshort]
        rfl
      rw [if_neg hshort, if_neg hshort, index_of_lt (show pos + 1 < b.length by omega) 0, ok_bind,
        ih (pos + 4) (by omega), ih (pos + 5) (by omega), ih (pos + 7) (by omega),
        scan_eq b (rounds + 1) pos (by omega)]
      split
      · rfl
      split
      · rfl
      split <;> rfl
    · rw [if_pos hpos, if_pos (Nat.le_of_not_lt hpos)]
      rfl

theorem tournamentCodeOffset_eq (b : Bytes) (k : ℕ) :
    tournamentCodeOffset (b.length + 1 + k) b = .ok (offset (Matchmaking.tournamentCodeOffset b)) := by
  unfold tournamentCodeOffset Matchmaking.tournamentCodeOffset
  by_cases hlong : b.length < tournamentNameLengthOffset + 2
  · rw [if_pos hlong, if_pos hlong]
    rfl
  have hfield : 2 ≤ (b.drop tournamentNameLengthOffset).length := by
    rw [List.length_drop]
    omega
  rw [if_neg hlong, if_neg hlong, slice_to_end (by omega), ok_bind, uint16_eq hfield, ok_bind]
  dsimp only
  split
  · rfl
  split
  · rfl
  rw [show b.length + 1 + k = b.length + k + 1 by omega, walk_eq b (b.length + k) _ (by omega),
    walkProperties_fuel b k _ _ (by omega)]

theorem le_length_of_scan {pos : ℕ} (h : scanEmptyCode b pos = some i) : i + 3 ≤ b.length := by
  have hmem := List.mem_range'_1.mp (List.mem_of_find?_eq_some h)
  omega

/-- The walk returns an offset only with three bytes behind it: it has checked for them at the terminator, and
the scan has read them. -/
theorem le_length_of_walk {fuel pos : ℕ} (h : walkProperties b fuel pos = some i) : i + 3 ≤ b.length := by
  induction fuel generalizing pos with
  | zero => cases h
  | succ fuel ih =>
    rw [walkProperties] at h
    split at h
    · cases h
    split at h
    · split at h
      · cases h
        assumption
      · cases h
    split at h
    · cases h
    split at h
    · exact ih h
    split at h
    · exact ih h
    split at h
    · exact ih h
    · exact le_length_of_scan h

theorem le_length_of_offset (h : Matchmaking.tournamentCodeOffset b = some i) : i + 3 ≤ b.length := by
  unfold Matchmaking.tournamentCodeOffset at h
  dsimp only at h
  split at h
  · cases h
  split at h
  · cases h
  split at h
  · cases h
  · exact le_length_of_walk h

/-- The slice that the callers take at an offset. -/
theorem slice_code (h : i + 3 ≤ b.length) : slice b i ((i : Int) + 3) = .ok ((b.drop i).take 3) := by
  have hslice : slice b i ((i + 3 : ℕ) : Int) = .ok ((b.drop i).take (i + 3 - i)) :=
    slice_of_le (Nat.le_add_right i 3) h
  rw [Nat.add_sub_cancel_left] at hslice
  exact hslice

theorem allDigits_eq (code : Bytes) (rounds i : ℕ) (h : code.length ≤ i + rounds) :
    allDigits code (rounds + 1) i = .ok ((code.drop i).all (fun d => 0x30 ≤ d && d ≤ 0x39)) := by
  induction rounds generalizing i with
  | zero =>
    rw [allDigits, if_pos (by omega), List.drop_of_length_le (by omega)]
    rfl
  | succ rounds ih =>
    rw [allDigits]
    by_cases hi : i < code.length
    · rw [if_neg (not_not_intro hi), index_of_lt hi 0, ok_bind, ih (i + 1) (by omega),
        List.drop_eq_getElem_cons hi, List.all_cons, List.getD_eq_getElem _ _ hi]
      by_cases hdigit : code[i] < 0x30 ∨ 0x39 < code[i]
      · rw [if_pos hdigit]
        have hfalse : (decide (0x30 ≤ code[i]) && decide (code[i] ≤ 0x39)) = false := by
          rw [Bool.and_eq_false_iff, decide_eq_false_iff_not, decide_eq_false_iff_not, UInt8.not_le,
            UInt8.not_le]
          exact hdigit
        rw [hfalse]
        rfl
      · rw [if_neg hdigit]
        rw [not_or, UInt8.not_lt, UInt8.not_lt] at hdigit
        rw [decide_eq_true hdigit.1, decide_eq_true hdigit.2]
        rfl
    · rw [if_pos hi, List.drop_of_length_le (by omega)]
      rfl

theorem validTournamentCode_eq (code : Bytes) :
    validTournamentCode code = .ok (Matchmaking.validTournamentCode code) := by
  unfold validTournamentCode Matchmaking.validTournamentCode
  by_cases hlength : code.length = tournamentCodeLen
  · rw [if_neg (not_not_intro hlength), allDigits_eq code _ 0 (by omega), beq_iff_eq.mpr hlength]
    rfl
  · rw [if_pos hlength, beq_eq_false_iff_ne.mpr hlength]
    rfl

theorem tournamentCodeMatches_eq (b code : Bytes) (k : ℕ) :
    tournamentCodeMatches (b.length + 1 + k) b code = .ok (Matchmaking.tournamentCodeMatches b code) := by
  unfold tournamentCodeMatches Matchmaking.tournamentCodeMatches
  rw [tournamentCodeOffset_eq, ok_bind]
  cases hi : Matchmaking.tournamentCodeOffset b with
  | none => rfl
  | some i =>
    have hle := le_length_of_offset hi
    have hfield : 2 ≤ (b.drop i).length := by
      rw [List.length_drop]
      omega
    dsimp only
    rw [offset_some, if_neg (by omega), validTournamentCode_eq, ok_bind]
    cases Matchmaking.validTournamentCode code with
    | false => rfl
    | true =>
      rw [if_neg (by decide), if_neg (by omega), slice_to_end (by omega), ok_bind, uint16_eq hfield, ok_bind,
        decide_eq_true (show i + 2 ≤ b.length by omega)]
      generalize leNat ((b.drop i).take 2) = n
      by_cases hn : n = tournamentCodeLen + 1
      · have hlast : ((i : Int) + 2 + n - 1) = ((i + 2 + n - 1 : ℕ) : Int) := by omega
        have hfrom : ((i : Int) + 2) = ((i + 2 : ℕ) : Int) := rfl
        have hto : ((i : Int) + 2 + tournamentCodeLen) = ((i + 2 + tournamentCodeLen : ℕ) : Int) := rfl
        rw [if_neg (not_not_intro hn), beq_iff_eq.mpr hn]
        by_cases hroom : i + 2 + n ≤ b.length
        · rw [if_neg (by omega), hlast, index_of_lt (by omega) 0, ok_bind, decide_eq_true hroom]
          by_cases hzero : b.getD (i + 2 + n - 1) 0 = 0
          · rw [if_neg (not_not_intro hzero), beq_iff_eq.mpr hzero, hto, hfrom,
              slice_of_le (by omega) (by omega), ok_bind, Nat.add_sub_cancel_left]
            rfl
          · rw [if_pos hzero, beq_eq_false_iff_ne.mpr hzero]
            rfl
        · rw [if_pos (by omega), decide_eq_false hroom]
          rfl
      · rw [if_pos hn, beq_eq_false_iff_ne.mpr hn]
        rfl

theorem u32_eq (id : UInt32) :
    StreamOut.u32 id = [UInt8.ofNat id.toNat, UInt8.ofNat (id.toNat / 256), UInt8.ofNat (id.toNat / 65536),
      UInt8.ofNat (id.toNat / 16777216)] := by
  simp only [StreamOut.u32, leBytes, Nat.div_div_eq_div_mul]

theorem stampHeader_eq (h : 12 ≤ payload.length) (id : UInt32) (mark : Bytes) :
    stampHeader payload id mark =
      .ok (StreamOut.u32 id ++ mark.take 8 ++ payload.drop (4 + (mark.take 8).length)) := by
  match payload, h with
  | p₀ :: p₁ :: p₂ :: p₃ :: rest, h =>
    have hrest : 8 ≤ rest.length := by
      simp only [List.length_cons] at h
      omega
    have hbound : ∀ k < 4, k < rest.length + 4 := by
      intro k hk
      omega
    have h₀ : ∀ v, assign (p₀ :: p₁ :: p₂ :: p₃ :: rest) 0 v = .ok (v :: p₁ :: p₂ :: p₃ :: rest) :=
      fun v => assign_of_lt (hbound 0 (by decide)) v
    have h₁ : ∀ q₀ v, assign (q₀ :: p₁ :: p₂ :: p₃ :: rest) 1 v = .ok (q₀ :: v :: p₂ :: p₃ :: rest) :=
      fun _ v => assign_of_lt (hbound 1 (by decide)) v
    have h₂ : ∀ q₀ q₁ v, assign (q₀ :: q₁ :: p₂ :: p₃ :: rest) 2 v = .ok (q₀ :: q₁ :: v :: p₃ :: rest) :=
      fun _ _ v => assign_of_lt (hbound 2 (by decide)) v
    have h₃ : ∀ q₀ q₁ q₂ v, assign (q₀ :: q₁ :: q₂ :: p₃ :: rest) 3 v = .ok (q₀ :: q₁ :: q₂ :: v :: rest) :=
      fun _ _ _ v => assign_of_lt (hbound 3 (by decide)) v
    have hfield : ∀ q₀ q₁ q₂ q₃ : UInt8, slice (q₀ :: q₁ :: q₂ :: q₃ :: rest) 4 12 = .ok (rest.take 8) :=
      fun _ _ _ _ => slice_of_le (by decide : 4 ≤ 12) h
    rw [u32_eq, stampHeader, h₀, ok_bind, h₁, ok_bind, h₂, ok_bind, h₃, ok_bind, hfield, ok_bind,
      Nat.add_comm 4]
    simp only [List.take_succ_cons, List.take_zero, List.drop_succ_cons, List.append_assoc,
      copyInto_append mark rest hrest]
    rfl

/-- The offset found in the stamped copy is one in a structure of the same length. -/
theorem length_stamped (h : 12 ≤ payload.length) (id : UInt32) (mark : Bytes) :
    (StreamOut.u32 id ++ mark.take 8 ++ payload.drop (4 + (mark.take 8).length)).length = payload.length := by
  have hmark : (mark.take 8).length ≤ 8 := List.length_take_le 8 mark
  simp only [StreamOut.u32, List.length_append, length_leBytes, List.length_drop]
  omega

theorem stampTournament_eq (payload : Bytes) (id : UInt32) (mark code : Bytes) (k : ℕ) :
    stampTournament (payload.length + 1 + k) payload id mark code =
      .ok (Matchmaking.stampTournament payload id mark code) := by
  unfold stampTournament Matchmaking.stampTournament
  by_cases hshort : payload.length < 12
  · rw [if_pos hshort, if_pos hshort]
    rfl
  rw [if_neg hshort, if_neg hshort, stampHeader_eq (by omega), ok_bind,
    ← length_stamped (show 12 ≤ payload.length by omega) id mark]
  dsimp only
  generalize StreamOut.u32 id ++ mark.take 8 ++ payload.drop (4 + (mark.take 8).length) = out
  rw [tournamentCodeOffset_eq, ok_bind]
  cases hi : Matchmaking.tournamentCodeOffset out with
  | none => rfl
  | some i =>
    have hle := le_length_of_offset hi
    dsimp only
    rw [offset_some, if_neg (by omega), validTournamentCode_eq, ok_bind]
    cases hcode : Matchmaking.validTournamentCode code with
    | false => rfl
    | true =>
      rw [if_neg (by decide), slice_code hle, ok_bind]
      unfold Matchmaking.emptyCodeAt
      by_cases hempty : (out.drop i).take 3 = [1, 0, 0]
      · have hbefore : slice out 0 i = .ok ((out.drop 0).take (i - 0)) :=
          slice_of_le (Nat.zero_le i) (by omega)
        have hafter : slice out ((i : Int) + 3) out.length = .ok (out.drop (i + 3)) := slice_to_end hle
        have hcapacity : 0 ≤ (out.length : Int) +
            (([] : Bytes) ++ [UInt8.ofNat (code.length + 1), UInt8.ofNat ((code.length + 1) / 256)] ++ code ++
              [0]).length - 3 := by
          simp only [List.length_append, List.length_cons, List.length_nil]
          omega
        rw [if_neg (not_not_intro hempty), makeCap_of_le (by omega), ok_bind,
          makeCap_of_le hcapacity, ok_bind, hbefore, ok_bind, hafter, ok_bind, beq_iff_eq.mpr hempty,
          length_of_valid hcode]
        rfl
      · rw [if_pos hempty, beq_eq_false_iff_ne.mpr hempty]
        rfl

theorem refusesPayload_eq (payload : Bytes) (k : ℕ) :
    refusesPayload (payload.length + 1 + k) payload =
      .ok !((Matchmaking.tournamentCodeOffset payload).any fun i =>
        payload.length ≠ 0 && payload.length ≤ tournamentMaxBlob && Matchmaking.emptyCodeAt payload i) := by
  unfold refusesPayload
  rw [tournamentCodeOffset_eq, ok_bind]
  cases hi : Matchmaking.tournamentCodeOffset payload with
  | none =>
    split
    · rfl
    split <;> rfl
  | some i =>
    have hle := le_length_of_offset hi
    rw [offset_some]
    by_cases hempty : payload.length = 0
    · omega
    rw [if_neg hempty, Option.any_some, decide_eq_true hempty]
    by_cases hlong : tournamentMaxBlob < payload.length
    · rw [if_pos hlong, decide_eq_false (Nat.not_le.mpr hlong)]
      rfl
    · rw [if_neg hlong, if_neg (by omega), slice_code hle, ok_bind, decide_eq_true (Nat.le_of_not_lt hlong)]
      rfl

/-- What the check refuses is not stored. -/
theorem createTournament_of_refused {k : ℕ} (h : refusesPayload (payload.length + 1 + k) payload = .ok true)
    (env : TournamentEnv) (owner : UInt64) (t : TournamentStore) :
    createTournament env owner payload t = (tournamentInit env t, none) := by
  have hrefused := Except.ok.inj ((refusesPayload_eq payload k).symm.trans h)
  unfold createTournament
  dsimp only
  cases hi : Matchmaking.tournamentCodeOffset payload with
  | none => rfl
  | some i =>
    rw [hi, Option.any_some] at hrefused
    dsimp only
    refine if_pos ?_
    by_contra hkept
    rw [not_or, not_or, Nat.not_lt, Bool.not_eq_false] at hkept
    rw [hkept.2.2, decide_eq_true hkept.1, decide_eq_true hkept.2.1] at hrefused
    cases hrefused

end Bounded

/-! ### The locator and its callers -/

/-- On any bytes, with any code, id and mark: the locator ends after at most as many rounds as there are bytes,
without a read out of bounds, and so do the functions that slice at the offset that it returns.  An offset has
three bytes behind it.  What the check refuses, `CreateTournament` refuses. -/
theorem locator_in_bounds (b code mark : Bytes) (id : UInt32) (k : ℕ) :
    Bounded.tournamentCodeOffset (b.length + 1 + k) b = .ok (Bounded.offset (tournamentCodeOffset b)) ∧
    (∀ i : Int, Bounded.tournamentCodeOffset (b.length + 1 + k) b = .ok i → 0 ≤ i → i + 3 ≤ b.length) ∧
    Bounded.tournamentCodeMatches (b.length + 1 + k) b code = .ok (tournamentCodeMatches b code) ∧
    Bounded.stampTournament (b.length + 1 + k) b id mark code = .ok (stampTournament b id mark code) ∧
    Bounded.refusesPayload (b.length + 1 + k) b =
      .ok !((tournamentCodeOffset b).any fun i =>
        b.length ≠ 0 && b.length ≤ tournamentMaxBlob && emptyCodeAt b i) ∧
    (Bounded.refusesPayload (b.length + 1 + k) b = .ok true →
      ∀ env owner t, createTournament env owner b t = (tournamentInit env t, none)) := by
  refine ⟨Bounded.tournamentCodeOffset_eq b k, ?_, Bounded.tournamentCodeMatches_eq b code k,
    Bounded.stampTournament_eq b id mark code k, Bounded.refusesPayload_eq b k,
    Bounded.createTournament_of_refused⟩
  intro i hi hnonneg
  rw [Bounded.tournamentCodeOffset_eq] at hi
  cases hi
  cases hoffset : tournamentCodeOffset b with
  | none =>
    rw [hoffset] at hnonneg
    exact absurd hnonneg (by decide)
  | some i =>
    have hle := Bounded.le_length_of_offset hoffset
    rw [Bounded.offset_some]
    omega

end NextendoMatchmaking.Matchmaking
