import NextendoMatchmaking.Wire.RoundTrip

/-!
# Messages that survive the wire

`ParseRMC` undoes `Encode` for every message that a constructor of `rmc.go` builds, with one exception.  A
protocol below `0x80` travels in the first byte, and `0x7F` in that byte announces a wide protocol behind
it.  Protocol `0x7F` is below `0x80`, so `Encode` writes it as the announcement of something that does not
follow (`rmc_round_trip`).
-/

namespace NextendoMatchmaking

open NextendoMatchmaking.Parsing

variable {m : RMCMessage} {proto : UInt8}

/-- The messages that the constructors build; the method of a success leaves the response bit free. -/
inductive Built : RMCMessage → Prop
  | request (protocol : UInt16) (method callID : UInt32) (body : Bytes) :
      Built (newRMCRequest protocol method callID body)
  | success (protocol : UInt16) (method callID : UInt32) (body : Bytes) (h : method &&& 0x8000 = 0) :
      Built (newRMCSuccess protocol method callID body)
  | error (protocol : UInt16) (callID errorCode : UInt32) : Built (newRMCError protocol callID errorCode)

/-! ### The first byte -/

/-- The bit that `Encode` sets in the first byte of a request. -/
def requestFlag (request : Bool) : UInt8 := if request then 0x80 else 0

/-- A short protocol and the flag come apart again. -/
theorem short_head (n : Fin 128) (request : Bool) :
    (UInt8.ofNat n ||| requestFlag request) &&& 0x7F = UInt8.ofNat n ∧
      ((UInt8.ofNat n ||| requestFlag request) &&& 0x80 ≠ 0 ↔ request = true) := by
  revert n request
  decide +kernel

theorem wide_head (request : Bool) :
    ((0x7F : UInt8) ||| requestFlag request) &&& 0x7F = 0x7F ∧
      (((0x7F : UInt8) ||| requestFlag request) &&& 0x80 ≠ 0 ↔ request = true) := by
  cases request <;> decide

/-- The part of `Encode` that writes the protocol. -/
def writeProtocol (protocol : UInt16) (request : Bool) : Bytes :=
  if protocol < 0x80 then StreamOut.u8 (protocol.toUInt8 ||| requestFlag request)
  else StreamOut.u8 (0x7F ||| requestFlag request) ++ StreamOut.u16 protocol

/-- What `ParseRMC` reads after the protocol. -/
def readMessage (proto : UInt8) (protocol : UInt16) : Reader RMCMessage :=
  if proto &&& 0x80 ≠ 0 then do
    let callID ← StreamIn.u32
    let method ← StreamIn.u32
    let body ← StreamIn.readAll
    return ⟨.request, protocol, method, callID, 0, body, false⟩
  else do
    if ← StreamIn.bool then
      let callID ← StreamIn.u32
      let method ← StreamIn.u32
      let body ← StreamIn.readAll
      return ⟨.response, protocol, method &&& ~~~0x8000, callID, 0, body, false⟩
    else
      let result ← StreamIn.u32
      let callID ← StreamIn.u32
      return ⟨.response, protocol, 0, callID, result, [], true⟩

theorem parseRMCFields_eq : parseRMCFields = StreamIn.u8 >>= fun proto =>
    if proto &&& 0x7F = 0x7F then StreamIn.u16 >>= readMessage proto
    else readMessage proto (proto &&& 0x7F).toUInt16 := by
  funext s
  unfold parseRMCFields readMessage
  rw [bind_apply, bind_apply]
  dsimp only
  split <;> rfl

theorem readAll_eq (rest : Bytes) : StreamIn.readAll (newStreamIn rest) = (rest, newStreamIn []) := by
  have h := reads_read rest []
  rw [List.append_nil] at h
  unfold StreamIn.readAll
  simp only [bind_apply, get, getThe, MonadStateOf.get, StateT.get]
  show ((StreamIn.read rest.length (newStreamIn rest)).1.getD [],
    (StreamIn.read rest.length (newStreamIn rest)).2) = _
  rw [h]
  rfl

/-- Every protocol but the announcement itself comes back, and the message is read behind it. -/
theorem parse_writeProtocol {protocol : UInt16} (hne : protocol ≠ 0x7F) (request : Bool) (rest : Bytes) :
    ∃ proto : UInt8, (proto &&& 0x80 ≠ 0 ↔ request = true) ∧
      parseRMCFields (newStreamIn (writeProtocol protocol request ++ rest)) =
        readMessage proto protocol (newStreamIn rest) := by
  unfold writeProtocol
  rw [parseRMCFields_eq]
  by_cases hshort : protocol < 0x80
  · have hlt : protocol.toNat < 128 := UInt16.lt_iff_toNat_lt.mp hshort
    have hnat : UInt8.ofNat protocol.toNat = protocol.toUInt8 := by
      apply UInt8.toNat_inj.mp
      simp
    obtain ⟨hback, hflag⟩ := short_head ⟨protocol.toNat, hlt⟩ request
    simp only [hnat] at hback hflag
    have hwide : protocol.toUInt8.toUInt16 = protocol := by
      apply UInt16.toNat_inj.mp
      rw [UInt8.toNat_toUInt16, UInt16.toNat_toUInt8]
      omega
    have hother : protocol.toUInt8 ≠ 0x7F := by
      intro heq
      apply hne
      rw [← hwide, heq]
      rfl
    refine ⟨protocol.toUInt8 ||| requestFlag request, hflag, ?_⟩
    rw [if_pos hshort, bind_apply, reads_u8]
    dsimp only
    rw [hback, if_neg hother, hwide]
  · obtain ⟨hback, hflag⟩ := wide_head request
    refine ⟨0x7F ||| requestFlag request, hflag, ?_⟩
    rw [if_neg hshort, List.append_assoc, bind_apply, reads_u8]
    dsimp only
    rw [if_pos hback, bind_apply, reads_u16]

/-! ### The rest of a message -/

theorem parseRMC_encode (hsize : m.encode.length < 2 ^ 32) :
    parseRMC m.encode =
      if (parseRMCFields (newStreamIn m.payload)).2.err then none
      else some (parseRMCFields (newStreamIn m.payload)).1 := by
  have hlength : m.encode.length = m.payload.length + 4 := by
    show (StreamOut.u32 _ ++ m.payload).length = _
    rw [List.length_append, StreamOut.u32, length_leBytes]
    omega
  have hnat : (UInt32.ofNat m.payload.length).toNat = m.payload.length :=
    UInt32.toNat_ofNat_of_lt' (by show _ < 2 ^ 32; omega)
  have hread : StreamIn.u32 (newStreamIn m.encode) =
      (UInt32.ofNat m.payload.length, newStreamIn m.payload) := reads_u32 _ m.payload
  have hcheck : ¬ ((UInt32.ofNat m.payload.length).toNat : Int) ≠ (m.encode.length : Int) - 4 := by
    rw [hnat, hlength]
    omega
  unfold parseRMC
  rw [hread]
  exact if_neg hcheck

theorem payload_request (protocol : UInt16) (method callID : UInt32) (body : Bytes) :
    (newRMCRequest protocol method callID body).payload =
      writeProtocol protocol true ++ (StreamOut.u32 callID ++ StreamOut.u32 method ++ body) := rfl

theorem payload_success (protocol : UInt16) (method callID : UInt32) (body : Bytes) :
    (newRMCSuccess protocol method callID body).payload =
      writeProtocol protocol false ++
        (StreamOut.bool true ++ StreamOut.u32 callID ++ StreamOut.u32 (method ||| 0x8000) ++ body) := rfl

theorem payload_error (protocol : UInt16) (callID errorCode : UInt32) :
    (newRMCError protocol callID errorCode).payload =
      writeProtocol protocol false ++ (StreamOut.bool false ++
        StreamOut.u32 (errorCode ||| resultErrorMask ||| resultErrorMask) ++ StreamOut.u32 callID) := rfl

/-- A bit that was free is set and cleared again. -/
theorem clear_of_free {a bit : UInt32} (h : a &&& bit = 0) : (a ||| bit) &&& ~~~bit = a := by
  have hbits : a.toBitVec &&& bit.toBitVec = 0#32 := congrArg UInt32.toBitVec h
  apply UInt32.toBitVec_inj.mp
  show (a.toBitVec ||| bit.toBitVec) &&& ~~~bit.toBitVec = a.toBitVec
  ext i hi
  have hbit := congrArg (fun v => v.getLsbD i) hbits
  simp only [BitVec.getLsbD_and, BitVec.getLsbD_zero] at hbit
  rw [BitVec.getElem_and, BitVec.getElem_or, BitVec.getElem_not, ← BitVec.getLsbD_eq_getElem,
    ← BitVec.getLsbD_eq_getElem]
  revert hbit
  cases a.toBitVec.getLsbD i <;> cases bit.toBitVec.getLsbD i <;> simp

/-- The message behind its protocol. -/
theorem readMessage_request (hproto : proto &&& 0x80 ≠ 0) (protocol : UInt16) (method callID : UInt32) (body : Bytes) :
    readMessage proto protocol
        (newStreamIn (StreamOut.u32 callID ++ StreamOut.u32 method ++ body)) =
      (newRMCRequest protocol method callID body, newStreamIn []) := by
  unfold readMessage
  rw [if_pos hproto, List.append_assoc, bind_apply, reads_u32, bind_apply, reads_u32, bind_apply, readAll_eq]
  rfl

theorem readMessage_success (hproto : ¬ proto &&& 0x80 ≠ 0) (protocol : UInt16) {method : UInt32}
    (hmethod : method &&& 0x8000 = 0) (callID : UInt32) (body : Bytes) :
    readMessage proto protocol (newStreamIn
        (StreamOut.bool true ++ StreamOut.u32 callID ++ StreamOut.u32 (method ||| 0x8000) ++ body)) =
      (newRMCSuccess protocol method callID body, newStreamIn []) := by
  unfold readMessage
  rw [if_neg hproto, List.append_assoc, List.append_assoc, bind_apply, reads_bool]
  dsimp only
  rw [if_pos rfl, bind_apply, reads_u32, bind_apply, reads_u32, bind_apply, readAll_eq]
  dsimp only
  rw [clear_of_free hmethod]
  rfl

theorem readMessage_error (hproto : ¬ proto &&& 0x80 ≠ 0) (protocol : UInt16) (callID errorCode : UInt32) :
    readMessage proto protocol (newStreamIn (StreamOut.bool false ++
        StreamOut.u32 (errorCode ||| resultErrorMask ||| resultErrorMask) ++ StreamOut.u32 callID)) =
      (newRMCError protocol callID errorCode, newStreamIn []) := by
  have hcall := reads_u32 callID []
  rw [List.append_nil] at hcall
  unfold readMessage
  rw [if_neg hproto, List.append_assoc, bind_apply, reads_bool]
  dsimp only
  rw [if_neg Bool.false_ne_true, bind_apply, reads_u32, bind_apply, hcall, UInt32.or_assoc, UInt32.or_self]
  rfl

/-- **A protocol that is not the announcement.** -/
theorem parseRMCFields_payload (h : Built m) (hne : m.protocol ≠ 0x7F) :
    parseRMCFields (newStreamIn m.payload) = (m, newStreamIn []) := by
  cases h with
  | request protocol method callID body =>
    obtain ⟨proto, hproto, hparse⟩ := parse_writeProtocol (show protocol ≠ 0x7F from hne) true
      (StreamOut.u32 callID ++ StreamOut.u32 method ++ body)
    rw [payload_request, hparse]
    exact readMessage_request (hproto.mpr rfl) protocol method callID body
  | success protocol method callID body hmethod =>
    obtain ⟨proto, hproto, hparse⟩ := parse_writeProtocol (show protocol ≠ 0x7F from hne) false
      (StreamOut.bool true ++ StreamOut.u32 callID ++ StreamOut.u32 (method ||| 0x8000) ++ body)
    rw [payload_success, hparse]
    exact readMessage_success (fun hbit => nomatch hproto.mp hbit) protocol hmethod callID body
  | error protocol callID errorCode =>
    obtain ⟨proto, hproto, hparse⟩ := parse_writeProtocol (show protocol ≠ 0x7F from hne) false
      (StreamOut.bool false ++ StreamOut.u32 (errorCode ||| resultErrorMask ||| resultErrorMask) ++
        StreamOut.u32 callID)
    rw [payload_error, hparse]
    exact readMessage_error (fun hbit => nomatch hproto.mp hbit) protocol callID errorCode

/-! ### The announcement as a protocol -/

theorem reads_bytes (bs : Bytes) : Reads (StreamIn.uint bs.length) bs (leNat bs) :=
  (reads_read bs).bind_nil (parses_pure (leNat bs))

/-- The parser takes the two bytes behind the announcement for the protocol. -/
theorem parse_announcement (request : Bool) (x y : UInt8) (rest : Bytes) :
    ∃ proto : UInt8, (proto &&& 0x80 ≠ 0 ↔ request = true) ∧
      parseRMCFields (newStreamIn (writeProtocol 0x7F request ++ ([x, y] ++ rest))) =
        readMessage proto (UInt16.ofNat (leNat [x, y])) (newStreamIn rest) := by
  obtain ⟨hback, hflag⟩ := wide_head request
  have hu16 : Reads StreamIn.u16 [x, y] (UInt16.ofNat (leNat [x, y])) := (reads_bytes [x, y]).map
  refine ⟨0x7F ||| requestFlag request, hflag, ?_⟩
  have hhead : writeProtocol 0x7F request = StreamOut.u8 (0x7F ||| requestFlag request) := by
    cases request <;> rfl
  rw [hhead, parseRMCFields_eq, bind_apply, reads_u8]
  dsimp only
  rw [if_pos hback, bind_apply, hu16]

/-- Whatever follows, the message has the protocol that was read. -/
theorem protocol_readMessage (proto : UInt8) (protocol : UInt16) (s : StreamIn) :
    (readMessage proto protocol s).1.protocol = protocol := by
  unfold readMessage
  split
  · rfl
  · rw [bind_apply]
    split <;> rfl

/-- The low byte of a protocol that is read from two bytes. -/
theorem ofNat_leNat_ne {x : UInt8} (y : UInt8) (hx : x ≠ 0x7F) : UInt16.ofNat (leNat [x, y]) ≠ 0x7F := by
  intro heq
  apply hx
  have hnat := congrArg UInt16.toNat heq
  have hx' := x.toNat_lt
  have hy' := y.toNat_lt
  apply UInt8.toNat_inj.mp
  rw [UInt16.toNat_ofNat'] at hnat
  simp only [leNat] at hnat
  have hsmall : (x.toNat + 256 * (y.toNat + 256 * 0)) % 2 ^ 16 = x.toNat + 256 * y.toNat :=
    Nat.mod_eq_of_lt (by omega)
  rw [hsmall] at hnat
  have hval : (0x7F : UInt16).toNat = 127 := rfl
  have hval' : (0x7F : UInt8).toNat = 127 := rfl
  omega

/-- A request to protocol `0x7F` loses the first two bytes of its call id to the protocol, and everything
behind them moves up: two bytes of the body are gone, or the message is too short. -/
theorem request_announcement (method callID : UInt32) (body : Bytes) :
    (parseRMCFields (newStreamIn (newRMCRequest 0x7F method callID body).payload)).2.err = true ∨
      (parseRMCFields (newStreamIn (newRMCRequest 0x7F method callID body).payload)).1.body ≠ body := by
  generalize hcall : callID.toNat = n
  generalize hmethod : method.toNat = k
  -- the eight bytes of the call id and the method, regrouped as the parser reads them
  have hbytes : StreamOut.u32 callID ++ StreamOut.u32 method ++ body =
      [UInt8.ofNat n, UInt8.ofNat (n / 256)] ++
        ([UInt8.ofNat (n / 256 / 256), UInt8.ofNat (n / 256 / 256 / 256), UInt8.ofNat k,
          UInt8.ofNat (k / 256)] ++
          ([UInt8.ofNat (k / 256 / 256), UInt8.ofNat (k / 256 / 256 / 256)] ++ body)) := by
    unfold StreamOut.u32
    rw [hcall, hmethod]
    rfl
  obtain ⟨proto, hproto, hparse⟩ := parse_announcement true (UInt8.ofNat n) (UInt8.ofNat (n / 256))
    ([UInt8.ofNat (n / 256 / 256), UInt8.ofNat (n / 256 / 256 / 256), UInt8.ofNat k,
      UInt8.ofNat (k / 256)] ++ ([UInt8.ofNat (k / 256 / 256), UInt8.ofNat (k / 256 / 256 / 256)] ++ body))
  have hfour : ∀ a b c d : UInt8, Reads StreamIn.u32 [a, b, c, d] (UInt32.ofNat (leNat [a, b, c, d])) :=
    fun a b c d => (reads_bytes [a, b, c, d]).map
  rw [payload_request, hbytes, hparse]
  unfold readMessage
  rw [if_pos (hproto.mpr rfl), bind_apply, hfour, bind_apply]
  match body with
  | [] => exact .inl rfl
  | [x] => exact .inl rfl
  | x :: y :: rest =>
    right
    rw [show ∀ a b : UInt8, [a, b] ++ x :: y :: rest = [a, b, x, y] ++ rest from fun _ _ => rfl, hfour,
      bind_apply, readAll_eq]
    intro heq
    have hlength := congrArg List.length heq
    change rest.length = rest.length + 1 + 1 at hlength
    omega

theorem not_parsed_announcement (h : Built m) (hp : m.protocol = 0x7F) :
    (parseRMCFields (newStreamIn m.payload)).2.err = true ∨
      (parseRMCFields (newStreamIn m.payload)).1 ≠ m := by
  cases h with
  | request protocol method callID body =>
    obtain rfl : protocol = 0x7F := hp
    rcases request_announcement method callID body with herr | hbody
    · exact .inl herr
    · exact .inr (fun heq => hbody (congrArg RMCMessage.body heq))
  | success protocol method callID body _ =>
    obtain rfl : protocol = 0x7F := hp
    obtain ⟨proto, -, hparse⟩ := parse_announcement false 1 (UInt8.ofNat callID.toNat)
      (leBytes 3 (callID.toNat / 256) ++ StreamOut.u32 (method ||| 0x8000) ++ body)
    refine .inr (fun heq => ofNat_leNat_ne (UInt8.ofNat callID.toNat) (show (1 : UInt8) ≠ 0x7F by decide) ?_)
    have hprotocol := congrArg RMCMessage.protocol heq
    have hbytes : (newRMCSuccess 0x7F method callID body).payload = writeProtocol 0x7F false ++
        ([1, UInt8.ofNat callID.toNat] ++
          (leBytes 3 (callID.toNat / 256) ++ StreamOut.u32 (method ||| 0x8000) ++ body)) := rfl
    rw [hbytes, hparse, protocol_readMessage] at hprotocol
    exact hprotocol
  | error protocol callID errorCode =>
    obtain rfl : protocol = 0x7F := hp
    generalize hcode : errorCode ||| resultErrorMask ||| resultErrorMask = code
    obtain ⟨proto, -, hparse⟩ := parse_announcement false 0 (UInt8.ofNat code.toNat)
      (leBytes 3 (code.toNat / 256) ++ StreamOut.u32 callID)
    refine .inr (fun heq => ofNat_leNat_ne (UInt8.ofNat code.toNat) (show (0 : UInt8) ≠ 0x7F by decide) ?_)
    have hprotocol := congrArg RMCMessage.protocol heq
    have hbytes : (newRMCError 0x7F callID errorCode).payload = writeProtocol 0x7F false ++
        ([0, UInt8.ofNat code.toNat] ++ (leBytes 3 (code.toNat / 256) ++ StreamOut.u32 callID)) := by
      rw [payload_error, hcode]
      rfl
    rw [hbytes, hparse, protocol_readMessage] at hprotocol
    exact hprotocol

/-- **Messages that come back.**  A message that was built by a constructor and whose encoding fits 32 bits
is parsed as itself exactly when its protocol is not `0x7F`. -/
theorem rmc_round_trip (m : RMCMessage) (h : Built m) (hsize : m.encode.length < 2 ^ 32) :
    parseRMC m.encode = some m ↔ m.protocol ≠ 0x7F := by
  rw [parseRMC_encode hsize]
  constructor
  · intro hparse hp
    rcases not_parsed_announcement h hp with herr | hne
    · rw [if_pos herr] at hparse
      cases hparse
    · split at hparse
      · cases hparse
      · exact hne (Option.some.inj hparse)
  · intro hne
    rw [parseRMCFields_payload h hne]
    rfl

/-- A request to the ranking protocol. -/
theorem rmc_round_trip_ranking :
    Built (newRMCRequest 0x70 4 17 [1, 2, 3]) ∧
      parseRMC (newRMCRequest 0x70 4 17 [1, 2, 3]).encode = some (newRMCRequest 0x70 4 17 [1, 2, 3]) :=
  ⟨.request _ _ _ _, (rmc_round_trip _ (.request _ _ _ _) (by decide)).mpr (by decide)⟩

/-- A request to protocol `0x7F` with an empty body is refused. -/
theorem rmc_announcement_refused :
    Built (newRMCRequest 0x7F 1 1 []) ∧ (newRMCRequest 0x7F 1 1 []).encode.length < 2 ^ 32 ∧
      parseRMC (newRMCRequest 0x7F 1 1 []).encode = none :=
  ⟨.request _ _ _ _, by decide, by decide⟩

end NextendoMatchmaking
