import Mathlib.Data.List.GetD
import NextendoMatchmaking.Library.Framing
import NextendoMatchmaking.Wire.Prudp

/-!
# Packets out of a stream of bytes

`DecodePackets` and `decodeLiteOptions` of `nextendo-nex/prudp_lite.go`, and the part of `Feed`
(`endpoint.go`) that takes packets out of what a transport delivers.  The packets that `feed` gives are
those that `Feed` passes to `handlePacket`, one after another.

Headers, options and payloads can be cut anywhere by the transport.  `decodePacket` only looks at the bytes
of one packet and waits until they are all there, so it is a framer in the sense of `Library/Framing`
(`incremental_decodePacket`), and the cuts make no difference (`packets_of_any_chunks`).

Where `DecodePackets` meets an error, `Feed` also drops the packets that were complete before it:
`packets_before_corruption` says exactly when the packets at the front of a chunk are handled.
-/

namespace NextendoMatchmaking

open NextendoMatchmaking.Framing

/-! ### Decoding -/

def liteMagic : UInt8 := 0x80

def liteHeaderSize : Nat := 12

/-- The errors of `DecodePackets`. -/
inductive FramingError
  | invalidMagic (magic : UInt8)
  | truncatedOptionHeader
  | truncatedOptionValue
  deriving DecidableEq

/-- One option of `decodeLiteOptions`: unknown options, and a support word of another size, are skipped. -/
def Packet.setOption (p : Packet) (id : UInt8) (val : Bytes) : Packet :=
  if id = 0 then
    if val.length = 4 then
      let v := UInt32.ofNat (leNat val)
      { p with minorVersion := (v &&& 0xFF).toUInt8, supportedFunc := v >>> 8 }
    else p
  else if id = 1 then { p with connectionSig := val }
  else if id = 128 then { p with signature := val }
  else p

/-- The loop of `decodeLiteOptions` over the options that are left. -/
def decodeLiteOptionsLoop : Nat → Packet → Bytes → Except FramingError Packet
  | 0, p, _ => .ok p
  | _ + 1, p, [] => .ok p
  | _ + 1, _, [_] => .error .truncatedOptionHeader
  | fuel + 1, p, id :: size :: rest =>
    if rest.length < size.toNat then .error .truncatedOptionValue
    else decodeLiteOptionsLoop fuel (p.setOption id (rest.take size.toNat)) (rest.drop size.toNat)

/-- `decodeLiteOptions`; every round takes two bytes or more. -/
def decodeLiteOptions (p : Packet) (data : Bytes) : Except FramingError Packet :=
  decodeLiteOptionsLoop (data.length + 1) p data

/-- One round of the loop of `DecodePackets`: the packet at the front of `buf` and its total size. -/
def decodePacket (buf : Bytes) : Front FramingError Packet :=
  if buf.length < liteHeaderSize then .wait
  else if buf.getD 0 0 ≠ liteMagic then .error (.invalidMagic (buf.getD 0 0))
  else
    let optSize := (buf.getD 1 0).toNat
    let payloadSize := leNat (buf.extract 2 4)
    let total := liteHeaderSize + optSize + payloadSize
    if buf.length < total then .wait
    else
      let st := buf.getD 4 0
      let typeFlags := UInt16.ofNat (leNat (buf.extract 8 10))
      let p : Packet :=
        { type := (typeFlags &&& 0xF).toUInt8
          flags := typeFlags >>> 4
          sourceType := st >>> 4
          sourcePort := buf.getD 5 0
          destType := st &&& 0xF
          destPort := buf.getD 6 0
          fragmentID := buf.getD 7 0
          packetID := UInt16.ofNat (leNat (buf.extract 10 12)) }
      match decodeLiteOptions p (buf.extract liteHeaderSize (liteHeaderSize + optSize)) with
      | .error e => .error e
      | .ok p => .frame { p with payload := buf.extract (liteHeaderSize + optSize) total } total

/-- `DecodePackets`: the packets, the trailing bytes of an incomplete one, and the error if there was one. -/
def decodePackets (buf : Bytes) : Decoded UInt8 FramingError Packet := decode decodePacket buf

/-- `Feed` on a connection with the buffer `recvBuf`: the packets that go to `handlePacket`, and the next
`recvBuf`. -/
def feed (recvBuf data : Bytes) : List Packet × Bytes := receive decodePacket recvBuf data

/-- The transport delivers one chunk after another: the packets that went to `handlePacket`, and the last
`recvBuf`. -/
def feedChunks (recvBuf : Bytes) (chunks : List Bytes) : List Packet × Bytes :=
  receiveAll decodePacket recvBuf chunks

/-! ### The front of a longer buffer -/

theorem extract_append_left {buf : Bytes} {stop : Nat} (h : stop ≤ buf.length) (start : Nat) (more : Bytes) :
    (buf ++ more).extract start stop = buf.extract start stop := by
  rw [List.extract_eq_take_drop, List.extract_eq_take_drop]
  by_cases hstart : start ≤ buf.length
  · rw [List.drop_append_of_le_length hstart, List.take_append_of_le_length]
    rw [List.length_drop]
    omega
  · rw [show stop - start = 0 by omega, List.take_zero, List.take_zero]

/-- A packet that is there, and an error, stay when more bytes arrive. -/
theorem decodePacket_append {buf : Bytes} (h : decodePacket buf ≠ .wait) (more : Bytes) :
    decodePacket (buf ++ more) = decodePacket buf := by
  have hlength : (buf ++ more).length = buf.length + more.length := List.length_append
  have hsize : liteHeaderSize = 12 := rfl
  by_cases hheader : buf.length < liteHeaderSize
  · exact absurd (if_pos hheader) h
  have hbyte : ∀ i < 12, (buf ++ more).getD i 0 = buf.getD i 0 :=
    fun i hi => List.getD_append _ _ _ _ (by omega)
  have hpart : ∀ start stop, stop ≤ buf.length →
      (buf ++ more).extract start stop = buf.extract start stop :=
    fun start stop hstop => extract_append_left hstop start more
  unfold decodePacket at h ⊢
  rw [if_neg hheader] at h
  rw [if_neg hheader, if_neg (by omega), hbyte 0 (by omega), hbyte 1 (by omega), hbyte 4 (by omega),
    hbyte 5 (by omega), hbyte 6 (by omega), hbyte 7 (by omega), hpart 2 4 (by omega),
    hpart 8 10 (by omega), hpart 10 12 (by omega)]
  by_cases hmagic : buf.getD 0 0 ≠ liteMagic
  · rw [if_pos hmagic, if_pos hmagic]
  rw [if_neg hmagic] at h
  rw [if_neg hmagic, if_neg hmagic]
  dsimp only at h ⊢
  split at h
  · exact absurd rfl h
  · rename_i hall
    rw [if_neg hall, if_neg (by omega), hpart _ _ (by omega), hpart _ _ (by omega)]

theorem size_decodePacket {buf : Bytes} {p : Packet} {size : Nat} (h : decodePacket buf = .frame p size) :
    0 < size ∧ size ≤ buf.length := by
  unfold decodePacket at h
  split at h
  · cases h
  split at h
  · cases h
  dsimp only at h
  split at h
  · cases h
  rename_i hall
  split at h
  · cases h
  · injection h with _ hsize
    have hheader : liteHeaderSize = 12 := rfl
    omega

theorem incremental_decodePacket : Incremental decodePacket where
  frame := by
    intro buf p size h
    obtain ⟨hpos, hle⟩ := size_decodePacket h
    refine ⟨hpos, hle, fun more => ?_⟩
    rw [decodePacket_append (by rw [h]; nofun), h]
  error := by
    intro buf e h more
    rw [decodePacket_append (by rw [h]; nofun), h]

/-! ### Chunks -/

/-- **Framing does not depend on the chunks.**  Whatever pieces a stream without framing errors arrives in,
the packets of the stream go to `handlePacket`, in order and once each, and the same bytes are left. -/
theorem packets_of_any_chunks (s : Bytes) (chunks : List Bytes) (hcut : chunks.flatten = s)
    (hok : (decodePackets s).error = none) :
    feedChunks [] chunks = ((decodePackets s).frames, (decodePackets s).rest) := by
  subst hcut
  exact receiveAll_eq incremental_decodePacket chunks [] rfl hok

def sampleSYN : Packet :=
  { type := PacketType.syn, flags := Flag.needACK, sourceType := 10, sourcePort := 1, destType := 10,
    destPort := 1, minorVersion := 4, supportedFunc := 7 }

/-- A `SYN` that is cut in its options, and the first bytes of the next packet. -/
theorem packets_of_any_chunks_syn :
    (decodePackets (sampleSYN.encode ++ [0x80, 6])).error = none ∧
      feedChunks [] [sampleSYN.encode.take 14, sampleSYN.encode.drop 14 ++ [0x80, 6]] =
        ([sampleSYN], [0x80, 6]) :=
  ⟨by decide, by
    rw [packets_of_any_chunks (sampleSYN.encode ++ [0x80, 6]) _ (by decide) (by decide)]
    decide⟩

/-! ### Corrupt bytes -/

/-- The packets at the front of a chunk go to `handlePacket`, in order, just when there are none or no
framing error follows them in the chunk. -/
theorem packets_before_corruption (ws : List Bytes) (ps : List Packet) (rest : Bytes)
    (hws : List.Forall₂ (IsFrame decodePacket) ws ps) :
    ps <+: (feed [] (ws.flatten ++ rest)).1 ↔ ps = [] ∨ ¬ Corrupt decodePacket rest :=
  frames_received_iff incremental_decodePacket hws rest

/-- A `SYN`, and behind it the first bytes of a packet. -/
theorem packets_before_corruption_syn :
    ¬ Corrupt decodePacket [0x80, 6] ∧
      [sampleSYN] <+: (feed [] ([sampleSYN.encode].flatten ++ [0x80, 6])).1 := by
  have hrest : ¬ Corrupt decodePacket [0x80, 6] := by
    rw [corrupt_iff incremental_decodePacket]
    decide
  have hws : List.Forall₂ (IsFrame decodePacket) [sampleSYN.encode] [sampleSYN] := by
    refine .cons ?_ .nil
    rfl
  exact ⟨hrest, (packets_before_corruption _ _ _ hws).mpr (.inr hrest)⟩

/-- A `SYN`, and behind it twelve bytes of which the first is not the magic byte: the `SYN` is lost. -/
theorem syn_before_bad_magic_lost :
    IsFrame decodePacket sampleSYN.encode sampleSYN ∧
      ¬ [sampleSYN] <+: (feed [] (sampleSYN.encode ++ List.replicate 12 0)).1 := by
  refine ⟨rfl, ?_⟩
  decide

end NextendoMatchmaking
