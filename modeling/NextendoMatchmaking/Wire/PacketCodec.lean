import NextendoMatchmaking.Wire.PacketStream
import NextendoMatchmaking.Wire.RoundTrip

/-!
# Packets are read back as they were written

`EncodePacket` and `DecodePackets` of `nextendo-nex/prudp_lite.go` are inverse to each other on the packets
that fit the format (`Packet.Encodable`): every field within its bits, and nothing in the fields that the
type and the flags do not put on the wire.  The encodings of any number of such packets, and behind them a
part of one more, are decoded into the packets, and that part is left.
-/

namespace NextendoMatchmaking

open NextendoMatchmaking.Framing

/-! ### Two fields in one word -/

theorem or_shiftLeft {low k : ℕ} (hlow : low < 2 ^ k) (high : ℕ) : low ||| high <<< k = low + high * 2 ^ k := by
  rw [Nat.or_comm, ← Nat.shiftLeft_add_eq_or_of_lt hlow, Nat.shiftLeft_eq, Nat.add_comm]

/-- The low field of a word is what the mask leaves. -/
theorem and_packed {low k : ℕ} (hlow : low < 2 ^ k) (high : ℕ) :
    (low + high * 2 ^ k) &&& (2 ^ k - 1) = low := by
  rw [Nat.and_two_pow_sub_one_eq_mod, Nat.add_mul_mod_self_right, Nat.mod_eq_of_lt hlow]

/-- The high field of a word is what the shift leaves. -/
theorem shiftRight_packed {low k : ℕ} (hlow : low < 2 ^ k) (high : ℕ) : (low + high * 2 ^ k) >>> k = high := by
  rw [Nat.shiftRight_eq_div_pow, Nat.add_mul_div_right _ _ (Nat.two_pow_pos k), Nat.div_eq_of_lt hlow,
    Nat.zero_add]

section Stations

variable {source dest : UInt8} (hsource : source < 16) (hdest : dest < 16)

include hsource hdest

theorem toNat_stations : ((source <<< 4) ||| (dest &&& 0xF)).toNat = dest.toNat + source.toNat * 2 ^ 4 := by
  have hs : source.toNat < 16 := hsource
  have hd : dest.toNat < 2 ^ 4 := hdest
  have hlow : dest.toNat &&& 15 = dest.toNat := by
    rw [Nat.and_two_pow_sub_one_eq_mod dest.toNat 4, Nat.mod_eq_of_lt hd]
  have hhigh : source.toNat <<< 4 % 2 ^ 8 = source.toNat <<< 4 := by
    rw [Nat.shiftLeft_eq]
    omega
  rw [UInt8.toNat_or, UInt8.toNat_shiftLeft, UInt8.toNat_and]
  show source.toNat <<< 4 % 2 ^ 8 ||| (dest.toNat &&& 15) = _
  rw [hlow, hhigh, Nat.or_comm, or_shiftLeft hd]

theorem sourceType_stations : ((source <<< 4) ||| (dest &&& 0xF)) >>> 4 = source := by
  apply UInt8.toNat_inj.mp
  rw [UInt8.toNat_shiftRight, toNat_stations hsource hdest]
  exact shiftRight_packed hdest _

theorem destType_stations : ((source <<< 4) ||| (dest &&& 0xF)) &&& 0xF = dest := by
  apply UInt8.toNat_inj.mp
  rw [UInt8.toNat_and, toNat_stations hsource hdest]
  exact and_packed hdest _

end Stations

section TypeFlags

variable {type : UInt8} {flags : UInt16} (htype : type < 16) (hflags : flags < 4096)

include htype hflags

theorem toNat_typeFlags :
    ((type &&& 0xF).toUInt16 ||| (flags <<< 4)).toNat = type.toNat + flags.toNat * 2 ^ 4 := by
  have ht : type.toNat < 2 ^ 4 := htype
  have hf : flags.toNat < 4096 := hflags
  have hlow : type.toNat &&& 15 = type.toNat := by
    rw [Nat.and_two_pow_sub_one_eq_mod type.toNat 4, Nat.mod_eq_of_lt ht]
  have hhigh : flags.toNat <<< 4 % 2 ^ 16 = flags.toNat <<< 4 := by
    rw [Nat.shiftLeft_eq]
    omega
  rw [UInt16.toNat_or, UInt16.toNat_shiftLeft, UInt8.toNat_toUInt16, UInt8.toNat_and]
  show (type.toNat &&& 15) ||| flags.toNat <<< 4 % 2 ^ 16 = _
  rw [hlow, hhigh, or_shiftLeft ht]

theorem type_typeFlags : (((type &&& 0xF).toUInt16 ||| (flags <<< 4)) &&& 0xF).toUInt8 = type := by
  have ht : type.toNat < 2 ^ 4 := htype
  apply UInt8.toNat_inj.mp
  rw [UInt16.toNat_toUInt8, UInt16.toNat_and, toNat_typeFlags htype hflags]
  show ((type.toNat + flags.toNat * 2 ^ 4) &&& (2 ^ 4 - 1)) % 2 ^ 8 = type.toNat
  rw [and_packed ht]
  exact Nat.mod_eq_of_lt type.toNat_lt

theorem flags_typeFlags : ((type &&& 0xF).toUInt16 ||| (flags <<< 4)) >>> 4 = flags := by
  apply UInt16.toNat_inj.mp
  rw [UInt16.toNat_shiftRight, toNat_typeFlags htype hflags]
  exact shiftRight_packed htype _

end TypeFlags

section Support

variable {func : UInt32} (hfunc : func < 16777216) (minor : UInt8)

include hfunc

theorem toNat_support : (minor.toUInt32 ||| (func <<< 8)).toNat = minor.toNat + func.toNat * 2 ^ 8 := by
  have hf : func.toNat < 16777216 := hfunc
  have hhigh : func.toNat <<< 8 % 2 ^ 32 = func.toNat <<< 8 := by
    rw [Nat.shiftLeft_eq]
    omega
  rw [UInt32.toNat_or, UInt32.toNat_shiftLeft, UInt8.toNat_toUInt32]
  show minor.toNat ||| func.toNat <<< 8 % 2 ^ 32 = _
  rw [hhigh, or_shiftLeft minor.toNat_lt]

theorem minorVersion_support : ((minor.toUInt32 ||| (func <<< 8)) &&& 0xFF).toUInt8 = minor := by
  apply UInt8.toNat_inj.mp
  rw [UInt32.toNat_toUInt8, UInt32.toNat_and, toNat_support hfunc]
  show ((minor.toNat + func.toNat * 2 ^ 8) &&& (2 ^ 8 - 1)) % 2 ^ 8 = minor.toNat
  rw [and_packed minor.toNat_lt]
  exact Nat.mod_eq_of_lt minor.toNat_lt

theorem supportedFunc_support : (minor.toUInt32 ||| (func <<< 8)) >>> 8 = func := by
  apply UInt32.toNat_inj.mp
  rw [UInt32.toNat_shiftRight, toNat_support hfunc]
  exact shiftRight_packed minor.toNat_lt _

end Support

/-! ### Options -/

/-- The support word of a packet. -/
def Packet.support (p : Packet) : UInt32 := p.minorVersion.toUInt32 ||| (p.supportedFunc <<< 8)

/-- The options that `encodeLiteOptions` writes one after another. -/
def Packet.liteOptions (p : Packet) : List (UInt8 × Bytes) :=
  (if p.type = PacketType.syn ∨ p.type = PacketType.connect then [(0, StreamOut.u32 p.support)] else []) ++
  (if p.type = PacketType.syn ∧ p.hasFlag Flag.ack then [(1, p.connectionSig)] else []) ++
  (if p.type = PacketType.connect ∧ !p.hasFlag Flag.ack then [(128, p.signature)] else [])

/-- Options as they are on the wire. -/
def encodeOptions (options : List (UInt8 × Bytes)) : Bytes :=
  options.flatMap (fun option => Packet.option option.1 option.2)

theorem encodeOptions_append (options options' : List (UInt8 × Bytes)) :
    encodeOptions (options ++ options') = encodeOptions options ++ encodeOptions options' :=
  List.flatMap_append

theorem encodeOptions_ite (c : Prop) [Decidable c] (id : UInt8) (val : Bytes) :
    encodeOptions (if c then [(id, val)] else []) = if c then Packet.option id val else [] := by
  split
  · exact List.flatMap_singleton _ _
  · rfl

theorem encodeLiteOptions_eq (p : Packet) : p.encodeLiteOptions = encodeOptions p.liteOptions := by
  unfold Packet.liteOptions
  rw [encodeOptions_append, encodeOptions_append, encodeOptions_ite, encodeOptions_ite, encodeOptions_ite]
  rfl

/-- The loop of `decodeLiteOptions` gives each option to the packet, in order. -/
theorem decodeLiteOptionsLoop_encode (options : List (UInt8 × Bytes)) :
    ∀ (fuel : ℕ) (p : Packet), (encodeOptions options).length < fuel →
      (∀ option ∈ options, option.2.length ≤ 255) →
      decodeLiteOptionsLoop fuel p (encodeOptions options) =
        .ok (options.foldl (fun p option => p.setOption option.1 option.2) p) := by
  induction options with
  | nil =>
    intro fuel p hfuel _
    cases fuel with
    | zero => omega
    | succ fuel => rfl
  | cons option options ih =>
    obtain ⟨id, val⟩ := option
    intro fuel p hfuel hsize
    have hbytes : encodeOptions ((id, val) :: options) =
        id :: UInt8.ofNat val.length :: (val ++ encodeOptions options) := rfl
    have hval : (UInt8.ofNat val.length).toNat = val.length :=
      UInt8.toNat_ofNat_of_lt' (Nat.lt_succ_of_le (hsize _ List.mem_cons_self))
    rw [hbytes, List.length_cons, List.length_cons, List.length_append] at hfuel
    rw [hbytes]
    cases fuel with
    | zero => omega
    | succ fuel =>
      rw [decodeLiteOptionsLoop, hval, if_neg (by rw [List.length_append]; omega), List.take_left,
        List.drop_left]
      exact ih fuel _ (by omega) (fun option hoption => hsize option (List.mem_cons_of_mem _ hoption))

theorem decodeLiteOptions_encode (p : Packet) {options : List (UInt8 × Bytes)}
    (hsize : ∀ option ∈ options, option.2.length ≤ 255) :
    decodeLiteOptions p (encodeOptions options) =
      .ok (options.foldl (fun p option => p.setOption option.1 option.2) p) :=
  decodeLiteOptionsLoop_encode options _ p (Nat.lt_succ_self _) hsize

/-- An option is shorter than the options together. -/
theorem length_le_encodeOptions {options : List (UInt8 × Bytes)} {option : UInt8 × Bytes}
    (h : option ∈ options) : option.2.length ≤ (encodeOptions options).length := by
  obtain ⟨before, after, rfl⟩ := List.append_of_mem h
  show _ ≤ (encodeOptions (before ++ ([option] ++ after))).length
  rw [encodeOptions_append, encodeOptions_append, List.length_append, List.length_append]
  show _ ≤ _ + ((Packet.option option.1 option.2 ++ []).length + _)
  rw [List.append_nil, Packet.option, List.length_append]
  omega

/-! ### Packets that fit -/

/-- The fields of a packet fit the bits they have on the wire, and those that its type and flags do not
put on the wire are zero. -/
structure Packet.Encodable (p : Packet) : Prop where
  type : p.type < 16
  flags : p.flags < 4096
  sourceType : p.sourceType < 16
  destType : p.destType < 16
  supportedFunc : p.supportedFunc < 16777216
  payload : p.payload.length ≤ 65535
  options : p.encodeLiteOptions.length ≤ 255
  noSupport : ¬ (p.type = PacketType.syn ∨ p.type = PacketType.connect) →
    p.minorVersion = 0 ∧ p.supportedFunc = 0
  noConnectionSig : ¬ (p.type = PacketType.syn ∧ p.hasFlag Flag.ack) → p.connectionSig = []
  noSignature : ¬ (p.type = PacketType.connect ∧ !p.hasFlag Flag.ack) → p.signature = []

/-- What the header says of a packet. -/
def Packet.header (p : Packet) : Packet where
  type := p.type
  flags := p.flags
  sourceType := p.sourceType
  sourcePort := p.sourcePort
  destType := p.destType
  destPort := p.destPort
  fragmentID := p.fragmentID
  packetID := p.packetID

variable {p : Packet}

/-- Each option, where it is on the wire, gives its fields; where it is not, they are zero already. -/
theorem given_support (h : p.Encodable) {q : Packet} (hminor : q.minorVersion = 0)
    (hfunc : q.supportedFunc = 0) :
    (if p.type = PacketType.syn ∨ p.type = PacketType.connect then
        q.setOption 0 (StreamOut.u32 p.support) else q) =
      { q with minorVersion := p.minorVersion, supportedFunc := p.supportedFunc } := by
  split
  · have hword : UInt32.ofNat (leNat (StreamOut.u32 p.support)) = p.support := by
      rw [StreamOut.u32, leNat_leBytes 4 _ p.support.toNat_lt]
      exact UInt32.ofNat_toNat
    have hlength : (StreamOut.u32 p.support).length = 4 := length_leBytes 4 _
    rw [Packet.setOption, if_pos rfl, if_pos hlength, hword]
    show { q with minorVersion := (p.support &&& 0xFF).toUInt8, supportedFunc := p.support >>> 8 } = _
    rw [Packet.support, minorVersion_support h.supportedFunc, supportedFunc_support h.supportedFunc]
  · rename_i hother
    obtain ⟨hminor', hfunc'⟩ := h.noSupport hother
    rw [hminor', hfunc', ← hminor, ← hfunc]

theorem given_connectionSig (h : p.Encodable) {q : Packet} (hsig : q.connectionSig = []) :
    (if p.type = PacketType.syn ∧ p.hasFlag Flag.ack then q.setOption 1 p.connectionSig else q) =
      { q with connectionSig := p.connectionSig } := by
  split
  · rfl
  · rename_i hother
    rw [h.noConnectionSig hother, ← hsig]

theorem given_signature (h : p.Encodable) {q : Packet} (hsig : q.signature = []) :
    (if p.type = PacketType.connect ∧ !p.hasFlag Flag.ack then q.setOption 128 p.signature else q) =
      { q with signature := p.signature } := by
  split
  · rfl
  · rename_i hother
    rw [h.noSignature hother, ← hsig]

theorem foldl_ite (c : Prop) [Decidable c] (id : UInt8) (val : Bytes) (q : Packet) :
    (if c then [(id, val)] else []).foldl (fun q option => q.setOption option.1 option.2) q =
      if c then q.setOption id val else q := by
  split <;> rfl

/-- The options complete what the header says. -/
theorem foldl_liteOptions (h : p.Encodable) :
    p.liteOptions.foldl (fun q option => q.setOption option.1 option.2) p.header =
      { p with payload := [] } := by
  rw [Packet.liteOptions, List.foldl_append, List.foldl_append, foldl_ite, foldl_ite, foldl_ite,
    given_support h rfl rfl, given_connectionSig h rfl, given_signature h rfl]
  rfl

/-! ### One packet -/

theorem extract_append_middle (before middle after : Bytes) :
    (before ++ middle ++ after).extract before.length (before.length + middle.length) = middle := by
  rw [List.extract_eq_take_drop, List.append_assoc, List.drop_left, Nat.add_sub_cancel_left, List.take_left]

/-- The twelve bytes in front of the options. -/
def Packet.headerBytes (p : Packet) : Bytes :=
  [liteMagic, UInt8.ofNat p.encodeLiteOptions.length] ++
    StreamOut.u16 (UInt16.ofNat p.payload.length) ++
    [(p.sourceType <<< 4) ||| (p.destType &&& 0xF), p.sourcePort, p.destPort, p.fragmentID] ++
    StreamOut.u16 ((p.type &&& 0xF).toUInt16 ||| (p.flags <<< 4)) ++ StreamOut.u16 p.packetID

theorem encode_eq (p : Packet) : p.encode = p.headerBytes ++ p.encodeLiteOptions ++ p.payload := rfl

theorem ofNat_leNat_u16 (v : UInt16) : UInt16.ofNat (leNat (StreamOut.u16 v)) = v := by
  rw [StreamOut.u16, leNat_leBytes 2 _ v.toNat_lt]
  exact UInt16.ofNat_toNat

/-- The header that `decodePacket` reads is the one that was written. -/
theorem header_encode (h : p.Encodable) :
    ({ type := (UInt16.ofNat (leNat (p.encode.extract 8 10)) &&& 0xF).toUInt8
       flags := UInt16.ofNat (leNat (p.encode.extract 8 10)) >>> 4
       sourceType := p.encode.getD 4 0 >>> 4
       sourcePort := p.encode.getD 5 0
       destType := p.encode.getD 4 0 &&& 0xF
       destPort := p.encode.getD 6 0
       fragmentID := p.encode.getD 7 0
       packetID := UInt16.ofNat (leNat (p.encode.extract 10 12)) } : Packet) = p.header := by
  have hstations : p.encode.getD 4 0 = (p.sourceType <<< 4) ||| (p.destType &&& 0xF) := rfl
  have htypeFlags : p.encode.extract 8 10 =
      StreamOut.u16 ((p.type &&& 0xF).toUInt16 ||| (p.flags <<< 4)) := rfl
  have hpacketID : p.encode.extract 10 12 = StreamOut.u16 p.packetID := rfl
  rw [hstations, htypeFlags, hpacketID, ofNat_leNat_u16, ofNat_leNat_u16, type_typeFlags h.type h.flags,
    flags_typeFlags h.type h.flags, sourceType_stations h.sourceType h.destType,
    destType_stations h.sourceType h.destType]
  rfl

/-- The encoding of a packet is one frame, and the packet is what it says. -/
theorem isFrame_encode (h : p.Encodable) : IsFrame decodePacket p.encode p := by
  have hheader : p.headerBytes.length = liteHeaderSize := rfl
  have hlength : p.encode.length = liteHeaderSize + p.encodeLiteOptions.length + p.payload.length := by
    rw [encode_eq, List.length_append, List.length_append, hheader]
  have hmagic : p.encode.getD 0 0 = liteMagic := rfl
  have hoptSize : (p.encode.getD 1 0).toNat = p.encodeLiteOptions.length :=
    UInt8.toNat_ofNat_of_lt' (Nat.lt_succ_of_le h.options)
  have hpayloadSize : leNat (p.encode.extract 2 4) = p.payload.length := by
    show leNat (StreamOut.u16 (UInt16.ofNat p.payload.length)) = p.payload.length
    rw [StreamOut.u16, leNat_leBytes 2 _ (UInt16.toNat_lt _)]
    exact UInt16.toNat_ofNat_of_lt' (Nat.lt_succ_of_le h.payload)
  have hoptions : p.encode.extract liteHeaderSize (liteHeaderSize + p.encodeLiteOptions.length) =
      p.encodeLiteOptions := extract_append_middle p.headerBytes _ _
  have hpayload : p.encode.extract (liteHeaderSize + p.encodeLiteOptions.length)
      (liteHeaderSize + p.encodeLiteOptions.length + p.payload.length) = p.payload := by
    have hmiddle := extract_append_middle (p.headerBytes ++ p.encodeLiteOptions) p.payload []
    rw [List.append_nil, List.length_append, hheader] at hmiddle
    exact hmiddle
  have hdecoded : decodeLiteOptions p.header p.encodeLiteOptions = .ok { p with payload := [] } := by
    rw [encodeLiteOptions_eq, decodeLiteOptions_encode, foldl_liteOptions h]
    intro option hoption
    have hle := length_le_encodeOptions hoption
    rw [← encodeLiteOptions_eq] at hle
    exact hle.trans h.options
  unfold IsFrame decodePacket
  rw [if_neg (by omega), if_neg (not_not.mpr hmagic), hoptSize, hpayloadSize]
  dsimp only
  rw [if_neg (by omega), header_encode h, hoptions, hdecoded, hpayload, hlength]

/-! ### Many packets -/

/-- **Packet codec.**  The encodings of packets, and behind them a part of one more, are decoded into the
packets, in order, and that part is left. -/
theorem decodePackets_encode (ps : List Packet) (last : Packet) (part : Bytes)
    (hps : ∀ p ∈ ps, p.Encodable) (hlast : last.Encodable) (hpart : part <+: last.encode)
    (hproper : part ≠ last.encode) :
    decodePackets ((ps.map Packet.encode).flatten ++ part) = ⟨ps, part, none⟩ := by
  have hframes : List.Forall₂ (IsFrame decodePacket) (ps.map Packet.encode) ps := by
    rw [List.forall₂_map_left_iff, List.forall₂_same]
    exact fun p hp => isFrame_encode (hps p hp)
  have hwait : decodePacket part = .wait :=
    wait_of_part incremental_decodePacket (isFrame_encode hlast) hpart hproper
  rw [decodePackets, decode_frames incremental_decodePacket hframes, decode_wait hwait]
  show (⟨ps ++ [], part, none⟩ : Decoded UInt8 FramingError Packet) = _
  rw [List.append_nil]

def sampleCONNECT : Packet :=
  { type := PacketType.connect, flags := Flag.reliable ||| Flag.needACK, sourceType := 10, sourcePort := 15,
    destType := 10, destPort := 1, packetID := 1, signature := [1, 2, 3], minorVersion := 4,
    supportedFunc := 0x12345, payload := [9] }

def samplePING : Packet := { type := PacketType.ping, flags := 0xFFF, payload := [7, 8] }

/-- A signed `CONNECT`, a `PING` with a payload, and the first bytes of a `SYN`. -/
theorem decodePackets_encode_three :
    decodePackets (([sampleCONNECT, samplePING].map Packet.encode).flatten ++ sampleSYN.encode.take 14) =
      ⟨[sampleCONNECT, samplePING], sampleSYN.encode.take 14, none⟩ := by
  have hconnect : sampleCONNECT.Encodable := by constructor <;> decide
  have hping : samplePING.Encodable := by constructor <;> decide
  have hsyn : sampleSYN.Encodable := by constructor <;> decide
  refine decodePackets_encode _ sampleSYN _ ?_ hsyn (List.take_prefix _ _) (by decide)
  simp only [List.forall_mem_cons, hconnect, hping, List.not_mem_nil, false_implies, implies_true, and_self]

end NextendoMatchmaking
