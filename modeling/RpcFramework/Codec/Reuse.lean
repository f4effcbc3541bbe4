import RpcFramework.Codec.Grammar

/-!
# One packet for many calls

The loops that receive messages decode every packet into the same object.  A
request or a response replaces all fields that belong to it.  The extras of a
heartbeat are inserted into the map that earlier heartbeats, also refused ones,
have left, so the keys of those stay in it.
-/

namespace RpcFramework.Codec

/-- Equal in the type and the fields that belong to it, with a comparison of heartbeats. -/
def DecodedPacket.SameFields (sameHeartbeat : Heartbeat → Heartbeat → Prop)
    (first second : DecodedPacket) : Prop :=
  first.msgType = second.msgType ∧
    match second.msgType with
    | .request =>
        first.serviceName = second.serviceName ∧ first.methodName = second.methodName ∧
          first.rpcRequest = second.rpcRequest
    | .response =>
        first.rpcResponse = second.rpcResponse ∧ first.networkStatus = second.networkStatus
    | .heartbeat => sameHeartbeat first.heartbeat second.heartbeat

/-- The fields that belong to the type of a decoded packet. -/
def DecodedPacket.SameMessage (first second : DecodedPacket) : Prop :=
  first.reqId = second.reqId ∧ first.SameFields Heartbeat.SameContent second

/-- The fields that a body decoder assigns. -/
def DecodedPacket.SameAssigned (first second : DecodedPacket) : Prop :=
  first.SameFields
    (fun one other => one.serviceName = other.serviceName ∧ one.nodeId = other.nodeId ∧
      one.timestamp = other.timestamp) second

theorem DecodedPacket.SameAssigned.sameMessage_iff {first second : DecodedPacket}
    (assigned : first.SameAssigned second) (sameId : first.reqId = second.reqId) :
    first.SameMessage second ↔ (second.msgType = .heartbeat →
      ∀ key, first.heartbeat.extra.lookup key = second.heartbeat.extra.lookup key) := by
  unfold SameAssigned SameFields at assigned
  unfold SameMessage SameFields
  cases kind : second.msgType with
  | request =>
      rw [kind] at assigned
      exact iff_of_true ⟨sameId, assigned⟩ nofun
  | response =>
      rw [kind] at assigned
      exact iff_of_true ⟨sameId, assigned⟩ nofun
  | heartbeat =>
      rw [kind] at assigned
      obtain ⟨sameType, sameService, sameNode, sameTime⟩ := assigned
      constructor
      · intro same _
        exact same.2.2.2.2.2
      · intro extras
        exact ⟨sameId, sameType, sameService, sameNode, sameTime, extras rfl⟩

/--
What one decoding leaves when another one of the same bytes started without extras
and the first with the extras `stale`: what is assigned is the same, and the stale
extras show where no new one is.
-/
structure Overwrites (stale : StringMap) (one other : Bool × DecodedPacket) : Prop where
  accepts : one.1 = other.1
  assigned : one.1 = true → one.2.SameAssigned other.2
  extras : ∀ key, one.2.heartbeat.extra.lookup key =
    (other.2.heartbeat.extra.lookup key).or (stale.lookup key)

/-! ## What an accepted body replaces -/

section Bodies

variable {pb : Protobuf} {first second : DecodedPacket}

/-- The body decoder of a type, on two packets. -/
theorem decodeBody_overwrites (clean : second.heartbeat.extra = ∅) (msgType : MsgType)
    (body : Bytes) :
    ∃ one other, decodeBody pb msgType.toByte body body.length first = some one ∧
      decodeBody pb msgType.toByte body body.length second = some other ∧
      Overwrites first.heartbeat.extra one other := by
  have untouched : ∀ key, first.heartbeat.extra.lookup key =
      (second.heartbeat.extra.lookup key).or (first.heartbeat.extra.lookup key) := by
    intro key
    rw [clean]
    exact (Option.none_or ..).symm
  cases msgType with
  | request =>
      obtain ⟨_, _, _, _, filled, all⟩ := decodeRequestBody_fills pb body body.length
      refine ⟨_, _, rfl, rfl, ?_⟩
      rw [filled, filled]
      refine ⟨rfl, fun accepted => ?_, untouched⟩
      obtain ⟨_, _, _, _, _, _, _, _, rfl, rfl, rfl⟩ := all accepted
      exact ⟨rfl, rfl, rfl, rfl⟩
  | response =>
      obtain ⟨_, _, _, filled, all⟩ := decodeResponseBody_fills pb body body.length
      refine ⟨_, _, rfl, rfl, ?_⟩
      rw [filled, filled]
      refine ⟨rfl, fun accepted => ?_, untouched⟩
      obtain ⟨_, _, _, _, _, rfl, rfl⟩ := all accepted
      exact ⟨rfl, rfl, rfl⟩
  | heartbeat =>
      refine ⟨_, _, rfl, rfl, ?_⟩
      dsimp only
      rcases decodeHeartbeatBody_reads body with unread | ⟨_, _, _, _, _, _, _, _, _, _, _,
        refused | ⟨_, _, filled⟩⟩
      · rw [unread, unread]
        exact ⟨rfl, nofun, untouched⟩
      · rw [refused, refused]
        refine ⟨rfl, nofun, fun key => ?_⟩
        dsimp only
        rw [clean, lookup_foldl_insert_last, lookup_foldl_insert_last]
        exact congrArg (Option.or · _) Option.or_none.symm
      · rw [filled, filled]
        refine ⟨rfl, fun _ => ⟨rfl, rfl, rfl, rfl⟩, fun key => ?_⟩
        dsimp only
        rw [clean, lookup_foldl_insert_last, lookup_foldl_insert_last]
        exact congrArg (Option.or · _) Option.or_none.symm

theorem bodyOutcome_overwrites (clean : second.heartbeat.extra = ∅) (msgType : MsgType)
    (reqId : UInt64) (body : Bytes) :
    Overwrites first.heartbeat.extra (bodyOutcome pb msgType reqId body first)
        (bodyOutcome pb msgType reqId body second) ∧
      ((bodyOutcome pb msgType reqId body first).1 = true →
        (bodyOutcome pb msgType reqId body first).2.reqId =
          (bodyOutcome pb msgType reqId body second).2.reqId) := by
  obtain ⟨⟨accepted, filled⟩, ⟨_, filledToo⟩, called, calledToo, rfl, assigned, extras⟩ :=
    @decodeBody_overwrites pb first second clean msgType body
  rw [bodyOutcome, bodyOutcome, called, calledToo]
  cases accepted with
  | false => exact ⟨⟨rfl, Bool.noConfusion, extras⟩, Bool.noConfusion⟩
  | true => exact ⟨⟨rfl, fun _ => assigned rfl, extras⟩, fun _ => rfl⟩

end Bodies

/-! ## The keys and the heartbeats that bytes hold -/

/--
A heartbeat body that gives a key: the extra is among those that the count announces,
and everything up to it can be read.  What follows it need not belong to a body.
-/
inductive GivesKey (key : Bytes) : Bytes → Prop
  | mk {serviceName nodeId rest : Bytes} {timestamp : UInt64} {count : UInt16}
      {entries : List (Σ _ : Bytes, Bytes)} (shortService : serviceName.length ≤ 65535)
      (shortNode : nodeId.length ≤ 65535) (counted : entries.length ≤ count.toNat)
      (short : ∀ entry ∈ entries, entry.1.length ≤ 65535 ∧ entry.2.length ≤ 65535)
      (given : key ∈ entries.keys) :
      GivesKey key
        (stringField serviceName ++ (stringField nodeId ++ (encodeU64 timestamp ++
          (encodeU16 count ++ (extrasField entries ++ rest)))))

/-- The bytes start with a packet of a heartbeat, whose body gives the key. -/
def OffersKey (key bytes : Bytes) : Prop :=
  bytes.length ≤ kMaxBufferSize ∧
    ∃ reqId body rest, bytes = pack .heartbeat reqId body ++ rest ∧ body.length ≤ kMaxBodyLen ∧
      GivesKey key body

/-- The bytes start with a frame of a heartbeat. -/
def OffersHeartbeat (pb : Protobuf) (bytes : Bytes) : Prop :=
  bytes.length ≤ kMaxBufferSize ∧
    ∃ used rest packet, bytes = used ++ rest ∧ Frame pb used packet ∧ packet.msgType = .heartbeat

/-- The extras up to the count are all added. -/
theorem lookup_readExtras_of_drop {data post key : Bytes} {entries : List (Σ _ : Bytes, Bytes)}
    (short : ∀ entry ∈ entries, entry.1.length ≤ 65535 ∧ entry.2.length ≤ 65535)
    {pos bodyLen : Nat} (fits : bodyLen ≤ data.length)
    (here : data.drop pos = extrasField entries ++ post)
    (within : pos + (extrasField entries).length ≤ bodyLen) {count : Nat}
    (counted : entries.length ≤ count) (extra : StringMap) (given : key ∈ entries.keys) :
    ((readExtras data bodyLen count pos extra).2.lookup key).isSome = true := by
  induction entries generalizing pos count extra with
  | nil => cases given
  | cons entry rest ih =>
      cases count with
      | zero => cases counted
      | succ count =>
          obtain ⟨size, length, atRest, read⟩ :=
            readExtras_cons_of_drop (short entry (List.mem_cons_self ..)) here within count extra
          rw [length] at within
          rw [read]
          rcases List.mem_cons.mp given with rfl | later
          · obtain ⟨entries, ended, _, _, _, inserted, _⟩ := readExtras_reads fits count (pos + size)
            rw [inserted, lookup_foldl_insert_last, AList.lookup_insert, Option.isSome_or,
              Option.isSome_some, Bool.or_true]
          · exact ih (fun other member => short other (List.mem_cons_of_mem _ member)) atRest
              (by omega) (Nat.le_of_succ_le_succ counted) _ later

theorem givesKey_iff {body key : Bytes} {packet : DecodedPacket}
    (clean : packet.heartbeat.extra = ∅) :
    ((decodeHeartbeatBody body body.length packet).2.heartbeat.extra.lookup key).isSome = true ↔
      GivesKey key body := by
  constructor
  · intro found
    rcases decodeHeartbeatBody_reads body with unread | ⟨serviceName, nodeId, timestamp,
      rest, count, entries, shortService, shortNode, counted, short, whole, outcome⟩
    · rw [unread, clean] at found
      cases found
    · have extra : (decodeHeartbeatBody body body.length packet).2.heartbeat.extra =
          entries.foldl (fun map entry => map.insert entry.1 entry.2) ∅ := by
        rw [← clean]
        rcases outcome with refused | ⟨_, _, filled⟩
        · rw [refused]
        · rw [filled]
      rw [extra, lookup_foldl_insert_last, AList.lookup_empty, Option.or_none,
        List.dlookup_isSome, List.keys, List.map_reverse, List.mem_reverse] at found
      subst whole
      exact .mk shortService shortNode counted short found
  · rintro @⟨_, _, rest, _, _, entries, shortService, shortNode, counted, short, given⟩
    obtain ⟨pos, atExtras, size, decoded⟩ :=
      decodeHeartbeatBody_front shortService shortNode rfl packet
    have within := (Nat.add_le_add_left (List.prefix_append (extrasField entries) rest).length_le
      pos).trans (Nat.le_of_eq size.symm)
    have found := lookup_readExtras_of_drop short (Nat.le_refl _) atExtras within counted
      packet.heartbeat.extra given
    rw [decoded]
    dsimp only
    split
    · exact found
    · exact found

section Calls

variable {pb : Protobuf}

theorem bodyOutcome_lookup {packet : DecodedPacket} (clean : packet.heartbeat.extra = ∅)
    {msgType : MsgType} {reqId : UInt64} {body key : Bytes} :
    ((bodyOutcome pb msgType reqId body packet).2.heartbeat.extra.lookup key).isSome = true ↔
      msgType = .heartbeat ∧ GivesKey key body := by
  have shown : ∀ outcome, decodeBody pb msgType.toByte body body.length packet = some outcome →
      (bodyOutcome pb msgType reqId body packet).2.heartbeat = outcome.2.heartbeat := by
    rintro ⟨accepted, after⟩ called
    rw [bodyOutcome, called]
    cases accepted <;> rfl
  cases msgType with
  | request =>
      obtain ⟨_, _, _, _, filled, _⟩ := decodeRequestBody_fills pb body body.length
      rw [shown _ rfl, filled, clean]
      exact iff_of_false Bool.false_ne_true fun both => MsgType.noConfusion both.1
  | response =>
      obtain ⟨_, _, _, filled, _⟩ := decodeResponseBody_fills pb body body.length
      rw [shown _ rfl, filled, clean]
      exact iff_of_false Bool.false_ne_true fun both => MsgType.noConfusion both.1
  | heartbeat =>
      rw [shown _ rfl, givesKey_iff clean]
      exact (and_iff_right rfl).symm

theorem offersKey_iff {bytes key : Bytes} {packet : DecodedPacket}
    (clean : packet.heartbeat.extra = ∅) :
    ((decodeBytes pb bytes packet).2.2.heartbeat.extra.lookup key).isSome = true ↔
      OffersKey key bytes := by
  constructor
  · intro found
    rcases decodeBytes_cases pb bytes with ⟨fits, msgType, reqId, body, rest, rfl, small⟩ | kept
    · rw [decodeBytes_pack pb msgType reqId small fits, bodyOutcome_lookup clean] at found
      obtain ⟨rfl, gives⟩ := found
      exact ⟨fits, reqId, body, rest, rfl, small, gives⟩
    · obtain ⟨_, called⟩ := kept packet
      rw [called, clean] at found
      cases found
  · rintro ⟨fits, reqId, body, rest, rfl, small, gives⟩
    rw [decodeBytes_pack pb .heartbeat reqId small fits, bodyOutcome_lookup clean]
    exact ⟨rfl, gives⟩

theorem offersHeartbeat_iff {bytes : Bytes} {anyType : MsgType} {anyId : UInt64} :
    (decodeBytes pb bytes (.fresh anyType anyId)).1 = true ∧
      (decodeBytes pb bytes (.fresh anyType anyId)).2.2.msgType = .heartbeat ↔
      OffersHeartbeat pb bytes := by
  constructor
  · rintro ⟨accepted, kind⟩
    have called : decodeBytes pb bytes (.fresh anyType anyId) = (true, _, _) :=
      Prod.ext accepted rfl
    obtain ⟨fits, used, whole, frame⟩ := frame_of_decodeBytes called
    exact ⟨fits, used, _, _, whole, frame, kind⟩
  · rintro ⟨fits, used, rest, packet, rfl, frame, kind⟩
    obtain ⟨filled, called, same⟩ := frame.decodeBytes fits anyType anyId
    rw [called]
    exact ⟨rfl, same.1.trans kind⟩

/-! ## Calls that share a packet -/

/-- What a call returns and what it leaves in the packet. -/
def called (pb : Protobuf) (buf : Buffer) (packet : DecodedPacket) : Bool × DecodedPacket :=
  ((decode pb buf packet).1, (decode pb buf packet).2.2)

/-- The packet after calls on some buffers. -/
def packetAfter (pb : Protobuf) (packet : DecodedPacket) (bufs : List Buffer) : DecodedPacket :=
  bufs.foldl (fun packet buf => (called pb buf packet).2) packet

theorem called_view (pb : Protobuf) (buf : Buffer) (packet : DecodedPacket) :
    called pb buf packet =
      ((decodeBytes pb buf.readable packet).1, (decodeBytes pb buf.readable packet).2.2) := by
  rw [decode_view, called]

theorem called_overwrites (buf : Buffer) (first : DecodedPacket) {second : DecodedPacket}
    (clean : second.heartbeat.extra = ∅) :
    Overwrites first.heartbeat.extra (called pb buf first) (called pb buf second) ∧
      ((called pb buf first).1 = true →
        (called pb buf first).2.reqId = (called pb buf second).2.reqId) := by
  rw [called_view, called_view]
  rcases decodeBytes_cases pb buf.readable with ⟨fits, msgType, reqId, body, rest, whole, small⟩ |
    kept
  · rw [whole] at fits ⊢
    rw [decodeBytes_pack pb msgType reqId small fits, decodeBytes_pack pb msgType reqId small fits]
    exact bodyOutcome_overwrites clean msgType reqId body
  · obtain ⟨_, one⟩ := kept first
    obtain ⟨_, other⟩ := kept second
    rw [one, other]
    refine ⟨⟨rfl, nofun, fun key => ?_⟩, nofun⟩
    dsimp only
    rw [clean]
    exact (Option.none_or ..).symm

/-- A call adds the keys that its bytes offer to those that the packet has. -/
theorem called_lookup {buf : Buffer} {packet : DecodedPacket} {key : Bytes} :
    ((called pb buf packet).2.heartbeat.extra.lookup key).isSome = true ↔
      OffersKey key buf.readable ∨ (packet.heartbeat.extra.lookup key).isSome = true := by
  have clean : (DecodedPacket.fresh .request 0).heartbeat.extra = ∅ := rfl
  rw [(@called_overwrites pb buf packet _ clean).1.extras, Option.isSome_or, Bool.or_eq_true,
    called_view pb buf (.fresh ..), offersKey_iff clean]

/-- The keys that calls leave in the packet. -/
theorem packetAfter_lookup {bufs : List Buffer} {packet : DecodedPacket} {key : Bytes} :
    ((packetAfter pb packet bufs).heartbeat.extra.lookup key).isSome = true ↔
      (∃ buf ∈ bufs, OffersKey key buf.readable) ∨
        (packet.heartbeat.extra.lookup key).isSome = true := by
  induction bufs generalizing packet with
  | nil => exact ⟨Or.inr, fun found => found.resolve_left nofun⟩
  | cons buf bufs ih =>
      rw [packetAfter, List.foldl_cons, ← packetAfter, ih, called_lookup, List.exists_mem_cons_iff,
        or_left_comm, or_assoc]

theorem or_eq_left_iff {α : Type} {fresh stale : Option α} :
    fresh.or stale = fresh ↔ (stale.isSome = true → fresh.isSome = true) := by
  cases fresh with
  | none =>
      cases stale with
      | none => exact iff_of_true rfl nofun
      | some value => exact iff_of_false nofun fun found => nomatch found rfl
  | some value => exact iff_of_true rfl fun _ => rfl

/-- A successful call leaves the message that a fresh packet gets, iff no key is left
over from what the packet held. -/
theorem called_sameMessage_iff {buf : Buffer} {packet : DecodedPacket}
    (accepted : (called pb buf packet).1 = true) (anyType : MsgType) (anyId : UInt64) :
    (called pb buf packet).2.SameMessage (called pb buf (.fresh anyType anyId)).2 ↔
      (OffersHeartbeat pb buf.readable → ∀ key,
        (packet.heartbeat.extra.lookup key).isSome = true → OffersKey key buf.readable) := by
  have clean : (DecodedPacket.fresh anyType anyId).heartbeat.extra = ∅ := rfl
  obtain ⟨overwrites, sameId⟩ := @called_overwrites pb buf packet _ clean
  have acceptedToo := overwrites.accepts ▸ accepted
  rw [(overwrites.assigned accepted).sameMessage_iff (sameId accepted)]
  rw [called_view pb buf (.fresh anyType anyId)] at acceptedToo
  rw [← @offersHeartbeat_iff pb _ anyType anyId, and_iff_right acceptedToo]
  simp only [overwrites.extras, or_eq_left_iff, called_view pb buf (.fresh anyType anyId),
    offersKey_iff clean]

/--
Over a sequence of calls that share one packet, every successful call leaves the
message that a fresh packet would get from the same bytes, iff every heartbeat that
is returned has all the keys that the bytes of the earlier calls have offered.
-/
theorem reused_packet_iff (pb : Protobuf) (anyType : MsgType) (anyId : UInt64)
    (bufs : List Buffer) :
    (∀ before buf after, bufs = before ++ buf :: after →
      (decode pb buf (packetAfter pb (.fresh anyType anyId) before)).1 = true →
        ∀ freshType freshId,
          (decode pb buf (packetAfter pb (.fresh anyType anyId) before)).2.2.SameMessage
            (decode pb buf (.fresh freshType freshId)).2.2) ↔
    ∀ before buf after, bufs = before ++ buf :: after → OffersHeartbeat pb buf.readable →
      ∀ earlier ∈ before, ∀ key, OffersKey key earlier.readable → OffersKey key buf.readable := by
  refine forall_congr' fun before => forall_congr' fun buf => forall_congr' fun after =>
    forall_congr' fun _ => ?_
  have left : ∀ key, ((packetAfter pb (.fresh anyType anyId) before).heartbeat.extra.lookup
      key).isSome = true ↔ ∃ earlier ∈ before, OffersKey key earlier.readable := by
    intro key
    rw [packetAfter_lookup]
    exact or_iff_left nofun
  constructor
  · intro same heartbeat earlier member key found
    have accepted : (called pb buf (packetAfter pb (.fresh anyType anyId) before)).1 = true := by
      have clean : (DecodedPacket.fresh .request 0).heartbeat.extra = ∅ := rfl
      rw [(@called_overwrites pb buf (packetAfter pb (.fresh anyType anyId) before) _
        clean).1.accepts, called_view]
      exact (offersHeartbeat_iff.mpr heartbeat).1
    exact (called_sameMessage_iff accepted .request 0).mp (same accepted .request 0) heartbeat key
      ((left key).mpr ⟨earlier, member, found⟩)
  · intro kept accepted freshType freshId
    refine (called_sameMessage_iff accepted freshType freshId).mpr ?_
    intro heartbeat key found
    obtain ⟨earlier, member, offered⟩ := (left key).mp found
    exact kept heartbeat earlier member key offered

end Calls

/-- Two heartbeats, of which only the first has an extra. -/
def taggedHeartbeat : Heartbeat := ⟨[0x73], [0x61], 1, AList.singleton [0x6b] [0x76]⟩

def plainHeartbeat : Heartbeat := ⟨[0x73], [0x62], 2, ∅⟩

def heartbeatBuffer (hb : Heartbeat) : Buffer := Buffer.empty.append (encodeHeartbeat hb 1)

/-- The extra of the first heartbeat shows up in the second one. -/
theorem extra_of_earlier_heartbeat :
    (decode Wire.wireProtobuf (heartbeatBuffer plainHeartbeat)
        (packetAfter Wire.wireProtobuf (.fresh .request 0) [heartbeatBuffer taggedHeartbeat])).1 =
          true ∧
      (decode Wire.wireProtobuf (heartbeatBuffer plainHeartbeat)
        (packetAfter Wire.wireProtobuf (.fresh .request 0)
          [heartbeatBuffer taggedHeartbeat])).2.2.heartbeat.extra.lookup [0x6b] = some [0x76] ∧
      (decode Wire.wireProtobuf (heartbeatBuffer plainHeartbeat)
        (.fresh .request 0)).2.2.heartbeat.extra.lookup [0x6b] = none := by
  decide +kernel

end RpcFramework.Codec
