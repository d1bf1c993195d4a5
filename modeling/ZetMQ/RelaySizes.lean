import ZetMQ.MsgFrames
import ZetMQ.PubSections

/-! How large a publish becomes on delivery. A `MSG` frame carries the subscription
id that the `PUB` frame did not, and its headers are encoded anew from the decoded
map: repeated keys and trailing bytes are gone, malformed text has grown, and the
subject is trimmed. -/
namespace ZetMQ.RelaySizes
open Utf8Text Utf8Codec ByteBuffer Frames KeyedTable SubjectGrammar WildcardTrie Delivery Commands
open FrameCodec HeaderCodec MsgFrames PubFastPath PubFrames PubDecoders PubSections
open SessionSteps

def entriesFrom : ℕ → Bytes → List (Σ _ : Str, Str)
  | 0, _ => []
  | n + 1, buf =>
    let key := (buf.drop 2).take (beAt buf 0 2)
    let buf := (buf.drop 2).drop (beAt buf 0 2)
    let value := (buf.drop 2).take (beAt buf 0 2)
    ⟨fromUtf8Lossy key, fromUtf8Lossy value⟩ ::
      entriesFrom n ((buf.drop 2).drop (beAt buf 0 2))

def entriesIn (headers : Bytes) : List (Σ _ : Str, Str) :=
  if headers.length < 2 then [] else entriesFrom (beAt headers 0 2) (headers.drop 2)

def relayedHeaders (headers : Bytes) : ℕ :=
  if headers.isEmpty then 0
  else 2 + ((lastEntries (entriesIn headers)).map fun entry =>
    2 + utf8Len entry.1 + 2 + utf8Len entry.2).sum

def relayedSubject (subject : Bytes) : ℕ :=
  match fromUtf8 subject with
  | none => 0
  | some text =>
    match Subject.parse text with
    | .error _ => 0
    | .ok _ => utf8Len (trim text)

theorem decodeHeaderEntries_ok {n : ℕ} {buf : Bytes} {headers decoded : HeaderMap}
    (ok : decodeHeaderEntries n buf headers = .ok decoded) :
    decoded = insertAll (entriesFrom n buf) headers := by
  induction n generalizing buf headers with
  | zero =>
    cases ok
    rfl
  | succ n ih =>
    rw [decodeHeaderEntries] at ok
    dsimp only at ok
    split_ifs at ok
    exact ih ok

theorem decodeHeaders_ok {headers : Bytes} {decoded : HeaderMap}
    (ok : decodeHeaders headers = .ok decoded) :
    decoded = insertAll (entriesIn headers) ∅ := by
  rw [decodeHeaders] at ok
  rw [entriesIn]
  split_ifs at ok ⊢
  · cases ok
    rfl
  · exact decodeHeaderEntries_ok ok

theorem encodeHeaders_length (order : HeaderOrder) (entries : List (Σ _ : Str, Str)) :
    (encodeHeaders order (insertAll entries ∅)).length =
      2 + ((lastEntries entries).map fun entry =>
        2 + utf8Len entry.1 + 2 + utf8Len entry.2).sum := by
  have perm : (order.visit (insertAll entries ∅)).Perm (lastEntries entries) :=
    (order.perm _).trans (entries_insertAll_empty entries)
  rw [encodeHeaders, List.length_append, toBe_length, List.length_flatMap]
  congr 1
  rw [(perm.map _).sum_nat]
  congr 1
  exact List.map_congr_left fun entry _ => encodeEntry_length entry

theorem headersSection_length {headers : Bytes} {decoded : Option HeaderMap}
    (ok : headersFromFrame headers = .ok decoded) (order : HeaderOrder) :
    (headersSection order decoded).length = relayedHeaders headers := by
  rw [headersFromFrame] at ok
  rw [relayedHeaders]
  split_ifs at ok ⊢
  · cases ok
    rfl
  · obtain ⟨map, isMap, rfl⟩ : ∃ map, decodeHeaders headers = .ok map ∧ some map = decoded := by
      cases result : decodeHeaders headers with
      | error e =>
        rw [result] at ok
        cases ok
      | ok map =>
        rw [result] at ok
        cases ok
        exact ⟨map, rfl, rfl⟩
    rw [headersSection, decodeHeaders_ok isMap, encodeHeaders_length]

theorem parse_raw {text : Str} {subject : Subject} (parsed : Subject.parse text = .ok subject) :
    subject.raw = trim text := by
  unfold Subject.parse at parsed
  dsimp only at parsed
  split_ifs at parsed
  cases parsed
  rfl

theorem relayedSubject_of_parse {bytes : Bytes} {text : Str} {subject : Subject}
    (decoded : fromUtf8 bytes = some text) (parsed : Subject.parse text = .ok subject) :
    (encode subject.raw).length = relayedSubject bytes := by
  rw [relayedSubject, decoded]
  dsimp only
  rw [parsed]
  dsimp only
  rw [encode_length, parse_raw parsed]

def original (frame : Bytes) : ℕ :=
  (headersIn frame).length + (subjectIn (payloadIn frame)).length +
    (replyIn (payloadIn frame)).length

def relayed (frame : Bytes) : ℕ :=
  relayedHeaders (headersIn frame) + relayedSubject (subjectIn (payloadIn frame)) +
    relayedSubject (replyIn (payloadIn frame))

theorem relayedSubject_reply (bytes : Bytes) :
    (replyBytes (replyOf (if 0 < bytes.length then some bytes else none))).length =
      relayedSubject bytes := by
  by_cases some : 0 < bytes.length
  · rw [if_pos some, replyOf, Option.bind_some]
    cases decoded : fromUtf8 bytes with
    | none =>
      rw [relayedSubject, decoded]
      rfl
    | some text =>
      cases parsed : Subject.parse text with
      | error e =>
        rw [relayedSubject, decoded]
        dsimp only
        rw [parsed, Option.bind_some, parsed]
        rfl
      | ok subject =>
        rw [← relayedSubject_of_parse decoded parsed, Option.bind_some, parsed]
        rfl
  · rw [if_neg some, List.eq_nil_of_length_eq_zero (Nat.eq_zero_of_not_pos some)]
    rfl

theorem msgFrame_size (order : HeaderOrder) (msg : DeliveryMessage) :
    (msgFrame order msg).encode.length =
      frameHeaderSize + (headersSection order msg.headers).length +
        (2 + (encode msg.subject.raw).length + 2 + (replyBytes msg.replyTo).length +
          (8 + msg.payload.length)) := by
  rw [frame_encode_length]
  simp only [msgFrame, msgPayload_eq, addressed_length, List.length_append, toBe_length]

theorem msgFrame_length {maxFrameSize : ℕ} {frame : Bytes} {item : PublishItem}
    (accepted : itemIn maxFrameSize frame = some item) (order : HeaderOrder) (id : SubscriptionId)
    (conn : ConnectionId) :
    (msgFrame order (item.deliveryTo id conn)).encode.length + original frame =
      frame.length + 8 + relayed frame := by
  obtain ⟨command, isCommand, isItem⟩ := Option.bind_eq_some_iff.mp accepted
  obtain ⟨headers, divided, length⟩ := accepted_parts isCommand
  obtain ⟨text, subject, decoded, parsed, rfl⟩ := itemOf_some isItem
  have subjectSize := relayedSubject_of_parse decoded parsed
  have replySize := relayedSubject_reply (replyIn (payloadIn frame))
  have headersSize := headersSection_length headers order
  rw [divided.subject] at subjectSize
  rw [← divided.reply] at replySize
  have size := divided.length
  rw [msgFrame_size, length, original, relayed]
  dsimp only [PublishItem.deliveryTo]
  omega

theorem fastCommand_addressed {subject reply data : Bytes} (subjectShort : subject.length ≤ 65535)
    (replyShort : reply.length ≤ 65535) :
    fastCommand [] (addressed subject reply data) =
      .ok ⟨subject, data, if 0 < reply.length then some reply else none, none⟩ := by
  obtain ⟨subjLen, isSubject⟩ := @addressed_subject subject reply data subjectShort
  obtain ⟨replyLen, isReply⟩ := @addressed_reply subject reply data replyShort
  have length := addressed_length subject reply data
  have isData := addressed_drop subject reply data 0
  rw [Nat.add_zero, List.drop_zero] at isData
  unfold fastCommand parsePublishPayload
  dsimp only
  rw [subjLen, replyLen, if_neg (by omega), if_neg (by omega), if_neg (by omega),
    if_neg (by omega)]
  dsimp only
  rw [isSubject, slice_to_end, isData]
  by_cases some : 0 < reply.length
  · rw [if_pos some, if_pos some, Option.map_some, isReply]
    rfl
  · rw [if_neg some, if_neg some]
    rfl

def pubBytes (correlationId : ℕ) (subject reply data : Bytes) : Bytes :=
  ((Frame.new .pub correlationId).withPayload (addressed subject reply data)).encode

theorem commandIn_pubBytes {maxFrameSize correlationId : ℕ} {subject reply data : Bytes}
    (id : correlationId < 2 ^ 64) (limit : maxFrameSize < 2 ^ 32)
    (subjectShort : subject.length ≤ 65535) (replyShort : reply.length ≤ 65535)
    (fits : frameHeaderSize + (addressed subject reply data).length ≤ maxFrameSize) :
    commandIn maxFrameSize (pubBytes correlationId subject reply data) =
      some ⟨subject, data, if 0 < reply.length then some reply else none, none⟩ := by
  have wellFormed : WellFormed maxFrameSize ((Frame.new .pub correlationId).withPayload
      (addressed subject reply data)) := wellFormed_raw .pub id (by omega) fits
  have header := headerIn_frame wellFormed []
  have announced := announced_frame wellFormed []
  obtain ⟨headers, payload⟩ := sections_frame wellFormed []
  rw [List.append_nil, ← pubBytes] at header announced headers payload
  have length := frame_encode_length ((Frame.new .pub correlationId).withPayload
    (addressed subject reply data))
  rw [← pubBytes] at length
  have whole : Whole maxFrameSize (pubBytes correlationId subject reply data) :=
    { peeked :=
        { long := by omega
          fits := by
            rw [announced, length]
            exact fits
          whole := announced.le
          magic := by
            rw [← headerIn_magic, header]
            rfl
          version := by
            rw [← headerIn_version, header]
            rfl
          isPub := by
            rw [← headerIn_frameType, header]
            rfl }
      exactly := announced }
  rw [commandIn_whole whole, headers, payload]
  change (fastCommand [] (addressed subject reply data)).toOption = _
  rw [fastCommand_addressed subjectShort replyShort]
  rfl

theorem decodeFrom_oversize {order : HeaderOrder} {msg : DeliveryMessage} {maxFrameSize : ℕ}
    (id : msg.subscriptionId < 2 ^ 64) (short : (msgFrame order msg).encode.length < 2 ^ 32)
    (large : maxFrameSize < (msgFrame order msg).encode.length) (rest : Bytes) :
    Frame.decodeFrom ((msgFrame order msg).encode ++ rest) maxFrameSize =
      (.error (.frameTooLarge (msgFrame order msg).encode.length maxFrameSize),
        (msgFrame order msg).encode ++ rest) := by
  have announced := announced_frame (wellFormed_msg id short le_rfl) rest
  have length := frame_encode_length (msgFrame order msg)
  have long : ¬((msgFrame order msg).encode ++ rest).length < frameHeaderSize := by
    rw [List.length_append]
    omega
  rw [Frame.decodeFrom, if_neg long]
  dsimp only
  rw [announced, if_pos large]

/-- A delivery stays within the limit of the client exactly if the eight bytes of the
subscription id, and what headers, subject and reply gain, fit beside the publish. -/
theorem delivery_fits_iff (order : HeaderOrder) (frame : Bytes) (item : PublishItem)
    (accepted : itemIn clientMaxFrameSize frame = some item) (id : SubscriptionId)
    (idFits : id < 2 ^ 64) (conn : ConnectionId) :
    let delivery := encodeMsgInto order (item.deliveryTo id conn) []
    (delivery.length ≤ clientMaxFrameSize ∧
        ∀ rest e left, Frame.decodeFrom (delivery ++ rest) clientMaxFrameSize ≠ (.error e, left)) ↔
      frame.length + 8 + relayed frame ≤ clientMaxFrameSize + original frame := by
  intro delivery
  have size := msgFrame_length accepted order id conn
  have encoded : delivery = (msgFrame order (item.deliveryTo id conn)).encode := by
    rw [show delivery = encodeMsgInto order (item.deliveryTo id conn) [] from rfl,
      encodeMsgInto_eq, List.nil_append]
  rw [encoded]
  constructor
  · rintro ⟨short, -⟩
    omega
  · intro fits
    have short : (msgFrame order (item.deliveryTo id conn)).encode.length ≤
        clientMaxFrameSize := by omega
    refine ⟨short, fun rest e left failed => ?_⟩
    rw [decodeFrom_encode (wellFormed_msg idFits (by decide) short)] at failed
    cases failed

private def bareSubject : Subject := parsed (Subject.parse ['a']) (by decide)

private theorem itemIn_bareSubject {data : Bytes} (short : data.length ≤ 2097125) :
    itemIn clientMaxFrameSize (pubBytes 0 (encode ['a']) [] data) =
      some ⟨bareSubject, data, none, none⟩ := by
  have fits : frameHeaderSize + (addressed (encode ['a']) [] data).length ≤ clientMaxFrameSize := by
    rw [addressed_length]
    change 22 + (2 + 1 + 2 + 0 + data.length) ≤ 2097152
    omega
  rw [itemIn, commandIn_pubBytes (by decide) (by decide) (by decide) (by decide) fits]
  rfl

theorem small_publish_fits_on_delivery :
    let delivery := encodeMsgInto (.stored _ _)
      (PublishItem.deliveryTo ⟨bareSubject, [1, 2], none, none⟩ 7 1) []
    delivery.length ≤ clientMaxFrameSize ∧
      ∀ rest e left, Frame.decodeFrom (delivery ++ rest) clientMaxFrameSize ≠ (.error e, left) :=
  (delivery_fits_iff (.stored _ _) (pubBytes 0 (encode ['a']) [] [1, 2])
    ⟨bareSubject, [1, 2], none, none⟩ (itemIn_bareSubject (by decide)) 7 (by decide) 1).mpr
    (by decide)

/-- A publish of the largest size the server accepts. The client refuses the delivery
and keeps it in its buffer, so it reads nothing more. -/
theorem full_publish_blocks_the_subscriber :
    let data := List.replicate 2097125 (0 : UInt8)
    let frame := pubBytes 0 (encode ['a']) [] data
    let item : PublishItem := ⟨bareSubject, data, none, none⟩
    let delivery := encodeMsgInto (.stored _ _) (item.deliveryTo 7 1) []
    frame.length = clientMaxFrameSize ∧ itemIn clientMaxFrameSize frame = some item ∧
      delivery.length = clientMaxFrameSize + 8 ∧
      Frame.decodeFrom delivery clientMaxFrameSize =
        (.error (.frameTooLarge 2097160 2097152), delivery) := by
  intro data frame item delivery
  have accepted : itemIn clientMaxFrameSize frame = some item :=
    itemIn_bareSubject (List.length_replicate ..).le
  have frameSize : frame.length = clientMaxFrameSize := by
    rw [show frame = Frame.encode _ from rfl, frame_encode_length]
    change 22 + 0 + (addressed (encode ['a']) [] data).length = 2097152
    rw [addressed_length, List.length_replicate]
    rfl
  have size : (msgFrame (.stored _ _) (item.deliveryTo 7 1)).encode.length = 2097160 := by
    rw [msgFrame_size]
    change 22 + 0 + (2 + 1 + 2 + 0 + (8 + data.length)) = 2097160
    rw [List.length_replicate]
  have encoded : delivery = (msgFrame (.stored _ _) (item.deliveryTo 7 1)).encode ++ [] := by
    rw [show delivery = encodeMsgInto (.stored _ _) (item.deliveryTo 7 1) [] from rfl,
      encodeMsgInto_eq, List.nil_append, List.append_nil]
  refine ⟨frameSize, accepted, ?_, ?_⟩
  · rw [encoded, List.append_nil, size]
    rfl
  · rw [encoded, decodeFrom_oversize (show 7 < 2 ^ 64 by decide) (size ▸ by decide)
      (size ▸ by decide), size]
    rfl

end ZetMQ.RelaySizes
