import ZetMQ.HeaderCodec

/-! The payloads of commands: what is encoded is decoded again, whatever comes behind
it, and no payload that was cut short is accepted. -/
namespace ZetMQ.CommandCodec
open Utf8Text Utf8Codec ByteBuffer Frames Commands HeaderCodec

variable {extra : ℕ} {part : Bytes} (name : Str)

theorem encodeName_length : (encodeName name).length = 1 + utf8Len name := by
  rw [encodeName, List.length_cons, encode_length, Nat.add_comm]

theorem byteAt_encodeName (tail : Bytes) :
    (byteAt (encodeName name ++ tail) 0).toNat = utf8Len name % 256 := by
  rw [← encode_length]
  exact UInt8.toNat_ofNat'

theorem decodeNamed_encodeName {tail : Bytes} (enough : extra ≤ tail.length) :
    decodeNamed (encodeName name ++ tail) extra =
      .ok (fromUtf8Lossy ((encode name).take (utf8Len name % 256)),
        (encode name ++ tail).drop (utf8Len name % 256)) := by
  have cut : utf8Len name % 256 ≤ (encode name).length := by
    rw [encode_length]
    exact Nat.mod_le ..
  have long : ¬(encodeName name ++ tail).length < 1 + utf8Len name % 256 + extra := by
    rw [List.length_append, encodeName_length]
    have := Nat.mod_le (utf8Len name) 256
    omega
  have text : slice (encodeName name ++ tail) 1 (1 + utf8Len name % 256) =
      (encode name).take (utf8Len name % 256) := by
    rw [encodeName, List.cons_append, slice, Nat.add_comm, List.take_succ_cons, List.drop_one,
      List.tail_cons, List.take_append_of_le_length cut]
  have rest : (encodeName name ++ tail).drop (1 + utf8Len name % 256) =
      (encode name ++ tail).drop (utf8Len name % 256) := by
    rw [encodeName, List.cons_append, Nat.add_comm, List.drop_succ_cons]
  rw [decodeNamed, if_neg (by simp [encodeName])]
  simp only [byteAt_encodeName, text, rest]
  rw [if_neg long]

theorem decodeNamed_encode {name : Str} (short : utf8Len name ≤ 255) {tail : Bytes}
    (enough : extra ≤ tail.length) :
    decodeNamed (encodeName name ++ tail) extra = .ok (name, tail) := by
  rw [decodeNamed_encodeName name enough, Nat.mod_eq_of_lt (by omega), ← encode_length,
    List.take_length, List.drop_left, fromUtf8Lossy_encode]

theorem decodeNamed_part {name : Str} (short : utf8Len name ≤ 255) {fixed : Bytes}
    (start : part <+: encodeName name ++ fixed) (nonempty : part ≠ [])
    (proper : part.length < (encodeName name ++ fixed).length) :
    decodeNamed part fixed.length = .error "payload too short".toList := by
  obtain ⟨rest, whole⟩ := start
  have first : (byteAt part 0).toNat = utf8Len name := by
    have there := byteAt_encodeName name fixed
    rwa [← whole, byteAt_append (List.length_pos_of_ne_nil nonempty),
      Nat.mod_eq_of_lt (by omega)] at there
  rw [List.length_append, encodeName_length] at proper
  rw [decodeNamed, if_neg (by simpa using nonempty), first]
  exact if_pos proper

theorem selfDelimiting_named {α : Type} {valid : α → Prop} {encode : α → Bytes}
    {decode : Bytes → Except Str α} (name : α → Str) (fixed : α → Bytes) (finish : Str × Bytes → α)
    (short : ∀ a, valid a → utf8Len (name a) ≤ 255) (width : ∀ a, (fixed a).length = extra)
    (encoded : ∀ a, encode a = encodeName (name a) ++ fixed a)
    (decoded : ∀ payload, decode payload = (decodeNamed payload extra).map finish)
    (back : ∀ a, valid a → ∀ rest, finish (name a, fixed a ++ rest) = a) :
    SelfDelimiting valid encode decode where
  inverts a fits rest := by
    have enough : extra ≤ (fixed a ++ rest).length := by
      rw [List.length_append, width]
      exact Nat.le_add_right ..
    rw [encoded, List.append_assoc, decoded, decodeNamed_encode (short a fits) enough,
      Except.map, back a fits]
  refuses a fits part start nonempty proper := by
    rw [encoded] at start proper
    have refused := decodeNamed_part (short a fits) start nonempty proper
    rw [width] at refused
    rw [decoded, refused]
    exact ⟨_, rfl⟩

def CreateFits (cmd : CreateStreamCommand) : Prop :=
  utf8Len cmd.name ≤ 255 ∧ cmd.maxMsgs < 2 ^ 64 ∧ cmd.maxBytes < 2 ^ 64 ∧ cmd.maxAgeSecs < 2 ^ 64

def DeleteFits (cmd : DeleteStreamCommand) : Prop := utf8Len cmd.name ≤ 255

def AckFits (cmd : AckCommand) : Prop := utf8Len cmd.stream ≤ 255 ∧ cmd.sequence < 2 ^ 64

def NackFits (cmd : NackCommand) : Prop := utf8Len cmd.stream ≤ 255 ∧ cmd.sequence < 2 ^ 64

def infoValues (info : StreamInfoResponse) : List ℕ :=
  [info.messages, info.bytes, info.firstSeq, info.lastSeq, info.maxMsgs, info.maxBytes,
    info.maxAgeSecs]

def InfoFits (info : StreamInfoResponse) : Prop :=
  utf8Len info.name ≤ 255 ∧ ∀ value ∈ infoValues info, value < 2 ^ 64

theorem createStream_codec :
    SelfDelimiting CreateFits CreateStreamCommand.encodePayload CreateStreamCommand.decode := by
  refine selfDelimiting_named (·.name)
    (fun cmd => words [cmd.maxMsgs, cmd.maxBytes, cmd.maxAgeSecs]) _ (fun _ fits => fits.1)
    (fun _ => words_length _) ?_ (fun _ => rfl) ?_
  · intro cmd
    simp [CreateStreamCommand.encodePayload, words]
  · rintro ⟨name, maxMsgs, maxBytes, maxAgeSecs⟩ ⟨-, msgs, bytes, age⟩ rest
    have first := @beAt_words [maxMsgs, maxBytes, maxAgeSecs] 0 _ rfl msgs rest
    have second := @beAt_words [maxMsgs, maxBytes, maxAgeSecs] 1 _ rfl bytes rest
    have third := @beAt_words [maxMsgs, maxBytes, maxAgeSecs] 2 _ rfl age rest
    rw [CreateStreamCommand.mk.injEq]
    exact ⟨rfl, first, second, third⟩

theorem deleteStream_codec :
    SelfDelimiting DeleteFits DeleteStreamCommand.encodePayload DeleteStreamCommand.decode := by
  refine selfDelimiting_named (·.name) (fun _ => []) _ (fun _ fits => fits) (fun _ => rfl) ?_
    (fun _ => rfl) fun _ _ _ => rfl
  intro cmd
  rw [DeleteStreamCommand.encodePayload, List.append_nil]

theorem ack_codec : SelfDelimiting AckFits AckCommand.encodePayload AckCommand.decode := by
  refine selfDelimiting_named (·.stream) (fun cmd => words [cmd.sequence]) _ (fun _ fits => fits.1)
    (fun _ => words_length _) ?_ (fun _ => rfl) ?_
  · intro cmd
    simp [AckCommand.encodePayload, words]
  · rintro ⟨stream, sequence⟩ ⟨-, small⟩ rest
    rw [AckCommand.mk.injEq]
    exact ⟨rfl, @beAt_words [sequence] 0 _ rfl small rest⟩

theorem nack_codec : SelfDelimiting NackFits NackCommand.encodePayload NackCommand.decode := by
  refine selfDelimiting_named (·.stream) (fun cmd => words [cmd.sequence]) _ (fun _ fits => fits.1)
    (fun _ => words_length _) ?_ (fun _ => rfl) ?_
  · intro cmd
    simp [NackCommand.encodePayload, words]
  · rintro ⟨stream, sequence⟩ ⟨-, small⟩ rest
    rw [NackCommand.mk.injEq]
    exact ⟨rfl, @beAt_words [sequence] 0 _ rfl small rest⟩

theorem info_encodePayload (info : StreamInfoResponse) :
    info.encodePayload = encodeName info.name ++ words (infoValues info) := by
  simp [StreamInfoResponse.encodePayload, words, infoValues]

theorem streamInfo_codec :
    SelfDelimiting InfoFits StreamInfoResponse.encodePayload StreamInfoResponse.decode := by
  refine selfDelimiting_named (·.name) (fun info => words (infoValues info)) _
    (fun _ fits => fits.1) (fun _ => words_length _) info_encodePayload (fun _ => rfl) ?_
  intro info fits rest
  have read : ∀ i value, (infoValues info)[i]? = some value →
      beAt (words (infoValues info) ++ rest) (8 * i) 8 = value := by
    intro i value found
    exact beAt_words found (fits.2 value (List.mem_of_getElem? found)) rest
  rw [StreamInfoResponse.mk.injEq]
  exact ⟨rfl, read 0 _ rfl, read 1 _ rfl, read 2 _ rfl, read 3 _ rfl, read 4 _ rfl, read 5 _ rfl,
    read 6 _ rfl⟩

def AuthFits : AuthInfo → Prop
  | .none => True
  | .token text => utf8Len text ≤ 65535
  | .userPass username password => utf8Len username ≤ 65535 ∧ utf8Len password ≤ 65535

theorem slice_text (text : Str) (rest : Bytes) :
    slice (encodeText text ++ rest) 2 (2 + utf8Len text) = encode text :=
  @slice_written _ (toBe 2 (encode text).length) (encode text) rest 2 _ rfl
    (toBe_length ..) (by rw [encode_length])

theorem beAt_part {text : Str} (fits : utf8Len text ≤ 65535) {tail part : Bytes}
    (start : part <+: encodeText text ++ tail) (long : 2 ≤ part.length) :
    beAt part 0 2 = utf8Len text := by
  obtain ⟨rest, whole⟩ := start
  have there := (text_read fits tail).1
  rwa [← whole, beAt_append (by omega)] at there

theorem decode_token {text : Str} (fits : utf8Len text ≤ 65535) (rest : Bytes) :
    AuthInfo.decode 1 (encodeText text ++ rest) = .ok (.token text) := by
  have length : (encodeText text ++ rest).length = 2 + utf8Len text + rest.length := by
    rw [List.length_append, encodeText_length]
  rw [AuthInfo.decode, if_neg (by decide), if_pos rfl, if_neg (by omega)]
  simp only [(text_read fits rest).1]
  rw [if_neg (by omega), slice_text, fromUtf8Lossy_encode]

theorem decode_token_part {text : Str} (fits : utf8Len text ≤ 65535)
    (start : part <+: encodeText text) (proper : part.length < (encodeText text).length) :
    ∃ e, AuthInfo.decode 1 part = .error e := by
  rw [encodeText_length] at proper
  rw [AuthInfo.decode, if_neg (by decide), if_pos rfl]
  by_cases short : part.length < 2
  · exact ⟨_, if_pos short⟩
  · have announced := @beAt_part text fits [] part (by rwa [List.append_nil]) (by omega)
    simp only [if_neg short, announced, if_pos proper]
    exact ⟨_, rfl⟩

section
variable {username password : Str}

theorem decode_userPass (user : utf8Len username ≤ 65535) (pass : utf8Len password ≤ 65535)
    (rest : Bytes) :
    AuthInfo.decode 2 (encodeText username ++ (encodeText password ++ rest)) =
      .ok (.userPass username password) := by
  have length : (encodeText username ++ (encodeText password ++ rest)).length =
      2 + utf8Len username + (2 + utf8Len password + rest.length) := by
    rw [List.length_append, List.length_append, encodeText_length, encodeText_length]
  -- the password begins where the user name ends
  have behind : (encodeText username ++ (encodeText password ++ rest)).drop
      (2 + utf8Len username) = encodeText password ++ rest :=
    List.drop_left' (encodeText_length username)
  have passLen : beAt (encodeText username ++ (encodeText password ++ rest))
      (2 + utf8Len username) 2 = utf8Len password := by
    have there := (text_read pass rest).1
    rwa [← behind, beAt_drop] at there
  have passText : slice (encodeText username ++ (encodeText password ++ rest))
      (4 + utf8Len username) (4 + utf8Len username + utf8Len password) = encode password := by
    have there := slice_text password rest
    rw [← behind, slice_drop] at there
    convert there using 2 <;> omega
  rw [AuthInfo.decode, if_neg (by decide), if_neg (by decide), if_pos rfl, if_neg (by omega)]
  simp only [(text_read user _).1, passLen, passText, slice_text, fromUtf8Lossy_encode]
  rw [if_neg (by omega), if_neg (by omega)]

theorem decode_userPass_part (user : utf8Len username ≤ 65535) (pass : utf8Len password ≤ 65535)
    (start : part <+: encodeText username ++ encodeText password)
    (proper : part.length < (encodeText username ++ encodeText password).length) :
    ∃ e, AuthInfo.decode 2 part = .error e := by
  rw [List.length_append, encodeText_length, encodeText_length] at proper
  rw [AuthInfo.decode, if_neg (by decide), if_neg (by decide), if_pos rfl]
  by_cases short : part.length < 2
  · exact ⟨_, if_pos short⟩
  · simp only [if_neg short, beAt_part user start (Nat.le_of_not_lt short)]
    by_cases cut : part.length < 2 + utf8Len username + 2
    · exact ⟨_, if_pos cut⟩
    · have behind : part.drop (2 + utf8Len username) <+: encodeText password := by
        obtain ⟨rest, whole⟩ := start
        refine ⟨rest, ?_⟩
        rw [← List.drop_append_of_le_length (by omega), whole,
          List.drop_left' (encodeText_length username)]
      have passLen : beAt part (2 + utf8Len username) 2 = utf8Len password := by
        have there := @beAt_part password pass [] (part.drop (2 + utf8Len username))
          (by rwa [List.append_nil]) (by rw [List.length_drop]; omega)
        rwa [beAt_drop] at there
      rw [if_neg cut, passLen, if_pos (by omega)]
      exact ⟨_, rfl⟩

end

/-- The payload of a `CONNECT` with the given credentials. -/
def authPayload (auth : AuthInfo) : Option Bytes :=
  { ConnectCommand.new currentVersion with auth := auth }.encodePayload

def connectFrame (correlationId : ℕ) : Option Bytes → Frame
  | none => Frame.new .connect correlationId
  | some payload => (Frame.new .connect correlationId).withPayload payload

/-- The command of a `CONNECT` frame: the version is the one of its header. -/
def connectResult (auth : AuthInfo) : BrokerCommand :=
  .connect { ConnectCommand.new currentVersion with auth := auth }

theorem fromFrame_connect (correlationId : ℕ) (authType : UInt8) (data : Bytes) :
    BrokerCommand.fromFrame (connectFrame correlationId (some (authType :: data))) =
      ((AuthInfo.decode authType data).mapError fun e =>
        ProtocolError.decodingError ("invalid auth: ".toList ++ e)).map connectResult := by
  have connect : BrokerCommand.fromFrame (connectFrame correlationId (some (authType :: data))) =
      (connectFromFrame (connectFrame correlationId (some (authType :: data)))).map .connect := rfl
  have payload : (connectFrame correlationId (some (authType :: data))).payload =
      authType :: data := rfl
  have first : byteAt (authType :: data) 0 = authType := rfl
  rw [connect, connectFromFrame, payload, first, List.drop_one, List.tail_cons]
  cases AuthInfo.decode authType data with
  | ok auth => rfl
  | error e => rfl

theorem authPayload_token (text : Str) : authPayload (.token text) = some (1 :: encodeText text) :=
  rfl

theorem authPayload_userPass (username password : Str) :
    authPayload (.userPass username password) =
      some (2 :: (encodeText username ++ encodeText password)) := rfl

theorem connect_inverts {auth : AuthInfo} (fits : AuthFits auth) {payload : Bytes}
    (encoded : authPayload auth = some payload) (correlationId : ℕ) (rest : Bytes) :
    BrokerCommand.fromFrame (connectFrame correlationId (some (payload ++ rest))) =
      .ok (connectResult auth) := by
  cases auth with
  | none => cases encoded
  | token text =>
    rw [authPayload_token, Option.some.injEq] at encoded
    rw [← encoded, List.cons_append, fromFrame_connect, decode_token fits rest]
    rfl
  | userPass username password =>
    rw [authPayload_userPass, Option.some.injEq] at encoded
    rw [← encoded, List.cons_append, fromFrame_connect, List.append_assoc,
      decode_userPass fits.1 fits.2 rest]
    rfl

theorem connect_refuses {auth : AuthInfo} (fits : AuthFits auth) {payload : Bytes}
    (encoded : authPayload auth = some payload) (start : part <+: payload) (nonempty : part ≠ [])
    (proper : part.length < payload.length) (correlationId : ℕ) :
    ∃ e, BrokerCommand.fromFrame (connectFrame correlationId (some part)) = .error e := by
  obtain ⟨first, data, rfl⟩ := List.exists_cons_of_ne_nil nonempty
  have refused : ∃ e, AuthInfo.decode first data = .error e := by
    cases auth with
    | none => cases encoded
    | token text =>
      rw [authPayload_token, Option.some.injEq] at encoded
      rw [← encoded] at start proper
      obtain ⟨rfl, behind⟩ := List.cons_prefix_cons.mp start
      exact decode_token_part fits behind (Nat.lt_of_succ_lt_succ proper)
    | userPass username password =>
      rw [authPayload_userPass, Option.some.injEq] at encoded
      rw [← encoded] at start proper
      obtain ⟨rfl, behind⟩ := List.cons_prefix_cons.mp start
      exact decode_userPass_part fits.1 fits.2 behind (Nat.lt_of_succ_lt_succ proper)
  obtain ⟨e, refused⟩ := refused
  rw [fromFrame_connect, refused]
  exact ⟨_, rfl⟩

/-- Every command payload is decoded to the value it was encoded from, whatever comes
behind it, and refused when it is cut short; `AuthInfo::None` is the empty payload. -/
theorem command_payloads :
    SelfDelimiting CreateFits CreateStreamCommand.encodePayload CreateStreamCommand.decode ∧
    SelfDelimiting DeleteFits DeleteStreamCommand.encodePayload DeleteStreamCommand.decode ∧
    SelfDelimiting AckFits AckCommand.encodePayload AckCommand.decode ∧
    SelfDelimiting NackFits NackCommand.encodePayload NackCommand.decode ∧
    SelfDelimiting InfoFits StreamInfoResponse.encodePayload StreamInfoResponse.decode ∧
    ∀ auth, AuthFits auth → ∀ correlationId,
      BrokerCommand.fromFrame (connectFrame correlationId (authPayload auth)) =
        .ok (connectResult auth) ∧
      ∀ payload, authPayload auth = some payload →
        (∀ rest, BrokerCommand.fromFrame (connectFrame correlationId (some (payload ++ rest))) =
          .ok (connectResult auth)) ∧
        ∀ part, part <+: payload → part ≠ [] → part.length < payload.length →
          ∃ e, BrokerCommand.fromFrame (connectFrame correlationId (some part)) = .error e := by
  refine ⟨createStream_codec, deleteStream_codec, ack_codec, nack_codec, streamInfo_codec, ?_⟩
  intro auth fits correlationId
  refine ⟨?_, fun payload encoded => ⟨connect_inverts fits encoded correlationId,
    fun part start nonempty proper =>
      connect_refuses fits encoded start nonempty proper correlationId⟩⟩
  cases encoded : authPayload auth with
  | none =>
    cases auth with
    | none => rfl
    | token text => cases encoded
    | userPass username password => cases encoded
  | some payload =>
    have whole := connect_inverts fits encoded correlationId []
    rwa [List.append_nil] at whole

theorem token_payload :
    BrokerCommand.fromFrame (connectFrame 1 (some ([1, 0, 1, 0x61] ++ [9]))) =
      .ok (.connect ⟨none, 1, .token ['a']⟩) ∧
    ∃ e, BrokerCommand.fromFrame (connectFrame 1 (some [1, 0, 1])) = .error e := by
  have token := command_payloads.2.2.2.2.2 (.token ['a']) (show 1 ≤ 65535 by decide) 1
  have encoded := token.2 [1, 0, 1, 0x61] rfl
  exact ⟨encoded.1 [9], encoded.2 [1, 0, 1] (by decide) (by decide) (by decide)⟩

end ZetMQ.CommandCodec
