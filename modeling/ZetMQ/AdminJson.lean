import ZetMQ.Delivery
import ZetMQ.JsonTexts
import ZetMQ.Streams

/-! What the admin server writes. It puts its JSON together by hand, piece by piece and
with a comma in front of every stream but the first; names that clients chose are escaped.
Each of the texts is an object or an array written without spaces. -/
namespace ZetMQ.AdminJson
open Utf8Text Delivery Streams JsonStrings JsonTexts

structure MetricsSnapshot where
  activeConnections : ℕ
  totalConnections : ℕ
  activeSubscriptions : ℕ
  messagesPublished : ℕ
  messagesDelivered : ℕ
  messagesDropped : ℕ
  protocolErrors : ℕ
deriving DecidableEq

def snapshot (metrics : CoreMetrics) : MetricsSnapshot where
  activeConnections := readCounter metrics.activeConnections
  totalConnections := metrics.totalConnections
  activeSubscriptions := readCounter metrics.activeSubscriptions
  messagesPublished := metrics.messagesPublished
  messagesDelivered := metrics.messagesDelivered
  messagesDropped := metrics.messagesDropped
  protocolErrors := metrics.protocolErrors

def isControl (c : Char) : Bool := c.toNat < 0x20 || (0x7f ≤ c.toNat && c.toNat ≤ 0x9f)

def lowerHex4 (n : ℕ) : Str := (Nat.toDigits 16 n).leftpad 4 '0'

def escapeChar : Char → Str
  | '"' => ['\\', '"']
  | '\\' => ['\\', '\\']
  | '\n' => ['\\', 'n']
  | '\r' => ['\\', 'r']
  | '\t' => ['\\', 't']
  | c => if isControl c then '\\' :: 'u' :: lowerHex4 c.toNat else [c]

def escapeJsonString (input : Str) : Str := input.flatMap escapeChar

/-- A key of an object, with what stands between it and its value. -/
def key (name : String) : Str := '"' :: name.toList ++ ['"', ':']

def metricsJson (snapshot : MetricsSnapshot) : Str :=
  ['{'] ++
  key "active_connections" ++ decimal snapshot.activeConnections ++ [','] ++
  key "total_connections" ++ decimal snapshot.totalConnections ++ [','] ++
  key "active_subscriptions" ++ decimal snapshot.activeSubscriptions ++ [','] ++
  key "messages_published" ++ decimal snapshot.messagesPublished ++ [','] ++
  key "messages_delivered" ++ decimal snapshot.messagesDelivered ++ [','] ++
  key "messages_dropped" ++ decimal snapshot.messagesDropped ++ [','] ++
  key "protocol_errors" ++ decimal snapshot.protocolErrors ++
  ['}']

def streamJson (stream : StreamInfo) : Str :=
  ['{'] ++
  key "name" ++ ['"'] ++ escapeJsonString stream.name ++ ['"', ','] ++
  key "config" ++ ['{'] ++
  key "max_msgs" ++ decimal stream.config.maxMsgs ++ [','] ++
  key "max_bytes" ++ decimal stream.config.maxBytes ++ [','] ++
  key "max_age_secs" ++ decimal stream.config.maxAgeSecs ++
  ['}', ','] ++
  key "state" ++ ['{'] ++
  key "messages" ++ decimal stream.state.messages ++ [','] ++
  key "bytes" ++ decimal stream.state.bytes ++ [','] ++
  key "first_seq" ++ decimal stream.state.firstSeq ++ [','] ++
  key "last_seq" ++ decimal stream.state.lastSeq ++
  ['}'] ++
  ['}']

/-- One turn of the loop over the streams, with the index of the stream. -/
def pushStream (json : Str) (entry : StreamInfo × ℕ) : Str :=
  (if 0 < entry.2 then json ++ [','] else json) ++ streamJson entry.1

def streamsJson (streams : List StreamInfo) : Str :=
  streams.zipIdx.foldl pushStream ['['] ++ [']']

def statsJson (metrics : MetricsSnapshot) (streams : List StreamInfo) : Str :=
  ['{'] ++ key "metrics" ++ metricsJson metrics ++ [','] ++ key "streams" ++
    streamsJson streams ++ ['}']

def jsonResponse (status body : Str) : Str :=
  "HTTP/1.1 ".toList ++ status ++
    "\r\nContent-Type: application/json\r\nContent-Length: ".toList ++ decimal (utf8Len body) ++
    "\r\nConnection: close\r\n\r\n".toList ++ body

def splitWhitespace (text : Str) : List Str := (text.splitOnP isWhitespace).filter (· ≠ [])

def routeRequest (requestLine : Str) (metrics : CoreMetrics) (streams : List StreamInfo) : Str :=
  let parts := splitWhitespace requestLine
  let method := (parts[0]?).getD []
  let path := (parts[1]?).getD []
  if method ≠ "GET".toList then
    jsonResponse "405 Method Not Allowed".toList
      "\x7b\"error\":\"method not allowed\"\x7d".toList
  else if path = "/metrics".toList then
    jsonResponse "200 OK".toList (metricsJson (snapshot metrics))
  else if path = "/streams".toList then jsonResponse "200 OK".toList (streamsJson streams)
  else if path = "/healthz".toList then
    jsonResponse "200 OK".toList "\x7b\"status\":\"ok\"\x7d".toList
  else if path = "/stats".toList then
    jsonResponse "200 OK".toList (statsJson (snapshot metrics) streams)
  else jsonResponse "404 Not Found".toList "\x7b\"error\":\"not found\"\x7d".toList

theorem memberText_eq (name : String) (text : Str) :
    memberText name.toList text = key name ++ text := by
  simp [memberText, key]

theorem metricsJson_eq (metrics : MetricsSnapshot) : metricsJson metrics = objectText
    [("active_connections".toList, decimal metrics.activeConnections),
      ("total_connections".toList, decimal metrics.totalConnections),
      ("active_subscriptions".toList, decimal metrics.activeSubscriptions),
      ("messages_published".toList, decimal metrics.messagesPublished),
      ("messages_delivered".toList, decimal metrics.messagesDelivered),
      ("messages_dropped".toList, decimal metrics.messagesDropped),
      ("protocol_errors".toList, decimal metrics.protocolErrors)] := by
  unfold metricsJson objectText
  simp only [List.map_cons, List.map_nil, memberText_eq, List.intercalate_cons_cons,
    List.intercalate_singleton, List.append_assoc, List.cons_append, List.nil_append]

def configText (config : StreamConfig) : Str := objectText
  [("max_msgs".toList, decimal config.maxMsgs), ("max_bytes".toList, decimal config.maxBytes),
    ("max_age_secs".toList, decimal config.maxAgeSecs)]

def stateText (state : StreamState) : Str := objectText
  [("messages".toList, decimal state.messages), ("bytes".toList, decimal state.bytes),
    ("first_seq".toList, decimal state.firstSeq), ("last_seq".toList, decimal state.lastSeq)]

theorem streamJson_eq (stream : StreamInfo) : streamJson stream = objectText
    [("name".toList, '"' :: escapeJsonString stream.name ++ ['"']),
      ("config".toList, configText stream.config), ("state".toList, stateText stream.state)] := by
  unfold streamJson configText stateText objectText
  simp only [List.map_cons, List.map_nil, memberText_eq, List.intercalate_cons_cons,
    List.intercalate_singleton, List.append_assoc, List.cons_append, List.nil_append]

theorem foldl_pushStream (streams : List StreamInfo) (stream : StreamInfo) (json : Str)
    (index : ℕ) :
    (streams.zipIdx (index + 1)).foldl pushStream (json ++ streamJson stream) =
      json ++ [','].intercalate ((stream :: streams).map streamJson) := by
  induction streams generalizing stream json index with
  | nil =>
    rw [List.zipIdx_nil, List.foldl_nil, List.map_singleton, List.intercalate_singleton]
  | cons next streams ih =>
    rw [List.zipIdx_cons, List.foldl_cons, pushStream, if_pos (Nat.succ_pos index), ih,
      List.map_cons, List.map_cons, List.map_cons, List.intercalate_cons_cons]
    simp only [List.append_assoc]

theorem streamsJson_eq (streams : List StreamInfo) :
    streamsJson streams = arrayText (streams.map streamJson) := by
  cases streams with
  | nil => rfl
  | cons stream streams =>
    have first : pushStream ['['] (stream, 0) = ['['] ++ streamJson stream := rfl
    rw [streamsJson, List.zipIdx_cons, List.foldl_cons, first, foldl_pushStream, arrayText,
      List.singleton_append]

theorem statsJson_eq (metrics : MetricsSnapshot) (streams : List StreamInfo) :
    statsJson metrics streams = objectText
      [("metrics".toList, metricsJson metrics), ("streams".toList, streamsJson streams)] := by
  unfold statsJson objectText
  simp only [List.map_cons, List.map_nil, memberText_eq, List.intercalate_cons_cons,
    List.intercalate_singleton, List.append_assoc, List.cons_append, List.nil_append]

theorem hexDigit_digitChar : ∀ d < 16, hexDigit (Nat.digitChar d) = some d := by decide

theorem lowerHex4_eq {n : ℕ} (small : n < 256) :
    lowerHex4 n = ['0', '0', Nat.digitChar (n / 16), Nat.digitChar (n % 16)] := by
  rcases Nat.lt_or_ge n 16 with one | two
  · rw [lowerHex4, Nat.toDigits_of_lt_base one, Nat.div_eq_of_lt one, Nat.mod_eq_of_lt one]
    rfl
  · rw [lowerHex4, Nat.toDigits_of_base_le (by decide) two,
      Nat.toDigits_of_lt_base (by omega : n / 16 < 16)]
    rfl

theorem items_lowerHex4 {n : ℕ} (small : n < 256) {text : Str} {items : List Item}
    (inside : Items text items) :
    Items ('\\' :: 'u' :: lowerHex4 n ++ text) (.unit n :: items) := by
  have unit : hexUnit '0' '0' (Nat.digitChar (n / 16)) (Nat.digitChar (n % 16)) = some n := by
    have zero : hexDigit '0' = some 0 := rfl
    rw [hexUnit, zero, hexDigit_digitChar _ (by omega), hexDigit_digitChar _ (by omega)]
    simp only [Option.bind_eq_bind, Option.bind_some, Option.some.injEq]
    omega
  rw [lowerHex4_eq small]
  exact .unit unit inside

theorem spell_unit {c : Char} (small : c.toNat < 0xD800) (items : List Item) :
    spell (.unit c.toNat :: items) = (spell items).map (c :: ·) := by
  have high : isHighSurrogate c.toNat = false := by simp [isHighSurrogate, small]
  have low : isLowSurrogate c.toNat = false := by
    simp only [isLowSurrogate, Bool.and_eq_false_iff, decide_eq_false_iff_not]
    omega
  conv_lhs => unfold spell
  simp only [high, low, Bool.false_eq_true, if_false, Char.ofNat_toNat]

theorem escapeChar_item (c : Char) : ∃ item : Item,
    (∀ {text : Str} {items : List Item}, Items text items →
      Items (escapeChar c ++ text) (item :: items)) ∧
    ∀ items, spell (item :: items) = (spell items).map (c :: ·) := by
  unfold escapeChar
  split
  · exact ⟨.char '"', .escape rfl, fun _ => rfl⟩
  · exact ⟨.char '\\', .escape rfl, fun _ => rfl⟩
  · exact ⟨.char '\n', .escape rfl, fun _ => rfl⟩
  · exact ⟨.char '\r', .escape rfl, fun _ => rfl⟩
  · exact ⟨.char '\t', .escape rfl, fun _ => rfl⟩
  · rename_i quote backslash _ _ _
    split_ifs with control
    · simp only [isControl, Bool.or_eq_true, Bool.and_eq_true, decide_eq_true_eq] at control
      exact ⟨.unit c.toNat, items_lowerHex4 (by omega), spell_unit (by omega)⟩
    · have plain : isPlain c = true := by
        simp only [isControl, Bool.or_eq_true, decide_eq_true_eq, not_or] at control
        simp only [isPlain, Bool.and_eq_true, decide_eq_true_eq]
        exact ⟨⟨by omega, quote⟩, backslash⟩
      exact ⟨.char c, .plain plain, fun _ => rfl⟩

theorem escapeJsonString_items (s : Str) :
    ∃ items, Items (escapeJsonString s) items ∧ spell items = some s := by
  induction s with
  | nil => exact ⟨[], .nil, rfl⟩
  | cons c s ih =>
    obtain ⟨items, inside, spelt⟩ := ih
    obtain ⟨item, written, spells⟩ := escapeChar_item c
    exact ⟨item :: items, written inside, by rw [spells, spelt, Option.map_some]⟩

theorem quoted_escape (s : Str) : Quoted ('"' :: escapeJsonString s ++ ['"']) s := by
  obtain ⟨items, inside, spelt⟩ := escapeJsonString_items s
  exact .mk inside spelt

/-- What stands between the quotation marks, read back. -/
def unescape (text : Str) : Option Str :=
  match readItems (text ++ ['"']) with
  | some (items, []) => spell items
  | _ => none

theorem unescape_escape (s : Str) : unescape (escapeJsonString s) = some s := by
  obtain ⟨items, inside, spelt⟩ := escapeJsonString_items s
  rw [unescape, readItems_complete inside]
  exact spelt

end ZetMQ.AdminJson
