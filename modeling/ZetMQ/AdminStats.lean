import ZetMQ.AdminJson
import ZetMQ.JsonCompleteness

/-! What the texts of the admin server say. Every answer is a JSON text, and the statistics
can be read back from theirs as they were. -/
namespace ZetMQ.AdminStats
open Utf8Text Delivery Streams JsonNumbers JsonStrings JsonTexts JsonCompleteness AdminJson

def metricsValue (metrics : MetricsSnapshot) : Json := .object
  [("active_connections".toList, .number metrics.activeConnections),
    ("total_connections".toList, .number metrics.totalConnections),
    ("active_subscriptions".toList, .number metrics.activeSubscriptions),
    ("messages_published".toList, .number metrics.messagesPublished),
    ("messages_delivered".toList, .number metrics.messagesDelivered),
    ("messages_dropped".toList, .number metrics.messagesDropped),
    ("protocol_errors".toList, .number metrics.protocolErrors)]

def configValue (config : StreamConfig) : Json := .object
  [("max_msgs".toList, .number config.maxMsgs), ("max_bytes".toList, .number config.maxBytes),
    ("max_age_secs".toList, .number config.maxAgeSecs)]

def stateValue (state : StreamState) : Json := .object
  [("messages".toList, .number state.messages), ("bytes".toList, .number state.bytes),
    ("first_seq".toList, .number state.firstSeq), ("last_seq".toList, .number state.lastSeq)]

def streamValue (stream : StreamInfo) : Json := .object
  [("name".toList, .string stream.name), ("config".toList, configValue stream.config),
    ("state".toList, stateValue stream.state)]

def streamsValue (streams : List StreamInfo) : Json := .array (streams.map streamValue)

def statsValue (metrics : MetricsSnapshot) (streams : List StreamInfo) : Json := .object
  [("metrics".toList, metricsValue metrics), ("streams".toList, streamsValue streams)]

theorem field_value {key text : Str} {v : Json} (plain : key.all isPlain = true)
    (denotes : Denotes text (.value v)) : Field (key, text) (key, v) :=
  ⟨quoted_plain (List.all_eq_true.mp plain), denotes⟩

theorem field_nat {key : Str} (plain : key.all isPlain = true) (n : ℕ) :
    Field (key, decimal n) (key, .number n) :=
  field_value plain (.number (number_toDigits n))

variable (metrics : MetricsSnapshot) (streams : List StreamInfo)

theorem denotes_metrics : Denotes (metricsJson metrics) (.value (metricsValue metrics)) := by
  rw [metricsJson_eq]
  exact denotes_object (.cons (field_nat (by decide) _) (.cons (field_nat (by decide) _)
    (.cons (field_nat (by decide) _) (.cons (field_nat (by decide) _)
    (.cons (field_nat (by decide) _) (.cons (field_nat (by decide) _)
    (.cons (field_nat (by decide) _) .nil)))))))

theorem denotes_config (config : StreamConfig) :
    Denotes (configText config) (.value (configValue config)) :=
  denotes_object (.cons (field_nat (by decide) _) (.cons (field_nat (by decide) _)
    (.cons (field_nat (by decide) _) .nil)))

theorem denotes_state (state : StreamState) :
    Denotes (stateText state) (.value (stateValue state)) :=
  denotes_object (.cons (field_nat (by decide) _) (.cons (field_nat (by decide) _)
    (.cons (field_nat (by decide) _) (.cons (field_nat (by decide) _) .nil))))

theorem denotes_stream (stream : StreamInfo) :
    Denotes (streamJson stream) (.value (streamValue stream)) := by
  rw [streamJson_eq]
  exact denotes_object (.cons (field_value (by decide) (.string (quoted_escape stream.name)))
    (.cons (field_value (by decide) (denotes_config stream.config))
    (.cons (field_value (by decide) (denotes_state stream.state)) .nil)))

theorem denotes_streams : Denotes (streamsJson streams) (.value (streamsValue streams)) := by
  rw [streamsJson_eq]
  refine denotes_array ?_
  rw [List.forall₂_map_left_iff, List.forall₂_map_right_iff, List.forall₂_same]
  exact fun stream _ => denotes_stream stream

theorem denotes_stats :
    Denotes (statsJson metrics streams) (.value (statsValue metrics streams)) := by
  rw [statsJson_eq]
  exact denotes_object (.cons (field_value (by decide) (denotes_metrics metrics))
    (.cons (field_value (by decide) (denotes_streams streams)) .nil))

/-- The first member of an object with a name. -/
def member (name : String) : Json → Option Json
  | .object fields => fields.lookup name.toList
  | _ => none

def asNat : Json → Option ℕ
  | .number q => if q.den = 1 ∧ 0 ≤ q.num then some q.num.toNat else none
  | _ => none

def asString : Json → Option Str
  | .string s => some s
  | _ => none

def asArray : Json → Option (List Json)
  | .array items => some items
  | _ => none

def natMember (name : String) (v : Json) : Option ℕ := (member name v).bind asNat

def readMetrics (v : Json) : Option MetricsSnapshot := do
  let activeConnections ← natMember "active_connections" v
  let totalConnections ← natMember "total_connections" v
  let activeSubscriptions ← natMember "active_subscriptions" v
  let messagesPublished ← natMember "messages_published" v
  let messagesDelivered ← natMember "messages_delivered" v
  let messagesDropped ← natMember "messages_dropped" v
  let protocolErrors ← natMember "protocol_errors" v
  some ⟨activeConnections, totalConnections, activeSubscriptions, messagesPublished,
    messagesDelivered, messagesDropped, protocolErrors⟩

def readConfig (v : Json) : Option StreamConfig := do
  let maxMsgs ← natMember "max_msgs" v
  let maxBytes ← natMember "max_bytes" v
  let maxAgeSecs ← natMember "max_age_secs" v
  some ⟨maxMsgs, maxBytes, maxAgeSecs⟩

def readState (v : Json) : Option StreamState := do
  let messages ← natMember "messages" v
  let bytes ← natMember "bytes" v
  let firstSeq ← natMember "first_seq" v
  let lastSeq ← natMember "last_seq" v
  some ⟨messages, bytes, firstSeq, lastSeq⟩

def readStream (v : Json) : Option StreamInfo := do
  let name ← (member "name" v).bind asString
  let config ← (member "config" v).bind readConfig
  let state ← (member "state" v).bind readState
  some ⟨name, config, state⟩

/-- What a reader of the statistics takes from them. -/
def readStats (v : Json) : Option (MetricsSnapshot × List StreamInfo) := do
  let metrics ← (member "metrics" v).bind readMetrics
  let streams ← (member "streams" v).bind asArray
  let streams ← streams.mapM readStream
  some (metrics, streams)

theorem asNat_natCast (n : ℕ) : asNat (.number n) = some n := by
  simp [asNat]

theorem natMember_bind {name : String} {v : Json} {n : ℕ} {α : Type} {next : ℕ → Option α}
    (found : member name v = some (.number n)) : (natMember name v >>= next) = next n := by
  rw [natMember, found, Option.bind_some, asNat_natCast]
  rfl

theorem readMetrics_value : readMetrics (metricsValue metrics) = some metrics := by
  iterate 7 refine (natMember_bind rfl).trans ?_
  rfl

theorem readConfig_value (config : StreamConfig) :
    readConfig (configValue config) = some config := by
  iterate 3 refine (natMember_bind rfl).trans ?_
  rfl

theorem readState_value (state : StreamState) : readState (stateValue state) = some state := by
  iterate 4 refine (natMember_bind rfl).trans ?_
  rfl

theorem readStream_value (stream : StreamInfo) :
    readStream (streamValue stream) = some stream := by
  have name : member "name" (streamValue stream) = some (.string stream.name) := rfl
  have config : member "config" (streamValue stream) = some (configValue stream.config) := rfl
  have state : member "state" (streamValue stream) = some (stateValue stream.state) := rfl
  rw [readStream, name, config, state, Option.bind_some, Option.bind_some, Option.bind_some,
    readConfig_value, readState_value]
  rfl

theorem mapM_readStream : (streams.map streamValue).mapM readStream = some streams := by
  induction streams with
  | nil => rfl
  | cons stream streams ih =>
    rw [List.map_cons, List.mapM_cons, readStream_value, ih]
    rfl

theorem readStats_value : readStats (statsValue metrics streams) = some (metrics, streams) := by
  have counters : member "metrics" (statsValue metrics streams) = some (metricsValue metrics) := rfl
  have items : member "streams" (statsValue metrics streams) = some (streamsValue streams) := rfl
  have all : asArray (streamsValue streams) = some (streams.map streamValue) := rfl
  rw [readStats, counters, items, Option.bind_some, Option.bind_some, readMetrics_value, all]
  simp only [Option.bind_eq_bind, Option.bind_some, mapM_readStream]

theorem jsonText_note {text key note : Str}
    (written : text = objectText [(key, '"' :: note ++ ['"'])])
    (plainKey : key.all isPlain = true) (plainNote : note.all isPlain = true) :
    JsonText text (.object [(key, .string note)]) := by
  rw [written]
  exact jsonText_of_denotes (denotes_object
    (.cons (field_value plainKey (.string (quoted_plain (List.all_eq_true.mp plainNote)))) .nil))

theorem routeRequest_json (requestLine : Str) (metrics : CoreMetrics)
    (streams : List StreamInfo) :
    ∃ status body v, routeRequest requestLine metrics streams = jsonResponse status body ∧
      JsonText body v := by
  unfold routeRequest
  dsimp only
  split_ifs
  · exact ⟨_, _, _, rfl, @jsonText_note _ "error".toList "method not allowed".toList
      (by decide) (by decide) (by decide)⟩
  · exact ⟨_, _, _, rfl, jsonText_of_denotes (denotes_metrics (snapshot metrics))⟩
  · exact ⟨_, _, _, rfl, jsonText_of_denotes (denotes_streams streams)⟩
  · exact ⟨_, _, _, rfl, @jsonText_note _ "status".toList "ok".toList
      (by decide) (by decide) (by decide)⟩
  · exact ⟨_, _, _, rfl, jsonText_of_denotes (denotes_stats (snapshot metrics) streams)⟩
  · exact ⟨_, _, _, rfl, @jsonText_note _ "error".toList "not found".toList
      (by decide) (by decide) (by decide)⟩

/-- The statistics are a JSON text for all names and counters, with one value, from which
they can be read back; and an escaped string is read back as it was. -/
theorem statsJson_faithful :
    (∀ (metrics : MetricsSnapshot) (streams : List StreamInfo),
      (∀ v, JsonText (statsJson metrics streams) v ↔ v = statsValue metrics streams) ∧
      (parseJson (statsJson metrics streams)).bind readStats = some (metrics, streams)) ∧
    ∀ s : Str, unescape (escapeJsonString s) = some s := by
  refine ⟨fun metrics streams => ?_, unescape_escape⟩
  have denoted := jsonText_of_denotes (denotes_stats metrics streams)
  refine ⟨fun v => ⟨fun other => jsonText_unique other denoted, ?_⟩, ?_⟩
  · rintro rfl
    exact denoted
  · rw [(parseJson_iff _ _).mpr denoted, Option.bind_some, readStats_value]

end ZetMQ.AdminStats
