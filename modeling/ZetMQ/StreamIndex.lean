import ZetMQ.Streams

/-! What a stream holds after any number of stores: a suffix of everything stored,
with counters that make a sequence number an index. Without an age limit the suffix
is the longest that the other limits admit. -/
namespace ZetMQ.StreamIndex
open Utf8Text MachineArith BoundedLog Streams Stream

def historyFrom (n : ℕ) : List StoreCall → List StoredMessage
  | [] => []
  | call :: calls => call.message (n + 1) :: historyFrom (n + 1) calls

def history (calls : List StoreCall) : List StoredMessage := historyFrom 0 calls

variable {message : StoredMessage} {messages : List StoredMessage} (n : ℕ)

theorem historyFrom_length (calls : List StoreCall) :
    (historyFrom n calls).length = calls.length := by
  induction calls generalizing n with
  | nil => rfl
  | cons call calls ih => rw [historyFrom, List.length_cons, ih, List.length_cons]

theorem historyFrom_concat (calls : List StoreCall) (call : StoreCall) :
    historyFrom n (calls ++ [call]) =
      historyFrom n calls ++ [call.message (n + calls.length + 1)] := by
  induction calls generalizing n with
  | nil => rfl
  | cons first calls ih =>
    rw [List.cons_append, historyFrom, ih, historyFrom, List.cons_append, List.length_cons,
      show n + 1 + calls.length + 1 = n + (calls.length + 1) + 1 by omega]

theorem historyFrom_getElem? (i : ℕ) (calls : List StoreCall) :
    (historyFrom n calls)[i]? = calls[i]?.map fun call => call.message (n + i + 1) := by
  induction calls generalizing n i with
  | nil => rfl
  | cons call calls ih =>
    cases i with
    | zero => rfl
    | succ i =>
      rw [historyFrom, List.getElem?_cons_succ, List.getElem?_cons_succ, ih,
        show n + 1 + i + 1 = n + (i + 1) + 1 by omega]

theorem historyFrom_numbered (calls : List StoreCall) :
    Numbered StoredMessage.sequence (n + 1) (historyFrom n calls) := by
  induction calls generalizing n with
  | nil => trivial
  | cons call calls ih => exact ⟨rfl, ih (n + 1)⟩

def cutoffOf (config : StreamConfig) (now : ℕ) : Option ℕ :=
  Id.run (ageCutoff wrapping config now)

theorem store_wrapping {name : Str} {config : StreamConfig} {lastSeq : ℕ}
    {kept : List StoredMessage} (call : StoreCall) (counted : kept.length ≤ lastSeq) :
    Id.run (store wrapping (holding name config lastSeq kept) call) =
      (lastSeq + 1, holding name config (lastSeq + 1)
        (retained config (cutoffOf config call.now) (kept ++ [call.message (lastSeq + 1)]))) := by
  rw [store_holding wrapping call counted]
  rfl

theorem retained_suffix (config : StreamConfig) (cutoff : Option ℕ)
    (messages : List StoredMessage) : retained config cutoff messages <:+ messages :=
  ((shed_suffix _ _).trans (shed_suffix _ _)).trans (shed_suffix _ _)

theorem retained_concat_suffix {config : StreamConfig} {cutoff : Option ℕ}
    {past kept : List StoredMessage} (suffix : kept <:+ past) :
    retained config cutoff (kept ++ [message]) <:+ past ++ [message] :=
  (retained_suffix ..).trans (suffix_append suffix _)

theorem storeAll_cons (stream : Stream) (call : StoreCall) (calls : List StoreCall) :
    Id.run (storeAll wrapping stream (call :: calls)) =
      ((Id.run (store wrapping stream call)).1 ::
          (Id.run (storeAll wrapping (Id.run (store wrapping stream call)).2 calls)).1,
        (Id.run (storeAll wrapping (Id.run (store wrapping stream call)).2 calls)).2) :=
  rfl

section
variable {P : List StoredMessage → List StoredMessage → Prop} {config : StreamConfig}
  (suffix : ∀ past kept, P past kept → kept <:+ past)
  (step : ∀ past kept (call : StoreCall), P past kept →
    P (past ++ [call.message (past.length + 1)])
      (retained config (cutoffOf config call.now) (kept ++ [call.message (past.length + 1)])))
include suffix step

theorem storeAll_run (name : Str) (calls : List StoreCall) {past kept : List StoredMessage}
    (start : P past kept) :
    ∃ final, P (past ++ historyFrom past.length calls) final ∧
      Id.run (storeAll wrapping (holding name config past.length kept) calls) =
        (List.range' (past.length + 1) calls.length,
          holding name config (past.length + calls.length) final) := by
  induction calls generalizing past kept with
  | nil => exact ⟨kept, by rwa [historyFrom, List.append_nil], rfl⟩
  | cons call calls ih =>
    obtain ⟨final, holds, result⟩ := ih (step past kept call start)
    have longer : (past ++ [call.message (past.length + 1)]).length = past.length + 1 := by
      rw [List.length_append, List.length_singleton]
    rw [longer] at holds result
    refine ⟨final, by rwa [List.append_assoc, List.singleton_append] at holds, ?_⟩
    rw [storeAll_cons, store_wrapping call (suffix past kept start).length_le]
    simp only [result, List.length_cons, List.range'_succ, Nat.add_right_comm _ 1,
      ← Nat.add_assoc]

theorem storeAll_new (start : P [] []) (name : Str) (calls : List StoreCall) :
    ∃ final, P (history calls) final ∧ Id.run (storeAll wrapping (new name config) calls) =
      (List.range' 1 calls.length, holding name config calls.length final) := by
  obtain ⟨final, holds, result⟩ := storeAll_run suffix step name calls start
  rw [List.length_nil, Nat.zero_add, Nat.zero_add] at result
  exact ⟨final, holds, result⟩

end

def StoredAs (calls : List StoreCall) (seqs : List ℕ) (sequence : ℕ) (message : StoredMessage) :
    Prop :=
  ∃ (i : ℕ) (call : StoreCall),
    calls[i]? = some call ∧ seqs[i]? = some sequence ∧ message = call.message sequence

structure Indexed (calls : List StoreCall) (seqs : List ℕ) (stream : Stream) : Prop where
  messages : stream.state.messages = stream.messages.length
  bytes : stream.state.bytes = payloadBytes stream.messages
  lastSeq : stream.state.lastSeq = stream.state.firstSeq + stream.messages.length - 1
  firstSeq : 1 ≤ stream.state.firstSeq
  stores : stream.state.lastSeq = calls.length
  stored : ∀ i message, stream.messages[i]? = some message →
    message.sequence = stream.state.firstSeq + i ∧ StoredAs calls seqs message.sequence message
  read_isSome : ∀ s, (stream.read s).isSome ↔
    stream.state.firstSeq ≤ s ∧ s ≤ stream.state.lastSeq
  read_stored : ∀ s message, stream.read s = some message → StoredAs calls seqs s message
  range : ∀ a b, stream.readRange a b =
    stream.messages.filter fun message => a ≤ message.sequence ∧ message.sequence ≤ b

section Holding
variable {name : Str} {config : StreamConfig} {calls : List StoreCall} {kept : List StoredMessage}

section
variable (suffix : kept <:+ history calls)
include suffix

theorem kept_length : kept.length ≤ calls.length :=
  suffix.length_le.trans_eq (historyFrom_length 0 calls)

theorem kept_numbered : Numbered StoredMessage.sequence (calls.length + 1 - kept.length) kept := by
  have numbered := (historyFrom_numbered 0 calls).suffix suffix
  rwa [historyFrom_length] at numbered

theorem kept_stored (member : message ∈ kept) :
    StoredAs calls (List.range' 1 calls.length) message.sequence message := by
  obtain ⟨i, at_i⟩ := List.mem_iff_getElem?.mp (suffix.subset member)
  rw [history, historyFrom_getElem?, Option.map_eq_some_iff] at at_i
  obtain ⟨call, called, rfl⟩ := at_i
  have inside : i < calls.length := (List.getElem?_eq_some_iff.mp called).1
  refine ⟨i, call, called, ?_, rfl⟩
  rw [List.getElem?_range' inside, StoreCall.message, Nat.one_mul, Nat.zero_add, Nat.add_comm]

end

theorem read_eq (stream : Stream) (s : ℕ) :
    stream.read s = if stream.state.firstSeq ≤ s ∧ s ≤ stream.state.lastSeq
      then stream.messages[s - stream.state.firstSeq]? else none := by
  unfold Stream.read
  simp only [Bool.or_eq_true, decide_eq_true_eq]
  split_ifs <;> first | rfl | omega

section
variable (suffix : kept <:+ history calls)
include suffix

theorem read_holding (s : ℕ) :
    (holding name config calls.length kept).read s =
      if calls.length + 1 - kept.length ≤ s then kept[s - (calls.length + 1 - kept.length)]?
      else none := by
  have shorter := kept_length suffix
  rw [read_eq]
  change (if calls.length + 1 - kept.length ≤ s ∧ s ≤ calls.length then _ else _) = _
  by_cases low : calls.length + 1 - kept.length ≤ s
  · rw [if_pos low]
    split
    · rfl
    · exact (List.getElem?_eq_none (by omega)).symm
  · rw [if_neg low, if_neg (fun inside => low inside.1)]

theorem readRange_holding (a b : ℕ) :
    (holding name config calls.length kept).readRange a b =
      kept.filter fun message => a ≤ message.sequence ∧ message.sequence ≤ b := by
  have shorter := kept_length suffix
  have numbered := kept_numbered suffix
  obtain ⟨first, first_eq⟩ : ∃ first, first = calls.length + 1 - kept.length := ⟨_, rfl⟩
  have unfolded : (holding name config calls.length kept).readRange a b =
      if min b calls.length < max a first then []
      else (kept.drop (max a first - first)).take (min b calls.length - max a first + 1) := by
    rw [first_eq]
    rfl
  rw [← first_eq] at numbered
  rw [unfolded, numbered.filter, show max a first - first = a - first by omega]
  have dropped : (kept.drop (a - first)).length = kept.length - (a - first) := List.length_drop
  split
  · -- the range misses the deque: nothing is taken, or nothing is left to take from
    by_cases low : b < max a first
    · rw [show b + 1 - max a first = 0 by omega, List.take_zero]
    · rw [List.eq_nil_of_length_eq_zero (dropped.trans (by omega)), List.take_nil]
  · by_cases inside : b ≤ calls.length
    · rw [Nat.min_eq_left inside, show b - max a first + 1 = b + 1 - max a first by omega]
    · rw [List.take_of_length_le (by omega), List.take_of_length_le (by omega)]

theorem indexed_holding :
    Indexed calls (List.range' 1 calls.length) (holding name config calls.length kept) := by
  have shorter := kept_length suffix
  have number : ∀ i message, kept[i]? = some message →
      message.sequence = calls.length + 1 - kept.length + i :=
    fun i message found => (kept_numbered suffix).getElem? found
  have stored : ∀ i message, kept[i]? = some message →
      StoredAs calls (List.range' 1 calls.length) message.sequence message :=
    fun i message found => kept_stored suffix (List.mem_of_getElem? found)
  constructor
  case messages => rfl
  case bytes => rfl
  case lastSeq =>
    simp only [holding]
    omega
  case firstSeq =>
    simp only [holding]
    omega
  case stores => rfl
  case stored => exact fun i message found => ⟨number i message found, stored i message found⟩
  case read_isSome =>
    intro s
    rw [read_holding suffix]
    change _ ↔ calls.length + 1 - kept.length ≤ s ∧ s ≤ calls.length
    split
    · rw [isSome_getElem?]
      omega
    · simp only [Option.isSome_none, Bool.false_eq_true, false_iff]
      omega
  case read_stored =>
    intro s message found
    rw [read_holding suffix] at found
    split at found
    · have sequence := number _ _ found
      rw [show s = message.sequence by omega]
      exact stored _ _ found
    · cases found
  case range => exact readRange_holding suffix

end

end Holding

theorem run_holding (name : Str) (config : StreamConfig) (calls : List StoreCall) :
    ∃ kept, kept <:+ history calls ∧ Id.run (storeAll wrapping (new name config) calls) =
      (List.range' 1 calls.length, holding name config calls.length kept) := by
  exact storeAll_new (fun _ _ suffix => suffix) (fun _ _ _ => retained_concat_suffix)
    (List.suffix_refl []) name calls

/-- Sequence numbers are positions, whatever was evicted. -/
theorem sequences_index_the_deque (name : Str) (config : StreamConfig) (calls : List StoreCall) :
    Indexed calls (Id.run (storeAll wrapping (new name config) calls)).1
      (Id.run (storeAll wrapping (new name config) calls)).2 := by
  obtain ⟨kept, suffix, result⟩ := run_holding name config calls
  rw [result]
  exact indexed_holding suffix

/-- A limit of 0 admits everything, and one message is never too large. -/
def Admissible (config : StreamConfig) (messages : List StoredMessage) : Prop :=
  messages ≠ [] ∧ (0 < config.maxMsgs → messages.length ≤ config.maxMsgs) ∧
    (0 < config.maxBytes → payloadBytes messages ≤ config.maxBytes ∨ messages.length = 1)

theorem overCount_eq_false {config : StreamConfig} :
    overCount config messages = false ↔
      (0 < config.maxMsgs → messages.length ≤ config.maxMsgs) := by
  simp only [overCount, Bool.and_eq_false_imp, decide_eq_true_eq, decide_eq_false_iff_not, not_lt]

theorem overBytes_eq_false {config : StreamConfig} :
    overBytes config messages = false ↔ (0 < config.maxBytes →
      payloadBytes messages ≤ config.maxBytes ∨ messages.length ≤ 1) := by
  simp only [overBytes, Bool.and_eq_false_imp, decide_eq_true_eq, decide_eq_false_iff_not, not_lt,
    or_iff_not_imp_left, not_le]

theorem admissible_iff {config : StreamConfig} :
    Admissible config messages ↔
      messages ≠ [] ∧ overCount config messages = false ∧ overBytes config messages = false := by
  rw [overCount_eq_false, overBytes_eq_false, Admissible]
  refine and_congr_right fun nonempty => and_congr_right fun _ => imp_congr_right fun _ => ?_
  have positive := List.length_pos_iff.mpr nonempty
  exact or_congr_right (by omega)

theorem admissible_singleton (config : StreamConfig) (message : StoredMessage) :
    Admissible config [message] :=
  ⟨List.cons_ne_nil _ _, fun limited => limited, fun _ => .inr rfl⟩

theorem Admissible.init {config : StreamConfig}
    (admissible : Admissible config (messages ++ [message])) (nonempty : messages ≠ []) :
    Admissible config messages := by
  obtain ⟨-, count, bytes⟩ := admissible
  have positive := List.length_pos_iff.mpr nonempty
  simp only [List.length_append, List.length_singleton, payloadBytes, List.map_append,
    List.sum_append] at count bytes
  refine ⟨nonempty, fun limited => ?_, fun limited => .inl ?_⟩
  · have := count limited
    omega
  · have := bytes limited
    simp only [payloadBytes]
    omega

theorem retained_unaged (config : StreamConfig) (messages : List StoredMessage) :
    retained config none messages = shed (overBytes config) (shed (overCount config) messages) := by
  have young : shed (fun held => (none : Option ℕ).any fun limit => tooOld limit held) messages =
      messages := shed_never (fun _ => rfl) messages
  rw [retained, young]

theorem suffix_retained {config : StreamConfig} {ys : List StoredMessage} (suffix : ys <:+ messages)
    (admissible : Admissible config ys) : ys <:+ retained config none messages := by
  obtain ⟨-, count, bytes⟩ := admissible_iff.mp admissible
  rw [retained_unaged]
  exact suffix_shed (suffix_shed suffix count) bytes

theorem retained_admissible (config : StreamConfig) (messages : List StoredMessage)
    (message : StoredMessage) :
    Admissible config (retained config none (messages ++ [message])) := by
  have last : [message] <:+ messages ++ [message] := List.suffix_append ..
  obtain ⟨single, count, bytes⟩ := admissible_iff.mp (admissible_singleton config message)
  have survives : ∀ {xs : List StoredMessage}, [message] <:+ xs → xs ≠ [] := by
    intro xs suffix empty
    rw [empty] at suffix
    exact single (List.suffix_nil.mp suffix)
  have inner := suffix_shed last count
  have nonempty := survives (suffix_shed inner bytes)
  rw [retained_unaged]
  refine admissible_iff.mpr ⟨nonempty, overCount_eq_false.mpr fun limited => ?_, shed_fits nonempty⟩
  have counted := overCount_eq_false.mp (shed_fits (survives inner)) limited
  exact (shed_suffix _ _).length_le.trans counted

theorem cutoffOf_unlimited {config : StreamConfig} (noAge : config.maxAgeSecs = 0) (now : ℕ) :
    cutoffOf config now = none := by
  rw [cutoffOf, ageCutoff, if_neg (by omega)]
  rfl

/-- Nothing over the limits is kept and nothing is evicted that still fits. -/
theorem retains_longest_suffix (name : Str) (config : StreamConfig)
    (noAge : config.maxAgeSecs = 0) (calls : List StoreCall) (stored : calls ≠ []) :
    IsLongest (Admissible config) (history calls)
      (Id.run (storeAll wrapping (new name config) calls)).2.messages := by
  have run := @storeAll_new
    (fun past kept => kept <:+ past ∧ (past ≠ [] → Admissible config kept) ∧
      ∀ ys, ys <:+ past → Admissible config ys → ys <:+ kept)
    config (fun _ _ holds => holds.1) ?step
    ⟨List.suffix_refl [], fun none => absurd rfl none, fun ys suffix _ => suffix⟩ name calls
  case step =>
    intro past kept call ⟨suffix, _, longest⟩
    rw [cutoffOf_unlimited noAge]
    refine ⟨retained_concat_suffix suffix, fun _ => retained_admissible .., ?_⟩
    intro ys inside admissible
    exact suffix_retained (longest_concat longest (fun _ admissible => admissible.1)
      (fun _ admissible => admissible.init) inside admissible) admissible
  obtain ⟨final, ⟨suffix, admissible, longest⟩, result⟩ := run
  rw [result]
  refine ⟨suffix, admissible fun empty => stored ?_, longest⟩
  exact List.eq_nil_of_length_eq_zero ((historyFrom_length 0 calls).symm.trans
    (congrArg List.length empty))

private def byteCall (payload : Bytes) : StoreCall := ⟨"a".toList, none, payload, none, 0, 0⟩

theorem oversize_message_leaves_with_the_next :
    (Id.run (storeAll wrapping (new "s".toList ⟨3, 4, 0⟩)
      [byteCall [1], byteCall [1, 2, 3, 4, 5], byteCall [], byteCall [7]])).2.messages =
        [(byteCall []).message 3, (byteCall [7]).message 4] ∧
    IsLongest (Admissible ⟨3, 4, 0⟩)
      (history [byteCall [1], byteCall [1, 2, 3, 4, 5], byteCall [], byteCall [7]])
      (Id.run (storeAll wrapping (new "s".toList ⟨3, 4, 0⟩)
        [byteCall [1], byteCall [1, 2, 3, 4, 5], byteCall [], byteCall [7]])).2.messages :=
  ⟨by decide, retains_longest_suffix _ _ rfl _ (List.cons_ne_nil _ _)⟩

end ZetMQ.StreamIndex
