import ZetMQ.Commands
import ZetMQ.StreamIndex

/-! The age limit of a stream comes from the wire unchecked. The cutoff is exact
only while the limit in milliseconds fits in 64 bits and does not reach behind the
origin of the clock; beyond that one build aborts and another evicts the message it
has just stored. -/
namespace ZetMQ.AgeLimit
open Utf8Text ByteBuffer MachineArith BoundedLog Commands Streams Stream StreamIndex

def configOf (cmd : CreateStreamCommand) : StreamConfig :=
  ⟨cmd.maxMsgs, cmd.maxBytes, cmd.maxAgeSecs⟩

def AgeFits (config : StreamConfig) (now : ℕ) : Prop :=
  config.maxAgeSecs = 0 ∨
    config.maxAgeSecs * 1000 < 2 ^ 64 ∧ config.maxAgeSecs * 1000 ≤ now

variable {config : StreamConfig} {lastSeq : ℕ} {kept : List StoredMessage} {message : StoredMessage}
  {name : Str}

theorem ageCutoff_of_fits {now : ℕ} (fits : AgeFits config now) :
    ∃ cutoff : Option ℕ, (∀ limit ∈ cutoff, limit ≤ now) ∧
      ∀ {m : Type → Type} [Monad m] [LawfulMonad m] (arith : Arith m),
        ageCutoff arith config now = pure cutoff := by
  by_cases unlimited : config.maxAgeSecs = 0
  · refine ⟨none, by simp, fun arith => ?_⟩
    rw [ageCutoff, if_neg (by omega)]
  · obtain ⟨small, past⟩ := fits.resolve_left unlimited
    refine ⟨some (now - config.maxAgeSecs * 1000), by simp, fun arith => ?_⟩
    rw [ageCutoff, if_pos (by omega), arith.mul_exact small, pure_bind, arith.sub_exact past,
      pure_bind]

theorem checked_cutoff_isSome {now : ℕ} :
    (ageCutoff checked config now).isSome ↔ AgeFits config now := by
  constructor
  · intro computed
    by_cases unlimited : config.maxAgeSecs = 0
    · exact .inl unlimited
    · obtain ⟨cutoff, computed⟩ := Option.isSome_iff_exists.mp computed
      rw [ageCutoff, if_pos (by omega)] at computed
      obtain ⟨age, product, computed⟩ := Option.bind_eq_some_iff.mp computed
      obtain ⟨limit, difference, -⟩ := Option.bind_eq_some_iff.mp computed
      obtain ⟨small, rfl⟩ := checked_mul_eq_some.mp product
      exact .inr ⟨small, (checked_sub_eq_some.mp difference).1⟩
  · intro fits
    obtain ⟨cutoff, -, computed⟩ := ageCutoff_of_fits fits
    rw [computed checked]
    rfl

theorem retained_length {cutoff : Option ℕ} (counted : kept.length ≤ lastSeq) :
    (retained config cutoff (kept ++ [message])).length ≤ lastSeq + 1 := by
  refine (retained_suffix ..).length_le.trans ?_
  rw [List.length_append, List.length_singleton]
  omega

theorem store_checked_isSome (call : StoreCall) (counted : kept.length ≤ lastSeq) :
    (store checked (holding name config lastSeq kept) call).isSome ↔ AgeFits config call.now := by
  rw [store_holding checked call counted, ← checked_cutoff_isSome]
  exact Bool.eq_iff_iff.mp Option.isSome_map

theorem last_retained {cutoff : Option ℕ} (young : ∀ limit ∈ cutoff, limit ≤ message.timestamp) :
    [message] <:+ retained config cutoff (kept ++ [message]) := by
  have fresh : (cutoff.any fun limit => tooOld limit [message]) = false := by
    cases cutoff with
    | none => rfl
    | some limit =>
      have reached := young limit rfl
      simp only [Option.any_some, tooOld, List.head?_cons, decide_eq_false_iff_not, not_lt, reached]
  obtain ⟨-, count, bytes⟩ := admissible_iff.mp (admissible_singleton config message)
  exact suffix_shed (suffix_shed (suffix_shed (List.suffix_append ..) fresh) count) bytes

theorem read_last (last : [message] <:+ kept) (counted : kept.length ≤ lastSeq) :
    (holding name config lastSeq kept).read lastSeq = some message := by
  obtain ⟨older, rfl⟩ := last
  rw [List.length_append, List.length_singleton] at counted
  rw [read_eq]
  change (if lastSeq + 1 - (older ++ [message]).length ≤ lastSeq ∧ lastSeq ≤ lastSeq
    then (older ++ [message])[lastSeq - (lastSeq + 1 - (older ++ [message]).length)]? else none) = _
  rw [List.length_append, List.length_singleton, if_pos (by omega),
    show lastSeq - (lastSeq + 1 - (older.length + 1)) = older.length by omega,
    List.getElem?_concat_length]

theorem store_reads_back {call : StoreCall} (counted : kept.length ≤ lastSeq)
    (fits : AgeFits config call.now) (steady : call.timestamp = call.now) :
    let result := Id.run (store wrapping (holding name config lastSeq kept) call)
    result.2.read result.1 = some (call.message result.1) := by
  obtain ⟨cutoff, past, computed⟩ := ageCutoff_of_fits fits
  have cut : cutoffOf config call.now = cutoff := by
    rw [cutoffOf, computed wrapping]
    rfl
  rw [store_wrapping call counted, cut]
  refine read_last (last_retained fun limit found => ?_) (retained_length counted)
  exact (past limit found).trans_eq steady.symm

/-- For a stream that a CREATE_STREAM request asked for and any stores into it, the
next store is exact and readable at once if and only if the age limit fits. -/
theorem store_exact_iff_age_fits (cmd : CreateStreamCommand) (calls : List StoreCall)
    (subject : Str) (replyTo : Option Str) (payload : Bytes) (headers : Option (List (Str × Str)))
    (t : ℕ) :
    let stream := (Id.run (storeAll wrapping (new cmd.name (configOf cmd)) calls)).2
    let call : StoreCall := ⟨subject, replyTo, payload, headers, t, t⟩
    let result := Id.run (store wrapping stream call)
    ((store checked stream call).isSome ∧
        result.2.read result.1 = some (call.message result.1)) ↔
      AgeFits (configOf cmd) t := by
  intro stream call result
  obtain ⟨kept, suffix, run⟩ := run_holding cmd.name (configOf cmd) calls
  have counted := kept_length suffix
  have holds : stream = holding cmd.name (configOf cmd) calls.length kept := by
    simp only [stream, run]
  constructor
  · rintro ⟨exact, -⟩
    rw [holds] at exact
    exact (store_checked_isSome call counted).mp exact
  · intro fits
    refine ⟨?_, ?_⟩
    · rw [holds]
      exact (store_checked_isSome call counted).mpr fits
    · simp only [result, holds]
      exact store_reads_back counted fits rfl

private def farRequest : Bytes := [1, 0x73] ++ toBe 8 0 ++ toBe 8 0 ++ toBe 8 (2 ^ 53)

private def lateCall : StoreCall :=
  ⟨"s".toList, none, [1], none, 1700000000000, 1700000000000⟩

/-- An age limit of 2^53 seconds reaches behind 1970: the first message is assigned
a sequence number and evicted, or the build with checks aborts. -/
theorem far_age_limit_evicts_at_once :
    CreateStreamCommand.decode farRequest = .ok ⟨"s".toList, 0, 0, 2 ^ 53⟩ ∧
    (store checked (new "s".toList ⟨0, 0, 2 ^ 53⟩) lateCall).isNone ∧
    (Id.run (store wrapping (new "s".toList ⟨0, 0, 2 ^ 53⟩) lateCall)).1 = 1 ∧
    (Id.run (store wrapping (new "s".toList ⟨0, 0, 2 ^ 53⟩) lateCall)).2.read 1 = none := by
  decide

end ZetMQ.AgeLimit
