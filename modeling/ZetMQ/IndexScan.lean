import Mathlib.Data.List.Chain
import ZetMQ.Segments

/-! The scan that rebuilds an index, over a file of any contents. Lengths are taken from
the file, seeks go beyond its end as far as the system lets them, and sums are made in
machine words: the size of a record in 64 bits with a sign, the offset in 64 bits without.
A record is passed over only if all its reads found their bytes, so each turn uses up 24
bytes of the file. -/
namespace ZetMQ.IndexScan
open Utf8Text ByteBuffer FileCursor Segments

def seekWithin (limit k : ℕ) : FileM Unit := fun f =>
  if f.pos + k ≤ limit then .ok () { f with pos := f.pos + k } else .error .unexpectedEof f

def skipWith (seek : ℕ → FileM Unit) (len : ℕ) : FileM Unit :=
  if 0 < len then seek len else pure ()

def scanFields (seek : ℕ → FileM Unit) : FileM (ℕ × ℕ × ℕ × ℕ) := do
  let header ← readExact 16
  let timestamp := beAt header 8 8
  let subjectLen ← readBe 2
  seek subjectLen
  let replyLen ← readBe 2
  skipWith seek replyLen
  let payloadLen ← readBe 4
  seek payloadLen
  pure (timestamp, subjectLen, replyLen, payloadLen)

def addBelow (bound a b : ℕ) : Option ℕ := if a + b < bound then some (a + b) else none

def recordSize (subjectLen replyLen payloadLen : ℕ) : Option ℕ :=
  [8, 2, subjectLen, 2, replyLen, 4, payloadLen].foldlM (addBelow (2 ^ 63)) 8

inductive ScanEnd where
  | finished (index : List IndexEntry) (offset : ℕ)
  | outOfTurns
  | overflow
deriving DecidableEq

/-- The loop of `rebuild_index` with `turns` turns to make. -/
def scanLoop (limit : ℕ) : ℕ → ℕ → List IndexEntry → File → ScanEnd
  | 0, _, _, _ => .outOfTurns
  | turns + 1, offset, index, file =>
    match (scanFields (seekWithin limit)).run file with
    | .error _ _ => .finished index offset
    | .ok (timestamp, subjectLen, replyLen, payloadLen) file =>
      match (recordSize subjectLen replyLen payloadLen).bind (addBelow (2 ^ 64) offset) with
      | none => .overflow
      | some next => scanLoop limit turns next (index ++ [⟨offset, timestamp⟩]) file

theorem foldlM_addBelow {bound : ℕ} (terms : List ℕ) {start : ℕ}
    (fits : start + terms.sum < bound) :
    terms.foldlM (addBelow bound) start = some (start + terms.sum) := by
  induction terms generalizing start with
  | nil => rfl
  | cons term terms ih =>
    rw [List.sum_cons, ← Nat.add_assoc] at fits ⊢
    have first : addBelow bound start term = some (start + term) := if_pos (by omega)
    rw [List.foldlM_cons, first]
    exact ih fits

theorem recordSize_eq {subjectLen replyLen payloadLen : ℕ} (subject : subjectLen < 2 ^ 16)
    (reply : replyLen < 2 ^ 16) (payload : payloadLen < 2 ^ 32) :
    recordSize subjectLen replyLen payloadLen =
      some (8 + 8 + 2 + subjectLen + 2 + replyLen + 4 + payloadLen) := by
  rw [recordSize, foldlM_addBelow]
  · simp only [List.sum_cons, List.sum_nil, Option.some.injEq]
    omega
  · simp only [List.sum_cons, List.sum_nil]
    omega

variable {limit : ℕ} {f f' : File}

theorem seekWithin_eq_ok {k : ℕ} {u : Unit} (done : (seekWithin limit k).run f = .ok u f') :
    f.pos + k ≤ limit ∧ f' = ⟨f.data, f.pos + k⟩ := by
  change (if f.pos + k ≤ limit then _ else _) = _ at done
  split at done
  · rename_i inside
    cases done
    exact ⟨inside, rfl⟩
  · cases done

theorem skipWith_eq_ok {k : ℕ} {u : Unit}
    (done : (skipWith (seekWithin limit) k).run f = .ok u f') : f' = ⟨f.data, f.pos + k⟩ := by
  unfold skipWith at done
  split at done
  · exact (seekWithin_eq_ok done).2
  · rename_i none
    cases done
    rw [Nat.eq_zero_of_not_pos none, Nat.add_zero]

theorem readBe_passed {width n : ℕ} (positive : 0 < width)
    (done : (readBe width).run f = .ok n f') :
    f.pos + width ≤ f.data.length ∧ n < 256 ^ width ∧ f' = ⟨f.data, f.pos + width⟩ := by
  obtain ⟨rfl, rfl⟩ := readBe_eq_ok done
  obtain ⟨bytes, g, read, -⟩ := bind_eq_ok done
  exact ⟨(readExact_eq_ok positive read).1, beAt_lt .., rfl⟩

structure Passed (limit : ℕ) (f f' : File) (subjectLen replyLen payloadLen : ℕ) : Prop where
  subject : subjectLen < 2 ^ 16
  reply : replyLen < 2 ^ 16
  payload : payloadLen < 2 ^ 32
  inside : f.pos + 24 + subjectLen + replyLen ≤ f.data.length
  file : f' = ⟨f.data, f.pos + (8 + 8 + 2 + subjectLen + 2 + replyLen + 4 + payloadLen)⟩
  reached : f'.pos ≤ limit

theorem scanFields_passed {timestamp subjectLen replyLen payloadLen : ℕ}
    (done : (scanFields (seekWithin limit)).run f =
      .ok (timestamp, subjectLen, replyLen, payloadLen) f') :
    Passed limit f f' subjectLen replyLen payloadLen := by
  obtain ⟨header, f₁, headerRead, done⟩ := bind_eq_ok done
  obtain ⟨subjectLen, f₂, subjectRead, done⟩ := bind_eq_ok done
  obtain ⟨_, f₃, subjectSeek, done⟩ := bind_eq_ok done
  obtain ⟨replyLen, f₄, replyRead, done⟩ := bind_eq_ok done
  obtain ⟨_, f₅, replySeek, done⟩ := bind_eq_ok done
  obtain ⟨payloadLen, f₆, payloadRead, done⟩ := bind_eq_ok done
  obtain ⟨_, f₇, payloadSeek, done⟩ := bind_eq_ok done
  cases done
  obtain ⟨-, -, rfl⟩ := readExact_eq_ok (by decide) headerRead
  obtain ⟨-, subject, rfl⟩ := readBe_passed (by decide) subjectRead
  obtain ⟨-, rfl⟩ := seekWithin_eq_ok subjectSeek
  obtain ⟨-, reply, rfl⟩ := readBe_passed (by decide) replyRead
  obtain rfl := skipWith_eq_ok replySeek
  obtain ⟨inside, payload, rfl⟩ := readBe_passed (by decide) payloadRead
  obtain ⟨reached, rfl⟩ := seekWithin_eq_ok payloadSeek
  dsimp only at inside reached ⊢
  refine ⟨subject, reply, payload, by omega, ?_, reached⟩
  rw [File.mk.injEq]
  exact ⟨rfl, by omega⟩

inductive Walk (length : ℕ) : ℕ → List IndexEntry → ℕ → Prop
  | here (offset : ℕ) : Walk length offset [] offset
  | pass {offset next final : ℕ} {index : List IndexEntry} (timestamp : ℕ) :
    offset + 24 ≤ length → offset + 24 ≤ next → Walk length next index final →
      Walk length offset (⟨offset, timestamp⟩ :: index) final

section Walks
variable {length offset final : ℕ} {index : List IndexEntry}

section
variable (walk : Walk length offset index final)
include walk

theorem Walk.offsets : ∃ rest, index.map IndexEntry.offset ++ [final] = offset :: rest := by
  cases walk with
  | here => exact ⟨[], rfl⟩
  | pass timestamp inside ahead walk => exact ⟨_, rfl⟩

theorem Walk.spaced : (index.map IndexEntry.offset ++ [final]).IsChain (fun a b => a + 24 ≤ b) := by
  induction walk with
  | here offset => exact .singleton offset
  | pass timestamp inside ahead walk ih =>
    obtain ⟨rest, offsets⟩ := walk.offsets
    rw [List.map_cons, List.cons_append, offsets]
    rw [offsets] at ih
    exact .cons_cons ahead ih

theorem Walk.inside : ∀ entry ∈ index, entry.offset + 24 ≤ length := by
  induction walk with
  | here => exact fun entry member => absurd member (List.not_mem_nil)
  | pass timestamp inside ahead walk ih =>
    intro entry member
    rcases List.mem_cons.mp member with rfl | later
    · exact inside
    · exact ih entry later

end

end Walks

theorem increasing_of_spaced {index : List IndexEntry} {final : ℕ}
    (spaced : (index.map IndexEntry.offset ++ [final]).IsChain (fun a b => a + 24 ≤ b)) :
    (index.map IndexEntry.offset).Pairwise (· < ·) := by
  have less : (index.map IndexEntry.offset ++ [final]).IsChain (· < ·) :=
    spaced.imp fun a b ahead => by omega
  exact (List.isChain_iff_pairwise.mp less).sublist (List.sublist_append_left ..)

theorem scanLoop_cases (small : limit < 2 ^ 63) (data : Bytes) (offset : ℕ) :
    (∀ turns index, scanLoop limit (turns + 1) offset index ⟨data, offset⟩ =
      .finished index offset) ∨
    ∃ timestamp next, offset + 24 ≤ data.length ∧ offset + 24 ≤ next ∧
      ∀ turns index, scanLoop limit (turns + 1) offset index ⟨data, offset⟩ =
        scanLoop limit turns next (index ++ [⟨offset, timestamp⟩]) ⟨data, next⟩ := by
  cases fields : (scanFields (seekWithin limit)).run ⟨data, offset⟩ with
  | error e file =>
    refine .inl fun turns index => ?_
    rw [scanLoop, fields]
  | ok found file =>
    obtain ⟨timestamp, subjectLen, replyLen, payloadLen⟩ := found
    have passed := scanFields_passed fields
    have inside := passed.inside
    have reached := passed.reached
    obtain rfl := passed.file
    dsimp only at inside reached
    have next : (recordSize subjectLen replyLen payloadLen).bind (addBelow (2 ^ 64) offset) =
        some (offset + (8 + 8 + 2 + subjectLen + 2 + replyLen + 4 + payloadLen)) := by
      rw [recordSize_eq passed.subject passed.reply passed.payload, Option.bind_some]
      exact if_pos (by omega)
    refine .inr ⟨timestamp, offset + (8 + 8 + 2 + subjectLen + 2 + replyLen + 4 + payloadLen),
      by omega, by omega, fun turns index => ?_⟩
    rw [scanLoop, fields]
    dsimp only
    rw [next]

theorem scanLoop_finishes (small : limit < 2 ^ 63) (data : Bytes) (turns offset : ℕ)
    (index : List IndexEntry) (enough : data.length < offset + 24 * (turns + 1)) :
    ∃ added final, Walk data.length offset added final ∧
      ∀ more, scanLoop limit (turns + more + 1) offset index ⟨data, offset⟩ =
        .finished (index ++ added) final := by
  induction turns generalizing offset index with
  | zero =>
    rcases scanLoop_cases small data offset with ended | ⟨timestamp, next, inside, -, -⟩
    · refine ⟨[], offset, .here offset, fun more => ?_⟩
      rw [ended, List.append_nil]
    · omega
  | succ turns ih =>
    rcases scanLoop_cases small data offset with ended | ⟨timestamp, next, inside, ahead, passes⟩
    · refine ⟨[], offset, .here offset, fun more => ?_⟩
      rw [ended, List.append_nil]
    · obtain ⟨added, final, walk, finished⟩ := ih next (index ++ [⟨offset, timestamp⟩]) (by omega)
      refine ⟨⟨offset, timestamp⟩ :: added, final, .pass timestamp inside ahead walk, ?_⟩
      intro more
      rw [passes, Nat.add_right_comm turns 1 more, finished, List.append_assoc]
      rfl

theorem scanFields_roomy {data : Bytes} (roomy : data.length + 2 ^ 32 ≤ limit) (pos : ℕ) :
    (scanFields (seekWithin limit)).run ⟨data, pos⟩ = (scanFields seekCurrent).run ⟨data, pos⟩ := by
  have seeks : ∀ {pos k : ℕ}, pos ≤ data.length → k < 2 ^ 32 →
      (seekWithin limit k).run ⟨data, pos⟩ = (seekCurrent k).run ⟨data, pos⟩ := by
    intro pos k inside small
    exact if_pos (show pos + k ≤ limit by omega)
  have skips : ∀ {pos k : ℕ}, pos ≤ data.length → k < 2 ^ 32 →
      (skipWith (seekWithin limit) k).run ⟨data, pos⟩ =
        (skipWith seekCurrent k).run ⟨data, pos⟩ := by
    intro pos k inside small
    unfold skipWith
    split
    · exact seeks inside small
    · rfl
  refine bind_congr_run rfl fun header f₁ headerRead => ?_
  obtain ⟨-, -, rfl⟩ := readExact_eq_ok (by decide) headerRead
  refine bind_congr_run rfl fun subjectLen f₂ subjectRead => ?_
  obtain ⟨subjectIn, subject, rfl⟩ := readBe_passed (by decide) subjectRead
  refine bind_congr_run (seeks subjectIn (by omega)) fun _ f₃ subjectSeek => ?_
  obtain ⟨-, rfl⟩ := seekWithin_eq_ok subjectSeek
  refine bind_congr_run rfl fun replyLen f₄ replyRead => ?_
  obtain ⟨replyIn, reply, rfl⟩ := readBe_passed (by decide) replyRead
  refine bind_congr_run (skips replyIn (by omega)) fun _ f₅ replySeek => ?_
  obtain rfl := skipWith_eq_ok replySeek
  refine bind_congr_run rfl fun payloadLen f₆ payloadRead => ?_
  obtain ⟨payloadIn, payload, rfl⟩ := readBe_passed (by decide) payloadRead
  exact bind_congr_run (seeks payloadIn payload) fun _ f₇ _ => rfl

theorem scanRecord_eq : scanRecord = scanFields seekCurrent >>= fun found =>
    pure (found.1, 8 + 8 + 2 + found.2.1 + 2 + found.2.2.1 + 4 + found.2.2.2) := by
  simp only [scanRecord, scanFields, bind_assoc, pure_bind]
  rfl

theorem scan_of_finished {data : Bytes} (roomy : data.length + 2 ^ 32 ≤ limit)
    {turns offset final pos : ℕ} {index found : List IndexEntry}
    (finished : scanLoop limit turns offset index ⟨data, pos⟩ = .finished found final) :
    (scan turns offset index ⟨data, pos⟩).1 = found ∧
      (scan turns offset index ⟨data, pos⟩).2.1 = final := by
  induction turns generalizing offset index pos with
  | zero => cases finished
  | succ turns ih =>
    have plain := scanFields_roomy roomy pos
    rw [scanLoop] at finished
    rw [scan, scanRecord_eq]
    cases fields : (scanFields (seekWithin limit)).run ⟨data, pos⟩ with
    | error e file =>
      rw [fields] at finished plain
      rw [bind_error plain.symm]
      cases finished
      exact ⟨rfl, rfl⟩
    | ok taken file =>
      obtain ⟨timestamp, subjectLen, replyLen, payloadLen⟩ := taken
      have passed := scanFields_passed fields
      obtain rfl := passed.file
      rw [fields] at finished plain
      rw [bind_ok plain.symm]
      dsimp only at finished
      rw [recordSize_eq passed.subject passed.reply passed.payload, Option.bind_some,
        addBelow] at finished
      split_ifs at finished with fits
      exact ih finished

/-- Rebuilding an index is safe on every file: with any limit on seeks that a signed
offset allows, the loop finishes within a turn for each 24 bytes, without an overflow; the
offsets are 24 or more apart and 24 or more before the end of the file. -/
theorem rebuildIndex_safe (limit : Fin (2 ^ 63)) (data : Bytes) :
    ∃ index offset,
      (∀ turns, data.length < 24 * turns →
        scanLoop limit turns 0 [] ⟨data, 0⟩ = .finished index offset) ∧
      (index.map IndexEntry.offset ++ [offset]).IsChain (fun a b => a + 24 ≤ b) ∧
      (index.map IndexEntry.offset).Pairwise (· < ·) ∧
      (∀ entry ∈ index, entry.offset + 24 ≤ data.length) ∧
      (data.length + 2 ^ 32 ≤ limit → ∀ base,
        (Segment.openPath (some data) base).index = index ∧
          (Segment.openPath (some data) base).bytesWritten = offset) := by
  obtain ⟨index, offset, walk, finished⟩ := scanLoop_finishes limit.isLt data (data.length / 24) 0
    [] (by omega)
  have done : ∀ turns, data.length < 24 * turns →
      scanLoop limit turns 0 [] ⟨data, 0⟩ = .finished index offset := by
    intro turns enough
    obtain ⟨more, rfl⟩ : ∃ more, turns = data.length / 24 + more + 1 :=
      ⟨turns - (data.length / 24 + 1), by omega⟩
    exact finished more
  refine ⟨index, offset, done, walk.spaced, increasing_of_spaced walk.spaced, walk.inside, ?_⟩
  intro roomy base
  exact scan_of_finished roomy (done (data.length + 1) (by omega))

theorem rebuildIndex_safe_zeroes : ∃ index offset,
    scanLoop (2 ^ 40) 3 0 [] ⟨List.replicate 50 0, 0⟩ = .finished index offset ∧
      (index.map IndexEntry.offset ++ [offset]).IsChain (fun a b => a + 24 ≤ b) ∧
      (Segment.openPath (some (List.replicate 50 0)) 1).index = index := by
  obtain ⟨index, offset, done, spaced, -, -, plain⟩ :=
    rebuildIndex_safe ⟨2 ^ 40, by decide⟩ (List.replicate 50 0)
  exact ⟨index, offset, done 3 (by decide), spaced, (plain (by decide) 1).1⟩

end ZetMQ.IndexScan
