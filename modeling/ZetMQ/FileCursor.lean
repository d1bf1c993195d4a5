import ZetMQ.ByteBuffer

/-! Files with one cursor that reads and writes share. Reading past the end fails and
leaves the cursor at the end, moving the cursor never fails, and what is written over
a gap behind the end leaves zeros in the gap. -/
namespace ZetMQ.FileCursor
open Utf8Text ByteBuffer

structure File where
  data : Bytes
  pos : ℕ
deriving DecidableEq

inductive IoError where
  | unexpectedEof
deriving DecidableEq

abbrev FileM := EStateM IoError File

/-- Fill a buffer of `n` bytes. -/
def readExact (n : ℕ) : FileM Bytes := fun f =>
  if n = 0 ∨ f.pos + n ≤ f.data.length then
    .ok (slice f.data f.pos (f.pos + n)) { f with pos := f.pos + n }
  else .error .unexpectedEof { f with pos := max f.pos f.data.length }

def seekStart (k : ℕ) : FileM Unit := fun f => .ok () { f with pos := k }

def seekCurrent (k : ℕ) : FileM Unit := fun f => .ok () { f with pos := f.pos + k }

def writeAll (bytes : Bytes) : FileM Unit := fun f =>
  if bytes = [] then .ok () f
  else .ok () ⟨f.data.take f.pos ++ List.replicate (f.pos - f.data.length) 0 ++ bytes ++
    f.data.drop (f.pos + bytes.length), f.pos + bytes.length⟩

/-- A number of `width` bytes. -/
def readBe (width : ℕ) : FileM ℕ := do
  let bytes ← readExact width
  pure (beNat bytes)

section
variable {α β : Type} {m : FileM α} {k : α → FileM β} {f f' : File}

theorem bind_ok {a : α} (done : m.run f = .ok a f') : (m >>= k).run f = (k a).run f' := by
  change m f = _ at done
  change EStateM.bind m k f = _
  rw [EStateM.bind, done]
  rfl

theorem bind_error {e : IoError} (failed : m.run f = .error e f') :
    (m >>= k).run f = .error e f' := by
  change m f = _ at failed
  change EStateM.bind m k f = _
  rw [EStateM.bind, failed]

theorem bind_eq_ok {b : β} {f'' : File} (done : (m >>= k).run f = .ok b f'') :
    ∃ a f', m.run f = .ok a f' ∧ (k a).run f' = .ok b f'' := by
  cases first : m.run f with
  | ok a f' => exact ⟨a, f', rfl, (bind_ok first).symm.trans done⟩
  | error e f' => cases (bind_error first).symm.trans done

theorem bind_congr_run {m' : FileM α} {k' : α → FileM β} (first : m.run f = m'.run f)
    (rest : ∀ a f', m.run f = .ok a f' → (k a).run f' = (k' a).run f') :
    (m >>= k).run f = (m' >>= k').run f := by
  cases done : m.run f with
  | ok a f' => rw [bind_ok done, bind_ok (first ▸ done), rest a f' done]
  | error e f' => rw [bind_error done, bind_error (first ▸ done)]

end

def Forward {α : Type} (m : FileM α) : Prop :=
  ∀ f : File, ∃ pos, f.pos ≤ pos ∧ ((∃ a, m.run f = .ok a ⟨f.data, pos⟩) ∨
    f.data.length ≤ pos ∧ ∃ e, m.run f = .error e ⟨f.data, pos⟩)

theorem forward_pure {α : Type} (a : α) : Forward (pure a : FileM α) :=
  fun f => ⟨f.pos, le_rfl, .inl ⟨a, rfl⟩⟩

theorem Forward.bind {α β : Type} {m : FileM α} {k : α → FileM β} (first : Forward m)
    (rest : ∀ a, Forward (k a)) : Forward (m >>= k) := by
  intro f
  obtain ⟨pos, later, ⟨a, done⟩ | ⟨ended, e, failed⟩⟩ := first f
  · obtain ⟨pos', later', outcome⟩ := rest a ⟨f.data, pos⟩
    rw [bind_ok done]
    exact ⟨pos', later.trans later', outcome⟩
  · exact ⟨pos, later, .inr ⟨ended, e, bind_error failed⟩⟩

theorem forward_readExact (n : ℕ) : Forward (readExact n) := by
  intro f
  by_cases inside : n = 0 ∨ f.pos + n ≤ f.data.length
  · exact ⟨f.pos + n, Nat.le_add_right .., .inl ⟨_, if_pos inside⟩⟩
  · exact ⟨max f.pos f.data.length, le_max_left .., .inr ⟨le_max_right .., _, if_neg inside⟩⟩

theorem forward_readBe (width : ℕ) : Forward (readBe width) :=
  (forward_readExact width).bind fun _ => forward_pure _

theorem forward_seekCurrent (k : ℕ) : Forward (seekCurrent k) :=
  fun f => ⟨f.pos + k, Nat.le_add_right .., .inl ⟨(), rfl⟩⟩

variable {n width : ℕ} {bytes : Bytes}

theorem readExact_inside {f : File} (inside : f.pos + n ≤ f.data.length) :
    (readExact n).run f = .ok (slice f.data f.pos (f.pos + n)) ⟨f.data, f.pos + n⟩ :=
  if_pos (.inr inside)

theorem readExact_short {f : File} {n : ℕ} (positive : 0 < n) (short : f.data.length < f.pos + n) :
    (readExact n).run f = .error .unexpectedEof ⟨f.data, max f.pos f.data.length⟩ :=
  if_neg (by omega)

theorem readBe_inside {f : File} (inside : f.pos + width ≤ f.data.length) :
    (readBe width).run f = .ok (beAt f.data f.pos width) ⟨f.data, f.pos + width⟩ :=
  bind_ok (readExact_inside inside)

theorem readBe_short {f : File} (positive : 0 < width) (short : f.data.length < f.pos + width) :
    (readBe width).run f = .error .unexpectedEof ⟨f.data, max f.pos f.data.length⟩ :=
  bind_error (readExact_short positive short)

theorem readExact_eq_ok {f f' : File} (positive : 0 < n)
    (done : (readExact n).run f = .ok bytes f') :
    f.pos + n ≤ f.data.length ∧ bytes = slice f.data f.pos (f.pos + n) ∧
      f' = ⟨f.data, f.pos + n⟩ := by
  rcases Nat.lt_or_ge f.data.length (f.pos + n) with short | inside
  · rw [readExact_short positive short] at done
    cases done
  · rw [readExact_inside inside] at done
    cases done
    exact ⟨inside, rfl, rfl⟩

theorem readBe_eq_ok {f f' : File} (done : (readBe width).run f = .ok n f') :
    n = beAt f.data f.pos width ∧ f' = ⟨f.data, f.pos + width⟩ := by
  obtain ⟨bytes, g, read, rest⟩ := bind_eq_ok done
  change (if width = 0 ∨ f.pos + width ≤ f.data.length then _ else _) = _ at read
  split at read
  · cases read
    cases rest
    exact ⟨rfl, rfl⟩
  · cases read

/-- The cursor stands behind `front` and before `rest`. -/
def File.between (front rest : Bytes) : File := ⟨front ++ rest, front.length⟩

section Between
variable (front rest : Bytes)

theorem readExact_between (field : Bytes) :
    (readExact field.length).run (.between front (field ++ rest)) =
      .ok field (.between (front ++ field) rest) := by
  have inside : (File.between front (field ++ rest)).pos + field.length ≤
      (File.between front (field ++ rest)).data.length := by
    simp only [File.between, List.length_append]
    omega
  have found : slice (front ++ (field ++ rest)) front.length (front.length + field.length) =
      field :=
    slice_written (List.append_assoc ..).symm rfl rfl
  rw [readExact_inside inside]
  simp only [File.between, found, List.append_assoc, List.length_append]

theorem readBe_between (fits : n < 256 ^ width) :
    (readBe width).run (.between front (toBe width n ++ rest)) =
      .ok n (.between (front ++ toBe width n) rest) := by
  have found := readExact_between front rest (toBe width n)
  rw [toBe_length] at found
  rw [readBe, bind_ok found, beNat_toBe fits]
  rfl

theorem seekCurrent_between (field : Bytes) :
    (seekCurrent field.length).run (.between front (field ++ rest)) =
      .ok () (.between (front ++ field) rest) := by
  change EStateM.Result.ok () _ = _
  simp only [File.between, List.append_assoc, List.length_append]

theorem writeAll_end (bytes : Bytes) :
    (writeAll bytes).run (.between front []) = .ok () (.between (front ++ bytes) []) := by
  change (if bytes = [] then _ else _) = _
  split
  · rename_i empty
    simp [File.between, empty]
  · simp [File.between, List.drop_of_length_le]

theorem writeAll_between (some : bytes ≠ []) :
    (writeAll bytes).run (.between front rest) =
      .ok () (.between (front ++ bytes) (rest.drop bytes.length)) := by
  change (if bytes = [] then _ else _) = _
  simp [File.between, some, List.drop_append]

end Between

theorem writeAll_past {f : File} {bytes : Bytes} (some : bytes ≠ [])
    (past : f.data.length ≤ f.pos) :
    (writeAll bytes).run f =
      .ok () ⟨f.data ++ (List.replicate (f.pos - f.data.length) 0 ++ bytes),
        f.pos + bytes.length⟩ := by
  change (if bytes = [] then _ else _) = _
  rw [if_neg some, List.take_of_length_le past, List.drop_of_length_le (by omega),
    List.append_nil, List.append_assoc]

theorem writeAll_keeps {f : File} {front : Bytes} (some : bytes ≠ []) (there : front <+: f.data)
    (behind : front.length ≤ f.pos) :
    ∃ data, front <+: data ∧ f.pos + bytes.length ≤ data.length ∧
      (writeAll bytes).run f = .ok () ⟨data, f.pos + bytes.length⟩ := by
  refine ⟨_, ?_, ?_, if_neg some⟩
  · have kept : front <+: f.data.take f.pos := List.prefix_take_iff.mpr ⟨there, behind⟩
    simp only [List.append_assoc]
    exact kept.trans (List.prefix_append ..)
  · simp only [List.length_append, List.length_take, List.length_replicate, List.length_drop]
    omega

end ZetMQ.FileCursor
