import ProxyServer.Foundation.Parts
import ProxyServer.Foundation.Runs
import ProxyServer.Request.BufferedMessage

/-!
# What `write_to` does

The parts of a message are written one behind the other. `cur_part` and
`write_length` are a cursor in them.
-/

namespace ProxyServer.BufferedMessage

variable {L : Type}

/-- What has been written of a message stands in front of its cursor. -/
structure Written (m : BufferedMessage L) (before : Bytes) : Prop where
  present : ∀ p ∈ m.cache, p ≠ []
  cursor : Parts.At m.cache m.curPart m.writeLength before

theorem canWrite_ne {m : BufferedMessage L} (h : m.canWrite = true) : m.curPart ≠ m.cache.length := by
  simp only [canWrite, decide_eq_true_eq] at h
  exact h.1

theorem Written.writeTo {m : BufferedMessage L} {before : Bytes} (written : Written m before)
    (more : m.curPart ≠ m.cache.length) (accepted : Nat) :
    ∃ bytes part offset, m.writeTo accepted = some (bytes, { m with curPart := part, writeLength := offset }) ∧
      Written { m with curPart := part, writeLength := offset } (before ++ bytes) := by
  obtain ⟨p, here, _⟩ := written.cursor.getElem? more
  have moved := written.cursor.advance written.present here accepted
  refine ⟨(p.drop m.writeLength).take accepted, ?_⟩
  simp only [BufferedMessage.writeTo, here, Option.bind_eq_bind, Option.bind_some]
  split at moved
  · rename_i whole
    exact ⟨m.curPart + 1, 0, by rw [if_pos whole], written.present, moved⟩
  · rename_i within
    exact ⟨m.curPart, m.writeLength + ((p.drop m.writeLength).take accepted).length, by rw [if_neg within],
      written.present, moved⟩

theorem Written.unsent {m : BufferedMessage L} {before : Bytes} (written : Written m before) :
    before ++ m.unsent = m.cache.flatten := written.cursor.rest

/-- What a write leaves: the part is written, or the cursor moves on in it. -/
inductive WriteCase (m : BufferedMessage L) (part bytes : Bytes) : BufferedMessage L → Prop
  | whole (all : m.writeLength + bytes.length = part.length) :
    WriteCase m part bytes { m with writeLength := 0, curPart := m.curPart + 1 }
  | within (left : m.writeLength + bytes.length ≠ part.length) :
    WriteCase m part bytes { m with writeLength := m.writeLength + bytes.length }

theorem writeTo_cases {m m' : BufferedMessage L} {accepted : Nat} {bytes : Bytes}
    (written : m.writeTo accepted = some (bytes, m')) :
    ∃ part, m.cache[m.curPart]? = some part ∧ bytes = (part.drop m.writeLength).take accepted ∧
      WriteCase m part bytes m' := by
  obtain ⟨part, here, step⟩ := Option.bind_eq_some_iff.mp written
  refine ⟨part, here, ?_⟩
  dsimp only at step
  split at step
  · rename_i all
    cases step
    exact ⟨rfl, .whole all⟩
  · rename_i left
    cases step
    exact ⟨rfl, .within left⟩

theorem writeTo_eq {m m' : BufferedMessage L} {accepted : Nat} {bytes : Bytes}
    (written : m.writeTo accepted = some (bytes, m')) :
    ∃ part offset, m' = { m with curPart := part, writeLength := offset } := by
  obtain ⟨part, _, _, moved⟩ := writeTo_cases written
  cases moved with
  | whole all => exact ⟨_, _, rfl⟩
  | within left => exact ⟨_, _, rfl⟩

theorem unsent_writeTo {m m' : BufferedMessage L} {accepted : Nat} {bytes : Bytes}
    (written : m.writeTo accepted = some (bytes, m')) : bytes ++ m'.unsent = m.unsent := by
  obtain ⟨part, here, taken, moved⟩ := writeTo_cases written
  have rest : m.cache.drop m.curPart = part :: m.cache.drop (m.curPart + 1) := by
    obtain ⟨bound, rfl⟩ := List.getElem?_eq_some_iff.mp here
    exact List.drop_eq_getElem_cons bound
  have prefix_ : bytes <+: part.drop m.writeLength := taken ▸ List.take_prefix _ _
  obtain ⟨left, split_⟩ := prefix_
  have size := congrArg List.length split_
  simp only [List.length_append, List.length_drop] at size
  cases moved with
  | whole all =>
    obtain rfl : left = [] := List.length_eq_zero_iff.mp (by omega)
    simp only [unsent, rest, List.flatten_cons, List.drop_zero]
    rw [List.drop_append_of_le_length (by omega), ← split_, List.append_nil]
  | within more =>
    simp only [unsent, rest, List.flatten_cons]
    by_cases inside : m.writeLength ≤ part.length
    · rw [List.drop_append_of_le_length inside, List.drop_append_of_le_length (by omega), ← List.append_assoc]
      congr 1
      rw [← List.drop_drop, ← split_, List.drop_left]
    · obtain rfl : bytes = [] := List.length_eq_zero_iff.mp (by omega)
      simp

theorem unsent_isWritten {m : BufferedMessage L} (written : m.isWritten = true) : m.unsent = [] := by
  simp only [isWritten, Bool.and_eq_true, decide_eq_true_eq] at written
  simp [unsent, written.2]

theorem unsent_start {m : BufferedMessage L} (part : m.curPart = 0) (offset : m.writeLength = 0) :
    m.unsent = m.getCache.flatten := by
  simp [unsent, part, offset, getCache]

theorem unsent_ofCache [Line L] {value : CachedMessage} {m : BufferedMessage L} (made : ofCache value = .ok m) :
    m.unsent = m.getCache.flatten := by
  obtain ⟨header, _, made⟩ := Runs.bind_ok.mp made
  cases made
  exact unsent_start rfl rfl

end ProxyServer.BufferedMessage
