import CydMonitor.Wifi.FlatJson

/-!
# The line reader of the sockets (`host/platform-macos/src/ipc.rs`)

A line is kept up to its bound; of a longer one the rest is discarded.
-/

namespace CydMonitor.Wifi

open Text (byte)

inductive LineEvent where
  | pending
  | line (line : List UInt8)
  | overflowed
  | oversizedEnd
  deriving DecidableEq

structure LineReader where
  max : ℕ
  line : List UInt8
  discarding : Bool
  deriving DecidableEq

namespace LineReader

def init (max : ℕ) : LineReader := { max, line := [], discarding := false }

def push (r : LineReader) (b : UInt8) : LineEvent × LineReader :=
  if b = byte '\n' then
    if r.discarding then (.oversizedEnd, { r with discarding := false })
    else (.line r.line, { r with line := [] })
  else if r.discarding then (.pending, r)
  else if r.max ≤ r.line.length then (.overflowed, { r with discarding := true, line := [] })
  else (.pending, { r with line := r.line ++ [b] })

/-- The reader has taken these bytes of a line. -/
structure Holds (max : ℕ) (r : LineReader) (cur : List UInt8) : Prop where
  bound : r.max = max
  unfinished : byte '\n' ∉ cur
  kept : cur.length ≤ max ∧ r.line = cur ∧ r.discarding = false ∨
    max < cur.length ∧ r.line = [] ∧ r.discarding = true

variable {max : ℕ} {r : LineReader} {cur : List UInt8}

theorem holds_init (max : ℕ) : Holds max (.init max) [] :=
  ⟨rfl, List.not_mem_nil, .inl ⟨Nat.zero_le _, rfl, rfl⟩⟩

theorem Holds.length_le (h : Holds max r cur) : r.line.length ≤ max := by
  obtain ⟨hle, hline, -⟩ | ⟨-, hline, -⟩ := h.kept
  · rwa [hline]
  · rw [hline]
    exact Nat.zero_le _

/-- A byte of a line: the first one over the bound is told. -/
theorem Holds.push (h : Holds max r cur) {b : UInt8} (hb : b ≠ byte '\n') :
    (r.push b).1 = (if cur.length = max then .overflowed else .pending) ∧
      Holds max (r.push b).2 (cur ++ [b]) := by
  have hopen : byte '\n' ∉ cur ++ [b] := by simp [h.unfinished, hb.symm]
  have hlength : (cur ++ [b]).length = cur.length + 1 := by simp
  rw [LineReader.push, if_neg hb, h.bound]
  obtain ⟨hle, hline, hdiscarding⟩ | ⟨hlt, hline, hdiscarding⟩ := h.kept
  · rw [hdiscarding, hline, if_neg Bool.false_ne_true]
    by_cases hfull : max ≤ cur.length
    · rw [if_pos hfull, if_pos (Nat.le_antisymm hle hfull)]
      exact ⟨rfl, rfl, hopen, .inr ⟨by omega, rfl, rfl⟩⟩
    · rw [if_neg hfull, if_neg (by omega)]
      exact ⟨rfl, rfl, hopen, .inl ⟨by omega, rfl, rfl⟩⟩
  · rw [hdiscarding, if_pos rfl, if_neg (by omega)]
    exact ⟨rfl, h.bound, hopen, .inr ⟨by omega, hline, hdiscarding⟩⟩

/-- The newline ends the line, unless it was too long to be kept. -/
theorem Holds.newline (h : Holds max r cur) :
    (r.push (byte '\n')).1 = (if cur.length ≤ max then .line cur else .oversizedEnd) ∧
      Holds max (r.push (byte '\n')).2 [] := by
  rw [LineReader.push, if_pos rfl]
  obtain ⟨hle, hline, hdiscarding⟩ | ⟨hlt, hline, hdiscarding⟩ := h.kept
  · rw [hdiscarding, hline, if_neg Bool.false_ne_true, if_pos hle]
    exact ⟨rfl, h.bound, List.not_mem_nil, .inl ⟨Nat.zero_le _, rfl, rfl⟩⟩
  · rw [hdiscarding, if_pos rfl, if_neg (Nat.not_le_of_lt hlt)]
    exact ⟨rfl, h.bound, List.not_mem_nil, .inl ⟨Nat.zero_le _, hline, rfl⟩⟩

end LineReader

end CydMonitor.Wifi
