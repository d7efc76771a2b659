import CydMonitor.Codec.Images
import CydMonitor.Rust.Decoder
import CydMonitor.Cpp.Decoder

/-!
# Frame integrity

Both codecs open a frame the same way, and the frames that open are the sealed
ones.
-/

namespace CydMonitor.Codec

open BigEndian

theorem crc32_eq (c : List UInt8) : Cpp.crc32 c = Rust.crc32 c := rfl

@[simp] theorem length_sealFrame (c : List UInt8) : (Rust.sealFrame c).length = c.length + 6 := by
  simp only [Rust.sealFrame, List.length_append, length_bytes]
  omega

private theorem take_sealFrame (c : List UInt8) :
    (Rust.sealFrame c).take 2 = bytes 2 (c.length + 4) := by
  simp [Rust.sealFrame, List.append_assoc]

private theorem drop_sealFrame (c : List UInt8) :
    (Rust.sealFrame c).drop 2 = c ++ bytes 4 (Rust.crc32 c).toNat := by
  simp [Rust.sealFrame, List.append_assoc]

/-- A frame opens when it is a sealed payload of the right length. -/
theorem framePayload_eq_ok {f c : List UInt8} :
    Rust.framePayload f = .ok c ↔ f = Rust.sealFrame c ∧ 1 ≤ c.length ∧ c.length ≤ 2042 := by
  constructor
  · intro h
    unfold Rust.framePayload at h
    dsimp only at h
    split_ifs at h with h7 hlarge hlength hcrc
    cases h
    rw [not_not] at hlength hcrc
    simp only [Rust.maxFrameBytes] at hlarge
    have hc : ((f.drop 2).take (f.length - 6)).length = f.length - 6 := by
      simp
      omega
    refine ⟨?_, by omega, by omega⟩
    have h1 : bytes 2 (f.length - 6 + 4) = f.take 2 := by
      have hvalue : f.length - 6 + 4 = value (f.take 2) := by omega
      rw [hvalue]
      exact bytes_of_value (by simp; omega)
    have h2 : bytes 4 (value (f.drop (f.length - 4))) = f.drop (f.length - 4) :=
      bytes_of_value (by simp; omega)
    rw [Rust.sealFrame, hc, hcrc, h1, h2]
    have hsplit : f.drop (f.length - 4) = (f.drop 2).drop (f.length - 6) := by
      rw [List.drop_drop]
      congr 1
      omega
    rw [hsplit, List.append_assoc, List.take_append_drop, List.take_append_drop]
  · rintro ⟨rfl, h1, h2⟩
    have hcrc := (Rust.crc32 c).toNat_lt
    have hdrop : (Rust.sealFrame c).drop (c.length + 2) = bytes 4 (Rust.crc32 c).toNat := by
      rw [Nat.add_comm, ← List.drop_drop, drop_sealFrame, List.drop_left]
    unfold Rust.framePayload
    rw [length_sealFrame, take_sealFrame, drop_sealFrame, value_bytes (by omega),
      if_neg (by omega), if_neg (by simp only [Rust.maxFrameBytes]; omega), if_neg (by omega)]
    have h6 : c.length + 6 - 6 = c.length := by omega
    have h4 : c.length + 6 - 4 = c.length + 2 := by omega
    rw [h6, h4, List.take_left, hdrop, value_bytes (by omega), if_neg (not_not.mpr rfl)]

/-- The two codecs open a frame, or reject it, alike. -/
theorem framePayload_parity (f : List UInt8) :
    (∃ c, Rust.framePayload f = .ok c ∧ Cpp.framePayload f = .ok c) ∨
      ∃ e, Rust.framePayload f = .error e ∧ Cpp.framePayload f = .error (ofError e) := by
  unfold Rust.framePayload Cpp.framePayload
  have hmax : Cpp.kMaxFrameBytes = Rust.maxFrameBytes := rfl
  rw [hmax]
  by_cases h7 : f.length < 7
  · exact Or.inr ⟨.truncated, if_pos h7, if_pos h7⟩
  rw [if_neg h7, if_neg h7]
  by_cases hlarge : value (f.take 2) > Rust.maxFrameBytes - 2
  · exact Or.inr ⟨.tooLarge, if_pos hlarge, if_pos hlarge⟩
  simp only [hlarge, if_false]
  by_cases hlength : value (f.take 2) + 2 ≠ f.length
  · exact Or.inr ⟨.truncated, if_pos hlength, if_pos hlength⟩
  rw [if_neg hlength, if_neg hlength]
  have hn : value (f.take 2) - 4 = f.length - 6 := by omega
  rw [hn, crc32_eq]
  by_cases hcrc : (Rust.crc32 ((f.drop 2).take (f.length - 6))).toNat ≠
      value (f.drop (f.length - 4))
  · exact Or.inr ⟨.badCrc, if_pos hcrc, if_pos hcrc⟩
  · exact Or.inl ⟨_, if_neg hcrc, if_neg hcrc⟩

end CydMonitor.Codec
