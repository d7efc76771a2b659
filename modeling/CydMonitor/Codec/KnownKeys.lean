import CydMonitor.Codec.Entries
import CydMonitor.Lib.Items

/-!
# Frames without unknown keys

Both decoders skip the entries of keys they do not know. Here the keys of a
frame's envelope and of its body are read for themselves.
-/

namespace CydMonitor.Codec

open Cbor Scan

/-- Reads one entry of a map and keeps its key. -/
def keyEntry (value : ℕ → Scan UInt8 Rust.Error Unit) (keys : List ℕ) :
    Scan UInt8 Rust.Error (List ℕ) := do
  let key ← Rust.expectUint 0
  value key
  pure (keys ++ [key])

/-- The keys of a map of numbered entries. -/
def mapKeys (value : ℕ → Scan UInt8 Rust.Error Unit) : Scan UInt8 Rust.Error (List ℕ) := do
  let count ← Rust.expectUint 5
  loop (keyEntry value) count []

def envelopeKeys : Scan UInt8 Rust.Error (List ℕ) :=
  mapKeys fun key => if key = 5 then Rust.skipBody else Rust.skipValue 4

def bodyKeys : Scan UInt8 Rust.Error (List ℕ) := mapKeys fun _ => Rust.skipValue 4

/-- The keys that were read are at most `known`. -/
def within (known : ℕ) : Except Rust.Error (List ℕ) → Bool
  | .ok keys => keys.all (· ≤ known)
  | .error _ => false

/-- The body map of a control message holds keys of its type only; an Error's body
is no map. -/
def bodyWithin (kind : Rust.MessageType) (body : List UInt8) : Bool :=
  match Rust.knownMax kind with
  | .ok known => within known (run bodyKeys body)
  | .error _ => true

/-- A frame whose envelope map and body map contain no unknown keys. -/
def knownKeys (frame : List UInt8) : Bool :=
  match Rust.framePayload frame, Rust.parseEnvelope frame with
  | .ok c, .ok (e, u) => within 8 (run envelopeKeys c) && bodyWithin e.kind u
  | _, _ => false

theorem within_eq_true {known : ℕ} {x : Except Rust.Error (List ℕ)} (h : within known x = true) :
    ∃ keys, x = .ok keys ∧ ∀ k ∈ keys, k ≤ known := by
  cases x with
  | ok keys => exact ⟨keys, rfl, by simpa [within] using h⟩
  | error e => simp [within] at h

/-- Whatever the Host's loop reads for a key, the skipper reads too. -/
private theorem covers_envelopeValue (s : Rust.EnvelopeFields) (k : ℕ) :
    Covers (Rust.envelopeValue s k) (if k = 5 then Rust.skipBody else Rust.skipValue 4) := by
  have hbyte {α : Type} (f : UInt8 → Scan UInt8 Rust.Error α) (hf : ∀ b, Silent (f b)) :
      Covers (Rust.expectUint 0 >>= fun v => lift (Rust.byte v) >>= f) (Rust.skipValue 4) :=
    Sim.bind_silent covers_uint fun _ => (Silent.lift _).bind hf
  have hword {α : Type} (f : UInt32 → Scan UInt8 Rust.Error α) (hf : ∀ b, Silent (f b)) :
      Covers (Rust.expectUint 0 >>= fun v => lift (Rust.word v) >>= f) (Rust.skipValue 4) :=
    Sim.bind_silent covers_uint fun _ => (Silent.lift _).bind hf
  match k with
  | 0 => exact hbyte _ fun _ => (Silent.ensure _ _).bind fun _ => Silent.pure _
  | 1 => exact hbyte _ fun _ => Silent.pure _
  | 2 => exact hbyte _ fun _ => Silent.pure _
  | 3 => exact Sim.bind_silent (covers_bytes 16) fun _ => Silent.pure _
  | 4 => exact hword _ fun _ => Silent.pure _
  | 5 =>
    refine Sim.silent_bind (Silent.lift _) fun _ => Sim.silent_bind (Silent.lift _) fun _ => ?_
    exact Sim.bind_silent (Sim.slice (Sim.refl (R := fun _ _ => True) (fun _ => trivial) _))
      fun _ => (Silent.ensure _ _).bind fun _ => Silent.pure _
  | 6 => exact Sim.bind_silent covers_uint fun _ => Silent.pure _
  | 7 => exact hword _ fun _ => Silent.pure _
  | 8 => exact Sim.bind_silent covers_uint fun _ => (Silent.ensure _ _).bind fun _ => Silent.pure _
  | k + 9 =>
    rw [if_neg (by omega)]
    exact Sim.bind_silent (Sim.refl (fun _ => trivial) _) fun _ => Silent.pure _

/-- A round of the Host's envelope loop and the key it read. -/
theorem envelope_round {s s' : Rust.EnvelopeFields} {l r : List UInt8} (keys : List ℕ)
    (h : Rust.envelopeEntry s l = .ok (s', r)) :
    ∃ j, keyEntry (fun key => if key = 5 then Rust.skipBody else Rust.skipValue 4) keys l =
      .ok (keys ++ [j], r) ∧
      (j ≤ 8 → ∃ e : Entry, e.key = j ∧ e.Fits s ∧ l = e.bytes ++ r ∧ s' = e.store s) := by
  have hentry := h
  obtain ⟨k, m, hk, h₁⟩ := bind_eq_ok.mp h
  obtain ⟨-, h₂⟩ := ensure_bind_eq_ok.mp h₁
  obtain ⟨_, hvalue, -⟩ := covers_envelopeValue _ k _ _ _ h₂
  refine ⟨k, ?_, fun hle => ?_⟩
  · unfold keyEntry
    rw [bind_ok hk, bind_ok hvalue]
    rfl
  · rcases entry_of_ok hentry with ⟨e, hfits, rfl, hs⟩ | ⟨k', m', hlt, hk', -⟩
    · obtain ⟨u, hu⟩ := e.bytes_eq
      obtain ⟨hl, hlt⟩ := expectUint_eq_ok hk
      rw [hu, uint_eq_head, List.append_assoc] at hl
      have hkey := e.key_lt
      exact ⟨e, (head_append_inj (by omega) (by omega) hlt hl).1, hfits, rfl, hs⟩
    · rw [hk] at hk'
      cases hk'
      omega

end CydMonitor.Codec
