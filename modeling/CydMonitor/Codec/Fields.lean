import CydMonitor.Codec.KnownKeys

/-!
# The fields of a control body

As for envelopes: the bytes of each field, and what the Host's loop stores when
it reads them.
-/

namespace CydMonitor.Codec

open Cbor Scan

/-- A field of a control body. -/
inductive Field where
  | number (key value : ℕ)
  | identity (key : ℕ) (value : Rust.Identity)

namespace Field

def key : Field → ℕ
  | number key _ => key
  | identity key _ => key

def bytes : Field → List UInt8
  | number key value => Rust.uintEntries [(key, value)]
  | identity key value => Rust.bytesEntry key value.val

def store (s : Rust.ControlFields) : Field → Rust.ControlFields
  | number key value =>
    { s with prior := some key, fields := Function.update s.fields key (some value) }
  | identity key value =>
    { s with prior := some key, identities := Function.update s.identities key (some value) }

/-- The value goes with its key: the identities of a Pair are byte strings. -/
def Typed (kind : Rust.MessageType) : Field → Prop
  | number key value => ¬(kind = .pair ∧ key < 2) ∧ value < 2 ^ 64
  | identity key _ => kind = .pair ∧ key < 2

structure Fits (kind : Rust.MessageType) (known : ℕ) (s : Rust.ControlFields) (f : Field) :
    Prop where
  order : ∀ old ∈ s.prior, old < f.key
  known : f.key ≤ known
  typed : f.Typed kind

theorem fits_iff {kind : Rust.MessageType} {known : ℕ} {s : Rust.ControlFields} {f : Field} :
    f.Fits kind known s ↔ (∀ old ∈ s.prior, old < f.key) ∧ f.key ≤ known ∧ f.Typed kind :=
  ⟨fun h => ⟨h.order, h.known, h.typed⟩, fun h => ⟨h.1, h.2.1, h.2.2⟩⟩

@[simp] theorem store_prior (s : Rust.ControlFields) (f : Field) :
    (f.store s).prior = some f.key := by
  cases f <;> rfl

/-- The field that the Host's locals hold for a key. -/
def held (kind : Rust.MessageType) (s : Rust.ControlFields) (key : ℕ) : Option Field :=
  if kind = .pair ∧ key < 2 then (s.identities key).map (identity key)
  else (s.fields key).map (number key)

theorem held_store {kind : Rust.MessageType} {known : ℕ} {s : Rust.ControlFields} {f : Field}
    (h : f.Fits kind known s) :
    held kind (f.store s) = Function.update (held kind s) f.key (some f) := by
  funext j
  cases f with
  | number k v =>
    have ht : ¬(kind = .pair ∧ k < 2) := h.typed.1
    by_cases hj : j = k
    · subst hj
      rw [key, Function.update_self]
      simp only [held, store, if_neg ht, Function.update_self]
      rfl
    · have hupdate (g : ℕ → Option ℕ) : Function.update g k (some v) j = g j :=
        Function.update_of_ne hj _ _
      rw [key, Function.update_of_ne hj]
      simp only [held, store, hupdate]
  | identity k x =>
    have ht : kind = .pair ∧ k < 2 := h.typed
    by_cases hj : j = k
    · subst hj
      simp [held, store, key, ht]
    · have hupdate (g : ℕ → Option Rust.Identity) : Function.update g k (some x) j = g j :=
        Function.update_of_ne hj _ _
      rw [key, Function.update_of_ne hj]
      simp only [held, store, hupdate]

end Field

/-- Reading what the encoder writes. -/
theorem reads_field {kind : Rust.MessageType} {known : ℕ} (hknown : known < 2 ^ 64)
    {s : Rust.ControlFields} {f : Field} (h : f.Fits kind known s) :
    Reads (Rust.controlEntry kind known s) f.bytes (f.store s) := by
  obtain ⟨ho, hle, htyped⟩ := h
  have hround {k : ℕ} {u : List UInt8} {s' : Rust.ControlFields} (hk : k ≤ known)
      (ho : ∀ old ∈ s.prior, old < k)
      (hu : Reads (if kind = .pair ∧ k < 2 then do
          let identity ← Rust.bytes 16
          pure { s with prior := some k,
                        identities := Function.update s.identities k (some identity) }
        else do
          let value ← Rust.expectUint 0
          pure { s with prior := some k, fields := Function.update s.fields k (some value) })
          u s') :
      Reads (Rust.controlEntry kind known s) (Rust.uint 0 k ++ u) s' := by
    rw [uint_eq_head]
    refine (reads_expectUint (by omega) (by omega)).bind (Reads.ensure_bind ho ?_)
    rw [if_neg (by omega)]
    exact hu
  cases f with
  | number k v =>
    rw [Field.bytes, uintEntries_single]
    obtain ⟨ht, hv⟩ := htyped
    refine hround hle ho ?_
    rw [if_neg ht]
    exact reads_number hv (Reads.pure _)
  | identity k x =>
    rw [Field.bytes, Rust.bytesEntry, List.append_assoc]
    have ht : kind = .pair ∧ k < 2 := htyped
    refine hround hle ho ?_
    rw [if_pos ht]
    exact (reads_bytes (by omega) x).bind_nil (Reads.pure _)

/-- A round of the Host's loop over a control body and the key it read. -/
theorem control_round {kind : Rust.MessageType} {known : ℕ} {s s' : Rust.ControlFields}
    {l r : List UInt8} (keys : List ℕ) (h : Rust.controlEntry kind known s l = .ok (s', r)) :
    ∃ j, keyEntry (fun _ => Rust.skipValue 4) keys l = .ok (keys ++ [j], r) ∧
      (j ≤ known → ∃ f : Field, f.key = j ∧ f.Fits kind known s ∧ l = f.bytes ++ r ∧
        s' = f.store s) := by
  obtain ⟨k, m, hk, h₁⟩ := bind_eq_ok.mp h
  obtain ⟨ho, h₂⟩ := ensure_bind_eq_ok.mp h₁
  obtain ⟨rfl, -⟩ := expectUint_eq_ok hk
  have hprobe {α : Type} {p : Scan UInt8 Rust.Error α} {a : α}
      (hp : Covers p (Rust.skipValue 4)) (ha : p m = .ok (a, r)) :
      keyEntry (fun _ => Rust.skipValue 4) keys (head 0 k ++ m) = .ok (keys ++ [k], r) := by
    obtain ⟨_, hskip, -⟩ := hp _ _ _ ha
    unfold keyEntry
    rw [bind_ok hk, bind_ok hskip]
    rfl
  refine ⟨k, ?_, fun hle => ?_⟩
  · split_ifs at h₂
    · exact hprobe (Sim.bind_silent (Sim.refl (R := fun _ _ => True) (fun _ => trivial) _)
        fun _ => Silent.pure _) h₂
    · exact hprobe (Sim.bind_silent (covers_bytes 16) fun _ => Silent.pure _) h₂
    · exact hprobe (Sim.bind_silent covers_uint fun _ => Silent.pure _) h₂
  · rw [if_neg (by omega)] at h₂
    rw [← uint_eq_head]
    split_ifs at h₂ with hpair
    · obtain ⟨x, m', hx, h₃⟩ := bind_eq_ok.mp h₂
      cases h₃
      refine ⟨.identity k x, rfl, ⟨ho, hle, hpair⟩, ?_, rfl⟩
      rw [bytes_eq_ok hx, Field.bytes, Rust.bytesEntry]
      simp only [List.append_assoc]
    · obtain ⟨v, m', hv, h₃⟩ := bind_eq_ok.mp h₂
      cases h₃
      obtain ⟨rfl, hlt⟩ := expectUint_eq_ok hv
      refine ⟨.number k v, rfl, ⟨ho, hle, hpair, hlt⟩, ?_, rfl⟩
      rw [Field.bytes, uintEntries_single, List.append_assoc, uint_eq_head 0 v]

end CydMonitor.Codec
