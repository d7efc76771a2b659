import CydMonitor.Codec.EnvelopeTail

/-!
# The entries of an envelope

One constructor for each known key: the bytes the encoder writes for it, and what
the Host's loop stores when it reads them. Reading and writing an entry are
inverse to each other.
-/

namespace CydMonitor.Codec

open Cbor Scan

/-- A known entry of an envelope. -/
inductive Entry where
  | major
  | minor (v : UInt8)
  | kind (v : UInt8)
  | session (v : Rust.Identity)
  | sequence (v : UInt32)
  | body (u : List UInt8)
  | utcMs (v : UInt64)
  | uncertainty (v : UInt32)
  | offset (v : ℤ)

namespace Entry

def key : Entry → ℕ
  | major => 0
  | minor _ => 1
  | kind _ => 2
  | session _ => 3
  | sequence _ => 4
  | body _ => 5
  | utcMs _ => 6
  | uncertainty _ => 7
  | offset _ => 8

theorem key_lt (e : Entry) : e.key < 9 := by
  cases e <;> simp [key]

/-- The bytes of an entry, as the encoder writes them. -/
def bytes : Entry → List UInt8
  | major => Rust.uintEntries [(0, 1)]
  | minor v => Rust.uintEntries [(1, v.toNat)]
  | kind v => Rust.uintEntries [(2, v.toNat)]
  | session v => Rust.bytesEntry 3 v.val
  | sequence v => Rust.uintEntries [(4, v.toNat)]
  | body u => Rust.uint 0 5 ++ u
  | utcMs v => Rust.uintEntries [(6, v.toNat)]
  | uncertainty v => Rust.uintEntries [(7, v.toNat)]
  | offset v => Rust.uintEntries [(8, (v + 1440).toNat)]

/-- The Host's locals after an entry. -/
def store (s : Rust.EnvelopeFields) (e : Entry) : Rust.EnvelopeFields :=
  let s := { s with previous := some e.key }
  match e with
  | major => { s with major := some 1 }
  | minor v => { s with minor := some v }
  | kind v => { s with kind := some v }
  | session v => { s with session := some v }
  | sequence v => { s with sequence := some v }
  | body u => { s with body := some u }
  | utcMs v => { s with utcMs := some v }
  | uncertainty v => { s with uncertainty := some v }
  | offset v => { s with offset := some v }

/-- The entry is in order after `s`, and its value passes the Host's checks. -/
structure Fits (s : Rust.EnvelopeFields) (e : Entry) : Prop where
  order : ∀ old ∈ s.previous, old < e.key
  body : ∀ u, e = .body u → ∃ kind, s.kind = some (typeOf kind) ∧ Reads Rust.skipBody u () ∧
    (kind ≠ .snapshot → u.length ≤ 512)
  offset : ∀ v, e = .offset v → -1440 ≤ v ∧ v ≤ 1440

@[simp] theorem store_previous (s : Rust.EnvelopeFields) (e : Entry) :
    (e.store s).previous = some e.key := by
  cases e <;> rfl

end Entry

theorem reads_number {α : Type} {v : ℕ} {f : ℕ → Scan UInt8 Rust.Error α} {a : α}
    (hv : v < 2 ^ 64) (hf : Reads (f v) [] a) :
    Reads (Rust.expectUint 0 >>= f) (Rust.uint 0 v) a := by
  rw [uint_eq_head]
  exact (reads_expectUint (by omega) hv).bind_nil hf

theorem reads_bytes {n : ℕ} (hn : n < 2 ^ 64) (x : Octets n) :
    Reads (Rust.bytes n) (Rust.uint 2 x.val.length ++ x.val) x := by
  rw [uint_eq_head]
  have hlen : x.val.length = n := x.property
  rw [hlen]
  refine (reads_expectUint (by omega) hn).bind ?_
  exact Reads.ensure_bind rfl (reads_octets x _)

theorem uintEntries_single (k v : ℕ) :
    Rust.uintEntries [(k, v)] = Rust.uint 0 k ++ Rust.uint 0 v := by
  simp [Rust.uintEntries]

/-- The key of an entry comes first. -/
theorem Entry.bytes_eq (e : Entry) : ∃ u, e.bytes = Rust.uint 0 e.key ++ u := by
  cases e <;> exact ⟨_, by simp [Entry.bytes, Entry.key, Rust.bytesEntry, uintEntries_single]; rfl⟩

/-- A round of the loop is its key and its value. -/
private theorem reads_round {s s' : Rust.EnvelopeFields} {k : ℕ} {u : List UInt8}
    (hk : k < 2 ^ 64) (ho : ∀ old ∈ s.previous, old < k)
    (hv : Reads (Rust.envelopeValue { s with previous := some k } k) u s') :
    Reads (Rust.envelopeEntry s) (Rust.uint 0 k ++ u) s' := by
  rw [uint_eq_head]
  exact (reads_expectUint (by omega) hk).bind (Reads.ensure_bind ho hv)

theorem byte_toNat (v : UInt8) : Rust.byte v.toNat = .ok v := by
  have h : v.toNat ≤ 255 := by
    have := v.toNat_lt
    omega
  rw [byte_of_le h, UInt8.ofNat_toNat]

theorem word_toNat (v : UInt32) : Rust.word v.toNat = .ok v := by
  have h : v.toNat ≤ 2 ^ 32 - 1 := by
    have := v.toNat_lt
    omega
  rw [word_of_le h, UInt32.ofNat_toNat]

private theorem reads_byte {α : Type} (v : UInt8) (f : UInt8 → α) :
    Reads (Rust.expectUint 0 >>= fun n => lift (Rust.byte n) >>= fun b => pure (f b))
      (Rust.uint 0 v.toNat) (f v) := by
  have hv := v.toNat_lt
  exact reads_number (by omega) ((Reads.lift (byte_toNat v)).bind_nil (Reads.pure _))

private theorem reads_word {α : Type} (v : UInt32) (f : UInt32 → α) :
    Reads (Rust.expectUint 0 >>= fun n => lift (Rust.word n) >>= fun w => pure (f w))
      (Rust.uint 0 v.toNat) (f v) := by
  have hv := v.toNat_lt
  exact reads_number (by omega) ((Reads.lift (word_toNat v)).bind_nil (Reads.pure _))

/-- Reading what the encoder writes. -/
theorem reads_entry {s : Rust.EnvelopeFields} {e : Entry} (h : e.Fits s) :
    Reads (Rust.envelopeEntry s) e.bytes (e.store s) := by
  obtain ⟨ho, hbody, hoffset⟩ := h
  cases e with
  | major =>
    rw [Entry.bytes, uintEntries_single]
    refine reads_round (by omega) ho (reads_number (by omega) ?_)
    exact (Reads.lift (byte_toNat 1)).bind_nil (Reads.ensure_bind rfl (Reads.pure _))
  | minor v =>
    rw [Entry.bytes, uintEntries_single]
    exact reads_round (by omega) ho (reads_byte v _)
  | kind v =>
    rw [Entry.bytes, uintEntries_single]
    exact reads_round (by omega) ho (reads_byte v _)
  | session v =>
    rw [Entry.bytes, Rust.bytesEntry, List.append_assoc]
    exact reads_round (by omega) ho ((reads_bytes (by omega) v).bind_nil (Reads.pure _))
  | sequence v =>
    rw [Entry.bytes, uintEntries_single]
    exact reads_round (by omega) ho (reads_word v _)
  | body u =>
    obtain ⟨kind, hkind, hskip, hlen⟩ := hbody u rfl
    refine reads_round (by omega) ho ?_
    have hrequired : Rust.required s.kind = .ok (typeOf kind) := by rw [hkind]; rfl
    refine (Reads.lift hrequired).bind ((Reads.lift (messageType_eq_ok.mpr rfl)).bind
      (hskip.slice.bind_nil (Reads.ensure_bind (fun hc => ?_) (Reads.pure _))))
    exact absurd (hlen hc.1) (by omega)
  | utcMs v =>
    have hv := v.toNat_lt
    rw [Entry.bytes, uintEntries_single]
    refine reads_round (by omega) ho (reads_number (by omega) ?_)
    simpa [Entry.store, Entry.key] using Reads.pure _
  | uncertainty v =>
    rw [Entry.bytes, uintEntries_single]
    exact reads_round (by omega) ho (reads_word v _)
  | offset v =>
    obtain ⟨hlow, hhigh⟩ := hoffset v rfl
    rw [Entry.bytes, uintEntries_single]
    refine reads_round (by omega) ho (reads_number (by omega) ?_)
    refine Reads.ensure_bind (by omega) ?_
    have hv : ((v + 1440).toNat : ℤ) - 1440 = v := by omega
    rw [hv]
    exact Reads.pure _

theorem toNat_byte {v : ℕ} {b : UInt8} (h : Rust.byte v = .ok b) : v = b.toNat := by
  have hv := le_of_byte h
  rw [byte_of_le hv] at h
  cases h
  rw [UInt8.toNat_ofNat', Nat.mod_eq_of_lt (by omega)]

theorem toNat_word {v : ℕ} {w : UInt32} (h : Rust.word v = .ok w) : v = w.toNat := by
  have hv := le_of_word h
  rw [word_of_le hv] at h
  cases h
  rw [UInt32.toNat_ofNat', Nat.mod_eq_of_lt (by omega)]

theorem bytes_eq_ok {n : ℕ} {l r : List UInt8} {x : Octets n}
    (h : Rust.bytes n l = .ok (x, r)) : l = Rust.uint 2 x.val.length ++ x.val ++ r := by
  obtain ⟨len, m, hlen, h₁⟩ := bind_eq_ok.mp h
  obtain ⟨rfl, h₂⟩ := ensure_bind_eq_ok.mp h₁
  obtain ⟨rfl, -⟩ := expectUint_eq_ok hlen
  have hx : x.val.length = len := x.property
  rw [octets_eq_ok.mp h₂, uint_eq_head, hx, List.append_assoc]

private theorem number_ok {α : Type} {f : ℕ → Scan UInt8 Rust.Error α} {l r : List UInt8} {a : α}
    (h : (Rust.expectUint 0 >>= f) l = .ok (a, r)) :
    ∃ v m, v < 2 ^ 64 ∧ l = Rust.uint 0 v ++ m ∧ f v m = .ok (a, r) := by
  obtain ⟨v, m, hv, hf⟩ := bind_eq_ok.mp h
  obtain ⟨rfl, hlt⟩ := expectUint_eq_ok hv
  rw [← uint_eq_head]
  exact ⟨v, m, hlt, rfl, hf⟩

private theorem byte_ok {α : Type} {f : UInt8 → Scan UInt8 Rust.Error α} {l r : List UInt8}
    {a : α} (h : (Rust.expectUint 0 >>= fun v => lift (Rust.byte v) >>= f) l = .ok (a, r)) :
    ∃ b m, l = Rust.uint 0 b.toNat ++ m ∧ f b m = .ok (a, r) := by
  obtain ⟨v, m, -, rfl, hf⟩ := number_ok h
  obtain ⟨b, m', hb, hf'⟩ := bind_eq_ok.mp hf
  obtain ⟨hbyte, rfl⟩ := lift_eq_ok.mp hb
  rw [toNat_byte hbyte]
  exact ⟨b, m', rfl, hf'⟩

private theorem word_ok {α : Type} {f : UInt32 → Scan UInt8 Rust.Error α} {l r : List UInt8}
    {a : α} (h : (Rust.expectUint 0 >>= fun v => lift (Rust.word v) >>= f) l = .ok (a, r)) :
    ∃ w m, l = Rust.uint 0 w.toNat ++ m ∧ f w m = .ok (a, r) := by
  obtain ⟨v, m, -, rfl, hf⟩ := number_ok h
  obtain ⟨w, m', hw, hf'⟩ := bind_eq_ok.mp hf
  obtain ⟨hword, rfl⟩ := lift_eq_ok.mp hw
  rw [toNat_word hword]
  exact ⟨w, m', rfl, hf'⟩

/-- Every round of the Host's loop reads a known entry or skips an unknown one. -/
theorem entry_of_ok {s s' : Rust.EnvelopeFields} {l r : List UInt8}
    (h : Rust.envelopeEntry s l = .ok (s', r)) :
    (∃ e : Entry, e.Fits s ∧ l = e.bytes ++ r ∧ s' = e.store s) ∨
      ∃ k m, 8 < k ∧ Rust.expectUint 0 l = .ok (k, m) ∧ s' = { s with previous := some k } := by
  obtain ⟨k, m, hk, h₁⟩ := bind_eq_ok.mp h
  obtain ⟨ho, h₂⟩ := ensure_bind_eq_ok.mp h₁
  obtain ⟨rfl, -⟩ := expectUint_eq_ok hk
  rw [← uint_eq_head] at hk ⊢
  have hfits (e : Entry) (hkey : e.key = k) (hb : ∀ u, e ≠ .body u) (hz : ∀ v, e ≠ .offset v) :
      e.Fits s :=
    ⟨hkey ▸ ho, fun u hu => absurd hu (hb u), fun v hv => absurd hv (hz v)⟩
  match k with
  | 0 =>
    obtain ⟨b, m', rfl, h₃⟩ := byte_ok h₂
    obtain ⟨rfl, h₄⟩ := ensure_bind_eq_ok.mp h₃
    cases h₄
    refine Or.inl ⟨.major, hfits _ rfl (by simp) (by simp), ?_, rfl⟩
    rw [Entry.bytes, uintEntries_single, List.append_assoc]
    rfl
  | 1 =>
    obtain ⟨b, m', rfl, h₃⟩ := byte_ok h₂
    cases h₃
    refine Or.inl ⟨.minor b, hfits _ rfl (by simp) (by simp), ?_, rfl⟩
    rw [Entry.bytes, uintEntries_single, List.append_assoc]
  | 2 =>
    obtain ⟨b, m', rfl, h₃⟩ := byte_ok h₂
    cases h₃
    refine Or.inl ⟨.kind b, hfits _ rfl (by simp) (by simp), ?_, rfl⟩
    rw [Entry.bytes, uintEntries_single, List.append_assoc]
  | 3 =>
    obtain ⟨x, m', hx, h₃⟩ := bind_eq_ok.mp h₂
    cases h₃
    refine Or.inl ⟨.session x, hfits _ rfl (by simp) (by simp), ?_, rfl⟩
    rw [bytes_eq_ok hx, Entry.bytes, Rust.bytesEntry]
    simp only [List.append_assoc]
  | 4 =>
    obtain ⟨w, m', rfl, h₃⟩ := word_ok h₂
    cases h₃
    refine Or.inl ⟨.sequence w, hfits _ rfl (by simp) (by simp), ?_, rfl⟩
    rw [Entry.bytes, uintEntries_single, List.append_assoc]
  | 5 =>
    obtain ⟨code, m₁, hc, h₃⟩ := bind_eq_ok.mp h₂
    obtain ⟨hcode, rfl⟩ := lift_eq_ok.mp hc
    obtain ⟨kind, m₂, hm, h₄⟩ := bind_eq_ok.mp h₃
    obtain ⟨hkind, rfl⟩ := lift_eq_ok.mp hm
    obtain ⟨u, m₃, hu, h₅⟩ := bind_eq_ok.mp h₄
    obtain ⟨hlen, h₆⟩ := ensure_bind_eq_ok.mp h₅
    cases h₆
    obtain ⟨rfl, ⟨_, hskip⟩⟩ := local_skipBody.slice_eq_ok.mp hu
    refine Or.inl ⟨.body u, ⟨ho, fun u' hu' => ?_, fun v hv => ?_⟩, ?_, rfl⟩
    · cases hu'
      rw [messageType_eq_ok.mp hkind] at hcode
      exact ⟨kind, required_eq_ok.mp hcode, local_skipBody.run_prefix hskip, by
        intro hne
        by_contra hlong
        exact hlen ⟨hne, by omega⟩⟩
    · cases hv
    · rw [Entry.bytes, List.append_assoc]
  | 6 =>
    obtain ⟨v, m', hv, rfl, h₃⟩ := number_ok h₂
    cases h₃
    refine Or.inl ⟨.utcMs (UInt64.ofNat v), hfits _ rfl (by simp) (by simp), ?_, rfl⟩
    rw [Entry.bytes, uintEntries_single, List.append_assoc, UInt64.toNat_ofNat',
      Nat.mod_eq_of_lt hv]
  | 7 =>
    obtain ⟨w, m', rfl, h₃⟩ := word_ok h₂
    cases h₃
    refine Or.inl ⟨.uncertainty w, hfits _ rfl (by simp) (by simp), ?_, rfl⟩
    rw [Entry.bytes, uintEntries_single, List.append_assoc]
  | 8 =>
    obtain ⟨v, m', -, rfl, h₃⟩ := number_ok h₂
    obtain ⟨hle, h₄⟩ := ensure_bind_eq_ok.mp h₃
    cases h₄
    refine Or.inl ⟨.offset ((v : ℤ) - 1440), ⟨ho, fun u hu => ?_, fun z hz => ?_⟩, ?_, rfl⟩
    · cases hu
    · cases hz
      omega
    · have hv : ((v : ℤ) - 1440 + 1440).toNat = v := by omega
      rw [Entry.bytes, uintEntries_single, List.append_assoc, hv]
  | k + 9 =>
    right
    obtain ⟨_, _, -, h₃⟩ := bind_eq_ok.mp h₂
    cases h₃
    exact ⟨k + 9, m, by omega, hk, rfl⟩

end CydMonitor.Codec
