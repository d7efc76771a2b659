import CydMonitor.Codec.KnownKeys
import CydMonitor.Codec.SnapshotBody

/-!
# The items of a metric group

As for envelopes and control bodies: the bytes of each item of a group's map, what
the Host's loop stores when it reads them, and the keys it read.
-/

namespace CydMonitor.Codec

open Cbor Scan

/-- A field of a group with `n` fields, before it was read. -/
structure FieldFits (n : ℕ) (value : ℕ → Option ℕ) (f : ℕ × ℕ) : Prop where
  key : f.1 < n
  fresh : value f.1 = none
  value : f.2 < 2 ^ 64

def storeField (value : ℕ → Option ℕ) (f : ℕ × ℕ) : ℕ → Option ℕ :=
  Function.update value f.1 (some f.2)

/-- Reading what the encoder writes. -/
theorem reads_fieldEntry {n : ℕ} (hn : n < 2 ^ 64) {value : ℕ → Option ℕ} {f : ℕ × ℕ}
    (h : FieldFits n value f) :
    Reads (Rust.fieldEntry n value) (Rust.uintEntries [f]) (storeField value f) := by
  obtain ⟨hkey, hfresh, hvalue⟩ := h
  rw [show f = (f.1, f.2) from rfl, uintEntries_single, uint_eq_head]
  refine (reads_expectUint (by omega) (by omega)).bind ?_
  rw [if_neg (by omega)]
  exact Reads.ensure_bind hfresh (reads_number hvalue (Reads.pure _))

/-- A round of the loop and the key it read. -/
theorem field_round {n : ℕ} {value value' : ℕ → Option ℕ} {l r : List UInt8} (keys : List ℕ)
    (h : Rust.fieldEntry n value l = .ok (value', r)) :
    ∃ j, keyEntry (fun _ => Rust.skipValue 4) keys l = .ok (keys ++ [j], r) ∧
      (j < n → ∃ f, f.1 = j ∧ FieldFits n value f ∧ l = Rust.uintEntries [f] ++ r ∧
        value' = storeField value f) := by
  obtain ⟨k, m, hk, h₁⟩ := bind_eq_ok.mp h
  obtain ⟨rfl, -⟩ := expectUint_eq_ok hk
  refine ⟨k, ?_, fun hlt => ?_⟩
  · have hskip : ∃ a, Rust.skipValue 4 m = .ok (a, r) := by
      split_ifs at h₁
      · obtain ⟨a, m', ha, h₂⟩ := bind_eq_ok.mp h₁
        cases h₂
        exact ⟨a, ha⟩
      · obtain ⟨-, h₂⟩ := ensure_bind_eq_ok.mp h₁
        obtain ⟨v, m', hv, h₃⟩ := bind_eq_ok.mp h₂
        cases h₃
        obtain ⟨a, ha, -⟩ := covers_uint _ _ _ hv
        exact ⟨a, ha⟩
    obtain ⟨a, ha⟩ := hskip
    unfold keyEntry
    rw [bind_ok hk, bind_ok ha]
    rfl
  · rw [if_neg (by omega)] at h₁
    obtain ⟨hfresh, h₂⟩ := ensure_bind_eq_ok.mp h₁
    obtain ⟨v, m', hv, h₃⟩ := bind_eq_ok.mp h₂
    cases h₃
    obtain ⟨rfl, hsmall⟩ := expectUint_eq_ok hv
    refine ⟨(k, v), rfl, ⟨hlt, hfresh, hsmall⟩, ?_, rfl⟩
    rw [uintEntries_single, uint_eq_head, uint_eq_head, List.append_assoc]

/-- Values under the keys `i`, `i + 1`, ... -/
def numbered (i : ℕ) : List ℕ → List (ℕ × ℕ)
  | [] => []
  | v :: vs => (i, v) :: numbered (i + 1) vs

theorem length_numbered (i : ℕ) (vs : List ℕ) : (numbered i vs).length = vs.length := by
  induction vs generalizing i with
  | nil => rfl
  | cons v vs ih => simp [numbered, ih]

theorem flatMap_numbered (fs : List (ℕ × ℕ)) :
    fs.flatMap (fun f => Rust.uintEntries [f]) = Rust.uintEntries fs := by
  induction fs with
  | nil => rfl
  | cons f fs ih =>
    simp only [List.flatMap_cons, ih]
    simp [Rust.uintEntries]

/-- Values under consecutive keys fit, and are what the loop holds at the end. -/
theorem admits_numbered {n : ℕ} {i : ℕ} {vs : List ℕ} {value : ℕ → Option ℕ}
    (hn : i + vs.length ≤ n) (hvs : ∀ v ∈ vs, v < 2 ^ 64) (hvalue : ∀ j, i ≤ j → value j = none) :
    Admits (FieldFits n) storeField value (numbered i vs) ∧
      (numbered i vs).foldl storeField value =
        fun j => if j < i then value j else vs[j - i]? := by
  induction vs generalizing i value with
  | nil =>
    refine ⟨trivial, ?_⟩
    funext j
    by_cases hj : j < i
    · simp [numbered, hj]
    · simp [numbered, hj, hvalue j (by omega)]
  | cons v vs ih =>
    simp only [List.length_cons] at hn
    have hstore : ∀ j, i + 1 ≤ j → storeField value (i, v) j = none := by
      intro j hj
      have hne : j ≠ i := by omega
      simp [storeField, hne, hvalue j (by omega)]
    obtain ⟨hadmits, hfinal⟩ := ih (by omega) (fun w hw => hvs w (List.mem_cons_of_mem v hw)) hstore
    refine ⟨⟨⟨by simp only; omega, hvalue i le_rfl, hvs v List.mem_cons_self⟩, hadmits⟩, ?_⟩
    simp only [numbered, List.foldl_cons, hfinal]
    funext j
    rcases Nat.lt_trichotomy j i with hj | rfl | hj
    · have hne : j ≠ i := by omega
      simp [storeField, hj, hne, show j < i + 1 by omega]
    · simp [storeField]
    · obtain ⟨d, rfl⟩ : ∃ d, j = i + 1 + d := ⟨j - (i + 1), by omega⟩
      have hidx : i + 1 + d - i = d + 1 := by omega
      rw [if_neg (by omega), if_neg (by omega), hidx, Nat.add_sub_cancel_left,
        List.getElem?_cons_succ]

/-- A group's map of consecutive fields is read back as its values. -/
theorem reads_groupFields {n : ℕ} {vs : List ℕ} (hlen : vs.length = n) (hn : n ≤ 16)
    (hvs : ∀ v ∈ vs, v < 2 ^ 64) :
    Reads (Rust.groupFields n) (Rust.uint 5 n ++ Rust.uintEntries (numbered 0 vs))
      fun j => vs[j]? := by
  have hnone : ∀ j, 0 ≤ j → (fun _ => none : ℕ → Option ℕ) j = none := fun _ _ => rfl
  obtain ⟨hadmits, hfinal⟩ := admits_numbered (n := n) (by omega) hvs hnone
  have hloop := Reads.items (fun _ _ h => reads_fieldEntry (by omega) h) hadmits
  rw [length_numbered, hlen, flatMap_numbered, hfinal] at hloop
  rw [uint_eq_head]
  refine (reads_expectUint (by omega) (by omega)).bind (Reads.ensure_bind hn ?_)
  simpa using hloop

/-- An item of the Network group: a number below key 10, a byte string from there on. -/
inductive NetworkItem where
  | number (key value : ℕ)
  | octets (key : ℕ) (value : List UInt8)

namespace NetworkItem

def key : NetworkItem → ℕ
  | number key _ => key
  | octets key _ => key

def bytes : NetworkItem → List UInt8
  | number key value => Rust.uintEntries [(key, value)]
  | octets key value => Rust.bytesEntry key value

def store (s : Rust.NetworkFields) : NetworkItem → Rust.NetworkFields
  | number key value => { s with value := Function.update s.value key (some value) }
  | octets key value =>
    if key = 13 then { s with links := some value }
    else { s with bytes := Function.update s.bytes (key - 10) (some value) }

/-- The item that the Host's locals hold for a key. -/
def held (s : Rust.NetworkFields) (key : ℕ) : Option NetworkItem :=
  if key < 10 then (s.value key).map (number key)
  else if key < 13 then (s.bytes (key - 10)).map (octets key)
  else if key = 13 then s.links.map (octets key)
  else none

/-- The value goes with its key, and the key was not read before. -/
structure Fits (s : Rust.NetworkFields) (i : NetworkItem) : Prop where
  typed : match i with
    | number key value => key < 10 ∧ value < 2 ^ 64
    | octets key value => 10 ≤ key ∧ key < 14 ∧ value.length ≤ 2048
  fresh : held s i.key = none

theorem held_store {s : Rust.NetworkFields} {i : NetworkItem} (h : i.Fits s) :
    held (i.store s) = Function.update (held s) i.key (some i) := by
  funext j
  cases i with
  | number k v =>
    obtain ⟨⟨hk, -⟩, -⟩ := h
    by_cases hj : j = k
    · subst hj
      simp [held, store, key, hk]
    · simp [held, store, key, hj]
  | octets k b =>
    obtain ⟨⟨h10, h14, -⟩, -⟩ := h
    by_cases hj : j = k
    · subst hj
      by_cases h13 : j = 13
      · subst h13
        simp [held, store, key]
      · simp [held, store, key, h13, show ¬j < 10 by omega, show j < 13 by omega]
    · by_cases h13 : k = 13
      · subst h13
        simp [held, store, key, hj]
      · have hslot : ¬j < 10 → j - 10 ≠ k - 10 := by omega
        by_cases hj10 : j < 10
        · simp [held, store, key, hj, h13, hj10]
        · simp [held, store, key, hj, h13, hj10, hslot hj10]

end NetworkItem

theorem reads_byteString {b : List UInt8} (h : b.length ≤ 2048) :
    Reads Rust.readByteString (Rust.uint 2 b.length ++ b) b := by
  rw [uint_eq_head]
  exact (reads_expectUint (by omega) (by omega)).bind (Reads.ensure_bind h (Reads.take rfl _))

theorem byteString_eq_ok {l r b : List UInt8} (h : Rust.readByteString l = .ok (b, r)) :
    l = Rust.uint 2 b.length ++ b ++ r ∧ b.length ≤ 2048 := by
  obtain ⟨len, m, hlen, h₁⟩ := bind_eq_ok.mp h
  obtain ⟨hle, h₂⟩ := ensure_bind_eq_ok.mp h₁
  obtain ⟨rfl, rfl⟩ := take_eq_ok.mp h₂
  obtain ⟨rfl, -⟩ := expectUint_eq_ok hlen
  exact ⟨by rw [uint_eq_head, List.append_assoc], hle⟩

/-- Reading what the encoder writes. -/
theorem reads_networkEntry {s : Rust.NetworkFields} {i : NetworkItem} (h : i.Fits s) :
    Reads (Rust.networkEntry s) i.bytes (i.store s) := by
  obtain ⟨htyped, hfresh⟩ := h
  cases i with
  | number k v =>
    obtain ⟨hk, hv⟩ := htyped
    have hnone : s.value k = none := by simpa [NetworkItem.held, NetworkItem.key, hk] using hfresh
    rw [NetworkItem.bytes, uintEntries_single, uint_eq_head]
    refine (reads_expectUint (by omega) (by omega)).bind ?_
    rw [if_neg (by omega), if_neg (by omega), if_neg (by omega)]
    exact Reads.ensure_bind hnone (reads_number hv (Reads.pure _))
  | octets k b =>
    obtain ⟨h10, h14, hb⟩ := htyped
    rw [NetworkItem.bytes, Rust.bytesEntry, List.append_assoc, uint_eq_head 0 k]
    refine (reads_expectUint (by omega) (by omega)).bind ?_
    rw [if_neg (by omega)]
    by_cases h13 : k = 13
    · subst h13
      have hnone : s.links = none := by simpa [NetworkItem.held, NetworkItem.key] using hfresh
      rw [if_pos rfl]
      exact Reads.ensure_bind hnone ((reads_byteString hb).bind_nil (Reads.pure _))
    · have hnone : s.bytes (k - 10) = none := by
        simpa [NetworkItem.held, NetworkItem.key, show ¬k < 10 by omega, show k < 13 by omega]
          using hfresh
      rw [if_neg h13, if_pos h10, NetworkItem.store, if_neg h13]
      exact Reads.ensure_bind hnone ((reads_byteString hb).bind_nil (Reads.pure _))

/-- A round of the loop and the key it read. -/
theorem network_round {s s' : Rust.NetworkFields} {l r : List UInt8} (keys : List ℕ)
    (h : Rust.networkEntry s l = .ok (s', r)) :
    ∃ j, keyEntry (fun _ => Rust.skipValue 4) keys l = .ok (keys ++ [j], r) ∧
      (j < 14 → ∃ i : NetworkItem, i.key = j ∧ i.Fits s ∧ l = i.bytes ++ r ∧ s' = i.store s) := by
  obtain ⟨k, m, hk, h₁⟩ := bind_eq_ok.mp h
  obtain ⟨rfl, -⟩ := expectUint_eq_ok hk
  have hprobe {a : Unit} (ha : Rust.skipValue 4 m = .ok (a, r)) :
      keyEntry (fun _ => Rust.skipValue 4) keys (head 0 k ++ m) = .ok (keys ++ [k], r) := by
    unfold keyEntry
    rw [bind_ok hk, bind_ok ha]
    rfl
  split_ifs at h₁ with hunknown hlinks h10
  · obtain ⟨a, m', ha, h₂⟩ := bind_eq_ok.mp h₁
    cases h₂
    exact ⟨k, hprobe ha, fun hlt => by omega⟩
  · obtain ⟨hnone, h₂⟩ := ensure_bind_eq_ok.mp h₁
    obtain ⟨b, m', hb, h₃⟩ := bind_eq_ok.mp h₂
    cases h₃
    obtain ⟨a, ha, -⟩ := covers_byteString _ _ _ hb
    refine ⟨k, hprobe ha, fun hlt => ⟨.octets k b, rfl, ⟨⟨by omega, by omega,
      (byteString_eq_ok hb).2⟩, ?_⟩, ?_, ?_⟩⟩
    · simp [NetworkItem.held, NetworkItem.key, hlinks, hnone]
    · rw [(byteString_eq_ok hb).1, NetworkItem.bytes, Rust.bytesEntry, uint_eq_head 0 k]
      simp only [List.append_assoc]
    · rw [NetworkItem.store, if_pos hlinks]
  · obtain ⟨hnone, h₂⟩ := ensure_bind_eq_ok.mp h₁
    obtain ⟨b, m', hb, h₃⟩ := bind_eq_ok.mp h₂
    cases h₃
    obtain ⟨a, ha, -⟩ := covers_byteString _ _ _ hb
    refine ⟨k, hprobe ha, fun hlt => ⟨.octets k b, rfl, ⟨⟨h10, hlt,
      (byteString_eq_ok hb).2⟩, ?_⟩, ?_, ?_⟩⟩
    · simp [NetworkItem.held, NetworkItem.key, show ¬k < 10 by omega, show k < 13 by omega, hnone]
    · rw [(byteString_eq_ok hb).1, NetworkItem.bytes, Rust.bytesEntry, uint_eq_head 0 k]
      simp only [List.append_assoc]
    · rw [NetworkItem.store, if_neg hlinks]
  · obtain ⟨hnone, h₂⟩ := ensure_bind_eq_ok.mp h₁
    obtain ⟨v, m', hv, h₃⟩ := bind_eq_ok.mp h₂
    cases h₃
    obtain ⟨a, ha, -⟩ := covers_uint _ _ _ hv
    obtain ⟨rfl, hsmall⟩ := expectUint_eq_ok hv
    refine ⟨k, hprobe ha, fun hlt => ⟨.number k v, rfl, ⟨⟨by omega, hsmall⟩, ?_⟩, ?_, rfl⟩⟩
    · simp [NetworkItem.held, NetworkItem.key, show k < 10 by omega, hnone]
    · rw [NetworkItem.bytes, uintEntries_single, uint_eq_head, uint_eq_head, List.append_assoc]

end CydMonitor.Codec
