import CydMonitor.Codec.NumberedGroups

/-!
# The metric groups

What a snapshot's body needs of a group: it is read back from its bytes, and with
known and strictly increasing keys it has no other bytes.
-/

namespace CydMonitor.Codec

open Cbor Scan

/-- A group of the snapshot body with the keys below `known`. -/
structure MetricGroup (α : Type) where
  decode : Scan UInt8 Rust.Error α
  bytes : α → List UInt8
  known : ℕ
  Valid : α → Prop
  reads : ∀ a, Valid a → Reads decode (bytes a) a
  keyed : ∀ l r a, decode l = .ok (a, r) → ∃ keys, groupKeys l = .ok (keys, r)
  canonical : ∀ l r r' a keys, decode l = .ok (a, r) → groupKeys l = .ok (keys, r') →
    keys.Pairwise (· < ·) → (∀ k ∈ keys, k < known) → Valid a ∧ l = bytes a ++ r

theorem mac_eq_ok {b : List UInt8} {m : Option (Octets 6)} :
    Rust.mac b = .ok m ↔ b = m.elim [] (·.val) := by
  constructor
  · intro h
    rw [Rust.mac] at h
    split_ifs at h with h0 h6
    · cases h
      exact List.length_eq_zero_iff.mp h0
    · cases h
      rfl
  · rintro rfl
    cases m with
    | none => rfl
    | some m => simp [Rust.mac, m.property]

theorem linkFrom_eq_ok {b : UInt8} {k : Rust.RouteKind} :
    Rust.linkFrom b = .ok k ↔ k.isLink = true ∧ b = UInt8.ofNat k.code := by
  constructor
  · intro h
    rw [Rust.linkFrom] at h
    split_ifs at h with h1 h2 h3 <;> cases h <;> exact ⟨rfl, by assumption⟩
  · rintro ⟨hlink, rfl⟩
    cases k <;> first | rfl | cases hlink

theorem mapM_linkFrom_eq_ok {kinds : List UInt8} {links : List Rust.RouteKind} :
    kinds.mapM Rust.linkFrom = .ok links ↔
      (∀ k ∈ links, k.isLink = true) ∧ kinds = links.map fun k => UInt8.ofNat k.code := by
  induction kinds generalizing links with
  | nil =>
    cases links with
    | nil => simp [pure, Except.pure]
    | cons k links => simp [pure, Except.pure]
  | cons b kinds ih =>
    rw [List.mapM_cons, except_bind_eq_ok]
    constructor
    · rintro ⟨k, hk, h⟩
      obtain ⟨ks, hks, h⟩ := except_bind_eq_ok.mp h
      cases h
      obtain ⟨hlink, rfl⟩ := linkFrom_eq_ok.mp hk
      obtain ⟨hlinks, rfl⟩ := ih.mp hks
      exact ⟨List.forall_mem_cons.mpr ⟨hlink, hlinks⟩, rfl⟩
    · rintro ⟨hlinks, hkinds⟩
      cases links with
      | nil => cases hkinds
      | cons k links =>
        rw [List.map_cons, List.cons.injEq] at hkinds
        obtain ⟨hlink, hlinks⟩ := List.forall_mem_cons.mp hlinks
        refine ⟨k, linkFrom_eq_ok.mpr ⟨hlink, hkinds.1⟩, ?_⟩
        rw [ih.mpr ⟨hlinks, hkinds.2⟩]
        rfl

/-- The bytes of the list of active links. -/
def linkBytes (links : List Rust.RouteKind) : List UInt8 := links.map fun k => UInt8.ofNat k.code

theorem linksFrom_eq_ok {o : Option (List UInt8)} {links : Option (List Rust.RouteKind)} :
    Rust.linksFrom o = .ok links ↔
      (∀ ks ∈ links, ∀ k ∈ ks, k.isLink = true) ∧ o = links.map linkBytes := by
  cases o with
  | none => cases links <;> simp [Rust.linksFrom]
  | some kinds =>
    rw [Rust.linksFrom, except_map_eq_ok]
    simp only [mapM_linkFrom_eq_ok]
    cases links with
    | none => simp
    | some ks => simp [linkBytes]

theorem routeKind_code (k : Rust.RouteKind) :
    k.code ≤ 4 ∧ Rust.routeKindFrom k.code = k := by
  cases k <;> exact ⟨by decide, rfl⟩

theorem associationContext_code (a : Rust.AssociationContext) :
    a.code ≤ 6 ∧ Rust.associationContextFrom a.code = a := by
  cases a <;> exact ⟨by decide, rfl⟩

theorem coverage_code (c : Rust.WifiCoverage) :
    c.code ≤ 2 ∧ Rust.coverageFrom c.code = c := by
  cases c <;> exact ⟨by decide, rfl⟩

/-- The numbers under the keys 0 to 9. -/
def networkValues (n : Rust.NetworkSnapshot) : List ℕ :=
  [n.trafficAvailability.code, n.trafficAgeMs.toNat, n.routeKind.code, n.viaTunnel.toNat,
    n.rxBytesPerS.toNat, n.txBytesPerS.toNat, n.contextAvailability.code, n.contextAgeMs.toNat,
    n.coverage.code, n.channel.toNat]

/-- What the length checks leave of `is_valid`. -/
theorem isValid_bounds {n : Rust.NetworkSnapshot} (h : n.isValid = true) :
    n.ssid.length ≤ 32 ∧ ∀ ks ∈ n.links, ks.length ≤ 8 ∧ ∀ k ∈ ks, k.isLink = true := by
  rw [Rust.NetworkSnapshot.isValid] at h
  split_ifs at h with h1 h2 h3 h4 h5
  refine ⟨Nat.le_of_not_lt h4, fun ks hks => ?_⟩
  rw [Option.mem_def.mp hks] at h5
  simpa [Rust.maxLinks] using h5

/-- Building a valid group from its own fields. -/
theorem networkFrom_values {n : Rust.NetworkSnapshot} (h : n.isValid = true) :
    Rust.networkFrom (fun j => (networkValues n)[j]?.getD 0) (n.station.elim [] (·.val)) n.ssid
      (n.bssid.elim [] (·.val)) (n.links.map linkBytes) = .ok n := by
  have h1 := n.trafficAgeMs.toNat_lt
  have h7 := n.contextAgeMs.toNat_lt
  have h9 := n.channel.toNat_lt
  have h3 := n.viaTunnel.toNat_le
  have hlinks := linksFrom_eq_ok.mpr ⟨fun ks hks => ((isValid_bounds h).2 ks hks).2, rfl⟩
  have htunnel : (n.viaTunnel.toNat == 1) = n.viaTunnel := by cases n.viaTunnel <;> rfl
  rw [Rust.networkFrom, Rust.check, if_pos]
  · simp only [networkValues, List.getElem?_cons_succ, List.getElem?_cons_zero, Option.getD_some,
      availabilityFrom_code, mac_eq_ok.mpr rfl, hlinks, except_ok_bind, (routeKind_code _).2,
      (associationContext_code _).2, (coverage_code _).2, htunnel, UInt32.ofNat_toNat,
      UInt64.ofNat_toNat, UInt8.ofNat_toNat, Rust.check, if_pos h]
    rfl
  · simp only [networkValues, List.getElem?_cons_succ, List.getElem?_cons_zero, Option.getD_some]
    have h2 := (routeKind_code n.routeKind).1
    have h6 := (associationContext_code n.contextAvailability).1
    have h8 := (coverage_code n.coverage).1
    omega

/-- The fields that a group was built from. -/
theorem values_of_networkFrom {all : ℕ → ℕ} {station ssid bssid : List UInt8}
    {links : Option (List UInt8)} {n : Rust.NetworkSnapshot}
    (hall : ∀ j < 10, all j < 2 ^ 64) (h : Rust.networkFrom all station ssid bssid links = .ok n) :
    n.isValid = true ∧ (∀ j < 10, (networkValues n)[j]? = some (all j)) ∧
      station = n.station.elim [] (·.val) ∧ ssid = n.ssid ∧ bssid = n.bssid.elim [] (·.val) ∧
      links = n.links.map linkBytes := by
  obtain ⟨hcheck, h⟩ := check_bind_eq_ok.mp h
  obtain ⟨traffic, h0, h⟩ := except_bind_eq_ok.mp h
  obtain ⟨stationMac, hstation, h⟩ := except_bind_eq_ok.mp h
  obtain ⟨bssidMac, hbssid, h⟩ := except_bind_eq_ok.mp h
  obtain ⟨kinds, hkinds, h⟩ := except_bind_eq_ok.mp h
  obtain ⟨hvalid, h⟩ := check_bind_eq_ok.mp h
  cases h
  rw [availabilityFrom_eq_ok] at h0
  refine ⟨hvalid, fun j hj => ?_, mac_eq_ok.mp hstation, rfl, mac_eq_ok.mp hbssid,
    (linksFrom_eq_ok.mp hkinds).2⟩
  have h1 := toNat_word_of_le (v := all 1) (by omega)
  have h2 := routeKindFrom_code (v := all 2) (by omega)
  have h3 : (all 3 == 1).toNat = all 3 := by
    rcases (by omega : all 3 = 0 ∨ all 3 = 1) with h | h <;> rw [h] <;> rfl
  have h4 := toNat_long (hall 4 (by omega))
  have h5 := toNat_long (hall 5 (by omega))
  have h6 := associationContextFrom_code (v := all 6) (by omega)
  have h7 := toNat_word_of_le (v := all 7) (by omega)
  have h8 := coverageFrom_code (v := all 8) (by omega)
  have h9 := toNat_byte_of_le (v := all 9) (by omega)
  rcases (by omega : j = 0 ∨ j = 1 ∨ j = 2 ∨ j = 3 ∨ j = 4 ∨ j = 5 ∨ j = 6 ∨ j = 7 ∨ j = 8 ∨
    j = 9) with rfl | rfl | rfl | rfl | rfl | rfl | rfl | rfl | rfl | rfl <;>
    simp [networkValues, *]

/-- The entries of a group, in the encoder's order. -/
def networkItems (n : Rust.NetworkSnapshot) : List NetworkItem :=
  (numbered 0 (networkValues n)).map (fun f => .number f.1 f.2) ++
    [.octets 10 (n.station.elim [] (·.val)), .octets 11 n.ssid,
      .octets 12 (n.bssid.elim [] (·.val))] ++
    n.links.elim [] fun links => [.octets 13 (linkBytes links)]

def networkBytes (n : Rust.NetworkSnapshot) : List UInt8 :=
  Rust.uint 5 (networkItems n).length ++ (networkItems n).flatMap NetworkItem.bytes

/-- The Host's locals after the items of a group. -/
def networkState (n : Rust.NetworkSnapshot) : Rust.NetworkFields where
  value j := (networkValues n)[j]?
  bytes i := if i = 0 then some (n.station.elim [] (·.val)) else if i = 1 then some n.ssid
    else if i = 2 then some (n.bssid.elim [] (·.val)) else none
  links := n.links.map linkBytes

/-- Numbers alone: what holds of the shared loop holds of the Network loop. -/
theorem admits_numbers {s : Rust.NetworkFields} {fs : List (ℕ × ℕ)}
    (h : Admits (FieldFits 10) storeField s.value fs) :
    Admits NetworkItem.Fits NetworkItem.store s (fs.map fun f => .number f.1 f.2) ∧
      (fs.map fun f => NetworkItem.number f.1 f.2).foldl NetworkItem.store s =
        { s with value := fs.foldl storeField s.value } := by
  induction fs generalizing s with
  | nil => exact ⟨trivial, rfl⟩
  | cons f fs ih =>
    obtain ⟨hfits, hrest⟩ := h
    obtain ⟨hadmits, hfinal⟩ := ih (s := NetworkItem.store s (.number f.1 f.2)) hrest
    refine ⟨⟨⟨⟨hfits.key, hfits.value⟩, ?_⟩, hadmits⟩, hfinal⟩
    simp [NetworkItem.held, NetworkItem.key, hfits.key, hfits.fresh]

theorem networkValues_lt (n : Rust.NetworkSnapshot) : ∀ v ∈ networkValues n, v < 2 ^ 64 := by
  have h1 := n.trafficAgeMs.toNat_lt
  have h2 := (routeKind_code n.routeKind).1
  have h3 := n.viaTunnel.toNat_le
  have h4 := n.rxBytesPerS.toNat_lt
  have h5 := n.txBytesPerS.toNat_lt
  have h6 := (associationContext_code n.contextAvailability).1
  have h7 := n.contextAgeMs.toNat_lt
  have h8 := (coverage_code n.coverage).1
  have h9 := n.channel.toNat_lt
  simp only [networkValues, List.mem_cons, List.not_mem_nil, or_false, forall_eq_or_imp, forall_eq]
  exact ⟨availability_code_lt _, by omega, by omega, by omega, h4, h5, by omega, by omega,
    by omega, by omega⟩

/-- A valid group's items are admitted, and lead to its state. -/
theorem admits_networkItems {n : Rust.NetworkSnapshot} (h : n.isValid = true) :
    Admits NetworkItem.Fits NetworkItem.store ⟨fun _ => none, fun _ => none, none⟩
        (networkItems n) ∧
      (networkItems n).foldl NetworkItem.store ⟨fun _ => none, fun _ => none, none⟩ =
        networkState n := by
  obtain ⟨hssid, hlinks⟩ := isValid_bounds h
  have hnone : ∀ j, 0 ≤ j → (fun _ => none : ℕ → Option ℕ) j = none := fun _ _ => rfl
  have hten : 0 + (networkValues n).length ≤ 10 := le_refl _
  obtain ⟨hadmits, hvalue⟩ := admits_numbered hten (networkValues_lt n) hnone
  obtain ⟨hnumbers, hstate⟩ := admits_numbers (s := ⟨fun _ => none, fun _ => none, none⟩) hadmits
  have hmac (m : Option (Octets 6)) : (m.elim [] (·.val)).length ≤ 2048 := by
    cases m with
    | none => exact Nat.zero_le _
    | some m =>
      have hsix := m.property
      simp only [Option.elim_some]
      omega
  have hlinkBytes : ∀ ks ∈ n.links, (linkBytes ks).length ≤ 2048 := fun ks hks => by
    have height := (hlinks ks hks).1
    rw [linkBytes, List.length_map]
    omega
  have hbytes (links : Option (List UInt8)) : (⟨fun j => (networkValues n)[j]?,
      Function.update (Function.update (Function.update (fun _ => none) 0
        (some (n.station.elim [] (·.val)))) 1 (some n.ssid)) 2 (some (n.bssid.elim [] (·.val))),
      links⟩ : Rust.NetworkFields) = ⟨(networkState n).value, (networkState n).bytes, links⟩ := by
    rw [Rust.NetworkFields.mk.injEq]
    refine ⟨rfl, ?_, rfl⟩
    funext i
    match i with
    | 0 => rfl
    | 1 => rfl
    | 2 => rfl
    | i + 3 => rfl
  have hssid : n.ssid.length ≤ 2048 := by omega
  rw [networkItems, List.append_assoc, admits_append, List.foldl_append, hstate, hvalue]
  cases hkinds : n.links with
  | none =>
    refine ⟨⟨hnumbers, ⟨⟨by decide, by decide, hmac _⟩, rfl⟩, ⟨⟨by decide, by decide, hssid⟩, rfl⟩,
      ⟨⟨by decide, by decide, hmac _⟩, rfl⟩, trivial⟩, (hbytes none).trans ?_⟩
    rw [networkState, hkinds]
    rfl
  | some links =>
    have hshort := hlinkBytes links (by rw [hkinds]; rfl)
    refine ⟨⟨hnumbers, ⟨⟨by decide, by decide, hmac _⟩, rfl⟩, ⟨⟨by decide, by decide, hssid⟩, rfl⟩,
      ⟨⟨by decide, by decide, hmac _⟩, rfl⟩, ⟨⟨by decide, by decide, hshort⟩, rfl⟩, trivial⟩,
      (hbytes (some (linkBytes links))).trans ?_⟩
    rw [networkState, hkinds]
    rfl

theorem length_networkItems (n : Rust.NetworkSnapshot) :
    (networkItems n).length = 13 + n.links.isSome.toNat := by
  cases hkinds : n.links <;> simp [networkItems, hkinds, length_numbered, networkValues]

theorem reads_networkGroup {n : Rust.NetworkSnapshot} (h : n.isValid = true) :
    Reads Rust.decodeNetworkGroup (networkBytes n) n := by
  obtain ⟨hadmits, hfinal⟩ := admits_networkItems h
  have hloop := Reads.items (fun _ _ h => reads_networkEntry h) hadmits
  rw [hfinal] at hloop
  have hlen := length_networkItems n
  have hcount : (networkItems n).length ≤ 16 := by
    have hone := n.links.isSome.toNat_le
    omega
  have hfields : Reads Rust.networkFields (networkBytes n) (networkState n) := by
    rw [networkBytes, uint_eq_head]
    exact (reads_expectUint (by omega) (by omega)).bind (Reads.ensure_bind hcount hloop)
  refine hfields.bind_nil (Reads.bind_nil (Reads.lift (if_pos fun k hk => ?_)) ?_)
  · change ((networkValues n)[k]?).isSome
    rw [List.getElem?_eq_getElem hk]
    rfl
  · exact (Reads.lift rfl).bind_nil <| (Reads.lift rfl).bind_nil <| (Reads.lift rfl).bind_nil <|
      Reads.lift (networkFrom_values h)

/-- The items that the state of a group holds are its own. -/
theorem filterMap_held (n : Rust.NetworkSnapshot) :
    (List.range 14).filterMap (NetworkItem.held (networkState n)) = networkItems n := by
  cases hkinds : n.links <;>
    simp [List.range_succ, NetworkItem.held, networkState, networkItems, networkValues, numbered,
      hkinds]

theorem networkGroup_canonical {l r r' : List UInt8} {n : Rust.NetworkSnapshot} {keys : List ℕ}
    (h : Rust.decodeNetworkGroup l = .ok (n, r)) (hkeys : groupKeys l = .ok (keys, r'))
    (hsorted : keys.Pairwise (· < ·)) (hknown : ∀ k ∈ keys, k < 14) :
    n.isValid = true ∧ l = networkBytes n ++ r := by
  obtain ⟨s, m, hfields, h₁⟩ := bind_eq_ok.mp h
  obtain ⟨all, m₁, hall, h₂⟩ := bind_eq_ok.mp h₁
  obtain ⟨hcollect, rfl⟩ := lift_eq_ok.mp hall
  obtain ⟨station, m₂, hstation, h₃⟩ := bind_eq_ok.mp h₂
  obtain ⟨hb0, rfl⟩ := lift_eq_ok.mp hstation
  obtain ⟨ssid, m₃, hssid, h₄⟩ := bind_eq_ok.mp h₃
  obtain ⟨hb1, rfl⟩ := lift_eq_ok.mp hssid
  obtain ⟨bssid, m₄, hbssid, h₅⟩ := bind_eq_ok.mp h₄
  obtain ⟨hb2, rfl⟩ := lift_eq_ok.mp hbssid
  obtain ⟨hbuild, rfl⟩ := lift_eq_ok.mp h₅
  obtain ⟨count, l₁, hcount, h₆⟩ := bind_eq_ok.mp hfields
  obtain ⟨-, hloop⟩ := ensure_bind_eq_ok.mp h₆
  obtain ⟨count', l₁', hcount', hprobe⟩ := bind_eq_ok.mp hkeys
  rw [hcount] at hcount'
  cases hcount'
  obtain ⟨rfl, js, items, hjs, hmap, hlen, hadmits, hl, hvalue⟩ :=
    items_of_loop (R := fun j i => NetworkItem.key i = j)
      (fun _ _ _ _ keys h => network_round keys h)
      hloop hprobe hknown
  obtain rfl : keys = js := hjs
  replace hmap : items.map NetworkItem.key = keys :=
    List.forall₂_eq_eq_eq ▸ List.forall₂_map_left_iff.mpr hmap.flip
  have hlt : ∀ i ∈ items, NetworkItem.key i < 14 := fun i hi =>
    hknown _ (hmap ▸ List.mem_map_of_mem hi)
  have hitems := items_sorted (fun _ _ h => NetworkItem.held_store h) hadmits
    (hmap.symm ▸ hsorted) hlt fun j => by simp [NetworkItem.held]
  rw [← hvalue] at hitems
  -- all required fields were there
  rw [Rust.collect] at hcollect
  split_ifs at hcollect with hsome
  cases hcollect
  have hnumber (j : ℕ) (hj : j < 10) : s.value j = some ((s.value j).getD 0) := by
    obtain ⟨v, hv⟩ := Option.isSome_iff_exists.mp (hsome j hj)
    rw [hv]
    rfl
  have hbound (j : ℕ) (hj : j < 10) : (s.value j).getD 0 < 2 ^ 64 := by
    have hmem : .number j ((s.value j).getD 0) ∈ items := by
      rw [← hitems]
      apply List.mem_filterMap.mpr
      refine ⟨j, List.mem_range.mpr (by omega), ?_⟩
      rw [NetworkItem.held, if_pos hj, hnumber j hj]
      rfl
    obtain ⟨_, hfits⟩ := hadmits.exists_fits hmem
    exact hfits.typed.2
  obtain ⟨hvalid, hvalues, rfl, rfl, rfl, hlinks⟩ := values_of_networkFrom hbound hbuild
  have hheld : ∀ j ∈ List.range 14, NetworkItem.held s j = NetworkItem.held (networkState n) j := by
    intro j hj
    have hlt := List.mem_range.mp hj
    by_cases h10 : j < 10
    · simp only [NetworkItem.held, if_pos h10, networkState, hvalues j h10, ← hnumber j h10]
    · rw [required_eq_ok] at hb0 hb1 hb2
      rcases (by omega : j = 10 ∨ j = 11 ∨ j = 12 ∨ j = 13) with rfl | rfl | rfl | rfl <;>
        simp [NetworkItem.held, networkState, hb0, hb1, hb2, hlinks]
  rw [List.filterMap_congr hheld, filterMap_held] at hitems
  refine ⟨hvalid, ?_⟩
  rw [networkBytes, (expectUint_eq_ok hcount).1, hl, ← hlen, hitems, uint_eq_head,
    List.append_assoc]

theorem groupKeys_of_loop {σ : Type} {entry : σ → Scan UInt8 Rust.Error σ}
    (hround : ∀ s l s' r keys, entry s l = .ok (s', r) →
      ∃ j, keyEntry (fun _ => Rust.skipValue 4) keys l = .ok (keys ++ [j], r))
    {s s' : σ} {l r : List UInt8} (h : (do
      let count ← Rust.expectUint 5
      ensure (count ≤ 16) .malformed
      loop entry count s : Scan UInt8 Rust.Error σ) l = .ok (s', r)) :
    ∃ keys, groupKeys l = .ok (keys, r) := by
  obtain ⟨count, m, hcount, h₁⟩ := bind_eq_ok.mp h
  obtain ⟨-, hloop⟩ := ensure_bind_eq_ok.mp h₁
  obtain ⟨keys, hkeys⟩ := loop_noted hround [] hloop
  exact ⟨keys, bind_eq_ok.mpr ⟨count, m, hcount, hkeys⟩⟩

theorem groupFields_keyed {α : Type} {n : ℕ} {build : (ℕ → Option ℕ) → Except Rust.Error α}
    {l r : List UInt8} {a : α}
    (h : (Rust.groupFields n >>= fun value => lift (build value)) l = .ok (a, r)) :
    ∃ keys, groupKeys l = .ok (keys, r) := by
  obtain ⟨value, m, hfields, hlift⟩ := bind_eq_ok.mp h
  obtain ⟨-, rfl⟩ := lift_eq_ok.mp hlift
  exact groupKeys_of_loop (fun _ _ _ _ keys h => (field_round keys h).imp fun _ h => h.1) hfields

theorem networkGroup_keyed {l r : List UInt8} {n : Rust.NetworkSnapshot}
    (h : Rust.decodeNetworkGroup l = .ok (n, r)) : ∃ keys, groupKeys l = .ok (keys, r) := by
  obtain ⟨s, m, hfields, h₁⟩ := bind_eq_ok.mp h
  have hsilent : Silent (do
      let all ← lift (Rust.collect 10 s.value)
      let station ← lift (Rust.required (s.bytes 0))
      let ssid ← lift (Rust.required (s.bytes 1))
      let bssid ← lift (Rust.required (s.bytes 2))
      lift (Rust.networkFrom all station ssid bssid s.links) :
        Scan UInt8 Rust.Error Rust.NetworkSnapshot) :=
    (Silent.lift _).bind fun _ => (Silent.lift _).bind fun _ => (Silent.lift _).bind fun _ =>
      (Silent.lift _).bind fun _ => Silent.lift _
  obtain rfl := hsilent _ _ _ h₁
  exact groupKeys_of_loop (fun _ _ _ _ keys h => (network_round keys h).imp fun _ h => h.1) hfields

def NumberedGroup.metric {α : Type} (G : NumberedGroup α) : MetricGroup α where
  decode := G.decode
  bytes := G.bytes
  known := G.n
  Valid := G.Valid
  reads _ h := G.reads_decode h
  keyed _ _ _ h := groupFields_keyed h
  canonical _ _ _ _ _ h hkeys hsorted hknown :=
    have hcanonical := G.canonical h hkeys hsorted hknown
    ⟨hcanonical.1, hcanonical.2.1⟩

def networkMetric : MetricGroup Rust.NetworkSnapshot where
  decode := Rust.decodeNetworkGroup
  bytes := networkBytes
  known := 14
  Valid n := n.isValid = true
  reads _ h := reads_networkGroup h
  keyed _ _ _ h := networkGroup_keyed h
  canonical _ _ _ _ _ h hkeys hsorted hknown := networkGroup_canonical h hkeys hsorted hknown

theorem decodeStorageGroup_eq : Rust.decodeStorageGroup = storageNumbered.decode :=
  congrArg (Rust.groupFields 8 >>= ·) (funext fun _ => (lift_bind _ _).symm)

theorem decodeBatteryGroup_eq : Rust.decodeBatteryGroup = batteryNumbered.decode :=
  congrArg (Rust.groupFields 10 >>= ·) (funext fun _ => (lift_bind _ _).symm)

theorem decodeAgentsGroup_eq : Rust.decodeAgentsGroup = agentsNumbered.decode :=
  congrArg (Rust.groupFields 7 >>= ·) (funext fun _ => (lift_bind _ _).symm)

theorem ramGroup_eq (r : Rust.RamSnapshot) :
    Rust.ramGroup r = Rust.uint 0 5 ++ ramNumbered.metric.bytes r := by
  rw [Rust.ramGroup, List.append_assoc]
  rfl

theorem storageGroup_eq (s : Rust.StorageSnapshot) :
    Rust.storageGroup s = Rust.uint 0 6 ++ storageNumbered.metric.bytes s := by
  rw [Rust.storageGroup, List.append_assoc]
  rfl

theorem batteryGroup_eq (b : Rust.BatterySnapshot) :
    Rust.batteryGroup b = Rust.uint 0 7 ++ batteryNumbered.metric.bytes b := by
  rw [Rust.batteryGroup, List.append_assoc]
  rfl

/-- The states under the keys from 2 on. -/
theorem numbered_map (i : ℕ) (states : List UInt8) :
    numbered (2 + i) (states.map (·.toNat)) =
      (states.zipIdx i).map fun s => (2 + s.2, s.1.toNat) := by
  induction states generalizing i with
  | nil => rfl
  | cons s states ih => simp [numbered, Nat.add_assoc, ih]

theorem agentsGroup_eq (a : Rust.AgentsSnapshot) :
    Rust.agentsGroup a = Rust.uint 0 8 ++ agentsNumbered.metric.bytes a := by
  have hstates := numbered_map 0 a.state.val
  rw [Rust.agentsGroup, ← hstates, List.append_assoc, List.append_assoc]
  congr 1
  simp only [NumberedGroup.metric, NumberedGroup.bytes, agentsNumbered, NumberedGroup.collected,
    agentsValues, numbered, Rust.uintEntries, List.flatMap_cons, List.flatMap_nil,
    List.append_nil, List.append_assoc]
  rfl

theorem networkGroup_eq (n : Rust.NetworkSnapshot) :
    Rust.networkGroup n = Rust.uint 0 9 ++ networkMetric.bytes n := by
  have hnumbers (fs : List (ℕ × ℕ)) :
      (fs.map fun f => NetworkItem.number f.1 f.2).flatMap NetworkItem.bytes =
        Rust.uintEntries fs := by
    rw [List.flatMap_map]
    exact flatMap_numbered fs
  have hlen := length_networkItems n
  change _ = Rust.uint 0 9 ++ networkBytes n
  rw [Rust.networkGroup, networkBytes, hlen, networkItems, List.flatMap_append,
    List.flatMap_append, hnumbers]
  cases hkinds : n.links <;>
    simp only [Option.isSome_none, Option.isSome_some, Option.elim_none, Option.elim_some,
      List.flatMap_cons, List.flatMap_nil, List.append_nil, List.append_assoc,
      NetworkItem.bytes] <;>
    rfl

end CydMonitor.Codec
