import CydMonitor.Codec.Groups

/-!
# The Network group agrees

The group with byte strings, an optional field and rules across its fields.
-/

namespace CydMonitor.Codec

open Cbor Scan

/-- The device's arrays for the Host's Network fields. -/
def networkView (s : Rust.NetworkFields) : Cpp.NetworkFields :=
  { seen := fun k => if k < 10 then (s.value k).isSome
      else if k < 13 then (s.bytes (k - 10)).isSome else k == 13 && s.links.isSome,
    value := fun k => (s.value k).getD 0,
    bytes := fun i => if i = 3 then s.links.getD [] else (s.bytes i).getD [] }

theorem networkView_value (s : Rust.NetworkFields) {k : ℕ} (hk : k < 10) (v : ℕ) :
    networkView { s with value := Function.update s.value k (some v) } =
      { networkView s with
        seen := Function.update (networkView s).seen k true,
        value := Function.update (networkView s).value k v } := by
  simp only [networkView, Cpp.NetworkFields.mk.injEq, and_true]
  constructor <;>
    · funext j
      by_cases h : j = k
      · subst h; simp [hk]
      · simp [Function.update_of_ne h]

theorem networkView_bytes (s : Rust.NetworkFields) {k : ℕ} (h₁ : 10 ≤ k) (h₂ : k < 13)
    (b : List UInt8) :
    networkView { s with bytes := Function.update s.bytes (k - 10) (some b) } =
      { networkView s with
        seen := Function.update (networkView s).seen k true,
        bytes := Function.update (networkView s).bytes (k - 10) b } := by
  simp only [networkView, Cpp.NetworkFields.mk.injEq, true_and]
  constructor
  · funext j
    by_cases h : j = k
    · subst h; simp [h₂, show ¬j < 10 by omega]
    · rw [Function.update_of_ne h]
      by_cases hj : j < 10
      · simp [hj]
      · rw [Function.update_of_ne (show j - 10 ≠ k - 10 by omega)]
  · funext j
    by_cases h : j = k - 10
    · subst h; simp [show k - 10 ≠ 3 by omega]
    · simp [Function.update_of_ne h]

theorem networkView_links (s : Rust.NetworkFields) (b : List UInt8) :
    networkView { s with links := some b } =
      { networkView s with
        seen := Function.update (networkView s).seen 13 true,
        bytes := Function.update (networkView s).bytes 3 b } := by
  simp only [networkView, Cpp.NetworkFields.mk.injEq, true_and]
  constructor
  · funext j
    by_cases h : j = 13
    · subst h; simp
    · simp [Function.update_of_ne h, beq_eq_false_iff_ne.mpr h]
  · funext j
    by_cases h : j = 3
    · subst h; simp
    · simp [h]

theorem alike_byteString :
    Alike Cpp.kMaxFrameBytes Malformed Eq Rust.readByteString Cpp.readBytes := by
  refine (alike_uint 2).bind fun n _ hn => ?_
  subst hn
  exact Alike.ensure_bind Iff.rfl rfl fun _ => Alike.take _ rfl

theorem alike_networkEntry (s : Rust.NetworkFields) :
    Alike Cpp.kMaxFrameBytes Malformed (fun s t => t = networkView s) (Rust.networkEntry s)
      (Cpp.networkEntry (networkView s)) := by
  refine (alike_uint 0).bind fun key _ hkey => ?_
  subst hkey
  refine Alike.ite Iff.rfl (fun _ => ?_) fun h13 => ?_
  · exact (alike_skip 4).bind fun _ _ _ => Alike.pure rfl
  by_cases hkey : key = 13
  · subst hkey
    rw [if_pos rfl]
    refine Alike.ensure_bind (by simp [networkView]) rfl fun _ => ?_
    rw [if_pos (by omega)]
    refine alike_byteString.bind fun b _ hb => Alike.pure ?_
    subst hb
    exact (networkView_links s b).symm
  rw [if_neg hkey]
  by_cases h10 : 10 ≤ key
  · have hseen : (networkView s).seen key = (s.bytes (key - 10)).isSome := by
      simp only [networkView]
      rw [if_neg (by omega), if_pos (by omega)]
    rw [if_pos h10]
    refine Alike.ensure_bind (by simp [hseen]) rfl fun _ => ?_
    rw [if_pos h10]
    refine alike_byteString.bind fun b _ hb => Alike.pure ?_
    subst hb
    exact (networkView_bytes s h10 (by omega) b).symm
  · have hseen : (networkView s).seen key = (s.value key).isSome := if_pos (by omega)
    rw [if_neg h10]
    refine Alike.ensure_bind (by simp [hseen]) rfl fun _ => ?_
    rw [if_neg h10]
    refine (alike_uint 0).bind fun v _ hv => Alike.pure ?_
    subst hv
    exact (networkView_value s (by omega) v).symm

private theorem availability_code_le (a : Rust.Availability) :
    ¬(UInt8.ofNat a.code > Cpp.Availability.kError) := by cases a <;> decide

private theorem routeKind_code_le (k : Rust.RouteKind) :
    ¬(UInt8.ofNat k.code > Cpp.RouteKind.kNone) := by cases k <;> decide

private theorem associationContext_code_le (a : Rust.AssociationContext) :
    ¬(UInt8.ofNat a.code > Cpp.AssociationContext.kError) := by cases a <;> decide

private theorem coverage_code_le (c : Rust.WifiCoverage) :
    ¬(UInt8.ofNat c.code > Cpp.WifiCoverage.kOutsideSupported) := by cases c <;> decide

private theorem routed_code (k : Rust.RouteKind) :
    (UInt8.ofNat k.code == Cpp.RouteKind.kUnknown || UInt8.ofNat k.code == Cpp.RouteKind.kNone) =
      (k == .unknown || k == .none) := by cases k <;> rfl

private theorem available_code (a : Rust.Availability) :
    (UInt8.ofNat a.code != Cpp.Availability.kAvailable) = (a != .available) := by
  cases a <;> rfl

private theorem context_code (a : Rust.AssociationContext) :
    (UInt8.ofNat a.code != Cpp.AssociationContext.kAvailable) = (a != .available) := by
  cases a <;> rfl

private theorem unknown_code (c : Rust.WifiCoverage) :
    (UInt8.ofNat c.code == Cpp.WifiCoverage.kUnknown) = (c == .unknown) := by cases c <;> rfl

private theorem link_code (k : Rust.RouteKind) :
    (UInt8.ofNat k.code != Cpp.RouteKind.kWifi && UInt8.ofNat k.code != Cpp.RouteKind.kEthernet &&
      UInt8.ofNat k.code != Cpp.RouteKind.kOther) = !k.isLink := by cases k <;> rfl

private theorem any_links (links : List Rust.RouteKind) :
    (ofLinks links).any (fun k => k != Cpp.RouteKind.kWifi && k != Cpp.RouteKind.kEthernet &&
      k != Cpp.RouteKind.kOther) = links.any (!·.isLink) := by
  simp only [ofLinks, List.any_map, Function.comp_def, link_code]

/-- The rules are the same on both sides. -/
theorem validNetwork_ofNetwork (n : Rust.NetworkSnapshot) :
    Cpp.validNetwork (ofNetwork n) = n.isValid := by
  unfold Cpp.validNetwork Rust.NetworkSnapshot.isValid
  have hranges : (decide ((ofNetwork n).trafficAvailability > .kError) ||
      decide ((ofNetwork n).routeKind > .kNone) ||
      decide ((ofNetwork n).contextAvailability > .kError) ||
      decide ((ofNetwork n).coverage > .kOutsideSupported)) = false := by
    simp only [ofNetwork, availability_code_le, routeKind_code_le, associationContext_code_le,
      coverage_code_le, decide_false, Bool.or_self]
  have hlinks : (n.links.map ofLinks).any (fun links => decide (links.length > Cpp.kMaxLinks) ||
      links.any fun kind => kind != Cpp.RouteKind.kWifi && kind != Cpp.RouteKind.kEthernet &&
        kind != Cpp.RouteKind.kOther) =
      n.links.any fun links => decide (links.length > Rust.maxLinks) || links.any (!·.isLink) := by
    cases n.links with
    | none => rfl
    | some links =>
      rw [Option.map_some, Option.any_some, Option.any_some, any_links]
      simp [ofLinks, Cpp.kMaxLinks, Rust.maxLinks]
  have hlast : (if ((!n.ssid.isEmpty || n.bssid.isSome) && n.contextAvailability != .available) =
      true then false else true) =
      (n.ssid.isEmpty && n.bssid.isNone || n.contextAvailability == .available) := by
    cases n.ssid.isEmpty <;> cases n.bssid <;> cases n.contextAvailability <;> rfl
  rw [hranges]
  simp only [ofNetwork, routed_code, available_code, unknown_code, context_code, hlinks, hlast]
  rfl

theorem mac_of_length {b : List UInt8} (h : b.length = 0 ∨ b.length = 6) :
    Rust.mac b = .ok (Cpp.macOf b) := by
  unfold Rust.mac Cpp.macOf Octets.ofList?
  rcases h with h | h <;> simp [h]

theorem mac_of_not_length {b : List UInt8} (h : ¬(b.length = 0 ∨ b.length = 6)) :
    Rust.mac b = .error .malformed := by
  rw [not_or] at h
  unfold Rust.mac
  rw [if_neg h.1, dif_neg h.2]

theorem linkFrom_of_mem {k : UInt8} (h : ¬(k < 1 ∨ k > 3)) :
    ∃ l, Rust.linkFrom k = .ok l ∧ UInt8.ofNat l.code = k := by
  have hk : k = 1 ∨ k = 2 ∨ k = 3 := by
    simp only [not_or, UInt8.lt_iff_toNat_lt, gt_iff_lt, ← UInt8.toNat_inj] at h ⊢
    have h₁ : (1 : UInt8).toNat = 1 := rfl
    have h₂ : (2 : UInt8).toNat = 2 := rfl
    have h₃ : (3 : UInt8).toNat = 3 := rfl
    omega
  rcases hk with rfl | rfl | rfl <;> exact ⟨_, rfl, rfl⟩

theorem linkFrom_of_not_mem {k : UInt8} (h : k < 1 ∨ k > 3) :
    Rust.linkFrom k = .error .malformed := by
  unfold Rust.linkFrom
  rw [if_neg, if_neg, if_neg] <;> · rintro rfl; revert h; decide

theorem links_of_mem {kinds : List UInt8} (h : ∀ k ∈ kinds, ¬(k < 1 ∨ k > 3)) :
    ∃ links, kinds.mapM Rust.linkFrom = .ok links ∧ ofLinks links = kinds := by
  induction kinds with
  | nil => exact ⟨[], rfl, rfl⟩
  | cons k kinds ih =>
    obtain ⟨l, hl, hcode⟩ := linkFrom_of_mem (h k (by simp))
    obtain ⟨links, hlinks, hcodes⟩ := ih fun k' hk' => h k' (by simp [hk'])
    refine ⟨l :: links, ?_, ?_⟩
    · simp [List.mapM_cons, hl, hlinks, pure, Except.pure]
    · rw [← hcode, ← hcodes]
      rfl

theorem links_of_not_mem {kinds : List UInt8} (h : ¬∀ k ∈ kinds, ¬(k < 1 ∨ k > 3)) :
    kinds.mapM Rust.linkFrom = .error .malformed := by
  induction kinds with
  | nil => simp at h
  | cons k kinds ih =>
    rw [List.mapM_cons]
    by_cases hk : k < 1 ∨ k > 3
    · simp [linkFrom_of_not_mem hk]
    · obtain ⟨l, hl, -⟩ := linkFrom_of_mem hk
      have hkinds := ih fun hall => h fun k' hk' => by
        rcases List.mem_cons.mp hk' with rfl | hk'
        · exact hk
        · exact hall k' hk'
      simp [hl, hkinds]

private theorem isValid_ssid {n : Rust.NetworkSnapshot} (h : ¬n.ssid.length ≤ Cpp.kMaxSsidBytes) :
    n.isValid = false := by
  have h' : n.ssid.length > Rust.maxSsidBytes := Nat.lt_of_not_le h
  unfold Rust.NetworkSnapshot.isValid
  rw [if_pos h']
  split_ifs <;> rfl

/-- What follows the loop of `decode_network_group`. -/
private def networkEnd (s : Rust.NetworkFields) : Except Rust.Error Rust.NetworkSnapshot := do
  let all ← Rust.collect 10 s.value
  let station ← Rust.required (s.bytes 0)
  let ssid ← Rust.required (s.bytes 1)
  let bssid ← Rust.required (s.bytes 2)
  Rust.networkFrom all station ssid bssid s.links

private theorem networkEnd_seen {s : Rust.NetworkFields}
    (h : ∀ key : ℕ, key < 13 → (networkView s).seen key) :
    networkEnd s = Rust.networkFrom (networkView s).value ((networkView s).bytes 0)
      ((networkView s).bytes 1) ((networkView s).bytes 2) s.links := by
  have hvalue : Rust.collect 10 s.value = .ok (networkView s).value :=
    if_pos fun k hk => by simpa [networkView, hk] using h k (by omega)
  have hbytes (i : ℕ) (hi : i < 3) : Rust.required (s.bytes i) = .ok ((networkView s).bytes i) := by
    have hs := h (i + 10) (by omega)
    simp only [networkView] at hs
    rw [if_neg (by omega), if_pos (by omega), Nat.add_sub_cancel] at hs
    obtain ⟨b, hb⟩ := Option.isSome_iff_exists.mp hs
    simp [networkView, hb, Rust.required, show i ≠ 3 by omega]
  simp [networkEnd, hvalue, hbytes]

private theorem networkEnd_not_seen {s : Rust.NetworkFields}
    (h : ¬∀ key : ℕ, key < 13 → (networkView s).seen key) :
    networkEnd s = .error .malformed := by
  unfold networkEnd Rust.collect
  split_ifs with hv
  · obtain ⟨key, hkey, hs⟩ : ∃ key, key < 13 ∧ (networkView s).seen key = false := by
      simpa using h
    have hb : s.bytes (key - 10) = none := by
      by_cases hlt : key < 10
      · have := hv key hlt
        simp [networkView, hlt, this] at hs
      · simpa only [networkView, if_neg hlt, if_pos hkey, Option.isSome_eq_false_iff,
          Option.isNone_iff_eq_none] using hs
    have hi : key - 10 = 0 ∨ key - 10 = 1 ∨ key - 10 = 2 := by omega
    cases h0 : s.bytes 0 <;> cases h1 : s.bytes 1 <;> cases h2 : s.bytes 2 <;>
      simp [Rust.required]
    rcases hi with hi | hi | hi <;> simp [hi, h0, h1, h2] at hb
  · rfl

private theorem macOf_length {b : List UInt8} (h : ¬(b.length ≠ 0 ∧ b.length ≠ Cpp.kMacBytes)) :
    b.length = 0 ∨ b.length = 6 := by
  have : Cpp.kMacBytes = 6 := rfl
  omega

/-- With every number in range, the Host still checks the byte strings and the rules. -/
private theorem networkFrom_of_range {v : ℕ → ℕ} (h : ¬(v 0 > 4 ∨ v 1 > 2 ^ 32 - 1 ∨ v 2 > 4 ∨
    v 3 > 1 ∨ v 6 > 6 ∨ v 7 > 2 ^ 32 - 1 ∨ v 8 > 2 ∨ v 9 > 255)) (station ssid bssid : List UInt8)
    (links : Option (List UInt8)) :
    Rust.networkFrom v station ssid bssid links = (do
      let station ← Rust.mac station
      let bssid ← Rust.mac bssid
      let links ← Rust.linksFrom links
      let snapshot : Rust.NetworkSnapshot :=
        { trafficAvailability := availabilityOf (v 0), trafficAgeMs := UInt32.ofNat (v 1),
          routeKind := Rust.routeKindFrom (v 2), viaTunnel := v 3 == 1,
          rxBytesPerS := UInt64.ofNat (v 4), txBytesPerS := UInt64.ofNat (v 5),
          contextAvailability := Rust.associationContextFrom (v 6),
          contextAgeMs := UInt32.ofNat (v 7), coverage := Rust.coverageFrom (v 8),
          channel := UInt8.ofNat (v 9), station, ssid, bssid, links }
      Rust.check snapshot.isValid
      pure snapshot) := by
  simp only [Rust.networkFrom, availabilityFrom_eq]
  rw [Rust.check, if_pos (by omega), if_pos (by omega)]
  rfl

private theorem links_read {t : Cpp.NetworkFields}
    (h : t.seen 13 → ∀ kind ∈ t.bytes 3, ¬(kind < 1 ∨ kind > 3)) :
    ∃ links, Rust.linksFrom (if t.seen 13 then some (t.bytes 3) else none) = .ok links ∧
      links.map ofLinks = if t.seen 13 then some (t.bytes 3) else none := by
  by_cases hseen : t.seen 13
  · obtain ⟨links, hlinks, hcodes⟩ := links_of_mem (h hseen)
    exact ⟨some links, by simp [Rust.linksFrom, hseen, hlinks], by simp [hseen, hcodes]⟩
  · exact ⟨none, by simp [Rust.linksFrom, hseen], by simp [hseen]⟩

/-- The checks that follow the loop, in the device's order. -/
private theorem alike_networkEnd (t : Cpp.NetworkFields) :
    Alike Cpp.kMaxFrameBytes Malformed (fun n c => c = ofNetwork n)
      (lift (Rust.networkFrom t.value (t.bytes 0) (t.bytes 1) (t.bytes 2)
        (if t.seen 13 then some (t.bytes 3) else none)) : Scan UInt8 Rust.Error _)
      (do
        ensure (¬(t.value 0 > Cpp.Availability.kError.toNat ∨ t.value 1 > 2 ^ 32 - 1 ∨
          t.value 2 > Cpp.RouteKind.kNone.toNat ∨ t.value 3 > 1 ∨
          t.value 6 > Cpp.AssociationContext.kError.toNat ∨ t.value 7 > 2 ^ 32 - 1 ∨
          t.value 8 > Cpp.WifiCoverage.kOutsideSupported.toNat ∨ t.value 9 > 0xff)) ()
        ensure (∀ b ∈ [t.bytes 0, t.bytes 2], ¬(b.length ≠ 0 ∧ b.length ≠ Cpp.kMacBytes)) ()
        ensure ((t.bytes 1).length ≤ Cpp.kMaxSsidBytes) ()
        ensure (t.seen 13 → ∀ kind ∈ t.bytes 3, ¬(kind < 1 ∨ kind > 3)) ()
        ensure (Cpp.validNetwork (Cpp.networkOf t)) ()
        pure (Cpp.networkOf t)) := by
  have h₁ : Cpp.Availability.kError.toNat = 4 := rfl
  have h₂ : Cpp.RouteKind.kNone.toNat = 4 := rfl
  have h₃ : Cpp.AssociationContext.kError.toNat = 6 := rfl
  have h₄ : Cpp.WifiCoverage.kOutsideSupported.toNat = 2 := rfl
  rw [h₁, h₂, h₃, h₄]
  refine Alike.lift_ensure (fun hrange => ?_) fun h => ⟨.malformed, ?_, rfl⟩
  swap
  · simp only [Rust.networkFrom, Rust.check, availabilityFrom_eq]
    split_ifs <;> first | rfl | omega
  rw [networkFrom_of_range hrange]
  have hmac (b : List UInt8) : ¬(b.length ≠ 0 ∧ b.length ≠ Cpp.kMacBytes) ↔
      b.length = 0 ∨ b.length = 6 := by
    have : Cpp.kMacBytes = 6 := rfl
    omega
  refine Alike.lift_ensure (fun h => ?_) fun h => ⟨.malformed, ?_, rfl⟩
  swap
  · simp only [List.forall_mem_cons, List.not_mem_nil, hmac] at h
    by_cases hstation : (t.bytes 0).length = 0 ∨ (t.bytes 0).length = 6
    · have hbssid : ¬((t.bytes 2).length = 0 ∨ (t.bytes 2).length = 6) := fun hbssid =>
        h ⟨hstation, hbssid, fun _ => False.elim⟩
      simp [mac_of_length hstation, mac_of_not_length hbssid]
    · simp [mac_of_not_length hstation]
  simp only [List.forall_mem_cons, hmac] at h
  rw [mac_of_length h.1, mac_of_length h.2.1, except_ok_bind, except_ok_bind]
  by_cases hkinds : t.seen 13 → ∀ kind ∈ t.bytes 3, ¬(kind < 1 ∨ kind > 3)
  swap
  · -- A kind outside 1 to 3: the Host fails while it maps, the device when it checks.
    have herr : (t.bytes 3).mapM Rust.linkFrom = .error .malformed :=
      links_of_not_mem fun hall => hkinds fun _ => hall
    have hseen : t.seen 13 := by
      by_contra hseen
      exact hkinds fun h => absurd h hseen
    simp only [hseen, if_true, Rust.linksFrom, herr, except_error_map, except_error_bind]
    refine Alike.lift_ensure (fun _ => ?_) fun _ => ⟨_, rfl, rfl⟩
    exact Alike.lift_ensure (fun h => absurd h hkinds) fun _ => ⟨_, rfl, rfl⟩
  obtain ⟨links, hlinks, hcodes⟩ := links_read hkinds
  rw [hlinks, except_ok_bind]
  generalize hn : (Rust.NetworkSnapshot.mk (availabilityOf (t.value 0)) _ _ _ _ _ _ _ _ _ _ _ _
    links) = n
  have hof : ofNetwork n = Cpp.networkOf t := by
    subst hn
    simp only [ofNetwork, Cpp.networkOf, hcodes, availabilityOf_code (show t.value 0 ≤ 4 by omega),
      routeKindFrom_code (show t.value 2 ≤ 4 by omega),
      associationContextFrom_code (show t.value 6 ≤ 6 by omega),
      coverageFrom_code (show t.value 8 ≤ 2 by omega)]
  have hssid : n.ssid = t.bytes 1 := by rw [← hn]
  have hinvalid (h : n.isValid = false) :
      (do Rust.check (n.isValid = true); pure n) = .error Rust.Error.malformed := by
    simp [Rust.check, h]
  rw [← hof, validNetwork_ofNetwork, ← hssid]
  refine Alike.lift_ensure (fun _ => ?_) fun h => ⟨_, hinvalid (isValid_ssid h), rfl⟩
  rw [ensure_true hkinds, pure_bind]
  refine Alike.lift_ensure (fun h => ?_) fun h => ⟨_, hinvalid (Bool.eq_false_iff.mpr h), rfl⟩
  simp only [Rust.check, if_pos h, except_ok_bind]
  exact Alike.pure rfl

theorem alike_networkGroup :
    Alike Cpp.kMaxFrameBytes Malformed (fun n c => c = ofNetwork n) Rust.decodeNetworkGroup
      Cpp.readNetworkGroup := by
  unfold Rust.decodeNetworkGroup Cpp.readNetworkGroup Rust.networkFields
  rw [bind_assoc]
  refine (alike_uint 5).bind fun count _ hcount => ?_
  subst hcount
  rw [bind_assoc]
  refine Alike.ensure_bind Iff.rfl rfl fun _ => ?_
  have hinit : ({} : Cpp.NetworkFields) = networkView ⟨fun _ => none, fun _ => none, none⟩ := by
    simp [networkView]
  refine (Alike.loop (R := fun s t => t = networkView s) (fun s t h => ?_) count hinit).bind
    fun s t h => ?_
  · subst h
    exact alike_networkEntry s
  subst h
  have hend : (do
      let all ← lift (Rust.collect 10 s.value)
      let station ← lift (Rust.required (s.bytes 0))
      let ssid ← lift (Rust.required (s.bytes 1))
      let bssid ← lift (Rust.required (s.bytes 2))
      lift (Rust.networkFrom all station ssid bssid s.links) : Scan UInt8 Rust.Error _) =
      lift (networkEnd s) := by
    simp only [networkEnd, lift_bind]
  rw [hend]
  refine Alike.lift_ensure (fun hseen => ?_) fun h => ⟨_, networkEnd_not_seen h, rfl⟩
  rw [networkEnd_seen hseen]
  have hlinks : s.links = if (networkView s).seen 13 then some ((networkView s).bytes 3)
      else none := by
    cases h : s.links <;> simp [networkView, h]
  rw [hlinks]
  generalize networkView s = t
  exact alike_networkEnd t

end CydMonitor.Codec
