import CydMonitor.Metrics.Rates
import Mathlib.Data.List.Nodup

/-!
# Traffic totals over whole runs

A link's baseline is its last sample, unless something since made the collector forget it.
-/

namespace CydMonitor.Metrics

open Wifi
open Text (decimal)

inductive NetworkEvent where
  | collect (view : Option SystemView) (context : ContextReading) (nowMs : ℕ)
  | wake

namespace NetworkEvent

def apply (samplers : Samplers) : NetworkEvent → Samplers
  | .collect view context nowMs => (Metrics.collect samplers view context nowMs).2
  | .wake => .clear

/-- The samplers after a history. -/
def replay (events : List NetworkEvent) : Samplers := events.foldl apply .clear

theorem replay_concat (events : List NetworkEvent) (e : NetworkEvent) :
    replay (events ++ [e]) = e.apply (replay events) :=
  List.foldl_concat ..

/-- Interface names are distinct. -/
def Distinct : NetworkEvent → Prop
  | .collect (some view) _ _ => (view.interfaces.map (·.name)).Nodup
  | .collect none _ _ | .wake => True

end NetworkEvent

open NetworkEvent

/-- The links that a view with a route counts. -/
def SystemView.links (view : SystemView) : List InterfaceInfo :=
  activeLinks view (selectPrimaryRoute view)

/-- A collect with a route at which the link of that name has no counters. -/
def NetworkEvent.Uncounted (name : String) : NetworkEvent → Prop
  | .collect (some view) _ _ => (selectPrimaryRoute view).isSome ∧
      ∃ link ∈ view.links, link.name = name ∧ link.counters = none
  | .collect none _ _ | .wake => False

/-- The latest collect at which an active link of that name had counters, with no wake, no
unreadable or routeless view, and no collect without the link since. -/
def Previous (events : List NetworkEvent) (name : String) (link : InterfaceInfo) (atMs : ℕ) :
    Prop :=
  ∃ before view context after,
    events = before ++ .collect (some view) context atMs :: after ∧
      (selectPrimaryRoute view).isSome ∧ link ∈ view.links ∧ link.name = name ∧
      link.counters.isSome ∧ ∀ e ∈ after, e.Uncounted name

theorem Previous.name {events : List NetworkEvent} {name : String} {link : InterfaceInfo} {atMs : ℕ}
    (h : Previous events name link atMs) : link.name = name := by
  obtain ⟨_, _, _, _, -, -, -, hname, -, -⟩ := h
  exact hname

/-- The samples of a link can be compared. -/
structure Comparable (before : InterfaceInfo) (atMs : ℕ) (link : InterfaceInfo) (nowMs : ℕ) :
    Prop where
  index : link.index = before.index
  station : link.station = before.station
  elapsed : 1 ≤ nowMs - atMs ∧ nowMs - atMs ≤ maxRateSampleGapMs
  counters : ∃ old new, before.counters = some old ∧ link.counters = some new ∧
    old.rxBytes ≤ new.rxBytes ∧ old.txBytes ≤ new.txBytes

/-- A link now and at its previous sample. -/
structure Sampled where
  link : InterfaceInfo
  before : InterfaceInfo
  atMs : ℕ

/-- The floor of the bytes per second in one direction. -/
def Sampled.share (direction : InterfaceCounters → UInt64) (s : Sampled) (nowMs : ℕ) : ℕ :=
  ((s.link.counters.elim 0 fun c => (direction c).toNat) -
    s.before.counters.elim 0 fun c => (direction c).toNat) * 1000 / (nowMs - s.atMs)

section Loop

variable {nowMs : ℕ} {t : Totals} {link : InterfaceInfo}

/-- The rate of one link. -/
def linkRate (samplers : Samplers) (nowMs : ℕ) (link : InterfaceInfo) : Option NetworkRate :=
  link.counters.bind fun counters => ((samplers link.name).sample link.key counters nowMs).1.value

/-- The samplers after one link. -/
def sampled (samplers : Samplers) (nowMs : ℕ) (link : InterfaceInfo) : Samplers :=
  match link.counters with
  | none => samplers
  | some counters => samplers.set link.name { baseline := some (link.key, counters, nowMs) }

theorem link_spec :
    (t.link nowMs link).samplers = sampled t.samplers nowMs link ∧
      (t.link nowMs link).seen = link.name :: t.seen ∧
      (t.link nowMs link).total =
        addOption NetworkRate.add t.total (linkRate t.samplers nowMs link) := by
  cases hcounters : link.counters with
  | none => simp [Totals.link, sampled, linkRate, hcounters, addOption]
  | some counters =>
    cases hvalue : ((t.samplers link.name).sample link.key counters nowMs).1.value with
    | none =>
      simp [Totals.link, sampled, linkRate, hcounters, addOption, hvalue]
      simp [CounterRateSampler.sample]
    | some rate =>
      cases htotal : t.total with
      | none =>
        simp [Totals.link, sampled, linkRate, hcounters, addOption, hvalue, htotal]
        simp [CounterRateSampler.sample]
      | some sum =>
        simp [Totals.link, sampled, linkRate, hcounters, addOption, hvalue, htotal]
        simp [CounterRateSampler.sample]

theorem sampled_of_ne {samplers : Samplers} {name : String} (h : name ≠ link.name) :
    sampled samplers nowMs link name = samplers name := by
  rw [sampled]
  cases link.counters with
  | none => rfl
  | some counters => exact if_neg h

theorem sampled_congr {samplers samplers' : Samplers} {name : String}
    (h : samplers name = samplers' name) :
    sampled samplers nowMs link name = sampled samplers' nowMs link name := by
  rw [sampled, sampled]
  cases link.counters with
  | none => exact h
  | some counters =>
    by_cases hname : name = link.name
    · simp [Samplers.set, hname]
    · simp [Samplers.set, hname, h]

theorem linkRate_congr {samplers samplers' : Samplers}
    (h : samplers link.name = samplers' link.name) :
    linkRate samplers nowMs link = linkRate samplers' nowMs link := by
  rw [linkRate, linkRate, h]

/-- The loop over links of distinct names. -/
theorem foldl_link {links : List InterfaceInfo} (hnodup : (links.map (·.name)).Nodup)
    (t : Totals) :
    (∀ name, (links.foldl (Totals.link nowMs) t).samplers name =
      match links.find? (·.name == name) with
      | some link => sampled t.samplers nowMs link name
      | none => t.samplers name) ∧
    (∀ name, name ∈ (links.foldl (Totals.link nowMs) t).seen ↔
      name ∈ t.seen ∨ ∃ link ∈ links, link.name = name) ∧
    (links.foldl (Totals.link nowMs) t).total =
      (links.map (linkRate t.samplers nowMs)).foldl (addOption NetworkRate.add) t.total := by
  induction links generalizing t with
  | nil => simp
  | cons link links ih =>
    obtain ⟨hnew, hrest⟩ := List.nodup_cons.mp hnodup
    obtain ⟨hsamplers, hseen, htotal⟩ := @link_spec nowMs t link
    obtain ⟨ihsamplers, ihseen, ihtotal⟩ := ih hrest (t.link nowMs link)
    rw [List.foldl_cons]
    refine ⟨fun name => ?_, fun name => ?_, ?_⟩
    · rw [ihsamplers, hsamplers]
      by_cases hname : link.name = name
      · have hnone : links.find? (·.name == name) = none := by
          refine List.find?_eq_none.mpr fun other hother heq => hnew ?_
          exact List.mem_map.mpr ⟨other, hother, (beq_iff_eq.mp heq).trans hname.symm⟩
        simp [hname, hnone]
      · rw [List.find?_cons_of_neg (by simpa using hname)]
        cases hfind : links.find? (·.name == name) with
        | none => exact sampled_of_ne (Ne.symm hname)
        | some other => exact sampled_congr (sampled_of_ne (Ne.symm hname))
    · rw [ihseen, hseen]
      simp only [List.mem_cons, exists_eq_or_imp]
      rw [or_assoc, or_left_comm, eq_comm]
    · rw [ihtotal, htotal, hsamplers, List.map_cons, List.foldl_cons]
      congr 1
      refine List.map_congr_left fun other hother => linkRate_congr (sampled_of_ne fun heq => ?_)
      exact hnew (List.mem_map.mpr ⟨other, hother, heq⟩)

end Loop

section Keys

private theorem hexDigit_inj {m n : ℕ} (hm : m < 16) (hn : n < 16) (h : hexDigit m = hexDigit n) :
    m = n := by
  have hall : ∀ a < 16, ∀ b < 16, hexDigit a = hexDigit b → a = b := by decide
  exact hall m hm n hn h

private theorem hexByte_inj {a b : UInt8} (h : hexByte a = hexByte b) : a = b := by
  obtain ⟨hhigh, hlow⟩ := List.cons.inj h
  have ha := a.toNat_lt
  have hb := b.toNat_lt
  have hdiv := hexDigit_inj (by omega) (by omega) hhigh
  have hmod := hexDigit_inj (by omega) (by omega) (List.cons.inj hlow).1
  apply UInt8.toNat_inj.mp
  omega

private theorem flatMap_hexByte_inj {l m : List UInt8} (h : l.flatMap hexByte = m.flatMap hexByte) :
    l = m := by
  induction l generalizing m with
  | nil =>
    cases m with
    | nil => rfl
    | cons b m => cases h
  | cons a l ih =>
    cases m with
    | nil => cases h
    | cons b m =>
      obtain ⟨hbyte, hrest⟩ := List.append_inj (h : hexByte a ++ _ = hexByte b ++ _) rfl
      rw [hexByte_inj hbyte, ih hrest]

private theorem station_inj {s s' : Option (Octets 6)}
    (h : s.elim [] (fun m => m.val.flatMap hexByte) = s'.elim [] fun m => m.val.flatMap hexByte) :
    s = s' := by
  have hlength (m : Octets 6) : (m.val.flatMap hexByte).length = 12 := by
    simp [hexByte, m.property]
  cases s with
  | none =>
    cases s' with
    | none => rfl
    | some m' => exact absurd (congrArg List.length h) (by simp [hlength])
  | some m =>
    cases s' with
    | none => exact absurd (congrArg List.length h) (by simp [hlength])
    | some m' => exact congrArg some (Subtype.ext (flatMap_hexByte_inj h))

private theorem hash_notMem_decimal (n : ℕ) : '#' ∉ decimal n := fun h => by
  have hdigit := Nat.isDigit_of_mem_toDigits (by decide) (by decide) h
  exact absurd hdigit (by decide)

private theorem hash_notMem_station (s : Option (Octets 6)) :
    '#' ∉ s.elim [] fun m => m.val.flatMap hexByte := by
  have hall : ∀ n < 16, hexDigit n ≠ '#' := by decide
  cases s with
  | none => exact List.not_mem_nil
  | some m =>
    intro h
    obtain ⟨b, -, hb⟩ := List.mem_flatMap.mp h
    have hlt := b.toNat_lt
    rcases List.mem_cons.mp hb with hb | hb
    · exact hall _ (by omega) hb.symm
    · exact hall _ (by omega) (List.mem_singleton.mp hb).symm

private theorem decimal_inj {m n : ℕ} (h : decimal m = decimal n) : m = n := by
  have hm := Nat.ofDigitChars_toDigits (b := 10) (n := m) (by decide) (by decide)
  have hn := Nat.ofDigitChars_toDigits (b := 10) (n := n) (by decide) (by decide)
  rw [show Nat.toDigits 10 m = Nat.toDigits 10 n from h] at hm
  exact hm.symm.trans hn

/-- A sampler's key says which interface it is. -/
theorem key_inj {a b : InterfaceInfo} (hname : a.name = b.name) :
    a.key = b.key ↔ a.index = b.index ∧ a.station = b.station := by
  constructor
  · intro h
    rw [InterfaceInfo.key, InterfaceInfo.key, hname] at h
    have htail := (List.cons.inj (List.append_cancel_left h)).2
    obtain ⟨hindex, -, hstation⟩ := (List.append_cons_inj_of_notMem (hash_notMem_decimal _)
      (hash_notMem_station _)).mp htail
    exact ⟨UInt32.toNat_inj.mp (decimal_inj hindex), station_inj hstation⟩
  · rintro ⟨hindex, hstation⟩
    rw [InterfaceInfo.key, InterfaceInfo.key, hname, hindex, hstation]

end Keys

section Baselines

variable {view : SystemView} {samplers : Samplers} {context : ContextReading} {nowMs : ℕ}

theorem links_nodup (h : (view.interfaces.map (·.name)).Nodup) :
    (view.links.map (·.name)).Nodup := by
  refine List.Nodup.sublist ((List.take_sublist _ _).map _) ?_
  rw [((List.mergeSort_perm _ _).map _).nodup_iff]
  exact h.sublist ((List.filter_sublist).map _)

/-- What a collect with a route leaves of a name's sampler. -/
theorem apply_routed (hdistinct : (view.interfaces.map (·.name)).Nodup)
    (hroute : (selectPrimaryRoute view).isSome) (name : String) :
    NetworkEvent.apply samplers (.collect (some view) context nowMs) name =
      match view.links.find? (·.name == name) with
      | some link => sampled samplers nowMs link name
      | none => { baseline := none } := by
  obtain ⟨route, hroute'⟩ := Option.isSome_iff_exists.mp hroute
  let start : Totals :=
    { samplers, total := some { rxBytesPerS := 0, txBytesPerS := 0 }, availability := .available,
      seen := [] }
  have happly : NetworkEvent.apply samplers (.collect (some view) context nowMs) =
      (view.links.foldl (Totals.link nowMs) start).samplers.retain
        (view.links.foldl (Totals.link nowMs) start).seen := by
    simp only [NetworkEvent.apply, Metrics.collect, traffic, SystemView.links, hroute']
    rfl
  obtain ⟨hsamplers, hseen, -⟩ := @foldl_link nowMs _ (links_nodup hdistinct) start
  rw [happly, Samplers.retain, hsamplers]
  cases hfind : view.links.find? (·.name == name) with
  | some link =>
    have hname : link.name = name := by simpa using List.find?_some hfind
    exact if_pos ((hseen name).mpr (.inr ⟨link, List.mem_of_find?_eq_some hfind, hname⟩))
  | none =>
    refine if_neg fun hmem => ?_
    obtain ⟨link, hlink, hname⟩ := ((hseen name).mp hmem).resolve_left nofun
    exact List.find?_eq_none.mp hfind link hlink (by simpa using hname)

theorem apply_unrouted (hroute : selectPrimaryRoute view = none) :
    NetworkEvent.apply samplers (.collect (some view) context nowMs) = .clear := by
  simp [NetworkEvent.apply, Metrics.collect, traffic, hroute]

/-- The link of a name. -/
theorem find?_links (hdistinct : (view.interfaces.map (·.name)).Nodup) {link : InterfaceInfo}
    (hlink : link ∈ view.links) : view.links.find? (·.name == link.name) = some link := by
  cases hfind : view.links.find? (·.name == link.name) with
  | none => exact absurd (List.find?_eq_none.mp hfind link hlink) (by simp)
  | some other =>
    have hname : other.name = link.name := by simpa using List.find?_some hfind
    exact congrArg some (List.inj_on_of_nodup_map (links_nodup hdistinct)
      (List.mem_of_find?_eq_some hfind) hlink hname)

theorem previous_concat {events : List NetworkEvent} {e : NetworkEvent} {name : String}
    {link : InterfaceInfo} {atMs : ℕ} :
    Previous (events ++ [e]) name link atMs ↔
      (∃ view context, e = .collect (some view) context atMs ∧ (selectPrimaryRoute view).isSome ∧
        link ∈ view.links ∧ link.name = name ∧ link.counters.isSome) ∨
      e.Uncounted name ∧ Previous events name link atMs := by
  constructor
  · rintro ⟨before, view, context, after, heq, hroute, hlink, hname, hcounters, hafter⟩
    induction after using List.reverseRecOn with
    | nil =>
      obtain ⟨-, hlast⟩ := List.append_inj' heq rfl
      exact .inl ⟨view, context, (List.cons.inj hlast).1, hroute, hlink, hname, hcounters⟩
    | append_singleton after x _ =>
      have heq' :
          events ++ [e] = (before ++ .collect (some view) context atMs :: after) ++ [x] := by
        simp [heq]
      obtain ⟨hevents, hlast⟩ := List.append_inj' heq' rfl
      obtain rfl := (List.cons.inj hlast).1
      exact .inr ⟨hafter e (by simp), before, view, context, after, hevents, hroute, hlink, hname,
        hcounters, fun d hd => hafter d (by simp [hd])⟩
  · rintro (⟨view, context, rfl, hroute, hlink, hname, hcounters⟩ | ⟨huncounted, hprevious⟩)
    · exact ⟨events, view, context, [], rfl, hroute, hlink, hname, hcounters, nofun⟩
    · obtain ⟨before, view, context, after, rfl, hroute, hlink, hname, hcounters, hafter⟩ :=
        hprevious
      refine ⟨before, view, context, after ++ [e], by simp, hroute, hlink, hname, hcounters, ?_⟩
      exact List.forall_mem_append.mpr ⟨hafter, by simpa using huncounted⟩

/-- An event that makes the collector forget. -/
theorem not_previous_of_forgets {events : List NetworkEvent} {e : NetworkEvent} {name : String}
    (hforgets : ∀ view context nowMs, e = .collect (some view) context nowMs →
      selectPrimaryRoute view = none) {link : InterfaceInfo} {atMs : ℕ} :
    ¬ Previous (events ++ [e]) name link atMs := by
  intro h
  rcases previous_concat.mp h with ⟨view, context, he, hroute, -⟩ | ⟨huncounted, -⟩
  · simp [hforgets view context atMs he] at hroute
  · cases e with
    | wake => exact huncounted
    | collect view context nowMs =>
      cases view with
      | none => exact huncounted
      | some view =>
        have hroute := huncounted.1
        simp [hforgets view context nowMs rfl] at hroute

section Routed

variable (hdistinct : (view.interfaces.map (·.name)).Nodup)
  (hroute : (selectPrimaryRoute view).isSome) {events : List NetworkEvent} {name : String}
  {link other : InterfaceInfo} {atMs : ℕ}

include hdistinct in
private theorem eq_of_find? (hfind : view.links.find? (·.name == name) = some link)
    (hother : other ∈ view.links) (hname : other.name = name) : other = link := by
  have hsame := find?_links hdistinct hother
  rw [hname, hfind] at hsame
  exact (Option.some.inj hsame).symm

theorem not_previous_of_absent (hfind : view.links.find? (·.name == name) = none) :
    ¬ Previous (events ++ [.collect (some view) context nowMs]) name link atMs := by
  have hnone := List.find?_eq_none.mp hfind
  intro h
  rcases previous_concat.mp h with
    ⟨view', _, he, -, hlink, hname, -⟩ | ⟨⟨-, other, hother, hname, -⟩, -⟩
  · obtain ⟨heq, -⟩ := NetworkEvent.collect.inj he
    obtain rfl := Option.some.inj heq
    exact hnone link hlink (by simpa using hname)
  · exact hnone other hother (by simpa using hname)

include hdistinct hroute in
theorem previous_of_counted (hfind : view.links.find? (·.name == name) = some link)
    (hcounters : link.counters.isSome) :
    Previous (events ++ [.collect (some view) context nowMs]) name other atMs ↔
      other = link ∧ atMs = nowMs := by
  have hlink := List.mem_of_find?_eq_some hfind
  have hname : link.name = name := by simpa using List.find?_some hfind
  constructor
  · intro h
    rcases previous_concat.mp h with
      ⟨view', _, he, -, hmem, hother, -⟩ | ⟨⟨-, l, hmem, hl, hnone⟩, -⟩
    · obtain ⟨heq, -, rfl⟩ := NetworkEvent.collect.inj he
      obtain rfl := Option.some.inj heq
      exact ⟨eq_of_find? hdistinct hfind hmem hother, rfl⟩
    · obtain rfl := eq_of_find? hdistinct hfind hmem hl
      simp [hnone] at hcounters
  · rintro ⟨rfl, rfl⟩
    exact previous_concat.mpr (.inl ⟨view, context, rfl, hroute, hlink, hname, hcounters⟩)

include hdistinct hroute in
theorem previous_of_uncounted (hfind : view.links.find? (·.name == name) = some link)
    (hcounters : link.counters = none) :
    Previous (events ++ [.collect (some view) context nowMs]) name other atMs ↔
      Previous events name other atMs := by
  have hlink := List.mem_of_find?_eq_some hfind
  have hname : link.name = name := by simpa using List.find?_some hfind
  constructor
  · intro h
    rcases previous_concat.mp h with ⟨view', _, he, -, hmem, hother, hsome⟩ | ⟨-, h⟩
    · obtain ⟨heq, -⟩ := NetworkEvent.collect.inj he
      obtain rfl := Option.some.inj heq
      obtain rfl := eq_of_find? hdistinct hfind hmem hother
      simp [hcounters] at hsome
    · exact h
  · exact fun h => previous_concat.mpr (.inr ⟨⟨hroute, link, hlink, hname, hcounters⟩, h⟩)

end Routed

/-- A baseline is the previous sample. -/
theorem baseline_iff {events : List NetworkEvent} (hdistinct : ∀ e ∈ events, e.Distinct)
    {name : String} {b : List Char × InterfaceCounters × ℕ} :
    (replay events name).baseline = some b ↔
      ∃ link atMs counters, Previous events name link atMs ∧ link.counters = some counters ∧
        b = (link.key, counters, atMs) := by
  induction events using List.reverseRecOn with
  | nil =>
    refine iff_of_false nofun ?_
    rintro ⟨_, _, _, ⟨before, _, _, _, heq, _⟩, _⟩
    exact absurd heq (by simp)
  | append_singleton events e ih =>
    have ih := ih fun d hd => hdistinct d (by simp [hd])
    rw [replay_concat]
    cases e with
    | wake =>
      exact iff_of_false nofun fun ⟨_, _, _, h, _⟩ => not_previous_of_forgets (by simp) h
    | collect view context nowMs =>
      cases view with
      | none => exact iff_of_false nofun fun ⟨_, _, _, h, _⟩ => not_previous_of_forgets (by simp) h
      | some view =>
        cases hroute : selectPrimaryRoute view with
        | none =>
          rw [apply_unrouted hroute]
          exact iff_of_false nofun fun ⟨_, _, _, h, _⟩ =>
            not_previous_of_forgets (by simp [hroute]) h
        | some route =>
          have hview : (view.interfaces.map (·.name)).Nodup :=
            hdistinct (.collect (some view) context nowMs) (by simp)
          have hsome : (selectPrimaryRoute view).isSome := by simp [hroute]
          rw [apply_routed hview hsome]
          cases hfind : view.links.find? (·.name == name) with
          | none =>
            exact iff_of_false nofun fun ⟨_, _, _, h, _⟩ => not_previous_of_absent hfind h
          | some link =>
            have hname : link.name = name := by simpa using List.find?_some hfind
            cases hcounters : link.counters with
            | some counters =>
              simp only [sampled, hcounters, Samplers.set, hname, if_true,
                previous_of_counted hview hsome hfind (by simp [hcounters])]
              constructor
              · rintro ⟨rfl⟩
                exact ⟨link, nowMs, counters, ⟨rfl, rfl⟩, hcounters, rfl⟩
              · rintro ⟨_, _, counters', ⟨rfl, rfl⟩, hcounters', rfl⟩
                rw [hcounters] at hcounters'
                rw [Option.some.inj hcounters']
            | none =>
              simp only [sampled, hcounters, previous_of_uncounted hview hsome hfind hcounters]
              exact ih

end Baselines

section Rates

/-- The rate is the saturated shares of a sample. -/
def Sampled.Yields (s : Sampled) (nowMs : ℕ) (rate : NetworkRate) : Prop :=
  rate.rxBytesPerS.toNat = saturated (s.share (·.rxBytes) nowMs) ∧
    rate.txBytesPerS.toNat = saturated (s.share (·.txBytes) nowMs)

variable {events : List NetworkEvent} {link : InterfaceInfo} {nowMs : ℕ}

private theorem share_eq {before link : InterfaceInfo} {atMs : ℕ} {old new : InterfaceCounters}
    (hold : before.counters = some old) (hnew : link.counters = some new)
    {direction : InterfaceCounters → UInt64} (hle : direction old ≤ direction new) :
    Sampled.share direction { link, before, atMs } nowMs =
      (direction new - direction old).toNat * 1000 / (nowMs - atMs) := by
  simp only [Sampled.share, hold, hnew, Option.elim_some, UInt64.toNat_sub_of_le _ _ hle]

private theorem yields_iff {before link : InterfaceInfo} {atMs : ℕ} {old new : InterfaceCounters}
    (hold : before.counters = some old) (hnew : link.counters = some new)
    (hrx : old.rxBytes ≤ new.rxBytes) (htx : old.txBytes ≤ new.txBytes) {rate : NetworkRate} :
    Sampled.Yields { link, before, atMs } nowMs rate ↔
      rate =
        { rxBytesPerS := perS (new.rxBytes - old.rxBytes) (nowMs - atMs)
          txBytesPerS := perS (new.txBytes - old.txBytes) (nowMs - atMs) } := by
  obtain ⟨rx, tx⟩ := rate
  rw [Sampled.Yields, share_eq hold hnew hrx, share_eq hold hnew htx, ← toNat_perS, ← toNat_perS,
    UInt64.toNat_inj, UInt64.toNat_inj, NetworkRate.mk.injEq]

/-- A link's rate is what its previous sample yields. -/
theorem linkRate_eq_some (hdistinct : ∀ e ∈ events, e.Distinct) {rate : NetworkRate} :
    linkRate (replay events) nowMs link = some rate ↔
      ∃ before atMs, Previous events link.name before atMs ∧ Comparable before atMs link nowMs ∧
        Sampled.Yields { link, before, atMs } nowMs rate := by
  constructor
  · intro h
    obtain ⟨new, hnew, hvalue⟩ := Option.bind_eq_some_iff.mp h
    cases hbaseline : (replay events link.name).baseline with
    | none => simp [CounterRateSampler.sample, hbaseline, MetricSample.unavailable] at hvalue
    | some b =>
      obtain ⟨before, atMs, old, hprevious, hold, rfl⟩ := (baseline_iff hdistinct).mp hbaseline
      rw [CounterRateSampler.sample, hbaseline] at hvalue
      obtain ⟨hkey, helapsed, ⟨hrx, htx⟩, rfl⟩ := rateSince_eq_some.mp hvalue
      obtain ⟨hindex, hstation⟩ := (key_inj hprevious.name.symm).mp hkey
      exact ⟨before, atMs, hprevious,
        ⟨hindex, hstation, by omega, old, new, hold, hnew, hrx, htx⟩,
        (yields_iff hold hnew hrx htx).mpr rfl⟩
  · rintro ⟨before, atMs, hprevious, ⟨hindex, hstation, helapsed, old, new, hold, hnew, hrx, htx⟩,
      hyields⟩
    have hbaseline := (baseline_iff hdistinct).mpr ⟨before, atMs, old, hprevious, hold, rfl⟩
    refine Option.bind_eq_some_iff.mpr ⟨new, hnew, ?_⟩
    rw [CounterRateSampler.sample, hbaseline]
    exact rateSince_eq_some.mpr ⟨(key_inj hprevious.name.symm).mpr ⟨hindex, hstation⟩, by omega,
      ⟨hrx, htx⟩, (yields_iff hold hnew hrx htx).mp hyields⟩

theorem exists_rates (hdistinct : ∀ e ∈ events, e.Distinct) {links : List InterfaceInfo}
    (h : ∀ link ∈ links, ∃ before atMs, Previous events link.name before atMs ∧
      Comparable before atMs link nowMs) :
    ∃ values : List NetworkRate,
      links.map (linkRate (replay events) nowMs) = values.map some := by
  induction links with
  | nil => exact ⟨[], rfl⟩
  | cons link links ih =>
    obtain ⟨⟨before, atMs, hprevious, hcomparable⟩, hrest⟩ := List.forall_mem_cons.mp h
    obtain ⟨values, hvalues⟩ := ih hrest
    have ⟨_, _, _, old, new, hold, hnew, hrx, htx⟩ := hcomparable
    have hlink := (linkRate_eq_some hdistinct).mpr
      ⟨before, atMs, hprevious, hcomparable, (yields_iff hold hnew hrx htx).mpr rfl⟩
    exact ⟨_ :: values, by rw [List.map_cons, hlink, hvalues, List.map_cons]⟩

theorem foldl_add (values : List NetworkRate) (sum : NetworkRate) :
    (values.foldl NetworkRate.add sum).rxBytesPerS.toNat =
        saturated (sum.rxBytesPerS.toNat + (values.map (·.rxBytesPerS.toNat)).sum) ∧
      (values.foldl NetworkRate.add sum).txBytesPerS.toNat =
        saturated (sum.txBytesPerS.toNat + (values.map (·.txBytesPerS.toNat)).sum) :=
  ⟨foldl_saturated (fun rate : NetworkRate => rate.rxBytesPerS.toNat)
      (fun _ _ => toNat_saturatingAdd _ _) values (toNat_eq_saturated _),
    foldl_saturated (fun rate : NetworkRate => rate.txBytesPerS.toNat)
      (fun _ _ => toNat_saturatingAdd _ _) values (toNat_eq_saturated _)⟩

/-- A link with its previous sample. -/
def Sampled.Kept (events : List NetworkEvent) (nowMs : ℕ) (s : Sampled) : Prop :=
  Previous events s.link.name s.before s.atMs ∧ Comparable s.before s.atMs s.link nowMs

theorem samples_of_rates (hdistinct : ∀ e ∈ events, e.Distinct) {links : List InterfaceInfo}
    {values : List NetworkRate} (h : links.map (linkRate (replay events) nowMs) = values.map some) :
    ∃ samples : List Sampled, samples.map (·.link) = links ∧ (∀ s ∈ samples, s.Kept events nowMs) ∧
      List.Forall₂ (fun s value => s.Yields nowMs value) samples values := by
  induction links generalizing values with
  | nil =>
    rw [List.map_eq_nil_iff.mp h.symm]
    exact ⟨[], rfl, fun _ hs => absurd hs List.not_mem_nil, .nil⟩
  | cons link links ih =>
    cases values with
    | nil => cases h
    | cons value values =>
      obtain ⟨hlink, hrest⟩ := List.cons.inj h
      obtain ⟨before, atMs, hprevious, hcomparable, hyields⟩ :=
        (linkRate_eq_some hdistinct).mp hlink
      obtain ⟨samples, hlinks, hkept, hall⟩ := ih hrest
      exact ⟨{ link, before, atMs } :: samples, by rw [List.map_cons, hlinks],
        List.forall_mem_cons.mpr ⟨⟨hprevious, hcomparable⟩, hkept⟩, .cons hyields hall⟩

/-- Saturating each share and the sum is saturating the sum. -/
theorem saturated_sum {samples : List Sampled} {values : List NetworkRate}
    (h : List.Forall₂ (fun s value => s.Yields nowMs value) samples values) (a : ℕ) :
    saturated (a + (values.map (·.rxBytesPerS.toNat)).sum) =
        saturated (a + (samples.map (·.share (·.rxBytes) nowMs)).sum) ∧
      saturated (a + (values.map (·.txBytesPerS.toNat)).sum) =
        saturated (a + (samples.map (·.share (·.txBytes) nowMs)).sum) := by
  induction h generalizing a with
  | nil => exact ⟨rfl, rfl⟩
  | @cons s value samples values hyields _ ih =>
    have hhead (b c : ℕ) : saturated (a + (saturated b + c)) = saturated (a + b + c) := by
      rw [Nat.add_left_comm, Nat.add_comm (saturated b), saturated_add_right, Nat.add_right_comm]
    rw [List.map_cons, List.map_cons, List.map_cons, List.map_cons, List.sum_cons, List.sum_cons,
      List.sum_cons, List.sum_cons, hyields.1, hyields.2, hhead, hhead, ← Nat.add_assoc,
      ← Nat.add_assoc]
    exact ⟨(ih _).1, (ih _).2⟩

end Rates

section Masks

/-- An interface without the counters that the totals never read. -/
def InterfaceInfo.mask (i : InterfaceInfo) : InterfaceInfo :=
  if i.kind = .tunnel then { i with counters := none } else i

/-- A view without the counters of its tunnels. -/
def SystemView.mask (view : SystemView) : SystemView :=
  { view with interfaces := view.interfaces.map InterfaceInfo.mask }

def NetworkEvent.mask : NetworkEvent → NetworkEvent
  | .collect view context nowMs => .collect (view.map SystemView.mask) context nowMs
  | .wake => .wake

theorem mask_spec (i : InterfaceInfo) :
    i.mask.name = i.name ∧ i.mask.index = i.index ∧ i.mask.kind = i.kind ∧
      i.mask.upRunning = i.upRunning ∧ i.mask.linkActive = i.linkActive ∧
      i.mask.station = i.station := by
  rw [InterfaceInfo.mask]
  split_ifs <;> simp

theorem mask_of_ne {i : InterfaceInfo} (h : i.kind ≠ .tunnel) : i.mask = i := if_neg h

variable (view : SystemView)

private theorem interfaceOf_mask (route : DefaultRoute) :
    view.mask.interfaceOf route = (view.interfaceOf route).map InterfaceInfo.mask := by
  rw [SystemView.interfaceOf, SystemView.mask, List.find?_map]
  congr 2
  funext i
  simp [(mask_spec i).1]

private theorem usable_mask : view.mask.usable = view.usable := by
  funext route
  simp only [SystemView.usable, SystemView.mask, List.any_map]
  congr 1
  funext i
  simp [mask_spec i]

theorem selectPrimaryRoute_mask : selectPrimaryRoute view.mask = selectPrimaryRoute view := by
  have hchosen : view.mask.chosenRoute = view.chosenRoute := by
    simp only [SystemView.chosenRoute, usable_mask]
    rfl
  have hinterface : view.mask.interfaceOf = fun route =>
      (view.interfaceOf route).map InterfaceInfo.mask := funext (interfaceOf_mask view)
  have hunderlying : view.mask.underlying = view.underlying.map InterfaceInfo.mask := by
    have hkind : (fun i : InterfaceInfo => i.kind != .tunnel) ∘ InterfaceInfo.mask =
        fun i => i.kind != .tunnel := funext fun i => by simp [mask_spec i]
    rw [SystemView.underlying, SystemView.underlying, usable_mask, hinterface,
      ← List.map_filterMap, List.find?_map, hkind]
    rfl
  cases hroute : view.chosenRoute with
  | none => simp [selectPrimaryRoute, hchosen, hroute]
  | some route =>
    cases hprimary : view.interfaceOf route with
    | none => simp [selectPrimaryRoute, hchosen, hroute, hinterface, hprimary]
    | some primary =>
      have hkinds : (view.mask.underlying.map fun i => routeKind i.kind) =
          view.underlying.map fun i => routeKind i.kind := by
        rw [hunderlying, Option.map_map]
        congr 1
        exact funext fun i => by simp [mask_spec i]
      simp [selectPrimaryRoute, hchosen, hroute, hinterface, hprimary, hkinds, mask_spec primary]

theorem links_mask : view.mask.links = view.links := by
  have hfilter (primary : Option PrimaryRoute) (interfaces : List InterfaceInfo) :
      (interfaces.map InterfaceInfo.mask).filter (isActiveLink primary) =
        interfaces.filter (isActiveLink primary) := by
    induction interfaces with
    | nil => rfl
    | cons i interfaces ih =>
      rw [List.map_cons]
      by_cases htunnel : i.kind = .tunnel
      · have hoff : isActiveLink primary i = false := by
          cases primary <;> simp [isActiveLink, htunnel]
        have hmask : isActiveLink primary i.mask = false := by
          cases primary <;> simp [isActiveLink, mask_spec i, htunnel]
        rw [List.filter_cons_of_neg (by rw [hmask]; nofun),
          List.filter_cons_of_neg (by rw [hoff]; nofun)]
        exact ih
      · rw [mask_of_ne htunnel, List.filter_cons, List.filter_cons, ih]
  rw [SystemView.links, SystemView.links, selectPrimaryRoute_mask, activeLinks, activeLinks]
  exact congrArg (fun l => (l.mergeSort linkBefore).take maxLinks) (hfilter _ _)

/-- Neither the traffic nor the baselines read a tunnel's counters. -/
theorem traffic_mask (samplers : Samplers) (view : Option SystemView) (nowMs : ℕ) :
    traffic samplers (view.map SystemView.mask) nowMs = traffic samplers view nowMs := by
  cases view with
  | none => rfl
  | some view =>
    have hlinks : activeLinks view.mask (selectPrimaryRoute view) =
        activeLinks view (selectPrimaryRoute view) := by
      have h := links_mask view
      rwa [SystemView.links, selectPrimaryRoute_mask] at h
    simp only [Option.map_some, traffic, selectPrimaryRoute_mask, hlinks]

theorem replay_mask (events : List NetworkEvent) :
    replay (events.map NetworkEvent.mask) = replay events := by
  induction events using List.reverseRecOn with
  | nil => rfl
  | append_singleton events e ih =>
    rw [List.map_append, List.map_singleton, replay_concat, replay_concat, ih]
    cases e with
    | wake => rfl
    | collect view context nowMs =>
      have h := congrArg Prod.snd (traffic_mask (replay events) view nowMs)
      exact h

end Masks

/-- The rate of a collect after a history. -/
def rateAfter (events : List NetworkEvent) (view : Option SystemView) (context : ContextReading)
    (nowMs : ℕ) : Option NetworkRate :=
  (collect (replay events) view context nowMs).1.traffic.rate

private theorem rateAfter_eq_some {events : List NetworkEvent} {view : Option SystemView}
    {context : ContextReading} {nowMs : ℕ}
    (hview : (NetworkEvent.collect view context nowMs).Distinct) {rate : NetworkRate} :
    rateAfter events view context nowMs = some rate ↔
      ∃ v, view = some v ∧ (selectPrimaryRoute v).isSome ∧ v.links ≠ [] ∧
        (v.links.map (linkRate (replay events) nowMs)).foldl (addOption NetworkRate.add)
          (some { rxBytesPerS := 0, txBytesPerS := 0 }) = some rate := by
  cases view with
  | none => exact iff_of_false nofun (by simp)
  | some view =>
    cases hroute : selectPrimaryRoute view with
    | none =>
      refine iff_of_false (fun h => ?_) (by simp [hroute])
      simp [rateAfter, collect, traffic, hroute] at h
    | some route =>
      obtain ⟨-, -, htotal⟩ := @foldl_link nowMs _ (links_nodup hview)
        { samplers := replay events, total := some { rxBytesPerS := 0, txBytesPerS := 0 },
          availability := .available, seen := [] }
      have hrate : rateAfter events (some view) context nowMs =
          if view.links.isEmpty then none
          else (view.links.map (linkRate (replay events) nowMs)).foldl (addOption NetworkRate.add)
            (some { rxBytesPerS := 0, txBytesPerS := 0 }) := by
        rw [← htotal]
        simp only [rateAfter, collect, traffic, SystemView.links, hroute]
      rw [hrate]
      by_cases hempty : view.links = []
      · simp [hempty]
      · simp [hempty, hroute]

/-- The traffic rate, characterised by the history of views. -/
theorem traffic_total (events : List NetworkEvent) (hdistinct : ∀ e ∈ events, e.Distinct)
    (view : Option SystemView) (context : ContextReading) (nowMs : ℕ)
    (hview : (NetworkEvent.collect view context nowMs).Distinct) :
    ((rateAfter events view context nowMs).isSome ↔
      ∃ v, view = some v ∧ (selectPrimaryRoute v).isSome ∧ v.links ≠ [] ∧
        ∀ link ∈ v.links, ∃ before atMs, Previous events link.name before atMs ∧
          Comparable before atMs link nowMs) ∧
    (∀ rate, rateAfter events view context nowMs = some rate →
      ∃ v, ∃ samples : List Sampled, view = some v ∧ samples.map Sampled.link = v.links ∧
        (∀ s ∈ samples, s.Kept events nowMs) ∧
        rate.rxBytesPerS.toNat =
          min (samples.map fun s => s.share (·.rxBytes) nowMs).sum (2 ^ 64 - 1) ∧
        rate.txBytesPerS.toNat =
          min (samples.map fun s => s.share (·.txBytes) nowMs).sum (2 ^ 64 - 1)) ∧
    ∀ events' view', events'.map NetworkEvent.mask = events.map NetworkEvent.mask →
      view'.map SystemView.mask = view.map SystemView.mask →
      (collect (replay events') view' context nowMs).1.traffic =
        (collect (replay events) view context nowMs).1.traffic := by
  have hsome {rate : NetworkRate} := @rateAfter_eq_some events view context nowMs hview rate
  refine ⟨⟨fun h => ?_, ?_⟩, fun rate hrate => ?_, fun events' view' hevents hviews => ?_⟩
  · obtain ⟨rate, hrate⟩ := Option.isSome_iff_exists.mp h
    obtain ⟨v, rfl, hroute, hlinks, hfold⟩ := hsome.mp hrate
    obtain ⟨values, hvalues, -⟩ := (foldl_addOption_eq_some _).mp hfold
    refine ⟨v, rfl, hroute, hlinks, fun link hlink => ?_⟩
    have hmem : linkRate (replay events) nowMs link ∈ values.map some :=
      hvalues ▸ List.mem_map_of_mem hlink
    obtain ⟨value, -, hvalue⟩ := List.mem_map.mp hmem
    obtain ⟨before, atMs, hprevious, hcomparable, -⟩ := (linkRate_eq_some hdistinct).mp hvalue.symm
    exact ⟨before, atMs, hprevious, hcomparable⟩
  · rintro ⟨v, rfl, hroute, hlinks, hall⟩
    obtain ⟨values, hvalues⟩ := exists_rates hdistinct hall
    exact Option.isSome_iff_exists.mpr ⟨_, hsome.mpr
      ⟨v, rfl, hroute, hlinks, (foldl_addOption_eq_some _).mpr ⟨values, hvalues, rfl⟩⟩⟩
  · obtain ⟨v, rfl, -, -, hfold⟩ := hsome.mp hrate
    obtain ⟨values, hvalues, rfl⟩ := (foldl_addOption_eq_some _).mp hfold
    obtain ⟨samples, hlinks, hkept, hyields⟩ := samples_of_rates hdistinct hvalues
    obtain ⟨hrx, htx⟩ := foldl_add values { rxBytesPerS := 0, txBytesPerS := 0 }
    obtain ⟨hrx', htx'⟩ := saturated_sum hyields 0
    refine ⟨v, samples, rfl, hlinks, hkept, ?_, ?_⟩
    · exact hrx.trans (hrx'.trans (by rw [Nat.zero_add, saturated]))
    · exact htx.trans (htx'.trans (by rw [Nat.zero_add, saturated]))
  · show (traffic (replay events') view' nowMs).1 = (traffic (replay events) view nowMs).1
    rw [← replay_mask events', ← traffic_mask _ view', hevents, hviews, replay_mask, traffic_mask]

/-- A Mac on one cable that has received so many bytes. -/
def cabledView (rxBytes : UInt64) : SystemView where
  interfaces :=
    [{ name := "en5", index := 9, kind := .ethernet, upRunning := true, linkActive := true
       station := none, counters := some { rxBytes, txBytes := 7 } }]
  defaultRoutes := [{ interface := "en5", isScoped := false }]

def cabledContext : ContextReading := ContextTracker.init.reading 0

def cabledEvents : List NetworkEvent :=
  [.wake, .collect (some (cabledView 1000)) cabledContext 500]

/-- Three kilobytes in two seconds. -/
theorem traffic_total_cabled :
    ∃ rate, rateAfter cabledEvents (some (cabledView 4000)) cabledContext 2500 = some rate ∧
      rate.rxBytesPerS = 1500 ∧
      ∃ samples : List Sampled, samples.map Sampled.link = (cabledView 4000).links ∧
        rate.rxBytesPerS.toNat =
          min (samples.map fun s => s.share (·.rxBytes) 2500).sum (2 ^ 64 - 1) := by
  have hdistinct : ∀ e ∈ cabledEvents, e.Distinct :=
    List.forall_mem_cons.mpr ⟨trivial, List.forall_mem_singleton.mpr (List.nodup_singleton _)⟩
  have hrate : rateAfter cabledEvents (some (cabledView 4000)) cabledContext 2500 =
      some { rxBytesPerS := 1500, txBytesPerS := 0 } := by
    decide +kernel
  obtain ⟨v, samples, hv, hlinks, -, hrx, -⟩ :=
    (traffic_total cabledEvents hdistinct (some (cabledView 4000)) cabledContext 2500
      (List.nodup_singleton _)).2.1 _ hrate
  cases hv
  exact ⟨_, hrate, rfl, samples, hlinks, hrx⟩

end CydMonitor.Metrics
