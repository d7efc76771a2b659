import CydMonitor.Hooks.Merging
import CydMonitor.Lib.Scan

/-!
# Installed configs

A config is merged by giving every event of the adapter its list in the container. Merging it again
changes nothing.
-/

namespace CydMonitor.Hooks

open Json Scan

theorem nodup_events {template : List Char} {a : Adapter} (h : a ∈ adapters template) :
    (a.events.map EventSpec.event).Nodup := by
  simp only [adapters, List.mem_cons, List.not_mem_nil, or_false] at h
  obtain rfl | rfl | rfl | rfl | rfl := h
  · decide
  · decide
  · decide
  · decide
  · exact List.nodup_nil

theorem events_ne_nil {template key : List Char} {scope : Scope} {timeout : Option ℕ} {a : Adapter}
    (h : a ∈ adapters template) (hformat : a.format = .json key scope timeout) : a.events ≠ [] := by
  simp only [adapters, List.mem_cons, List.not_mem_nil, or_false] at h
  obtain rfl | rfl | rfl | rfl | rfl := h
  · exact List.cons_ne_nil _ _
  · exact List.cons_ne_nil _ _
  · exact List.cons_ne_nil _ _
  · exact List.cons_ne_nil _ _
  · cases hformat

/-- The list of an event, empty if there is none. -/
def listOf (event : List Char) (fields : List (List Char × Json)) : List Json :=
  match (Json.obj fields).get event with
  | some (.arr list) => list
  | _ => []

theorem eventList_eq_ok {event : List Char} {fields : List (List Char × Json)} {list : List Json} :
    eventList (some (.obj fields)) event = .ok list ↔
      listOf event fields = list ∧
        ((Json.obj fields).get event = none ∨ (Json.obj fields).get event = some (.arr list)) := by
  rw [eventList, listOf, Option.bind_some]
  cases (Json.obj fields).get event with
  | none => simp
  | some v => cases v <;> simp

/-- Each of some events is a list or absent. -/
def Lists (events : List (List Char)) (fields : List (List Char × Json)) : Prop :=
  ∀ event ∈ events, eventList (some (.obj fields)) event = .ok (listOf event fields)

section Fields

variable {a : Adapter} {binary : List Char} {timeout : Option ℕ} {specs : List EventSpec}
  {spec : EventSpec} {fields : List (List Char × Json)}

/-- The members once one event is merged. -/
def mergeField (a : Adapter) (binary : List Char) (timeout : Option ℕ)
    (fields : List (List Char × Json)) (spec : EventSpec) : List (List Char × Json) :=
  setField spec.event (.arr (mergeList a spec binary timeout (listOf spec.event fields))) fields

def mergeFields (a : Adapter) (binary : List Char) (timeout : Option ℕ) (specs : List EventSpec)
    (fields : List (List Char × Json)) : List (List Char × Json) :=
  specs.foldl (mergeField a binary timeout) fields

@[simp] theorem mergeFields_nil : mergeFields a binary timeout [] fields = fields :=
  rfl

@[simp] theorem mergeFields_cons : mergeFields a binary timeout (spec :: specs) fields =
    mergeFields a binary timeout specs (mergeField a binary timeout fields spec) :=
  rfl

theorem mergeEvent_obj : mergeEvent a binary timeout (.obj fields) spec =
    (eventList (some (.obj fields)) spec.event).map fun _ =>
      .obj (mergeField a binary timeout fields spec) := by
  rw [mergeEvent, mergeField, eventList, listOf, Option.bind_some]
  cases hget : (Json.obj fields).get spec.event with
  | none =>
    simp only [Option.isNone_none, if_true, set_obj, get_setField_self, setField_setField]
    rfl
  | some v =>
    simp only [Option.isNone_some, Bool.false_eq_true, if_false, hget]
    cases v <;> rfl

theorem get_mergeField_self : (Json.obj (mergeField a binary timeout fields spec)).get spec.event =
    some (.arr (mergeList a spec binary timeout (listOf spec.event fields))) :=
  get_setField_self

theorem get_mergeField_ne {key : List Char} (h : key ≠ spec.event) :
    (Json.obj (mergeField a binary timeout fields spec)).get key = (Json.obj fields).get key :=
  get_setField_ne h

theorem get_mergeFields_ne {key : List Char} (h : key ∉ specs.map EventSpec.event) :
    (Json.obj (mergeFields a binary timeout specs fields)).get key = (Json.obj fields).get key := by
  induction specs generalizing fields with
  | nil => rfl
  | cons spec specs ih =>
    obtain ⟨hspec, hspecs⟩ := not_or.mp fun hmem => h (List.mem_cons.mpr hmem)
    rw [mergeFields_cons, ih hspecs, get_mergeField_ne hspec]

theorem listOf_mergeField_ne {key : List Char} (h : key ≠ spec.event) :
    listOf key (mergeField a binary timeout fields spec) = listOf key fields := by
  rw [listOf, listOf, get_mergeField_ne h]

theorem get_mergeFields_of_mem (a : Adapter) (binary : List Char) (timeout : Option ℕ)
    (fields : List (List Char × Json)) (hnodup : (specs.map EventSpec.event).Nodup)
    (hmem : spec ∈ specs) :
    (Json.obj (mergeFields a binary timeout specs fields)).get spec.event =
      some (.arr (mergeList a spec binary timeout (listOf spec.event fields))) := by
  induction specs generalizing fields with
  | nil => cases hmem
  | cons head specs ih =>
    rw [List.map_cons, List.nodup_cons] at hnodup
    rw [mergeFields_cons]
    cases hmem with
    | head => rw [get_mergeFields_ne hnodup.1, get_mergeField_self]
    | tail _ hmem =>
      have hne : spec.event ≠ head.event := fun heq =>
        hnodup.1 (heq ▸ List.mem_map_of_mem hmem)
      rw [ih _ hnodup.2 hmem, listOf_mergeField_ne hne]

/-- New events come after the members there are. -/
theorem keys_mergeFields (hnodup : (specs.map EventSpec.event).Nodup) :
    (mergeFields a binary timeout specs fields).map Prod.fst =
      fields.map Prod.fst ++ (specs.map EventSpec.event).filter (· ∉ fields.map Prod.fst) := by
  induction specs generalizing fields with
  | nil => simp
  | cons spec specs ih =>
    rw [List.map_cons, List.nodup_cons] at hnodup
    have hrest : (specs.map EventSpec.event).filter
          (· ∉ (mergeField a binary timeout fields spec).map Prod.fst) =
        (specs.map EventSpec.event).filter (· ∉ fields.map Prod.fst) := by
      refine List.filter_congr fun event hevent => ?_
      have hne : event ≠ spec.event := fun heq => hnodup.1 (heq ▸ hevent)
      rw [mergeField, keys_setField]
      split_ifs
      · rfl
      · simp [hne]
    rw [mergeFields_cons, ih hnodup.2, hrest, mergeField, keys_setField, List.map_cons,
      List.filter_cons]
    by_cases h : spec.event ∈ fields.map Prod.fst
    · simp only [h, if_true, not_true_eq_false, decide_false, Bool.false_eq_true, if_false]
    · simp only [h, if_false, not_false_eq_true, decide_true, if_true, List.append_assoc,
        List.singleton_append]

theorem mergeFields_eq_self (h : ∀ spec ∈ specs, (Json.obj fields).get spec.event =
    some (.arr (mergeList a spec binary timeout (listOf spec.event fields)))) :
    mergeFields a binary timeout specs fields = fields := by
  induction specs with
  | nil => rfl
  | cons spec specs ih =>
    obtain ⟨hspec, hspecs⟩ := List.forall_mem_cons.mp h
    rw [mergeFields_cons, mergeField, setField_of_get hspec]
    exact ih hspecs

theorem mergeFields_mergeFields (hnodup : (specs.map EventSpec.event).Nodup) :
    mergeFields a binary timeout specs (mergeFields a binary timeout specs fields) =
      mergeFields a binary timeout specs fields := by
  refine mergeFields_eq_self fun spec hspec => ?_
  have hget := get_mergeFields_of_mem a binary timeout fields hnodup hspec
  rw [listOf, hget]
  simp only [mergeList_mergeList]

theorem foldlM_mergeEvent (hnodup : (specs.map EventSpec.event).Nodup) {v : Json} :
    specs.foldlM (mergeEvent a binary timeout) (.obj fields) = .ok v ↔
      Lists (specs.map EventSpec.event) fields ∧
        v = .obj (mergeFields a binary timeout specs fields) := by
  induction specs generalizing fields with
  | nil =>
    constructor
    · intro h
      cases h
      exact ⟨nofun, rfl⟩
    · intro ⟨_, h⟩
      rw [h]
      rfl
  | cons spec specs ih =>
    rw [List.map_cons, List.nodup_cons] at hnodup
    rw [List.foldlM_cons, mergeEvent_obj, Lists, List.map_cons, List.forall_mem_cons,
      mergeFields_cons]
    have hsame : Lists (specs.map EventSpec.event) (mergeField a binary timeout fields spec) ↔
        Lists (specs.map EventSpec.event) fields := by
      refine forall₂_congr fun event hevent => ?_
      have hne : event ≠ spec.event := fun heq => hnodup.1 (heq ▸ hevent)
      rw [eventList, eventList, listOf_mergeField_ne hne, Option.bind_some, Option.bind_some,
        get_mergeField_ne hne]
    cases hlist : eventList (some (.obj fields)) spec.event with
    | error reason =>
      constructor
      · intro h
        cases h
      · intro ⟨⟨h, _⟩, _⟩
        cases h
    | ok list =>
      have hfields := (ih hnodup.2).trans (and_congr_left' hsame)
      refine Iff.trans hfields (and_congr_left' ?_)
      rw [(eventList_eq_ok.mp hlist).1]
      exact (and_iff_right rfl).symm

end Fields

section Roots

variable {a : Adapter} {key binary : List Char} {scope : Scope} {timeout : Option ℕ}

/-- The members of the container, none if there is no container. -/
def eventsOf (key : List Char) (fields : List (List Char × Json)) : List (List Char × Json) :=
  match (Json.obj fields).get key with
  | some (.obj events) => events
  | _ => []

/-- Whether the container is an object or absent. -/
def HasContainer (key : List Char) (fields : List (List Char × Json)) : Prop :=
  (Json.obj fields).get key = none ∨ (Json.obj fields).get key = some (.obj (eventsOf key fields))

theorem container_eq_ok {root : Json} {c : Option Json} :
    container root key = .ok c ↔ ∃ fields, root = .obj fields ∧ HasContainer key fields ∧
      c = (Json.obj fields).get key := by
  cases root with
  | obj fields =>
    have hsame (P : List (List Char × Json) → Prop) :
        (∃ other, Json.obj fields = .obj other ∧ P other) ↔ P fields := by
      simp
    rw [hsame, container, HasContainer, eventsOf]
    cases hget : (Json.obj fields).get key with
    | none => simp [eq_comm]
    | some v => cases v <;> simp [eq_comm]
  | _ => simp [container]

/-- The members of a config that is merged. -/
def mergeRoot (a : Adapter) (key binary : List Char) (timeout : Option ℕ)
    (fields : List (List Char × Json)) : List (List Char × Json) :=
  setField key (.obj (mergeFields a binary timeout a.events (eventsOf key fields))) fields

theorem merge_obj (hformat : a.format = .json key scope timeout)
    {fields : List (List Char × Json)} (h : HasContainer key fields) :
    merge a (.obj fields) binary =
      (a.events.foldlM (mergeEvent a binary timeout) (.obj (eventsOf key fields))).map fun events =>
        Json.set key events (.obj fields) := by
  have hcontainer : container (.obj fields) key = .ok ((Json.obj fields).get key) :=
    container_eq_ok.mpr ⟨fields, rfl, h, rfl⟩
  unfold merge
  simp only [hformat, hcontainer]
  obtain hget | hget := h
  · have hnone : eventsOf key fields = [] := by
      rw [eventsOf, hget]
    simp only [hnone, hget, Option.isNone_none, if_true, set_obj, get_setField_self,
      setField_setField]
    rfl
  · simp only [hget, Option.isNone_some, Bool.false_eq_true, if_false, set_obj]
    rfl

theorem merge_eq_ok (hformat : a.format = .json key scope timeout)
    (hnodup : (a.events.map EventSpec.event).Nodup) {root merged : Json} :
    merge a root binary = .ok merged ↔ ∃ fields, root = .obj fields ∧ HasContainer key fields ∧
      Lists (a.events.map EventSpec.event) (eventsOf key fields) ∧
        merged = .obj (mergeRoot a key binary timeout fields) := by
  constructor
  · intro h
    cases hcontainer : container root key with
    | error reason =>
      rw [merge, hformat] at h
      simp only [hcontainer] at h
      cases h
    | ok c =>
      obtain ⟨fields, rfl, hfields, -⟩ := container_eq_ok.mp hcontainer
      rw [merge_obj hformat hfields] at h
      obtain ⟨events, hevents, rfl⟩ := except_map_eq_ok.mp h
      obtain ⟨hlists, rfl⟩ := (foldlM_mergeEvent hnodup).mp hevents
      exact ⟨fields, rfl, hfields, hlists, rfl⟩
  · intro ⟨fields, hroot, hfields, hlists, hmerged⟩
    rw [hroot, hmerged, merge_obj hformat hfields, (foldlM_mergeEvent hnodup).mpr ⟨hlists, rfl⟩]
    rfl

theorem get_mergeRoot (a : Adapter) (key binary : List Char) (timeout : Option ℕ)
    (fields : List (List Char × Json)) :
    (Json.obj (mergeRoot a key binary timeout fields)).get key =
      some (.obj (mergeFields a binary timeout a.events (eventsOf key fields))) :=
  get_setField_self

theorem eventsOf_mergeRoot (fields : List (List Char × Json)) :
    eventsOf key (mergeRoot a key binary timeout fields) =
      mergeFields a binary timeout a.events (eventsOf key fields) := by
  rw [eventsOf, get_mergeRoot]

/-- A merged config is left as it is. -/
theorem merge_merged (hformat : a.format = .json key scope timeout)
    (hnodup : (a.events.map EventSpec.event).Nodup) {root merged : Json}
    (h : merge a root binary = .ok merged) : merge a merged binary = .ok merged := by
  obtain ⟨fields, rfl, hfields, hlists, rfl⟩ := (merge_eq_ok hformat hnodup).mp h
  refine (merge_eq_ok hformat hnodup).mpr ⟨_, rfl, .inr ?_, fun event hevent => ?_, ?_⟩
  · rw [eventsOf_mergeRoot, get_mergeRoot]
  · obtain ⟨spec, hspec, rfl⟩ := List.mem_map.mp hevent
    refine eventList_eq_ok.mpr ⟨rfl, .inr ?_⟩
    rw [eventsOf_mergeRoot, listOf, get_mergeFields_of_mem _ _ _ _ hnodup hspec]
  · rw [mergeRoot.eq_1 a key binary timeout (mergeRoot a key binary timeout fields),
      eventsOf_mergeRoot, mergeFields_mergeFields hnodup, setField_of_get (get_mergeRoot ..)]

end Roots

/-- The config that an install starts from; there is none if the text is no JSON. -/
def startingRoot (scope : Scope) (existing : Option (List Char)) : Option Json :=
  match existing with
  | none => some (.obj [])
  | some text =>
    match parse text with
    | .ok root => some (if scope = .wholeFile then .obj [] else root)
    | .error _ => none

theorem install_eq_ok {a : Adapter} {key binary : List Char} {scope : Scope} {timeout : Option ℕ}
    (hformat : a.format = .json key scope timeout) {existing : Option (List Char)} {edit : Edit} :
    install a existing binary = .ok edit ↔ ∃ root merged, startingRoot scope existing = some root ∧
      merge a root binary = .ok merged ∧
        ((edit = .unchanged ∧ ∃ text, existing = some text ∧ parse text = .ok merged) ∨
          (edit = .write (pretty merged) ∧
            ∀ text, existing = some text → parse text ≠ .ok merged)) := by
  unfold install startingRoot
  simp only [hformat]
  cases existing with
  | none =>
    simp only [except_ok_bind]
    constructor
    · intro h
      obtain ⟨merged, hmerge, hedit⟩ := except_bind_eq_ok.mp h
      cases hedit
      exact ⟨_, merged, rfl, hmerge, .inr ⟨rfl, nofun⟩⟩
    · intro ⟨root, merged, hroot, hmerge, hedit⟩
      cases hroot
      obtain ⟨-, text, htext, -⟩ | ⟨rfl, -⟩ := hedit
      · cases htext
      · exact except_bind_eq_ok.mpr ⟨merged, hmerge, rfl⟩
  | some text =>
    dsimp only
    cases hparse : parse text with
    | error error =>
      constructor
      · intro h
        cases h
      · intro ⟨root, merged, hroot, _⟩
        cases hroot
    | ok parsed =>
      simp only [except_ok_map, Except.mapError, except_ok_bind]
      constructor
      · intro h
        obtain ⟨merged, hmerge, hedit⟩ := except_bind_eq_ok.mp h
        refine ⟨_, merged, rfl, hmerge, ?_⟩
        by_cases hsame : parsed = merged
        · rw [if_pos (congrArg some hsame)] at hedit
          cases hedit
          exact .inl ⟨rfl, text, rfl, hparse.trans (congrArg _ hsame)⟩
        · rw [if_neg fun h => hsame (Option.some.inj h)] at hedit
          cases hedit
          refine .inr ⟨rfl, fun other hother => ?_⟩
          cases hother
          rw [hparse]
          exact fun h => hsame (Except.ok.inj h)
      · intro ⟨root, merged, hroot, hmerge, hedit⟩
        cases hroot
        refine except_bind_eq_ok.mpr ⟨merged, hmerge, ?_⟩
        obtain ⟨rfl, other, hother, hmerged⟩ | ⟨rfl, hother⟩ := hedit
        · cases hother
          rw [hparse] at hmerged
          rw [if_pos (congrArg some (Except.ok.inj hmerged))]
          rfl
        · have hne : some parsed ≠ some merged := fun h =>
            hother text rfl (hparse.trans (congrArg _ (Option.some.inj h)))
          rw [if_neg hne]
          rfl

/-- Without a config an install writes one. -/
theorem install_new {template key binary : List Char} {scope : Scope} {timeout : Option ℕ}
    {a : Adapter} (ha : a ∈ adapters template) (hformat : a.format = .json key scope timeout) :
    install a none binary =
      .ok (.write (pretty (.obj (mergeRoot a key binary timeout [])))) := by
  refine (install_eq_ok hformat).mpr ⟨.obj [], _, rfl, ?_, .inr ⟨rfl, nofun⟩⟩
  exact (merge_eq_ok hformat (nodup_events ha)).mpr
    ⟨[], rfl, .inl rfl, fun event _ => eventList_eq_ok.mpr ⟨rfl, .inl rfl⟩, rfl⟩

/-- The adapter of Claude. -/
def claude : Adapter := (adapters []).get ⟨1, by decide⟩

theorem claude_mem : claude ∈ adapters [] := List.get_mem _ _

theorem claude_format : claude.format = .json hooksKey .shared (some 5) := rfl

theorem Good.pos {n : ℕ} {v : Json} (h : Good n v) : ∃ m, n = m + 1 := by
  have hdepth : 1 ≤ v.depth := by
    cases v <;> simp [Json.depth]
  exact ⟨n - 1, by have := h.depth; omega⟩

theorem good_pointOurs {n : ℕ} {slug want : List Char} {timeout : Option ℕ} {h : Json}
    (hgood : Good n h) : Good n (pointOurs slug want timeout h) := by
  rw [pointOurs]
  split_ifs with hours
  · obtain ⟨command, hcommand⟩ := isHandler_iff.mp (isHandler_of_ours hours)
    obtain ⟨fields, rfl, hget⟩ := handlerCommand_eq_some.mp hcommand
    obtain ⟨m, rfl⟩ := hgood.pos
    obtain ⟨k, rfl⟩ := (hgood.of_get hget).pos
    rw [point_obj]
    exact good_pointFields hgood
  · exact hgood

theorem good_mapItem {f : Json → Json} (hf : ∀ n h, Good n h → Good n (f h)) {n : ℕ} {item : Json}
    (h : Good n item) : Good n (mapItem f item) := by
  rw [mapItem]
  split_ifs with hitem
  · exact hf n item h
  · cases hgroup : groupHooks item with
    | none => exact h
    | some inner =>
      obtain ⟨fields, rfl, hget⟩ := groupHooks_eq_some.mp hgroup
      obtain ⟨m, rfl⟩ := h.pos
      have hinner := h.of_get hget
      obtain ⟨k, rfl⟩ := hinner.pos
      refine h.setField (good_arr.mpr fun v hv => ?_)
      obtain ⟨w, hw, rfl⟩ := List.mem_map.mp hv
      have hgood := good_arr.mp hinner w hw
      split_ifs
      · exact hf k w hgood
      · exact hgood

theorem good_mergeList {n : ℕ} (a : Adapter) (spec : EventSpec) (binary : List Char)
    (timeout : Option ℕ) {list : List Json} (h : ∀ item ∈ list, Good (n + 4) item) :
    ∀ item ∈ mergeList a spec binary timeout list, Good (n + 4) item := by
  intro item hitem
  rw [mergeList, List.mem_append] at hitem
  obtain hitem | hitem := hitem
  · obtain ⟨old, hold, rfl⟩ := List.mem_map.mp hitem
    exact good_mapItem (fun _ _ => good_pointOurs) (h old hold)
  · split_ifs at hitem
    · cases hitem
    · obtain rfl := List.mem_singleton.mp hitem
      exact (good_newEntry a spec binary timeout).mono (by omega)

theorem good_mergeFields {n : ℕ} (a : Adapter) (binary : List Char) (timeout : Option ℕ)
    (specs : List EventSpec) {fields : List (List Char × Json)} (h : Good (n + 6) (.obj fields)) :
    Good (n + 6) (.obj (mergeFields a binary timeout specs fields)) := by
  induction specs generalizing fields with
  | nil => exact h
  | cons spec specs ih =>
    refine ih (h.setField (good_arr.mpr (good_mergeList a spec binary timeout ?_)))
    intro item hitem
    rw [listOf] at hitem
    cases hget : (Json.obj fields).get spec.event with
    | none =>
      rw [hget] at hitem
      cases hitem
    | some v =>
      rw [hget] at hitem
      cases v with
      | arr list => exact good_arr.mp (h.of_get hget) item hitem
      | _ => cases hitem

theorem good_eventsOf {n : ℕ} (key : List Char) {fields : List (List Char × Json)}
    (h : Good (n + 2) (.obj fields)) : Good (n + 1) (.obj (eventsOf key fields)) := by
  rw [eventsOf]
  cases hget : (Json.obj fields).get key with
  | none => exact good_obj.mpr ⟨List.nodup_nil, nofun⟩
  | some v =>
    cases v with
    | obj events => exact h.of_get hget
    | _ => exact good_obj.mpr ⟨List.nodup_nil, nofun⟩

theorem good_mergeRoot {n : ℕ} (a : Adapter) (key binary : List Char) (timeout : Option ℕ)
    {fields : List (List Char × Json)} (h : Good (n + 7) (.obj fields)) :
    Good (n + 7) (.obj (mergeRoot a key binary timeout fields)) :=
  h.setField (good_mergeFields a binary timeout a.events (good_eventsOf key h))

theorem good_startingRoot {scope : Scope} {existing : Option (List Char)} {root : Json}
    (h : startingRoot scope existing = some root) : Good maxDepth root := by
  have hempty : Good maxDepth (.obj []) := good_obj.mpr ⟨List.nodup_nil, nofun⟩
  cases existing with
  | none => exact Option.some.inj h ▸ hempty
  | some text =>
    unfold startingRoot at h
    cases hparse : parse text with
    | error error =>
      simp only [hparse] at h
      cases h
    | ok parsed =>
      simp only [hparse, Option.some.injEq] at h
      rw [← h]
      split_ifs
      · exact hempty
      · exact good_of_parse hparse

/-- What an install writes reads back as the config it merged, if it is not too long. -/
theorem parse_merged {template key binary : List Char} {scope : Scope} {timeout : Option ℕ}
    {a : Adapter} (ha : a ∈ adapters template) (hformat : a.format = .json key scope timeout)
    {existing : Option (List Char)} {root merged : Json}
    (hroot : startingRoot scope existing = some root) (hmerge : merge a root binary = .ok merged)
    (hbytes : byteLength (pretty merged) ≤ maxBytes) : parse (pretty merged) = .ok merged := by
  obtain ⟨fields, rfl, -, -, rfl⟩ := (merge_eq_ok hformat (nodup_events ha)).mp hmerge
  have hgood : Good (25 + 7) (.obj fields) := good_startingRoot hroot
  exact (good_mergeRoot a key binary timeout hgood).parse_pretty hbytes

end CydMonitor.Hooks
