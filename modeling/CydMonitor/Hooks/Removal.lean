import CydMonitor.Hooks.Judging

/-!
# What a remove leaves

A handler of ours goes from its event's list, or from its group, and what is empty then goes too.
After an install into a config without handlers of ours this gives the config back, up to lists and
containers that were empty before.
-/

namespace CydMonitor.Hooks

open Json Scan

section Strip

variable {slug : List Char}

theorem any_filter_isHandler (inner : List Json) :
    (inner.filter isHandler).any (isOurHandler slug) = inner.any (isOurHandler slug) := by
  rw [List.any_filter]
  refine congrArg (fun p => inner.any p) (funext fun h => ?_)
  cases hours : isOurHandler slug h with
  | true => rw [isHandler_of_ours hours, Bool.true_and]
  | false => rw [Bool.and_false]

theorem filter_ours_eq_self {inner : List Json} :
    inner.filter (fun h => !isOurHandler slug h) = inner ↔
      inner.any (isOurHandler slug) = false := by
  rw [List.filter_eq_self, List.any_eq_false]
  simp

/-- What can happen to an item. -/
inductive Stripped (slug : List Char) : Json → Option Json × Bool → Prop where
  | kept {item : Json} (h : (itemHandlers item).any (isOurHandler slug) = false) :
      Stripped slug item (some item, false)
  | handler {item : Json} (h : isOurHandler slug item = true) : Stripped slug item (none, true)
  | emptied {fields : List (List Char × Json)} {inner : List Json}
      (hitem : isHandler (.obj fields) = false)
      (hget : (Json.obj fields).get hooksKey = some (.arr inner)) (hne : inner ≠ [])
      (h : ∀ handler ∈ inner, isOurHandler slug handler = true) :
      Stripped slug (.obj fields) (none, true)
  | thinned {fields : List (List Char × Json)} {inner : List Json}
      (hitem : isHandler (.obj fields) = false)
      (hget : (Json.obj fields).get hooksKey = some (.arr inner))
      (hours : inner.any (isOurHandler slug) = true)
      (hkept : inner.filter (fun h => !isOurHandler slug h) ≠ []) :
      Stripped slug (.obj fields) (some (.obj (setField hooksKey
        (.arr (inner.filter fun h => !isOurHandler slug h)) fields)), true)

theorem stripped_stripItem (slug : List Char) (item : Json) :
    Stripped slug item (stripItem slug item) := by
  unfold stripItem
  cases hitem : isHandler item with
  | true =>
    simp only [if_true]
    split_ifs with hours
    · exact .handler hours
    · refine .kept ?_
      rw [itemHandlers, if_pos hitem]
      simpa using hours
  | false =>
    simp only [Bool.false_eq_true, if_false]
    cases hgroup : groupHooks item with
    | none =>
      refine .kept ?_
      rw [itemHandlers, hitem, hgroup]
      rfl
    | some inner =>
      obtain ⟨fields, rfl, hget⟩ := groupHooks_eq_some.mp hgroup
      have hlength : (inner.filter fun h => !isOurHandler slug h).length = inner.length ↔
          inner.any (isOurHandler slug) = false := by
        rw [← filter_ours_eq_self, List.length_filter_eq_length_iff, List.filter_eq_self]
      dsimp only
      cases hany : inner.any (isOurHandler slug) with
      | false =>
        rw [if_neg (not_not.mpr (hlength.mpr hany))]
        refine .kept ?_
        rw [itemHandlers, hitem, hgroup]
        simpa only [Bool.false_eq_true, if_false, Option.getD_some, any_filter_isHandler] using hany
      | true =>
        have hne : (inner.filter fun h => !isOurHandler slug h).length ≠ inner.length := fun h => by
          rw [hlength.mp h] at hany
          cases hany
        rw [if_pos hne]
        by_cases hkept : inner.filter (fun h => !isOurHandler slug h) = []
        · rw [hkept]
          refine .emptied hitem hget ?_ ?_
          · rintro rfl
            cases hany
          · simpa using List.filter_eq_nil_iff.mp hkept
        · rw [List.isEmpty_eq_false_iff.mpr hkept]
          exact .thinned hitem hget hany hkept

theorem stripItem_of_stripped {item : Json} {left : Option Json × Bool}
    (h : Stripped slug item left) : (itemHandlers item).any (isOurHandler slug) = left.2 := by
  cases h with
  | kept h => exact h
  | handler h =>
    rw [itemHandlers, if_pos (isHandler_of_ours h)]
    simpa using h
  | @emptied fields inner hitem hget hne h =>
    have hgroup : groupHooks (.obj fields) = some inner := groupHooks_eq_some.mpr ⟨_, rfl, hget⟩
    rw [itemHandlers, hitem, hgroup]
    simp only [Bool.false_eq_true, if_false, Option.getD_some, any_filter_isHandler]
    obtain ⟨handler, hmem⟩ := List.exists_mem_of_ne_nil _ hne
    exact List.any_eq_true.mpr ⟨handler, hmem, h handler hmem⟩
  | @thinned fields inner hitem hget hours hkept =>
    have hgroup : groupHooks (.obj fields) = some inner := groupHooks_eq_some.mpr ⟨_, rfl, hget⟩
    rw [itemHandlers, hitem, hgroup]
    simpa only [Bool.false_eq_true, if_false, Option.getD_some, any_filter_isHandler] using hours

/-- Something goes from an item exactly when it has a handler of ours. -/
theorem stripItem_snd (slug : List Char) (item : Json) :
    (stripItem slug item).2 = (itemHandlers item).any (isOurHandler slug) :=
  (stripItem_of_stripped (stripped_stripItem slug item)).symm

theorem stripItem_clean {item : Json} (h : (itemHandlers item).any (isOurHandler slug) = false) :
    stripItem slug item = (some item, false) := by
  have hstripped := stripped_stripItem slug item
  have hsnd := stripItem_snd slug item
  rw [h] at hsnd
  generalize stripItem slug item = left at hstripped hsnd
  cases hstripped with
  | kept _ => rfl
  | _ => cases hsnd

/-- What is left of an item has no handler of ours. -/
theorem clean_stripItem {item left : Json} (h : (stripItem slug item).1 = some left) :
    (itemHandlers left).any (isOurHandler slug) = false := by
  have hstripped := stripped_stripItem slug item
  generalize stripItem slug item = result at hstripped h
  cases hstripped with
  | kept hclean => exact Option.some.inj h ▸ hclean
  | handler _ => cases h
  | emptied _ _ _ _ => cases h
  | @thinned fields inner hitem hget hours hkept =>
    have hgroup : groupHooks (.obj fields) = some inner := groupHooks_eq_some.mpr ⟨_, rfl, hget⟩
    obtain ⟨hleft, hnot⟩ := group_set hgroup hitem (inner.filter fun h => !isOurHandler slug h)
    rw [← Option.some.inj h, itemHandlers]
    rw [set_obj] at hleft hnot
    rw [hleft, hnot]
    simp only [Bool.false_eq_true, if_false, Option.getD_some, any_filter_isHandler]
    simp [List.any_filter]

theorem stripOurs_snd (slug : List Char) (list : List Json) :
    (stripOurs slug list).2 = (handlers list).any (isOurHandler slug) := by
  rw [stripOurs, handlers, List.any_flatMap]
  exact congrArg (fun p => list.any p) (funext (stripItem_snd slug))

theorem stripOurs_clean {list : List Json} (h : (handlers list).any (isOurHandler slug) = false) :
    stripOurs slug list = (list, false) := by
  have hitems : ∀ item ∈ list, (itemHandlers item).any (isOurHandler slug) = false := by
    simpa [handlers, List.any_flatMap] using h
  refine Prod.ext ?_ ((stripOurs_snd slug list).trans h)
  rw [stripOurs]
  refine Eq.trans (List.filterMap_congr fun item hitem => ?_) (List.filterMap_some)
  rw [stripItem_clean (hitems item hitem)]

theorem clean_stripOurs (list : List Json) :
    (handlers (stripOurs slug list).1).any (isOurHandler slug) = false := by
  rw [handlers, List.any_flatMap, List.any_eq_false]
  intro item hitem
  obtain ⟨old, -, hold⟩ := List.mem_filterMap.mp hitem
  rw [clean_stripItem hold]
  exact Bool.false_ne_true

end Strip

section Undone

variable (a : Adapter) (spec : EventSpec) (binary : List Char) (timeout : Option ℕ)

theorem mapItem_clean {slug want : List Char} {item : Json}
    (h : (itemHandlers item).any (isOurHandler slug) = false) :
    mapItem (pointOurs slug want timeout) item = item := by
  have hsame {handler : Json} (hours : isOurHandler slug handler = false) :
      pointOurs slug want timeout handler = handler := by
    rw [pointOurs, hours]
    rfl
  rw [itemHandlers] at h
  rw [mapItem]
  cases hitem : isHandler item with
  | true =>
    rw [hitem] at h
    exact hsame (by simpa using h)
  | false =>
    cases hgroup : groupHooks item with
    | none => rfl
    | some inner =>
      obtain ⟨fields, rfl, hget⟩ := groupHooks_eq_some.mp hgroup
      simp only [hitem, hgroup, Bool.false_eq_true, if_false, Option.getD_some,
        any_filter_isHandler] at h ⊢
      have hinner : (inner.map fun h => if isHandler h then pointOurs slug want timeout h else h) =
          inner := by
        refine Eq.trans (List.map_congr_left fun handler hmem => ?_) (List.map_id inner)
        have hours := List.any_eq_false.mp h handler hmem
        rw [hsame (Bool.eq_false_iff.mpr hours), ite_self, id]
      rw [hinner, set_obj, setField_of_get hget]

/-- Without a handler of ours a list only gets the new entry. -/
theorem mergeList_clean {list : List Json} (h : (handlers list).any (isOurHandler a.slug) = false) :
    mergeList a spec binary timeout list = list ++ [newEntry a spec binary timeout] := by
  have hitems : ∀ item ∈ list, (itemHandlers item).any (isOurHandler a.slug) = false := by
    simpa [handlers, List.any_flatMap] using h
  rw [mergeList, h]
  refine congrArg (· ++ _) ?_
  exact Eq.trans (List.map_congr_left fun item hitem => mapItem_clean timeout (hitems item hitem))
    (List.map_id list)

theorem stripItem_newEntry : stripItem a.slug (newEntry a spec binary timeout) = (none, true) := by
  have hours := isOurHandler_newHandler a spec binary timeout
  obtain h | ⟨hnot, hgroup⟩ := newEntry_cases a spec binary timeout
  · rw [h, stripItem, if_pos (isHandler_of_ours hours), if_pos hours]
  · rw [stripItem, hnot, hgroup]
    simp [hours]

theorem stripOurs_mergeList {list : List Json}
    (h : (handlers list).any (isOurHandler a.slug) = false) :
    stripOurs a.slug (mergeList a spec binary timeout list) = (list, true) := by
  have hclean := stripOurs_clean h
  rw [stripOurs, Prod.mk.injEq] at hclean
  rw [mergeList_clean a spec binary timeout h, stripOurs, List.filterMap_append, hclean.1,
    List.any_append, hclean.2]
  simp [stripItem_newEntry]

/-- Whether no list among the members has a handler of ours. -/
def Clean (slug : List Char) (fields : List (List Char × Json)) : Prop :=
  ∀ key list, (key, .arr list) ∈ fields → (handlers list).any (isOurHandler slug) = false

variable {a binary timeout} {specs : List EventSpec} {fields : List (List Char × Json)}

theorem stripField_clean {slug : List Char} (h : Clean slug fields) {f : List Char × Json}
    (hf : f ∈ fields) : stripField slug f = (some f, false) := by
  obtain ⟨key, v⟩ := f
  rw [stripField]
  cases v with
  | arr list =>
    dsimp only
    rw [stripOurs_clean (h key list hf)]
    rfl
  | _ => rfl

theorem stripField_merged {list : List Json}
    (h : (handlers list).any (isOurHandler a.slug) = false) :
    stripField a.slug (spec.event, .arr (mergeList a spec binary timeout list)) =
      (if list = [] then none else some (spec.event, .arr list), true) := by
  rw [stripField]
  dsimp only
  rw [stripOurs_mergeList a spec binary timeout h]
  cases list <;> rfl

/-- The members but the empty lists of the events. -/
def tidyFields (specs : List EventSpec) (fields : List (List Char × Json)) :
    List (List Char × Json) :=
  fields.filter fun f => !(f.1 ∈ specs.map EventSpec.event && f.2 = .arr [])

/-- Members found by their keys. -/
theorem filterMap_keys (hnodup : (fields.map Prod.fst).Nodup)
    (g : List Char × Json → Option (List Char × Json)) :
    fields.filterMap g = (fields.map Prod.fst).filterMap fun key =>
      ((Json.obj fields).get key).bind fun v => g (key, v) := by
  rw [List.filterMap_map]
  refine List.filterMap_congr fun f hf => ?_
  rw [Function.comp_apply, get_of_mem hnodup hf]
  rfl

theorem listOf_clean {slug : List Char} (event : List Char) (h : Clean slug fields) :
    (handlers (listOf event fields)).any (isOurHandler slug) = false := by
  rw [listOf]
  cases hget : (Json.obj fields).get event with
  | none => rfl
  | some v =>
    cases v with
    | arr list => exact h event list (mem_of_get hget)
    | _ => rfl

theorem nodup_mergeFields (hspecs : (specs.map EventSpec.event).Nodup)
    (hnodup : (fields.map Prod.fst).Nodup) :
    ((mergeFields a binary timeout specs fields).map Prod.fst).Nodup := by
  rw [keys_mergeFields hspecs, List.nodup_append]
  refine ⟨hnodup, hspecs.filter _, fun key hkey other hother heq => ?_⟩
  obtain ⟨-, hnot⟩ := List.mem_filter.mp hother
  exact of_decide_eq_true hnot (heq ▸ hkey)

/-- What is left of the container's members after an install. -/
theorem stripped_mergeFields (hspecs : (specs.map EventSpec.event).Nodup)
    (hnodup : (fields.map Prod.fst).Nodup) (hclean : Clean a.slug fields)
    (hlists : Lists (specs.map EventSpec.event) fields) :
    (mergeFields a binary timeout specs fields).filterMap (fun f => (stripField a.slug f).1) =
      tidyFields specs fields := by
  have hkeys : (mergeFields a binary timeout specs fields).map Prod.fst = _ :=
    keys_mergeFields hspecs
  have hevent : ∀ spec ∈ specs, ((Json.obj (mergeFields a binary timeout specs fields)).get
      spec.event).bind (fun v => (stripField a.slug (spec.event, v)).1) =
        if listOf spec.event fields = [] then none
        else some (spec.event, .arr (listOf spec.event fields)) := by
    intro spec hspec
    rw [get_mergeFields_of_mem _ _ _ _ hspecs hspec, Option.bind_some,
      stripField_merged spec (listOf_clean _ hclean)]
  rw [filterMap_keys (nodup_mergeFields hspecs hnodup), hkeys, List.filterMap_append,
    List.filterMap_map]
  have hnew : ((specs.map EventSpec.event).filter (· ∉ fields.map Prod.fst)).filterMap (fun key =>
      ((Json.obj (mergeFields a binary timeout specs fields)).get key).bind fun v =>
        (stripField a.slug (key, v)).1) = [] := by
    refine List.filterMap_eq_nil_iff.mpr fun key hkey => ?_
    obtain ⟨hkey, hnot⟩ := List.mem_filter.mp hkey
    obtain ⟨spec, hspec, rfl⟩ := List.mem_map.mp hkey
    have hnone : listOf spec.event fields = [] := by
      rw [listOf, get_eq_none.mpr (of_decide_eq_true hnot)]
    rw [hevent spec hspec, if_pos hnone]
  rw [hnew, List.append_nil, tidyFields, ← List.filterMap_eq_filter]
  refine List.filterMap_congr fun f hf => ?_
  have hget := get_of_mem hnodup hf
  rw [Function.comp_apply, Option.guard]
  by_cases hmem : f.1 ∈ specs.map EventSpec.event
  · obtain ⟨spec, hspec, hname⟩ := List.mem_map.mp hmem
    have hlist := hlists _ hmem
    obtain ⟨-, hnone | hsome⟩ := eventList_eq_ok.mp hlist
    · rw [hget] at hnone
      cases hnone
    · have hvalue : f.2 = .arr (listOf f.1 fields) := Option.some.inj (hget.symm.trans hsome)
      have hstep := hevent spec hspec
      rw [hname] at hstep
      rw [hstep, hvalue]
      by_cases hnil : listOf f.1 fields = []
      · simp [hnil, hmem]
      · simp [hnil, hmem, Prod.ext_iff, hvalue]
  · rw [get_mergeFields_ne hmem, hget, Option.bind_some]
    refine Eq.trans (congrArg Prod.fst (stripField_clean hclean hf)) ?_
    simp [hmem]

theorem any_stripped_mergeFields (binary : List Char) (timeout : Option ℕ)
    (hspecs : (specs.map EventSpec.event).Nodup) (hne : specs ≠ [])
    (hclean : Clean a.slug fields) :
    ((mergeFields a binary timeout specs fields).any fun f => (stripField a.slug f).2) = true := by
  obtain ⟨spec, hspec⟩ := List.exists_mem_of_ne_nil _ hne
  refine List.any_eq_true.mpr ⟨_, mem_of_get (get_mergeFields_of_mem _ _ _ _ hspecs hspec), ?_⟩
  rw [stripField_merged spec (listOf_clean _ hclean)]

end Undone

section Roots

variable {template key binary : List Char} {timeout : Option ℕ} {a : Adapter}
  {fields : List (List Char × Json)}

/-- The members of a config without the empty lists of the adapter's events, and without the
container if it is empty then. -/
def tidyRoot (a : Adapter) (key : List Char) (fields : List (List Char × Json)) :
    List (List Char × Json) :=
  let events := tidyFields a.events (eventsOf key fields)
  if events = [] then fields.filter (·.1 != key) else setField key (.obj events) fields

theorem filter_setField (v : Json) : (setField key v fields).filter (·.1 != key) =
    fields.filter (·.1 != key) := by
  induction fields with
  | nil => simp [setField]
  | cons f fields ih =>
    rw [setField]
    by_cases hkey : f.1 = key
    · simp [hkey]
    · simp [hkey, ih]

theorem removeShared_merged {scope : Scope} (ha : a ∈ adapters template)
    (hformat : a.format = .json key scope timeout)
    (hnodup : ((eventsOf key fields).map Prod.fst).Nodup)
    (hclean : Clean a.slug (eventsOf key fields))
    (hlists : Lists (a.events.map EventSpec.event) (eventsOf key fields)) :
    removeShared a.slug key (.obj (mergeRoot a key binary timeout fields)) =
      (.obj (tidyRoot a key fields), true) := by
  have hany := any_stripped_mergeFields binary timeout (nodup_events ha)
    (events_ne_nil ha hformat) hclean
  unfold removeShared
  rw [get_mergeRoot]
  simp only [stripped_mergeFields (nodup_events ha) hnodup hclean hlists, hany, Bool.true_and,
    set_obj]
  rw [mergeRoot, setField_setField, tidyRoot]
  by_cases hnil : tidyFields a.events (eventsOf key fields) = []
  · rw [if_pos (List.isEmpty_iff.mpr hnil), if_pos hnil]
    exact congrArg (fun kept => (Json.obj kept, true)) (filter_setField _)
  · rw [if_neg (by simpa using hnil), if_neg hnil]

theorem filter_ne_eq_self :
    fields.filter (·.1 != key) = fields ↔ (Json.obj fields).get key = none := by
  rw [List.filter_eq_self, get_eq_none]
  constructor
  · intro h hmem
    obtain ⟨f, hf, hkey⟩ := List.mem_map.mp hmem
    simpa [hkey] using h f hf
  · intro h f hf
    rw [bne_iff_ne]
    exact fun hkey => h (hkey ▸ List.mem_map_of_mem hf)

/-- Nothing is tidied exactly when the container is absent, or holds something and no empty list
for one of the adapter's events. -/
theorem tidyRoot_eq_self (hfields : HasContainer key fields)
    (hnodup : ((eventsOf key fields).map Prod.fst).Nodup) :
    tidyRoot a key fields = fields ↔ (Json.obj fields).get key = none ∨ eventsOf key fields ≠ [] ∧
      ∀ spec ∈ a.events, (Json.obj (eventsOf key fields)).get spec.event ≠ some (.arr []) := by
  have htidy : tidyFields a.events (eventsOf key fields) = eventsOf key fields ↔
      ∀ spec ∈ a.events, (Json.obj (eventsOf key fields)).get spec.event ≠ some (.arr []) := by
    rw [tidyFields, List.filter_eq_self]
    constructor
    · intro h spec hspec hget
      have hmem := h _ (mem_of_get hget)
      simp [List.mem_map_of_mem (f := EventSpec.event) hspec] at hmem
    · intro h f hf
      by_contra hnot
      simp only [Bool.not_eq_true, Bool.not_eq_false', Bool.and_eq_true, decide_eq_true_eq] at hnot
      obtain ⟨hmem, hnil⟩ := hnot
      obtain ⟨spec, hspec, hname⟩ := List.mem_map.mp hmem
      refine h spec hspec ?_
      rw [hname, get_of_mem hnodup hf, hnil]
  rw [tidyRoot, ← htidy]
  obtain hnone | hsome := hfields
  · have hnil : eventsOf key fields = [] := by
      rw [eventsOf, hnone]
    rw [hnil]
    simp only [tidyFields, List.filter_nil, if_true, hnone, true_or, iff_true]
    exact filter_ne_eq_self.mpr hnone
  · have hpresent : (Json.obj fields).get key ≠ none := by
      rw [hsome]
      exact Option.some_ne_none _
    rw [or_iff_right hpresent]
    by_cases hnil : tidyFields a.events (eventsOf key fields) = []
    · rw [if_pos hnil, filter_ne_eq_self]
      exact iff_of_false hpresent fun h => h.1 (h.2 ▸ hnil)
    · rw [if_neg hnil]
      constructor
      · intro h
        have hget : (Json.obj fields).get key =
            some (.obj (tidyFields a.events (eventsOf key fields))) := by
          rw [← h, get_setField_self, h]
        have hsame := Json.obj.inj (Option.some.inj (hget.symm.trans hsome))
        exact ⟨fun h => hnil (hsame.trans h), hsame⟩
      · rintro ⟨-, hsame⟩
        rw [hsame]
        exact setField_of_get hsome

theorem good_tidyRoot {n : ℕ} (h : Good (n + 2) (.obj fields)) :
    Good (n + 2) (.obj (tidyRoot a key fields)) := by
  rw [tidyRoot]
  split_ifs
  · exact h.sublist List.filter_sublist
  · exact h.setField ((good_eventsOf key h).sublist List.filter_sublist)

theorem fieldsSize_le (depth : ℕ) {kept : List (List Char × Json)} (h : kept.Sublist fields) :
    fieldsSize depth kept ≤ fieldsSize depth fields := by
  induction h with
  | slnil => exact Nat.le_refl _
  | cons f _ ih =>
    rw [fieldsSize] at ih ⊢
    rw [fieldsSize] at ih
    rw [fieldsSize, List.map_cons, List.sum_cons]
    omega
  | cons_cons f _ ih =>
    rw [fieldsSize, fieldsSize] at ih
    rw [fieldsSize, fieldsSize, List.map_cons, List.sum_cons, List.map_cons, List.sum_cons]
    omega

theorem size_obj_le {depth : ℕ} {kept : List (List Char × Json)} (h : kept.Sublist fields) :
    size depth (.obj kept) ≤ size depth (.obj fields) := by
  have hle := fieldsSize_le depth h
  by_cases hfields : fields = []
  · subst hfields
    rw [List.eq_nil_of_sublist_nil h]
  · rw [size_obj depth hfields]
    by_cases hkept : kept = []
    · rw [hkept, size_obj_nil]
      omega
    · rw [size_obj depth hkept]
      omega

/-- Tidying makes a config no longer. -/
theorem byteLength_tidyRoot (hfields : HasContainer key fields) :
    byteLength (pretty (.obj (tidyRoot a key fields))) ≤ byteLength (pretty (.obj fields)) := by
  rw [byteLength_pretty, byteLength_pretty, tidyRoot]
  refine Nat.succ_le_succ ?_
  split_ifs with hnil
  · exact size_obj_le List.filter_sublist
  · obtain hnone | hsome := hfields
    · refine absurd ?_ hnil
      rw [eventsOf, hnone]
      rfl
    · have hreplaced := size_replaced 0 (.obj (tidyFields a.events (eventsOf key fields))) hsome
      have hle : size (0 + 1) (.obj (tidyFields a.events (eventsOf key fields))) ≤
          size (0 + 1) (.obj (eventsOf key fields)) := size_obj_le List.filter_sublist
      omega

theorem itemLoss_clean {slug : List Char} {item : Json}
    (h : (itemHandlers item).any (isOurHandler slug) = false) : itemLoss slug item = 0 := by
  rw [itemHandlers] at h
  rw [itemLoss]
  split_ifs with hitem
  · rw [if_pos hitem] at h
    have hours : isOurHandler slug item = false := by simpa using h
    simp [handlerLoss, hours]
  · rw [if_neg hitem, any_filter_isHandler] at h
    refine List.sum_eq_zero_iff_forall_eq_nat.mpr fun n hn => ?_
    obtain ⟨handler, hmem, rfl⟩ := List.mem_map.mp hn
    have hours := List.any_eq_false.mp h handler hmem
    simp [handlerLoss, hours]

theorem installLoss_clean (h : Clean a.slug (eventsOf key fields)) :
    installLoss a key fields = 0 := by
  refine List.sum_eq_zero_iff_forall_eq_nat.mpr fun n hn => ?_
  obtain ⟨spec, -, rfl⟩ := List.mem_map.mp hn
  refine List.sum_eq_zero_iff_forall_eq_nat.mpr fun m hm => ?_
  obtain ⟨item, hitem, rfl⟩ := List.mem_map.mp hm
  have hlist := listOf_clean spec.event h
  rw [handlers, List.any_flatMap] at hlist
  exact itemLoss_clean (Bool.eq_false_iff.mpr (List.any_eq_false.mp hlist item hitem))

/-- The edit that leaves a config with these members. -/
def leave (fields : List (List Char × Json)) : Edit :=
  if fields = [] then .delete else .write (pretty (.obj fields))

theorem remove_merged (ha : a ∈ adapters template) (hformat : a.format = .json key .shared timeout)
    {text : List Char} (hnodup : ((eventsOf key fields).map Prod.fst).Nodup)
    (hclean : Clean a.slug (eventsOf key fields))
    (hlists : Lists (a.events.map EventSpec.event) (eventsOf key fields))
    (hparse : parse text = .ok (.obj (mergeRoot a key binary timeout fields))) :
    remove a (some text) = .ok (leave (tidyRoot a key fields)) := by
  have hcontainer : container (.obj (mergeRoot a key binary timeout fields)) key = .ok _ :=
    container_eq_ok.mpr ⟨_, rfl, .inr (by rw [get_mergeRoot, eventsOf_mergeRoot]), rfl⟩
  unfold remove
  simp only [hformat, reduceCtorEq, if_false, hparse, Except.mapError, except_ok_bind, hcontainer,
    removeShared_merged ha hformat hnodup hclean hlists, Bool.not_true, Bool.false_eq_true]
  rw [leave]
  by_cases hnil : tidyRoot a key fields = []
  · rw [hnil, if_pos rfl]
    rfl
  · have hnot : (Json.obj (tidyRoot a key fields)).isEmptyObject = false := by
      cases htidy : tidyRoot a key fields with
      | nil => exact absurd htidy hnil
      | cons f rest => rfl
    rw [hnot, if_neg hnil]
    rfl

/-- A remove after an install into a config without handlers of ours gives the config back, tidied,
and there is no file then if nothing is left. -/
theorem remove_installed (ha : a ∈ adapters template)
    (hformat : a.format = .json key .shared timeout)
    {existing : Option (List Char)} {text : List Char}
    (hroot : startingRoot .shared existing = some (.obj fields))
    (hclean : Clean a.slug (eventsOf key fields))
    (h : install a existing binary = .ok (.write text)) (hbytes : byteLength text ≤ maxBytes) :
    remove a (some text) = .ok (if tidyRoot a key fields = [] then .delete
        else .write (pretty (.obj (tidyRoot a key fields)))) ∧
      parse (pretty (.obj (tidyRoot a key fields))) = .ok (.obj (tidyRoot a key fields)) ∧
      (tidyRoot a key fields = fields ↔ (Json.obj fields).get key = none ∨
        eventsOf key fields ≠ [] ∧
        ∀ spec ∈ a.events, (Json.obj (eventsOf key fields)).get spec.event ≠ some (.arr [])) ∧
      (existing = none → tidyRoot a key fields = []) := by
  obtain ⟨root, merged, hroot', hmerge, hedit⟩ := (install_eq_ok hformat).mp h
  rw [hroot] at hroot'
  cases hroot'
  obtain ⟨hedit, -⟩ | ⟨hedit, -⟩ := hedit
  · cases hedit
  cases hedit
  have hparse := parse_merged ha hformat hroot hmerge hbytes
  obtain ⟨other, hother, hfields, hlists, rfl⟩ := (merge_eq_ok hformat (nodup_events ha)).mp hmerge
  cases hother
  have hgood : Good (30 + 2) (.obj fields) := good_startingRoot hroot
  have hnodup := (good_obj.mp (good_eventsOf key hgood)).1
  refine ⟨remove_merged ha hformat hnodup hclean hlists hparse, ?_,
    tidyRoot_eq_self hfields hnodup, ?_⟩
  · refine (good_tidyRoot hgood).parse_pretty ?_
    have hgrown := byteLength_mergeRoot a binary timeout ha hformat hfields hlists
    have htidy := byteLength_tidyRoot (a := a) hfields
    rw [installLoss_clean hclean] at hgrown
    omega
  · rintro rfl
    cases hroot
    rfl

end Roots

theorem remove_installed_new : ∃ text,
    install claude none "/bin/cyd-host".toList = .ok (.write text) ∧
      remove claude (some text) = .ok (if tidyRoot claude hooksKey [] = [] then .delete
        else .write (pretty (.obj (tidyRoot claude hooksKey [])))) := by
  have hclean : Clean claude.slug (eventsOf hooksKey []) := fun _ _ h => absurd h List.not_mem_nil
  exact ⟨_, install_new claude_mem claude_format,
    (remove_installed claude_mem claude_format rfl hclean (install_new claude_mem claude_format)
      (byteLength_new (by decide +kernel))).1⟩

/-- An empty list that was there before goes with ours. -/
theorem remove_tidies : ∃ text,
    install claude (some "\x7b\"hooks\":\x7b\"Stop\":[]\x7d\x7d".toList) "/bin/cyd-host".toList =
      .ok (.write text) ∧ byteLength text ≤ maxBytes ∧ remove claude (some text) = .ok .delete := by
  let events : List (List Char × Json) := [("Stop".toList, .arr [])]
  let fields : List (List Char × Json) := [(hooksKey, .obj events)]
  have hparse : parse "\x7b\"hooks\":\x7b\"Stop\":[]\x7d\x7d".toList = .ok (.obj fields) := by
    decide +kernel
  have hroot : startingRoot .shared (some "\x7b\"hooks\":\x7b\"Stop\":[]\x7d\x7d".toList) =
      some (.obj fields) := by
    unfold startingRoot
    simp only [hparse, reduceCtorEq, if_false]
  have hfields : HasContainer hooksKey fields := .inr rfl
  have hlists : Lists (claude.events.map EventSpec.event) (eventsOf hooksKey fields) := by
    intro event _
    have hevents : eventsOf hooksKey fields = events := rfl
    refine eventList_eq_ok.mpr ⟨rfl, ?_⟩
    rw [hevents, listOf, get_cons]
    dsimp only
    by_cases hstop : "Stop".toList = event
    · rw [if_pos hstop]
      exact .inr rfl
    · rw [if_neg hstop]
      exact .inl rfl
  have hclean : Clean claude.slug (eventsOf hooksKey fields) := by
    intro key list hmem
    cases List.mem_singleton.mp hmem
    rfl
  have hmerge : merge claude (.obj fields) "/bin/cyd-host".toList =
      .ok (.obj (mergeRoot claude hooksKey "/bin/cyd-host".toList (some 5) fields)) :=
    (merge_eq_ok claude_format (nodup_events claude_mem)).mpr ⟨_, rfl, hfields, hlists, rfl⟩
  have hgrown := byteLength_mergeRoot claude "/bin/cyd-host".toList (some 5) claude_mem
    claude_format hfields hlists
  have hgain : byteLength (pretty (.obj fields)) +
      installGain claude hooksKey "/bin/cyd-host".toList (some 5) fields ≤ maxBytes := by
    decide +kernel
  have hbytes : byteLength (pretty (.obj (mergeRoot claude hooksKey "/bin/cyd-host".toList (some 5)
      fields))) ≤ maxBytes := by
    omega
  refine ⟨_, (install_eq_ok claude_format).mpr ⟨_, _, hroot, hmerge, .inr ⟨rfl, ?_⟩⟩, hbytes, ?_⟩
  · intro text htext
    cases htext
    rw [hparse]
    exact fun hsame => absurd (Except.ok.inj hsame) (by decide +kernel)
  · have hnodup : ((eventsOf hooksKey fields).map Prod.fst).Nodup := by
      show (events.map Prod.fst).Nodup
      simp [events]
    exact remove_merged claude_mem claude_format hnodup hclean hlists
      (parse_merged claude_mem claude_format hroot hmerge hbytes)

end CydMonitor.Hooks
