import CydMonitor.Hooks.Quoting

/-!
# What an install leaves

Every event of an adapter gets its list, the handlers of ours in it are pointed at the binary, and
there is at least one. Nothing is left to do for the next install.
-/

namespace CydMonitor.Hooks

open Json

theorem keys_ne : commandKey ≠ timeoutKey ∧ commandKey ≠ hooksKey ∧ commandKey ≠ matcherKey ∧
    hooksKey ≠ matcherKey ∧ commandKey ≠ "type".toList := by
  decide

theorem handlerCommand_eq_some {item : Json} {command : List Char} :
    handlerCommand item = some command ↔
      ∃ fields, item = .obj fields ∧ (Json.obj fields).get commandKey = some (.str command) := by
  constructor
  · intro h
    obtain ⟨v, hget, hstr⟩ := Option.bind_eq_some_iff.mp h
    cases item with
    | obj fields =>
      cases v with
      | str text =>
        cases hstr
        exact ⟨fields, rfl, hget⟩
      | _ => cases hstr
    | _ => cases hget
  · intro ⟨fields, hitem, hget⟩
    rw [hitem, handlerCommand, hget]
    rfl

theorem isHandler_iff {item : Json} :
    isHandler item = true ↔ ∃ command, handlerCommand item = some command :=
  Option.isSome_iff_exists

theorem groupHooks_eq_some {item : Json} {inner : List Json} :
    groupHooks item = some inner ↔
      ∃ fields, item = .obj fields ∧ (Json.obj fields).get hooksKey = some (.arr inner) := by
  constructor
  · intro h
    rw [groupHooks] at h
    split at h
    · next inner' hget =>
      cases h
      cases item with
      | obj fields => exact ⟨fields, rfl, hget⟩
      | _ => cases hget
    · cases h
  · intro ⟨fields, hitem, hget⟩
    rw [hitem, groupHooks, hget]

/-- A group with another list of handlers. -/
theorem group_set {item : Json} {inner : List Json} (h : groupHooks item = some inner)
    (hnot : isHandler item = false) (other : List Json) :
    groupHooks (Json.set hooksKey (.arr other) item) = some other ∧
      isHandler (Json.set hooksKey (.arr other) item) = false := by
  obtain ⟨fields, rfl, -⟩ := groupHooks_eq_some.mp h
  refine ⟨groupHooks_eq_some.mpr ⟨_, rfl, get_setField_self⟩, ?_⟩
  rw [isHandler, handlerCommand] at hnot ⊢
  rw [set_obj, get_setField_ne keys_ne.2.1]
  exact hnot

section Mapped

variable {f : Json → Json} (hf : ∀ h, isHandler h = true → isHandler (f h) = true)

include hf

theorem itemHandlers_mapItem (item : Json) :
    itemHandlers (mapItem f item) = (itemHandlers item).map f := by
  rw [mapItem, itemHandlers.eq_1 item]
  cases hitem : isHandler item with
  | true => simp [itemHandlers, hf item hitem]
  | false =>
    cases hgroup : groupHooks item with
    | none => simp [itemHandlers, hitem, hgroup]
    | some inner =>
      obtain ⟨hhooks, hnot⟩ := group_set hgroup hitem
        (inner.map fun h => if isHandler h then f h else h)
      simp only [Bool.false_eq_true, if_false, Option.getD_some]
      rw [itemHandlers, hnot, hhooks]
      simp only [Bool.false_eq_true, if_false, Option.getD_some]
      clear hhooks hnot hgroup
      induction inner with
      | nil => rfl
      | cons h inner ih =>
        rw [List.map_cons, List.filter_cons, List.filter_cons]
        cases hh : isHandler h with
        | true => simp [hf h hh, ih]
        | false => simp [hh, ih]

theorem handlers_mapHandlers (list : List Json) :
    handlers (mapHandlers f list) = (handlers list).map f := by
  rw [handlers, handlers, mapHandlers, List.flatMap_map, List.map_flatMap]
  exact congrArg (fun g => list.flatMap g) (funext (itemHandlers_mapItem hf))

theorem mapItem_mapItem (hidem : ∀ h, isHandler h = true → f (f h) = f h) (item : Json) :
    mapItem f (mapItem f item) = mapItem f item := by
  rw [mapItem.eq_1 f item]
  cases hitem : isHandler item with
  | true => simp [mapItem, hf item hitem, hidem item hitem]
  | false =>
    cases hgroup : groupHooks item with
    | none => simp [mapItem, hitem, hgroup]
    | some inner =>
      obtain ⟨hhooks, hnot⟩ := group_set hgroup hitem
        (inner.map fun h => if isHandler h then f h else h)
      obtain ⟨fields, rfl, -⟩ := groupHooks_eq_some.mp hgroup
      simp only [Bool.false_eq_true, if_false]
      rw [mapItem, hnot, hhooks]
      simp only [Bool.false_eq_true, if_false]
      have hsame : (inner.map fun h => if isHandler h then f h else h).map
          (fun h => if isHandler h then f h else h) =
          inner.map fun h => if isHandler h then f h else h := by
        rw [List.map_map]
        refine List.map_congr_left fun h _ => ?_
        cases hh : isHandler h with
        | true => simp [hh, hf h hh, hidem h hh]
        | false => simp [hh]
      rw [hsame, set_obj, set_obj, setField_setField]

theorem mapHandlers_mapHandlers (hidem : ∀ h, isHandler h = true → f (f h) = f h)
    (list : List Json) : mapHandlers f (mapHandlers f list) = mapHandlers f list := by
  rw [mapHandlers, mapHandlers, List.map_map]
  exact List.map_congr_left fun item _ => mapItem_mapItem hf hidem item

end Mapped

section Pointed

variable {want : List Char} {timeout : Option ℕ} {fields : List (List Char × Json)}

/-- The members of a handler that is pointed at the binary. -/
def pointFields (want : List Char) (timeout : Option ℕ) (fields : List (List Char × Json)) :
    List (List Char × Json) :=
  let pointed := setField commandKey (.str want) fields
  match timeout with
  | none => pointed
  | some t =>
    if (Json.obj fields).get timeoutKey = none then setField timeoutKey (seconds t) pointed
    else pointed

theorem point_obj : point want timeout (.obj fields) = .obj (pointFields want timeout fields) := by
  have htimeout : (Json.obj (setField commandKey (.str want) fields)).get timeoutKey =
      (Json.obj fields).get timeoutKey := get_setField_ne (Ne.symm keys_ne.1)
  cases timeout with
  | none => rfl
  | some t =>
    unfold point pointFields
    simp only [set_obj, htimeout]
    cases (Json.obj fields).get timeoutKey with
    | none => rfl
    | some v => rfl

theorem get_pointFields_command :
    (Json.obj (pointFields want timeout fields)).get commandKey = some (.str want) := by
  cases timeout with
  | none => exact get_setField_self
  | some t =>
    rw [pointFields]
    split_ifs
    · rw [get_setField_ne keys_ne.1, get_setField_self]
    · exact get_setField_self

/-- The other members of a handler stay. -/
theorem get_pointFields_other {key : List Char} (hcommand : key ≠ commandKey)
    (htimeout : key ≠ timeoutKey) :
    (Json.obj (pointFields want timeout fields)).get key = (Json.obj fields).get key := by
  cases timeout with
  | none => exact get_setField_ne hcommand
  | some t =>
    rw [pointFields]
    split_ifs
    · rw [get_setField_ne htimeout, get_setField_ne hcommand]
    · exact get_setField_ne hcommand

theorem get_pointFields_timeout (t : ℕ) :
    (Json.obj (pointFields want (some t) fields)).get timeoutKey ≠ none := by
  rw [pointFields]
  split_ifs with h
  · rw [get_setField_self]
    exact Option.some_ne_none _
  · rwa [get_setField_ne (Ne.symm keys_ne.1)]

theorem pointFields_of_pointed (hcommand : (Json.obj fields).get commandKey = some (.str want))
    (htimeout : ∀ t, timeout = some t → (Json.obj fields).get timeoutKey ≠ none) :
    pointFields want timeout fields = fields := by
  cases timeout with
  | none => exact setField_of_get hcommand
  | some t =>
    rw [pointFields, if_neg (htimeout t rfl)]
    exact setField_of_get hcommand

theorem pointFields_pointFields :
    pointFields want timeout (pointFields want timeout fields) =
      pointFields want timeout fields := by
  refine pointFields_of_pointed get_pointFields_command fun t ht => ?_
  rw [ht]
  exact get_pointFields_timeout t

theorem good_pointFields {n : ℕ} (h : Good (n + 2) (.obj fields)) :
    Good (n + 2) (.obj (pointFields want timeout fields)) := by
  have hcommand : Good (n + 2) (.obj (setField commandKey (.str want) fields)) :=
    h.setField (good_str n want)
  cases timeout with
  | none => exact hcommand
  | some t =>
    rw [pointFields]
    split_ifs
    · exact hcommand.setField (good_num n (isNumber_decimal t))
    · exact hcommand

end Pointed

theorem isHandler_of_ours {slug : List Char} {h : Json} (hours : isOurHandler slug h = true) :
    isHandler h = true := by
  rw [isOurHandler] at hours
  cases hcommand : handlerCommand h with
  | none =>
    rw [hcommand] at hours
    cases hours
  | some command => exact isHandler_iff.mpr ⟨command, hcommand⟩

section Ours

variable {slug want : List Char} {timeout : Option ℕ} (hwant : isOurs want slug = true)

theorem handlerCommand_point {h : Json} (hh : isHandler h = true) :
    handlerCommand (point want timeout h) = some want := by
  obtain ⟨command, hcommand⟩ := isHandler_iff.mp hh
  obtain ⟨fields, rfl, -⟩ := handlerCommand_eq_some.mp hcommand
  rw [point_obj]
  exact handlerCommand_eq_some.mpr ⟨_, rfl, get_pointFields_command⟩

theorem isHandler_pointOurs {h : Json} (hh : isHandler h = true) :
    isHandler (pointOurs slug want timeout h) = true := by
  rw [pointOurs]
  split_ifs
  · exact isHandler_iff.mpr ⟨want, handlerCommand_point hh⟩
  · exact hh

include hwant

theorem isOurHandler_pointOurs (h : Json) :
    isOurHandler slug (pointOurs slug want timeout h) = isOurHandler slug h := by
  rw [pointOurs]
  cases hours : isOurHandler slug h with
  | true =>
    rw [if_pos rfl, isOurHandler, handlerCommand_point (isHandler_of_ours hours)]
    exact hwant
  | false => exact hours

theorem pointOurs_pointOurs (h : Json) :
    pointOurs slug want timeout (pointOurs slug want timeout h) =
      pointOurs slug want timeout h := by
  rw [pointOurs.eq_1 slug want timeout (pointOurs slug want timeout h),
    isOurHandler_pointOurs hwant]
  cases hours : isOurHandler slug h with
  | true =>
    obtain ⟨command, hcommand⟩ := isHandler_iff.mp (isHandler_of_ours hours)
    obtain ⟨fields, rfl, -⟩ := handlerCommand_eq_some.mp hcommand
    simp only [if_true, pointOurs, hours, point_obj, pointFields_pointFields]
  | false => rfl

end Ours

section Entry

variable (a : Adapter) (spec : EventSpec) (binary : List Char) (timeout : Option ℕ)

/-- The members of a new handler. -/
def newFields : List (List Char × Json) :=
  [("type".toList, .str "command".toList),
    (commandKey, .str (commandLine binary a.slug spec.activity))] ++
      timeout.toList.map fun t => (timeoutKey, seconds t)

theorem newHandler_eq :
    newHandler a spec binary timeout = .obj (newFields a spec binary timeout) := by
  cases timeout with
  | none => rfl
  | some t =>
    have hnew : timeoutKey ∉ [("type".toList, Json.str "command".toList),
        (commandKey, .str (commandLine binary a.slug spec.activity))].map Prod.fst := by
      have hkeys : timeoutKey ∉ ["type".toList, commandKey] := by decide
      exact hkeys
    exact congrArg Json.obj (setField_new hnew)

theorem handlerCommand_newHandler :
    handlerCommand (newHandler a spec binary timeout) =
      some (commandLine binary a.slug spec.activity) := by
  rw [newHandler_eq]
  refine handlerCommand_eq_some.mpr ⟨_, rfl, ?_⟩
  rw [newFields, List.cons_append, get_cons, if_neg (Ne.symm keys_ne.2.2.2.2), List.cons_append,
    get_cons, if_pos rfl]

theorem pointFields_newFields : pointFields (commandLine binary a.slug spec.activity) timeout
    (newFields a spec binary timeout) = newFields a spec binary timeout := by
  have hcommand := handlerCommand_newHandler a spec binary timeout
  rw [newHandler_eq] at hcommand
  obtain ⟨fields, hfields, hget⟩ := handlerCommand_eq_some.mp hcommand
  cases hfields
  refine pointFields_of_pointed hget fun t ht => ?_
  rw [Ne, get_eq_none, ht]
  simp [newFields]

theorem good_newHandler : Good 2 (newHandler a spec binary timeout) := by
  rw [newHandler_eq]
  refine good_obj.mpr ⟨?_, ?_⟩
  · have hkeys : ["type".toList, commandKey, timeoutKey].Nodup := by decide
    refine hkeys.sublist ?_
    cases timeout with
    | none => exact List.sublist_append_left ["type".toList, commandKey] [timeoutKey]
    | some t => exact List.Sublist.refl _
  · intro f hf
    cases timeout with
    | none =>
      obtain rfl | rfl : f = ("type".toList, .str "command".toList) ∨
          f = (commandKey, .str (commandLine binary a.slug spec.activity)) := by
        simpa [newFields] using hf
      · exact good_str 0 _
      · exact good_str 0 _
    | some t =>
      obtain rfl | rfl | rfl : f = ("type".toList, .str "command".toList) ∨
          f = (commandKey, .str (commandLine binary a.slug spec.activity)) ∨
          f = (timeoutKey, seconds t) := by
        simpa [newFields] using hf
      · exact good_str 0 _
      · exact good_str 0 _
      · exact good_num 0 (isNumber_decimal t)

/-- A new entry is the handler or a group of it alone. -/
theorem newEntry_cases : newEntry a spec binary timeout = newHandler a spec binary timeout ∨
    isHandler (newEntry a spec binary timeout) = false ∧
      groupHooks (newEntry a spec binary timeout) = some [newHandler a spec binary timeout] := by
  rw [newEntry]
  cases spec.shape with
  | flat => exact .inl rfl
  | group =>
    right
    have hgroup (fields : List (List Char × Json))
        (hnone : (Json.obj fields).get commandKey = none) :
        isHandler (.obj (setField hooksKey (.arr [newHandler a spec binary timeout]) fields)) =
          false ∧
          groupHooks (.obj (setField hooksKey (.arr [newHandler a spec binary timeout]) fields)) =
            some [newHandler a spec binary timeout] := by
      refine ⟨?_, groupHooks_eq_some.mpr ⟨_, rfl, get_setField_self⟩⟩
      rw [isHandler, handlerCommand, get_setField_ne keys_ne.2.1, hnone]
      rfl
    cases spec.matcher with
    | none => exact hgroup [] rfl
    | some m =>
      refine hgroup [(matcherKey, .str m)] ?_
      rw [get_cons, if_neg (Ne.symm keys_ne.2.2.1)]
      rfl

theorem handlers_newEntry :
    handlers [newEntry a spec binary timeout] = [newHandler a spec binary timeout] := by
  have hhandler : isHandler (newHandler a spec binary timeout) = true :=
    isHandler_iff.mpr ⟨_, handlerCommand_newHandler ..⟩
  rw [handlers, List.flatMap_singleton, itemHandlers]
  obtain h | ⟨hnot, hgroup⟩ := newEntry_cases a spec binary timeout
  · rw [h, if_pos hhandler]
  · rw [hnot, hgroup]
    simp [hhandler]

theorem good_newEntry : Good 4 (newEntry a spec binary timeout) := by
  have hhandler := good_newHandler a spec binary timeout
  rw [newEntry]
  cases spec.shape with
  | flat => exact hhandler.mono (by decide)
  | group =>
    have hlist : Good 3 (.arr [newHandler a spec binary timeout]) :=
      good_arr.mpr (by simpa using hhandler)
    cases spec.matcher with
    | none =>
      have hgroup : Good 4 (.obj []) := good_obj.mpr ⟨List.nodup_nil, by simp⟩
      exact hgroup.setField hlist
    | some m =>
      have hgroup : Good 4 (.obj [(matcherKey, .str m)]) :=
        good_obj.mpr ⟨by simp, by simpa using good_str 2 m⟩
      exact hgroup.setField hlist

end Entry

section MergeList

variable (a : Adapter) (spec : EventSpec) (binary : List Char) (timeout : Option ℕ)
  (list : List Json)

theorem isOurHandler_newHandler :
    isOurHandler a.slug (newHandler a spec binary timeout) = true := by
  rw [isOurHandler, handlerCommand_newHandler]
  exact isOurs_commandLine ..

theorem pointOurs_newHandler : pointOurs a.slug (commandLine binary a.slug spec.activity) timeout
    (newHandler a spec binary timeout) = newHandler a spec binary timeout := by
  rw [pointOurs, if_pos (isOurHandler_newHandler ..), newHandler_eq, point_obj,
    pointFields_newFields]

theorem mapHandlers_newEntry :
    mapHandlers (pointOurs a.slug (commandLine binary a.slug spec.activity) timeout)
      [newEntry a spec binary timeout] = [newEntry a spec binary timeout] := by
  have hhandler : isHandler (newHandler a spec binary timeout) = true :=
    isHandler_of_ours (isOurHandler_newHandler ..)
  rw [mapHandlers, List.map_singleton, mapItem]
  obtain h | ⟨hnot, hgroup⟩ := newEntry_cases a spec binary timeout
  · rw [h, if_pos hhandler, pointOurs_newHandler]
  · obtain ⟨fields, hfields, hget⟩ := groupHooks_eq_some.mp hgroup
    rw [hnot, hgroup]
    simp only [Bool.false_eq_true, if_false, List.map_singleton, hhandler, if_true,
      pointOurs_newHandler]
    rw [hfields, set_obj, setField_of_get hget]

/-- There is a handler of ours. -/
theorem any_mergeList :
    (handlers (mergeList a spec binary timeout list)).any (isOurHandler a.slug) =
    true := by
  rw [mergeList]
  cases hfound : (handlers list).any (isOurHandler a.slug) with
  | true =>
    simp only [if_true, List.append_nil]
    rw [handlers_mapHandlers fun h hh => isHandler_pointOurs hh, List.any_map]
    refine Eq.trans (congrArg _ (funext fun h => ?_)) hfound
    exact isOurHandler_pointOurs (isOurs_commandLine ..) h
  | false =>
    rw [handlers, List.flatMap_append, List.any_append, Bool.or_eq_true]
    right
    have hnew := handlers_newEntry a spec binary timeout
    rw [handlers] at hnew
    simp [hnew, isOurHandler_newHandler]

/-- The next install changes nothing. -/
theorem mergeList_mergeList :
    mergeList a spec binary timeout (mergeList a spec binary timeout list) =
    mergeList a spec binary timeout list := by
  rw [mergeList.eq_1 a spec binary timeout (mergeList a spec binary timeout list),
    any_mergeList a spec binary timeout list]
  simp only [if_true, List.append_nil]
  rw [mergeList, mapHandlers, List.map_append]
  refine congrArg₂ _ ?_ ?_
  · exact mapHandlers_mapHandlers (fun h hh => isHandler_pointOurs hh)
      (fun h _ => pointOurs_pointOurs (isOurs_commandLine ..) h) list
  · split_ifs
    · rfl
    · exact mapHandlers_newEntry ..

/-- Every handler of ours has the command. -/
theorem command_of_mem_mergeList {h : Json}
    (hmem : h ∈ handlers (mergeList a spec binary timeout list))
    (hours : isOurHandler a.slug h = true) :
    handlerCommand h = some (commandLine binary a.slug spec.activity) := by
  rw [mergeList, handlers, List.flatMap_append, List.mem_append] at hmem
  obtain hmem | hmem := hmem
  · have hmapped := handlers_mapHandlers
      (f := pointOurs a.slug (commandLine binary a.slug spec.activity)
      timeout) (fun h hh => isHandler_pointOurs hh) list
    rw [handlers] at hmapped
    rw [hmapped] at hmem
    obtain ⟨h', -, rfl⟩ := List.mem_map.mp hmem
    rw [isOurHandler_pointOurs (isOurs_commandLine ..)] at hours
    rw [pointOurs, if_pos hours, handlerCommand_point (isHandler_of_ours hours)]
  · split_ifs at hmem
    · cases hmem
    · have hnew := handlers_newEntry a spec binary timeout
      rw [handlers] at hnew
      rw [hnew] at hmem
      obtain rfl := List.mem_singleton.mp hmem
      exact handlerCommand_newHandler ..

end MergeList

end CydMonitor.Hooks
