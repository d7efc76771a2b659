import CydMonitor.Hooks.Installing

/-!
# How long an installed config is

The bytes of a value that is written with indentation are added up from its parts, and so are the
bytes that an install adds to a config and the bytes of the commands that it replaces.
-/

namespace CydMonitor.Hooks

open Json

@[simp] theorem byteLength_nil : byteLength [] = 0 :=
  rfl

@[simp] theorem byteLength_append (s t : List Char) :
    byteLength (s ++ t) = byteLength s + byteLength t := by
  simp [byteLength]

@[simp] theorem byteLength_indent (depth : ℕ) : byteLength (indent depth) = 2 * depth := by
  induction depth with
  | zero => rfl
  | succ depth ih =>
    have hsplit : indent (depth + 1) = "  ".toList ++ indent depth := rfl
    have htwo : byteLength "  ".toList = 2 := by decide
    rw [hsplit, byteLength_append, ih, htwo]
    omega

/-- The bytes of a value at a depth. -/
def size (depth : ℕ) (v : Json) : ℕ := byteLength (writeValue depth v)

/-- The bytes of a string with its quotes. -/
def spelled (text : List Char) : ℕ := byteLength (writeString text)

def itemsSize (depth : ℕ) (items : List Json) : ℕ :=
  (items.map fun item => 2 * depth + 4 + size (depth + 1) item).sum

def fieldsSize (depth : ℕ) (fields : List (List Char × Json)) : ℕ :=
  (fields.map fun f => 2 * depth + 6 + spelled f.1 + size (depth + 1) f.2).sum

@[simp] theorem size_str (depth : ℕ) (text : List Char) : size depth (.str text) = spelled text :=
  rfl

private theorem byteLength_separator (last : Bool) :
    byteLength (if last then "\n".toList else ",\n".toList) + (if last then 1 else 0) = 2 := by
  cases last <;> decide

theorem byteLength_writeItems (depth : ℕ) (items : List Json) :
    byteLength (writeItems depth items) + (if items = [] then 0 else 1) =
      itemsSize depth items := by
  induction items with
  | nil => rfl
  | cons item items ih =>
    have hseparator := byteLength_separator items.isEmpty
    rw [itemsSize] at ih ⊢
    rw [writeItems, byteLength_append, byteLength_append, byteLength_append, byteLength_indent,
      List.map_cons, List.sum_cons, ← ih, size]
    cases items with
    | nil =>
      simp only [if_true, List.isEmpty_nil, reduceCtorEq, if_false] at hseparator ⊢
      omega
    | cons next items =>
      simp only [List.isEmpty_cons, Bool.false_eq_true, reduceCtorEq, if_false] at hseparator ⊢
      omega

theorem byteLength_writeFields (depth : ℕ) (fields : List (List Char × Json)) :
    byteLength (writeFields depth fields) + (if fields = [] then 0 else 1) =
      fieldsSize depth fields := by
  induction fields with
  | nil => rfl
  | cons f fields ih =>
    obtain ⟨key, item⟩ := f
    have hcolon : byteLength ": ".toList = 2 := by decide
    have hseparator := byteLength_separator fields.isEmpty
    rw [fieldsSize] at ih ⊢
    rw [writeFields, byteLength_append, byteLength_append, byteLength_append, byteLength_append,
      byteLength_append, byteLength_indent, hcolon, List.map_cons, List.sum_cons, ← ih, size,
      spelled]
    cases fields with
    | nil =>
      simp only [if_true, List.isEmpty_nil, reduceCtorEq, if_false] at hseparator ⊢
      omega
    | cons next fields =>
      simp only [List.isEmpty_cons, Bool.false_eq_true, reduceCtorEq, if_false] at hseparator ⊢
      omega

@[simp] theorem size_arr_nil (depth : ℕ) : size depth (.arr []) = 2 := by
  have hempty : byteLength "[]".toList = 2 := by decide
  exact hempty

@[simp] theorem size_obj_nil (depth : ℕ) : size depth (.obj []) = 2 := by
  have hempty : byteLength "\x7b\x7d".toList = 2 := by decide
  exact hempty

theorem size_arr (depth : ℕ) {items : List Json} (h : items ≠ []) :
    size depth (.arr items) = 2 + 2 * depth + itemsSize depth items := by
  have hopening : byteLength "[\n".toList = 2 := by decide
  have hclosing : byteLength "]".toList = 1 := by decide
  have hitems := byteLength_writeItems depth items
  rw [if_neg h] at hitems
  rw [size, writeValue, List.isEmpty_eq_false_iff.mpr h]
  simp only [Bool.false_eq_true, if_false, byteLength_append, byteLength_indent, hopening, hclosing]
  omega

theorem size_obj (depth : ℕ) {fields : List (List Char × Json)} (h : fields ≠ []) :
    size depth (.obj fields) = 2 + 2 * depth + fieldsSize depth fields := by
  have hopening : byteLength "\x7b\n".toList = 2 := by decide
  have hclosing : byteLength "\x7d".toList = 1 := by decide
  have hfields := byteLength_writeFields depth fields
  rw [if_neg h] at hfields
  rw [size, writeValue, List.isEmpty_eq_false_iff.mpr h]
  simp only [Bool.false_eq_true, if_false, byteLength_append, byteLength_indent, hopening, hclosing]
  omega

theorem byteLength_pretty (v : Json) : byteLength (pretty v) = size 0 v + 1 := by
  have hnewline : byteLength "\n".toList = 1 := by decide
  rw [pretty, byteLength_append, hnewline, size]

section Edited

variable (depth : ℕ) {key : List Char} (v : Json) {old : Json} {fields : List (List Char × Json)}

theorem fieldsSize_append (fields more : List (List Char × Json)) :
    fieldsSize depth (fields ++ more) = fieldsSize depth fields + fieldsSize depth more := by
  simp [fieldsSize]

theorem fieldsSize_replaced (h : (Json.obj fields).get key = some old) :
    fieldsSize depth (setField key v fields) + size (depth + 1) old =
      fieldsSize depth fields + size (depth + 1) v := by
  induction fields with
  | nil => cases h
  | cons f fields ih =>
    rw [get_cons] at h
    rw [fieldsSize] at ih ⊢
    rw [setField]
    by_cases hkey : f.1 = key
    · rw [if_pos hkey] at h
      rw [if_pos hkey, ← Option.some.inj h, fieldsSize, List.map_cons, List.sum_cons, List.map_cons,
        List.sum_cons, hkey]
      dsimp only
      omega
    · rw [if_neg hkey] at h
      rw [fieldsSize] at ih
      rw [if_neg hkey, fieldsSize, List.map_cons, List.sum_cons, List.map_cons, List.sum_cons,
        Nat.add_assoc, ih h]
      omega

theorem fieldsSize_added (h : (Json.obj fields).get key = none) :
    fieldsSize depth (setField key v fields) =
      fieldsSize depth fields + (2 * depth + 6 + spelled key + size (depth + 1) v) := by
  rw [setField_new (get_eq_none.mp h), fieldsSize_append]
  simp [fieldsSize]

theorem setField_ne_nil {v : Json} : setField key v fields ≠ [] := by
  intro hnil
  have hget : (Json.obj (setField key v fields)).get key = some v := get_setField_self
  rw [hnil] at hget
  cases hget

theorem size_replaced (h : (Json.obj fields).get key = some old) :
    size depth (.obj (setField key v fields)) + size (depth + 1) old =
      size depth (.obj fields) + size (depth + 1) v := by
  have hne : fields ≠ [] := by
    rintro rfl
    cases h
  rw [size_obj depth setField_ne_nil, size_obj depth hne, Nat.add_assoc,
    fieldsSize_replaced depth v h]
  omega

theorem size_added (h : (Json.obj fields).get key = none) :
    size depth (.obj (setField key v fields)) = size depth (.obj fields) +
      (if fields = [] then 2 * depth else 0) +
        (2 * depth + 6 + spelled key + size (depth + 1) v) := by
  rw [size_obj depth setField_ne_nil, fieldsSize_added depth v h]
  split_ifs with hnil
  · rw [hnil, size_obj_nil]
    simp [fieldsSize]
  · rw [size_obj depth hnil]
    omega

/-- A list whose values change in size one by one. -/
theorem size_map {depth : ℕ} {f : Json → Json} {lost gained : Json → ℕ} {items : List Json}
    (h : ∀ item ∈ items, size (depth + 1) (f item) + lost item =
      size (depth + 1) item + gained item) :
    itemsSize depth (items.map f) + (items.map lost).sum =
      itemsSize depth items + (items.map gained).sum := by
  induction items with
  | nil => rfl
  | cons item items ih =>
    obtain ⟨hitem, hitems⟩ := List.forall_mem_cons.mp h
    have hrest := ih hitems
    rw [itemsSize, itemsSize] at hrest
    rw [itemsSize, itemsSize, List.map_cons, List.map_cons, List.map_cons, List.map_cons,
      List.map_cons, List.sum_cons, List.sum_cons, List.sum_cons, List.sum_cons]
    omega

end Edited

-- The members of the container stand at depth 1, the items of an event's list at depth 3 and the
-- handlers of a group at depth 5.

section Gains

variable (slug want : List Char) (timeout : Option ℕ)

/-- The bytes of a `timeout` member that a handler does not have. -/
def timeoutGain (depth : ℕ) (handler : Json) : ℕ :=
  match timeout with
  | some t =>
    if handler.get timeoutKey = none then
      2 * depth + 6 + spelled timeoutKey + byteLength (Nat.toDigits 10 t)
    else 0
  | none => 0

def handlerGain (depth : ℕ) (handler : Json) : ℕ :=
  if isOurHandler slug handler then spelled want + timeoutGain timeout depth handler else 0

/-- The bytes of the command of a handler of ours. -/
def handlerLoss (handler : Json) : ℕ :=
  if isOurHandler slug handler then spelled ((handlerCommand handler).getD []) else 0

def itemGain (item : Json) : ℕ :=
  if isHandler item then handlerGain slug want timeout 3 item
  else (((groupHooks item).getD []).map (handlerGain slug want timeout 5)).sum

def itemLoss (item : Json) : ℕ :=
  if isHandler item then handlerLoss slug item
  else (((groupHooks item).getD []).map (handlerLoss slug)).sum

variable {slug want timeout}

theorem size_pointFields {depth : ℕ} {fields : List (List Char × Json)} {old : List Char}
    (h : (Json.obj fields).get commandKey = some (.str old)) :
    size depth (.obj (pointFields want timeout fields)) + spelled old =
      size depth (.obj fields) + (spelled want + timeoutGain timeout depth (.obj fields)) := by
  have hcommand : size depth (.obj (setField commandKey (.str want) fields)) + spelled old =
      size depth (.obj fields) + spelled want := size_replaced depth _ h
  cases timeout with
  | none => exact hcommand
  | some t =>
    rw [pointFields, timeoutGain]
    split_ifs with hnone
    · have hnone' : (Json.obj (setField commandKey (.str want) fields)).get timeoutKey = none := by
        rw [get_setField_ne (Ne.symm keys_ne.1), hnone]
      have hnumber : size (depth + 1) (seconds t) = byteLength (Nat.toDigits 10 t) := rfl
      rw [size_added _ _ hnone', if_neg setField_ne_nil, hnumber]
      omega
    · exact hcommand

theorem size_pointOurs (depth : ℕ) (handler : Json) :
    size depth (pointOurs slug want timeout handler) + handlerLoss slug handler =
      size depth handler + handlerGain slug want timeout depth handler := by
  rw [pointOurs, handlerLoss, handlerGain]
  split_ifs with hours
  · obtain ⟨old, hcommand⟩ := isHandler_iff.mp (isHandler_of_ours hours)
    obtain ⟨fields, rfl, hget⟩ := handlerCommand_eq_some.mp hcommand
    rw [hcommand, point_obj]
    exact size_pointFields hget
  · rfl

theorem size_mapItem (item : Json) :
    size 3 (mapItem (pointOurs slug want timeout) item) + itemLoss slug item =
      size 3 item + itemGain slug want timeout item := by
  rw [mapItem, itemLoss, itemGain]
  split_ifs with hitem
  · exact size_pointOurs 3 item
  · cases hgroup : groupHooks item with
    | none => rfl
    | some inner =>
      obtain ⟨fields, rfl, hget⟩ := groupHooks_eq_some.mp hgroup
      have hinner :
          itemsSize (3 + 1) (inner.map fun h => if isHandler h then pointOurs slug want timeout h
          else h) + (inner.map (handlerLoss slug)).sum =
            itemsSize (3 + 1) inner + (inner.map (handlerGain slug want timeout 5)).sum := by
        refine size_map fun h _ => ?_
        split_ifs with hh
        · exact size_pointOurs 5 h
        · have hours : isOurHandler slug h = false :=
            Bool.eq_false_iff.mpr fun hours => hh (isHandler_of_ours hours)
          simp [handlerLoss, handlerGain, hours]
      have hreplaced := size_replaced 3 (.arr (inner.map fun h =>
        if isHandler h then pointOurs slug want timeout h else h)) hget
      dsimp only [Option.getD_some, set_obj]
      by_cases hnil : inner = []
      · subst hnil
        simpa using hreplaced
      · rw [size_arr _ hnil, size_arr _ fun h => hnil (List.map_eq_nil_iff.mp h)] at hreplaced
        omega

end Gains

section Entry

variable (a : Adapter) (spec : EventSpec) (binary : List Char) (timeout : Option ℕ)

/-- The bytes of a new handler. -/
def handlerSize (depth : ℕ) : ℕ :=
  2 + 2 * depth + (2 * depth + 21) +
    (2 * depth + 15 + spelled (commandLine binary a.slug spec.activity)) +
    match timeout with
    | some t => 2 * depth + 15 + byteLength (Nat.toDigits 10 t)
    | none => 0

/-- The bytes of a new entry. -/
def entrySize : ℕ :=
  match spec.shape with
  | .flat => handlerSize a spec binary timeout 3
  | .group =>
    8 + (match spec.matcher with
      | some m => 21 + spelled m
      | none => 0) + 19 + (10 + (12 + handlerSize a spec binary timeout 5))

private theorem spelled_keys : spelled "type".toList = 6 ∧ spelled "command".toList = 9 ∧
    spelled commandKey = 9 ∧ spelled timeoutKey = 9 ∧ spelled hooksKey = 7 ∧
      spelled matcherKey = 9 := by
  decide

theorem size_newHandler (depth : ℕ) :
    size depth (newHandler a spec binary timeout) = handlerSize a spec binary timeout depth := by
  obtain ⟨htype, hcommand, hkey, htimeout, -⟩ := spelled_keys
  have hnumber (t : ℕ) : size (depth + 1) (seconds t) = byteLength (Nat.toDigits 10 t) := rfl
  rw [newHandler_eq, size_obj depth (by simp [newFields])]
  unfold handlerSize newFields fieldsSize
  cases timeout with
  | none =>
    simp only [Option.toList_none, List.map_nil, List.append_nil, List.map_cons, List.sum_cons,
      List.sum_nil, size_str, htype, hcommand, hkey]
    omega
  | some t =>
    simp only [Option.toList_some, List.map_cons, List.map_nil, List.cons_append, List.nil_append,
      List.sum_cons, List.sum_nil, size_str, htype, hcommand, hkey, htimeout, hnumber]
    omega

theorem size_newEntry :
    size 3 (newEntry a spec binary timeout) = entrySize a spec binary timeout := by
  obtain ⟨-, -, -, -, hhooks, hmatcher⟩ := spelled_keys
  have hlist : size 4 (.arr [newHandler a spec binary timeout]) =
      10 + (12 + handlerSize a spec binary timeout 5) := by
    rw [size_arr 4 (List.cons_ne_nil _ _), itemsSize, List.map_singleton, List.sum_singleton,
      size_newHandler]
  rw [newEntry, entrySize]
  cases spec.shape with
  | flat => exact size_newHandler ..
  | group =>
    cases spec.matcher with
    | none =>
      dsimp only
      rw [set_obj, size_added _ _ rfl, hlist, hhooks]
      simp
      omega
    | some m =>
      have hnone : (Json.obj [(matcherKey, .str m)]).get hooksKey = none := by
        rw [get_cons, if_neg (Ne.symm keys_ne.2.2.2.1)]
        rfl
      dsimp only
      rw [set_obj, size_added _ _ hnone, hlist, hhooks, size_obj 3 (List.cons_ne_nil _ _),
        fieldsSize]
      simp [hmatcher]
      omega

end Entry

section Config

variable (a : Adapter) (key binary : List Char) (timeout : Option ℕ)

/-- The bytes that one event's list grows by, its member included if there is none. -/
def eventGain (fields : List (List Char × Json)) (spec : EventSpec) : ℕ :=
  let list := listOf spec.event fields
  (if (Json.obj fields).get spec.event = none then 10 + spelled spec.event else 0) +
    (list.map (itemGain a.slug (commandLine binary a.slug spec.activity) timeout)).sum +
    (if list = [] then 4 else 0) +
    if (handlers list).any (isOurHandler a.slug) then 0 else 8 + entrySize a spec binary timeout

/-- The bytes of the commands of ours that one event has. -/
def eventLoss (fields : List (List Char × Json)) (spec : EventSpec) : ℕ :=
  ((listOf spec.event fields).map (itemLoss a.slug)).sum

/-- The bytes that an install adds to a config with these members. -/
def installGain (fields : List (List Char × Json)) : ℕ :=
  (if (Json.obj fields).get key = none then 8 + spelled key else 0) +
    (if eventsOf key fields = [] then 2 else 0) +
    (a.events.map (eventGain a binary timeout (eventsOf key fields))).sum

/-- The bytes of the commands that an install replaces. -/
def installLoss (fields : List (List Char × Json)) : ℕ :=
  (a.events.map (eventLoss a (eventsOf key fields))).sum

theorem size_mergeList (spec : EventSpec) (list : List Json) :
    size 2 (.arr (mergeList a spec binary timeout list)) + (list.map (itemLoss a.slug)).sum =
      size 2 (.arr list) +
        ((list.map (itemGain a.slug (commandLine binary a.slug spec.activity) timeout)).sum +
          (if list = [] then 4 else 0) +
          if (handlers list).any (isOurHandler a.slug) then 0
          else 8 + entrySize a spec binary timeout) := by
  have hmapped : itemsSize 2 (mapHandlers (pointOurs a.slug
      (commandLine binary a.slug spec.activity) timeout) list) + (list.map (itemLoss a.slug)).sum =
        itemsSize 2 list +
          (list.map (itemGain a.slug (commandLine binary a.slug spec.activity) timeout)).sum :=
    size_map fun item _ => size_mapItem item
  have hne : mergeList a spec binary timeout list ≠ [] := by
    intro hnil
    have hany := any_mergeList a spec binary timeout list
    rw [hnil] at hany
    cases hany
  have happend (items more : List Json) :
      itemsSize 2 (items ++ more) = itemsSize 2 items + itemsSize 2 more := by
    simp [itemsSize]
  have hentry : itemsSize 2 (if (handlers list).any (isOurHandler a.slug) then []
      else [newEntry a spec binary timeout]) = if (handlers list).any (isOurHandler a.slug) then 0
        else 8 + entrySize a spec binary timeout := by
    split_ifs
    · rfl
    · rw [itemsSize, List.map_singleton, List.sum_singleton, size_newEntry]
  rw [size_arr 2 hne, mergeList, happend, hentry]
  by_cases hnil : list = []
  · subst hnil
    rw [size_arr_nil]
    simp only [if_true, List.map_nil, List.sum_nil, mapHandlers, itemsSize] at hmapped ⊢
    omega
  · rw [size_arr 2 hnil, if_neg hnil]
    omega

theorem fieldsSize_mergeField {fields : List (List Char × Json)} {spec : EventSpec}
    (h : eventList (some (.obj fields)) spec.event = .ok (listOf spec.event fields)) :
    fieldsSize 1 (mergeField a binary timeout fields spec) + eventLoss a fields spec =
      fieldsSize 1 fields + eventGain a binary timeout fields spec := by
  have hlist := size_mergeList a binary timeout spec (listOf spec.event fields)
  rw [mergeField, eventLoss, eventGain]
  obtain ⟨-, hnone | hsome⟩ := eventList_eq_ok.mp h
  · have hnil : listOf spec.event fields = [] := by
      rw [listOf, hnone]
    rw [fieldsSize_added 1 _ hnone]
    simp only [hnone, if_true, hnil, size_arr_nil, Nat.reduceAdd] at hlist ⊢
    omega
  · have hne : (Json.obj fields).get spec.event ≠ none := by
      rw [hsome]
      exact Option.some_ne_none _
    have hreplaced := fieldsSize_replaced 1
      (.arr (mergeList a spec binary timeout (listOf spec.event fields))) hsome
    simp only [if_neg hne, Nat.reduceAdd] at hreplaced ⊢
    omega

theorem fieldsSize_mergeFields {specs : List EventSpec} {fields : List (List Char × Json)}
    (hnodup : (specs.map EventSpec.event).Nodup) (h : Lists (specs.map EventSpec.event) fields) :
    fieldsSize 1 (mergeFields a binary timeout specs fields) +
      (specs.map (eventLoss a fields)).sum =
      fieldsSize 1 fields + (specs.map (eventGain a binary timeout fields)).sum := by
  induction specs generalizing fields with
  | nil => rfl
  | cons spec specs ih =>
    rw [List.map_cons, List.nodup_cons] at hnodup
    rw [Lists, List.map_cons, List.forall_mem_cons] at h
    have hne : ∀ other ∈ specs, other.event ≠ spec.event := fun other hother heq =>
      hnodup.1 (heq ▸ List.mem_map_of_mem hother)
    have hget : ∀ other ∈ specs,
        (Json.obj (mergeField a binary timeout fields spec)).get other.event =
          (Json.obj fields).get other.event :=
      fun other hother => get_mergeField_ne (hne other hother)
    have hlist : ∀ other ∈ specs, listOf other.event (mergeField a binary timeout fields spec) =
        listOf other.event fields := fun other hother => listOf_mergeField_ne (hne other hother)
    have hrest : Lists (specs.map EventSpec.event) (mergeField a binary timeout fields spec) := by
      intro event hevent
      obtain ⟨other, hother, rfl⟩ := List.mem_map.mp hevent
      have hold := h.2 other.event hevent
      rw [eventList, Option.bind_some] at hold ⊢
      rw [hget other hother, hlist other hother]
      exact hold
    have hgains : specs.map (eventGain a binary timeout (mergeField a binary timeout fields spec)) =
        specs.map (eventGain a binary timeout fields) := by
      refine List.map_congr_left fun other hother => ?_
      simp only [eventGain, hget other hother, hlist other hother]
    have hlosses : specs.map (eventLoss a (mergeField a binary timeout fields spec)) =
        specs.map (eventLoss a fields) := by
      refine List.map_congr_left fun other hother => ?_
      simp only [eventLoss, hlist other hother]
    have htail := ih hnodup.2 hrest
    have hhead := fieldsSize_mergeField a binary timeout h.1
    rw [hgains, hlosses] at htail
    rw [mergeFields_cons, List.map_cons, List.map_cons, List.sum_cons, List.sum_cons]
    omega

/-- The bytes of an installed config. -/
theorem byteLength_mergeRoot {template key : List Char} {scope : Scope} (ha : a ∈ adapters template)
    (hformat : a.format = .json key scope timeout) {fields : List (List Char × Json)}
    (hfields : HasContainer key fields)
    (hlists : Lists (a.events.map EventSpec.event) (eventsOf key fields)) :
    byteLength (pretty (.obj (mergeRoot a key binary timeout fields))) + installLoss a key fields =
      byteLength (pretty (.obj fields)) + installGain a key binary timeout fields := by
  have hmembers := fieldsSize_mergeFields a binary timeout (nodup_events ha) hlists
  have hne : mergeFields a binary timeout a.events (eventsOf key fields) ≠ [] := by
    obtain ⟨spec, hspec⟩ := List.exists_mem_of_ne_nil _ (events_ne_nil ha hformat)
    intro hnil
    have hget := get_mergeFields_of_mem a binary timeout (eventsOf key fields)
      (nodup_events ha) hspec
    rw [hnil] at hget
    cases hget
  have hcontainer : size 1 (.obj (mergeFields a binary timeout a.events (eventsOf key fields))) +
      installLoss a key fields = size 1 (.obj (eventsOf key fields)) +
        ((if eventsOf key fields = [] then 2 else 0) +
          (a.events.map (eventGain a binary timeout (eventsOf key fields))).sum) := by
    rw [size_obj 1 hne, installLoss]
    by_cases hnil : eventsOf key fields = []
    · rw [hnil] at hmembers ⊢
      rw [size_obj_nil, if_pos rfl]
      simp only [fieldsSize, List.map_nil, List.sum_nil] at hmembers ⊢
      omega
    · rw [size_obj 1 hnil, if_neg hnil]
      omega
  rw [byteLength_pretty, byteLength_pretty, mergeRoot, installGain]
  obtain hnone | hsome := hfields
  · have hnil : eventsOf key fields = [] := by
      rw [eventsOf, hnone]
    rw [size_added _ _ hnone, if_pos hnone]
    rw [hnil, size_obj_nil] at hcontainer
    rw [hnil]
    simp only [Nat.mul_zero, ite_self, if_true, Nat.zero_add] at hcontainer ⊢
    omega
  · have hne' : (Json.obj fields).get key ≠ none := by
      rw [hsome]
      exact Option.some_ne_none _
    have hreplaced := size_replaced 0
      (.obj (mergeFields a binary timeout a.events (eventsOf key fields))) hsome
    simp only [if_neg hne', Nat.zero_add] at hreplaced ⊢
    omega

end Config

/-- How much a new config holds is known before it is merged. -/
theorem byteLength_new {binary : List Char} (h : byteLength (pretty (.obj [])) +
    installGain claude hooksKey binary (some 5) [] ≤ maxBytes) :
    byteLength (pretty (.obj (mergeRoot claude hooksKey binary (some 5) []))) ≤ maxBytes := by
  have hlists : Lists (claude.events.map EventSpec.event) (eventsOf hooksKey []) :=
    fun event _ => eventList_eq_ok.mpr ⟨rfl, .inl rfl⟩
  have hgrown := byteLength_mergeRoot claude binary (some 5) claude_mem claude_format (.inl rfl)
    hlists
  omega

end CydMonitor.Hooks
