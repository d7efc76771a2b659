import CydMonitor.Hooks.Removal
import Mathlib.Data.List.Forall2

/-!
# What the edits leave alone

An install changes the command of a handler of ours and may add a timeout to it; all it adds
besides is the container, events and entries of its own. A remove takes handlers of ours, and what
holds nothing then.
-/

namespace CydMonitor.Hooks

open Json Scan

section Installs

variable {slug want : List Char} {timeout : Option ℕ}

/-- A handler before and after an install. -/
inductive Pointed (slug : List Char) : Json → Json → Prop where
  | foreign {h : Json} (hforeign : isOurHandler slug h = false) : Pointed slug h h
  | ours {fields fields' : List (List Char × Json)}
      (hours : isOurHandler slug (.obj fields) = true)
      (hours' : isOurHandler slug (.obj fields') = true)
      (hkeys : fields'.map Prod.fst = fields.map Prod.fst ∨
        fields'.map Prod.fst = fields.map Prod.fst ++ [timeoutKey])
      (hothers : ∀ key v, key ≠ commandKey → (Json.obj fields).get key = some v →
        (Json.obj fields').get key = some v) :
      Pointed slug (.obj fields) (.obj fields')

/-- An item of an event's list before and after an install. -/
inductive PointedItem (slug : List Char) : Json → Json → Prop where
  | handler {item item' : Json} (hitem : isHandler item = true) (h : Pointed slug item item') :
      PointedItem slug item item'
  | group {fields : List (List Char × Json)} {inner inner' : List Json}
      (hitem : isHandler (.obj fields) = false)
      (hget : (Json.obj fields).get hooksKey = some (.arr inner))
      (h : List.Forall₂ (Pointed slug) inner inner') :
      PointedItem slug (.obj fields) (.obj (setField hooksKey (.arr inner') fields))
  | other {item : Json} (h : itemHandlers item = []) : PointedItem slug item item

/-- An event's list before and after an install: at the end there may be entries of ours. -/
def PointedList (slug : List Char) (list list' : List Json) : Prop :=
  ∃ front new, list' = front ++ new ∧ List.Forall₂ (PointedItem slug) list front ∧
    ∀ entry ∈ new, stripItem slug entry = (none, true)

/-- The members of the container before and after an install. -/
structure PointedFields (slug : List Char) (events : List (List Char))
    (fields fields' : List (List Char × Json)) : Prop where
  keys : fields'.map Prod.fst = fields.map Prod.fst ++ events.filter (· ∉ fields.map Prod.fst)
  others : ∀ key, key ∉ events → (Json.obj fields').get key = (Json.obj fields).get key
  lists : ∀ event ∈ events, eventList (some (.obj fields)) event = .ok (listOf event fields) ∧
    ∃ list', (Json.obj fields').get event = some (.arr list') ∧
      PointedList slug (listOf event fields) list'

/-- The members of a config before and after an install. -/
structure PointedRoot (slug key : List Char) (events : List (List Char))
    (fields fields' : List (List Char × Json)) : Prop where
  keys : fields'.map Prod.fst =
    if key ∈ fields.map Prod.fst then fields.map Prod.fst else fields.map Prod.fst ++ [key]
  others : ∀ other, other ≠ key → (Json.obj fields').get other = (Json.obj fields).get other
  container : HasContainer key fields ∧
    ∃ events', (Json.obj fields').get key = some (.obj events') ∧
    PointedFields slug events (eventsOf key fields) events'

theorem keys_pointFields (fields : List (List Char × Json))
    (hcommand : (Json.obj fields).get commandKey ≠ none) :
    (pointFields want timeout fields).map Prod.fst = fields.map Prod.fst ∨
      (pointFields want timeout fields).map Prod.fst = fields.map Prod.fst ++ [timeoutKey] := by
  have hkeys : (setField commandKey (.str want) fields).map Prod.fst = fields.map Prod.fst := by
    rw [keys_setField, if_pos]
    exact not_not.mp fun hmem => hcommand (get_eq_none.mpr hmem)
  cases timeout with
  | none => exact .inl hkeys
  | some t =>
    rw [pointFields]
    split_ifs with hnone
    · right
      rw [keys_setField, hkeys, if_neg (get_eq_none.mp hnone)]
    · exact .inl hkeys

theorem pointed_pointOurs (hwant : isOurs want slug = true) (h : Json) :
    Pointed slug h (pointOurs slug want timeout h) := by
  have hours' : isOurHandler slug (pointOurs slug want timeout h) = isOurHandler slug h :=
    isOurHandler_pointOurs hwant h
  rw [pointOurs] at hours' ⊢
  cases hours : isOurHandler slug h with
  | false => exact .foreign hours
  | true =>
    obtain ⟨command, hcommand⟩ := isHandler_iff.mp (isHandler_of_ours hours)
    obtain ⟨fields, rfl, hget⟩ := handlerCommand_eq_some.mp hcommand
    rw [hours, if_pos rfl, point_obj] at hours'
    rw [if_pos rfl, point_obj]
    refine .ours hours hours' (keys_pointFields fields ?_) fun key v hne hv => ?_
    · rw [hget]
      exact Option.some_ne_none _
    · by_cases htimeout : key = timeoutKey
      · subst htimeout
        have hpresent : (Json.obj fields).get timeoutKey ≠ none := by
          rw [hv]
          exact Option.some_ne_none _
        cases timeout with
        | none => exact (get_setField_ne hne).trans hv
        | some t =>
          rw [pointFields, if_neg hpresent]
          exact (get_setField_ne hne).trans hv
      · rw [get_pointFields_other hne htimeout, hv]

theorem pointed_mapItem (hwant : isOurs want slug = true) (item : Json) :
    PointedItem slug item (mapItem (pointOurs slug want timeout) item) := by
  rw [mapItem]
  cases hitem : isHandler item with
  | true => exact .handler hitem (pointed_pointOurs hwant item)
  | false =>
    cases hgroup : groupHooks item with
    | none =>
      refine .other ?_
      rw [itemHandlers, hitem, hgroup]
      rfl
    | some inner =>
      obtain ⟨fields, rfl, hget⟩ := groupHooks_eq_some.mp hgroup
      refine .group hitem hget ?_
      rw [List.forall₂_map_right_iff, List.forall₂_same]
      intro h _
      split_ifs with hh
      · exact pointed_pointOurs hwant h
      · exact .foreign (Bool.eq_false_iff.mpr fun hours => hh (isHandler_of_ours hours))

theorem pointed_mergeList (a : Adapter) (spec : EventSpec) (binary : List Char)
    (list : List Json) : PointedList a.slug list (mergeList a spec binary timeout list) := by
  refine ⟨_, _, rfl, ?_, fun entry hentry => ?_⟩
  · rw [mapHandlers, List.forall₂_map_right_iff, List.forall₂_same]
    exact fun item _ => pointed_mapItem (isOurs_commandLine ..) item
  · split_ifs at hentry
    · cases hentry
    · rw [List.mem_singleton.mp hentry]
      exact stripItem_newEntry ..

theorem pointed_mergeRoot {a : Adapter} {key : List Char} (binary : List Char)
    (timeout : Option ℕ) (hnodup : (a.events.map EventSpec.event).Nodup)
    {fields : List (List Char × Json)} (hfields : HasContainer key fields)
    (hlists : Lists (a.events.map EventSpec.event) (eventsOf key fields)) :
    PointedRoot a.slug key (a.events.map EventSpec.event) fields
      (mergeRoot a key binary timeout fields) := by
  refine ⟨keys_setField, fun other hne => get_setField_ne hne, hfields, _, get_mergeRoot .., ?_⟩
  refine ⟨keys_mergeFields hnodup, fun key hkey => get_mergeFields_ne hkey, fun event hevent => ?_⟩
  obtain ⟨spec, hspec, rfl⟩ := List.mem_map.mp hevent
  exact ⟨hlists _ hevent, _, get_mergeFields_of_mem _ _ _ _ hnodup hspec,
    pointed_mergeList a spec binary _⟩

end Installs

section Removes

variable {slug key : List Char} {fields : List (List Char × Json)}

/-- An event's list before and after a remove, item by item. -/
inductive LeftList (slug : List Char) : List Json → List Json → Prop where
  | nil : LeftList slug [] []
  | left {item left : Json} {touched : Bool} {list list' : List Json}
      (hitem : Stripped slug item (some left, touched)) (h : LeftList slug list list') :
      LeftList slug (item :: list) (left :: list')
  | gone {item : Json} {touched : Bool} {list list' : List Json}
      (hitem : Stripped slug item (none, touched)) (h : LeftList slug list list') :
      LeftList slug (item :: list) list'

/-- The members of the container before and after a remove. -/
inductive LeftFields (slug : List Char) :
    List (List Char × Json) → List (List Char × Json) → Prop where
  | nil : LeftFields slug [] []
  | same {f : List Char × Json} {fields fields' : List (List Char × Json)}
      (hclean : ∀ list, f.2 = .arr list → (handlers list).any (isOurHandler slug) = false)
      (h : LeftFields slug fields fields') : LeftFields slug (f :: fields) (f :: fields')
  | thinned {event : List Char} {list list' : List Json} {fields fields' : List (List Char × Json)}
      (hours : (handlers list).any (isOurHandler slug) = true) (hlist : LeftList slug list list')
      (hne : list' ≠ []) (h : LeftFields slug fields fields') :
      LeftFields slug ((event, .arr list) :: fields) ((event, .arr list') :: fields')
  | emptied {event : List Char} {list : List Json} {fields fields' : List (List Char × Json)}
      (hours : (handlers list).any (isOurHandler slug) = true) (hlist : LeftList slug list [])
      (h : LeftFields slug fields fields') : LeftFields slug ((event, .arr list) :: fields) fields'

/-- The members of a config before and after a remove. -/
def LeftRoot (slug key : List Char) (scope : Scope) (fields fields' : List (List Char × Json)) :
    Prop :=
  match scope with
  | .ownKey => fields' = fields.filter (·.1 != key)
  | _ => ∃ events', LeftFields slug (eventsOf key fields) events' ∧
      fields' = if events' = [] then fields.filter (·.1 != key)
        else setField key (.obj events') fields

theorem left_stripOurs (slug : List Char) (list : List Json) :
    LeftList slug list (stripOurs slug list).1 := by
  induction list with
  | nil => exact .nil
  | cons item list ih =>
    have hitem := stripped_stripItem slug item
    rw [stripOurs] at ih ⊢
    rw [List.filterMap_cons]
    cases hstrip : stripItem slug item with
    | mk left touched =>
      rw [hstrip] at hitem
      cases left with
      | none => exact .gone hitem ih
      | some left => exact .left hitem ih

theorem left_stripFields (fields : List (List Char × Json)) :
    LeftFields slug fields (fields.filterMap fun f => (stripField slug f).1) := by
  induction fields with
  | nil => exact .nil
  | cons f fields ih =>
    obtain ⟨event, v⟩ := f
    rw [List.filterMap_cons, stripField]
    cases v with
    | arr list =>
      have hlist := left_stripOurs slug list
      have htouched := stripOurs_snd slug list
      dsimp only
      cases hany : (handlers list).any (isOurHandler slug) with
      | false =>
        rw [stripOurs_clean hany]
        refine .same (fun other hother => ?_) ih
        cases hother
        exact hany
      | true =>
        rw [hany] at htouched
        rw [htouched, Bool.true_and]
        by_cases hnil : (stripOurs slug list).1 = []
        · rw [hnil] at hlist ⊢
          exact .emptied hany hlist ih
        · rw [List.isEmpty_eq_false_iff.mpr hnil]
          exact .thinned hany hlist hnil ih
    | _ => exact .same (by intro other h; cases h) ih

theorem clean_stripFields (fields : List (List Char × Json)) :
    Clean slug (fields.filterMap fun f => (stripField slug f).1) := by
  intro event list hmem
  obtain ⟨⟨key, v⟩, hf, hleft⟩ := List.mem_filterMap.mp hmem
  rw [stripField] at hleft
  cases v with
  | arr old =>
    dsimp only at hleft
    split_ifs at hleft
    cases Option.some.inj hleft
    exact clean_stripOurs old
  | _ => cases Option.some.inj hleft

/-- A value found after some members are changed or dropped. -/
theorem get_filterMap {g : List Char × Json → Option (List Char × Json)}
    (hg : ∀ f f', g f = some f' → f'.1 = f.1) (hnodup : (fields.map Prod.fst).Nodup)
    (key : List Char) :
    (Json.obj (fields.filterMap g)).get key =
      ((Json.obj fields).get key).bind fun v => (g (key, v)).map Prod.snd := by
  induction fields with
  | nil => rfl
  | cons f fields ih =>
    rw [List.map_cons, List.nodup_cons] at hnodup
    have hrest := ih hnodup.2
    rw [get_cons, List.filterMap_cons]
    by_cases hkey : f.1 = key
    · have hnone : (Json.obj fields).get key = none := get_eq_none.mpr (hkey ▸ hnodup.1)
      rw [hnone, Option.bind_none] at hrest
      rw [if_pos hkey, Option.bind_some, ← hkey]
      cases hf : g f with
      | none => rw [← hkey] at hrest; simpa [hf] using hrest
      | some f' =>
        dsimp only
        rw [get_cons, if_pos (hg f f' hf)]
        simp
    · rw [if_neg hkey]
      cases hf : g f with
      | none => exact hrest
      | some f' =>
        dsimp only
        rw [get_cons, if_neg fun h => hkey ((hg f f' hf).symm.trans h)]
        exact hrest

theorem stripField_fst {f f' : List Char × Json} (h : (stripField slug f).1 = some f') :
    f'.1 = f.1 := by
  obtain ⟨event, v⟩ := f
  rw [stripField] at h
  cases v with
  | arr list =>
    dsimp only at h
    split_ifs at h
    rw [← Option.some.inj h]
  | _ => rw [← Option.some.inj h]

/-- A remove makes no list of what was none. -/
theorem lists_stripFields {events : List (List Char)} (hnodup : (fields.map Prod.fst).Nodup) :
    Lists events (fields.filterMap fun f => (stripField slug f).1) ↔ Lists events fields := by
  refine forall₂_congr fun event _ => ?_
  rw [eventList_eq_ok, eventList_eq_ok, and_iff_right rfl, and_iff_right rfl, listOf, listOf,
    get_filterMap (fun _ _ => stripField_fst) hnodup]
  cases (Json.obj fields).get event with
  | none => simp
  | some v =>
    rw [Option.bind_some, stripField]
    cases v with
    | arr list =>
      dsimp only
      split_ifs <;> simp
    | _ => simp

theorem clean_iff : Clean slug fields ↔ ∀ f ∈ fields, (stripField slug f).2 = false := by
  constructor
  · intro h f hf
    rw [stripField_clean h hf]
  · intro h event list hmem
    have huntouched := h _ hmem
    rw [stripField] at huntouched
    exact (stripOurs_snd slug list).symm.trans huntouched

theorem stripFields_clean (h : Clean slug fields) :
    fields.filterMap (fun f => (stripField slug f).1) = fields := by
  refine Eq.trans (List.filterMap_congr fun f hf => ?_) List.filterMap_some
  rw [stripField_clean h hf]

theorem removeShared_clean (hfields : HasContainer key fields)
    (hclean : Clean slug (eventsOf key fields)) :
    removeShared slug key (.obj fields) = (.obj fields, false) := by
  unfold removeShared
  obtain hnone | hsome := hfields
  · rw [hnone]
  · have hany : ((eventsOf key fields).any fun f => (stripField slug f).2) = false := by
      rw [List.any_eq_false]
      intro f hf
      rw [clean_iff.mp hclean f hf]
      exact Bool.false_ne_true
    rw [hsome]
    simp only [hany, stripFields_clean hclean, Bool.false_and, Bool.false_eq_true, if_false,
      set_obj, setField_of_get hsome]

/-- What a remove makes of the members of a shared config with handlers of ours. -/
def leftRoot (slug key : List Char) (fields : List (List Char × Json)) : List (List Char × Json) :=
  let events' := (eventsOf key fields).filterMap fun f => (stripField slug f).1
  if events' = [] then fields.filter (·.1 != key) else setField key (.obj events') fields

theorem removeShared_touched (hfields : HasContainer key fields)
    (htouched : ¬Clean slug (eventsOf key fields)) :
    removeShared slug key (.obj fields) = (.obj (leftRoot slug key fields), true) := by
  unfold removeShared
  obtain hnone | hsome := hfields
  · refine absurd ?_ htouched
    rw [eventsOf, hnone]
    exact fun _ _ h => absurd h List.not_mem_nil
  · have hany : ((eventsOf key fields).any fun f => (stripField slug f).2) = true := by
      rw [List.any_eq_true]
      rw [clean_iff] at htouched
      simpa using htouched
    rw [hsome]
    simp only [hany, Bool.true_and, set_obj]
    rw [leftRoot]
    by_cases hnil : (eventsOf key fields).filterMap (fun f => (stripField slug f).1) = []
    · rw [if_pos (List.isEmpty_iff.mpr hnil), if_pos hnil]
      exact congrArg (fun kept => (Json.obj kept, true)) (filter_setField _)
    · rw [if_neg (by simpa using hnil), if_neg hnil]

theorem eventsOf_leftRoot (slug key : List Char) (fields : List (List Char × Json)) :
    HasContainer key (leftRoot slug key fields) ∧ eventsOf key (leftRoot slug key fields) =
      (eventsOf key fields).filterMap fun f => (stripField slug f).1 := by
  have hget : (Json.obj (leftRoot slug key fields)).get key =
      if (eventsOf key fields).filterMap (fun f => (stripField slug f).1) = [] then none
      else some (.obj ((eventsOf key fields).filterMap fun f => (stripField slug f).1)) := by
    rw [leftRoot]
    split_ifs
    · rw [get_eq_none]
      simp
    · exact get_setField_self
  have hevents : eventsOf key (leftRoot slug key fields) =
      (eventsOf key fields).filterMap fun f => (stripField slug f).1 := by
    rw [eventsOf.eq_1 key (leftRoot slug key fields), hget]
    split_ifs with hnil
    · exact hnil.symm
    · rfl
  refine ⟨?_, hevents⟩
  rw [HasContainer, hevents, hget]
  split_ifs
  · exact .inl rfl
  · exact .inr rfl

end Removes

theorem ok_of_mapM {ε α β : Type} {f : α → Except ε β} {l : List α} {r : List β}
    (h : l.mapM f = .ok r) : ∀ x ∈ l, ∃ y, f x = .ok y := by
  induction l generalizing r with
  | nil => nofun
  | cons x l ih =>
    rw [List.mapM_cons] at h
    obtain ⟨y, hy, h⟩ := except_bind_eq_ok.mp h
    obtain ⟨rest, hrest, -⟩ := except_bind_eq_ok.mp h
    exact List.forall_mem_cons.mpr ⟨⟨y, hy⟩, ih hrest⟩

section Classified

variable {a : Adapter} {key : List Char} {scope : Scope} {timeout : Option ℕ}
  {fields : List (List Char × Json)}

theorem lists_of_inspectJson (hformat : a.format = .json key scope timeout)
    (hfields : HasContainer key fields) {binary : List Char} {exist : List Char → Bool}
    {states : List (List Char × EventState)}
    (h : inspectJson a (.obj fields) binary exist = .ok states) :
    Lists (a.events.map EventSpec.event) (eventsOf key fields) := by
  have hcontainer : container (.obj fields) key = .ok ((Json.obj fields).get key) :=
    container_eq_ok.mpr ⟨fields, rfl, hfields, rfl⟩
  unfold inspectJson at h
  simp only [hformat, hcontainer, except_ok_bind] at h
  intro event hevent
  obtain ⟨spec, hspec, rfl⟩ := List.mem_map.mp hevent
  obtain ⟨list, hlist⟩ : ∃ list, eventList ((Json.obj fields).get key) spec.event = .ok list := by
    obtain ⟨state, hstate⟩ := ok_of_mapM h spec hspec
    obtain ⟨list, hlist, -⟩ := except_bind_eq_ok.mp hstate
    exact ⟨list, hlist⟩
  obtain hnone | hsome := hfields
  · have hnil : eventsOf key fields = [] := by
      rw [eventsOf, hnone]
    rw [hnil]
    exact eventList_eq_ok.mpr ⟨rfl, .inl rfl⟩
  · rw [hsome] at hlist
    rw [hlist, (eventList_eq_ok.mp hlist).1]

/-- Without handlers of ours a config is classified by whether its events are lists. -/
theorem classify_clean (hformat : a.format = .json key scope timeout) {text : List Char}
    (hparse : parse text = .ok (.obj fields)) (hfields : HasContainer key fields)
    (hclean : Clean a.slug (eventsOf key fields)) (binary : List Char) (exist : List Char → Bool) :
    classify a (some text) binary exist = .notInstalled ↔
      Lists (a.events.map EventSpec.event) (eventsOf key fields) := by
  unfold classify
  simp only [hformat, hparse]
  constructor
  · intro h
    cases hstates : inspectJson a (.obj fields) binary exist with
    | ok states => exact lists_of_inspectJson hformat hfields hstates
    | error reason =>
      rw [hstates] at h
      cases h
  · intro hlists
    rw [inspectJson_obj hformat hfields hlists]
    refine summarize_eq_notInstalled.mpr (List.forall_mem_map.mpr fun spec _ => ?_)
    have hnone : (handlers (listOf spec.event (eventsOf key fields))).filter (isOurHandler a.slug) =
        [] := by
      refine List.filter_eq_nil_iff.mpr fun h hh => ?_
      exact List.any_eq_false.mp (listOf_clean spec.event hclean) h hh
    rw [inspectEvent, hnone]
    rfl

/-- A remove of a config that has a container or none. -/
theorem remove_obj (hformat : a.format = .json key scope timeout) (hscope : scope ≠ .wholeFile)
    {text : List Char} (hparse : parse text = .ok (.obj fields)) (hfields : HasContainer key fields)
    {left : Json × Bool} (hleft : (if scope = .ownKey then (Json.obj fields).remove key
      else removeShared a.slug key (.obj fields)) = left) :
    remove a (some text) = .ok (if !left.2 then .unchanged
      else if left.1.isEmptyObject then .delete else .write (pretty left.1)) := by
  have hcontainer : container (.obj fields) key = .ok ((Json.obj fields).get key) :=
    container_eq_ok.mpr ⟨fields, rfl, hfields, rfl⟩
  unfold remove
  simp only [hformat, if_neg hscope, hparse, Except.mapError, except_ok_bind, hcontainer, hleft]
  split_ifs <;> rfl

/-- A config without handlers of ours is not changed by a remove. -/
theorem remove_clean (hformat : a.format = .json key .shared timeout) {text : List Char}
    (hparse : parse text = .ok (.obj fields)) (hfields : HasContainer key fields)
    (hclean : Clean a.slug (eventsOf key fields)) : remove a (some text) = .ok .unchanged := by
  rw [remove_obj hformat nofun hparse hfields (if_neg nofun)]
  rw [removeShared_clean hfields hclean]
  rfl

theorem remove_without_key (hformat : a.format = .json key .ownKey timeout) {text : List Char}
    (hparse : parse text = .ok (.obj fields)) (hnone : (Json.obj fields).get key = none) :
    remove a (some text) = .ok .unchanged := by
  rw [remove_obj hformat nofun hparse (.inl hnone) (if_pos rfl), Json.remove]
  simp [filter_ne_eq_self.mpr hnone]

/-- The config that a remove was given, if it writes one. -/
theorem remove_eq_write (hformat : a.format = .json key scope timeout) (hscope : scope ≠ .wholeFile)
    {old text : List Char} {root : Json} (hparse : parse old = .ok root)
    (h : remove a (some old) = .ok (.write text)) : ∃ fields fields', root = .obj fields ∧
      HasContainer key fields ∧ text = pretty (.obj fields') ∧
        fields' =
          if scope = .ownKey then fields.filter (·.1 != key) else leftRoot a.slug key fields := by
  cases hcontainer : container root key with
  | error reason =>
    unfold remove at h
    simp only [hformat, if_neg hscope, hparse, Except.mapError, except_ok_bind, hcontainer] at h
    cases h
  | ok c =>
    obtain ⟨fields, rfl, hfields, -⟩ := container_eq_ok.mp hcontainer
    rw [remove_obj hformat hscope hparse hfields rfl] at h
    cases scope with
    | wholeFile => exact absurd rfl hscope
    | ownKey =>
      simp only [if_true, Json.remove] at h
      split_ifs at h <;> cases h
      exact ⟨fields, _, rfl, hfields, rfl, (if_pos rfl).symm⟩
    | shared =>
      simp only [reduceCtorEq, if_false] at h
      by_cases hclean : Clean a.slug (eventsOf key fields)
      · rw [removeShared_clean hfields hclean] at h
        cases h
      · rw [removeShared_touched hfields hclean] at h
        simp only [Bool.not_true, Bool.false_eq_true, if_false] at h
        split_ifs at h <;> cases h
        exact ⟨fields, _, rfl, hfields, rfl, (if_neg nofun).symm⟩

end Classified

section Left

variable {slug : List Char} {n : ℕ}

theorem good_stripItem {item left : Json} (h : Good n item)
    (hleft : (stripItem slug item).1 = some left) : Good n left := by
  have hstripped := stripped_stripItem slug item
  generalize stripItem slug item = result at hstripped hleft
  cases hstripped with
  | kept _ => exact Option.some.inj hleft ▸ h
  | handler _ => cases hleft
  | emptied _ _ _ _ => cases hleft
  | @thinned fields inner hitem hget hours hkept =>
    obtain ⟨m, rfl⟩ := h.pos
    have hinner := h.of_get hget
    obtain ⟨k, rfl⟩ := hinner.pos
    rw [← Option.some.inj hleft]
    refine h.setField (good_arr.mpr fun v hv => ?_)
    exact good_arr.mp hinner v (List.mem_of_mem_filter hv)

theorem keys_filterMap {g : List Char × Json → Option (List Char × Json)}
    (hg : ∀ f f', g f = some f' → f'.1 = f.1) (fields : List (List Char × Json)) :
    ((fields.filterMap g).map Prod.fst).Sublist (fields.map Prod.fst) := by
  induction fields with
  | nil => exact List.Sublist.refl _
  | cons f fields ih =>
    rw [List.filterMap_cons, List.map_cons]
    cases hf : g f with
    | none => exact ih.cons _
    | some f' =>
      dsimp only
      rw [List.map_cons, hg f f' hf]
      exact ih.cons_cons _

theorem good_stripFields {fields : List (List Char × Json)} (h : Good (n + 1) (.obj fields)) :
    Good (n + 1) (.obj (fields.filterMap fun f => (stripField slug f).1)) := by
  obtain ⟨hkeys, hvalues⟩ := good_obj.mp h
  refine good_obj.mpr ⟨hkeys.sublist (keys_filterMap (fun _ _ => stripField_fst) fields), ?_⟩
  intro f' hf'
  obtain ⟨⟨event, v⟩, hf, hleft⟩ := List.mem_filterMap.mp hf'
  have hv := hvalues _ hf
  rw [stripField] at hleft
  cases v with
  | arr list =>
    dsimp only at hleft
    split_ifs at hleft
    rw [← Option.some.inj hleft]
    obtain ⟨m, rfl⟩ := hv.pos
    refine good_arr.mpr fun left hmem => ?_
    obtain ⟨item, hitem, hstrip⟩ := List.mem_filterMap.mp hmem
    exact good_stripItem (good_arr.mp hv item hitem) hstrip
  | _ =>
    rw [← Option.some.inj hleft]
    exact hv

theorem good_leftRoot {key : List Char} {fields : List (List Char × Json)}
    (h : Good (n + 2) (.obj fields)) : Good (n + 2) (.obj (leftRoot slug key fields)) := by
  rw [leftRoot]
  split_ifs
  · exact h.sublist List.filter_sublist
  · exact h.setField (good_stripFields (good_eventsOf key h))

end Left

section Both

variable {template key old : List Char} {scope : Scope} {timeout : Option ℕ} {a : Adapter}
  {root : Json}

/-- An install and a remove of a config that the agent shares with others change what is ours, as
`PointedRoot` and `LeftRoot` say. A remove leaves no handler of ours, and the config is classified
as not installed then if the adapter's events are lists. -/
theorem edits_frame (ha : a ∈ adapters template) (hformat : a.format = .json key scope timeout)
    (hscope : scope ≠ .wholeFile) (hparse : parse old = .ok root) :
    (∀ binary text, install a (some old) binary = .ok (.write text) →
      ∃ fields fields', root = .obj fields ∧ text = pretty (.obj fields') ∧
        PointedRoot a.slug key (a.events.map EventSpec.event) fields fields') ∧
    ∀ text, remove a (some old) = .ok (.write text) →
      ∃ fields fields', root = .obj fields ∧ text = pretty (.obj fields') ∧
        LeftRoot a.slug key scope fields fields' ∧ Clean a.slug (eventsOf key fields') ∧
        (byteLength text ≤ maxBytes → parse text = .ok (.obj fields') ∧
          remove a (some text) = .ok .unchanged ∧
          ∀ binary exist, classify a (some text) binary exist = .notInstalled ↔
            scope = .ownKey ∨ Lists (a.events.map EventSpec.event) (eventsOf key fields)) := by
  have hgood := good_of_parse hparse
  constructor
  · intro binary text h
    obtain ⟨start, merged, hroot, hmerge, hedit⟩ := (install_eq_ok hformat).mp h
    have hstart : start = root := by
      unfold startingRoot at hroot
      simp only [hparse, if_neg hscope] at hroot
      exact (Option.some.inj hroot).symm
    obtain ⟨hedit, -⟩ | ⟨hedit, -⟩ := hedit
    · cases hedit
    · cases hedit
      obtain ⟨fields, hfields, hcontainer, hlists, rfl⟩ :=
        (merge_eq_ok hformat (nodup_events ha)).mp hmerge
      exact ⟨fields, _, hstart ▸ hfields, rfl,
        pointed_mergeRoot binary timeout (nodup_events ha) hcontainer hlists⟩
  · intro text h
    obtain ⟨fields, fields', rfl, hfields, rfl, hleft⟩ := remove_eq_write hformat hscope hparse h
    refine ⟨fields, fields', rfl, rfl, ?_⟩
    cases scope with
    | wholeFile => exact absurd rfl hscope
    | ownKey =>
      rw [if_pos rfl] at hleft
      have hnone : (Json.obj fields').get key = none := by
        rw [hleft, get_eq_none]
        simp
      have hnil : eventsOf key fields' = [] := by
        rw [eventsOf, hnone]
      have hclean : Clean a.slug (eventsOf key fields') := by
        rw [hnil]
        exact fun _ _ hmem => absurd hmem List.not_mem_nil
      have hgood' : Good (31 + 1) (.obj fields') := by
        rw [hleft]
        exact hgood.sublist List.filter_sublist
      refine ⟨hleft, hclean, fun hbytes => ?_⟩
      have hread := hgood'.parse_pretty hbytes
      refine ⟨hread, remove_without_key hformat hread hnone, fun binary exist => ?_⟩
      rw [classify_clean hformat hread (.inl hnone) hclean, hnil]
      exact iff_of_true (fun event _ => eventList_eq_ok.mpr ⟨rfl, .inl rfl⟩) (.inl rfl)
    | shared =>
      rw [if_neg (by intro h; cases h)] at hleft
      have hgood' : Good (30 + 2) (.obj fields') := by
        rw [hleft]
        exact good_leftRoot hgood
      obtain ⟨hcontainer, hevents⟩ := eventsOf_leftRoot a.slug key fields
      rw [← hleft] at hcontainer hevents
      have hclean : Clean a.slug (eventsOf key fields') := by
        rw [hevents]
        exact clean_stripFields _
      have hkeys := (good_obj.mp (good_eventsOf (n := 30) key hgood)).1
      refine ⟨⟨_, left_stripFields _, hleft⟩, hclean, fun hbytes => ?_⟩
      have hread := hgood'.parse_pretty hbytes
      refine ⟨hread, remove_clean hformat hread hcontainer hclean, fun binary exist => ?_⟩
      rw [classify_clean hformat hread hcontainer hclean, hevents, lists_stripFields hkeys]
      exact (or_iff_right (by intro h; cases h)).symm

end Both

/-- A setting beside a handler of ours. -/
def besideOurs : List Char :=
  "\x7b\"a\":1,\"hooks\":\x7b\"Stop\":[\x7b\"command\":".toList ++
    "\"agent-event claude idle\"\x7d]\x7d\x7d".toList

theorem edits_frame_sample : ∃ text, remove claude (some besideOurs) = .ok (.write text) ∧
    remove claude (some text) = .ok .unchanged := by
  have hparse : parse besideOurs = .ok (.obj [("a".toList, .num "1".toList),
      (hooksKey, .obj [("Stop".toList,
        .arr [.obj [(commandKey, .str "agent-event claude idle".toList)]])])]) := by
    decide +kernel
  have hremove : remove claude (some besideOurs) =
      .ok (.write (pretty (.obj [("a".toList, .num "1".toList)]))) := by
    decide +kernel
  obtain ⟨_, _, _, _, _, _, hagain⟩ :=
    (edits_frame claude_mem claude_format nofun hparse).2 _ hremove
  exact ⟨_, hremove, (hagain (by decide +kernel)).2.1⟩

/-- A group with a note and a handler of ours, and an event that is no list. -/
def notedGroup : List Char :=
  "\x7b\"hooks\":\x7b\"Stop\":5,\"SessionEnd\":[\x7b\"note\":1,\"hooks\":[".toList ++
    "\x7b\"command\":\"agent-event claude idle\"\x7d]\x7d]\x7d\x7d".toList

/-- The note goes with the group, and what is left is not classified as not installed. -/
theorem remove_takes_note : ∃ text, remove claude (some notedGroup) = .ok (.write text) ∧
    byteLength text ≤ maxBytes ∧ ¬"note".toList <:+: text ∧
      classify claude (some text) "/bin/cyd-host".toList (fun _ => true) ≠ .notInstalled := by
  refine ⟨pretty (.obj [(hooksKey, .obj [("Stop".toList, .num "5".toList)])]), ?_, ?_, ?_, ?_⟩
  all_goals decide +kernel

end CydMonitor.Hooks
