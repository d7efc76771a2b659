import CydMonitor.Hooks.Growth

/-!
# Installed hooks, classified

A config is judged by the handlers of ours that it has. Those of a merged config all carry the
command of their event, so one command decides.
-/

namespace CydMonitor.Hooks

open Json Scan Metrics

section Summary

variable {states : List (List Char × EventState)}

theorem complain_ne_nil {grouped : List (List Char × List (List Char))} (h : grouped ≠ [])
    (state : List Char × EventState) : complain grouped state ≠ [] := by
  unfold complain
  split
  · split_ifs
    · exact fun hnil => h (List.map_eq_nil_iff.mp hnil)
    · exact List.append_ne_nil_of_right_ne_nil _ (List.cons_ne_nil _ _)
  · exact h

theorem foldl_complain_ne_nil {grouped : List (List Char × List (List Char))} (h : grouped ≠ []) :
    states.foldl complain grouped ≠ [] := by
  induction states generalizing grouped with
  | nil => exact h
  | cons state states ih => exact ih (complain_ne_nil h state)

/-- There are no complaints exactly when no event is outdated. -/
theorem foldl_complain_eq_nil :
    states.foldl complain [] = [] ↔ ∀ s ∈ states, ∀ why, s.2 ≠ .outdated why := by
  induction states with
  | nil => simp
  | cons state states ih =>
    rw [List.foldl_cons, List.forall_mem_cons, ← ih]
    cases hstate : state.2 with
    | outdated why =>
      have hone : complain [] state = [(why, [state.1])] := by
        simp [complain, hstate]
      rw [hone]
      constructor
      · intro h
        exact absurd h (foldl_complain_ne_nil (List.cons_ne_nil _ _))
      · intro h
        exact absurd rfl (h.1 why)
    | _ =>
      have hnone : complain [] state = [] := by
        simp [complain, hstate]
      simp [hnone]

theorem missing_eq_nil :
    (states.filter (·.2 = .missing)).map Prod.fst = [] ↔ ∀ s ∈ states, s.2 ≠ .missing := by
  simp

theorem summarize_eq_notInstalled :
    summarize states = .notInstalled ↔ ∀ s ∈ states, s.2 = .missing := by
  have hlength : ((states.filter (·.2 = .missing)).map Prod.fst).length = states.length ↔
      ∀ s ∈ states, s.2 = .missing := by
    rw [List.length_map, List.length_filter_eq_length_iff]
    simp
  rw [← hlength]
  unfold summarize
  constructor
  · intro h
    dsimp only at h
    split_ifs at h with hall
    exact hall
  · intro h
    dsimp only
    rw [if_pos h]

theorem summarize_eq_installed :
    summarize states = .installed ↔ states ≠ [] ∧ ∀ s ∈ states, s.2 = .ok := by
  have hok (s : List Char × EventState) :
      s.2 = .ok ↔ s.2 ≠ .missing ∧ ∀ why, s.2 ≠ .outdated why := by
    cases s.2 <;> simp
  simp only [hok, forall_and, ← missing_eq_nil, ← foldl_complain_eq_nil]
  unfold summarize
  dsimp only
  generalize (states.filter (·.2 = .missing)).map Prod.fst = missing
  generalize states.foldl complain [] = complaints
  cases missing with
  | nil =>
    cases states with
    | nil => simp
    | cons s states => cases complaints <;> simp
  | cons m missing =>
    refine iff_of_false ?_ fun h => List.cons_ne_nil _ _ h.2.1
    simp only [List.isEmpty_cons, Bool.not_false, if_true]
    split_ifs <;> nofun

end Summary

theorem judge_ne_missing (command slug : List Char) (want : HookActivity) (binary : List Char)
    (exist : List Char → Bool) : judge command slug want binary exist ≠ .missing := by
  unfold judge
  split
  · nofun
  · split_ifs <;> nofun

theorem worst_replicate {n : ℕ} {state : EventState} (hn : n ≠ 0) (h : state ≠ .missing) :
    worst (List.replicate n state) = state := by
  obtain ⟨m, rfl⟩ := Nat.exists_eq_succ_of_ne_zero hn
  cases state with
  | ok => simp [worst]
  | missing => exact absurd rfl h
  | outdated why => simp [worst, List.replicate_succ]

/-- The state of a merged event is that of its command. -/
theorem inspectEvent_mergeList (a : Adapter) (spec : EventSpec) (binary : List Char)
    (timeout : Option ℕ) (list : List Json) (exist : List Char → Bool) :
    inspectEvent a.slug spec (mergeList a spec binary timeout list) binary exist =
      judge (commandLine binary a.slug spec.activity) a.slug spec.activity binary exist := by
  generalize hstate : judge (commandLine binary a.slug spec.activity) a.slug spec.activity binary
    exist = state
  have hours :
      (handlers (mergeList a spec binary timeout list)).filter (isOurHandler a.slug) ≠ [] := by
    obtain ⟨h, hmem, hh⟩ := List.any_eq_true.mp (any_mergeList a spec binary timeout list)
    exact List.ne_nil_of_mem (List.mem_filter.mpr ⟨hmem, hh⟩)
  have hsame : ((handlers (mergeList a spec binary timeout list)).filter (isOurHandler a.slug)).map
      (fun handler => judge ((handlerCommand handler).getD []) a.slug spec.activity binary exist) =
      List.replicate ((handlers (mergeList a spec binary timeout list)).filter
        (isOurHandler a.slug)).length state := by
    rw [← List.map_const']
    refine List.map_congr_left fun h hh => ?_
    obtain ⟨hmem, hh⟩ := List.mem_filter.mp hh
    rw [command_of_mem_mergeList a spec binary timeout list hmem hh, Option.getD_some, hstate]
  rw [inspectEvent, hsame]
  refine worst_replicate (fun h => hours (List.length_eq_zero_iff.mp h)) ?_
  rw [← hstate]
  exact judge_ne_missing _ _ _ _ _

/-- A command that was just written is right unless the path contains the marker. -/
theorem judge_commandLine (agent : Agent) {binary : List Char} (habsolute : binary.head? = some '/')
    (activity : HookActivity) {exist : List Char → Bool} (hexist : exist binary = true) :
    judge (commandLine binary agent.slug.toList activity) agent.slug.toList activity binary exist =
      .ok ↔ ¬marker agent.slug.toList <:+: binary := by
  constructor
  · intro h hmarked
    obtain ⟨path, reported, hparse, hne⟩ := parseCommand_marked agent hmarked habsolute activity
    rw [judge, hparse] at h
    simp only [if_pos hne] at h
    cases h
  · intro h
    rw [judge, parseCommand_commandLine agent h activity]
    simp [hexist]

theorem mapM_eq_ok {ε α β : Type} {f : α → Except ε β} {g : α → β} {l : List α}
    (h : ∀ x ∈ l, f x = .ok (g x)) : l.mapM f = .ok (l.map g) := by
  induction l with
  | nil => rfl
  | cons x l ih =>
    obtain ⟨hx, hl⟩ := List.forall_mem_cons.mp h
    rw [List.mapM_cons, hx, ih hl]
    rfl

theorem inspectJson_obj {a : Adapter} {key : List Char} {scope : Scope} {timeout : Option ℕ}
    (hformat : a.format = .json key scope timeout) {fields : List (List Char × Json)}
    (h : HasContainer key fields)
    (hlists : Lists (a.events.map EventSpec.event) (eventsOf key fields))
    (binary : List Char) (exist : List Char → Bool) :
    inspectJson a (.obj fields) binary exist = .ok (a.events.map fun spec =>
      (spec.event,
        inspectEvent a.slug spec (listOf spec.event (eventsOf key fields)) binary exist)) := by
  have hcontainer : container (.obj fields) key = .ok ((Json.obj fields).get key) :=
    container_eq_ok.mpr ⟨fields, rfl, h, rfl⟩
  unfold inspectJson
  simp only [hformat, hcontainer, except_ok_bind]
  refine mapM_eq_ok fun spec hspec => ?_
  have hlist : eventList ((Json.obj fields).get key) spec.event =
      .ok (listOf spec.event (eventsOf key fields)) := by
    have hevent := hlists spec.event (List.mem_map_of_mem hspec)
    obtain hget | hget := h
    · rw [hget]
      rw [eventsOf, hget]
      rfl
    · rw [hget]
      exact hevent
  rw [hlist]
  rfl

theorem summarize_merged {template key binary : List Char} {scope : Scope} {timeout : Option ℕ}
    {a : Adapter} (ha : a ∈ adapters template) (hformat : a.format = .json key scope timeout)
    (habsolute : binary.head? = some '/') {exist : List Char → Bool} (hexist : exist binary = true)
    {root merged : Json} (h : merge a root binary = .ok merged) :
    ∃ states, inspectJson a merged binary exist = .ok states ∧
      (summarize states = .installed ↔ ¬marker a.slug <:+: binary) := by
  have hnodup := nodup_events ha
  obtain ⟨fields, rfl, hfields, hlists, rfl⟩ := (merge_eq_ok hformat hnodup).mp h
  obtain ⟨other, hother, hcontainer, hlists', -⟩ :=
    (merge_eq_ok hformat hnodup).mp (merge_merged hformat hnodup h)
  cases hother
  refine ⟨_, inspectJson_obj hformat hcontainer hlists' binary exist, ?_⟩
  have hstate : ∀ spec ∈ a.events, inspectEvent a.slug spec (listOf spec.event
      (eventsOf key (mergeRoot a key binary timeout fields))) binary exist = .ok ↔
        ¬marker a.slug <:+: binary := by
    intro spec hspec
    rw [eventsOf_mergeRoot, listOf, get_mergeFields_of_mem _ _ _ _ hnodup hspec]
    simp only [inspectEvent_mergeList]
    exact judge_commandLine a.agent habsolute spec.activity hexist
  obtain ⟨spec, hspec⟩ := List.exists_mem_of_ne_nil _ (events_ne_nil ha hformat)
  rw [summarize_eq_installed, List.forall_mem_map]
  constructor
  · rintro ⟨-, hall⟩
    exact (hstate spec hspec).mp (hall spec hspec)
  · intro hmarker
    exact ⟨fun hnil => events_ne_nil ha hformat (List.map_eq_nil_iff.mp hnil),
      fun spec hspec => (hstate spec hspec).mpr hmarker⟩

/-- The text of a config after an edit. -/
def Edit.applied (edit : Edit) (existing : Option (List Char)) : Option (List Char) :=
  match edit with
  | .unchanged => existing
  | .write text => some text
  | .delete => none

section Applied

variable {template binary : List Char} {a : Adapter} {existing : Option (List Char)}
  {exist : List Char → Bool} (edit : Edit)

theorem classify_json (ha : a ∈ adapters template) {key : List Char} {scope : Scope}
    {timeout : Option ℕ} (hformat : a.format = .json key scope timeout)
    (habsolute : binary.head? = some '/') (hexist : exist binary = true)
    (h : install a existing binary = .ok edit)
    (hbytes : ∀ text, edit = .write text → byteLength text ≤ maxBytes) :
    classify a (edit.applied existing) binary exist = .installed ↔ ¬marker a.slug <:+: binary := by
  obtain ⟨root, merged, hroot, hmerge, hedit⟩ := (install_eq_ok hformat).mp h
  obtain ⟨text, htext, hparse⟩ : ∃ text, edit.applied existing = some text ∧
      parse text = .ok merged := by
    obtain ⟨rfl, text, htext, hparse⟩ | ⟨rfl, -⟩ := hedit
    · exact ⟨text, htext, hparse⟩
    · exact ⟨_, rfl, parse_merged ha hformat hroot hmerge (hbytes _ rfl)⟩
  obtain ⟨states, hstates, hsummary⟩ := summarize_merged ha hformat habsolute hexist hmerge
  rw [htext]
  unfold classify
  simp only [hformat, hparse, hstates]
  exact hsummary

theorem classify_plugin {template' : List Char} (hformat : a.format = .plugin template')
    (hexist : exist binary = true) (h : install a existing binary = .ok edit) :
    classify a (edit.applied existing) binary exist = .installed := by
  have happlied : edit.applied existing = some (pluginSource template' binary) := by
    unfold install at h
    simp only [hformat] at h
    cases existing with
    | none =>
      cases h
      rfl
    | some text =>
      dsimp only at h
      split_ifs at h with hwant
      · cases h
        exact congrArg some hwant
      · cases h
        rfl
  rw [happlied]
  unfold classify
  simp only [hformat, if_true, hexist]

/-- After an install a config classifies as installed exactly when it is the plugin or the path of
the binary does not contain the marker of the agent's commands. -/
theorem classify_applied (ha : a ∈ adapters template) (habsolute : binary.head? = some '/')
    (hexist : exist binary = true) (h : install a existing binary = .ok edit)
    (hbytes : ∀ text, edit = .write text → byteLength text ≤ maxBytes) :
    classify a (edit.applied existing) binary exist = .installed ↔
      a.format = .plugin template ∨ ¬marker a.slug <:+: binary := by
  cases hformat : a.format with
  | plugin template' =>
    have htemplate : template' = template := by
      simp only [adapters, List.mem_cons, List.not_mem_nil, or_false] at ha
      obtain rfl | rfl | rfl | rfl | rfl := ha <;> cases hformat
      rfl
    exact iff_of_true (classify_plugin edit hformat hexist h) (.inl (congrArg _ htemplate))
  | json key scope timeout =>
    exact (classify_json edit ha hformat habsolute hexist h hbytes).trans
      (or_iff_right (by intro h; cases h)).symm

end Applied

theorem classify_applied_plain : ∃ text,
    install claude none "/bin/cyd-host".toList = .ok (.write text) ∧
      (classify claude (some text) "/bin/cyd-host".toList (fun _ => true) = .installed ↔
        claude.format = .plugin [] ∨ ¬marker claude.slug <:+: "/bin/cyd-host".toList) := by
  refine ⟨_, install_new claude_mem claude_format, ?_⟩
  refine classify_applied (.write _) claude_mem rfl rfl (install_new claude_mem claude_format)
    fun text htext => ?_
  cases htext
  exact byteLength_new (by decide +kernel)

/-- An absolute path that contains the marker of Claude's commands. -/
def markedPath : List Char := "/opt/agent-event claude /cyd-host".toList

theorem marked_not_installed : markedPath.head? = some '/' ∧
    (markedPath.all fun c => decide (0x20 ≤ c.toNat)) = true ∧
    ∃ text, install claude none markedPath = .ok (.write text) ∧ byteLength text ≤ maxBytes ∧
      classify claude (some text) markedPath (fun _ => true) ≠ .installed := by
  have hbytes : byteLength (pretty (.obj (mergeRoot claude hooksKey markedPath (some 5) []))) ≤
      maxBytes :=
    byteLength_new (by decide +kernel)
  refine ⟨rfl, by decide, _, install_new claude_mem claude_format, hbytes, fun h => ?_⟩
  refine (classify_json (.write _) claude_mem claude_format rfl rfl
    (install_new claude_mem claude_format) fun text htext => ?_).mp h (by decide)
  cases htext
  exact hbytes

end CydMonitor.Hooks
