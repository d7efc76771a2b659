import CydMonitor.Hooks.Growth

/-!
# An install again

What an install writes is indented, so it can be too long to be read even where the config before
was not. Whatever can be read is left as it is by the next install.
-/

namespace CydMonitor.Hooks

open Json

section Again

variable {template key binary text : List Char} {scope : Scope} {timeout : Option ℕ} {a : Adapter}
  {existing : Option (List Char)}

theorem install_written (ha : a ∈ adapters template) (hformat : a.format = .json key scope timeout)
    {root merged : Json} (hroot : startingRoot scope existing = some root)
    (hmerge : merge a root binary = .ok merged) (hparse : parse text = .ok merged) :
    install a (some text) binary = .ok .unchanged := by
  rw [install_eq_ok hformat]
  cases scope with
  | wholeFile =>
    have hempty : root = .obj [] := by
      cases existing with
      | none => exact (Option.some.inj hroot).symm
      | some old =>
        unfold startingRoot at hroot
        cases hold : parse old with
        | error error =>
          simp only [hold] at hroot
          cases hroot
        | ok parsed =>
          simp only [hold, if_true] at hroot
          exact (Option.some.inj hroot).symm
    refine ⟨.obj [], merged, ?_, hempty ▸ hmerge, .inl ⟨rfl, text, rfl, hparse⟩⟩
    simp [startingRoot, hparse]
  | _ =>
    refine ⟨merged, merged, ?_, merge_merged hformat (nodup_events ha) hmerge,
      .inl ⟨rfl, text, rfl, hparse⟩⟩
    simp [startingRoot, hparse]

/-- What an install writes can be read, and is left as it is by the next install, exactly when the
indented config and the bytes that are added fit. -/
theorem install_again (ha : a ∈ adapters template) (hformat : a.format = .json key scope timeout)
    (h : install a existing binary = .ok (.write text)) :
    ∃ fields, startingRoot scope existing = some (.obj fields) ∧
      ((byteLength text ≤ maxBytes ∧ (∃ root, parse text = .ok root) ∧
          install a (some text) binary = .ok .unchanged) ↔
        byteLength (pretty (.obj fields)) + installGain a key binary timeout fields ≤
          maxBytes + installLoss a key fields) := by
  obtain ⟨root, merged, hroot, hmerge, hedit⟩ := (install_eq_ok hformat).mp h
  obtain ⟨hedit, -⟩ | ⟨hedit, -⟩ := hedit
  · cases hedit
  · cases hedit
    obtain ⟨fields, rfl, hfields, hlists, rfl⟩ := (merge_eq_ok hformat (nodup_events ha)).mp hmerge
    have hbytes := byteLength_mergeRoot a binary timeout ha hformat hfields hlists
    refine ⟨fields, hroot, ?_⟩
    constructor
    · intro ⟨hle, _, _⟩
      omega
    · intro hle
      have hshort :
          byteLength (pretty (.obj (mergeRoot a key binary timeout fields))) ≤ maxBytes := by
        omega
      have hparse := parse_merged ha hformat hroot hmerge hshort
      exact ⟨hshort, ⟨_, hparse⟩, install_written ha hformat hroot hmerge hparse⟩

end Again

theorem install_again_new : ∃ text,
    install claude none "/bin/cyd-host".toList = .ok (.write text) ∧
      ∃ fields, startingRoot .shared none = some (.obj fields) ∧
        ((byteLength text ≤ maxBytes ∧ (∃ root, parse text = .ok root) ∧
            install claude (some text) "/bin/cyd-host".toList = .ok .unchanged) ↔
          byteLength (pretty (.obj fields)) +
              installGain claude hooksKey "/bin/cyd-host".toList (some 5) fields ≤
            maxBytes + installLoss claude hooksKey fields) :=
  ⟨_, install_new claude_mem claude_format,
    install_again claude_mem claude_format (install_new claude_mem claude_format)⟩

theorem Good.parse_compact {v : Json} (h : Good maxDepth v)
    (hbytes : byteLength (compact v) ≤ maxBytes) : parse (compact v) = .ok v := by
  obtain ⟨t, ht⟩ := h.spelled
  exact (parse_iff hbytes).mpr
    ⟨⟨[], _, [], ws_nil, denotes_compact ht, ws_nil, (List.append_nil _).symm⟩, h.distinct, h.depth⟩

/-- A list of zeros under a key. -/
def zeros (n : ℕ) : List (List Char × Json) :=
  [("a".toList, .arr (List.replicate n (.num "0".toList)))]

theorem byteLength_compactItems_zeros (n : ℕ) :
    byteLength (compactItems (List.replicate n (.num "0".toList))) ≤ 2 * n := by
  induction n with
  | zero => exact Nat.le_refl 0
  | succ n ih =>
    have hzero : byteLength (compact (.num "0".toList)) = 1 := by decide
    have hcomma : byteLength (if (List.replicate n (Json.num "0".toList)).isEmpty then []
        else ",".toList) ≤ 1 := by
      split_ifs <;> decide
    rw [List.replicate_succ, compactItems, byteLength_append, byteLength_append, hzero]
    omega

theorem byteLength_compact_zeros (n : ℕ) : byteLength (compact (.obj (zeros n))) ≤ 2 * n + 8 := by
  have hitems := byteLength_compactItems_zeros n
  have hopen : byteLength "\x7b".toList = 1 ∧ byteLength "\x7d".toList = 1 ∧
      byteLength "[".toList = 1 ∧ byteLength "]".toList = 1 ∧ byteLength ":".toList = 1 ∧
        byteLength (writeString "a".toList) = 3 := by
    decide
  simp only [zeros, compact, compactFields, List.isEmpty_nil, if_true, byteLength_append,
    byteLength_nil, hopen]
  omega

theorem le_byteLength_pretty_zeros (n : ℕ) : 7 * n ≤ byteLength (pretty (.obj (zeros n))) := by
  have hzero : size 2 (.num "0".toList) = 1 := by decide
  rw [byteLength_pretty, zeros, size_obj 0 (List.cons_ne_nil _ _), fieldsSize]
  simp only [List.map_cons, List.map_nil, List.sum_cons, List.sum_nil]
  cases n with
  | zero => exact Nat.zero_le _
  | succ n =>
    rw [size_arr _ (by simp), itemsSize, List.map_replicate, List.sum_replicate_nat, hzero]
    omega

theorem good_zeros (n : ℕ) : Good maxDepth (.obj (zeros n)) := by
  have hnumber : IsNumber "0".toList := isNumber_decimal 0
  refine good_obj.mpr ⟨by simp [zeros], fun f hf => ?_⟩
  obtain rfl := List.mem_singleton.mp hf
  refine good_arr.mpr fun v hv => ?_
  obtain rfl := List.eq_of_mem_replicate hv
  exact good_num _ hnumber

theorem install_zeros {n : ℕ} (hshort : 2 * n + 8 ≤ maxBytes) (hlong : maxBytes < 7 * n)
    (binary : List Char) : byteLength (compact (.obj (zeros n))) ≤ maxBytes ∧
      ∃ text, install claude (some (compact (.obj (zeros n)))) binary = .ok (.write text) ∧
        maxBytes < byteLength text := by
  have hbytes := Nat.le_trans (byteLength_compact_zeros n) hshort
  have hparse := (good_zeros n).parse_compact hbytes
  have hnone : (Json.obj (zeros n)).get hooksKey = none := by
    have hkey : hooksKey ≠ "a".toList := by decide
    rw [get_eq_none]
    simpa [zeros] using hkey
  have hnil : eventsOf hooksKey (zeros n) = [] := by
    rw [eventsOf, hnone]
  have hlists : Lists (claude.events.map EventSpec.event) (eventsOf hooksKey (zeros n)) := by
    rw [hnil]
    exact fun event _ => eventList_eq_ok.mpr ⟨rfl, .inl rfl⟩
  have hmerge : merge claude (.obj (zeros n)) binary =
      .ok (.obj (mergeRoot claude hooksKey binary (some 5) (zeros n))) :=
    (merge_eq_ok claude_format (nodup_events claude_mem)).mpr
      ⟨_, rfl, .inl hnone, hlists, rfl⟩
  have hgain := byteLength_mergeRoot claude binary _ claude_mem claude_format (.inl hnone) hlists
  have hloss : installLoss claude hooksKey (zeros n) = 0 := by
    rw [installLoss, hnil]
    rfl
  have hsize := le_byteLength_pretty_zeros n
  refine ⟨hbytes, _, (install_eq_ok claude_format).mpr ⟨_, _, ?_, hmerge, .inr ⟨rfl, ?_⟩⟩, by omega⟩
  · simp [startingRoot, hparse]
  · intro text htext hmerged
    cases htext
    rw [hparse] at hmerged
    have hget := get_mergeRoot claude hooksKey binary (some 5) (zeros n)
    rw [← Except.ok.inj hmerged, hnone] at hget
    cases hget

/-- A list of 300000 zeros is short enough to be read, but not once it is indented. -/
theorem zeros_too_long : byteLength (compact (.obj (zeros 300000))) ≤ maxBytes ∧
    ∃ text, install claude (some (compact (.obj (zeros 300000)))) "/bin/cyd-host".toList =
      .ok (.write text) ∧ maxBytes < byteLength text :=
  install_zeros (by decide) (by decide) _

end CydMonitor.Hooks
