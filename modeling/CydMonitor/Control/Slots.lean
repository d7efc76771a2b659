import CydMonitor.Lib.GuardedRun

/-!
# Connection slots of the control socket (`accept_loop` in `host/hostcore/src/control.rs`)

The accept loop takes a slot before it spawns a connection's worker; the worker gives it back when
it ends. A connection is named by the number of those accepted before it.
-/

namespace CydMonitor.Control

open GuardedRun

def maxConnections : ℕ := 8

structure Server where
  active : ℕ
  /-- The connection whose worker is being spawned. -/
  spawning : Option ℕ
  /-- The connections whose workers run. -/
  workers : List ℕ
  accepted : ℕ
  wrongUid : ℕ
  busy : ℕ
  deriving DecidableEq

inductive Action where
  | accept (sameUid : Bool)
  | spawned
  | spawnFailed
  | ended (connection : ℕ)
  /-- The worker's handler panics. -/
  | unwound (connection : ℕ)
  deriving DecidableEq

namespace Server

def init : Server :=
  { active := 0, spawning := none, workers := [], accepted := 0, wrongUid := 0, busy := 0 }

/-- The check of a peer, its slot and the start of its worker. -/
def accept (s : Server) (sameUid : Bool) : Server :=
  if !sameUid then { s with wrongUid := s.wrongUid + 1 }
  else if maxConnections ≤ s.active then { s with busy := s.busy + 1 }
  else
    { s with accepted := s.accepted + 1, active := s.active + 1, spawning := some s.accepted }

/-- `none`: the action is not possible. -/
def step (s : Server) : Action → Option Server
  | .accept sameUid => if s.spawning.isSome then none else some (s.accept sameUid)
  | .spawned =>
    s.spawning.map fun c => { s with spawning := none, workers := c :: s.workers }
  | .spawnFailed => s.spawning.map fun _ => { s with spawning := none }
  | .ended c =>
    if c ∈ s.workers then some { s with active := s.active - 1, workers := s.workers.erase c }
    else none
  | .unwound c => if c ∈ s.workers then some { s with workers := s.workers.erase c } else none

/-- How many connections are being served. -/
def served (s : Server) : ℕ := s.workers.length + if s.spawning.isSome then 1 else 0

def Exact (s : Server) : Prop := s.active = s.served

instance (s : Server) : Decidable s.Exact := inferInstanceAs (Decidable (_ = _))

end Server

/-- The connection is refused as busy. -/
def Refuses (s : Server) (a : Action) : Prop :=
  a = .accept true ∧ s.spawning = none ∧ maxConnections ≤ s.active

/-- The slot is not given back. -/
def Action.leaks : Action → Bool
  | .spawnFailed | .unwound _ => true
  | .accept _ | .spawned | .ended _ => false

open Server

theorem step_accept {s w : Server} {sameUid : Bool} :
    step s (.accept sameUid) = some w ↔ s.spawning = none ∧ s.accept sameUid = w := by
  cases h : s.spawning <;> simp [step, h]

theorem step_spawned {s w : Server} :
    step s .spawned = some w ↔
      ∃ c, s.spawning = some c ∧ { s with spawning := none, workers := c :: s.workers } = w :=
  Option.map_eq_some_iff

theorem step_spawnFailed {s w : Server} :
    step s .spawnFailed = some w ↔ ∃ c, s.spawning = some c ∧ { s with spawning := none } = w :=
  Option.map_eq_some_iff

theorem step_ended {s w : Server} {c : ℕ} :
    step s (.ended c) = some w ↔ c ∈ s.workers ∧
      { s with active := s.active - 1, workers := s.workers.erase c } = w := by
  by_cases h : c ∈ s.workers <;> simp [step, h]

theorem step_unwound {s w : Server} {c : ℕ} :
    step s (.unwound c) = some w ↔ c ∈ s.workers ∧ { s with workers := s.workers.erase c } = w := by
  by_cases h : c ∈ s.workers <;> simp [step, h]

/-- The slots that a step leaks are the ones that no connection has after it. -/
theorem step_served {s w : Server} {a : Action} (h : step s a = some w)
    (hs : s.served ≤ s.active) :
    w.active + s.served = s.active + w.served + if a.leaks then 1 else 0 := by
  cases a with
  | accept sameUid =>
    obtain ⟨hnone, rfl⟩ := step_accept.mp h
    cases sameUid with
    | false => rfl
    | true =>
      by_cases hbusy : maxConnections ≤ s.active
      · simp [accept, hbusy, served, Action.leaks]
      · simp [accept, hbusy, served, hnone, Action.leaks]
        omega
  | spawned =>
    obtain ⟨c, hc, rfl⟩ := step_spawned.mp h
    simp [served, hc, Action.leaks]
  | spawnFailed =>
    obtain ⟨c, hc, rfl⟩ := step_spawnFailed.mp h
    simp [served, hc, Action.leaks]
    omega
  | ended c =>
    obtain ⟨hc, rfl⟩ := step_ended.mp h
    have hlength := List.length_erase_of_mem hc
    have hpos := List.length_pos_of_mem hc
    simp only [served, Action.leaks] at hs ⊢
    simp only [hlength, Bool.false_eq_true, if_false]
    omega
  | unwound c =>
    obtain ⟨hc, rfl⟩ := step_unwound.mp h
    have hlength := List.length_erase_of_mem hc
    have hpos := List.length_pos_of_mem hc
    simp only [served, Action.leaks, hlength, if_true]
    omega

theorem step_active {s w : Server} {a : Action} (h : step s a = some w)
    (hs : s.active ≤ maxConnections) : w.active ≤ maxConnections := by
  cases a with
  | accept sameUid =>
    obtain ⟨-, rfl⟩ := step_accept.mp h
    rw [accept]
    split_ifs with hsame hbusy
    · exact hs
    · exact hs
    · exact Nat.lt_of_not_le hbusy
  | spawned =>
    obtain ⟨_, -, rfl⟩ := step_spawned.mp h
    exact hs
  | spawnFailed =>
    obtain ⟨_, -, rfl⟩ := step_spawnFailed.mp h
    exact hs
  | ended c =>
    obtain ⟨-, rfl⟩ := step_ended.mp h
    exact Nat.le_trans (Nat.sub_le ..) hs
  | unwound c =>
    obtain ⟨-, rfl⟩ := step_unwound.mp h
    exact hs

/-- The counter is what is served and what was leaked. -/
theorem run_served {as : List Action} {w : Server} (h : run step init as = some w) :
    w.active = w.served + as.countP Action.leaks := by
  induction as using List.reverseRecOn generalizing w with
  | nil =>
    obtain rfl := Option.some.inj h
    rfl
  | append_singleton as a ih =>
    obtain ⟨v, hv, ha⟩ := run_concat_eq_some h
    have hbefore := ih hv
    have hstep := step_served ha (by omega)
    rw [List.countP_append, List.countP_singleton]
    omega

theorem run_active {as : List Action} {w : Server} (h : run step init as = some w) :
    w.active ≤ maxConnections := by
  induction as using List.reverseRecOn generalizing w with
  | nil =>
    obtain rfl := Option.some.inj h
    exact Nat.zero_le _
  | append_singleton as a ih =>
    obtain ⟨v, hv, ha⟩ := run_concat_eq_some h
    exact step_active ha (ih hv)

/-- The counter is right in every state, and only a full server refuses a connection. -/
def SlotsKept (as : List Action) : Prop :=
  Throughout step Exact init as ∧
    Always step (fun v a => Refuses v a → v.served = maxConnections) init as

/-- The slots are kept exactly in the runs without a leak. -/
theorem slotsKept_iff {as : List Action} {w : Server} (h : run step init as = some w) :
    SlotsKept as ↔ ∀ a ∈ as, a.leaks = false := by
  constructor
  · rintro ⟨hexact, -⟩ a ha
    have hw := run_served h
    have hlast : w.active = w.served := hexact.last h
    have hzero : as.countP Action.leaks = 0 := by omega
    simpa using List.countP_eq_zero.mp hzero a ha
  · intro hnone
    have hprefix {before rest : List Action} {v : Server} (has : as = before ++ rest)
        (hv : run step init before = some v) : v.active = v.served := by
      have hcount : before.countP Action.leaks = 0 :=
        List.countP_eq_zero.mpr fun a ha => by simp [hnone a (by simp [has, ha])]
      have hserved := run_served hv
      omega
    refine ⟨fun before rest v has hv => hprefix has hv, fun before a rest v has hv hrefused => ?_⟩
    have hactive := run_active hv
    have hfull := hrefused.2.2
    have hv' := hprefix has hv
    omega

/-- A connection served to its end. -/
theorem slotsKept_served : SlotsKept [.accept true, .spawned, .accept false, .ended 0] :=
  have h : run step init [.accept true, .spawned, .accept false, .ended 0] = some
      { active := 0, spawning := none, workers := [], accepted := 1, wrongUid := 1,
        busy := 0 } := by
    decide
  (slotsKept_iff h).mpr (by decide)

/-- Eight workers that were never spawned leave no slot, with nobody served. -/
theorem slots_leaked :
    (¬ ∀ as w, run step init as = some w → SlotsKept as) ∧
      ∃ w, run step init (List.replicate 8 [.accept true, .spawnFailed]).flatten = some w ∧
        w.served = 0 ∧ Refuses w (.accept true) := by
  constructor
  · intro h
    have hrun : run step init [.accept true, .spawnFailed] = some
        { active := 1, spawning := none, workers := [], accepted := 1, wrongUid := 0,
          busy := 0 } := by
      decide
    exact absurd ((h _ _ hrun).1.last hrun) (by decide)
  · exact ⟨{ active := 8, spawning := none, workers := [], accepted := 8, wrongUid := 0,
             busy := 0 },
      by decide, rfl, rfl, rfl, by decide⟩

end CydMonitor.Control
