import CydMonitor.Daemon.Supervisor
import Mathlib.Data.UInt

/-!
# What a status request can see

Between two locked sections the shared state stands still. Each one that stands shows a pairing
code only while a port waits for it, and metric groups only while a display is connected.
-/

namespace CydMonitor.Daemon

structure Shared.Honest (v : Shared) : Prop where
  code : v.link.pairingCode.isSome → v.link.state = .pairingRequired ∧ v.link.port.isSome
  groups : v.groups ≠ [] → v.link.state = .pairedConnected
  connected : v.link.state = .pairedConnected → v.link.port.isSome ∧ v.link.detail = none

/-- The shared state is honest, and so is each that was seen. -/
structure Shows (s : Supervisor) : Prop where
  shared : s.shared.Honest
  views : ∀ v ∈ s.views, v.Honest

variable {s s' : Supervisor}

theorem Shows.same (h : Shows s) (hshared : s'.shared = s.shared) (hviews : s'.views = s.views) :
    Shows s' := by
  refine ⟨?_, ?_⟩
  · rw [hshared]
    exact h.shared
  · rw [hviews]
    exact h.views

theorem Shows.publish (h : Shows s) {shared : Shared} (hshared : shared.Honest) :
    Shows (s.publish shared) := by
  refine ⟨hshared, fun v hv => ?_⟩
  rcases List.mem_append.mp hv with hold | hnew
  · exact h.views v hold
  · rw [List.mem_singleton.mp hnew]
    exact hshared

/-- What a change of the link publishes. -/
def linked (state : LinkState) (detail : Option (List Char)) (port : Option Port)
    (code : Option UInt32) (shared : Shared) : Shared :=
  { shared with
    link := { shared.link with state, detail, port, pairingCode := code },
    groups := if state ≠ .pairedConnected then [] else shared.groups }

/-- The line of the log aside, a change of the link is one publication. -/
theorem setLink_shows (state : LinkState) (detail : Option (List Char)) (port : Option Port)
    (code : Option UInt32) (s : Supervisor) :
    (s.setLink state detail port code).shared = linked state detail port code s.shared ∧
      (s.setLink state detail port code).views =
        s.views ++ [linked state detail port code s.shared] := by
  rw [Supervisor.setLink]
  dsimp only
  by_cases hchanged : s.shared.link.state ≠ state ∨ s.shared.link.detail ≠ detail ∨
      s.shared.link.port ≠ port
  · rw [if_pos hchanged]
    exact ⟨rfl, rfl⟩
  · rw [if_neg hchanged]
    exact ⟨rfl, rfl⟩

/-- A change of the link is honest when its code and its port go with its state. -/
theorem Shows.link (h : Shows s) {state : LinkState} {detail : Option (List Char)}
    {port : Option Port} {code : Option UInt32}
    (hcode : code.isSome → state = .pairingRequired ∧ port.isSome)
    (hconnected : state = .pairedConnected → port.isSome ∧ detail = none) :
    Shows (s.setLink state detail port code) := by
  have hlinked : (linked state detail port code s.shared).Honest := by
    refine ⟨hcode, fun hgroups => ?_, hconnected⟩
    by_contra hstate
    exact hgroups (if_pos hstate)
  obtain ⟨hshared, hviews⟩ := setLink_shows state detail port code s
  exact (h.publish hlinked).same hshared hviews

/-- A state that is neither connected nor waiting for a code. -/
theorem Shows.plain (h : Shows s) {state : LinkState} (detail : Option (List Char))
    (port : Option Port) (hstate : state ≠ .pairedConnected) :
    Shows (s.setLink state detail port none) :=
  h.link (fun hcode => by cases hcode) fun hconnected => absurd hconnected hstate

theorem Shows.setIdentity (h : Shows s) (device : Option Rust.Identity) :
    Shows (s.setIdentity device) :=
  h.publish ⟨h.shared.code, h.shared.groups, h.shared.connected⟩

theorem Shows.saveIn (h : Shows s) (save : Save) (id : Identity) :
    Shows (s.saveIn save id).2 := by
  cases save with
  | done => exact h.same rfl rfl
  | failed e cut =>
    cases cut with
    | none => exact h
    | some n => exact h.same rfl rfl

theorem Shows.loadOrCreate (h : Shows s) (disk : Disk) : Shows (s.loadOrCreate disk).2 := by
  rw [Supervisor.loadOrCreate]
  cases if disk.reads then s.file else none with
  | some id => exact h
  | none =>
    rcases disk.create with e | ⟨host, save⟩
    · exact h
    · have hsave := h.saveIn save { host, device := none }
      dsimp only
      rcases hsaved : s.saveIn save { host, device := none } with ⟨_ | _, s₁⟩
      · rw [hsaved] at hsave
        exact hsave
      · rw [hsaved] at hsave
        exact hsave

theorem Shows.forget (h : Shows s) (disk : Disk) : Shows (s.forget disk).2 := by
  rw [Supervisor.forget]
  have hload := h.loadOrCreate disk
  rcases hloaded : s.loadOrCreate disk with ⟨_ | id, s₁⟩
  · rw [hloaded] at hload
    exact hload
  · rw [hloaded] at hload
    dsimp only
    have hsave := hload.saveIn disk.save { id with device := none }
    rcases hsaved : s₁.saveIn disk.save { id with device := none } with ⟨_ | u, s₂⟩
    · rw [hsaved] at hsave
      exact hsave
    · rw [hsaved] at hsave
      exact (hsave.setIdentity none).same rfl rfl

theorem Shows.handleIdle (h : Shows s) (command : ControlIpc.Request) (disk : Disk) :
    Shows (s.handleIdle command disk) := by
  cases command with
  | pairStart port =>
    rw [Supervisor.handleIdle]
    have hload := h.loadOrCreate disk
    rcases hloaded : s.loadOrCreate disk with ⟨_ | id, s₁⟩
    · rw [hloaded] at hload
      exact hload.same rfl rfl
    · rw [hloaded] at hload
      dsimp only
      split_ifs <;> exact hload.same rfl rfl
  | forget =>
    rw [Supervisor.handleIdle]
    have hforget := h.forget disk
    rcases hforgot : s.forget disk with ⟨_ | u, s₁⟩
    · rw [hforgot] at hforget
      exact hforget.same rfl rfl
    · rw [hforgot] at hforget
      exact hforget.same rfl rfl
  | _ => exact h.same rfl rfl

theorem Shows.idleWait (h : Shows s) (arrives : Option (ControlIpc.Request × Disk)) :
    Shows (s.idleWait arrives) := by
  cases arrives with
  | none => exact h
  | some a => exact h.handleIdle a.1 a.2

theorem Shows.cancels (h : Shows s) (commands : List ControlIpc.Request) :
    Shows (s.cancels commands).2 := by
  induction commands generalizing s with
  | nil => exact h
  | cons command commands ih =>
    cases command with
    | pairCancel => exact h.same rfl rfl
    | _ => exact ih (h.same rfl rfl)

theorem Shows.report (h : Shows s) (port : Port) (p : Progress) : Shows (s.report port p) := by
  cases p with
  | paired => exact h
  | awaitingConfirmation code =>
    exact h.link (fun _ => ⟨rfl, rfl⟩) fun hconnected => by cases hconnected
  | _ => exact h.plain _ _ (by decide)

theorem Shows.attempt (h : Shows s) (port : Port) (happenings : List Happening) :
    Shows (Supervisor.attempt port happenings s).2 := by
  induction happenings generalizing s with
  | nil => exact h
  | cons happening rest ih =>
    cases happening with
    | progress p => exact ih (h.report port p)
    | poll stopped commands =>
      rw [Supervisor.attempt]
      split_ifs
      · exact h
      · have hpolled := h.cancels commands
        rcases hcancels : s.cancels commands with ⟨_ | _, s₁⟩
        · rw [hcancels] at hpolled
          exact ih hpolled
        · rw [hcancels] at hpolled
          exact hpolled

theorem Shows.connect (h : Shows s) (port : Port) (id : Identity) (w : Turn) :
    Shows (s.connect port id w).2 := by
  rw [Supervisor.connect]
  have hattempt := h.attempt port w.attempt
  rcases hreported : Supervisor.attempt port w.attempt s with ⟨_ | _, s₁⟩
  · rw [hreported] at hattempt
    dsimp only
    cases w.handshake with
    | error e => exact hattempt
    | ok device =>
      dsimp only
      have hmeets : Shows (s₁.act (.met device)) := hattempt.same rfl rfl
      split_ifs
      · have hsave := hmeets.saveIn w.save { id with device := some device }
        rcases hsaved : (s₁.act (.met device)).saveIn w.save { id with device := some device } with
          ⟨_ | u, s₂⟩
        · rw [hsaved] at hsave
          exact hsave
        · rw [hsaved] at hsave
          exact hsave.same rfl rfl
      · exact hmeets.same rfl rfl
  · rw [hreported] at hattempt
    exact hattempt

theorem Shows.afterFailedConnect (h : Shows s) (error : LinkError) (port : Port)
    (idle : Option (ControlIpc.Request × Disk)) : Shows (s.afterFailedConnect error port idle) := by
  have hfailed : Shows (s.act (.failed port error)) := h.same rfl rfl
  cases error with
  | cancelled => exact hfailed
  | io e =>
    have hset := hfailed.plain (some ("serial error: ".toList ++ e)) (some port)
      (show LinkState.stale ≠ .pairedConnected by decide)
    exact hset.idleWait idle
  | timeout what =>
    refine (hfailed.plain (some (LinkError.timeout what).display) (some port) ?_).same rfl rfl
    split_ifs <;> decide
  | refused refusal =>
    cases refusal with
    | incompatible => exact (hfailed.plain _ (some port) (by decide)).same rfl rfl
    | _ =>
      refine (hfailed.plain (some (LinkError.refused _).display) (some port) ?_).same rfl rfl
      split_ifs <;> decide

/-- Only a display that is connected shows its groups, so the link's state matters. -/
theorem Shows.serve (h : Shows s) (hconnected : s.shared.link.state = .pairedConnected)
    (broken : Except LinkError Unit) (service : List Service) :
    Shows (Supervisor.serve broken service s).2 := by
  induction service generalizing s with
  | nil => exact h
  | cons happening rest ih =>
    cases happening with
    | snapshot nowMs utcMs groups =>
      exact ih (h.publish ⟨h.shared.code, fun _ => hconnected, h.shared.connected⟩) hconnected
    | poll stopped command result =>
      cases stopped with
      | true => exact h
      | false =>
        cases command with
        | none => exact ih h hconnected
        | some command =>
          cases command with
          | unpair =>
            have hreplied : Shows (s.onCommand .unpair "unpair".toList result) :=
              h.same rfl rfl
            rcases result with e | answer
            · exact ih hreplied hconnected
            · cases answer with
              | rejected => exact ih hreplied hconnected
              | _ => exact hreplied
          | _ => exact ih (h.same rfl rfl) hconnected

theorem Shows.finish (h : Shows s) : Shows s.finish :=
  (h.plain _ none (by decide)).same rfl rfl

theorem Shows.afterServe (h : Shows s) (outcome : Except LinkError ServeEnd) (port : Port)
    (w : Turn) : Shows (s.afterServe outcome port w) := by
  rcases outcome with error | ending
  · have hbroke : Shows (s.act (.broke port error)) := h.same rfl rfl
    have hset := hbroke.plain (some error.display) (some port)
      (show LinkState.stale ≠ .pairedConnected by decide)
    cases error with
    | refused refusal => exact hset.same rfl rfl
    | _ => exact hset.idleWait w.idle
  · cases ending with
    | stopped => exact h.finish
    | resync => exact h.plain _ (some port) (by decide)
    | unpaired =>
      rw [Supervisor.afterServe]
      have hforget := h.forget w.forgetting
      rcases hforgot : s.forget w.forgetting with ⟨e | u, s₁⟩
      · rw [hforgot] at hforget
        have hline : Shows (s₁.line (Text.utf8 ("cannot forget the display: ".toList ++ e))) :=
          hforget.same rfl rfl
        exact (hline.plain _ (some port) (by decide)).same rfl rfl
      · rw [hforgot] at hforget
        exact (hforget.plain _ (some port) (by decide)).same rfl rfl

theorem setLink_state (state : LinkState) (detail : Option (List Char)) (port : Option Port)
    (code : Option UInt32) (s : Supervisor) :
    (s.setLink state detail port code).shared.link.state = state := by
  rw [(setLink_shows state detail port code s).1]
  rfl

theorem Shows.useChannel (h : Shows s) (port : Port) (id : Identity) (w : Turn) :
    Shows (s.useChannel port id w) := by
  rw [Supervisor.useChannel]
  dsimp only
  have hpublished : Shows (s.publish { s.shared with
      link := { s.shared.link with sessions := s.shared.link.sessions + 1 } }) :=
    h.publish ⟨h.shared.code, h.shared.groups, h.shared.connected⟩
  generalize s.publish _ = s₀ at hpublished
  have hconnect := hpublished.connect port id w
  rcases hconnected : s₀.connect port id w with ⟨e | id', s₁⟩
  · rw [hconnected] at hconnect
    exact hconnect.afterFailedConnect e port w.idle
  · rw [hconnected] at hconnect
    have hidentity : Shows
        (({ s₁ with pair := { s₁.pair with requested := false, port := none } }).setIdentity
          id'.device) := (hconnect.setIdentity id'.device).same rfl rfl
    have hset : Shows (Supervisor.setLink .pairedConnected none (some port) none _) :=
      hidentity.link (fun hcode => by cases hcode) fun _ => ⟨rfl, rfl⟩
    exact (hset.serve (setLink_state _ _ _ _ _) w.broken w.service).afterServe _ port w

theorem Shows.usePort (h : Shows s) (port : Port) (id : Identity) (w : Turn) :
    Shows (s.usePort port id w) := by
  rw [Supervisor.usePort]
  dsimp only
  have hset := h.setIdentity id.device
  split_ifs
  · exact hset.idleWait w.idle
  · exact (hset.plain _ (some port) (by decide)).idleWait w.idle
  · have hopened : Shows (((s.setIdentity id.device).setLink .deviceFound
        (some "connecting".toList) (some port) none).act (.opened port id.device)) :=
      (hset.plain _ (some port) (by decide)).same rfl rfl
    cases w.opening with
    | error e => exact (hopened.plain _ (some port) (by decide)).idleWait w.idle
    | ok u => exact hopened.useChannel port id w

theorem Shows.turn (h : Shows s) (w : Turn) : Shows (s.turn w) := by
  rw [Supervisor.turn]
  split_ifs
  · exact h
  · exact h.finish
  · cases s.pickPort w with
    | none =>
      have hfreed : Shows (({ s with pair := { s.pair with parked := none } }).act .sawNone) :=
        h.same rfl rfl
      exact (hfreed.plain none none (by decide)).idleWait w.idle
    | ambiguous n => exact (h.plain _ none (by decide)).idleWait w.idle
    | one port =>
      dsimp only
      have hload := h.loadOrCreate w.load
      rcases hloaded : s.loadOrCreate w.load with ⟨e | id, s₁⟩
      · rw [hloaded] at hload
        exact (hload.plain _ (some port) (by decide)).idleWait w.idle
      · rw [hloaded] at hload
        exact hload.usePort port id w

theorem shows_boot (port : Option Port) (file : Option Identity) :
    Shows (.boot port file) := by
  have hfirst : Shared.Honest {} := by
    refine ⟨fun hcode => ?_, fun hgroups => absurd rfl hgroups, fun hstate => ?_⟩
    · cases hcode
    · cases hstate
  refine ⟨hfirst, fun v hv => ?_⟩
  rw [List.mem_singleton.mp hv]
  exact hfirst

/-- Every state of a run that a status request can see is honest. -/
theorem views_honest (port : Option Port) (file : Option Identity) (turns : List Turn) :
    ∀ v ∈ ((Supervisor.boot port file).run turns).views, v.Honest :=
  (List.foldlRecOn turns Supervisor.turn (shows_boot port file) fun _ h w _ => h.turn w).views

/-- A `pair_start`, and an attempt that waits for the code to be confirmed. -/
def confirming : List Turn :=
  let disk : Disk := { reads := true, create := .ok (Octets.zero 16, .done), save := .done }
  let look : Turn :=
    { candidates := [[47, 100]], present := fun _ => true, load := disk
      idle := some (.pairStart none, disk), opening := .ok ()
      attempt := [.progress .opened, .progress (.negotiated 1 0),
        .progress (.awaitingConfirmation 123456)]
      handshake := .error .cancelled, save := .done, service := [], broken := .ok ()
      forgetting := disk }
  [look, look]

theorem views_honest_confirming :
    Shared.Honest
      { link :=
          { state := .pairingRequired
            detail := some "confirm the matching code on the display".toList
            port := some [47, 100]
            pairingCode := some 123456
            sessions := 1 } } :=
  views_honest none none confirming _ (by decide +kernel)

end CydMonitor.Daemon
