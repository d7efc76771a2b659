import CydMonitor.Observation.Picture
import CydMonitor.Observation.Sink
import Mathlib.Algebra.Group.Int.Defs
import Mathlib.Algebra.Ring.Int.Defs

/-!
# What the app loop is told

No window message is lost without a count, and what is told late is the newest state: unless a
message overtakes an older one of its kind that still waits, an app loop that has read everything
knows the configuration in force and each radio's fault.
-/

namespace CydMonitor.Observation

open QueueRadioSink

namespace QueueRadioSink

def sent (s : QueueRadioSink) : List RadioMessage := s.messages.sent

/-- A send appends its message or changes nothing that was sent. -/
theorem send_cases {message : RadioMessage} {s s' : QueueRadioSink} {went : Bool}
    (h : s.send message = (went, s')) :
    ∃ b, s' = { s with messages := b } ∧
      (went = true ∧ b.sent = s.sent ++ [message] ∨ went = false ∧ b.sent = s.sent) := by
  obtain ⟨rfl, rfl⟩ := Prod.mk.inj h
  exact ⟨_, rfl, Mailbox.send_cases rfl⟩

theorem through_keeps {P : QueueRadioSink → Prop} {stages : List Stage}
    (h : ∀ stage ∈ stages, ∀ s, P s → P (stage s).2) {s : QueueRadioSink} (hs : P s) :
    P (through stages s) := by
  induction stages generalizing s with
  | nil => exact hs
  | cons stage rest ih =>
    have hstage := h stage List.mem_cons_self s hs
    rw [through]
    rcases hrun : stage s with ⟨_ | _, s'⟩
    · rw [hrun] at hstage
      exact hstage
    · rw [hrun] at hstage
      exact ih (fun stage hmem => h stage (List.mem_cons_of_mem _ hmem)) hstage

/-- What every part of `Flush` keeps, `Flush` keeps. -/
theorem flush_keeps {P : QueueRadioSink → Prop} (hconfig : ∀ s, P s → P (flushConfig s).2)
    (hfault : ∀ radio s, P s → P (flushFault radio s).2)
    (hlost : ∀ radio s, P s → P (flushLost radio s).2)
    (hwithdraw : ∀ radio s, P s → P (withdraw radio s).2) {s : QueueRadioSink} (hs : P s) :
    P s.flush := by
  refine through_keeps (fun stage hmem => ?_) hs
  simp only [List.mem_cons, List.not_mem_nil, or_false] at hmem
  rcases hmem with rfl | rfl | rfl | rfl | rfl | rfl | rfl
  · exact hconfig
  · exact hfault .kWifi
  · exact hfault .kBle
  · exact hlost .kWifi
  · exact hlost .kBle
  · exact hwithdraw .kWifi
  · exact hwithdraw .kBle

end QueueRadioSink

/-- The radio of a window message. -/
def RadioMessage.window : RadioMessage → Option Radio
  | .windowStarted started => some started.radio
  | .windowReport report => some report.window.radio
  | _ => none

def windows (messages : List RadioMessage) : List RadioMessage :=
  messages.filter fun message => message.window.isSome

def countOf (radio : Radio) (messages : List RadioMessage) : ℕ :=
  messages.countP fun message => message.window = some radio

/-- The messages that a report-overflow fault counts. -/
def RadioMessage.overflowCode (radio : Radio) : RadioMessage → ℤ
  | .fault f => if f.radio = radio ∧ f.op = .kReportQueueOverflow then f.code.toInt else 0
  | _ => 0

def overflowed (radio : Radio) (messages : List RadioMessage) : ℤ :=
  (messages.map (RadioMessage.overflowCode radio)).sum

/-- A message the runner can send: report overflow is the sink's own fault. -/
def RadioMessage.FromRunner : RadioMessage → Prop
  | .fault f => f.op ≠ .kReportQueueOverflow
  | _ => True

theorem overflowCode_eq_zero {message : RadioMessage} (h : message.FromRunner) (radio : Radio) :
    message.overflowCode radio = 0 := by
  cases message with
  | fault fault => exact if_neg fun hcode => h hcode.2
  | _ => rfl

@[simp] theorem windows_append (l l' : List RadioMessage) :
    windows (l ++ l') = windows l ++ windows l' :=
  List.filter_append ..

@[simp] theorem countOf_append (radio : Radio) (l l' : List RadioMessage) :
    countOf radio (l ++ l') = countOf radio l + countOf radio l' :=
  List.countP_append

@[simp] theorem overflowed_append (radio : Radio) (l l' : List RadioMessage) :
    overflowed radio (l ++ l') = overflowed radio l + overflowed radio l' := by
  simp [overflowed]

theorem windows_singleton (message : RadioMessage) :
    windows [message] = if message.window.isSome then [message] else [] := by
  cases hwindow : message.window <;> simp [windows, hwindow]

theorem countOf_singleton (radio : Radio) (message : RadioMessage) :
    countOf radio [message] = if message.window = some radio then 1 else 0 := by
  by_cases hwindow : message.window = some radio <;> simp [countOf, hwindow]

@[simp] theorem overflowed_singleton (radio : Radio) (message : RadioMessage) :
    overflowed radio [message] = message.overflowCode radio := by
  simp [overflowed]

theorem overflowCode_overflow (radio r : Radio) {lost : UInt32} (h : lost.toNat < 2 ^ 31) :
    (overflow radio lost).overflowCode r = if radio = r then (lost.toNat : ℤ) else 0 := by
  have hmin : min lost kInt32Max = lost := by
    refine if_pos ?_
    rw [UInt32.le_iff_toNat_le]
    change lost.toNat ≤ 2147483647
    omega
  have hcode : lost.toInt32.toInt = (lost.toNat : ℤ) := by
    change lost.toBitVec.toInt = _
    rw [BitVec.toInt_eq_toNat_of_lt]
    · rfl
    · change 2 * lost.toNat < 2 ^ 32
      omega
  by_cases hr : radio = r
  · simp [overflow, RadioMessage.overflowCode, hr, hmin, hcode]
  · simp [overflow, RadioMessage.overflowCode, hr]

/-- What the sink knows of the window messages of a radio: sent, counted in a fault, or to be
counted. -/
def QueueRadioSink.held (radio : Radio) (s : QueueRadioSink) : ℤ :=
  countOf radio s.sent + overflowed radio s.sent + (s.lost radio).toNat

/-- The sink after the runner said so much. -/
structure SinkBooks (said : List RadioMessage) (s : QueueRadioSink) : Prop where
  order : (windows s.sent).Sublist (windows said)
  held : ∀ radio, s.held radio = countOf radio said
  lost : ∀ radio, (s.lost radio).toNat ≤ countOf radio said
  runner : ∀ radio fault, s.runnerFault radio = some fault → fault.op ≠ .kReportQueueOverflow
  pending : ∀ radio message, s.fault radio = some message →
    message.FromRunner ∧ message.window = none

section Counting

variable {said : List RadioMessage} {s : QueueRadioSink}

/-- A message of the runner that is no window message goes through. -/
theorem SinkBooks.replay (h : SinkBooks said s) {message : RadioMessage}
    (hrunner : message.FromRunner)
    (hwindow : message.window = none) {s' : QueueRadioSink}
    (hsent : s'.sent = s.sent ++ [message]) (hlost : s'.lost = s.lost)
    (hfaults : s'.runnerFault = s.runnerFault)
    (hpending : ∀ radio m, s'.fault radio = some m → s.fault radio = some m) :
    SinkBooks said s' := by
  refine ⟨?_, fun radio => ?_, fun radio => ?_, ?_, fun radio m hm => ?_⟩
  · rw [hsent, windows_append, windows_singleton, hwindow]
    simpa using h.order
  · rw [← h.held radio, QueueRadioSink.held, QueueRadioSink.held, hsent, hlost]
    simp [countOf_singleton, hwindow, overflowCode_eq_zero hrunner]
  · rw [hlost]
    exact h.lost radio
  · rw [hfaults]
    exact h.runner
  · exact h.pending radio m (hpending radio m hm)

/-- A send that fails. -/
theorem SinkBooks.stays (h : SinkBooks said s) {b : Mailbox RadioMessage}
    (hsent : b.sent = s.sent) :
    SinkBooks said { s with messages := b } := by
  refine ⟨?_, fun radio => ?_, h.lost, h.runner, h.pending⟩
  · change (windows b.sent).Sublist _
    rw [hsent]
    exact h.order
  · rw [← h.held radio]
    change ((countOf radio b.sent : ℤ) + overflowed radio b.sent + _) = _
    rw [hsent]
    rfl

theorem SinkBooks.flushConfig (h : SinkBooks said s) : SinkBooks said (flushConfig s).2 := by
  rw [QueueRadioSink.flushConfig]
  cases s.config with
  | none => exact h
  | some config =>
    dsimp only
    have hrunner : (RadioMessage.configApplied config).FromRunner := trivial
    rcases hsend : s.send (.configApplied config) with ⟨went, s'⟩
    obtain ⟨b, rfl, ⟨rfl, hsent⟩ | ⟨rfl, hsent⟩⟩ := send_cases hsend
    · exact h.replay hrunner rfl hsent rfl rfl fun _ _ hm => hm
    · exact h.stays hsent

theorem SinkBooks.flushFault (h : SinkBooks said s) (radio : Radio) :
    SinkBooks said (flushFault radio s).2 := by
  rw [QueueRadioSink.flushFault]
  cases hfault : s.fault radio with
  | none => exact h
  | some message =>
    dsimp only
    obtain ⟨hrunner, hwindow⟩ := h.pending radio message hfault
    rcases hsend : s.send message with ⟨went, s'⟩
    obtain ⟨b, rfl, ⟨rfl, hsent⟩ | ⟨rfl, hsent⟩⟩ := send_cases hsend
    · refine h.replay hrunner hwindow hsent rfl rfl fun r m hm => ?_
      by_cases hr : r = radio
      · simp [hr] at hm
      · simpa [hr] using hm
    · exact h.stays hsent

theorem SinkBooks.flushLost (h : SinkBooks said s) (hfew : ∀ radio, countOf radio said < 2 ^ 31)
    (radio : Radio) : SinkBooks said (flushLost radio s).2 := by
  rw [QueueRadioSink.flushLost]
  split_ifs
  · exact h
  rcases hsend : s.send (overflow radio (s.lost radio)) with ⟨went, s'⟩
  obtain ⟨b, rfl, ⟨rfl, hsent⟩ | ⟨rfl, hsent⟩⟩ := send_cases hsend
  · have hcode (r : Radio) := overflowCode_overflow radio r
      (Nat.lt_of_le_of_lt (h.lost radio) (hfew radio))
    refine ⟨?_, fun r => ?_, fun r => ?_, h.runner, h.pending⟩
    · change (windows b.sent).Sublist _
      rw [hsent, windows_append]
      simpa [windows, overflow, RadioMessage.window] using h.order
    · have hheld := h.held r
      rw [QueueRadioSink.held] at hheld
      change ((countOf r b.sent : ℤ) + overflowed r b.sent +
        (Function.update s.lost radio 0 r).toNat) = _
      rw [hsent, overflowed_append, overflowed_singleton, hcode r, countOf_append,
        countOf_singleton]
      by_cases hr : radio = r
      · subst hr
        simp only [overflow, RadioMessage.window, reduceCtorEq, if_false, if_true,
          Function.update_self]
        simpa [Int.add_assoc] using hheld
      · simp only [overflow, RadioMessage.window, reduceCtorEq, if_false, if_neg hr,
          Function.update_of_ne (Ne.symm hr)]
        simpa using hheld
    · by_cases hr : r = radio
      · simp [hr]
      · simpa [Function.update_of_ne hr] using h.lost r
  · exact h.stays hsent

theorem SinkBooks.withdraw (h : SinkBooks said s) (radio : Radio) :
    SinkBooks said (withdraw radio s).2 := by
  rw [QueueRadioSink.withdraw]
  split_ifs
  · exact h
  have hrestored : (s.restored radio).FromRunner ∧ (s.restored radio).window = none := by
    rw [restored]
    cases hfault : s.runnerFault radio with
    | none => exact ⟨trivial, rfl⟩
    | some fault => exact ⟨h.runner radio fault hfault, rfl⟩
  rcases hsend : s.send (s.restored radio) with ⟨went, s'⟩
  obtain ⟨b, rfl, ⟨rfl, hsent⟩ | ⟨rfl, hsent⟩⟩ := send_cases hsend
  · exact h.replay hrestored.1 hrestored.2 hsent rfl rfl fun _ _ hm => hm
  · exact h.stays hsent

theorem SinkBooks.flush (h : SinkBooks said s) (hfew : ∀ radio, countOf radio said < 2 ^ 31) :
    SinkBooks said s.flush :=
  flush_keeps (fun _ hs => hs.flushConfig) (fun radio _ hs => hs.flushFault radio)
    (fun radio _ hs => hs.flushLost hfew radio) (fun radio _ hs => hs.withdraw radio) h

theorem SinkBooks.observe (h : SinkBooks said s) {message : RadioMessage}
    (hrunner : message.FromRunner) :
    SinkBooks said (s.observe message) := by
  cases message with
  | fault fault =>
    refine ⟨h.order, h.held, h.lost, fun radio fault' hfault => ?_, h.pending⟩
    by_cases hr : radio = fault.radio
    · simp only [QueueRadioSink.observe, hr, Function.update_self, Option.some.injEq] at hfault
      exact hfault ▸ hrunner
    · simp only [QueueRadioSink.observe, Function.update_of_ne hr] at hfault
      exact h.runner radio fault' hfault
  | faultCleared radio' =>
    refine ⟨h.order, h.held, h.lost, fun radio fault' hfault => ?_, h.pending⟩
    by_cases hr : radio = radio'
    · simp [QueueRadioSink.observe, hr] at hfault
    · simp only [QueueRadioSink.observe, Function.update_of_ne hr] at hfault
      exact h.runner radio fault' hfault
  | _ => exact h

private theorem countOf_le (radio : Radio) (message : RadioMessage) :
    countOf radio said ≤ countOf radio (said ++ [message]) := by
  rw [countOf_append]
  exact Nat.le_add_right ..

/-- The runner's message itself. -/
theorem SinkBooks.sends (h : SinkBooks said s) {message : RadioMessage}
    (hrunner : message.FromRunner)
    {s' : QueueRadioSink} (hsent : s'.sent = s.sent ++ [message]) (hlost : s'.lost = s.lost)
    (hfaults : s'.runnerFault = s.runnerFault) (hpending : s'.fault = s.fault) :
    SinkBooks (said ++ [message]) s' := by
  refine ⟨?_, fun radio => ?_, fun radio => ?_, ?_, ?_⟩
  · rw [hsent, windows_append, windows_append]
    exact h.order.append_right _
  · have hheld := h.held radio
    rw [QueueRadioSink.held] at hheld ⊢
    rw [hsent, hlost, countOf_append, countOf_append, overflowed_append, overflowed_singleton,
      overflowCode_eq_zero hrunner]
    push_cast
    omega
  · rw [hlost]
    exact Nat.le_trans (h.lost radio) (countOf_le radio message)
  · rw [hfaults]
    exact h.runner
  · rw [hpending]
    exact h.pending

/-- A window message that is counted as lost. -/
theorem SinkBooks.loses (h : SinkBooks said s) {message : RadioMessage} {radio : Radio}
    (hwindow : message.window = some radio) (hfew : countOf radio said < 2 ^ 31) :
    SinkBooks (said ++ [message]) (s.lose radio) := by
  have hlost : (s.lost radio + 1).toNat = (s.lost radio).toNat + 1 := by
    have := h.lost radio
    rw [UInt32.toNat_add, Nat.mod_eq_of_lt]
    · rfl
    · change (s.lost radio).toNat + 1 < 2 ^ 32
      omega
  have hcount (r : Radio) : countOf r (said ++ [message]) =
      countOf r said + if radio = r then 1 else 0 := by
    rw [countOf_append, countOf_singleton, hwindow]
    simp
  refine ⟨?_, fun r => ?_, fun r => ?_, h.runner, h.pending⟩
  · rw [windows_append]
    exact h.order.trans (List.sublist_append_left ..)
  · have hheld := h.held r
    rw [QueueRadioSink.held] at hheld
    change ((countOf r s.sent : ℤ) + overflowed r s.sent +
      (Function.update s.lost radio (s.lost radio + 1) r).toNat) = _
    rw [hcount]
    by_cases hr : radio = r
    · subst hr
      rw [Function.update_self, hlost, if_pos rfl]
      push_cast
      omega
    · rw [Function.update_of_ne (Ne.symm hr), if_neg hr]
      exact hheld
  · have hle := h.lost r
    change (Function.update s.lost radio (s.lost radio + 1) r).toNat ≤ _
    rw [hcount]
    by_cases hr : radio = r
    · subst hr
      rw [Function.update_self, hlost, if_pos rfl]
      omega
    · rw [Function.update_of_ne (Ne.symm hr), if_neg hr]
      exact hle

/-- A fault or a clear that is kept to be sent again. -/
theorem SinkBooks.keeps (h : SinkBooks said s) {message : RadioMessage}
    (hrunner : message.FromRunner)
    (hwindow : message.window = none) (radio : Radio) :
    SinkBooks (said ++ [message])
      { s with fault := Function.update s.fault radio (some message) } := by
  have hcount (r : Radio) : countOf r (said ++ [message]) = countOf r said := by
    rw [countOf_append, countOf_singleton, hwindow]
    simp
  refine ⟨?_, fun r => ?_, fun r => ?_, h.runner, fun r m hm => ?_⟩
  · rw [windows_append]
    exact h.order.trans (List.sublist_append_left ..)
  · rw [hcount]
    exact h.held r
  · rw [hcount]
    exact h.lost r
  · by_cases hr : r = radio
    · simp only [hr, Function.update_self, Option.some.injEq] at hm
      exact hm ▸ ⟨hrunner, hwindow⟩
    · simp only [Function.update_of_ne hr] at hm
      exact h.pending r m hm

theorem SinkBooks.drop (h : SinkBooks said s) {message : RadioMessage}
    (hrunner : message.FromRunner)
    (hfew : ∀ radio, countOf radio said < 2 ^ 31) :
    SinkBooks (said ++ [message]) (s.drop message) := by
  have hcounted : SinkBooks said { s with messageOverflows := s.messageOverflows + 1 } :=
    ⟨h.order, h.held, h.lost, h.runner, h.pending⟩
  cases message with
  | windowStarted started => exact hcounted.loses rfl (hfew _)
  | windowReport report => exact hcounted.loses rfl (hfew _)
  | fault f => exact hcounted.keeps hrunner rfl f.radio
  | faultCleared radio => exact hcounted.keeps hrunner rfl radio
  | configApplied config =>
    have hnone (r : Radio) : countOf r (said ++ [RadioMessage.configApplied config]) =
        countOf r said := by
      simp [countOf_singleton, RadioMessage.window]
    refine ⟨?_, fun r => ?_, fun r => ?_, h.runner, h.pending⟩
    · rw [windows_append]
      exact h.order.trans (List.sublist_append_left ..)
    · rw [hnone]
      exact h.held r
    · rw [hnone]
      exact h.lost r

theorem SinkBooks.emit (h : SinkBooks said s) {message : RadioMessage}
    (hrunner : message.FromRunner)
    (hfew : ∀ radio, countOf radio said < 2 ^ 31) :
    SinkBooks (said ++ [message]) (s.emit message) := by
  have hflush := (h.observe hrunner).flush hfew
  rw [QueueRadioSink.emit]
  rcases hsend : (QueueRadioSink.flush (s.observe message)).send message with ⟨went, s'⟩
  obtain ⟨b, rfl, ⟨rfl, hsent⟩ | ⟨rfl, hsent⟩⟩ := send_cases hsend
  · cases message with
    | windowReport report => exact hflush.sends hrunner hsent rfl rfl rfl
    | _ => exact hflush.sends hrunner hsent rfl rfl rfl
  · exact (hflush.stays hsent).drop hrunner hfew

end Counting

theorem said_concat (events : List SinkEvent) (e : SinkEvent) :
    said (events ++ [e]) = said events ++ said [e] :=
  List.filterMap_append

/-- The books of a run, while they can count. -/
theorem sinkBooks_run (takes : List ℕ) (events : List SinkEvent)
    (hrunner : ∀ message ∈ said events, message.FromRunner)
    (hfew : ∀ radio, countOf radio (said events) < 2 ^ 31) :
    SinkBooks (said events) (sinkRun takes events) := by
  induction events using List.reverseRecOn with
  | nil => exact ⟨List.Sublist.refl _, fun _ => rfl, fun _ => Nat.zero_le _, by simp [sinkRun],
      by simp [sinkRun]⟩
  | append_singleton events e ih =>
    rw [said_concat] at hrunner hfew ⊢
    have hbefore := ih (fun m hm => hrunner m (List.mem_append_left _ hm)) fun radio => by
      have := hfew radio
      rw [countOf_append] at this
      omega
    have hfew' (radio : Radio) : countOf radio (said events) < 2 ^ 31 := by
      have := hfew radio
      rw [countOf_append] at this
      omega
    rw [sinkRun, List.foldl_concat]
    cases e with
    | emit message =>
      exact hbefore.emit (hrunner message (by simp [said, SinkEvent.emitted])) hfew'
    | flush =>
      have hnone : said [SinkEvent.flush] = [] := rfl
      rw [hnone, List.append_nil]
      exact hbefore.flush hfew'
    | receive n =>
      have hnone : said [SinkEvent.receive n] = [] := rfl
      rw [hnone, List.append_nil]
      exact hbefore.stays (Mailbox.sent_receive n _)

/-- Every window message the runner emits is sent, in order and once, or counted: in a
report-overflow fault, or among those still to be reported. -/
theorem window_messages_accounted (takes : List ℕ) (events : List SinkEvent)
    (hrunner : ∀ message ∈ said events, message.FromRunner)
    (hfew : ∀ radio, countOf radio (said events) < 2 ^ 31) :
    (windows ((sinkRun takes events).messages.received ++
        (sinkRun takes events).messages.queue)).Sublist (windows (said events)) ∧
      ∀ radio, (countOf radio (said events) : ℤ) =
        countOf radio ((sinkRun takes events).messages.received ++
          (sinkRun takes events).messages.queue) +
        overflowed radio ((sinkRun takes events).messages.received ++
          (sinkRun takes events).messages.queue) +
        ((sinkRun takes events).lost radio).toNat := by
  have hbooks := sinkBooks_run takes events hrunner hfew
  exact ⟨hbooks.order, fun radio => (hbooks.held radio).symm⟩

/-- The app loop stalls while 34 windows start, and reads everything afterwards. -/
def stall : List SinkEvent :=
  List.replicate 34 (.emit (.windowStarted {})) ++ [.receive 40, .flush, .receive 40]

theorem window_messages_accounted_stall :
    (windows ((sinkRun [] stall).messages.received ++
        (sinkRun [] stall).messages.queue)).Sublist (windows (said stall)) ∧
      (countOf .kWifi (said stall) : ℤ) =
        countOf .kWifi ((sinkRun [] stall).messages.received ++
          (sinkRun [] stall).messages.queue) +
        overflowed .kWifi ((sinkRun [] stall).messages.received ++
          (sinkRun [] stall).messages.queue) +
        ((sinkRun [] stall).lost .kWifi).toNat := by
  have hsaid : said stall = List.replicate 34 (.windowStarted {}) := rfl
  have hrunner : ∀ message ∈ said stall, message.FromRunner := by
    intro message hmem
    rw [hsaid] at hmem
    rw [List.eq_of_mem_replicate hmem]
    trivial
  have hfew : ∀ radio, countOf radio (said stall) < 2 ^ 31 := by
    intro radio
    rw [hsaid]
    cases radio <;> decide
  have haccounted := window_messages_accounted [] stall hrunner hfew
  exact ⟨haccounted.1, haccounted.2 .kWifi⟩

/-- The radio whose fault a message is about. -/
def RadioMessage.about : RadioMessage → Option Radio
  | .fault f => some f.radio
  | .faultCleared radio => some radio
  | _ => none

theorem faultAfter_other {message : RadioMessage} {radio : Radio}
    (h : message.about ≠ some radio) (shown : Option (FaultOp × Int32)) :
    faultAfter radio shown message = shown := by
  cases message with
  | fault f => exact if_neg fun hradio => h (congrArg some hradio)
  | faultCleared radio' => exact if_neg fun hradio => h (congrArg some hradio)
  | _ => rfl

theorem config_of_about {message : RadioMessage} {radio : Radio}
    (h : message.about = some radio) : message.config = none := by
  cases message with
  | configApplied config => cases h
  | _ => rfl

/-- A fault message is told once more, or the app loop has been told. -/
def Told (radio : Radio) (target : Option (FaultOp × Int32)) (s : QueueRadioSink) : Prop :=
  (∃ message, s.fault radio = some message ∧ ∀ shown, faultAfter radio shown message = target) ∨
    s.fault radio = none ∧ (faultTold radio s.sent = target ∨
      s.overflowFault radio = true ∧
        ∃ code, faultTold radio s.sent = some (.kReportQueueOverflow, code))

/-- The sink knows the runner's configuration and faults, and what it has not told of them waits.
While a fault message is on its way, its radio is left out. -/
structure Held (config : Option ConfigAppliedMessage) (settled : Radio → Prop)
    (faults : Radio → Option (FaultOp × Int32)) (s : QueueRadioSink) : Prop where
  config : s.config = none ∧ configTold s.sent = config ∨
    ∃ c, s.config = some c ∧ config = some c
  runner : ∀ radio, (s.runnerFault radio).map (fun f => (f.op, f.code)) = faults radio
  ofRadio : ∀ radio f, s.runnerFault radio = some f → f.radio = radio
  pending : ∀ radio message, s.fault radio = some message → message.about = some radio
  told : ∀ radio, settled radio → Told radio (faults radio) s

section Holding

variable {config : Option ConfigAppliedMessage} {settled : Radio → Prop}
  {faults : Radio → Option (FaultOp × Int32)} {s : QueueRadioSink}

/-- Nothing that was told changes. -/
theorem Held.same (h : Held config settled faults s) {s' : QueueRadioSink}
    (hsent : s'.sent = s.sent) (hconfig : s'.config = s.config)
    (hrunner : s'.runnerFault = s.runnerFault) (hfault : s'.fault = s.fault)
    (hoverflow : s'.overflowFault = s.overflowFault) : Held config settled faults s' := by
  refine ⟨?_, ?_, ?_, ?_, fun radio hradio => ?_⟩
  · rw [hconfig, hsent]
    exact h.config
  · rw [hrunner]
    exact h.runner
  · rw [hrunner]
    exact h.ofRadio
  · rw [hfault]
    exact h.pending
  · rw [Told, hsent, hfault, hoverflow]
    exact h.told radio hradio

theorem Held.flushConfig (h : Held config settled faults s) :
    Held config settled faults (flushConfig s).2 := by
  rw [QueueRadioSink.flushConfig]
  cases hconfig : s.config with
  | none => exact h
  | some c =>
    dsimp only
    rcases hsend : s.send (.configApplied c) with ⟨went, s'⟩
    obtain ⟨b, rfl, ⟨rfl, hsent⟩ | ⟨rfl, hsent⟩⟩ := send_cases hsend
    · refine ⟨Or.inl ⟨rfl, ?_⟩, h.runner, h.ofRadio, h.pending, fun radio hradio => ?_⟩
      · change configTold b.sent = config
        rw [hsent, configTold_concat]
        rcases h.config with ⟨hnone, -⟩ | ⟨c', hc', hconfig'⟩
        · rw [hconfig] at hnone
          cases hnone
        · rw [hconfig', Option.some.inj (hconfig.symm.trans hc')]
          rfl
      · have htold := h.told radio hradio
        rw [Told] at htold ⊢
        change _ ∨ _ ∧ (faultTold radio b.sent = _ ∨ _ ∧ ∃ code, faultTold radio b.sent = _)
        rw [hsent, faultTold_concat]
        exact htold
    · exact h.same hsent rfl rfl rfl rfl

theorem Held.flushFault (h : Held config settled faults s) (radio : Radio) :
    Held config settled faults (flushFault radio s).2 := by
  rw [QueueRadioSink.flushFault]
  cases hfault : s.fault radio with
  | none => exact h
  | some message =>
    dsimp only
    have habout := h.pending radio message hfault
    rcases hsend : s.send message with ⟨went, s'⟩
    obtain ⟨b, rfl, ⟨rfl, hsent⟩ | ⟨rfl, hsent⟩⟩ := send_cases hsend
    · refine ⟨?_, h.runner, h.ofRadio, fun r m hm => ?_, fun r hr => ?_⟩
      · change s.config = none ∧ configTold b.sent = config ∨ _
        rw [hsent, configTold_concat, config_of_about habout]
        exact h.config
      · by_cases hsame : r = radio
        · simp [hsame] at hm
        · exact h.pending r m (by simpa [hsame] using hm)
      · have htold := h.told r hr
        rw [Told] at htold ⊢
        change (∃ m, Function.update s.fault radio none r = some m ∧ _) ∨
          Function.update s.fault radio none r = none ∧
            (faultTold r b.sent = _ ∨ _ ∧ ∃ code, faultTold r b.sent = _)
        rw [hsent, faultTold_concat]
        by_cases hsame : r = radio
        · subst hsame
          rw [Function.update_self]
          refine Or.inr ⟨rfl, Or.inl ?_⟩
          rcases htold with ⟨m, hm, htarget⟩ | ⟨hnone, -⟩
          · rw [Option.some.inj (hfault.symm.trans hm)]
            exact htarget _
          · rw [hfault] at hnone
            cases hnone
        · have hother : message.about ≠ some r := by
            rw [habout]
            exact fun heq => hsame (Option.some.inj heq).symm
          rw [Function.update_of_ne hsame, faultAfter_other hother]
          exact htold
    · exact h.same hsent rfl rfl rfl rfl

theorem Held.flushLost (h : Held config settled faults s) (radio : Radio) :
    Held config settled faults (flushLost radio s).2 := by
  rw [QueueRadioSink.flushLost]
  split_ifs
  · exact h
  rcases hsend : s.send (overflow radio (s.lost radio)) with ⟨went, s'⟩
  obtain ⟨b, rfl, ⟨rfl, hsent⟩ | ⟨rfl, hsent⟩⟩ := send_cases hsend
  · refine ⟨?_, h.runner, h.ofRadio, h.pending, fun r hr => ?_⟩
    · change s.config = none ∧ configTold b.sent = config ∨ _
      rw [hsent, configTold_concat]
      exact h.config
    · rcases h.told r hr with hwaits | ⟨hnone, hshown⟩
      · exact Or.inl hwaits
      · refine Or.inr ⟨hnone, ?_⟩
        change faultTold r b.sent = _ ∨ Function.update s.overflowFault radio true r = true ∧
          ∃ code, faultTold r b.sent = _
        rw [hsent, faultTold_concat]
        by_cases hsame : r = radio
        · subst hsame
          rw [Function.update_self]
          exact Or.inr ⟨rfl, _, if_pos rfl⟩
        · have hother : (overflow radio (s.lost radio)).about ≠ some r :=
            fun heq => hsame (Option.some.inj heq).symm
          rw [Function.update_of_ne hsame, faultAfter_other hother]
          exact hshown
  · exact h.same hsent rfl rfl rfl rfl

theorem Held.withdraw (h : Held config settled faults s) (radio : Radio) :
    Held config settled faults (withdraw radio s).2 := by
  rw [QueueRadioSink.withdraw]
  split_ifs
  · exact h
  have habout : (s.restored radio).about = some radio := by
    rw [restored]
    cases hrunner : s.runnerFault radio with
    | none => rfl
    | some f => exact congrArg some (h.ofRadio radio f hrunner)
  have hafter (shown : Option (FaultOp × Int32)) :
      faultAfter radio shown (s.restored radio) = faults radio := by
    rw [← h.runner radio, restored]
    cases hrunner : s.runnerFault radio with
    | none => exact if_pos rfl
    | some f => exact if_pos (h.ofRadio radio f hrunner)
  rcases hsend : s.send (s.restored radio) with ⟨went, s'⟩
  obtain ⟨b, rfl, ⟨rfl, hsent⟩ | ⟨rfl, hsent⟩⟩ := send_cases hsend
  · refine ⟨?_, h.runner, h.ofRadio, h.pending, fun r hr => ?_⟩
    · change s.config = none ∧ configTold b.sent = config ∨ _
      rw [hsent, configTold_concat, config_of_about habout]
      exact h.config
    · rcases h.told r hr with hwaits | ⟨hnone, hshown⟩
      · exact Or.inl hwaits
      · refine Or.inr ⟨hnone, ?_⟩
        change faultTold r b.sent = _ ∨ Function.update s.overflowFault radio false r = true ∧
          ∃ code, faultTold r b.sent = _
        rw [hsent, faultTold_concat]
        by_cases hsame : r = radio
        · subst hsame
          exact Or.inl (hafter _)
        · have hother : (s.restored radio).about ≠ some r := by
            rw [habout]
            exact fun heq => hsame (Option.some.inj heq).symm
          rw [Function.update_of_ne hsame, faultAfter_other hother]
          exact hshown
  · exact h.same hsent rfl rfl rfl rfl

theorem Held.flush (h : Held config settled faults s) : Held config settled faults s.flush :=
  flush_keeps (fun _ hs => hs.flushConfig) (fun radio _ hs => hs.flushFault radio)
    (fun radio _ hs => hs.flushLost radio) (fun radio _ hs => hs.withdraw radio) h

end Holding

/-- An older message of its kind still waits. -/
def QueueRadioSink.waits (message : RadioMessage) (s : QueueRadioSink) : Bool :=
  match message with
  | .configApplied _ => s.config.isSome
  | .fault f => (s.fault f.radio).isSome
  | .faultCleared radio => (s.fault radio).isSome
  | _ => false

/-- The app loop made room between the flush and the message's own send, so that the message goes
before the older one. -/
def QueueRadioSink.overtakes (message : RadioMessage) (s : QueueRadioSink) : Bool :=
  (flush (s.observe message)).waits message && ((flush (s.observe message)).send message).1

/-- No message of a run overtakes an older one of its kind. -/
def Orderly (takes : List ℕ) (events : List SinkEvent) : Prop :=
  ∀ before message rest, events = before ++ .emit message :: rest →
    (sinkRun takes before).overtakes message = false

/-- The sink is in step with what the runner said. -/
abbrev InStep (said : List RadioMessage) (s : QueueRadioSink) : Prop :=
  Held (configTold said) (fun _ => True) (fun radio => faultTold radio said) s

section Emitting

variable {said : List RadioMessage} {s : QueueRadioSink}

theorem faultTold_other {message : RadioMessage} {radio : Radio}
    (h : message.about ≠ some radio) :
    faultTold radio (said ++ [message]) = faultTold radio said := by
  rw [faultTold_concat, faultAfter_other h]

/-- A message about no fault leaves the faults as they are. -/
theorem InStep.faultless (h : InStep said s) {message : RadioMessage}
    (habout : message.about = none) :
    Held (configTold said) (fun _ => True)
      (fun radio => faultTold radio (said ++ [message])) s := by
  have hsame : (fun radio => faultTold radio (said ++ [message])) =
      fun radio => faultTold radio said := by
    funext radio
    refine faultTold_other ?_
    rw [habout]
    exact fun hnone => by cases hnone
  rw [hsame]
  exact h

private theorem told_sent {radio : Radio} {target : Option (FaultOp × Int32)}
    (h : Told radio target s) {b : Mailbox RadioMessage} {message : RadioMessage}
    (hsent : b.sent = s.sent ++ [message]) (hother : message.about ≠ some radio) :
    Told radio target { s with messages := b } := by
  rw [Told] at h ⊢
  change _ ∨ _ ∧ (faultTold radio b.sent = _ ∨ _ ∧ ∃ code, faultTold radio b.sent = _)
  rw [hsent, faultTold_concat, faultAfter_other hother]
  exact h

/-- A window message changes nothing that is to be told. -/
theorem InStep.emitWindow (h : InStep said s) {message : RadioMessage}
    (habout : message.about = none) (hconfig : message.config = none)
    (hobserve : s.observe message = s)
    (hnoted : ∀ s : QueueRadioSink, ∃ cleanSends, s.noteSent message = { s with cleanSends })
    (hdropped : ∀ s : QueueRadioSink, ∃ lost cleanSends messageOverflows,
      s.drop message = { s with lost, cleanSends, messageOverflows }) :
    InStep (said ++ [message]) (s.emit message) := by
  have hflush := (h.faultless habout).flush
  have htold : configTold (said ++ [message]) = configTold said := by
    rw [configTold_concat, hconfig]
    rfl
  rw [InStep, htold, QueueRadioSink.emit, hobserve]
  rcases hsend : s.flush.send message with ⟨went, s'⟩
  obtain ⟨b, rfl, ⟨rfl, hsent⟩ | ⟨rfl, hsent⟩⟩ := send_cases hsend
  · have hnext : Held (configTold said) (fun _ => True)
        (fun radio => faultTold radio (said ++ [message])) { s.flush with messages := b } := by
      refine ⟨?_, hflush.runner, hflush.ofRadio, hflush.pending, fun radio hradio => ?_⟩
      · change _ ∧ configTold b.sent = _ ∨ _
        rw [hsent, configTold_concat, hconfig]
        exact hflush.config
      · refine told_sent (hflush.told radio hradio) hsent ?_
        rw [habout]
        exact fun hnone => by cases hnone
    obtain ⟨cleanSends, hnote⟩ := hnoted { s.flush with messages := b }
    dsimp only
    rw [hnote]
    exact hnext.same rfl rfl rfl rfl rfl
  · obtain ⟨lost, cleanSends, messageOverflows, hdrop⟩ := hdropped { s.flush with messages := b }
    dsimp only
    rw [hdrop]
    exact hflush.same hsent rfl rfl rfl rfl

theorem InStep.emitConfig (h : InStep said s) {config : ConfigAppliedMessage}
    (horder : s.overtakes (.configApplied config) = false) :
    InStep (said ++ [.configApplied config]) (s.emit (.configApplied config)) := by
  have hflush :=
    (h.faultless (show (RadioMessage.configApplied config).about = none from rfl)).flush
  have htold : configTold (said ++ [.configApplied config]) = some config := by
    rw [configTold_concat]
    rfl
  have hobserve : s.observe (.configApplied config) = s := rfl
  rw [QueueRadioSink.overtakes, hobserve] at horder
  rw [InStep, htold, QueueRadioSink.emit, hobserve]
  change (s.flush.config.isSome && (s.flush.send (.configApplied config)).1) = false at horder
  rcases hsend : s.flush.send (.configApplied config) with ⟨went, s'⟩
  rw [hsend] at horder
  obtain ⟨b, rfl, ⟨rfl, hsent⟩ | ⟨rfl, hsent⟩⟩ := send_cases hsend
  · have hnone : s.flush.config = none := by simpa using horder
    refine ⟨Or.inl ⟨hnone, ?_⟩, hflush.runner, hflush.ofRadio, hflush.pending,
      fun radio hradio => ?_⟩
    · change configTold b.sent = _
      rw [hsent, configTold_concat]
      rfl
    · exact told_sent (hflush.told radio hradio) hsent fun hnone => by cases hnone
  · have hstays : Held (configTold said) (fun _ => True)
        (fun radio => faultTold radio (said ++ [.configApplied config]))
        { s.flush with messages := b } := hflush.same hsent rfl rfl rfl rfl
    exact ⟨Or.inr ⟨config, rfl, rfl⟩, hstays.runner, hstays.ofRadio, hstays.pending, hstays.told⟩

/-- A fault or a clear: its radio is settled when it has been sent, or waits. -/
theorem InStep.emitFault (h : InStep said s) {message : RadioMessage} {radio : Radio}
    {fault : Option FaultMessage} (habout : message.about = some radio)
    (hobserve : s.observe message =
      { s with
        runnerFault := Function.update s.runnerFault radio fault
        overflowFault := Function.update s.overflowFault radio false })
    (hradio : ∀ f, fault = some f → f.radio = radio)
    (htarget : ∀ shown, faultAfter radio shown message = fault.map fun f => (f.op, f.code))
    (hnoted : ∀ s : QueueRadioSink, s.noteSent message = s)
    (hdropped : ∀ s : QueueRadioSink, s.drop message =
      { s with
        messageOverflows := s.messageOverflows + 1
        fault := Function.update s.fault radio (some message) })
    (hwaits : ∀ s : QueueRadioSink, s.waits message = (s.fault radio).isSome)
    (horder : s.overtakes message = false) :
    InStep (said ++ [message]) (s.emit message) := by
  have hconfig := config_of_about habout
  have htold : configTold (said ++ [message]) = configTold said := by
    rw [configTold_concat, hconfig]
    rfl
  have hother {r : Radio} (hr : r ≠ radio) : message.about ≠ some r := by
    rw [habout]
    exact fun heq => hr (Option.some.inj heq).symm
  have hobserved : Held (configTold said) (fun r => r ≠ radio)
      (fun r => faultTold r (said ++ [message])) (s.observe message) := by
    rw [hobserve]
    refine ⟨h.config, fun r => ?_, fun r f hf => ?_, h.pending, fun r hr => ?_⟩
    · change (Function.update s.runnerFault radio fault r).map _ = _
      by_cases hr : r = radio
      · subst hr
        rw [faultTold_concat, htarget, Function.update_self]
      · rw [faultTold_other (hother hr), Function.update_of_ne hr]
        exact h.runner r
    · by_cases hr : r = radio
      · subst hr
        exact hradio f (by simpa using hf)
      · exact h.ofRadio r f (by simpa [hr] using hf)
    · have htold := h.told r trivial
      rw [faultTold_other (hother hr)]
      rw [Told] at htold ⊢
      change _ ∨ _ ∧ (_ ∨ Function.update s.overflowFault radio false r = true ∧ _)
      rw [Function.update_of_ne hr]
      exact htold
  have hflush := hobserved.flush
  rw [QueueRadioSink.overtakes, hwaits] at horder
  rw [InStep, htold, QueueRadioSink.emit]
  generalize QueueRadioSink.flush (s.observe message) = flushed at hflush horder
  rcases hsend : flushed.send message with ⟨went, s'⟩
  rw [hsend] at horder
  obtain ⟨b, rfl, ⟨rfl, hsent⟩ | ⟨rfl, hsent⟩⟩ := send_cases hsend
  · dsimp only
    rw [hnoted]
    have hnone : flushed.fault radio = none := by simpa using horder
    refine ⟨?_, hflush.runner, hflush.ofRadio, hflush.pending, fun r _ => ?_⟩
    · change _ ∧ configTold b.sent = _ ∨ _
      rw [hsent, configTold_concat, hconfig]
      exact hflush.config
    · by_cases hr : r = radio
      · subst hr
        refine Or.inr ⟨hnone, Or.inl ?_⟩
        change faultTold r b.sent = _
        rw [hsent, faultTold_concat, faultTold_concat, htarget, htarget]
      · exact told_sent (hflush.told r hr) hsent (hother hr)
  · dsimp only
    rw [hdropped]
    have hstays : Held (configTold said) (fun r => r ≠ radio)
        (fun r => faultTold r (said ++ [message])) { flushed with messages := b } :=
      hflush.same hsent rfl rfl rfl rfl
    refine ⟨hstays.config, hstays.runner, hstays.ofRadio, fun r m hm => ?_, fun r _ => ?_⟩
    · by_cases hr : r = radio
      · subst hr
        have hm' : some message = some m := by simpa using hm
        rw [← Option.some.inj hm']
        exact habout
      · exact hstays.pending r m (by simpa [hr] using hm)
    · by_cases hr : r = radio
      · subst hr
        refine Or.inl ⟨message, Function.update_self .., fun shown => ?_⟩
        rw [faultTold_concat, htarget, htarget]
      · have htold := hstays.told r hr
        rw [Told] at htold ⊢
        change (∃ m, Function.update flushed.fault radio (some message) r = some m ∧ _) ∨
          Function.update flushed.fault radio (some message) r = none ∧ _
        rw [Function.update_of_ne hr]
        exact htold

theorem InStep.emit (h : InStep said s) {message : RadioMessage}
    (horder : s.overtakes message = false) : InStep (said ++ [message]) (s.emit message) := by
  cases message with
  | configApplied config => exact h.emitConfig horder
  | windowStarted started =>
    exact h.emitWindow rfl rfl rfl (fun _ => ⟨_, rfl⟩) fun _ => ⟨_, _, _, rfl⟩
  | windowReport report =>
    exact h.emitWindow rfl rfl rfl (fun _ => ⟨_, rfl⟩) fun _ => ⟨_, _, _, rfl⟩
  | fault f =>
    refine h.emitFault rfl rfl (fun f' hf => ?_) (fun _ => if_pos rfl) (fun _ => rfl)
      (fun _ => rfl) (fun _ => rfl) horder
    rw [← Option.some.inj hf]
  | faultCleared radio =>
    exact h.emitFault rfl rfl (fun f hf => by cases hf) (fun _ => if_pos rfl) (fun _ => rfl)
      (fun _ => rfl) (fun _ => rfl) horder

end Emitting

theorem inStep_run {takes : List ℕ} {events : List SinkEvent} (h : Orderly takes events) :
    InStep (said events) (sinkRun takes events) := by
  induction events using List.reverseRecOn with
  | nil =>
    refine ⟨Or.inl ⟨rfl, rfl⟩, fun _ => rfl, fun radio f hf => ?_, fun radio m hm => ?_,
      fun _ _ => Or.inr ⟨rfl, Or.inl rfl⟩⟩
    · cases hf
    · cases hm
  | append_singleton events e ih =>
    have hbefore := ih fun before message rest hsplit => by
      refine h before message (rest ++ [e]) ?_
      rw [hsplit, List.append_assoc, List.cons_append]
    rw [said_concat, sinkRun, List.foldl_concat]
    cases e with
    | emit message => exact hbefore.emit (h events message [] rfl)
    | flush =>
      have hnone : said [SinkEvent.flush] = [] := rfl
      rw [hnone, List.append_nil]
      exact hbefore.flush
    | receive n =>
      have hnone : said [SinkEvent.receive n] = [] := rfl
      rw [hnone, List.append_nil]
      exact hbefore.same (Mailbox.sent_receive n _) rfl rfl rfl rfl

/-- An app loop that has read everything, with nothing left to be told, has the picture that the
runner's messages give: the configuration in force, and each radio's fault or the report overflow
that stands in its place. -/
theorem picture_in_step {takes : List ℕ} {events : List SinkEvent} (h : Orderly takes events)
    (hread : (sinkRun takes events).messages.queue = [])
    (hconfig : (sinkRun takes events).config = none)
    (hfault : ∀ radio, (sinkRun takes events).fault radio = none) :
    (picture (sinkRun takes events).messages.received).config = (picture (said events)).config ∧
      (picture (sinkRun takes events).messages.received).generation =
        (picture (said events)).generation ∧
      ∀ radio,
        (picture (sinkRun takes events).messages.received).ledger.faults radio =
          (picture (said events)).ledger.faults radio ∨
        (sinkRun takes events).overflowFault radio = true ∧
          ∃ code, (picture (sinkRun takes events).messages.received).ledger.faults radio =
            faultText .kReportQueueOverflow code := by
  have hstep := inStep_run h
  have hsent : (sinkRun takes events).sent = (sinkRun takes events).messages.received := by
    rw [sent, Mailbox.sent, hread, List.append_nil]
  have htold : configTold (sinkRun takes events).messages.received = configTold (said events) := by
    rcases hstep.config with ⟨-, htold⟩ | ⟨c, hc, -⟩
    · rw [← hsent]
      exact htold
    · rw [hconfig] at hc
      cases hc
  obtain ⟨hpicture, hgeneration⟩ := config_picture (sinkRun takes events).messages.received
  obtain ⟨hpicture', hgeneration'⟩ := config_picture (said events)
  refine ⟨?_, ?_, fun radio => ?_⟩
  · rw [hpicture, hpicture', htold]
  · rw [hgeneration, hgeneration', htold]
  · rw [faults_picture, faults_picture]
    rcases hstep.told radio trivial with ⟨m, hm, -⟩ | ⟨-, hshown⟩
    · rw [hfault radio] at hm
      cases hm
    · rw [hsent] at hshown
      rcases hshown with hsame | ⟨hoverflow, code, hshown⟩
      · exact Or.inl (by rw [hsame])
      · exact Or.inr ⟨hoverflow, code, by rw [hshown]; rfl⟩

/-- The app loop takes nothing before the coming sends. -/
def Quiet (s : QueueRadioSink) : Prop := s.messages.takes = []

def Full (s : QueueRadioSink) : Prop := kMessageQueueDepth ≤ s.messages.queue.length

theorem send_quiet {message : RadioMessage} {s s' : QueueRadioSink} {went : Bool} (h : Quiet s)
    (hsend : s.send message = (went, s')) :
    ∃ b, s' = { s with messages := b } ∧ b.takes = [] ∧
      (went = false → kMessageQueueDepth ≤ b.queue.length) ∧ (Full s → went = false) := by
  obtain ⟨rfl, rfl⟩ := Prod.mk.inj hsend
  refine ⟨_, rfl, ?_⟩
  rw [Mailbox.send_of_no_takes h, Full]
  by_cases hroom : s.messages.queue.length < kMessageQueueDepth
  · rw [if_pos hroom]
    exact ⟨h, fun hfalse => Bool.noConfusion hfalse, fun hfull =>
      absurd hroom (Nat.not_lt.mpr hfull)⟩
  · rw [if_neg hroom]
    exact ⟨h, fun _ => Nat.not_lt.mp hroom, fun _ => rfl⟩

/-- A part of `Flush` stops only at a full queue. -/
def Stops (stage : Stage) : Prop :=
  ∀ s, Quiet s → Quiet (stage s).2 ∧ ((stage s).1 = false → Full (stage s).2)

theorem stops_flushConfig : Stops flushConfig := by
  intro s h
  rw [flushConfig]
  cases s.config with
  | none => exact ⟨h, fun hfalse => by cases hfalse⟩
  | some config =>
    dsimp only
    rcases hsend : s.send (.configApplied config) with ⟨went, s'⟩
    obtain ⟨b, rfl, hquiet, hfull, -⟩ := send_quiet h hsend
    cases went with
    | true => exact ⟨hquiet, fun hfalse => by cases hfalse⟩
    | false => exact ⟨hquiet, hfull⟩

theorem stops_flushFault (radio : Radio) : Stops (flushFault radio) := by
  intro s h
  rw [flushFault]
  cases s.fault radio with
  | none => exact ⟨h, fun hfalse => by cases hfalse⟩
  | some message =>
    dsimp only
    rcases hsend : s.send message with ⟨went, s'⟩
    obtain ⟨b, rfl, hquiet, hfull, -⟩ := send_quiet h hsend
    cases went with
    | true => exact ⟨hquiet, fun hfalse => by cases hfalse⟩
    | false => exact ⟨hquiet, hfull⟩

/-- Nothing of the runner's state is left to be told. -/
def Clear (s : QueueRadioSink) : Prop := s.config = none ∧ ∀ radio, s.fault radio = none

theorem clear_flushLost (radio : Radio) {s : QueueRadioSink} (h : Clear s) :
    Clear (flushLost radio s).2 := by
  rw [flushLost]
  split_ifs
  · exact h
  rcases hsend : s.send (overflow radio (s.lost radio)) with ⟨went, s'⟩
  obtain ⟨b, rfl, -⟩ := send_cases hsend
  cases went <;> exact h

theorem clear_withdraw (radio : Radio) {s : QueueRadioSink} (h : Clear s) :
    Clear (withdraw radio s).2 := by
  rw [withdraw]
  split_ifs
  · exact h
  rcases hsend : s.send (s.restored radio) with ⟨went, s'⟩
  obtain ⟨b, rfl, -⟩ := send_cases hsend
  cases went <;> exact h

theorem config_flushConfig {s : QueueRadioSink} (h : (flushConfig s).1 = true) :
    (flushConfig s).2.config = none := by
  rw [flushConfig] at h ⊢
  cases hconfig : s.config with
  | none => exact hconfig
  | some config =>
    rw [hconfig] at h
    dsimp only at h ⊢
    rcases hsend : s.send (.configApplied config) with ⟨_ | _, s'⟩
    · rw [hsend] at h
      cases h
    · rfl

theorem config_flushFault (radio : Radio) (s : QueueRadioSink) :
    (flushFault radio s).2.config = s.config := by
  rw [flushFault]
  cases s.fault radio with
  | none => rfl
  | some message =>
    dsimp only
    rcases hsend : s.send message with ⟨went, s'⟩
    obtain ⟨b, rfl, -⟩ := send_cases hsend
    cases went <;> rfl

theorem fault_flushFault (radio r : Radio) {s : QueueRadioSink}
    (h : (flushFault radio s).1 = true) (hr : r = radio ∨ s.fault r = none) :
    (flushFault radio s).2.fault r = none := by
  rw [flushFault] at h ⊢
  cases hfault : s.fault radio with
  | none =>
    rcases hr with rfl | hnone
    · exact hfault
    · exact hnone
  | some message =>
    rw [hfault] at h
    dsimp only at h ⊢
    rcases hsend : s.send message with ⟨went, s'⟩
    rw [hsend] at h
    obtain ⟨b, rfl, -⟩ := send_cases hsend
    cases went with
    | false => cases h
    | true =>
      by_cases hsame : r = radio
      · simp [hsame]
      · simpa [hsame] using hr

/-- A flush that leaves something to be told has filled the queue. -/
theorem flush_quiet {s : QueueRadioSink} (h : Quiet s) : Full s.flush ∨ Clear s.flush := by
  obtain ⟨hquiet₁, hfull₁⟩ := stops_flushConfig s h
  have hconfig := config_flushConfig (s := s)
  rw [QueueRadioSink.flush, through]
  rcases hstage₁ : flushConfig s with ⟨_ | _, s₁⟩ <;> rw [hstage₁] at hquiet₁ hfull₁ hconfig
  · exact Or.inl (hfull₁ rfl)
  dsimp only at hquiet₁ hconfig ⊢
  obtain ⟨hquiet₂, hfull₂⟩ := stops_flushFault .kWifi s₁ hquiet₁
  have hkept₂ := config_flushFault .kWifi s₁
  have hwifi := fault_flushFault .kWifi .kWifi (s := s₁)
  rw [through]
  rcases hstage₂ : flushFault .kWifi s₁ with ⟨_ | _, s₂⟩ <;>
    rw [hstage₂] at hquiet₂ hfull₂ hkept₂ hwifi
  · exact Or.inl (hfull₂ rfl)
  dsimp only at hquiet₂ hkept₂ hwifi ⊢
  obtain ⟨-, hfull₃⟩ := stops_flushFault .kBle s₂ hquiet₂
  have hkept₃ := config_flushFault .kBle s₂
  have hfault (r : Radio) := fault_flushFault .kBle r (s := s₂)
  rw [through]
  rcases hstage₃ : flushFault .kBle s₂ with ⟨_ | _, s₃⟩ <;> rw [hstage₃] at hfull₃ hkept₃ hfault
  · exact Or.inl (hfull₃ rfl)
  have hclear : Clear s₃ := by
    refine ⟨?_, fun r => ?_⟩
    · rw [hkept₃, hkept₂]
      exact hconfig rfl
    · cases r with
      | kWifi => exact hfault .kWifi rfl (Or.inr (hwifi rfl (Or.inl rfl)))
      | kBle => exact hfault .kBle rfl (Or.inl rfl)
  refine Or.inr (through_keeps (fun stage hmem s hs => ?_) hclear)
  simp only [List.mem_cons, List.not_mem_nil, or_false] at hmem
  rcases hmem with rfl | rfl | rfl | rfl
  · exact clear_flushLost .kWifi hs
  · exact clear_flushLost .kBle hs
  · exact clear_withdraw .kWifi hs
  · exact clear_withdraw .kBle hs

theorem quiet_flushLost (radio : Radio) {s : QueueRadioSink} (h : Quiet s) :
    Quiet (flushLost radio s).2 := by
  rw [flushLost]
  split_ifs
  · exact h
  rcases hsend : s.send (overflow radio (s.lost radio)) with ⟨went, s'⟩
  obtain ⟨b, rfl, hquiet, -⟩ := send_quiet h hsend
  cases went <;> exact hquiet

theorem quiet_withdraw (radio : Radio) {s : QueueRadioSink} (h : Quiet s) :
    Quiet (withdraw radio s).2 := by
  rw [withdraw]
  split_ifs
  · exact h
  rcases hsend : s.send (s.restored radio) with ⟨went, s'⟩
  obtain ⟨b, rfl, hquiet, -⟩ := send_quiet h hsend
  cases went <;> exact hquiet

theorem quiet_flush {s : QueueRadioSink} (h : Quiet s) : Quiet s.flush :=
  flush_keeps (fun s hs => (stops_flushConfig s hs).1)
    (fun radio s hs => (stops_flushFault radio s hs).1) (fun radio _ hs => quiet_flushLost radio hs)
    (fun radio _ hs => quiet_withdraw radio hs) h

theorem quiet_observe {s : QueueRadioSink} (h : Quiet s) (message : RadioMessage) :
    Quiet (s.observe message) := by
  cases message <;> exact h

theorem emit_quiet {s : QueueRadioSink} (h : Quiet s) (message : RadioMessage) :
    Quiet (s.emit message) := by
  rw [QueueRadioSink.emit]
  rcases hsend : (flush (s.observe message)).send message with ⟨went, s'⟩
  obtain ⟨b, rfl, hquiet, -⟩ := send_quiet (quiet_flush (quiet_observe h message)) hsend
  cases went <;> cases message <;> exact hquiet

theorem quiet_run (events : List SinkEvent) : Quiet (sinkRun [] events) := by
  refine List.foldlRecOn events SinkEvent.apply rfl fun s hs e _ => ?_
  cases e with
  | emit message => exact emit_quiet hs message
  | flush => exact quiet_flush hs
  | receive n => exact hs

/-- Without a receive inside an emission, no message overtakes another. -/
theorem orderly_of_no_takes (events : List SinkEvent) : Orderly [] events := by
  rintro before message rest -
  have hquiet := quiet_observe (quiet_run before) message
  rw [QueueRadioSink.overtakes]
  rcases flush_quiet hquiet with hfull | hclear
  · rcases hsend : (flush ((sinkRun [] before).observe message)).send message with ⟨went, s'⟩
    obtain ⟨b, -, -, -, hstops⟩ := send_quiet (quiet_flush hquiet) hsend
    rw [hstops hfull]
    exact Bool.and_false _
  · have hwaits : (flush ((sinkRun [] before).observe message)).waits message = false := by
      cases message with
      | configApplied config => exact Option.isSome_eq_false_iff.mpr (by simp [hclear.1])
      | fault f => exact Option.isSome_eq_false_iff.mpr (by simp [hclear.2])
      | faultCleared radio => exact Option.isSome_eq_false_iff.mpr (by simp [hclear.2])
      | _ => rfl
    rw [hwaits]
    rfl

/-- A configuration and a fault that find the queue full are told after the stall. -/
def late : List SinkEvent :=
  List.replicate 32 (.emit (.windowStarted {})) ++
    [.emit (.configApplied (toConfigApplied 2 { bleEnabled := false })),
      .emit (.fault ⟨.kBle, .kStop, 3⟩), .receive 40, .flush, .receive 40]

theorem picture_in_step_late :
    (picture (sinkRun [] late).messages.received).config = (picture (said late)).config ∧
      (picture (sinkRun [] late).messages.received).generation =
        (picture (said late)).generation ∧
      ∀ radio,
        (picture (sinkRun [] late).messages.received).ledger.faults radio =
          (picture (said late)).ledger.faults radio ∨
        (sinkRun [] late).overflowFault radio = true ∧
          ∃ code, (picture (sinkRun [] late).messages.received).ledger.faults radio =
            faultText .kReportQueueOverflow code := by
  apply picture_in_step (orderly_of_no_takes late)
  · decide +kernel
  · decide +kernel
  · intro radio
    cases radio <;> decide +kernel

/-- One receive after a flush that found the queue full: the second configuration goes first, and
the app loop is left with the older one. -/
example :
    let events := List.replicate 32 (.emit (.windowStarted {})) ++
      [.emit (.configApplied { configGeneration := 2 }),
        .emit (.configApplied { configGeneration := 3 }), .flush, .receive 40]
    let takes := List.replicate 34 0 ++ [1, 40]
    (picture (sinkRun takes events).messages.received).generation = 2 ∧
      (sinkRun takes events).messages.queue = [] ∧ (sinkRun takes events).config = none := by
  decide +kernel

end CydMonitor.Observation
