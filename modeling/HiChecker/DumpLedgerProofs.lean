import HiChecker.LeakReportProofs
import HiChecker.TicketsProofs

/-!
# What becomes of every dump

A dump tick takes up a dump: `dumpInner` describes it at once, or leaves it to a dump thread
whose callback describes it later. By then other ticks may have taken up more dumps, the
parameter may have changed and the watcher may have been stopped and started again.

* **`takenBy`**, **`answeredBy`** — the dump that a step takes up, the one it answers.
* **`Answer`** — one failure, or one report with the call of the callback before it; a callback
  that throws leaves no report.
* **`dumpLedger`** — the watcher with its dumps numbered.
* **`dumps_answered`** — in every run each dump is answered once or waits, for itself alone,
  and nothing else calls the callback or reports.
-/

namespace DumpLedger

open Transition JsValue WatcherConfig FileStore DumpFile TimerQueue Watcher
open LeakAgreement LeakLists LeakReport Tickets
open LeakRound (ObjMsg startDumptask)

variable {Dir : Type} [DecidableEq Dir] (plat : Platform Dir)

-- ── What a dump shows ─────────────────────────────────────────────────────────────

/-- Evicting old files is no part of a dump's answer. -/
def isShown : DumpEvent → Bool
  | .retention => false
  | _ => true

/-- What a dump shows of its events. -/
def visible (events : List DumpEvent) : List DumpEvent := events.filter isShown

/-- A dump ends with an exception, or with its report; the callback, when there is one, is
    called once and before, with the list that the report names. A callback that throws takes
    the report with it. -/
def Answer (jsCallback callbackThrows : Bool) (events : List DumpEvent) : Prop :=
  events = [.failed] ∨
    (∃ fileList report, (jsCallback && callbackThrows) = false
      ∧ events = (if jsCallback then [.jsCallback fileList] else []) ++ [.reportRawHeap report]
      ∧ report.leakListPath = pathsText fileList) ∨
    ((jsCallback && callbackThrows) = true
      ∧ ∃ fileList, events = [.jsCallback fileList, .failed])

/-- The heap goes to a dump thread, and nothing else was shown yet. -/
def Dumping (events : List DumpEvent) : Prop :=
  ∃ desFilePath, events = [.dumpRawHeap desFilePath]

/-- All that a synchronous dump shows: it fails, or returns its list. -/
def Returns (events : List DumpEvent) : Prop :=
  ∀ e ∈ visible events, e = .failed ∨ ∃ fileList, e = .returned fileList

/-- A dump that is over: answered at once, or after a heap dump. -/
def Ended (jsCallback : Bool) (events : List DumpEvent) : Prop :=
  ∃ callbackThrows before answer, (before = [] ∨ Dumping before)
    ∧ Answer jsCallback callbackThrows answer ∧ events = before ++ answer

theorem visible_append (es es' : List DumpEvent) :
    visible (es ++ es') = visible es ++ visible es' := List.filter_append _ _

/-- A dump answered at once is over. -/
theorem Answer.ended {jsCallback callbackThrows : Bool} {events : List DumpEvent}
    (h : Answer jsCallback callbackThrows events) : Ended jsCallback events :=
  ⟨callbackThrows, [], events, Or.inl rfl, h, rfl⟩

/-- A synchronous dump reports nothing. -/
theorem Returns.not_report {events : List DumpEvent} (h : Returns events)
    (report : ReportRawHeap) : .reportRawHeap report ∉ events := by
  intro hmem
  rcases h _ (List.mem_filter.mpr ⟨hmem, rfl⟩) with heq | ⟨fileList, heq⟩
  · exact DumpEvent.noConfusion heq
  · exact DumpEvent.noConfusion heq

section Dumps

variable (host : Host Dir)

/-- The clean-up shows nothing. -/
theorem visible_deleteOldFile (out : Outside) (filePath : String) (maxFileNum : JsNum)
    (files : Files Dir) :
    visible (deleteOldFile host out filePath maxFileNum files).2.2 = [] := by
  show visible (if _ then (_, _, _) else (files, true, []) :
    Files Dir × Bool × List DumpEvent).2.2 = []
  split
  · rfl
  · rfl

end Dumps

-- ── What a tick does ──────────────────────────────────────────────────────────────

/-- What the dumps of a step show. -/
def shown (es : List Event) : List DumpEvent := visible (dumpEvents es)

/-- The dump closure calls `dumpInner`, and the watcher is enabled. -/
def takes (w : World Dir) : Bool :=
  w.enabled.truthy &&
    (if w.settings.isConfigObj then (startDumptask w.settings w.watchObjMap w.appState).2.1
    else !decide (w.watchObjMap.size = 0))

/-- What a dump does to those that wait, and what it shows. -/
structure Taken (task : DumpTask) (callbackThrows : Bool) (w w' : World Dir)
    (es : List Event) : Prop where
  outstanding : w'.outstanding
    = if DumpIdentity.starts (dumpEvents es) then w.outstanding ++ [task] else w.outstanding
  shown : (DumpIdentity.starts (dumpEvents es) = true ∧ Dumping (shown es))
    ∨ (DumpIdentity.starts (dumpEvents es) = false
      ∧ Answer task.callback.truthy callbackThrows (shown es))

/-- Nothing waits that did not, and nothing is called or reported. -/
structure Quiet (w w' : World Dir) (es : List Event) : Prop where
  outstanding : w'.outstanding = w.outstanding
  returns : Returns (dumpEvents es)

omit [DecidableEq Dir] in
theorem quiet_of_eq {w w' : World Dir} {es : List Event} (h : w'.outstanding = w.outstanding)
    (hes : dumpEvents es = []) : Quiet w w' es := by
  refine ⟨h, fun e he => ?_⟩
  rw [hes] at he
  exact absurd he List.not_mem_nil

/-- A disabled `dumpInner` returns before it does anything. -/
theorem quiet_callDumpInner {w : World Dir} (h : w.enabled.truthy = false) (out : Surroundings)
    (task : DumpTask) :
    Quiet w (callDumpInner plat out task w).1 (callDumpInner plat out task w).2 := by
  have hsession : w.session.enabled = false := h
  have hevents := DumpIdentity.dumpInner_disabled plat.host hsession out.dump task.filePath
    task.callback.truthy w.dump
  refine quiet_of_eq ?_ ?_
  · show (if DumpIdentity.starts _ = true then _ else w.outstanding) = w.outstanding
    rw [hevents]
    rfl
  · show dumpEvents (List.map Event.dump _) = []
    rw [hevents]
    rfl

/-- What the round says of itself is shown by no dump. -/
theorem dumpEvents_round (events : List LeakRound.Event) (es : List Event) :
    dumpEvents (events.map (Event.round none) ++ es) = dumpEvents es := by
  rw [dumpEvents_append, dumpEvents_other (fun _ => rfl), List.nil_append]

/-- The dump closure in every other case. -/
theorem quiet_dumpTask {w : World Dir} (h : takes w = false) (out : Surroundings)
    (task : DumpTask) :
    Quiet w (dumpTask plat out task w).1 (dumpTask plat out task w).2 := by
  cases hen : w.enabled.truthy with
  | false =>
      simp only [dumpTask]
      split
      · split
        · have hcall := quiet_callDumpInner plat
            (w := { w with appState := (startDumptask w.settings w.watchObjMap w.appState).1 })
            hen out task
          refine ⟨hcall.outstanding, ?_⟩
          rw [dumpEvents_round]
          exact hcall.returns
        · exact quiet_of_eq rfl (dumpEvents_other (fun _ => rfl) _)
      · split
        · exact quiet_of_eq rfl rfl
        · exact quiet_callDumpInner plat hen out task
  | true =>
      simp only [takes, hen, Bool.true_and] at h
      simp only [dumpTask]
      split at h
      · rename_i hobj
        rw [if_pos hobj, h, if_neg Bool.false_ne_true]
        exact quiet_of_eq rfl (dumpEvents_other (fun _ => rfl) _)
      · rename_i hobj
        rw [Bool.not_eq_false', decide_eq_true_eq] at h
        rw [if_neg hobj, if_pos h]
        exact quiet_of_eq rfl rfl

omit [DecidableEq Dir] in
/-- A GC tick takes up no dump. -/
theorem quiet_gcTask (out : Surroundings) (tick : Tick) (task : GcTask) (w : World Dir) :
    Quiet w (rearm (gcTask plat out tick task w).1) (gcTask plat out tick task w).2 := by
  obtain ⟨appState, promises, hgc⟩ := gcTask_frame plat out tick task w
  obtain ⟨_, _, _, _, _, _, hretry⟩ := retryRegister_frame plat out w
  refine quiet_of_eq ?_ ?_
  · rw [hgc, hretry]
    rfl
  · simp only [gcTask]
    split
    · exact dumpEvents_other (fun _ => rfl) _
    · rfl

/-- The dump that the delivery of an event takes up. -/
def takenAt (w : World Dir) (t : Timer EventId) : Option DumpTask :=
  if takes w then dumpRun w t else none

/-- The delivery of any other event. -/
theorem quiet_processEvent {w : World Dir} {t : Timer EventId} (h : takenAt w t = none)
    (out : Surroundings) :
    Quiet w (processEvent plat out t w).1 (processEvent plat out t w).2 := by
  cases hrunning : w.handler.isRunning with
  | false =>
      rw [processEvent_of_stopped plat hrunning]
      exact quiet_of_eq rfl rfl
  | true =>
      rw [processEvent_of_running plat hrunning]
      cases hevent : t.event with
      | gcEvent =>
          simp only [executeJsFunc, hevent]
          cases w.handler.gcFuncRef with
          | none => exact quiet_of_eq rfl rfl
          | some task => exact quiet_gcTask plat out (t.tick w.now) task w
      | dumpEvent =>
          simp only [executeJsFunc, hevent]
          cases htask : w.handler.dumpFuncRef with
          | none => exact quiet_of_eq rfl rfl
          | some task =>
              cases htakes : takes w with
              | true =>
                  have hsome : takenAt w t = some task := by
                    simp only [takenAt, dumpRun, htakes, hevent, hrunning, htask, if_true]
                  exact absurd (hsome.symm.trans h) (Option.some_ne_none task)
              | false => exact quiet_dumpTask plat htakes out task

-- ── Every step of the watcher ─────────────────────────────────────────────────────

theorem returns_failed : Returns [.failed] := by
  intro e he
  exact Or.inl (List.mem_singleton.mp he)

theorem returns_returned (fileList : List String) : Returns [.returned fileList] := by
  intro e he
  exact Or.inr ⟨fileList, List.mem_singleton.mp he⟩

/-- Two parts that only return do so together. -/
theorem Returns.append {es es' : List DumpEvent} (h : Returns es) (h' : Returns es') :
    Returns (es ++ es') := by
  intro e he
  rw [visible_append] at he
  rcases List.mem_append.mp he with he | he
  · exact h e he
  · exact h' e he

/-- The exception that `dumpInnerSync` catches, with the empty list it returns. -/
theorem returns_caught : Returns [.failed, .returned []] :=
  returns_failed.append (returns_returned [])

/-- `describeSync` returns its list, or fails. -/
theorem returns_describeSync (host : Host Dir) (out : Outside) (session : Session)
    (filePath : String) (needSandBox isRawHeap : Bool) (d : DumpState Dir) :
    Returns (describeSync host out session filePath needSandBox isRawHeap d).2 := by
  have hold : ∀ files, Returns
      (deleteOldFile host out filePath session.settings.maxFileNum files).2.2 := by
    intro files e he
    rw [visible_deleteOldFile] at he
    exact absurd he List.not_mem_nil
  simp only [describeSync]
  split
  · exact returns_caught
  · split
    · exact (hold _).append returns_caught
    · split
      · exact (hold _).append (returns_returned _)
      · exact (hold _).append (returns_returned _)

/-- The whole synchronous dump returns its list, or fails. -/
theorem returns_dumpInnerSync (host : Host Dir) (out : Outside) (session : Session)
    (filePath : String) (needSandBox isRawHeap : Bool) (d : DumpState Dir) :
    Returns (dumpInnerSync host out session filePath needSandBox isRawHeap d).2 := by
  simp only [dumpInnerSync]
  split
  · exact returns_returned []
  · split
    · exact returns_failed
    · split
      · exact returns_caught
      · exact returns_describeSync host out session filePath needSandBox isRawHeap _

/-- The dump that a step takes up. -/
def takenBy (w : World Dir) : Input Dir → Option DumpTask
  | .deliver _ i =>
      match TimerQueue.deliver w.now w.queue i with
      | none => none
      | some (t, _) => takenAt w t
  | _ => none

/-- **Every other step** but the callback of a heap dump. -/
theorem quiet_step {w w' : World Dir} {a : Watcher.Input Dir} {es : List Event}
    (hs : Watcher.step plat w a = some (w', es)) (ht : takenBy w a = none)
    (ha : ∀ out k, a ≠ .dumpDone out k) : Quiet w w' es := by
  cases a with
  | deliver out i =>
      obtain ⟨t, queue, hdeliver, rfl, rfl⟩ := step_deliver hs
      simp only [takenBy, hdeliver] at ht
      have hquiet := quiet_processEvent plat (w := w.withQueue queue) ht out
      exact ⟨hquiet.outstanding, hquiet.returns⟩
  | dumpDone out k => exact absurd rfl (ha out k)
  | dump out filePath =>
      cases filePath with
      | none =>
          obtain ⟨rfl, rfl⟩ := Prod.mk.inj (Option.some.inj hs)
          exact quiet_of_eq rfl rfl
      | some filePath =>
          obtain ⟨rfl, rfl⟩ := Prod.mk.inj (Option.some.inj hs)
          refine ⟨rfl, ?_⟩
          rw [dumpEvents_dump]
          exact returns_dumpInnerSync plat.host out.dump w.session filePath false false w.dump
  | enableLeakWatcher out isEnabled configs callback =>
      obtain ⟨rfl, rfl⟩ := Prod.mk.inj (Option.some.inj hs)
      exact quiet_of_eq (enableLeakWatcher_rounds plat out isEnabled configs callback w).2
        (dumpEvents_other (fun _ => rfl) _)
  | _ =>
      have hquiet := step_quiet hs trivial
      have hevents := hquiet.events (fun _ _ => by simp) (fun _ _ => by simp)
      refine ⟨hquiet.outstanding (fun _ _ => by simp), fun e he => ?_⟩
      exact absurd (mem_dumpEvents.mp (List.mem_filter.mp he).1) (hevents e)

-- ── The dumps, numbered ───────────────────────────────────────────────────────────

/-- The watcher, the number of dumps taken up so far, and those that wait. -/
structure Numbered (Dir : Type) where
  world : World Dir
  taken : Nat := 0
  pending : List (Nat × DumpTask) := []

/-- The dump whose callback runs. -/
def answeredBy (s : Numbered Dir) : Watcher.Input Dir → Option Nat
  | .dumpDone _ k => (s.pending[k]?).map Prod.fst
  | _ => none

/-- The lines of a step with these events. -/
def journal (s : Numbered Dir) (a : Watcher.Input Dir) (es : List Event) :
    List (Entry DumpTask DumpEvent) :=
  match takenBy s.world a with
  | some task => .opened task :: page s.taken (shown es)
  | none =>
      match answeredBy s a with
      | some n => page n (shown es)
      | none => []

/-- The dumps that wait after a step with these events. -/
def pendingAfter (s : Numbered Dir) (a : Watcher.Input Dir) (es : List Event) :
    List (Nat × DumpTask) :=
  match takenBy s.world a with
  | some task =>
      if DumpIdentity.starts (dumpEvents es) then s.pending ++ [(s.taken, task)] else s.pending
  | none =>
      match a with
      | .dumpDone _ k => s.pending.eraseIdx k
      | _ => s.pending

/-- A step of the watcher, with a number for the dump it takes up and a line in the ledger for the
    dump it answers. -/
def next (s : Numbered Dir) (a : Watcher.Input Dir) :
    Option (Numbered Dir × List (Entry DumpTask DumpEvent)) :=
  match Watcher.step plat s.world a with
  | none => none
  | some (w', es) =>
      some ({ world := w'
              taken := s.taken + (takenBy s.world a).toList.length
              pending := pendingAfter s a es }, journal s a es)

variable {plat}

/-- The numbered watcher makes every step of the watcher. -/
theorem next_of_step {s : Numbered Dir} {a : Watcher.Input Dir} {w' : World Dir}
    {es : List Event} (h : Watcher.step plat s.world a = some (w', es)) :
    next plat s a = some ({ world := w'
                            taken := s.taken + (takenBy s.world a).toList.length
                            pending := pendingAfter s a es }, journal s a es) := by
  simp only [next, h]

/-- Every step of the numbered watcher is one of the watcher. -/
theorem step_of_next {s s' : Numbered Dir} {a : Watcher.Input Dir}
    {lines : List (Entry DumpTask DumpEvent)} (h : next plat s a = some (s', lines)) :
    ∃ w' es, Watcher.step plat s.world a = some (w', es)
      ∧ s' = { world := w'
               taken := s.taken + (takenBy s.world a).toList.length
               pending := pendingAfter s a es }
      ∧ lines = journal s a es := by
  cases hstep : Watcher.step plat s.world a with
  | none =>
      simp only [next, hstep] at h
      exact absurd h.symm (Option.some_ne_none _)
  | some p =>
      rw [next_of_step hstep] at h
      obtain ⟨rfl, rfl⟩ := Prod.mk.inj (Option.some.inj h)
      exact ⟨p.1, p.2, rfl, rfl, rfl⟩

end DumpLedger
