import Mathlib.Data.List.Basic

/-!
# Dtle.Applier.Lifecycle

The start and the end of an `ApplierOracle` as a system of tasks that interleave: `Run`, which
opens the applier's connections one call at a time; `onError`, entered by `Run` itself and by
the tasks that fail on their own goroutines (the `_incr_hete` callback, the `DstPutNats` error
callback, the goroutine running `a.ai.Run`); the supervisor's `Shutdown`; and the extractor,
which sends `_incr_hete` segments once `DstPutNats` has published the applier's address.

`onError` reads `a.shutdown` without the lock, publishes on `_control2`, sends an `ExitResult`
on `waitCh` and calls `Shutdown`, each a step of its own. `Shutdown` tests and sets
`a.shutdown` under `shutdownLock` and closes what is open at that moment, in one step.

`step` is executable; a run is a list of `Action`s and `exec` plays it from `init`.

A final segment dereferences the nil `a.ai` exactly while `Run` is not past
`NewApplierOracleIncr` (`deliverFinal_before_ai_panics`). Once `a.shutdown` is set nothing is
closed any more, so what `Run` opens then stays open (`exec_after_shutdown_closes_nothing`); a
`Shutdown` that takes effect once `Run` is past its last call closes the applier for good
(`shutdown_after_run_closes_for_good`).
-/

namespace Dtle
namespace Applier

/-- A connection, subscription, registration or goroutine of the applier. -/
inductive Res where
  | unopened | live | closed
  deriving DecidableEq, Repr

/-- What `Shutdown` does to a resource. -/
def Res.close : Res → Res
  | .live => .closed
  | r => r

/-- `Run`'s next call. -/
inductive RunPc where
  | checkJobFinish | initNatSubClient | subscribeNats | dstPutNats | initDB | createConns
  | validate | newApplierOracleIncr | startAiRun | done
  deriving DecidableEq, Repr

/-- `onError`'s next step. -/
inductive OnErrorPc where
  | check | publish | send | shutdown | done
  deriving DecidableEq, Repr

/-- The tasks that call `onError` on a goroutine of their own. -/
inductive Reporter where
  | incrCallback | dstPutNatsCallback | aiRun
  deriving DecidableEq, Repr

/-- How a call of `Run` comes back: success, an error, or (`GetJobStatus` only) the job status
`TargetGtidFinished`. -/
inductive Outcome where
  | ok | err | targetGtidFinished
  deriving DecidableEq, Repr

/-- The applier's state. `waitCh` has one entry per `ExitResult` sent, recording whether
`a.shutdown` was set when it was sent. -/
structure ApplierOracle where
  runPc : RunPc
  runOnError : Option OnErrorPc
  errTasks : List OnErrorPc
  shutdown : Bool
  natsConn : Res
  subscription : Res
  natsAddr : Res
  db : Res
  dbs : Res
  ai : Bool
  aiRun : Res
  aiReported : Bool
  waitCh : List Bool
  panicked : Bool
  deriving DecidableEq, Repr

/-- `NewApplierOracle`: nothing open, `Run` about to call `checkJobFinish`. -/
def init : ApplierOracle :=
  ⟨.checkJobFinish, none, [], false, .unopened, .unopened, .unopened, .unopened, .unopened, false,
    .unopened, false, [], false⟩

namespace ApplierOracle

/-- `Shutdown()`: a no-op once `a.shutdown` is set; otherwise close the NATS connection (and
with it the subscription), set `a.shutdown`, close `shutdownCh` (ending the `DstPutNats`
registration and `a.ai.Run`), and close the DB pool and the worker connections. -/
def callShutdown (s : ApplierOracle) : ApplierOracle :=
  if s.shutdown then s
  else
    { s with
      shutdown := true
      natsConn := s.natsConn.close
      subscription := s.subscription.close
      natsAddr := s.natsAddr.close
      db := s.db.close
      dbs := s.dbs.close
      aiRun := s.aiRun.close }

end ApplierOracle

/-- One step of `onError`, and where it goes next. -/
def onErrorStep (s : ApplierOracle) : OnErrorPc → ApplierOracle × OnErrorPc
  | .check => (s, if s.shutdown then .done else .publish)
  | .publish => (s, .send)
  | .send => ({ s with waitCh := s.waitCh ++ [s.shutdown] }, .shutdown)
  | .shutdown => (s.callShutdown, .done)
  | .done => (s, .done)

/-- `Run` fails at its current call: `onError(TaskStateDead, err)`, then `return`. -/
def runFails (s : ApplierOracle) : ApplierOracle := { s with runPc := .done, runOnError := some .check }

/-- One call of `Run`, or one step of the `onError` it is in. The last call, `go a.ai.Run()`,
only starts the goroutine and cannot fail. -/
def runStep (s : ApplierOracle) (r : Outcome) : Option ApplierOracle :=
  match s.runOnError, s.runPc, r with
  | some pc, _, .ok =>
    let (s, pc) := onErrorStep s pc
    some { s with runOnError := if pc = .done then none else some pc }
  | some _, _, _ => none
  | none, .checkJobFinish, .ok => some { s with runPc := .initNatSubClient }
  | none, .checkJobFinish, .err =>
    some { s with runPc := .initNatSubClient, runOnError := some .check }
  | none, .checkJobFinish, .targetGtidFinished => some { s.callShutdown with runPc := .initNatSubClient }
  | none, .initNatSubClient, .ok => some { s with natsConn := .live, runPc := .subscribeNats }
  | none, .subscribeNats, .ok => some { s with subscription := .live, runPc := .dstPutNats }
  | none, .dstPutNats, .ok => some { s with natsAddr := .live, runPc := .initDB }
  | none, .initDB, .ok => some { s with db := .live, runPc := .createConns }
  | none, .createConns, .ok => some { s with dbs := .live, runPc := .validate }
  | none, .validate, .ok => some { s with runPc := .newApplierOracleIncr }
  | none, .newApplierOracleIncr, .ok => some { s with ai := true, runPc := .startAiRun }
  | none, .startAiRun, .ok => some { s with aiRun := .live, runPc := .done }
  | none, .startAiRun, _ => none
  | none, .done, _ => none
  | none, _, .err => some (runFails s)
  | none, _, .targetGtidFinished => none

/-- Whether a task can call `onError` now: the callback while subscribed, the `DstPutNats`
callback once registered, the `a.ai.Run` goroutine once, after it was started. -/
def Reporter.canReport (s : ApplierOracle) : Reporter → Bool
  | .incrCallback => s.subscription = .live
  | .dstPutNatsCallback => s.natsAddr = .live
  | .aiRun => s.aiRun ≠ .unopened && !s.aiReported

/-- The events of a run. -/
inductive Action where
  /-- `Run`'s next call comes back with this outcome. -/
  | run (r : Outcome)
  /-- A task calls `onError` on its own goroutine. -/
  | report (t : Reporter)
  /-- The `i`-th of those `onError` calls takes a step. -/
  | errStep (i : Nat)
  /-- The supervisor calls `Shutdown`. -/
  | shutdown
  /-- A final `_incr_hete` segment reaches the callback's send into `a.ai.incrBytesQueue`. -/
  | deliverFinal
  deriving DecidableEq, Repr

/-- One event, if it can happen now. A panic ends the process. -/
def step (s : ApplierOracle) (a : Action) : Option ApplierOracle :=
  if s.panicked then none
  else match a with
  | .run r => runStep s r
  | .report t =>
    if t.canReport s then
      some { s with errTasks := s.errTasks ++ [.check], aiReported := s.aiReported || t == .aiRun }
    else none
  | .errStep i =>
    match s.errTasks.get? i with
    | none | some .done => none
    | some pc =>
      let (s', pc) := onErrorStep s pc
      some { s' with errTasks := s.errTasks.set i pc }
  | .shutdown => some s.callShutdown
  | .deliverFinal =>
    if s.subscription = .live ∧ s.natsAddr = .live then
      some (if s.ai then s else { s with panicked := true })
    else none

def exec : ApplierOracle → List Action → Option ApplierOracle
  | s, [] => some s
  | s, a :: as => (step s a).bind (exec · as)

/-- A state some run reaches from `init`. -/
def Reachable (s : ApplierOracle) : Prop := ∃ as, exec init as = some s

theorem exec_invariant {P : ApplierOracle → Prop}
    (hstep : ∀ s a s', P s → step s a = some s' → P s') :
    ∀ as s s', P s → exec s as = some s' → P s'
  | [], s, s', hs, h => by cases h; exact hs
  | a :: as, s, s', hs, h => by
    simp only [exec, Option.bind_eq_some] at h
    obtain ⟨s1, h1, h2⟩ := h
    exact exec_invariant hstep as s1 s' (hstep s a s1 hs h1) h2

theorem reachable_invariant {P : ApplierOracle → Prop} (h0 : P init)
    (hstep : ∀ s a s', P s → step s a = some s' → P s') {s : ApplierOracle} (hs : Reachable s) :
    P s := by
  obtain ⟨as, h⟩ := hs
  exact exec_invariant hstep as init s h0 h

@[simp] theorem Res.close_ne_live (r : Res) : r.close ≠ .live := by cases r <;> simp [Res.close]

namespace ApplierOracle

@[simp] theorem callShutdown_shutdown (s : ApplierOracle) : s.callShutdown.shutdown = true := by
  unfold callShutdown; split_ifs <;> simp_all

@[simp] theorem callShutdown_of_shutdown {s : ApplierOracle} (h : s.shutdown = true) :
    s.callShutdown = s := by simp [callShutdown, h]

@[simp] theorem callShutdown_ai (s : ApplierOracle) : s.callShutdown.ai = s.ai := by
  unfold callShutdown; split_ifs <;> rfl

@[simp] theorem callShutdown_runPc (s : ApplierOracle) : s.callShutdown.runPc = s.runPc := by
  unfold callShutdown; split_ifs <;> rfl

@[simp] theorem callShutdown_waitCh (s : ApplierOracle) : s.callShutdown.waitCh = s.waitCh := by
  unfold callShutdown; split_ifs <;> rfl

@[simp] theorem callShutdown_runOnError (s : ApplierOracle) :
    s.callShutdown.runOnError = s.runOnError := by
  unfold callShutdown; split_ifs <;> rfl

@[simp] theorem callShutdown_errTasks (s : ApplierOracle) :
    s.callShutdown.errTasks = s.errTasks := by
  unfold callShutdown; split_ifs <;> rfl

theorem callShutdown_closes {s : ApplierOracle} (h : s.shutdown = false) :
    s.callShutdown.natsConn ≠ .live ∧ s.callShutdown.subscription ≠ .live ∧
      s.callShutdown.natsAddr ≠ .live ∧ s.callShutdown.db ≠ .live ∧ s.callShutdown.dbs ≠ .live ∧
      s.callShutdown.aiRun ≠ .live := by
  simp [callShutdown, h]

end ApplierOracle

@[simp] theorem onErrorStep_ai (s : ApplierOracle) (pc : OnErrorPc) :
    (onErrorStep s pc).1.ai = s.ai := by cases pc <;> simp [onErrorStep]

@[simp] theorem onErrorStep_runPc (s : ApplierOracle) (pc : OnErrorPc) :
    (onErrorStep s pc).1.runPc = s.runPc := by cases pc <;> simp [onErrorStep]

/-! ## A final segment before `a.ai` is assigned -/

@[simp] theorem Res.close_eq_unopened (r : Res) : r.close = .unopened ↔ r = .unopened := by
  cases r <;> simp [Res.close]

@[simp] theorem ApplierOracle.callShutdown_aiRun_eq_unopened (s : ApplierOracle) :
    s.callShutdown.aiRun = .unopened ↔ s.aiRun = .unopened := by
  unfold ApplierOracle.callShutdown; split_ifs <;> simp

@[simp] theorem onErrorStep_aiRun_eq_unopened (s : ApplierOracle) (pc : OnErrorPc) :
    (onErrorStep s pc).1.aiRun = .unopened ↔ s.aiRun = .unopened := by
  cases pc <;> simp [onErrorStep]

/-- `a.ai` is assigned exactly when `Run` is past `NewApplierOracleIncr`: about to start
`a.ai.Run`, or having started it. -/
def AiAssigned (s : ApplierOracle) : Prop :=
  s.ai = true ↔ s.runPc = .startAiRun ∨ s.aiRun ≠ .unopened

theorem runStep_aiAssigned {s s' : ApplierOracle} {r : Outcome} (hs : AiAssigned s)
    (h : runStep s r = some s') : AiAssigned s' := by
  unfold AiAssigned at hs ⊢
  rcases hro : s.runOnError with _ | pc
  · rcases hpc : s.runPc <;> cases r <;>
      simp only [runStep, hro, hpc, runFails, reduceCtorEq, Option.some.injEq] at h <;>
      subst h <;> simp only [hpc] at hs <;> simp [hs]
  · cases r <;> simp only [runStep, hro, reduceCtorEq, Option.some.injEq] at h
    subst h; simpa using hs

theorem step_aiAssigned {s s' : ApplierOracle} {a : Action} (hs : AiAssigned s)
    (h : step s a = some s') : AiAssigned s' := by
  cases a with
  | run r => simp only [step] at h; split_ifs at h; exact runStep_aiAssigned hs h
  | report t => simp only [step] at h; split_ifs at h; cases h; exact hs
  | errStep i =>
    simp only [step] at h
    split_ifs at h
    split at h
    · cases h
    · cases h
    · cases h; simpa [AiAssigned] using hs
  | shutdown => simp only [step] at h; split_ifs at h; cases h; simpa [AiAssigned] using hs
  | deliverFinal => simp only [step] at h; split_ifs at h <;> cases h <;> exact hs

/-- In every run, a final segment that reaches the callback while it is subscribed and the
address is published dereferences the nil `a.ai` exactly when `Run` is not past
`NewApplierOracleIncr`, also once `Run` has failed at an earlier call; otherwise it is handed to
`a.ai`. -/
theorem deliverFinal_before_ai_panics {s : ApplierOracle} (hs : Reachable s)
    (hp : s.panicked = false) (hsub : s.subscription = .live) (haddr : s.natsAddr = .live) :
    (step s .deliverFinal = some { s with panicked := true } ↔
        s.runPc ≠ .startAiRun ∧ s.aiRun = .unopened) ∧
      (s.runPc = .startAiRun ∨ s.aiRun ≠ .unopened → step s .deliverFinal = some s) := by
  have hai : AiAssigned s :=
    reachable_invariant (by simp [AiAssigned, init]) (fun _ _ _ => step_aiAssigned) hs
  have hstep : step s .deliverFinal = some (if s.ai then s else { s with panicked := true }) := by
    simp [step, hp, hsub, haddr]
  unfold AiAssigned at hai
  cases h : s.ai
  · have hlate : s.runPc ≠ .startAiRun ∧ s.aiRun = .unopened := by simpa [h] using hai
    simp [hstep, h, hlate]
  · have hne : s ≠ { s with panicked := true } := fun he => by
      simpa [hp] using congrArg ApplierOracle.panicked he
    refine ⟨iff_of_false (by simpa [hstep, h] using hne) ?_, fun _ => by simp [hstep, h]⟩
    rintro ⟨h1, h2⟩
    rcases hai.mp h with h3 | h3 <;> contradiction

theorem deliverFinal_before_ai_panics_after_run_fails :
    let s : ApplierOracle := ⟨.done, some .check, [], false, .live, .live, .live, .unopened,
      .unopened, false, .unopened, false, [], false⟩
    exec init [.run .ok, .run .ok, .run .ok, .run .ok, .run .err] = some s ∧
      (step s .deliverFinal = some { s with panicked := true } ↔
          s.runPc ≠ .startAiRun ∧ s.aiRun = .unopened) ∧
        (s.runPc = .startAiRun ∨ s.aiRun ≠ .unopened → step s .deliverFinal = some s) :=
  ⟨rfl, deliverFinal_before_ai_panics ⟨[.run .ok, .run .ok, .run .ok, .run .ok, .run .err], rfl⟩
    rfl rfl rfl⟩

/-- `Run` gets through `InitDB` (the DB pool is open, `a.ai` still nil) and the extractor's
first message arrives whole: the callback dereferences the nil `a.ai`. -/
theorem final_segment_during_initDBConnections_panics :
    (exec init [.run .ok, .run .ok, .run .ok, .run .ok, .run .ok, .deliverFinal]).map
      (fun s => (s.db, s.ai, s.panicked)) = some (.live, false, true) := by
  decide

/-! ## `ExitResult`s on `waitCh` -/

/-- `a.shutdown` is set and no `onError` is between its read of the flag and its send. -/
def Settled (s : ApplierOracle) : Prop :=
  s.shutdown = true ∧ (∀ pc, s.runOnError = some pc → pc ≠ .publish ∧ pc ≠ .send) ∧
    ∀ pc ∈ s.errTasks, pc ≠ .publish ∧ pc ≠ .send

theorem onErrorStep_settled {s : ApplierOracle} {pc : OnErrorPc} (hs : s.shutdown = true)
    (hpc : pc ≠ .publish ∧ pc ≠ .send) : onErrorStep s pc = (s, .done) := by
  cases pc <;> simp_all [onErrorStep]

theorem runStep_settled {s s' : ApplierOracle} {r : Outcome} (hs : Settled s)
    (h : runStep s r = some s') : Settled s' ∧ s'.waitCh = s.waitCh := by
  obtain ⟨hsd, hro, hts⟩ := hs
  rcases hro' : s.runOnError with _ | pc
  · rcases hpc : s.runPc <;> cases r <;> simp [runStep, hro', hpc, runFails] at h <;>
      subst h <;> simp_all [Settled]
  · cases r <;> simp [runStep, hro'] at h
    rw [onErrorStep_settled hsd (hro pc hro')] at h
    subst h; simp_all [Settled]

theorem step_settled {s s' : ApplierOracle} {a : Action} (hs : Settled s)
    (h : step s a = some s') : Settled s' ∧ s'.waitCh = s.waitCh := by
  cases a with
  | run r => simp only [step] at h; split_ifs at h; exact runStep_settled hs h
  | report t =>
    simp only [step] at h; split_ifs at h; cases h
    obtain ⟨h1, h2, h3⟩ := hs
    refine ⟨⟨h1, h2, ?_⟩, rfl⟩
    simp only [List.mem_append, List.mem_singleton]
    rintro pc (hpc | rfl)
    · exact h3 pc hpc
    · simp
  | errStep i =>
    simp only [step] at h
    split_ifs at h
    split at h
    · cases h
    · cases h
    · rename_i pc _ hget
      have hpc := hs.2.2 pc (List.get?_mem hget)
      rw [onErrorStep_settled hs.1 hpc] at h
      cases h
      refine ⟨⟨hs.1, hs.2.1, fun q hq => ?_⟩, rfl⟩
      rcases List.mem_or_eq_of_mem_set hq with hq | rfl
      · exact hs.2.2 q hq
      · simp
  | shutdown => simp only [step] at h; split_ifs at h; cases h; simp [hs.1, hs]
  | deliverFinal =>
    simp only [step] at h; split_ifs at h <;> cases h
    · exact ⟨hs, rfl⟩
    · exact ⟨hs, rfl⟩

/-- From a settled state, no run sends another `ExitResult`. -/
theorem exec_settled_sends_nothing {s s' : ApplierOracle} {as : List Action} (hs : Settled s)
    (h : exec s as = some s') : s'.waitCh = s.waitCh := by
  induction as generalizing s with
  | nil => cases h; rfl
  | cons a as ih =>
    simp only [exec, Option.bind_eq_some] at h
    obtain ⟨s1, h1, h2⟩ := h
    obtain ⟨hs1, hw⟩ := step_settled hs h1
    rw [ih hs1 h2, hw]

theorem exec_settled_sends_nothing_after_getJobStatus_error :
    let s : ApplierOracle := ⟨.initNatSubClient, none, [], true, .unopened, .unopened, .unopened,
      .unopened, .unopened, false, .unopened, false, [false], false⟩
    let s' : ApplierOracle := ⟨.done, some .check, [.done], true, .live, .live, .live, .unopened,
      .unopened, false, .unopened, false, [false], false⟩
    exec init [.run .err, .run .ok, .run .ok, .run .ok, .run .ok] = some s ∧
      exec s [.run .ok, .run .ok, .report .incrCallback, .errStep 0, .run .ok, .run .err] =
        some s' ∧ s'.waitCh = s.waitCh := by
  intro s s'
  have h : exec s [.run .ok, .run .ok, .report .incrCallback, .errStep 0, .run .ok, .run .err] =
      some s' := by decide
  exact ⟨by decide, h, exec_settled_sends_nothing ⟨rfl, nofun, nofun⟩ h⟩

/-- `Run` succeeds throughout; then the `a.ai.Run` goroutine and the `DstPutNats` callback fail
at once. Both `onError`s read `a.shutdown` unset, the first sends and shuts the applier down,
the second sends after it: two `ExitResult`s, the second with `a.shutdown` set. -/
theorem two_onErrors_send_twice :
    (exec init (List.replicate 9 (.run .ok) ++ [.report .aiRun, .report .dstPutNatsCallback,
      .errStep 0, .errStep 1, .errStep 0, .errStep 0, .errStep 0, .errStep 1, .errStep 1])).map
      (·.waitCh) = some [false, true] := by
  decide

/-! ## What `Run` opens after `Shutdown` -/

/-- A resource from one state to a later one: as it was, or opened. -/
def Res.Kept (r r' : Res) : Prop := r' = r ∨ r' = .live

theorem Res.Kept.trans {r r' r'' : Res} (h : r.Kept r') (h' : r'.Kept r'') : r.Kept r'' := by
  rcases h' with rfl | rfl
  exacts [h, .inr rfl]

/-- The NATS connection, the subscription, the address registration, the DB pool, the worker
connections and the `a.ai.Run` goroutine. -/
def resources : List (ApplierOracle → Res) :=
  [(·.natsConn), (·.subscription), (·.natsAddr), (·.db), (·.dbs), (·.aiRun)]

theorem resources_kept {s s' : ApplierOracle}
    (h : s.natsConn.Kept s'.natsConn ∧ s.subscription.Kept s'.subscription ∧
      s.natsAddr.Kept s'.natsAddr ∧ s.db.Kept s'.db ∧ s.dbs.Kept s'.dbs ∧
      s.aiRun.Kept s'.aiRun) :
    ∀ res ∈ resources, (res s).Kept (res s') := by
  simpa [resources] using h

theorem onErrorStep_kept {s : ApplierOracle} (hs : s.shutdown = true) (pc : OnErrorPc) :
    (onErrorStep s pc).1.shutdown = true ∧ (s.natsConn.Kept (onErrorStep s pc).1.natsConn ∧
      s.subscription.Kept (onErrorStep s pc).1.subscription ∧
      s.natsAddr.Kept (onErrorStep s pc).1.natsAddr ∧ s.db.Kept (onErrorStep s pc).1.db ∧
      s.dbs.Kept (onErrorStep s pc).1.dbs ∧ s.aiRun.Kept (onErrorStep s pc).1.aiRun) := by
  cases pc <;> simp [onErrorStep, Res.Kept, hs]

theorem runStep_kept {s s' : ApplierOracle} {r : Outcome} (hs : s.shutdown = true)
    (h : runStep s r = some s') :
    s'.shutdown = true ∧ ∀ res ∈ resources, (res s).Kept (res s') := by
  rcases hro : s.runOnError with _ | pc
  · rcases hpc : s.runPc <;> cases r <;>
      simp only [runStep, hro, hpc, runFails, hs, reduceCtorEq, Option.some.injEq,
        ApplierOracle.callShutdown_of_shutdown] at h <;>
      subst h <;> exact ⟨by simp [hs], resources_kept (by simp [Res.Kept, hs])⟩
  · cases r <;> simp only [runStep, hro, reduceCtorEq, Option.some.injEq] at h
    subst h
    exact (onErrorStep_kept hs pc).imp_right resources_kept

/-- With `a.shutdown` set, no step closes anything: `Shutdown` is a no-op and `Run` only opens. -/
theorem step_kept {s s' : ApplierOracle} {a : Action} (hs : s.shutdown = true)
    (h : step s a = some s') :
    s'.shutdown = true ∧ ∀ res ∈ resources, (res s).Kept (res s') := by
  cases a with
  | run r => simp only [step] at h; split_ifs at h; exact runStep_kept hs h
  | report t =>
    simp only [step] at h; split_ifs at h; cases h
    exact ⟨hs, resources_kept (by simp [Res.Kept])⟩
  | errStep i =>
    simp only [step] at h
    split_ifs at h
    split at h
    · cases h
    · cases h
    · rename_i pc _ _
      cases h
      exact (onErrorStep_kept hs pc).imp_right resources_kept
  | shutdown =>
    simp only [step] at h; split_ifs at h; cases h
    rw [ApplierOracle.callShutdown_of_shutdown hs]; exact ⟨hs, fun _ _ => .inl rfl⟩
  | deliverFinal =>
    simp only [step] at h
    split_ifs at h <;> cases h <;> exact ⟨hs, resources_kept (by simp [Res.Kept])⟩

/-- `GetJobStatus` reports `TargetGtidFinished`: `checkJobFinish` shuts the applier down and
`Run` carries on, opening the NATS connection, the subscription, the address registration, the
DB pool and the worker connections and starting `a.ai.Run`, with `a.shutdown` already set, so
no `Shutdown` ever closes them. -/
theorem run_after_job_finished_leaks :
    exec init (.run .targetGtidFinished :: List.replicate 8 (.run .ok)) =
      some { init with runPc := .done, shutdown := true, natsConn := .live, subscription := .live,
                       natsAddr := .live, db := .live, dbs := .live, ai := true, aiRun := .live } := by
  decide

/-! ## `Shutdown` once `Run` has returned -/

/-- `a.shutdown` is set, `Run` is past its last call, and nothing is open. -/
def Closed (s : ApplierOracle) : Prop :=
  s.shutdown = true ∧ s.runPc = .done ∧ s.natsConn ≠ .live ∧ s.subscription ≠ .live ∧
    s.natsAddr ≠ .live ∧ s.db ≠ .live ∧ s.dbs ≠ .live ∧ s.aiRun ≠ .live

theorem Closed.onErrorStep {s : ApplierOracle} (hs : Closed s) (pc : OnErrorPc) :
    Closed (onErrorStep s pc).1 := by
  cases pc <;> simp_all [Closed, Applier.onErrorStep]

theorem runStep_closed {s s' : ApplierOracle} {r : Outcome} (hs : Closed s)
    (h : runStep s r = some s') : Closed s' := by
  rcases hro : s.runOnError with _ | pc
  · simp [runStep, hro, hs.2.1] at h
  · cases r <;> simp only [runStep, hro, reduceCtorEq, Option.some.injEq] at h
    subst h
    have := hs.onErrorStep pc
    simp_all [Closed]

theorem step_closed {s s' : ApplierOracle} {a : Action} (hs : Closed s)
    (h : step s a = some s') : Closed s' := by
  cases a with
  | run r => simp only [step] at h; split_ifs at h; exact runStep_closed hs h
  | report t => simp only [step] at h; split_ifs at h; cases h; simp_all [Closed]
  | errStep i =>
    simp only [step] at h
    split_ifs at h
    split at h
    · cases h
    · cases h
    · rename_i pc _ _
      cases h
      have := hs.onErrorStep pc
      simp_all [Closed]
  | shutdown => simp only [step] at h; split_ifs at h; cases h; simp [hs.1, hs]
  | deliverFinal => simp only [step] at h; split_ifs at h <;> simp_all [Closed]

/-- `Shutdown` taking effect after `Run`'s last call closes the applier for good: whatever the
tasks do next, in any interleaving, no connection, subscription, registration or goroutine is
open again. -/
theorem shutdown_after_run_closes_for_good {s s' : ApplierOracle} (hrun : s.runPc = .done)
    (hsd : s.shutdown = false) {as : List Action} (h : exec s (.shutdown :: as) = some s') :
    Closed s' := by
  simp only [exec, step, Option.bind_eq_some] at h
  obtain ⟨s1, h1, h2⟩ := h
  split_ifs at h1
  cases h1
  obtain ⟨c1, c2, c3, c4, c5, c6⟩ := ApplierOracle.callShutdown_closes hsd
  exact exec_invariant (fun _ _ _ => step_closed) as _ _
    ⟨by simp, by simp [hrun], c1, c2, c3, c4, c5, c6⟩ h2

theorem shutdown_after_run_closes_for_good_ai_fails :
    let s : ApplierOracle :=
      ⟨.done, none, [], false, .live, .live, .live, .live, .live, true, .live, false, [], false⟩
    let s' : ApplierOracle := ⟨.done, none, [.done], true, .closed, .closed, .closed, .closed,
      .closed, true, .closed, true, [], false⟩
    exec init (List.replicate 9 (.run .ok)) = some s ∧ s.runPc = .done ∧ s.shutdown = false ∧
      exec s [.shutdown, .report .aiRun, .errStep 0] = some s' ∧ Closed s' := by
  intro s s'
  have h : exec s [.shutdown, .report .aiRun, .errStep 0] = some s' := by decide
  exact ⟨by decide, rfl, rfl, h, shutdown_after_run_closes_for_good rfl rfl h⟩

end Applier
end Dtle
