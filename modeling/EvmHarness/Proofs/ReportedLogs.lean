import EvmHarness.Report
import EvmHarness.Proofs.CoverageRun
import EvmHarness.Proofs.CreationFixUp
import EvmHarness.Proofs.FreshStart
set_option autoImplicit false

/-!
# The logs of a report

A report shows the logs that the machine holds in the end.  Every transaction starts without logs,
so these are the logs of the transaction that has run last, and of that alone: of the call, where
there is one.  Where making the account fails there is no call, and nothing takes the logs back that
were written before the failure, since the outermost frame rolls nothing back: the report shows
them.
-/

namespace EvmHarness

/-! ## The logs of one transaction -/

namespace Machine

/-- The machine with other logs. -/
def withLogs (m : Machine) (logs : Array Log) : Machine :=
  m.mapWorld fun w => { w with logs := logs }

/-- No transaction can tell which logs the machine holds before it. -/
theorem agreesAtRest_withLogs (m : Machine) (logs : Array Log) :
    (m.withLogs logs).AgreesAtRest m where
  block := rfl
  strict := rfl
  records := by
    intro a
    show Option.Rel _ m.accounts[a]? m.accounts[a]?
    cases m.accounts[a]? with
    | none => exact .none
    | some record => exact .some ⟨rfl, rfl, rfl, rfl, rfl⟩

end Machine

namespace Transaction

/-- The transaction, executed on this machine, comes to this outcome and emits these logs. -/
structure Emits (tx : Transaction) (gasLimit : UInt64) (before : Machine) (outcome : Outcome)
    (logs : List Log) : Prop where
  /-- its run starts with no log and ends with these -/
  ran : ∃ ready, tx.prepare gasLimit before = .ok ready ∧ ready.world.logs = #[] ∧
    ready.run.1 = outcome ∧ ready.run.2.world.logs.toList = logs
  /-- whatever logs are there before, these are there in the end -/
  fresh : ∀ stale : Array Log, ∃ after,
    HarnessM.execute gasLimit tx (before.withLogs stale) = .ok outcome after ∧
      after.world.logs.toList = logs

theorem logs_of_prepare {tx : Transaction} {gasLimit : UInt64} {before ready : Machine}
    (h : tx.prepare gasLimit before = .ok ready) : ready.world.logs = #[] := by
  obtain ⟨_, rfl⟩ := prepare_eq_ok.1 h
  rfl

end Transaction

theorem Outcome.eq_of_verdict {outcome reported : Outcome} (h : outcome.verdict = .ok reported) :
    reported = outcome := by
  cases outcome with
  | success output => exact (Except.ok.inj h).symm
  | failure fault =>
      unfold verdict at h
      cases hf : fault.severity <;> simp only [hf, reduceCtorEq, Except.ok.injEq] at h
      exact h.symm

namespace HarnessM

variable {tx : Transaction} {gasLimit : UInt64} {before ready after : Machine} {outcome : Outcome}

/-- An outcome that is handed out is that of the run. -/
theorem outcome_of_execute (h : tx.prepare gasLimit before = .ok ready)
    (executes : execute gasLimit tx before = .ok outcome after) : outcome = ready.run.1 := by
  obtain ⟨_, _, free⟩ := Machine.run_ends h
  have handed : reported (execute gasLimit tx before) = .ok outcome := by rw [executes]; rfl
  rw [execute_apply, h] at handed
  dsimp only at handed
  cases hout : ready.run.1 with
  | failure fault =>
      rw [hout, reported_conclude_failure] at handed
      exact Outcome.eq_of_verdict handed
  | success code =>
      rw [hout] at handed
      cases isCreate : tx.isCreate with
      | false =>
          rw [reported_conclude_call isCreate] at handed
          exact (Except.ok.inj handed).symm
      | true =>
          rw [reported_conclude_create isCreate code free.account] at handed
          cases hr : ready.run.2.accounts[tx.destination]? with
          | none => simp only [hr, reduceCtorEq] at handed
          | some record =>
              simp only [hr, Except.ok.injEq] at handed
              exact handed.symm

/-- A call, or a creation that fails, emits the logs that it leaves. -/
theorem emits_of_execute (executes : execute gasLimit tx before = .ok outcome after)
    (kind : tx.isCreate = false ∨ outcome.isSuccess = false) :
    tx.Emits gasLimit before outcome after.world.logs.toList := by
  cases h : tx.prepare gasLimit before with
  | error fault =>
      rw [execute_apply, h] at executes
      exact absurd executes nofun
  | ok ready =>
      have ran := outcome_of_execute h executes
      rw [execute_apply, h] at executes
      dsimp only at executes
      have left : after = ready.run.2 := by
        have kept := stateAfter_conclude kind ready.run.2
        rw [ran, executes] at kept
        exact kept
      refine ⟨⟨ready, h, Transaction.logs_of_prepare h, ran.symm, by rw [left]⟩, ?_⟩
      intro stale
      have prepares := (before.agreesAtRest_withLogs stale).prepare tx gasLimit
      refine ⟨after, ?_, rfl⟩
      rw [execute_apply, prepares, h]
      exact executes

end HarnessM

/-! ## The logs of a request -/

theorem exists_of_bind_eq_ok {ε α β : Type} {x : Except ε α} {f : α → Except ε β} {b : β}
    (h : (x >>= f) = .ok b) : ∃ a, x = .ok a ∧ f a = .ok b := by
  cases x with
  | error fault => exact absurd h nofun
  | ok a => exact ⟨a, rfl, h⟩

/-- A bench executes a transaction as the machine on it does, whether or not it records coverage. -/
theorem Bench.execute_eq (b : Bench) (gasLimit : UInt64) (tx : Transaction) :
    ∃ coverage, b.execute gasLimit tx =
      match HarnessM.execute gasLimit tx b.machine with
      | .ok outcome m => .ok (outcome, ⟨m, coverage⟩)
      | .error fault _ => .error (.transaction fault) := by
  obtain ⟨visited, _, covers⟩ := HarnessM.exists_covered gasLimit tx b.machine
  obtain ⟨machine, coverage⟩ := b
  cases coverage with
  | none => exact ⟨none, rfl⟩
  | some c =>
      refine ⟨some (c.addAll (visited.map Coverage.pointOf)), ?_⟩
      rw [execute]
      dsimp only
      rw [covers]
      cases HarnessM.execute gasLimit tx machine <;> rfl

theorem Bench.execute_eq_ok {b after : Bench} {gasLimit : UInt64} {tx : Transaction}
    {outcome : Outcome} (h : b.execute gasLimit tx = .ok (outcome, after)) :
    HarnessM.execute gasLimit tx b.machine = .ok outcome after.machine := by
  obtain ⟨coverage, heq⟩ := b.execute_eq gasLimit tx
  rw [heq] at h
  split at h
  · rename_i o m run
    obtain ⟨rfl, rfl⟩ := Prod.mk.inj (Except.ok.inj h)
    exact run
  · exact absurd h nofun

namespace Execution

/-- The machine that the call is made on, beside what is reported of the deployment: the code is put
in place, or making the account has succeeded and left the machine so. -/
inductive CallsOn (e : Execution) : Option Outcome → Machine → Prop where
  | installed (h : e.create = false) : CallsOn e none (e.bench.install e.target e.code).machine
  | deployed {output : ByteArray} {after : Machine} (h : e.create = true)
      (succeeds : HarnessM.execute e.gasLimit e.deployment e.bench.machine =
        .ok (.success output) after) :
      CallsOn e (some (.success output)) after

/-- What the logs of a report are: those that the call emits, or, where there is no call, those that
the failing deployment emits. -/
structure ShowsLogs (e : Execution) (report : Report) : Prop where
  call : ∀ outcome, report.call = some outcome → ∃ before, e.CallsOn report.deployment before ∧
    e.call.Emits e.gasLimit before outcome report.logs
  noCall : report.call = none → e.create = true ∧ ∃ fault,
    report.deployment = some (.failure fault) ∧
      e.deployment.Emits e.gasLimit e.bench.machine (.failure fault) report.logs

variable {e : Execution} {report : Report}

theorem showsLogs_of_runCall {b : Bench} {deployment : Option Outcome}
    (made : e.CallsOn deployment b.machine) (h : e.runCall b deployment = .ok report) :
    e.ShowsLogs report := by
  obtain ⟨⟨outcome, after⟩, called, h⟩ := exists_of_bind_eq_ok h
  obtain rfl := Except.ok.inj h
  have emits := HarnessM.emits_of_execute (Bench.execute_eq_ok called) (.inl rfl)
  refine ⟨?_, nofun⟩
  rintro _ ⟨⟩
  exact ⟨b.machine, made, emits⟩

theorem showsLogs_of_run (h : e.run = .ok report) : e.ShowsLogs report := by
  unfold run at h
  cases create : e.create with
  | false =>
      rw [create] at h
      exact showsLogs_of_runCall (.installed create) h
  | true =>
      rw [create] at h
      obtain ⟨⟨outcome, after⟩, deployed, h⟩ := exists_of_bind_eq_ok h
      have executes := Bench.execute_eq_ok deployed
      cases outcome with
      | success output => exact showsLogs_of_runCall (.deployed create executes) h
      | failure fault =>
          obtain rfl := Except.ok.inj h
          have emits := HarnessM.emits_of_execute executes (.inr rfl)
          exact ⟨nofun, fun _ => ⟨create, fault, rfl, emits⟩⟩

end Execution

namespace ExecRequest

/-- Where the call is made, a report shows the logs that the call emits and no others, whatever came
of the deployment before it.  Where it is not made, the deployment has failed, and the report shows
the logs that the deployment emits before it fails. -/
theorem logs_of_last_transaction {r : ExecRequest} {s : Settings} {report : Report}
    (h : r.report s = .ok report) : ∃ e, r.read s = .ok e ∧ e.ShowsLogs report := by
  obtain ⟨e, read, ran⟩ := exists_of_bind_eq_ok h
  exact ⟨e, read, Execution.showsLogs_of_run ran⟩

theorem exists_report {r : ExecRequest} {s : Settings} {deployment call : Option Outcome}
    {logs : List Log}
    (h : (r.report s).map (fun report => (report.deployment, report.call, report.logs)) =
      .ok (deployment, call, logs)) :
    ∃ report, r.report s = .ok report ∧ report.deployment = deployment ∧ report.call = call ∧
      report.logs = logs := by
  cases hr : r.report s with
  | error fault =>
      rw [hr] at h
      exact absurd h nofun
  | ok report =>
      rw [hr] at h
      simp only [Except.map, Except.ok.injEq, Prod.mk.injEq] at h
      exact ⟨report, rfl, h⟩

/-- Code that writes a log and makes an account whose own code writes another. -/
def announcing : ExecRequest :=
  { code := "0x5f5fa06460015f5fa15f526005601bf3", create := true, gas := some 100000 }

/-- The address at which code is executed where the request names none. -/
def usualTarget : Address := 0x00a329c0648769a73afac7f9381e08fb43dbea72

/-- Of the two logs the report shows the one of the call. -/
theorem announcing_shows_call : ∃ report e, announcing.report Settings.initial = .ok report ∧
    announcing.read Settings.initial = .ok e ∧ e.ShowsLogs report ∧
      report.deployment = some (.success ⟨#[0x60, 1, 0x5f, 0x5f, 0xa1]⟩) ∧
      report.call = some (.success ByteArray.empty) ∧
      report.logs = [⟨usualTarget, [1], ByteArray.empty⟩] := by
  have shown : (announcing.report Settings.initial).map
      (fun report => (report.deployment, report.call, report.logs)) =
        .ok (some (.success ⟨#[0x60, 1, 0x5f, 0x5f, 0xa1]⟩), some (.success ByteArray.empty),
          [⟨usualTarget, [1], ByteArray.empty⟩]) := by
    decide +kernel
  obtain ⟨report, h, told⟩ := exists_report shown
  obtain ⟨e, read, shows⟩ := logs_of_last_transaction h
  exact ⟨report, e, h, read, shows, told⟩

/-- Code that writes a log and takes everything back. -/
def recanting : ExecRequest := { code := "0x5f5fa05f5ffd", create := true, gas := some 100000 }

/-- No call is made, and yet the report shows a log, that of the deployment. -/
theorem recanting_shows_deployment : ∃ report, recanting.report Settings.initial = .ok report ∧
    report.deployment = some (.failure (.reverted ByteArray.empty)) ∧ report.call = none ∧
      report.logs = [⟨usualTarget, [], ByteArray.empty⟩] := by
  apply exists_report
  decide +kernel

end ExecRequest

end EvmHarness
