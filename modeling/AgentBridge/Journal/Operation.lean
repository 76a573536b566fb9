import AgentBridge.Paths

/-!
# Rows of the integration journal

The columns of `integration_operations` that ownership and the status machine
read. The evidence recorded for each file belongs to the recovery model.
-/

namespace AgentBridge

/-- The `status` column; `other` is any text this version does not know. -/
inductive OperationStatus where
  | prepared | applying | appliedUnvalidated | validating | validated
  | rollingBack | recovering | quarantined
  | committed | rolledBack | recoveredNoop | recoveredVerified | resolvedByOperator
  | other (text : String)
  deriving DecidableEq

/-- `INTEGRATION_RESOLVED_STATUSES` -/
def OperationStatus.resolved : OperationStatus → Bool
  | .committed | .rolledBack | .recoveredNoop | .recoveredVerified | .resolvedByOperator => true
  | _ => false

structure IntegrationOperation where
  operationId : String
  cwd : Directory
  ownerInstanceId : String
  ownerGeneration : String
  revision : Nat
  status : OperationStatus
  resultJson : String
  updatedAt : Nat
  finishedAt : Option Nat
  deriving DecidableEq

end AgentBridge
