import Tmis.AiGovernance.HumanValidation

/-!
# Conflict resolution

`integration_hub.conflict_resolution`: what becomes of a record whose local copy differs from the one
just read.  The strategies are kept under the values of `ConflictStrategy`; the one that asks a human
works on the validation engine.
-/

namespace Tmis.IntegrationHub

open Tmis.Lib Tmis.AiGovernance.HumanValidation

/-- One record read from an external system. -/
structure ConnectorRecord where
  externalId : String
  data : Dict String String := ∅
  updatedAt : Option PyDatetime := none
  deriving DecidableEq

inductive ConflictStrategy where
  | localWins | remoteWins | lastWriteWins | humanValidation
  deriving DecidableEq

namespace ConflictStrategy

/-- The member's name and its value. -/
def names : ConflictStrategy → String × String
  | localWins => ("LOCAL_WINS", "local_wins")
  | remoteWins => ("REMOTE_WINS", "remote_wins")
  | lastWriteWins => ("LAST_WRITE_WINS", "last_write_wins")
  | humanValidation => ("HUMAN_VALIDATION", "human_validation")

/-- `repr`. -/
def repr (strategy : ConflictStrategy) : String :=
  "<ConflictStrategy." ++ strategy.names.1 ++ ": " ++ pyRepr strategy.names.2 ++ ">"

end ConflictStrategy

structure ConflictContext where
  connectorId : String
  firmId : String
  entityType : String
  externalId : String
  localRecord : ConnectorRecord
  remoteRecord : ConnectorRecord
  deriving DecidableEq

structure ConflictResolution where
  resolvedRecord : Option ConnectorRecord
  strategyUsed : ConflictStrategy
  pendingHumanValidation : Bool := false
  detail : String := ""

def LocalWinsStrategy.resolve (context : ConflictContext) : ConflictResolution where
  resolvedRecord := context.localRecord
  strategyUsed := .localWins
  detail := "Enregistrement local conservé"

def RemoteWinsStrategy.resolve (context : ConflictContext) : ConflictResolution where
  resolvedRecord := context.remoteRecord
  strategyUsed := .remoteWins
  detail := "Enregistrement distant retenu"

/-- `local_ts is not None and (remote_ts is None or local_ts >= remote_ts)`. -/
def LastWriteWinsStrategy.localIsNewer (context : ConflictContext) : Except PyException Bool :=
  match context.localRecord.updatedAt, context.remoteRecord.updatedAt with
  | none, _ => .ok false
  | some _, none => .ok true
  | some localTs, some remoteTs => localTs.ge remoteTs

def LastWriteWinsStrategy.resolve (context : ConflictContext) :
    Except PyException ConflictResolution :=
  (localIsNewer context).map fun newer =>
    if newer then
      { resolvedRecord := context.localRecord
        strategyUsed := .lastWriteWins
        detail := "Enregistrement local plus récent" }
    else
      { resolvedRecord := context.remoteRecord
        strategyUsed := .lastWriteWins
        detail := "Enregistrement distant plus récent" }

/-- The resolution, and the validation engine after it. -/
def HumanValidationStrategy.resolve (approverIds : List String) (validation : HumanValidationEngine)
    (context : ConflictContext) : ConflictResolution × HumanValidationEngine :=
  let productionId := context.connectorId ++ ":" ++ context.externalId
  if validation.isValidated context.firmId productionId then
    ({ resolvedRecord := context.remoteRecord
       strategyUsed := .humanValidation
       detail := "Validé par un humain — enregistrement distant retenu" }, validation)
  else
    ({ resolvedRecord := none
       strategyUsed := .humanValidation
       pendingHumanValidation := true
       detail := "En attente de validation humaine" },
      if validation.history context.firmId productionId = [] then
        (validation.requestSimple context.firmId productionId "integration_hub" approverIds).2
      else validation)

/-- A strategy with its own configuration. -/
inductive Strategy where
  | localWins | remoteWins | lastWriteWins
  | humanValidation (approverIds : List String)

/-- The member of `ConflictStrategy` that a strategy says it is. -/
def Strategy.strategy : Strategy → ConflictStrategy
  | localWins => .localWins
  | remoteWins => .remoteWins
  | lastWriteWins => .lastWriteWins
  | humanValidation _ => .humanValidation

/-- The resolution, and the validation engine after it. -/
def Strategy.resolve (validation : HumanValidationEngine) (context : ConflictContext) :
    Strategy → Except PyException (ConflictResolution × HumanValidationEngine)
  | localWins => .ok (LocalWinsStrategy.resolve context, validation)
  | remoteWins => .ok (RemoteWinsStrategy.resolve context, validation)
  | lastWriteWins => (LastWriteWinsStrategy.resolve context).map fun resolution =>
      (resolution, validation)
  | humanValidation approverIds =>
      .ok (HumanValidationStrategy.resolve approverIds validation context)

structure ConflictResolutionEngine where
  strategies : Dict ConflictStrategy Strategy

namespace ConflictResolutionEngine

def register (engine : ConflictResolutionEngine) (strategy : Strategy) : ConflictResolutionEngine :=
  ⟨engine.strategies.set strategy.strategy strategy⟩

/-- The engine with `default_strategies()`. -/
def default : ConflictResolutionEngine :=
  ((ConflictResolutionEngine.mk ∅).register .localWins |>.register .remoteWins).register .lastWriteWins

def resolve (engine : ConflictResolutionEngine) (validation : HumanValidationEngine)
    (context : ConflictContext) (strategy : ConflictStrategy) :
    Except PyException (ConflictResolution × HumanValidationEngine) :=
  match engine.strategies.get strategy with
  | none => .error ⟨"UnknownConflictStrategyError", strategy.repr⟩
  | some impl => impl.resolve validation context

end ConflictResolutionEngine

end Tmis.IntegrationHub
