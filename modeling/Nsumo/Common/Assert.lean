namespace Nsumo.Common

abbrev Byte := BitVec 8

/-- The functions that hold an `ASSERT`.  A failing one stops the motors and never returns. -/
inductive Assert : Type
  | ringBufferGet
  | ringBufferPeekTail
  | ringBufferPeekHead
  | isrUartTx
  | ioInit
  | ioRegisterIsr
  | pwmSetDutyCycle
  | pwmInit
  | tb6612fngAssertIoCfg
  | tb6612fngInit
  | driveInit
  | driveSet
  | takeInternalEvent
  | stateMachinePostInternalEvent
  | processEvent
  | stateWaitEnter
  | stateSearchEnter
  | nextAttackState
  | stateAttackEnter
  | nextRetreatState
  | startRetreatMove
  | stateRetreatEnter
  | vl53l0xReadRangeMultiple
  deriving DecidableEq, Repr

def assert (expression : Bool) (site : Assert) : Except Assert Unit :=
  if expression then .ok () else .error site

@[simp] theorem assert_true (site : Assert) : assert true site = .ok () := rfl

@[simp] theorem assert_false (site : Assert) : assert false site = .error site := rfl

end Nsumo.Common
