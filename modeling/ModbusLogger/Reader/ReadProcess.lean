import ModbusLogger.Reader.Device

/-!
# Modbus requests (`read_process` of `reading_loop/read_master_struct.rs`)

What the world answers is a parameter: the clock, the replies on the wire, the connection attempts
and the database. Everything that the code asks of the world happens at a moment of its own, and the
moments are counted, so that an `Environment` is one course of events among all that are possible.
-/

namespace ModbusLogger.Reader

open FixedWidth

inductive ExceptionCode where
  | illegalFunction
  | illegalDataAddress
  | illegalDataValue
  | serverDeviceFailure
  | acknowledge
  | serverDeviceBusy
  | memoryParityError
  | gatewayPathUnavailable
  | gatewayTargetDevice
  | custom (code : Nat)
  deriving DecidableEq, Repr

/-- The kinds of I/O errors that are told apart. -/
inductive ErrorKind where
  | connectionRefused
  | connectionReset
  | hostUnreachable
  | networkUnreachable
  | connectionAborted
  | notConnected
  | brokenPipe
  | timedOut
  | networkDown
  | other
  deriving DecidableEq, Repr

inductive ProtocolError where
  | functionCodeMismatch
  | headerMismatch
  deriving DecidableEq, Repr

/-- The errors of the Modbus client. -/
inductive ModbusError where
  | transport (kind : ErrorKind)
  | protocol (error : ProtocolError)
  deriving DecidableEq, Repr

/-- How a request ends: after the timeout, with an error of the client, with an exception of the
device, or with data. -/
inductive Reply (W : Type*) where
  | elapsed
  | error (error : ModbusError)
  | exception (code : ExceptionCode)
  | data (values : List W)

inductive ModbusReadError where
  | timeout
  | deviceProtocolError
  | socketFail
  | removeStep
  | headerMisMatch
  deriving DecidableEq, Repr

abbrev ModbusReadResult := Except ModbusReadError (List Word)

def readProcess {W : Type*} (into : W → Word) : Reply W → ModbusReadResult
  | .data rawValues => .ok (rawValues.map into)
  | .exception code =>
    match code with
    | .illegalFunction => .error .removeStep
    | .illegalDataAddress => .error .removeStep
    | .illegalDataValue => .error .timeout
    | .memoryParityError => .error .timeout
    | .serverDeviceBusy => .error .timeout
    | .acknowledge => .error .timeout
    | .serverDeviceFailure => .error .socketFail
    | .gatewayPathUnavailable => .error .socketFail
    | .gatewayTargetDevice => .error .socketFail
    | .custom _ => .error .timeout
  | .error (.transport kind) =>
    match kind with
    | .other => .error .timeout
    | _ => .error .socketFail
  | .error (.protocol .functionCodeMismatch) => .error .deviceProtocolError
  | .error (.protocol .headerMismatch) => .error .headerMisMatch
  | .elapsed => .error .timeout

/-- `bool` into `u16` -/
def bitWord (bit : Bool) : Word := if bit then 1 else 0

/-- The answers of the world, by moment. The clock is in milliseconds since the epoch and is
negative before it. The database may fail to answer the request for the devices any number of times
before it does. -/
structure Environment (J : Type*) where
  settings : Settings J
  clock : Nat → Int
  words : Nat → Reply Word
  bits : Nat → Reply Bool
  parses : String → Bool
  connects : Nat → Bool
  devices : Nat → Nat × List DeviceRead
  values : Nat → Option (List (ValueRead J))

namespace Environment

variable {J : Type*} (env : Environment J)

/-- `duration.as_millis() as u64`, if the clock is not before the epoch. -/
def millis (moment : Nat) : Option Nat :=
  if 0 ≤ env.clock moment then some (asU64 (env.clock moment)) else none

/-- `duration.as_secs() as i64`, if the clock is not before the epoch. -/
def seconds (moment : Nat) : Option Int :=
  if 0 ≤ env.clock moment then some (env.clock moment / 1000) else none

def getTime (moment : Nat) : Nat := (env.millis moment).getD 0

/-- The request of a step. -/
def request (step : ReadStep) (moment : Nat) : ModbusReadResult :=
  match step.regType with
  | .input => readProcess id (env.words moment)
  | .holding => readProcess id (env.words moment)
  | .coils => readProcess bitWord (env.bits moment)
  | .discrete => readProcess bitWord (env.bits moment)

end Environment

end ModbusLogger.Reader
