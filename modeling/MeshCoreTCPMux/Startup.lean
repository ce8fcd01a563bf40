import MeshCoreTCPMux.Protocol.Responses

/-!
# Startup

Synchronizes a newly connected companion before any client is admitted: it fences off the replies
that an earlier connection left behind, verifies the protocol level and resets the flood scope.

No call that raises changes a field: `validateDeviceInfo` and `downstreamDeviceInfo` accept the same
frames, so either both assignments that depend on them are made or none.
-/

namespace MeshCoreTCPMux

/-- What `receive` raises: a `Startup::Error`, or an exception that it does not rescue. -/
inductive StartupError
  | startup (message : Text)
  | raised (error : Error)
  deriving DecidableEq

/-- `rescue ex : Protocol::ProtocolError`. -/
def rescued {α : Type} : Except Error α → Except StartupError α
  | .ok a => .ok a
  | .error (.protocol message) => .error (.startup message)
  | .error e => .error (.raised e)

namespace Protocol

/-- The 32-byte public key of a `SELF_INFO`. -/
def validateSelfInfo (payload : Bytes) : Except Error Bytes :=
  if ¬ (payload.length ≥ 58 ∧ opcode payload = respSelfInfo) then
    .error (.protocol ["malformed SELF_INFO"])
  else sliceAt payload 4 32

/-- `APP_START`: seven reserved bytes, then the application name. -/
def appStartPayload (appName : Bytes) (reserved : Bytes := List.replicate 7 0) :
    Except Error Bytes :=
  if reserved.length ≠ 7 then
    .error (.argument ["APP_START reserved field must be seven bytes"])
  else if 8 + appName.length > maxPayload then
    .error (.argument ["APP_START payload exceeds native profile"])
  else .ok (cmdAppStart :: reserved ++ appName)

def deviceQueryPayload (target : UInt8 := upstreamAppTarget) : Bytes := [cmdDeviceQuery, target]

end Protocol

open Protocol

structure Startup where
  selfKey : Option Bytes := none
  deviceInfo : Option Bytes := none
  upstreamProtocolLevel : Option UInt8 := none
  exposedProtocolLevel : Option UInt8 := none
  downstreamDeviceInfo : Option Bytes := none
  deadline : Time
  selfRun : Nat := 0
  awaitingScope : Bool := false
  ready : Bool := false
  deriving DecidableEq

namespace Startup

def new (now : Time) (timeout : Time := seconds 15) : Startup := { deadline := now + timeout }

/-- The bytes of `"meshcore-tcp-mux"`. -/
def appName : Bytes :=
  ['m', 'e', 's', 'h', 'c', 'o', 'r', 'e', '-', 't', 'c', 'p', '-', 'm', 'u', 'x'].map
    fun c => UInt8.ofNat c.toNat

def appStart : Except Error Bytes := appStartPayload appName

/-- Five `APP_START`s fence off the four frames that a companion may retain; `DEVICE_QUERY` requests
the mux-owned dialect. -/
def probes : Except Error (List Bytes) := do
  let start ← appStart
  return List.replicate 5 start ++ [deviceQueryPayload]

def checkDeadline (s : Startup) (now : Time) : Except StartupError Unit :=
  if ¬ s.ready ∧ now ≥ s.deadline then .error (.startup ["startup synchronization timeout"])
  else .ok ()

/-- Take a frame from the companion; the answer is the next internal command, if there is one. -/
def receive (s : Startup) (payload : Bytes) (now : Time) :
    Except StartupError (Option Bytes × Startup) := do
  s.checkDeadline now
  if payload.length = 0 then throw (.startup ["empty startup response"])
  else if opcode payload ≥ pushAdvert then return (none, s)
  else if s.ready then throw (.startup ["ordinary response after startup boundary"])
  else if s.awaitingScope then
    if payload ≠ [respOk] then throw (.startup ["startup scope reset rejected"])
    else return (none, { s with ready := true })
  else if opcode payload = respSelfInfo then
    let selfKey ← rescued (validateSelfInfo payload)
    return (none, { s with selfKey := some selfKey, selfRun := s.selfRun + 1 })
  else if opcode payload = respDeviceInfo ∧ s.selfRun ≥ 5 then
    let actual ← rescued (validateDeviceInfo payload)
    let downstream ← rescued (Protocol.downstreamDeviceInfo payload)
    let exposed ← rescued (byteAt downstream 1)
    return (some [cmdSetFloodScopeKey, 0],
      { s with upstreamProtocolLevel := some actual, downstreamDeviceInfo := some downstream,
               exposedProtocolLevel := some exposed, deviceInfo := some payload,
               awaitingScope := true })
  else return (none, { s with selfRun := 0, selfKey := none })

/-- Take frames at their times, until an exception is raised. -/
def receiveAll (s : Startup) : List (Bytes × Time) →
    Except StartupError (List (Option Bytes) × Startup)
  | [] => .ok ([], s)
  | (payload, now) :: frames => do
    let (command, s) ← s.receive payload now
    let (commands, s) ← receiveAll s frames
    return (command :: commands, s)

end Startup
end MeshCoreTCPMux
