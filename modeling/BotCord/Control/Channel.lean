import BotCord.Foundation.Run
import BotCord.Protocol.Canonical

/-!
# The control channel of the daemon

`onMessage` of `packages/daemon/src/control-channel.ts`. A frame of the Hub passes the replay window, the signature check and the list of the latest ids before the handler sees it. Whether a signature is one of a text under a public key is a parameter, and so is the text of a number.
-/

namespace BotCord.Control

open Protocol

/-- `REPLAY_DEDUPE_CAP` -/
@[irreducible] def REPLAY_DEDUPE_CAP : ℕ := 256

/-- Five minutes, in milliseconds. -/
def REPLAY_WINDOW_MS : ℚ := 5 * 60 * 1000

/-- The number that a binary64 stands for. -/
def toRat (d : Double) : ℚ :=
  (if d.sign then -1 else 1) *
    (if d.exponent.val = 0 then (d.fraction.val : ℚ) * 2 ^ (-1074 : ℤ)
    else (2 ^ 52 + d.fraction.val : ℚ) * 2 ^ ((d.exponent.val : ℤ) - 1075))

/-- A parsed frame with a textual id and type. `ts` and `sig` are `none` where they are not a number or a string. -/
structure ControlFrame where
  id : JsString
  type : JsString
  params : Option Value := none
  ts : Option Double := none
  sig : Option JsString := none

structure SignedFrame where
  id : JsString
  type : JsString
  params : Value
  ts : Double

/-- `params ?? {}` -/
def paramsOr (params : Option Value) : Value :=
  match params with
  | none | some .undefined | some .null => .object []
  | some value => value

/-- A frame without a timestamp is signed as one of the time zero. -/
def ControlFrame.signed (frame : ControlFrame) : SignedFrame where
  id := frame.id
  type := frame.type
  params := paramsOr frame.params
  ts := frame.ts.getD .zero

/-- What arrives on the socket: text that is not JSON, an acknowledgement or something else that is no frame, or a frame. -/
inductive Incoming
  | notJson | ack | malformed
  | frame (frame : ControlFrame)

inductive AckError
  | staleTs (skewMs : ℚ)
  | unsigned | badSignature

def AckError.code : AckError → String
  | .staleTs _ => "stale_ts"
  | .unsigned => "unsigned"
  | .badSignature => "bad_signature"

inductive AckResult
  | error (error : AckError)
  | duplicate | acknowledged

structure ControlAck where
  id : JsString
  result : AckResult

def ControlAck.ok (ack : ControlAck) : Bool :=
  match ack.result with
  | .error _ => false
  | _ => true

structure Options where
  hubPublicKeys : List String
  numberText : Double → JsString
  verifyEd25519 : String → JsString → JsString → Bool

namespace Options

variable (options : Options)

def controlSigningInput (frame : SignedFrame) : JsString :=
  (jcsCanonicalize options.numberText (.object [(units "id", .string frame.id), (units "type", .string frame.type),
    (units "params", frame.params), (units "ts", .number frame.ts)])).getD (units "\x7b\x7d")

def signatureError (frame : ControlFrame) : Option AckError :=
  if options.hubPublicKeys = [] then none
  else match frame.sig.filter (· ≠ []) with
    | none => some .unsigned
    | some sig =>
      if options.hubPublicKeys.any fun key => options.verifyEd25519 key (options.controlSigningInput frame.signed) sig then
        none
      else some .badSignature

end Options

/-- `handled`: the frames the handler was invoked with, and when. `accepted`: the frames whose ids have entered the list of the latest ids. -/
structure ControlChannel where
  clock : ℤ := 0
  connected : Bool := true
  expired : Bool := false
  stopRequested : Bool := false
  seenFrameIds : List JsString := []
  acks : List ControlAck := []
  accepted : List ControlFrame := []
  handled : List (ControlFrame × ℤ) := []

namespace ControlChannel

variable (c : ControlChannel)

def sendAck (ack : ControlAck) : ControlChannel := if c.connected then { c with acks := c.acks ++ [ack] } else c

def REVOKE : JsString := units "revoke"

/-- The id enters the list; the oldest one leaves it once there are too many. -/
def remember (frame : ControlFrame) : ControlChannel :=
  { c with
    seenFrameIds := (c.seenFrameIds ++ [frame.id]).rtake REPLAY_DEDUPE_CAP
    accepted := c.accepted ++ [frame] }

def stop : ControlChannel := { c with stopRequested := true, connected := false }

/-- A revocation is dealt with by the channel; any other frame goes to the handler. -/
def dispatch (now : ℤ) (frame : ControlFrame) : ControlChannel :=
  if frame.type = REVOKE then
    ({ c with expired := true }.sendAck { id := frame.id, result := .acknowledged }).stop
  else { c with handled := c.handled ++ [(frame, now)] }

def skewMs (now : ℤ) (ts : Double) : ℚ := |(now : ℚ) - toRat ts|

def staleTs (now : ℤ) (frame : ControlFrame) : Option Double :=
  frame.ts.filter fun ts => REPLAY_WINDOW_MS < skewMs now ts

def admitId (now : ℤ) (frame : ControlFrame) : ControlChannel :=
  if frame.id ∈ c.seenFrameIds then c.sendAck { id := frame.id, result := .duplicate }
  else (c.remember frame).dispatch now frame

def onMessage (options : Options) (now : ℤ) : Incoming → ControlChannel
  | .notJson | .ack | .malformed => c
  | .frame frame =>
    match staleTs now frame with
    | some ts => c.sendAck { id := frame.id, result := .error (.staleTs (skewMs now ts)) }
    | none =>
      match options.signatureError frame with
      | some error => c.sendAck { id := frame.id, result := .error error }
      | none => c.admitId now frame

end ControlChannel

inductive ControlAction
  | deliver (now : ℤ) (incoming : Incoming)
  | connect | disconnect

/-- The ids stay through every reconnect, and the clock does not go back. -/
def controlSystem (options : Options) : System ControlChannel ControlAction where
  step c
    | .deliver now incoming => if c.clock ≤ now then some ({ c with clock := now }.onMessage options now incoming) else none
    | .connect => some { c with connected := true }
    | .disconnect => some { c with connected := false }

end BotCord.Control
